import Mathlib.Data.List.Infix
import Mathlib.Data.List.TakeWhile
import Mathlib.Tactic

/-! # The text after a marker

An unanchored search `marker([^stop]+)`: the first place where the marker stands with something
after it that is not `stop`, and the longest such text there.

* `capture_eq_some`, `capture_eq_none`: what is found, by the places of the marker.
* `capture_stop`: a marker without `stop` is found in one of the segments between two stops.
* `capture_named`: a search for a name and a delimiter in `name delimiter value`. -/

namespace GameClub.Lib.Capture

variable {α : Type} [DecidableEq α]

/-- The text up to `stop`. -/
def upTo (stop : α) (text : List α) : List α := text.takeWhile (· ≠ stop)

/-- **The text after the marker**, at the first place where there is some. -/
def capture (marker : List α) (stop : α) : List α → Option (List α)
  | [] => none
  | c :: text =>
    let found := upTo stop ((c :: text).drop marker.length)
    if marker <+: c :: text ∧ found ≠ [] then some found else capture marker stop text

variable {marker text : List α} {stop : α}

theorem upTo_eq_self (h : stop ∉ text) : upTo stop text = text :=
  List.takeWhile_eq_self_iff.mpr fun c hc => by simpa using fun heq : c = stop => h (heq ▸ hc)

theorem upTo_append (rest : List α) (h : stop ∉ text) : upTo stop (text ++ stop :: rest) = text := by
  unfold upTo
  rw [List.takeWhile_append_of_pos fun c hc => by simpa using fun heq : c = stop => h (heq ▸ hc)]
  simp

/-! ### What is found -/

/-- One step of the search: it ends where the marker stands with something after it. -/
theorem capture_here {after : List α} (h : marker ++ after ≠ []) (hafter : upTo stop after ≠ []) :
    capture marker stop (marker ++ after) = some (upTo stop after) := by
  obtain ⟨c, text, htext⟩ := List.exists_cons_of_ne_nil h
  have hdrop : (c :: text).drop marker.length = after := by rw [← htext, List.drop_left]
  rw [htext, capture, hdrop]
  exact if_pos ⟨htext ▸ List.prefix_append marker after, hafter⟩

/-- It goes on where it does not. -/
theorem capture_skip {c : α} (h : ∀ after, c :: text = marker ++ after → upTo stop after = []) :
    capture marker stop (c :: text) = capture marker stop text := by
  rw [capture]
  refine if_neg fun ⟨⟨after, hafter⟩, hfound⟩ => hfound ?_
  have hdrop : (c :: text).drop marker.length = after := by rw [← hafter, List.drop_left]
  rw [hdrop]
  exact h after hafter.symm

theorem capture_cons_ne {c : α} (h : marker.head? ≠ some c) (hne : marker ≠ []) :
    capture marker stop (c :: text) = capture marker stop text := by
  refine capture_skip fun after heq => absurd ?_ h
  obtain ⟨d, ds, rfl⟩ := List.exists_cons_of_ne_nil hne
  rw [List.cons_append] at heq
  rw [(List.cons.inj heq).1]
  rfl

/-- **Nothing is found** where nothing follows the marker anywhere. -/
theorem capture_eq_none (hne : marker ≠ []) : capture marker stop text = none ↔
    ∀ before after, text = before ++ (marker ++ after) → upTo stop after = [] := by
  induction text with
  | nil =>
    refine ⟨fun _ before after heq => ?_, fun _ => rfl⟩
    simp [hne] at heq
  | cons c text ih =>
    constructor
    · intro h before after heq
      by_contra hafter
      rcases before with _ | ⟨d, before⟩
      · rw [List.nil_append] at heq
        rw [heq, capture_here (by rw [← heq]; simp) hafter] at h
        cases h
      · have hskip : capture marker stop text = none := by
          rw [capture] at h
          split_ifs at h
          exact h
        exact hafter (ih.mp hskip before after (List.cons.inj heq).2)
    · intro h
      rw [capture_skip fun after heq => h [] after heq]
      exact ih.mpr fun before after heq => h (c :: before) after (by rw [heq]; rfl)

/-- **What is found** follows the marker at the first place where something does. -/
theorem capture_eq_some (hne : marker ≠ []) {found : List α} : capture marker stop text = some found ↔
    ∃ before after, text = before ++ (marker ++ after) ∧ upTo stop after = found ∧ found ≠ [] ∧
      ∀ before' after', text = before' ++ (marker ++ after') → upTo stop after' ≠ [] →
        before.length ≤ before'.length := by
  induction text with
  | nil =>
    refine ⟨nofun, fun ⟨before, after, heq, _⟩ => ?_⟩
    simp [hne] at heq
  | cons c text ih =>
    by_cases hhere : ∃ after, c :: text = marker ++ after ∧ upTo stop after ≠ []
    · obtain ⟨after, heq, hafter⟩ := hhere
      rw [heq, capture_here (by rw [← heq]; simp) hafter]
      constructor
      · intro h
        exact ⟨[], after, rfl, Option.some.inj h, Option.some.inj h ▸ hafter,
          fun _ _ _ _ => Nat.zero_le _⟩
      · rintro ⟨before, after', heq', rfl, -, hfirst⟩
        have hzero : before.length ≤ 0 := hfirst [] after rfl hafter
        rw [List.eq_nil_of_length_eq_zero (Nat.le_zero.mp hzero), List.nil_append] at heq'
        rw [List.append_cancel_left heq']
    · push Not at hhere
      rw [capture_skip hhere, ih]
      constructor
      · rintro ⟨before, after, rfl, hfound, hfoundne, hfirst⟩
        refine ⟨c :: before, after, rfl, hfound, hfoundne, fun before' after' heq hafter' => ?_⟩
        rcases before' with _ | ⟨d, before'⟩
        · exact absurd (hhere after' heq) hafter'
        · exact Nat.succ_le_succ (hfirst before' after' (List.cons.inj heq).2 hafter')
      · rintro ⟨before, after, heq, hfound, hfoundne, hfirst⟩
        rcases before with _ | ⟨d, before⟩
        · exact absurd (hfound ▸ hhere after heq) hfoundne
        · refine ⟨before, after, (List.cons.inj heq).2, hfound, hfoundne,
            fun before' after' heq' hafter' => ?_⟩
          exact Nat.le_of_succ_le_succ (hfirst (c :: before') after' (by rw [heq']; rfl) hafter')

/-! ### Segments -/

/-- **The search is made segment by segment**; by induction on the first one. -/
theorem capture_stop (hmarker : stop ∉ marker) (hne : marker ≠ []) {segment rest : List α}
    (hsegment : stop ∉ segment) : capture marker stop (segment ++ stop :: rest) =
      (capture marker stop segment).or (capture marker stop rest) := by
  induction segment with
  | nil =>
    refine capture_cons_ne (fun hhead => hmarker ?_) hne
    exact List.mem_of_head? hhead
  | cons c segment ih =>
    have hrest : stop ∉ segment := fun h => hsegment (List.mem_cons_of_mem c h)
    by_cases hhere : ∃ after, c :: segment = marker ++ after ∧ after ≠ []
    · -- the marker and what is found are in the segment
      obtain ⟨after, heq, hafter⟩ := hhere
      have hstop : stop ∉ after := fun h => hsegment (by rw [heq]; simp [h])
      rw [heq, List.append_assoc, capture_here (by simp [hne]) (by rwa [upTo_append rest hstop]),
        capture_here (by simp [hne]) (by rwa [upTo_eq_self hstop]), upTo_append rest hstop,
        upTo_eq_self hstop]
      rfl
    · push Not at hhere
      have hskip : ∀ after, c :: segment = marker ++ after → upTo stop after = [] := by
        intro after heq
        rw [hhere after heq]
        rfl
      rw [capture_skip hskip, ← ih hrest, List.cons_append]
      refine capture_skip fun after heq => ?_
      -- the marker cannot reach over the stop
      rcases List.append_eq_append_iff.mp (show (c :: segment) ++ stop :: rest = marker ++ after
        from heq) with ⟨more, hmore, hcut⟩ | ⟨more, hmore, hcut⟩
      · rcases more with _ | ⟨d, more⟩
        · rw [List.nil_append] at hcut
          rw [← hcut]
          simp [upTo]
        · rw [List.cons_append] at hcut
          rw [hmore, ← (List.cons.inj hcut).1] at hmarker
          simp at hmarker
      · have hnil : more = [] := hhere more hmore
        rw [hcut, hnil]
        simp [upTo]

/-- **A search for a name** in `name delimiter value`: the name is at the end of the one there is, or
the search goes on in the value. -/
theorem capture_named {key name value : List α} {delimiter : α} (hkey : delimiter ∉ key)
    (hname : delimiter ∉ name) (hvalue : upTo stop value ≠ []) :
    capture (key ++ [delimiter]) stop (name ++ delimiter :: value) =
      if key <:+ name then some (upTo stop value)
      else capture (key ++ [delimiter]) stop value := by
  -- the marker at the beginning is the whole name
  have hwhole : ∀ {name after : List α}, delimiter ∉ name →
      name ++ delimiter :: value = key ++ [delimiter] ++ after → key = name ∧ after = value := by
    intro name after hname heq
    rw [List.append_assoc, List.singleton_append] at heq
    have h := congrArg (fun l => (upTo delimiter l, l.dropWhile (· ≠ delimiter))) heq
    have hupTo := congrArg Prod.fst h
    dsimp only at hupTo
    rw [upTo_append _ hname, upTo_append _ hkey] at hupTo
    subst hupTo
    exact ⟨rfl, (List.cons.inj (List.append_cancel_left heq)).2.symm⟩
  have hmatch : capture (key ++ [delimiter]) stop (key ++ delimiter :: value) =
      some (upTo stop value) := by
    have heq : key ++ delimiter :: value = (key ++ [delimiter]) ++ value := by simp
    rw [heq]
    exact capture_here (by simp) hvalue
  induction name with
  | nil =>
    by_cases hempty : key = []
    · subst hempty
      rw [if_pos List.suffix_rfl]
      exact hmatch
    · rw [if_neg (fun h => hempty (List.suffix_nil.mp h))]
      refine capture_skip fun after heq => absurd ?_ hempty
      exact (hwhole (by simp) heq).1
  | cons c name ih =>
    have hrest : delimiter ∉ name := fun h => hname (List.mem_cons_of_mem c h)
    by_cases hsame : key = c :: name
    · subst hsame
      rw [if_pos List.suffix_rfl]
      exact hmatch
    · have hsuffix : key <:+ c :: name ↔ key <:+ name :=
        ⟨fun h => (List.suffix_cons_iff.mp h).resolve_left hsame,
          fun h => h.trans (List.suffix_cons c name)⟩
      have hskip : capture (key ++ [delimiter]) stop (c :: (name ++ delimiter :: value)) =
          capture (key ++ [delimiter]) stop (name ++ delimiter :: value) :=
        capture_skip fun after heq => absurd (hwhole hname heq).1 hsame
      rw [List.cons_append, hskip, ih hrest]
      simp only [hsuffix]

end GameClub.Lib.Capture
