import Mathlib.Data.List.Nodup
import Mathlib.Tactic

/-! # Fields of objects

The own fields of an object, in their order: a field that is assigned keeps its place, and a new one
is appended.

* `lookup_assign`: what is found after an assignment.
* `lookup_assignAll`: what is found after fields with different keys are assigned. -/

namespace GameClub.Lib.Fields

variable {κ ν : Type} [BEq κ] [LawfulBEq κ]

/-- The field `k` is assigned `v`. -/
def assign (k : κ) (v : ν) : List (κ × ν) → List (κ × ν)
  | [] => [(k, v)]
  | f :: fields => if f.1 == k then (k, v) :: fields else f :: assign k v fields

/-- **Lookup after an assignment.** -/
theorem lookup_assign (k : κ) (v : ν) (fields : List (κ × ν)) (k' : κ) :
    (assign k v fields).lookup k' = if k' == k then some v else fields.lookup k' := by
  induction fields with
  | nil =>
    simp only [assign, List.lookup_cons, List.lookup_nil]
    cases k' == k <;> rfl
  | cons f fields ih =>
    obtain ⟨key, w⟩ := f
    by_cases hkey : key = k
    · subst hkey
      simp only [assign, beq_self_eq_true, if_true, List.lookup_cons]
      cases k' == key <;> rfl
    · have hne : (key == k) = false := beq_eq_false_iff_ne.mpr hkey
      simp only [assign, hne, Bool.false_eq_true, if_false, List.lookup_cons, ih]
      cases hk : k' == key with
      | true => simp [eq_of_beq hk, hne]
      | false => rfl

/-- The keys after an assignment. -/
theorem mem_keys_assign {k k' : κ} {v : ν} {fields : List (κ × ν)} :
    k' ∈ (assign k v fields).map Prod.fst ↔ k' = k ∨ k' ∈ fields.map Prod.fst := by
  induction fields with
  | nil => simp [assign]
  | cons f fields ih =>
    obtain ⟨key, w⟩ := f
    by_cases hkey : key = k
    · subst hkey
      simp [assign]
    · have hne : (key == k) = false := beq_eq_false_iff_ne.mpr hkey
      simp only [assign, hne, Bool.false_eq_true, if_false, List.map_cons, List.mem_cons, ih]
      tauto

/-- Different keys stay different. -/
theorem nodup_assign (k : κ) (v : ν) {fields : List (κ × ν)} (h : (fields.map Prod.fst).Nodup) :
    ((assign k v fields).map Prod.fst).Nodup := by
  induction fields with
  | nil => simp [assign]
  | cons f fields ih =>
    obtain ⟨key, w⟩ := f
    obtain ⟨hnot, hnodup⟩ := List.nodup_cons.mp h
    by_cases hkey : key = k
    · subst hkey
      simp only [assign, beq_self_eq_true, if_true, List.map_cons]
      exact List.nodup_cons.mpr ⟨hnot, hnodup⟩
    · have hne : (key == k) = false := beq_eq_false_iff_ne.mpr hkey
      simp only [assign, hne, Bool.false_eq_true, if_false, List.map_cons]
      refine List.nodup_cons.mpr ⟨fun hmem => ?_, ih hnodup⟩
      rcases mem_keys_assign.mp hmem with hk | hold
      · exact hkey hk
      · exact hnot hold

/-- The fields of `others` are assigned, one after another. -/
def assignAll (others fields : List (κ × ν)) : List (κ × ν) :=
  others.foldl (fun fields f => assign f.1 f.2 fields) fields

/-- **Lookup after assignments** of different keys. -/
theorem lookup_assignAll {others : List (κ × ν)} (h : (others.map Prod.fst).Nodup)
    (fields : List (κ × ν)) (k : κ) :
    (assignAll others fields).lookup k = (others.lookup k).or (fields.lookup k) := by
  unfold assignAll
  induction others generalizing fields with
  | nil => rfl
  | cons f others ih =>
    obtain ⟨key, v⟩ := f
    obtain ⟨hnot, hnodup⟩ := List.nodup_cons.mp h
    rw [List.foldl_cons, ih hnodup, lookup_assign, List.lookup_cons]
    cases hk : k == key with
    | true =>
      have hnone : others.lookup k = none := by
        refine List.lookup_eq_none_iff.mpr fun f hf => bne_iff_ne.mpr fun heq => hnot ?_
        rw [← eq_of_beq hk, heq]
        exact List.mem_map.mpr ⟨f, hf, rfl⟩
      rw [hnone]
      rfl
    | false => rfl

theorem nodup_assignAll (others : List (κ × ν)) {fields : List (κ × ν)}
    (h : (fields.map Prod.fst).Nodup) : ((assignAll others fields).map Prod.fst).Nodup := by
  unfold assignAll
  induction others generalizing fields with
  | nil => exact h
  | cons f others ih => exact ih (nodup_assign f.1 f.2 h)

end GameClub.Lib.Fields
