import Mathlib.Data.List.Sort
import Mathlib.Data.List.Dedup
import Mathlib.Tactic

/-! # Groups and rankings

`GROUP BY key` with a sum for each group, and the groups with the highest sums.

* `groups`, `top`: the two queries.
* `IsRanking`: what a ranking has to be. `isRanking_top`: it is one.
* `IsRanking.total`: the sum of everything is that of the groups listed and that of the others. -/

namespace GameClub.Lib.Ranking

variable {α κ : Type} [DecidableEq κ] (key : α → κ) (f : α → ℤ)

/-- The sum of a group. -/
def groupSum (l : List α) (k : κ) : ℤ := ((l.filter fun x => key x = k).map f).sum

/-- `GROUP BY key`: the keys that occur, each with its sum. -/
def groups (l : List α) : List (κ × ℤ) := (l.map key).dedup.map fun k => (k, groupSum key f l k)

/-- `ORDER BY sum DESC LIMIT n`. -/
def top (n : ℕ) (sums : List (κ × ℤ)) : List (κ × ℤ) :=
  (sums.insertionSort fun a b => b.2 ≤ a.2).take n

/-- **A ranking of at most `n` groups** of `l`: different groups with their sums, from the highest
down; no other group has a higher one, and none is left out while there is room. -/
structure IsRanking (n : ℕ) (l : List α) (listed : List (κ × ℤ)) : Prop where
  sums : ∀ x ∈ listed, x.1 ∈ l.map key ∧ x.2 = groupSum key f l x.1
  distinct : (listed.map Prod.fst).Nodup
  sorted : listed.Pairwise fun a b => b.2 ≤ a.2
  best : ∀ k ∈ l.map key, k ∉ listed.map Prod.fst → ∀ x ∈ listed, groupSum key f l k ≤ x.2
  length : listed.length = min n (l.map key).dedup.length

variable {key f}

/-! ### Sums of groups -/

theorem groupSum_cons (x : α) (l : List α) (k : κ) :
    groupSum key f (x :: l) k = (if key x = k then f x else 0) + groupSum key f l k := by
  unfold groupSum
  by_cases h : key x = k <;> simp [h]

/-- One of different keys is the key of `x`, or none. -/
theorem sum_ite_key {ks : List κ} (hks : ks.Nodup) (k : κ) (a : ℤ) :
    (ks.map fun k' => if k = k' then a else 0).sum = if k ∈ ks then a else 0 := by
  induction ks with
  | nil => simp
  | cons k' ks ih =>
    obtain ⟨hnot, hrest⟩ := List.nodup_cons.mp hks
    rw [List.map_cons, List.sum_cons, ih hrest]
    by_cases hk : k = k'
    · subst hk
      simp [hnot]
    · simp [hk]

/-- **The sums of different groups** come to the sum of what has one of their keys. -/
theorem sum_groupSum {ks : List κ} (hks : ks.Nodup) (l : List α) :
    (ks.map (groupSum key f l)).sum = ((l.filter fun x => key x ∈ ks).map f).sum := by
  induction l with
  | nil =>
    have hnil : groupSum key f [] = fun _ => 0 := rfl
    simp [hnil]
  | cons x l ih =>
    have hcons : ks.map (groupSum key f (x :: l)) =
        ks.map fun k => (if key x = k then f x else 0) + groupSum key f l k :=
      List.map_congr_left fun k _ => groupSum_cons x l k
    rw [hcons, List.sum_map_add, sum_ite_key hks, ih]
    by_cases hx : key x ∈ ks <;> simp [hx]

theorem sum_filter_add (p : α → Bool) (l : List α) :
    ((l.filter p).map f).sum + ((l.filter fun x => !p x).map f).sum = (l.map f).sum := by
  induction l with
  | nil => rfl
  | cons x l ih =>
    by_cases hx : p x
    · simp only [List.filter_cons, hx, if_true, Bool.not_true, Bool.false_eq_true, if_false,
        List.map_cons, List.sum_cons]
      omega
    · simp only [List.filter_cons, hx, Bool.not_false, if_true, Bool.false_eq_true, if_false,
        List.map_cons, List.sum_cons]
      omega

/-! ### The ranking -/

theorem mem_groups {l : List α} {x : κ × ℤ} :
    x ∈ groups key f l ↔ x.1 ∈ l.map key ∧ x.2 = groupSum key f l x.1 := by
  unfold groups
  rw [List.mem_map]
  constructor
  · rintro ⟨k, hk, rfl⟩
    exact ⟨List.mem_dedup.mp hk, rfl⟩
  · rintro ⟨hk, hsum⟩
    exact ⟨x.1, List.mem_dedup.mpr hk, Prod.ext rfl hsum.symm⟩

theorem groups_fst (l : List α) : (groups key f l).map Prod.fst = (l.map key).dedup := by
  unfold groups
  rw [List.map_map]
  exact List.map_id _

theorem isRanking_top (n : ℕ) (l : List α) : IsRanking key f n l (top n (groups key f l)) := by
  have hperm : ((groups key f l).insertionSort fun a b => b.2 ≤ a.2).Perm (groups key f l) :=
    List.perm_insertionSort _ _
  have hsorted : ((groups key f l).insertionSort fun a b => b.2 ≤ a.2).Pairwise
      fun a b => b.2 ≤ a.2 := by
    have htotal : Std.Total fun a b : κ × ℤ => b.2 ≤ a.2 := ⟨fun a b => le_total b.2 a.2⟩
    have htrans : IsTrans (κ × ℤ) fun a b => b.2 ≤ a.2 := ⟨fun a b c hab hbc => hbc.trans hab⟩
    exact List.pairwise_insertionSort _ _
  have hfst : (((groups key f l).insertionSort fun a b => b.2 ≤ a.2).map Prod.fst).Nodup := by
    rw [(hperm.map Prod.fst).nodup_iff, groups_fst]
    exact List.nodup_dedup _
  unfold top
  refine ⟨fun x hx => ?_, ?_, ?_, fun k hk hnot x hx => ?_, ?_⟩
  · exact mem_groups.mp (hperm.mem_iff.mp (List.mem_of_mem_take hx))
  · rw [List.map_take]
    exact hfst.sublist (List.take_sublist _ _)
  · exact hsorted.sublist (List.take_sublist _ _)
  · -- the group is among those after the first `n`
    have hmem : (k, groupSum key f l k) ∈
        (groups key f l).insertionSort fun a b => b.2 ≤ a.2 :=
      hperm.mem_iff.mpr (mem_groups.mpr ⟨hk, rfl⟩)
    rw [← List.take_append_drop n ((groups key f l).insertionSort fun a b => b.2 ≤ a.2)]
      at hmem hsorted
    rcases List.mem_append.mp hmem with htake | hdrop
    · exact absurd (List.mem_map_of_mem htake) hnot
    · exact (List.pairwise_append.mp hsorted).2.2 x hx _ hdrop
  · rw [List.length_take, hperm.length_eq, ← List.length_map Prod.fst, groups_fst]

/-- **Nothing is counted twice or lost**: the sum of everything is that of the groups listed and that
of the groups that are not. -/
theorem IsRanking.total {n : ℕ} {l : List α} {listed : List (κ × ℤ)}
    (h : IsRanking key f n l listed) : (listed.map Prod.snd).sum +
      ((l.filter fun x => key x ∉ listed.map Prod.fst).map f).sum = (l.map f).sum := by
  have hsnd : listed.map Prod.snd = (listed.map Prod.fst).map (groupSum key f l) := by
    rw [List.map_map]
    exact List.map_congr_left fun x hx => (h.sums x hx).2
  rw [hsnd, sum_groupSum h.distinct, ← sum_filter_add (fun x => key x ∈ listed.map Prod.fst) l]
  simp

/-- A ranking with room for more lists every group. -/
theorem IsRanking.complete {n : ℕ} {l : List α} {listed : List (κ × ℤ)}
    (h : IsRanking key f n l listed) (hroom : (l.map key).dedup.length ≤ n) :
    ∀ k ∈ l.map key, k ∈ listed.map Prod.fst := by
  have hsub : listed.map Prod.fst ⊆ (l.map key).dedup := by
    intro k hk
    obtain ⟨x, hx, rfl⟩ := List.mem_map.mp hk
    exact List.mem_dedup.mpr (h.sums x hx).1
  have hlen : (l.map key).dedup.length ≤ (listed.map Prod.fst).length := by
    rw [List.length_map, h.length, min_eq_right hroom]
  have hperm : (listed.map Prod.fst).Perm (l.map key).dedup :=
    (List.subperm_of_subset h.distinct hsub).perm_of_length_le hlen
  exact fun k hk => hperm.mem_iff.mpr (List.mem_dedup.mpr hk)

end GameClub.Lib.Ranking
