import Mathlib.Data.List.Pairwise
import Mathlib.Tactic

/-! # Times that come in spaced groups

A list of times, the last one first, in which each time is at least `W` after the one that is `k`
places before its predecessor.

* `Spaced.window_le`: a half-open window of length `W` has at most `k + 1` of them. -/

namespace GameClub.Lib

/-- The times are in order, and each is at least `W` after the one `k + 1` places before. -/
def Spaced (W : ℤ) (k : ℕ) : List ℤ → Prop
  | [] => True
  | t :: times => (∀ y ∈ times, y ≤ t) ∧ (∀ y, times[k]? = some y → y + W ≤ t) ∧ Spaced W k times

namespace Spaced

variable {W : ℤ} {k : ℕ} {times : List ℤ}

theorem pairwise (h : Spaced W k times) : times.Pairwise (fun x y => y ≤ x) := by
  induction times with
  | nil => exact .nil
  | cons t times ih => exact .cons h.1 (ih h.2.2)

/-- What comes before a place is no later than what is there. -/
theorem le_of_mem_drop (h : Spaced W k times) {n : ℕ} {x y : ℤ} (hx : times[n]? = some x)
    (hy : y ∈ times.drop n) : y ≤ x := by
  obtain ⟨hn, rfl⟩ := List.getElem?_eq_some_iff.mp hx
  rw [List.drop_eq_getElem_cons hn] at hy
  rcases List.mem_cons.mp hy with rfl | hmem
  · exact le_rfl
  · have hdrop : (times.drop n).Pairwise fun x y => y ≤ x := h.pairwise.drop
    rw [List.drop_eq_getElem_cons hn] at hdrop
    exact (List.pairwise_cons.mp hdrop).1 y hmem

/-- **A half-open window of length `W` has at most `k + 1` of the times.** -/
theorem window_le (h : Spaced W k times) (t : ℤ) :
    (times.filter fun y => t ≤ y ∧ y < t + W).length ≤ k + 1 := by
  induction times with
  | nil => simp
  | cons t₀ times ih =>
    obtain ⟨-, hgap, hrest⟩ := h
    by_cases hin : t ≤ t₀ ∧ t₀ < t + W
    · -- from the place `k` on, the others are before the window
      have hdrop : (times.drop k).filter (fun y => decide (t ≤ y ∧ y < t + W)) = [] := by
        refine List.filter_eq_nil_iff.mpr fun y hy => ?_
        have hk : k < times.length := by
          by_contra hlen
          rw [List.drop_eq_nil_of_le (by omega)] at hy
          cases hy
        have hx := List.getElem?_eq_getElem hk
        have hle := hrest.le_of_mem_drop hx hy
        have hbefore := hgap _ hx
        simp only [decide_eq_true_eq, not_and]
        intro _
        omega
      have htake : (times.filter fun y => decide (t ≤ y ∧ y < t + W)).length ≤ k := by
        rw [← List.take_append_drop k times, List.filter_append, hdrop, List.append_nil]
        exact (List.length_filter_le _ _).trans (List.length_take_le _ _)
      rw [List.filter_cons_of_pos (by simpa using hin), List.length_cons]
      omega
    · rw [List.filter_cons_of_neg (by simpa using hin)]
      exact ih hrest

end Spaced

end GameClub.Lib
