import Mathlib.Tactic

/-! # Memory with a time to live

What is remembered of a key is what was put under it last, until it expires or is dropped. That an
entry has expired is noticed only when it is asked for; what was written decides, not what is still
stored.

* `Write`, `remembered`: what is written, and what is remembered of it.
* `remembered_eq_some`: when a value is remembered. -/

namespace GameClub.Lib.Ttl

variable {κ ν ε : Type}

/-- A value is put under a key until a time, or the values of some keys are dropped. -/
inductive Write (κ ν : Type) : Type
  | put (key : κ) (value : ν) (expiresAt : ℤ)
  | drop (keys : κ → Bool)

namespace Write

/-- The write is about the key. -/
def touches [DecidableEq κ] (key : κ) : Write κ ν → Bool
  | .put k _ _ => decide (k = key)
  | .drop keys => keys key

/-- What is left of the write at a time. -/
def read (now : ℤ) : Write κ ν → Option ν
  | .put _ value expiresAt => if expiresAt ≤ now then none else some value
  | .drop _ => none

theorem read_eq_some {x : Write κ ν} {now : ℤ} {v : ν} :
    x.read now = some v ↔ ∃ key expiresAt, x = .put key v expiresAt ∧ now < expiresAt := by
  cases x with
  | put key value expiresAt =>
    rw [read]
    split_ifs with h
    · simp [h]
    · simp [not_le.mp h, eq_comm]
  | drop keys => simp [read]

/-- What is gone stays so. -/
theorem read_eq_none {x : Write κ ν} {t now : ℤ} (h : x.read t = none) (ht : t ≤ now) :
    x.read now = none := by
  cases x with
  | put key value expiresAt =>
    rw [read] at h ⊢
    split_ifs at h with hexpired
    exact if_pos (hexpired.trans ht)
  | drop keys => rfl

end Write

variable [DecidableEq κ]

/-- **What is remembered** of a key at a time, the last write first. -/
def remembered (key : κ) (now : ℤ) (log : List (Write κ ν)) : Option ν :=
  (log.find? fun x => x.touches key).bind fun x => x.read now

variable {key : κ} {now t : ℤ} {log : List (Write κ ν)} {x : Write κ ν} {v : ν}

theorem remembered_touched (h : x.touches key = true) :
    remembered key now (x :: log) = x.read now := by
  simp [remembered, h]

theorem remembered_untouched (h : x.touches key = false) :
    remembered key now (x :: log) = remembered key now log := by
  simp [remembered, h]

/-- What is not remembered any more is not remembered later. -/
theorem remembered_eq_none (h : remembered key t log = none) (ht : t ≤ now) :
    remembered key now log = none := by
  unfold remembered at h ⊢
  cases hfind : log.find? fun x => x.touches key with
  | none => rfl
  | some x =>
    rw [hfind] at h
    exact Write.read_eq_none h ht

/-- **A value is remembered** when it was put under the key, has not expired, and nothing that was
done since is about the key. The writes are those of a trace. -/
theorem remembered_eq_some {f : ε → Option (Write κ ν)} {tr : List ε} :
    remembered key now (tr.filterMap f) = some v ↔ ∃ later e earlier expiresAt,
      tr = later ++ e :: earlier ∧ f e = some (.put key v expiresAt) ∧ now < expiresAt ∧
        ∀ e' ∈ later, ∀ x, f e' = some x → x.touches key = false := by
  have huntouched : ∀ {later : List ε},
      (∀ e' ∈ later, (!(f e').any fun x => x.touches key) = true) ↔
        ∀ e' ∈ later, ∀ x, f e' = some x → x.touches key = false := by
    intro later
    refine forall₂_congr fun e' _ => ?_
    cases f e' with
    | none => simp
    | some x => simp
  rw [remembered, List.find?_filterMap, Option.bind_assoc]
  constructor
  · intro h
    obtain ⟨e, hfind, h⟩ := Option.bind_eq_some_iff.mp h
    obtain ⟨x, hx, hread⟩ := Option.bind_eq_some_iff.mp h
    obtain ⟨htouches, later, earlier, htr, hlater⟩ := List.find?_eq_some_iff_append.mp hfind
    obtain ⟨k, expiresAt, rfl, hnow⟩ := Write.read_eq_some.mp hread
    rw [hx] at htouches
    obtain rfl : k = key := of_decide_eq_true htouches
    exact ⟨later, e, earlier, expiresAt, htr, hx, hnow, huntouched.mp hlater⟩
  · rintro ⟨later, e, earlier, expiresAt, htr, hx, hnow, hlater⟩
    have htouches : ((f e).any fun x => x.touches key) = true := by
      rw [hx]
      exact decide_eq_true rfl
    refine Option.bind_eq_some_iff.mpr ⟨e, ?_, ?_⟩
    · exact List.find?_eq_some_iff_append.mpr ⟨htouches, later, earlier, htr, huntouched.mpr hlater⟩
    · rw [hx]
      exact Write.read_eq_some.mpr ⟨key, expiresAt, rfl, hnow⟩

end GameClub.Lib.Ttl
