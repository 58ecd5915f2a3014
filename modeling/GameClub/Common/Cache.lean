import GameClub.Lib.Ttl

/-! # The cache

A map with a time to live. An entry is dropped by a `get` that finds it expired, or by an
invalidation.

* `get_some`: what is served was set under that key.
* `delByPrefix_store`: an invalidation leaves no key with the prefix.
* `Agrees`: the map serves what is remembered of what was written, as every operation keeps it. -/

namespace GameClub.Common

structure CacheEntry (T : Type) where
  value : T
  expiresAt : ℤ

/-- The map of the cache. -/
structure CacheService (T : Type) where
  store : String → Option (CacheEntry T)

/-- `key.startsWith(start)`. -/
def startsWith (key start : String) : Bool := start.toList.isPrefixOf key.toList

namespace CacheService

variable {T : Type}

/-- `new Map()`. -/
def empty : CacheService T := ⟨fun _ => none⟩

def del (c : CacheService T) (key : String) : CacheService T :=
  ⟨Function.update c.store key none⟩

def get (c : CacheService T) (key : String) (now : ℤ) : Option T × CacheService T :=
  match c.store key with
  | none => (none, c)
  | some entry => if entry.expiresAt ≤ now then (none, c.del key) else (some entry.value, c)

def set (c : CacheService T) (key : String) (value : T) (ttlSeconds now : ℤ) : CacheService T :=
  ⟨Function.update c.store key (some ⟨value, now + ttlSeconds * 1000⟩)⟩

/-- Invalidate every key beginning with the given prefix. -/
def delByPrefix (c : CacheService T) (start : String) : CacheService T :=
  ⟨fun key => if startsWith key start then none else c.store key⟩

variable {c : CacheService T} {key k : String} {now ttl : ℤ} {v : T} {e : CacheEntry T}

/-- **What is served is an entry of that key.** -/
theorem get_some (h : (c.get key now).1 = some v) :
    ∃ entry, c.store key = some entry ∧ entry.value = v := by
  unfold get at h
  split at h
  · cases h
  · next entry hs =>
    split_ifs at h
    exact ⟨entry, hs, Option.some.inj h⟩

/-- A `get` adds no entry. -/
theorem store_get (h : (c.get key now).2.store k = some e) : c.store k = some e := by
  unfold get at h
  split at h
  · exact h
  · next entry hs =>
    split_ifs at h
    · by_cases hk : k = key
      · simp [del, hk] at h
      · simpa [del, hk] using h
    · exact h

/-- A `set` adds one entry. -/
theorem store_set (h : (c.set key v ttl now).store k = some e) :
    (k = key ∧ e.value = v) ∨ c.store k = some e := by
  by_cases hk : k = key
  · rw [hk] at h
    simp only [set, Function.update_self, Option.some.injEq] at h
    exact Or.inl ⟨hk, by rw [← h]⟩
  · simp only [set, Function.update_of_ne hk] at h
    exact Or.inr h

/-- **No key with the prefix is left.** -/
theorem delByPrefix_store {start : String} (h : (c.delByPrefix start).store k = some e) :
    startsWith k start = false ∧ c.store k = some e := by
  simp only [delByPrefix] at h
  split_ifs at h with hs
  exact ⟨by simpa using hs, h⟩

/-! ### The map and what was written -/

open Lib.Ttl

theorem get_congr {c' : CacheService T} (h : c.store key = c'.store key) :
    (c.get key now).1 = (c'.get key now).1 := by
  unfold get
  rw [h]
  cases c'.store key with
  | none => rfl
  | some e => dsimp only; split_ifs <;> rfl

theorem get_of_store_none (h : c.store key = none) : (c.get key now).1 = none := by
  unfold get
  rw [h]

/-- A `get` leaves the map as it is, or drops an entry that it does not serve. -/
theorem get_cases (c : CacheService T) (key : String) (now : ℤ) : (c.get key now).2 = c ∨
    ((c.get key now).1 = none ∧ (c.get key now).2 = c.del key) := by
  unfold get
  split
  · exact Or.inl rfl
  · split_ifs
    · exact Or.inr ⟨rfl, rfl⟩
    · exact Or.inl rfl

/-- **The map agrees with what was written**: from a time on it serves what is remembered. -/
def Agrees (c : CacheService T) (log : List (Write String T)) (t : ℤ) : Prop :=
  ∀ key now, t ≤ now → (c.get key now).1 = remembered key now log

variable {log : List (Write String T)} {t : ℤ}

theorem agrees_empty (t : ℤ) : (empty : CacheService T).Agrees [] t := fun _ _ _ => rfl

theorem Agrees.later (h : c.Agrees log t) {t' : ℤ} (ht : t ≤ t') : c.Agrees log t' :=
  fun key now hnow => h key now (ht.trans hnow)

theorem Agrees.get (h : c.Agrees log t) (ht : t ≤ now) : (c.get key now).2.Agrees log now := by
  intro k now' hnow
  rcases get_cases c key now with hsame | ⟨hnone, hdel⟩
  · rw [hsame]
    exact h k now' (ht.trans hnow)
  · rw [hdel]
    by_cases hk : k = key
    · subst hk
      rw [h k now ht] at hnone
      rw [remembered_eq_none hnone hnow]
      exact get_of_store_none (Function.update_self ..)
    · rw [← h k now' (ht.trans hnow)]
      exact get_congr (Function.update_of_ne hk ..)

theorem Agrees.set (h : c.Agrees log t) :
    (c.set key v ttl now).Agrees (.put key v (now + ttl * 1000) :: log) t := by
  intro k now' hnow
  have hput : (Write.put key v (now + ttl * 1000)).touches k = decide (key = k) := rfl
  by_cases hk : k = key
  · subst hk
    rw [remembered_touched (hput.trans (decide_eq_true rfl)), Write.read, CacheService.get,
      CacheService.set]
    dsimp only
    rw [Function.update_self]
    dsimp only
    split_ifs <;> rfl
  · rw [remembered_untouched (hput.trans (decide_eq_false (Ne.symm hk))), ← h k now' hnow]
    exact get_congr (Function.update_of_ne hk ..)

theorem Agrees.delByPrefix (h : c.Agrees log t) (start : String) :
    (c.delByPrefix start).Agrees (.drop (fun key => startsWith key start) :: log) t := by
  intro k now' hnow
  have hdrop : (Write.drop (ν := T) fun key => startsWith key start).touches k =
      startsWith k start := rfl
  cases hk : startsWith k start with
  | true =>
    rw [remembered_touched (hdrop.trans hk)]
    exact get_of_store_none (if_pos hk)
  | false =>
    rw [remembered_untouched (hdrop.trans hk), ← h k now' hnow]
    exact get_congr (if_neg (by simp [hk]))

end CacheService

end GameClub.Common
