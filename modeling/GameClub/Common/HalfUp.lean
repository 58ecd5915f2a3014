import GameClub.Common.Money

/-! # The charge, exactly

`Money.forDuration` computes `round(ratePerHour * durationSeconds / 3600)` in doubles. For integers
it depends on their product `n` alone: the charge is `charged n`.

* `forDuration_natCast`: a pair is accepted exactly when its product is a safe integer.
* `charged_eq`: the charge is the product over 3600, rounded half up, for every safe product but
  `misrounded`, the one whose doubled numerator is a tie between two doubles just below a multiple
  of 7200; `charged_misrounded` is one too many.
* `forDuration_mono`: a charge grows with the time charged. -/

namespace GameClub.Common

open GameClub.Lib.Binary64 Money

/-- The charge for the product of rate and seconds. -/
def charged (n : ℤ) : ℤ := ⌊rnd (rnd ((n + 1800 : ℤ) : ℚ) / 3600)⌋

/-- The safe product that is charged a unit too much. -/
def misrounded : ℤ := 9007199254740599

theorem charged_mono {m n : ℤ} (h : m ≤ n) : charged m ≤ charged n := by
  have hmn : ((m + 1800 : ℤ) : ℚ) ≤ ((n + 1800 : ℤ) : ℚ) := by exact_mod_cast (by omega)
  exact Int.floor_mono (rnd_mono (div_le_div_of_nonneg_right (rnd_mono hmn) (by norm_num)))

/-- The numerator after rounding, an integer again. -/
theorem exists_rnd_numerator {k : ℤ} (h0 : 0 ≤ k) (h1 : k ≤ 2 ^ 53 + 1799) :
    ∃ K : ℤ, rnd (k : ℚ) = K ∧
      (K = k ∨ ∃ i, k = 2 * i + 1 ∧ K = 2 * (i + i % 2) ∧ 2 ^ 53 < k) := by
  by_cases hsmall : k ≤ 2 ^ 53
  · exact ⟨k, rnd_intCast (abs_le.mpr ⟨by omega, hsmall⟩), Or.inl rfl⟩
  · rcases Int.even_or_odd' k with ⟨i, hi | hi⟩
    · refine ⟨k, ?_, Or.inl rfl⟩
      rw [hi]
      exact rnd_even (by omega) (by omega)
    · refine ⟨2 * (i + i % 2), ?_, Or.inr ⟨i, hi, rfl, by omega⟩⟩
      rw [hi]
      exact rnd_odd (by omega) (by omega)

/-- Rounding the quotient keeps its floor: it is an integer or far enough below the next one. -/
theorem floor_rnd_div {K : ℤ} (h0 : 0 ≤ K) (h1 : K ≤ 2 ^ 53 + 1800) :
    ⌊rnd ((K : ℚ) / 3600)⌋ = K / 3600 := by
  have hf : ⌊(K : ℚ) / 3600⌋ = K / 3600 := by exact_mod_cast Rat.floor_intCast_div_natCast K 3600
  have hdiv : K ≤ 3600 * (K / 3600) + 3599 := by omega
  have hq : (K : ℚ) ≤ 3600 * ((K / 3600 : ℤ) : ℚ) + 3599 := by exact_mod_cast hdiv
  have hK0 : (0 : ℚ) ≤ K := by exact_mod_cast h0
  have hK1 : (K : ℚ) ≤ 2 ^ 53 + 1800 := by exact_mod_cast h1
  rw [← hf]
  refine floor_rnd (e := 42) (by positivity) ?_ (by rw [hf]; omega) ?_
  · norm_num
    linarith
  · rw [hf]
    norm_num
    linarith

/-- **Half up for every safe product but one.** -/
theorem charged_eq {n : ℤ} (h0 : 0 ≤ n) (h1 : n ≤ maxSafeInteger) (hne : n ≠ misrounded) :
    charged n = (n + 1800) / 3600 := by
  unfold maxSafeInteger at h1
  unfold misrounded at hne
  obtain ⟨K, hK, hcase⟩ := exists_rnd_numerator (k := n + 1800) (by omega) (by omega)
  have hbound : 0 ≤ K ∧ K ≤ 2 ^ 53 + 1800 := by
    rcases hcase with rfl | ⟨i, hi, rfl, hbig⟩ <;> omega
  have hquot : K / 3600 = (n + 1800) / 3600 := by
    -- from `2 ^ 53` on the numerator moves by one, across a multiple of 3600 only for `misrounded`
    rcases hcase with rfl | ⟨i, hi, rfl, hbig⟩ <;> omega
  unfold charged
  rw [hK, floor_rnd_div hbound.1 hbound.2, hquot]

theorem charged_misrounded : charged misrounded = (misrounded + 1800) / 3600 + 1 := by
  have hodd : rnd ((misrounded + 1800 : ℤ) : ℚ) = ((9007199254742400 : ℤ) : ℚ) := by
    have h := rnd_odd (i := 4503599627371199) (by norm_num) (by norm_num)
    exact h
  unfold charged
  rw [hodd, floor_rnd_div (by norm_num) (by norm_num)]
  rfl

theorem charged_bounds {n : ℤ} (h0 : 0 ≤ n) (h1 : n ≤ maxSafeInteger) :
    0 ≤ charged n ∧ charged n ≤ maxSafeInteger := by
  unfold maxSafeInteger at h1 ⊢
  by_cases hne : n = misrounded
  · rw [hne, charged_misrounded]
    decide
  · rw [charged_eq h0 h1 hne]
    omega

/-- **What is accepted, and the charge**: nothing but the product of rate and seconds counts. -/
theorem forDuration_natCast (ratePerHour seconds : ℕ) :
    forDuration ratePerHour seconds =
      if ((ratePerHour * seconds : ℕ) : ℤ) ≤ maxSafeInteger then
        fromMinor ((charged (ratePerHour * seconds : ℕ) : ℤ) : ℚ)
      else .error (.error "Duration charge overflows the safe integer range") := by
  set n : ℕ := ratePerHour * seconds with hn
  have hprod : (ratePerHour : ℚ) * seconds = ((n : ℤ) : ℚ) := by rw [hn]; push_cast; ring
  have hint : ∀ k : ℕ, ¬ ((k : ℚ).isInt = false ∨ (k : ℚ) < 0) := fun k h => by
    rcases h with h | h
    · simp [Rat.isInt] at h
    · exact absurd h (not_lt.mpr (Nat.cast_nonneg k))
  unfold forDuration
  rw [if_neg (hint _), if_neg (hint _), hprod]
  dsimp only
  rw [isSafeInteger_rnd]
  by_cases hsafe : (n : ℤ) ≤ maxSafeInteger
  · have habs : |(n : ℤ)| ≤ maxSafeInteger := by rwa [abs_of_nonneg (by omega)]
    have hle : (n : ℤ) ≤ 2 ^ 53 - 1 := hsafe
    rw [if_neg (by simpa using habs), if_pos hsafe]
    -- the doubled numerator is a double, and doubling the sum is exact
    have hnum : rnd ((n : ℤ) : ℚ) = ((n : ℤ) : ℚ) :=
      rnd_intCast (abs_le.mpr ⟨by omega, by omega⟩)
    have hdouble : rnd (((n : ℤ) : ℚ) * 2) = 2 * ((n : ℤ) : ℚ) := by
      rw [mul_comm, rnd_two_mul (by exact_mod_cast Nat.zero_le n), hnum]
    have hsum : rnd (2 * ((n : ℤ) : ℚ) + 3600) = 2 * rnd (((n : ℤ) + 1800 : ℤ) : ℚ) := by
      rw [← rnd_two_mul (by positivity)]
      push_cast
      ring_nf
    have hden : rnd ((3600 : ℚ) * 2) = 7200 := by
      have := rnd_intCast (n := 7200) (by norm_num)
      norm_num at this ⊢
      exact this
    have hquot : 2 * rnd (((n : ℤ) + 1800 : ℤ) : ℚ) / 7200
        = rnd (((n : ℤ) + 1800 : ℤ) : ℚ) / 3600 := by ring
    rw [hnum, hdouble, hsum, hden, hquot]
    rfl
  · have habs : ¬ |(n : ℤ)| ≤ maxSafeInteger := by rwa [abs_of_nonneg (by omega)]
    rw [if_pos (by simpa using habs), if_neg hsafe]

/-- **What is accepted of integers**: neither is negative, and their product is a safe integer. -/
theorem forDuration_ok {ratePerHour seconds : ℤ} {a : Money} :
    forDuration ratePerHour seconds = .ok a ↔ 0 ≤ ratePerHour ∧ 0 ≤ seconds ∧
      ratePerHour * seconds ≤ maxSafeInteger ∧ a.value = charged (ratePerHour * seconds) := by
  by_cases hneg : ratePerHour < 0 ∨ seconds < 0
  · constructor
    · intro h
      obtain ⟨hr, hs, -⟩ := forDuration_spec h
      have hr' : 0 ≤ ratePerHour := by exact_mod_cast hr
      have hs' : 0 ≤ seconds := by exact_mod_cast hs
      omega
    · rintro ⟨hr, hs, -⟩
      omega
  · push Not at hneg
    obtain ⟨r, rfl⟩ := Int.eq_ofNat_of_zero_le hneg.1
    obtain ⟨s, rfl⟩ := Int.eq_ofNat_of_zero_le hneg.2
    have hcast := forDuration_natCast r s
    push_cast at hcast ⊢
    rw [hcast]
    by_cases h : (r : ℤ) * s ≤ maxSafeInteger
    · rw [if_pos h, fromMinor_ok]
      simp [h]
    · rw [if_neg h]
      simp [h]

theorem forDuration_accepts {ratePerHour seconds : ℤ} (hr : 0 ≤ ratePerHour) (hs : 0 ≤ seconds) :
    (∃ a, forDuration ratePerHour seconds = .ok a) ↔ ratePerHour * seconds ≤ maxSafeInteger := by
  constructor
  · rintro ⟨a, h⟩
    exact (forDuration_ok.mp h).2.2.1
  · intro h
    have hb := charged_bounds (mul_nonneg hr hs) h
    have hsafe : |charged (ratePerHour * seconds)| ≤ maxSafeInteger :=
      abs_le.mpr ⟨by omega, hb.2⟩
    exact ⟨⟨charged (ratePerHour * seconds), hsafe⟩, forDuration_ok.mpr ⟨hr, hs, h, rfl⟩⟩

/-! ### Rounded half up -/

/-- `r` is `ratePerHour * seconds / 3600` rounded half up, over the integers. -/
def IsHalfUp (ratePerHour seconds : ℕ) (r : ℤ) : Prop :=
  7200 * r ≤ 2 * ratePerHour * seconds + 3600 ∧ 2 * ratePerHour * seconds + 3600 < 7200 * (r + 1)

theorem isHalfUp_iff (ratePerHour seconds : ℕ) (r : ℤ) :
    IsHalfUp ratePerHour seconds r ↔ r = (((ratePerHour * seconds : ℕ) : ℤ) + 1800) / 3600 := by
  have hprod : 2 * (ratePerHour : ℤ) * seconds = 2 * ((ratePerHour * seconds : ℕ) : ℤ) := by
    push_cast
    ring
  unfold IsHalfUp
  rw [hprod]
  omega

/-- What `forDuration` promises for a pair: accepted exactly when the product is a safe integer, and
then charged half up. -/
def ChargesExactly (ratePerHour seconds : ℕ) : Prop :=
  ((∃ a, forDuration ratePerHour seconds = .ok a) ↔
      ((ratePerHour * seconds : ℕ) : ℤ) ≤ 2 ^ 53 - 1) ∧
    ∀ a, forDuration ratePerHour seconds = .ok a → IsHalfUp ratePerHour seconds a.value

theorem forDuration_natCast_accepts (ratePerHour seconds : ℕ) :
    (∃ a, forDuration ratePerHour seconds = .ok a) ↔
      ((ratePerHour * seconds : ℕ) : ℤ) ≤ maxSafeInteger := by
  have h := forDuration_accepts (Int.natCast_nonneg ratePerHour) (Int.natCast_nonneg seconds)
  push_cast at h ⊢
  exact h

theorem forDuration_natCast_value {ratePerHour seconds : ℕ} {a : Money}
    (h : forDuration ratePerHour seconds = .ok a) :
    ((ratePerHour * seconds : ℕ) : ℤ) ≤ maxSafeInteger ∧
      a.value = charged (ratePerHour * seconds : ℕ) := by
  have hok := (@forDuration_ok ratePerHour seconds a).mp (by simpa using h)
  push_cast at hok ⊢
  exact hok.2.2

/-- **The charge is exact for every pair but those whose product is `misrounded`.** -/
theorem chargesExactly_iff (ratePerHour seconds : ℕ) :
    ChargesExactly ratePerHour seconds ↔ ratePerHour * seconds ≠ 9007199254740599 := by
  have hmis : ((ratePerHour * seconds : ℕ) : ℤ) = misrounded ↔
      ratePerHour * seconds = 9007199254740599 := by
    unfold misrounded
    omega
  constructor
  · rintro ⟨-, hexact⟩ heq
    have hn := hmis.mpr heq
    obtain ⟨a, ha⟩ := (forDuration_natCast_accepts ratePerHour seconds).mpr (by rw [hn]; decide)
    have hval := (forDuration_natCast_value ha).2
    have hhalf := (isHalfUp_iff ratePerHour seconds a.value).mp (hexact a ha)
    rw [hval, hn, charged_misrounded] at hhalf
    omega
  · intro hne
    refine ⟨forDuration_natCast_accepts ratePerHour seconds, fun a ha => ?_⟩
    obtain ⟨hsafe, hval⟩ := forDuration_natCast_value ha
    rw [isHalfUp_iff, hval]
    exact charged_eq (Int.natCast_nonneg _) hsafe fun h => hne (hmis.mp h)

/-- An hour's rate of `9007199254740599` charges `2501999792984` for one second, one too many. -/
theorem not_chargesExactly :
    ¬ ∀ ratePerHour seconds : ℕ, ChargesExactly ratePerHour seconds := by
  intro h
  obtain ⟨a, ha⟩ := (forDuration_natCast_accepts 9007199254740599 1).mpr (by decide)
  have hval : a.value = 2501999792984 := by
    rw [(forDuration_natCast_value ha).2]
    exact charged_misrounded
  have hhalf := (h 9007199254740599 1).2 a ha
  unfold IsHalfUp at hhalf
  rw [hval] at hhalf
  norm_num at hhalf

/-! ### Monotonicity -/

/-- **A charge grows with the seconds charged.** -/
theorem forDuration_mono {ratePerHour seconds seconds' : ℤ} {a a' : Money}
    (hle : seconds ≤ seconds') (h : forDuration ratePerHour seconds = .ok a)
    (h' : forDuration ratePerHour seconds' = .ok a') : a.value ≤ a'.value := by
  obtain ⟨hr, -, -, ha⟩ := forDuration_ok.mp h
  obtain ⟨-, -, -, ha'⟩ := forDuration_ok.mp h'
  rw [ha, ha']
  exact charged_mono (mul_le_mul_of_nonneg_left hle hr)

end GameClub.Common
