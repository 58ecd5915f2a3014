import Mathlib.Data.Int.Log
import Mathlib.Data.Rat.Floor
import Mathlib.Tactic

/-! # Binary64: rounding to the nearest double

A finite double is a rational; an arithmetic operation on doubles is the exact operation followed
by `rnd`, the nearest rational with a significand of 53 bits, ties to even. The exponent range is
not bounded: the numbers rounded here are far from the smallest and the largest double.

* `rnd_intCast`: integers up to `2 ^ 53` in absolute value are doubles.
* `rnd_mono`: rounding is monotone, so no integer from `2 ^ 53` on is rounded below it
  (`isSafeInteger_rnd`).
* `floor_rnd`: rounding leaves the floor of a number that is not too close below an integer.
* `mathRound`: JavaScript's `Math.round`, ties towards `+∞`. -/

namespace GameClub.Lib.Binary64

/-! ### Rounding to an integer -/

/-- The nearest integer, the even one at a midpoint. -/
def roundEven (x : ℚ) : ℤ :=
  if x - ⌊x⌋ < 1 / 2 then ⌊x⌋
  else if 1 / 2 < x - ⌊x⌋ then ⌊x⌋ + 1
  else ⌊x⌋ + ⌊x⌋ % 2

theorem roundEven_intCast (k : ℤ) : roundEven (k : ℚ) = k := by
  simp [roundEven]

/-- An integer below `x` is below the rounded `x`. -/
theorem le_roundEven {k : ℤ} {x : ℚ} (h : (k : ℚ) ≤ x) : k ≤ roundEven x := by
  have hk : k ≤ ⌊x⌋ := Int.le_floor.mpr h
  unfold roundEven
  split_ifs <;> omega

/-- An integer above `x` is above the rounded `x`. -/
theorem roundEven_le {k : ℤ} {x : ℚ} (h : x ≤ (k : ℚ)) : roundEven x ≤ k := by
  have hlo := Int.floor_le x
  rcases lt_or_eq_of_le h with hlt | rfl
  · have hk : ⌊x⌋ < k := Int.floor_lt.mpr hlt
    unfold roundEven
    split_ifs <;> omega
  · rw [roundEven_intCast]

theorem roundEven_mono {x y : ℚ} (h : x ≤ y) : roundEven x ≤ roundEven y := by
  have hf : ⌊x⌋ ≤ ⌊y⌋ := Int.floor_mono h
  rcases lt_or_eq_of_le hf with hlt | heq
  · -- an integer lies between `x` and `y`
    have hx : x ≤ ((⌊x⌋ + 1 : ℤ) : ℚ) := by push_cast; exact (Int.lt_floor_add_one x).le
    have hy : ((⌊x⌋ + 1 : ℤ) : ℚ) ≤ y := le_trans (by exact_mod_cast hlt) (Int.floor_le y)
    exact (roundEven_le hx).trans (le_roundEven hy)
  · have hfr : x - ⌊x⌋ ≤ y - ⌊y⌋ := by rw [heq]; linarith
    unfold roundEven
    split_ifs with h1 h2 h3 h4 h5 h6 h7 h8 <;> first | omega | linarith

theorem roundEven_neg (x : ℚ) : roundEven (-x) = -roundEven x := by
  by_cases hx : (⌊x⌋ : ℚ) = x
  · rw [← hx, ← Int.cast_neg, roundEven_intCast, roundEven_intCast]
  · have hlo : (⌊x⌋ : ℚ) < x := lt_of_le_of_ne (Int.floor_le x) hx
    have hhi := Int.lt_floor_add_one x
    have hf : ⌊-x⌋ = -⌊x⌋ - 1 := by
      rw [Int.floor_eq_iff]; push_cast; constructor <;> linarith
    have hfr : -x - (⌊-x⌋ : ℚ) = 1 - (x - ⌊x⌋) := by rw [hf]; push_cast; ring
    unfold roundEven
    rw [hfr, hf]
    split_ifs <;> first | omega | linarith

/-! ### Rounding to a double -/

/-- The distance of two neighbouring doubles in the binade of `x`. -/
def ulp (x : ℚ) : ℚ := 2 ^ (Int.log 2 |x| - 52)

/-- **The nearest double**, ties to even. -/
def rnd (x : ℚ) : ℚ := roundEven (x / ulp x) * ulp x

theorem ulp_pos (x : ℚ) : 0 < ulp x := zpow_pos (by norm_num) _

theorem rnd_zero : rnd 0 = 0 := by
  simp [rnd, show roundEven 0 = 0 from roundEven_intCast 0]

theorem rnd_neg (x : ℚ) : rnd (-x) = -rnd x := by
  have hu : ulp (-x) = ulp x := by simp [ulp]
  rw [rnd, hu, neg_div, roundEven_neg]
  push_cast
  rw [rnd, neg_mul]

/-- The significand of a positive number has 53 bits. -/
theorem le_div_ulp {x : ℚ} (hx : 0 < x) : ((2 ^ 52 : ℤ) : ℚ) ≤ x / ulp x := by
  rw [le_div_iff₀ (ulp_pos x)]
  have h := Int.zpow_log_le_self (b := 2) (by norm_num) hx
  calc ((2 ^ 52 : ℤ) : ℚ) * ulp x = ((2 : ℕ) : ℚ) ^ Int.log 2 x := by
        rw [ulp, abs_of_pos hx, zpow_sub₀ (by norm_num)]
        push_cast
        ring
    _ ≤ x := h

theorem div_ulp_le {x : ℚ} (hx : 0 < x) : x / ulp x ≤ ((2 ^ 53 : ℤ) : ℚ) := by
  rw [div_le_iff₀ (ulp_pos x)]
  have h := Int.lt_zpow_succ_log_self (b := 2) (by norm_num) x
  calc x ≤ ((2 : ℕ) : ℚ) ^ (Int.log 2 x + 1) := h.le
    _ = ((2 ^ 53 : ℤ) : ℚ) * ulp x := by
        rw [ulp, abs_of_pos hx, zpow_sub₀ (by norm_num), zpow_add₀ (by norm_num)]
        push_cast
        ring

theorem rnd_nonneg {x : ℚ} (hx : 0 ≤ x) : 0 ≤ rnd x := by
  have h : (0 : ℤ) ≤ roundEven (x / ulp x) :=
    le_roundEven (by push_cast; exact div_nonneg hx (ulp_pos x).le)
  exact mul_nonneg (by exact_mod_cast h) (ulp_pos x).le

theorem rnd_nonpos {x : ℚ} (hx : x ≤ 0) : rnd x ≤ 0 := by
  have h := rnd_nonneg (neg_nonneg.mpr hx)
  rw [rnd_neg] at h
  linarith

theorem rnd_mono_of_pos {x y : ℚ} (hx : 0 < x) (h : x ≤ y) : rnd x ≤ rnd y := by
  have hy : 0 < y := hx.trans_le h
  have hlog : Int.log 2 x ≤ Int.log 2 y := Int.log_mono_right hx h
  rcases lt_or_eq_of_le hlog with hlt | heq
  · -- a power of two lies between the two rounded numbers
    have h1 : roundEven (x / ulp x) ≤ 2 ^ 53 := roundEven_le (div_ulp_le hx)
    have h2 : 2 ^ 52 ≤ roundEven (y / ulp y) := le_roundEven (le_div_ulp hy)
    have h12 : (2 : ℚ) ^ 53 * ulp x ≤ 2 ^ 52 * ulp y := by
      have : (2 : ℚ) ^ (Int.log 2 x + 1) ≤ 2 ^ Int.log 2 y :=
        zpow_le_zpow_right₀ (by norm_num) (by omega)
      rw [ulp, ulp, abs_of_pos hx, abs_of_pos hy, zpow_sub₀ (by norm_num), zpow_sub₀ (by norm_num)]
      rw [zpow_add₀ (by norm_num)] at this
      norm_num at this ⊢
      linarith
    calc rnd x ≤ 2 ^ 53 * ulp x :=
          mul_le_mul_of_nonneg_right (by exact_mod_cast h1) (ulp_pos x).le
      _ ≤ 2 ^ 52 * ulp y := h12
      _ ≤ rnd y := mul_le_mul_of_nonneg_right (by exact_mod_cast h2) (ulp_pos y).le
  · have hu : ulp x = ulp y := by rw [ulp, ulp, abs_of_pos hx, abs_of_pos hy, heq]
    have hr : roundEven (x / ulp y) ≤ roundEven (y / ulp y) :=
      roundEven_mono (div_le_div_of_nonneg_right h (ulp_pos y).le)
    rw [rnd, rnd, hu]
    exact mul_le_mul_of_nonneg_right (by exact_mod_cast hr) (ulp_pos y).le

/-- **Rounding is monotone.** -/
theorem rnd_mono {x y : ℚ} (h : x ≤ y) : rnd x ≤ rnd y := by
  rcases lt_or_ge 0 x with hx | hx
  · exact rnd_mono_of_pos hx h
  · rcases lt_or_ge y 0 with hy | hy
    · have h' := rnd_mono_of_pos (neg_pos.mpr hy) (neg_le_neg h)
      rw [rnd_neg, rnd_neg] at h'
      linarith
    · exact (rnd_nonpos hx).trans (rnd_nonneg hy)

/-! ### Integers -/

/-- A number whose significand is an integer is a double. -/
theorem rnd_eq_self {x : ℚ} {k : ℤ} (h : x / ulp x = k) : rnd x = x := by
  rw [rnd, h, roundEven_intCast, ← h, div_mul_cancel₀ _ (ulp_pos x).ne']

theorem rnd_natCast {n : ℕ} (hn : n ≤ 2 ^ 53) : rnd (n : ℚ) = n := by
  rcases Nat.eq_zero_or_pos n with rfl | hpos
  · exact_mod_cast rnd_zero
  have hu : ulp (n : ℚ) = 2 ^ ((Nat.log 2 n : ℤ) - 52) := by
    rw [ulp, abs_of_nonneg (by positivity), Int.log_natCast]
  rcases Nat.lt_or_eq_of_le hn with hlt | rfl
  · have hlog : Nat.log 2 n ≤ 52 :=
      Nat.lt_succ_iff.mp (Nat.log_lt_of_lt_pow hpos.ne' hlt)
    refine rnd_eq_self (k := n * 2 ^ (52 - Nat.log 2 n)) ?_
    have he : (2 : ℚ) ^ ((Nat.log 2 n : ℤ) - 52) = ((2 : ℚ) ^ (52 - Nat.log 2 n))⁻¹ := by
      rw [← zpow_natCast, ← zpow_neg]
      congr 1
      omega
    rw [hu, he, div_inv_eq_mul]
    push_cast
    ring
  · refine rnd_eq_self (k := 2 ^ 52) ?_
    rw [hu, show Nat.log 2 (2 ^ 53) = 53 from Nat.log_pow (by norm_num) 53]
    norm_num

/-- **Integers up to `2 ^ 53` are doubles.** -/
theorem rnd_intCast {n : ℤ} (hn : |n| ≤ 2 ^ 53) : rnd (n : ℚ) = n := by
  obtain ⟨m, rfl | rfl⟩ := Int.eq_nat_or_neg n
  · have hm : m ≤ 2 ^ 53 := by have := abs_le.mp hn; omega
    exact_mod_cast rnd_natCast hm
  · have hm : m ≤ 2 ^ 53 := by have := abs_le.mp hn; omega
    push_cast
    rw [rnd_neg, rnd_natCast hm]

/-- A larger integer is not rounded below `2 ^ 53`. -/
theorem two_pow_le_abs_rnd {n : ℤ} (h : 2 ^ 53 < |n|) : ((2 ^ 53 : ℤ) : ℚ) ≤ |rnd (n : ℚ)| := by
  rcases abs_cases n with ⟨ha, -⟩ | ⟨ha, -⟩ <;> rw [ha] at h
  · have := rnd_mono (show ((2 ^ 53 : ℤ) : ℚ) ≤ n by exact_mod_cast h.le)
    rw [rnd_intCast (by norm_num)] at this
    exact this.trans (le_abs_self _)
  · have := rnd_mono (show ((2 ^ 53 : ℤ) : ℚ) ≤ ((-n : ℤ) : ℚ) by exact_mod_cast h.le)
    rw [rnd_intCast (by norm_num), Int.cast_neg, rnd_neg] at this
    exact this.trans (neg_le_abs _)

/-! ### Rounding errors -/

theorem abs_roundEven_sub_le (x : ℚ) : |(roundEven x : ℚ) - x| ≤ 1 / 2 := by
  have hlo := Int.floor_le x
  have hhi := Int.lt_floor_add_one x
  have heven : ⌊x⌋ % 2 = 0 ∨ ⌊x⌋ % 2 = 1 := by omega
  rw [abs_le]
  unfold roundEven
  split_ifs with h1 h2
  · constructor <;> linarith
  · push_cast
    constructor <;> linarith
  · rcases heven with h | h <;> rw [h] <;> push_cast <;> constructor <;> linarith

theorem abs_rnd_sub_le (x : ℚ) : |rnd x - x| ≤ ulp x / 2 := by
  have hu := ulp_pos x
  have hx : rnd x - x = ((roundEven (x / ulp x) : ℚ) - x / ulp x) * ulp x := by
    rw [sub_mul, div_mul_cancel₀ _ hu.ne', rnd]
  have hr := mul_le_mul_of_nonneg_right (abs_roundEven_sub_le (x / ulp x)) hu.le
  rw [hx, abs_mul, abs_of_pos hu]
  linarith

theorem ulp_le {x : ℚ} {e : ℤ} (hx : 0 < x) (h : x < 2 ^ e) : ulp x ≤ 2 ^ (e - 53) := by
  have hlog : Int.log 2 x < e := (Int.lt_zpow_iff_log_lt (by norm_num) hx).mp (by exact_mod_cast h)
  rw [ulp, abs_of_pos hx]
  exact zpow_le_zpow_right₀ (by norm_num) (by omega)

/-- **A number farther than the rounding error below the next integer keeps its floor.** -/
theorem floor_rnd {x : ℚ} {e : ℤ} (h0 : 0 ≤ x) (he : x < 2 ^ e) (hsmall : ⌊x⌋ ≤ 2 ^ 53)
    (hgap : x + 2 ^ (e - 54) < ⌊x⌋ + 1) : ⌊rnd x⌋ = ⌊x⌋ := by
  have hfloor : 0 ≤ ⌊x⌋ := Int.floor_nonneg.mpr h0
  have hlo := rnd_mono (Int.floor_le x)
  rw [rnd_intCast (abs_le.mpr ⟨by omega, hsmall⟩)] at hlo
  refine Int.floor_eq_iff.mpr ⟨hlo, ?_⟩
  rcases lt_or_eq_of_le h0 with hpos | rfl
  · have hulp := ulp_le hpos he
    have hhalf : (2 : ℚ) ^ (e - 53) / 2 = 2 ^ (e - 54) := by
      rw [show e - 53 = e - 54 + 1 by omega, zpow_add_one₀ (by norm_num)]
      ring
    have herr := (abs_le.mp (abs_rnd_sub_le x)).2
    linarith
  · rw [rnd_zero]
    exact_mod_cast Int.lt_floor_add_one (0 : ℚ)

theorem log_two_mul {x : ℚ} (hx : 0 < x) : Int.log 2 (2 * x) = Int.log 2 x + 1 := by
  have h2x : 0 < 2 * x := by positivity
  have hlo := Int.zpow_log_le_self (b := 2) (by norm_num) hx
  have hhi := Int.lt_zpow_succ_log_self (b := 2) (by norm_num) x
  have h1 : Int.log 2 x + 1 ≤ Int.log 2 (2 * x) := by
    refine (Int.zpow_le_iff_le_log (by norm_num) h2x).mp ?_
    rw [zpow_add_one₀ (by norm_num)]
    push_cast at hlo ⊢
    linarith
  have h2 : Int.log 2 (2 * x) < Int.log 2 x + 1 + 1 := by
    refine (Int.lt_zpow_iff_log_lt (by norm_num) h2x).mp ?_
    rw [zpow_add_one₀ (by norm_num)]
    push_cast at hhi ⊢
    linarith
  omega

/-- **Doubling is exact.** -/
theorem rnd_two_mul {x : ℚ} (hx : 0 ≤ x) : rnd (2 * x) = 2 * rnd x := by
  rcases lt_or_eq_of_le hx with hpos | rfl
  · have hulp : ulp (2 * x) = 2 * ulp x := by
      rw [ulp, ulp, abs_of_pos hpos, abs_of_pos (by positivity), log_two_mul hpos,
        show Int.log 2 x + 1 - 52 = Int.log 2 x - 52 + 1 by omega, zpow_add_one₀ (by norm_num)]
      ring
    have hsig : 2 * x / (2 * ulp x) = x / ulp x := mul_div_mul_left _ _ (by norm_num)
    rw [rnd, rnd, hulp, hsig]
    ring
  · simp [rnd_zero]

/-- Even integers up to `2 ^ 54` are doubles. -/
theorem rnd_even {i : ℤ} (h0 : 0 ≤ i) (h1 : i ≤ 2 ^ 53) :
    rnd ((2 * i : ℤ) : ℚ) = ((2 * i : ℤ) : ℚ) := by
  have hi : (0 : ℚ) ≤ i := by exact_mod_cast h0
  push_cast
  rw [rnd_two_mul hi, rnd_intCast (abs_le.mpr ⟨by omega, h1⟩)]

theorem roundEven_half (i : ℤ) : roundEven ((2 * i + 1 : ℤ) / 2 : ℚ) = i + i % 2 := by
  have hf : ⌊((2 * i + 1 : ℤ) / 2 : ℚ)⌋ = i := by
    rw [Int.floor_eq_iff]
    push_cast
    constructor <;> linarith
  unfold roundEven
  rw [hf, if_neg (by push_cast; linarith), if_neg (by push_cast; linarith)]

/-- **Between `2 ^ 53` and `2 ^ 54` the even integers are the doubles**; an odd one goes to the
neighbour whose half is even. -/
theorem rnd_odd {i : ℤ} (hlo : 2 ^ 53 ≤ 2 * i + 1) (hhi : 2 * i + 1 < 2 ^ 54) :
    rnd ((2 * i + 1 : ℤ) : ℚ) = ((2 * (i + i % 2) : ℤ) : ℚ) := by
  have hpos : (0 : ℚ) < ((2 * i + 1 : ℤ) : ℚ) := by exact_mod_cast (by omega : 0 < 2 * i + 1)
  have h1 : 53 ≤ Int.log 2 ((2 * i + 1 : ℤ) : ℚ) := by
    refine (Int.zpow_le_iff_le_log (by norm_num) hpos).mp ?_
    exact_mod_cast hlo
  have h2 : Int.log 2 ((2 * i + 1 : ℤ) : ℚ) < 54 := by
    refine (Int.lt_zpow_iff_log_lt (by norm_num) hpos).mp ?_
    exact_mod_cast hhi
  have hulp : ulp ((2 * i + 1 : ℤ) : ℚ) = 2 := by
    rw [ulp, abs_of_pos hpos, show Int.log 2 ((2 * i + 1 : ℤ) : ℚ) = 53 by omega]
    norm_num
  rw [rnd, hulp, roundEven_half]
  push_cast
  ring

/-! ### The safe range -/

/-- `Number.MAX_SAFE_INTEGER`. -/
def maxSafeInteger : ℤ := 2 ^ 53 - 1

/-- `Number.isSafeInteger`. -/
def isSafeInteger (x : ℚ) : Bool := x.isInt && decide (|x| ≤ (maxSafeInteger : ℚ))

theorem isSafeInteger_intCast (n : ℤ) : isSafeInteger (n : ℚ) = decide (|n| ≤ maxSafeInteger) := by
  have : (|(n : ℚ)| ≤ (maxSafeInteger : ℚ)) ↔ |n| ≤ maxSafeInteger := by
    rw [← Int.cast_abs, Int.cast_le]
  simp [isSafeInteger, Rat.isInt, this]

/-- **Rounding brings no integer back into the safe range**, and leaves those in it alone. -/
theorem isSafeInteger_rnd (n : ℤ) :
    isSafeInteger (rnd (n : ℚ)) = decide (|n| ≤ maxSafeInteger) := by
  rcases le_or_gt |n| (2 ^ 53) with h | h
  · rw [rnd_intCast h, isSafeInteger_intCast]
  · have hbig := two_pow_le_abs_rnd h
    have hunsafe : ¬ |rnd (n : ℚ)| ≤ (maxSafeInteger : ℚ) := by
      intro hle
      have := hbig.trans hle
      norm_num [maxSafeInteger] at this
    have hn : ¬ |n| ≤ maxSafeInteger := by unfold maxSafeInteger; omega
    simp [isSafeInteger, hunsafe, hn]

/-! ### `Math.round` -/

/-- `Math.round`: the nearest integer, ties towards `+∞`. -/
def mathRound (x : ℚ) : ℤ := ⌊x + 1 / 2⌋

theorem mathRound_mono {x y : ℚ} (h : x ≤ y) : mathRound x ≤ mathRound y :=
  Int.floor_mono (by linarith)

theorem mathRound_intCast (n : ℤ) : mathRound (n : ℚ) = n := by
  rw [mathRound, Int.floor_eq_iff]
  constructor <;> norm_num

end GameClub.Lib.Binary64
