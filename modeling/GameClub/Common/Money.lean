import GameClub.Common.Exceptions
import GameClub.Common.Values

/-! # Money

An amount is a whole number of minor units within the safe integers of JavaScript; the factories
check the range. A JavaScript number is a rational, and its arithmetic is that of doubles.

* `forDuration_spec`: a charge is not negative.
* `fromString_decimal`: the decimal text of an integer is parsed exactly, and refused exactly when
  the integer is out of range. -/

namespace GameClub.Common

open GameClub.Lib.Binary64

/-- A finite JavaScript number. -/
abbrev Number := ℚ

/-- An amount of money; `value` is in minor units. -/
structure Money where
  value : ℤ
  safe : |value| ≤ maxSafeInteger
deriving DecidableEq

namespace Money

def ZERO : Money := ⟨0, by decide⟩

/-- Build from a count of minor units. -/
def fromMinor (value : Number) : Except Thrown Money :=
  if h : value.isInt = true ∧ |value.num| ≤ maxSafeInteger then .ok ⟨value.num, h.2⟩
  else if value.isInt = false then
    .error (.error ("Money requires an integer amount, received " ++ toString value))
  else .error (.error ("Money amount " ++ toString value ++ " exceeds the safe integer range"))

/-- `^-?\d+$`, and the number the text stands for. -/
def parseDecimal (value : List Char) : Option ℤ :=
  match value with
  | '-' :: ds =>
    if ds ≠ [] ∧ ds.all Char.isDigit then some (-(Nat.ofDigitChars 10 ds 0 : ℤ)) else none
  | ds => if ds ≠ [] ∧ ds.all Char.isDigit then some (Nat.ofDigitChars 10 ds 0 : ℤ) else none

/-- Build from a persisted text, such as a Postgres `bigint`. -/
def fromString (value : String) : Except Thrown Money :=
  match parseDecimal value.toList with
  | none => .error (.error ("Cannot parse Money from \"" ++ value ++ "\""))
  | some n => fromMinor (rnd n)

/-- The charge `round(ratePerHour * durationSeconds / 3600)`, half up. -/
def forDuration (ratePerHourMinor durationSeconds : Number) : Except Thrown Money :=
  if ratePerHourMinor.isInt = false ∨ ratePerHourMinor < 0 then
    .error (.error ("Invalid hourly rate: " ++ toString ratePerHourMinor))
  else if durationSeconds.isInt = false ∨ durationSeconds < 0 then
    .error (.error ("Invalid duration: " ++ toString durationSeconds))
  else
    let numerator := rnd (ratePerHourMinor * durationSeconds)
    if isSafeInteger numerator = false then
      .error (.error "Duration charge overflows the safe integer range")
    else
      let denominator : Number := 3600
      let rounded := ⌊rnd (rnd (rnd (numerator * 2) + denominator) / rnd (denominator * 2))⌋
      fromMinor rounded

def subtract (a b : Money) : Except Thrown Money := fromMinor (rnd (a.value - b.value))

def isZero (a : Money) : Bool := a.value == 0

def isPositive (a : Money) : Bool := decide (0 < a.value)

def greaterThan (a b : Money) : Bool := decide (b.value < a.value)

end Money

open Money

/-! ### The factories -/

theorem fromMinor_intCast (n : ℤ) : fromMinor (n : ℚ) =
    if h : |n| ≤ maxSafeInteger then .ok ⟨n, h⟩
    else .error (.error
      ("Money amount " ++ toString (n : ℚ) ++ " exceeds the safe integer range")) := by
  have hint : ((n : ℚ)).isInt = true := by simp [Rat.isInt]
  unfold fromMinor
  by_cases h : |n| ≤ maxSafeInteger
  · rw [dif_pos ⟨hint, by simpa using h⟩, dif_pos h]
    simp
  · rw [dif_neg (by simpa [hint] using h), if_neg (by simp [hint]), dif_neg h]

theorem fromMinor_ok {n : ℤ} {a : Money} : fromMinor (n : ℚ) = .ok a ↔ a.value = n := by
  rw [fromMinor_intCast]
  obtain ⟨v, hv⟩ := a
  by_cases h : |n| ≤ maxSafeInteger
  · rw [dif_pos h]
    simp [eq_comm]
  · rw [dif_neg h]
    simp only [reduceCtorEq, false_iff]
    rintro rfl
    exact h hv

/-- An amount that was built is built again. -/
theorem fromMinor_value (a : Money) : fromMinor (a.value : ℚ) = .ok a := fromMinor_ok.mpr rfl

/-- Rounding to a double makes no integer acceptable and changes no acceptable one. -/
theorem fromMinor_rnd {n : ℤ} {a : Money} : fromMinor (rnd (n : ℚ)) = .ok a ↔ a.value = n := by
  by_cases h : |n| ≤ maxSafeInteger
  · rw [rnd_intCast (h.trans (by norm_num [maxSafeInteger])), fromMinor_ok]
  · refine ⟨fun hok => ?_, fun hv => absurd (hv ▸ a.safe) h⟩
    unfold fromMinor at hok
    split_ifs at hok with h1
    have hcast : ((rnd (n : ℚ)).num : ℚ) = rnd (n : ℚ) :=
      (Rat.den_eq_one_iff _).mp (by simpa [Rat.isInt] using h1.1)
    have hsafe : isSafeInteger (rnd (n : ℚ)) = true := by
      rw [← hcast, isSafeInteger_intCast]
      simpa using h1.2
    rw [isSafeInteger_rnd] at hsafe
    exact absurd (of_decide_eq_true hsafe) h

theorem subtract_ok {a b c : Money} : a.subtract b = .ok c ↔ c.value = a.value - b.value := by
  unfold Money.subtract
  rw [← Int.cast_sub]
  exact fromMinor_rnd

theorem fromMinor_num {x : Number} {a : Money} (h : fromMinor x = .ok a) : a.value = x.num := by
  unfold fromMinor at h
  split_ifs at h with h1
  cases h
  rfl

/-- **A charge is not negative**, and only an hourly rate and a duration that are not are charged. -/
theorem forDuration_spec {r d : Number} {a : Money} (h : forDuration r d = .ok a) :
    0 ≤ r ∧ 0 ≤ d ∧ 0 ≤ a.value := by
  unfold forDuration at h
  split_ifs at h with hr hd
  have hr0 : 0 ≤ r := not_lt.mp fun hlt => hr (Or.inr hlt)
  have hd0 : 0 ≤ d := not_lt.mp fun hlt => hd (Or.inr hlt)
  refine ⟨hr0, hd0, ?_⟩
  have hnum : 0 ≤ rnd (r * d) := rnd_nonneg (mul_nonneg hr0 hd0)
  have hrounded : 0 ≤ ⌊rnd (rnd (rnd (rnd (r * d) * 2) + 3600) / rnd (3600 * 2))⌋ := by
    refine Int.floor_nonneg.mpr (rnd_nonneg (div_nonneg (rnd_nonneg ?_) (rnd_nonneg (by norm_num))))
    have := rnd_nonneg (mul_nonneg hnum (by norm_num : (0 : ℚ) ≤ 2))
    linarith
  dsimp only at h
  split_ifs at h
  rw [fromMinor_ok.mp h]
  exact hrounded

/-! ### Decimal texts -/

/-- The text of an integer as Postgres prints it. -/
def decimal (n : ℤ) : List Char :=
  if n < 0 then '-' :: Nat.toDigits 10 n.natAbs else Nat.toDigits 10 n.natAbs

theorem toDigits_all_isDigit (n : ℕ) : (Nat.toDigits 10 n).all Char.isDigit = true :=
  List.all_eq_true.mpr fun _ hc => Nat.isDigit_of_mem_toDigits (by norm_num) (by norm_num) hc

theorem parseDecimal_decimal (n : ℤ) : parseDecimal (decimal n) = some n := by
  have hdig := toDigits_all_isDigit n.natAbs
  have hne : Nat.toDigits 10 n.natAbs ≠ [] := Nat.toDigits_ne_nil
  unfold decimal
  split_ifs with hn
  · rw [parseDecimal, if_pos ⟨hne, hdig⟩, Nat.ofDigitChars_ten_toDigits]
    congr 1
    omega
  · have hmatch : parseDecimal (Nat.toDigits 10 n.natAbs) =
        if Nat.toDigits 10 n.natAbs ≠ [] ∧ (Nat.toDigits 10 n.natAbs).all Char.isDigit then
          some (Nat.ofDigitChars 10 (Nat.toDigits 10 n.natAbs) 0 : ℤ) else none := by
      unfold parseDecimal
      split
      · next ds heq =>
        -- a digit is not a minus sign
        have := List.all_eq_true.mp hdig '-' (by rw [heq]; simp)
        simp at this
      · rfl
    rw [hmatch, if_pos ⟨hne, hdig⟩, Nat.ofDigitChars_ten_toDigits]
    congr 1
    omega

/-- **The decimal text of an integer is parsed exactly**, or refused when out of range. -/
theorem fromString_decimal (n : ℤ) {a : Money} :
    fromString (String.ofList (decimal n)) = .ok a ↔ a.value = n := by
  unfold fromString
  rw [String.toList_ofList, parseDecimal_decimal]
  exact fromMinor_rnd

/-- A sum in range is read back. -/
theorem fromString_decimal_ok {n : ℤ} (h : |n| ≤ maxSafeInteger) :
    fromString (String.ofList (decimal n)) = .ok ⟨n, h⟩ := (fromString_decimal n).mpr rfl

theorem fromString_decimal_error {n : ℤ} (h : ¬ |n| ≤ maxSafeInteger) :
    ∃ e, fromString (String.ofList (decimal n)) = .error e := by
  cases hf : fromString (String.ofList (decimal n)) with
  | error e => exact ⟨e, rfl⟩
  | ok a => exact absurd ((fromString_decimal n).mp hf ▸ a.safe) h

end GameClub.Common
