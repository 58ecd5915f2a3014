import GameClub.Common.Money
import GameClub.Common.Text

/-! # Amounts as texts

An amount is stored and summed by Postgres as a decimal text. `Money.fromString` reads what the
aggregates return, `moneyColumnTransformer` writes and reads a column.

* `fromString_eq_ok`: what is read, and as what; digits are never rounded into the safe range.
* `parseInt_decimal`: the reader of a column reads the same.
* `decimal_exact`: the round trips. -/

namespace GameClub.Common

open GameClub.Lib.Binary64 Money

/-! ### The texts of numbers -/

/-- `Math.trunc(x)` -/
def mathTrunc (x : Number) : ℤ := if 0 ≤ x then ⌊x⌋ else ⌈x⌉

/-- The fewest digits that are read as the double `m`, `m` from `10 ^ 21` on, and the power of ten
they are multiplied by; of two such numbers the nearer one. -/
def shortestDigits (m : ℕ) : ℕ × ℕ :=
  let reads (c p : ℕ) : Bool := rnd ((c * p : ℕ) : ℚ) = m
  ((List.range 17).findSome? fun i =>
    let p := 10 ^ (Nat.log 10 m - i)
    let c := m / p
    if reads c p && (!reads (c + 1) p || decide (2 * (m % p) ≤ p)) then some (c, p)
    else if reads (c + 1) p then some (c + 1, p)
    else none).getD (m, 1)

/-- A number with an exponent. -/
def exponential (m : ℕ) : List Char :=
  let (c, p) := shortestDigits m
  let exponent := "e+".toList ++ Nat.toDigits 10 (Nat.log 10 (c * p))
  match Nat.toDigits 10 c with
  | [] => exponent
  | d :: ds =>
    let fraction := (ds.reverse.dropWhile (· = '0')).reverse
    if fraction = [] then d :: exponent else d :: '.' :: (fraction ++ exponent)

/-- `n.toString()` -/
def numberText (n : ℤ) : List Char :=
  if |n| < 10 ^ 21 then decimal n
  else if n < 0 then '-' :: exponential n.natAbs
  else exponential n.natAbs

/-- Canonical persistence form. -/
def Money.toString (a : Money) : String := String.ofList (numberText a.value)

namespace moneyColumnTransformer

/-- `to` -/
def toDatabase (value : Option Number) : Option String :=
  value.map fun x => String.ofList (numberText (mathTrunc x))

/-- `from`; the number may be `NaN`. -/
def fromDatabase (value : Option String) : Option (Option Number) :=
  value.map fun text => parseInt text.toList

end moneyColumnTransformer

theorem mathTrunc_intCast (n : ℤ) : mathTrunc (n : ℚ) = n := by
  unfold mathTrunc
  split_ifs <;> simp

theorem numberText_safe {n : ℤ} (h : |n| ≤ maxSafeInteger) : numberText n = decimal n :=
  if_pos (h.trans_lt (by decide))

/-! ### Decimal texts -/

/-- **The text is an optional minus sign and digits**, and `n` is the integer it stands for. -/
def IsDecimal (w : String) (n : ℤ) : Prop :=
  ∃ digits : List Char, digits ≠ [] ∧ (∀ c ∈ digits, c.isDigit = true) ∧
    ((w.toList = digits ∧ n = Nat.ofDigitChars 10 digits 0) ∨
      (w.toList = '-' :: digits ∧ n = -(Nat.ofDigitChars 10 digits 0 : ℤ)))

theorem parseDecimal_minus (digits : List Char) : parseDecimal ('-' :: digits) =
    if digits ≠ [] ∧ digits.all Char.isDigit then some (-(Nat.ofDigitChars 10 digits 0 : ℤ))
    else none := rfl

theorem parseDecimal_plain {cs : List Char} (h : cs.head? ≠ some '-') : parseDecimal cs =
    if cs ≠ [] ∧ cs.all Char.isDigit then some (Nat.ofDigitChars 10 cs 0 : ℤ) else none := by
  unfold parseDecimal
  split
  · exact absurd rfl h
  · rfl

/-- A digit is not a minus sign. -/
theorem head?_digits {digits : List Char} (h : ∀ c ∈ digits, c.isDigit = true) :
    digits.head? ≠ some '-' := by
  intro hhead
  have hdigit : ('-').isDigit = true := h '-' (List.mem_of_head? hhead)
  exact absurd hdigit (by decide)

/-- **The pattern and its number.** -/
theorem parseDecimal_eq_some {w : String} {n : ℤ} :
    parseDecimal w.toList = some n ↔ IsDecimal w n := by
  constructor
  · intro h
    by_cases hminus : w.toList.head? = some '-'
    · obtain ⟨digits, hw⟩ := List.head?_eq_some_iff.mp hminus
      rw [hw, parseDecimal_minus] at h
      split_ifs at h with hdigits
      exact ⟨digits, hdigits.1, List.all_eq_true.mp hdigits.2, Or.inr ⟨hw, (Option.some.inj h).symm⟩⟩
    · rw [parseDecimal_plain hminus] at h
      split_ifs at h with hdigits
      exact ⟨_, hdigits.1, List.all_eq_true.mp hdigits.2, Or.inl ⟨rfl, (Option.some.inj h).symm⟩⟩
  · rintro ⟨digits, hne, hdigits, ⟨hw, rfl⟩ | ⟨hw, rfl⟩⟩
    · rw [hw, parseDecimal_plain (head?_digits hdigits),
        if_pos ⟨hne, List.all_eq_true.mpr hdigits⟩]
    · rw [hw, parseDecimal_minus, if_pos ⟨hne, List.all_eq_true.mpr hdigits⟩]

theorem isDecimal_decimal (n : ℤ) : IsDecimal (String.ofList (decimal n)) n :=
  parseDecimal_eq_some.mp (by rw [String.toList_ofList]; exact parseDecimal_decimal n)

/-- A text stands for one integer. -/
theorem IsDecimal.unique {w : String} {m n : ℤ} (hm : IsDecimal w m) (hn : IsDecimal w n) :
    m = n := by
  have h := parseDecimal_eq_some.mpr hm
  rw [parseDecimal_eq_some.mpr hn] at h
  exact (Option.some.inj h).symm

/-! ### Reading -/

/-- **What `fromString` reads, and as what**: the text of a safe integer, as this integer. -/
theorem fromString_eq_ok {w : String} {a : Money} : fromString w = .ok a ↔ IsDecimal w a.value := by
  unfold fromString
  cases hparse : parseDecimal w.toList with
  | none =>
    refine ⟨nofun, fun h => ?_⟩
    rw [parseDecimal_eq_some.mpr h] at hparse
    cases hparse
  | some n =>
    have hn : IsDecimal w n := parseDecimal_eq_some.mp hparse
    constructor
    · intro h
      rw [fromMinor_rnd.mp h]
      exact hn
    · intro h
      exact fromMinor_rnd.mpr (h.unique hn)

/-- **The reader of a column rounds the same integer.** -/
theorem parseInt_decimal {w : String} {n : ℤ} (h : IsDecimal w n) :
    parseInt w.toList = some (rnd (n : ℚ)) := by
  obtain ⟨digits, hne, hdigits, ⟨hw, rfl⟩ | ⟨hw, rfl⟩⟩ := h
  · rw [hw, parseInt_digits hne hdigits]
    norm_cast
  · rw [hw, parseInt_minus hne hdigits, ← rnd_neg]
    norm_cast

/-- A column keeps a safe integer. -/
theorem fromDatabase_toDatabase {n : ℤ} (h : |n| ≤ maxSafeInteger) :
    moneyColumnTransformer.toDatabase (some n) = some (String.ofList (decimal n)) ∧
      moneyColumnTransformer.fromDatabase (some (String.ofList (decimal n))) =
        some (some (n : Number)) := by
  have hround : rnd (n : ℚ) = n := rnd_intCast (h.trans (by decide))
  constructor
  · simp only [moneyColumnTransformer.toDatabase, Option.map_some, mathTrunc_intCast,
      numberText_safe h]
  · simp only [moneyColumnTransformer.fromDatabase, Option.map_some,
      parseInt_decimal (isDecimal_decimal n), hround]

/-! ### Round trips -/

/-- **The decimal form is exact**: `fromString` accepts exactly the decimal texts of safe integers
and reads each as its integer; an amount is read back from its text, and from its column by both
readers. -/
theorem decimal_exact :
    (∀ w, (∃ a, fromString w = .ok a) ↔ ∃ n, IsDecimal w n ∧ |n| ≤ 2 ^ 53 - 1) ∧
    (∀ w n a, IsDecimal w n → fromString w = .ok a → a.value = n) ∧
    (∀ n : ℤ, |n| ≤ 2 ^ 53 - 1 → ∃ a, fromMinor n = .ok a ∧
      ∃ b, fromString a.toString = .ok b ∧ b.value = n) ∧
    (∀ n : ℤ, |n| ≤ 2 ^ 53 - 1 →
      ∃ w, moneyColumnTransformer.toDatabase (some (n : Number)) = some w ∧
      moneyColumnTransformer.fromDatabase (some w) = some (some (n : Number)) ∧
      ∃ a, fromString w = .ok a ∧ a.value = n) := by
  refine ⟨fun w => ⟨fun ⟨a, h⟩ => ⟨a.value, fromString_eq_ok.mp h, a.safe⟩, fun ⟨n, hn, hsafe⟩ =>
    ⟨⟨n, hsafe⟩, fromString_eq_ok.mpr hn⟩⟩, fun w n a hn h => (fromString_eq_ok.mp h).unique hn,
    fun n hsafe => ?_, fun n hsafe => ?_⟩
  · have htext : Money.toString ⟨n, hsafe⟩ = String.ofList (decimal n) := by
      unfold Money.toString
      rw [numberText_safe hsafe]
    refine ⟨⟨n, hsafe⟩, fromMinor_ok.mpr rfl, ⟨n, hsafe⟩, ?_, rfl⟩
    rw [htext]
    exact fromString_decimal_ok hsafe
  · obtain ⟨hto, hfrom⟩ := fromDatabase_toDatabase hsafe
    exact ⟨_, hto, hfrom, ⟨n, hsafe⟩, fromString_decimal_ok hsafe, rfl⟩

/-- A text with leading zeros, and the largest amount. -/
theorem decimal_exact_zeros : (∃ a, fromString "-007" = .ok a ∧ a.value = -7) ∧
    (∃ a, fromMinor (2 ^ 53 - 1 : ℤ) = .ok a ∧
      ∃ b, fromString a.toString = .ok b ∧ b.value = 2 ^ 53 - 1) ∧
    ∃ w, moneyColumnTransformer.toDatabase (some ((-(2 ^ 53 - 1) : ℤ) : ℚ)) = some w ∧
      ∃ a, fromString w = .ok a ∧ a.value = -(2 ^ 53 - 1) := by
  obtain ⟨haccepts, hreads, htext, hcolumn⟩ := decimal_exact
  have hseven : IsDecimal "-007" (-7) :=
    ⟨['0', '0', '7'], by decide, List.all_eq_true.mp rfl, Or.inr ⟨by decide, by decide⟩⟩
  obtain ⟨a, ha⟩ := (haccepts "-007").mpr ⟨-7, hseven, by norm_num⟩
  obtain ⟨w, hto, -, b, hb, hvalue⟩ := hcolumn (-(2 ^ 53 - 1)) (by norm_num)
  exact ⟨⟨a, ha, hreads _ _ _ hseven ha⟩, htext (2 ^ 53 - 1) (by norm_num), w, hto, b, hb, hvalue⟩

end GameClub.Common
