import GameClub.Common.Values
import GameClub.Lib.Calendar

/-! # The text of a date

`Date.prototype.toISOString`: year, month and day of the calendar and the time of the day in
milliseconds, in fields of fixed width; a year out of 0 to 9999 has a sign and six digits.

* `isoText_append_inj`: the text of a date can be told from what follows it, and the date from the
  text. -/

namespace GameClub.Common

open GameClub.Lib

/-- The last `w` decimal digits of `n`. -/
def digits : ℕ → ℕ → List Char
  | 0, _ => []
  | w + 1, n => digits w (n / 10) ++ [Nat.digitChar (n % 10)]

def sign (y : ℤ) : Char := if y < 0 then '-' else '+'

def yearText (y : ℤ) : List Char :=
  if 0 ≤ y ∧ y ≤ 9999 then digits 4 y.toNat else sign y :: digits 6 y.natAbs

/-- The characters of `toISOString`. -/
def isoText (d : Instant) : List Char :=
  let date := Calendar.civil (d.ms / 86400000)
  let time := d.ms % 86400000
  yearText date.year ++ ('-' :: (digits 2 date.month.toNat ++ ('-' :: (digits 2 date.day.toNat ++
    ('T' :: (digits 2 (time / 3600000).toNat ++ (':' :: (digits 2 (time / 60000 % 60).toNat ++
      (':' :: (digits 2 (time / 1000 % 60).toNat ++
        ('.' :: (digits 3 (time % 1000).toNat ++ ['Z']))))))))))))

def Instant.toISOString (d : Instant) : String := String.ofList (isoText d)

example : String.ofList (isoText ⟨0, by decide⟩) = "1970-01-01T00:00:00.000Z" := by decide

/-! ### Reading a field -/

theorem length_digits (w n : ℕ) : (digits w n).length = w := by
  induction w generalizing n with
  | zero => rfl
  | succ w ih => rw [digits, List.length_append, ih, List.length_singleton]

theorem digitChar_inj {a b : ℕ} (ha : a < 10) (hb : b < 10)
    (h : Nat.digitChar a = Nat.digitChar b) : a = b := by
  have hall : ∀ x < 10, ∀ y < 10, Nat.digitChar x = Nat.digitChar y → x = y := by decide
  exact hall a ha b hb h

theorem digitChar_ne_sign {a : ℕ} (ha : a < 10) :
    Nat.digitChar a ≠ '-' ∧ Nat.digitChar a ≠ '+' := by
  have hall : ∀ x < 10, Nat.digitChar x ≠ '-' ∧ Nat.digitChar x ≠ '+' := by decide
  exact hall a ha

/-- A number is read back from its digits. -/
theorem digits_inj {w n m : ℕ} (hn : n < 10 ^ w) (hm : m < 10 ^ w) (h : digits w n = digits w m) :
    n = m := by
  induction w generalizing n m with
  | zero =>
    rw [pow_zero] at hn hm
    omega
  | succ w ih =>
    obtain ⟨hinit, hlast⟩ := List.append_inj' h rfl
    have hdiv : n / 10 = m / 10 := by
      refine ih ?_ ?_ hinit
      · rw [pow_succ] at hn
        omega
      · rw [pow_succ] at hm
        omega
    have hmod : n % 10 = m % 10 :=
      digitChar_inj (Nat.mod_lt _ (by norm_num)) (Nat.mod_lt _ (by norm_num)) (List.cons.inj hlast).1
    omega

/-- **A field of fixed width** is told from what follows. -/
theorem digits_append_inj {w n m : ℕ} {xs ys : List Char} (hn : n < 10 ^ w) (hm : m < 10 ^ w)
    (h : digits w n ++ xs = digits w m ++ ys) : n = m ∧ xs = ys := by
  obtain ⟨hfield, hrest⟩ := List.append_inj h (by rw [length_digits, length_digits])
  exact ⟨digits_inj hn hm hfield, hrest⟩

/-- A year of four digits has no sign. -/
theorem digits_four_ne_sign (n : ℕ) (y : ℤ) (xs ys : List Char) :
    digits 4 n ++ xs ≠ sign y :: ys := by
  intro h
  have hfour : digits 4 n ++ xs = Nat.digitChar (n / 10 / 10 / 10 % 10) ::
      Nat.digitChar (n / 10 / 10 % 10) :: Nat.digitChar (n / 10 % 10) ::
        Nat.digitChar (n % 10) :: xs := by simp [digits]
  rw [hfour] at h
  have hhead : Nat.digitChar (n / 10 / 10 / 10 % 10) = sign y := (List.cons.inj h).1
  obtain ⟨hminus, hplus⟩ := digitChar_ne_sign (Nat.mod_lt (n / 10 / 10 / 10) (by norm_num : 10 > 0))
  unfold sign at hhead
  split_ifs at hhead
  · exact hminus hhead
  · exact hplus hhead

/-- A year is read back from its sign and its size. -/
theorem sign_inj {y y' : ℤ} (hs : sign y = sign y') (hn : y.natAbs = y'.natAbs) : y = y' := by
  unfold sign at hs
  split_ifs at hs
  · omega
  · cases hs
  · cases hs
  · omega

theorem yearText_append_inj {y y' : ℤ} {xs ys : List Char} (hy : |y| < 1000000)
    (hy' : |y'| < 1000000) (h : yearText y ++ xs = yearText y' ++ ys) : y = y' ∧ xs = ys := by
  have hpow : (10 : ℕ) ^ 6 = 1000000 := by norm_num
  have hpow4 : (10 : ℕ) ^ 4 = 10000 := by norm_num
  obtain ⟨hlo, hhi⟩ := abs_lt.mp hy
  obtain ⟨hlo', hhi'⟩ := abs_lt.mp hy'
  unfold yearText at h
  split_ifs at h with h1 h2 h2
  · obtain ⟨hnum, hrest⟩ := digits_append_inj (by rw [hpow4]; omega) (by rw [hpow4]; omega) h
    exact ⟨by omega, hrest⟩
  · exact absurd h (digits_four_ne_sign _ _ _ _)
  · exact absurd h.symm (digits_four_ne_sign _ _ _ _)
  · obtain ⟨hhead, htail⟩ := List.cons.inj h
    obtain ⟨hnum, hrest⟩ := digits_append_inj (by rw [hpow]; omega) (by rw [hpow]; omega) htail
    exact ⟨sign_inj hhead hnum, hrest⟩

/-- A field and the separator before it. -/
theorem field_inj {w : ℕ} {a b : ℤ} {c : Char} {xs ys : List Char} (ha : 0 ≤ a ∧ a.toNat < 10 ^ w)
    (hb : 0 ≤ b ∧ b.toNat < 10 ^ w)
    (h : c :: (digits w a.toNat ++ xs) = c :: (digits w b.toNat ++ ys)) : a = b ∧ xs = ys := by
  obtain ⟨hnum, hrest⟩ := digits_append_inj ha.2 hb.2 (List.cons.inj h).2
  exact ⟨by omega, hrest⟩

theorem time_eq {s t : ℤ} (hh : s / 3600000 = t / 3600000) (hm : s / 60000 % 60 = t / 60000 % 60)
    (hs : s / 1000 % 60 = t / 1000 % 60) (hms : s % 1000 = t % 1000) : s = t := by
  omega

/-- **The text of a date is told from what follows**, and the date from its text. -/
theorem isoText_append_inj {d d' : Instant} {xs ys : List Char}
    (h : isoText d ++ xs = isoText d' ++ ys) : d = d' ∧ xs = ys := by
  have hyear : ∀ e : Instant, |(Calendar.civil (e.ms / 86400000)).year| < 1000000 := by
    intro e
    have hms := e.ms_bounds
    unfold maxTimeValue at hms
    exact Calendar.civil_year (abs_le.mpr ⟨by omega, by omega⟩)
  have hmonth : ∀ z, 0 ≤ (Calendar.civil z).month ∧ (Calendar.civil z).month.toNat < 10 ^ 2 := by
    intro z
    have hm := Calendar.civil_month z
    omega
  have hday : ∀ z, 0 ≤ (Calendar.civil z).day ∧ (Calendar.civil z).day.toNat < 10 ^ 2 := by
    intro z
    have hd := Calendar.civil_day z
    omega
  simp only [isoText, List.append_assoc, List.cons_append] at h
  obtain ⟨hy, h⟩ := yearText_append_inj (hyear d) (hyear d') h
  obtain ⟨hm, h⟩ := field_inj (hmonth _) (hmonth _) h
  obtain ⟨hd, h⟩ := field_inj (hday _) (hday _) h
  obtain ⟨hh, h⟩ := field_inj (by omega) (by omega) h
  obtain ⟨hmin, h⟩ := field_inj (by omega) (by omega) h
  obtain ⟨hsec, h⟩ := field_inj (by omega) (by omega) h
  obtain ⟨hms, h⟩ := field_inj (by omega) (by omega) h
  have hdate : Calendar.civil (d.ms / 86400000) = Calendar.civil (d'.ms / 86400000) :=
    Calendar.Date.ext hy hm hd
  have hdays : d.ms / 86400000 = d'.ms / 86400000 := by
    rw [← Calendar.days_civil (d.ms / 86400000), hdate, Calendar.days_civil]
  have htime : d.ms % 86400000 = d'.ms % 86400000 := time_eq hh hmin hsec hms
  have heq : d.ms = d'.ms := by omega
  refine ⟨?_, (List.cons.inj h).2⟩
  cases d
  cases d'
  cases heq
  rfl

end GameClub.Common
