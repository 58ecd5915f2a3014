import GameClub.Lib.Binary64

/-! # Identifiers and dates

Row ids are uuids, held by their value. A request names a row by the text of its uuid, and texts
that differ in letter case only have one value. Dates are JavaScript time values: milliseconds since
the epoch within the range of `Date`; their arithmetic is that of doubles.

* `Uuid.parse_text`: the text of a uuid is read back as that uuid. -/

namespace GameClub.Common

open GameClub.Lib.Binary64

/-! ### Uuids -/

/-- The value of a uuid. -/
abbrev Uuid := ℕ

/-- Hexadecimal digits of `n`, the last `len` of them, in lower case. -/
def hexDigits (len n : ℕ) : List Char :=
  ((List.range len).map fun i => Nat.digitChar (n / 16 ^ i % 16)).reverse

/-- The text Postgres prints for a uuid. -/
def Uuid.text (u : Uuid) : String :=
  String.ofList (hexDigits 8 (u / 2 ^ 96) ++ '-' :: hexDigits 4 (u / 2 ^ 80) ++ '-' ::
    hexDigits 4 (u / 2 ^ 64) ++ '-' :: hexDigits 4 (u / 2 ^ 48) ++ '-' :: hexDigits 12 u)

/-- The text of a uuid in a request: its value, and a mask of the letters written as capitals. -/
structure UuidText where
  value : Uuid
  capitals : ℕ
deriving DecidableEq

/-- The text as the client wrote it. -/
def UuidText.text (t : UuidText) : String :=
  String.ofList ((Uuid.text t.value).toList.mapIdx fun i c =>
    if t.capitals.testBit i then c.toUpper else c)

/-- The value of a hexadecimal digit. -/
def hexValue (c : Char) : Option ℕ :=
  if '0' ≤ c ∧ c ≤ '9' then some (c.toNat - 48)
  else if 'a' ≤ c ∧ c ≤ 'f' then some (c.toNat - 87)
  else if 'A' ≤ c ∧ c ≤ 'F' then some (c.toNat - 55)
  else none

/-- `n` bytes of a uuid, and what is left of the text. A hyphen may follow every second byte but the
last. -/
def uuidBytes : ℕ → Uuid → List Char → Option (Uuid × List Char)
  | 0, u, cs => some (u, cs)
  | n + 1, u, a :: b :: cs =>
    match hexValue a, hexValue b with
    | some x, some y =>
      match cs with
      | '-' :: rest =>
        if n % 2 = 0 ∧ 0 < n then uuidBytes n (u * 256 + x * 16 + y) rest
        else uuidBytes n (u * 256 + x * 16 + y) ('-' :: rest)
      | cs => uuidBytes n (u * 256 + x * 16 + y) cs
    | _, _ => none
  | _ + 1, _, _ => none

/-- The uuid Postgres reads from a text, if it is one. -/
def Uuid.parse (text : List Char) : Option Uuid :=
  match text with
  | '{' :: cs =>
    match uuidBytes 16 0 cs with
    | some (u, ['}']) => some u
    | _ => none
  | cs =>
    match uuidBytes 16 0 cs with
    | some (u, []) => some u
    | _ => none

/-! ### Reading a uuid back -/

theorem hexValue_digitChar {d : ℕ} (h : d < 16) : hexValue (Nat.digitChar d) = some d := by
  interval_cases d <;> rfl

/-- A digit is no hyphen, dot or brace. -/
theorem digitChar_ne {d : ℕ} (h : d < 16) :
    Nat.digitChar d ≠ '-' ∧ Nat.digitChar d ≠ '.' ∧ Nat.digitChar d ≠ '{' := by
  interval_cases d <;> decide

theorem hexDigits_succ (len n : ℕ) :
    hexDigits (len + 1) n = Nat.digitChar (n / 16 ^ len % 16) :: hexDigits len n := by
  simp [hexDigits, List.range_succ]

/-- A byte that no hyphen follows. -/
theorem uuidBytes_byte {n x y : ℕ} {u : Uuid} {cs : List Char} (hx : x < 16) (hy : y < 16)
    (hcs : cs.head? ≠ some '-') :
    uuidBytes (n + 1) u (Nat.digitChar x :: Nat.digitChar y :: cs) =
      uuidBytes n (u * 256 + x * 16 + y) cs := by
  simp only [uuidBytes, hexValue_digitChar hx, hexValue_digitChar hy]
  split
  · exact absurd rfl hcs
  · rfl

/-- The last byte of a group. -/
theorem uuidBytes_hyphen {n x y : ℕ} {u : Uuid} {cs : List Char} (hx : x < 16) (hy : y < 16)
    (hn : n % 2 = 0 ∧ 0 < n) :
    uuidBytes (n + 1) u (Nat.digitChar x :: Nat.digitChar y :: '-' :: cs) =
      uuidBytes n (u * 256 + x * 16 + y) cs := by
  simp only [uuidBytes, hexValue_digitChar hx, hexValue_digitChar hy, if_pos hn]

/-- The value of a byte more. -/
theorem horner_byte (u k n : ℕ) :
    (u * 256 + n / 16 ^ (2 * k + 1) % 16 * 16 + n / 16 ^ (2 * k) % 16) * 16 ^ (2 * k) +
      n % 16 ^ (2 * k) = u * 16 ^ (2 * (k + 1)) + n % 16 ^ (2 * (k + 1)) := by
  have h1 : n % 16 ^ (2 * k + 1) = n / 16 ^ (2 * k) % 16 * 16 ^ (2 * k) + n % 16 ^ (2 * k) := by
    rw [pow_succ, Nat.mod_mul]
    ring
  have h2 : n % 16 ^ (2 * (k + 1)) =
      n / 16 ^ (2 * k + 1) % 16 * 16 ^ (2 * k + 1) + n % 16 ^ (2 * k + 1) := by
    rw [show 2 * (k + 1) = 2 * k + 1 + 1 by ring, pow_succ, Nat.mod_mul]
    ring
  rw [h2, h1]
  ring

/-- The first byte of a group. -/
theorem hexDigits_byte (k n : ℕ) (cs : List Char) : hexDigits (2 * (k + 1)) n ++ cs =
    Nat.digitChar (n / 16 ^ (2 * k + 1) % 16) :: Nat.digitChar (n / 16 ^ (2 * k) % 16) ::
      (hexDigits (2 * k) n ++ cs) := by
  rw [show 2 * (k + 1) = 2 * k + 1 + 1 by ring, hexDigits_succ, hexDigits_succ]
  rfl

theorem head?_hexDigits {k n : ℕ} (cs : List Char) (hk : 0 < k) :
    (hexDigits (2 * k) n ++ cs).head? ≠ some '-' := by
  obtain ⟨j, rfl⟩ := Nat.exists_eq_succ_of_ne_zero hk.ne'
  rw [hexDigits_byte]
  intro h
  exact (digitChar_ne (Nat.mod_lt _ (by norm_num))).1 (Option.some.inj h)

/-- **The digits of a uuid are read back**, a byte at a time. -/
theorem uuidBytes_digits (k n m : ℕ) (u : Uuid) (cs : List Char) (hcs : cs.head? ≠ some '-') :
    uuidBytes (m + k) u (hexDigits (2 * k) n ++ cs) =
      uuidBytes m (u * 16 ^ (2 * k) + n % 16 ^ (2 * k)) cs := by
  have hlt : ∀ j, n / 16 ^ j % 16 < 16 := fun j => Nat.mod_lt _ (by norm_num)
  induction k generalizing u with
  | zero => simp [hexDigits, Nat.mod_one]
  | succ k ih =>
    have hrest : (hexDigits (2 * k) n ++ cs).head? ≠ some '-' := by
      rcases Nat.eq_zero_or_pos k with rfl | hk
      · exact hcs
      · exact head?_hexDigits cs hk
    rw [hexDigits_byte, ← Nat.add_assoc, uuidBytes_byte (hlt _) (hlt _) hrest, ih, horner_byte]

/-- The same of a group before a hyphen. -/
theorem uuidBytes_group (k n m : ℕ) (u : Uuid) (cs : List Char) (hm : m % 2 = 0 ∧ 0 < m) :
    uuidBytes (m + (k + 1)) u (hexDigits (2 * (k + 1)) n ++ '-' :: cs) =
      uuidBytes m (u * 16 ^ (2 * (k + 1)) + n % 16 ^ (2 * (k + 1))) cs := by
  have hlt : ∀ j, n / 16 ^ j % 16 < 16 := fun j => Nat.mod_lt _ (by norm_num)
  induction k generalizing u with
  | zero =>
    have hval := horner_byte u 0 n
    rw [hexDigits_byte]
    have hbyte := @uuidBytes_hyphen m _ _ u cs (hlt (2 * 0 + 1)) (hlt (2 * 0)) hm
    rw [← hval]
    simpa [Nat.mod_one, hexDigits] using hbyte
  | succ k ih =>
    have hrest := head?_hexDigits (k := k + 1) (n := n) ('-' :: cs) (by omega)
    rw [hexDigits_byte, ← Nat.add_assoc, uuidBytes_byte (hlt _) (hlt _) hrest, ih, horner_byte]

/-- The groups of digits of a uuid. -/
theorem toList_text (u : Uuid) : (Uuid.text u).toList =
    hexDigits (2 * (3 + 1)) (u / 2 ^ 96) ++ '-' :: (hexDigits (2 * (1 + 1)) (u / 2 ^ 80) ++
      '-' :: (hexDigits (2 * (1 + 1)) (u / 2 ^ 64) ++ '-' :: (hexDigits (2 * (1 + 1)) (u / 2 ^ 48) ++
        '-' :: (hexDigits (2 * 6) u ++ [])))) := by
  simp [Uuid.text]

/-- The value of the groups. -/
theorem join_groups {n : ℕ} (hn : n < 2 ^ 128) :
    ((((0 * 16 ^ (2 * (3 + 1)) + n / 2 ^ 96 % 16 ^ (2 * (3 + 1))) * 16 ^ (2 * (1 + 1)) +
      n / 2 ^ 80 % 16 ^ (2 * (1 + 1))) * 16 ^ (2 * (1 + 1)) + n / 2 ^ 64 % 16 ^ (2 * (1 + 1))) *
        16 ^ (2 * (1 + 1)) + n / 2 ^ 48 % 16 ^ (2 * (1 + 1))) * 16 ^ (2 * 6) + n % 16 ^ (2 * 6) =
          n := by
  omega

/-- **The text of a uuid is read back as that uuid.** -/
theorem Uuid.parse_text {u : Uuid} (hu : u < 2 ^ 128) :
    Uuid.parse (Uuid.text u).toList = some u := by
  have hbytes : uuidBytes 16 0 (Uuid.text u).toList = some (u, []) := by
    rw [toList_text, uuidBytes_group 3 _ 12 _ _ (by decide), uuidBytes_group 1 _ 10 _ _ (by decide),
      uuidBytes_group 1 _ 8 _ _ (by decide), uuidBytes_group 1 _ 6 _ _ (by decide),
      uuidBytes_digits 6 u 0 _ _ (by simp)]
    rw [join_groups hu]
    rfl
  have hhead : ∃ d cs, d < 16 ∧ (Uuid.text u).toList = Nat.digitChar d :: cs := by
    rw [toList_text, hexDigits_byte 3]
    exact ⟨_, _, Nat.mod_lt _ (by norm_num), rfl⟩
  obtain ⟨d, cs, hd, htext⟩ := hhead
  unfold Uuid.parse
  rw [htext] at hbytes ⊢
  split
  · next cs' heq => exact absurd (List.cons.inj heq).1 (digitChar_ne hd).2.2
  · rw [hbytes]

/-- A uuid has no dot in it. -/
theorem dot_not_mem_text (u : Uuid) : '.' ∉ (Uuid.text u).toList := by
  have hdigits : ∀ len n, '.' ∉ hexDigits len n := by
    intro len n hmem
    induction len with
    | zero => simp [hexDigits] at hmem
    | succ len ih =>
      rw [hexDigits_succ] at hmem
      rcases List.mem_cons.mp hmem with hd | hmem
      · exact (digitChar_ne (Nat.mod_lt _ (by norm_num))).2.1 hd.symm
      · exact ih hmem
  rw [toList_text]
  simp [hdigits]

/-- A text that is not there is not too long. -/
theorem noText_length : ∀ s : String, none = some s → s.length ≤ 255 := nofun

/-! ### Dates -/

/-- The largest time value of a `Date`. -/
def maxTimeValue : ℤ := 8640000000000000

/-- A valid `Date`. -/
structure Instant where
  ms : ℤ
  valid : |ms| ≤ maxTimeValue
deriving DecidableEq

/-- `new Date(0)`. -/
def Instant.epoch : Instant := ⟨0, by decide⟩

/-- An hour after it. -/
theorem hour_valid : |(3600000 : ℤ)| ≤ maxTimeValue := by decide

theorem Instant.ms_bounds (d : Instant) : -maxTimeValue ≤ d.ms ∧ d.ms ≤ maxTimeValue :=
  abs_le.mp d.valid

theorem floor_valid {t : ℚ} (h : |t| ≤ (maxTimeValue : ℚ)) : |⌊t⌋| ≤ maxTimeValue := by
  obtain ⟨h1, h2⟩ := abs_le.mp h
  refine abs_le.mpr ⟨Int.le_floor.mpr (by exact_mod_cast h1), ?_⟩
  exact_mod_cast (Int.floor_le t).trans h2

/-- `new Date(t)` of an integer `t`; `none` is an Invalid Date. -/
def newDate (t : ℚ) : Option Instant :=
  if h : |t| ≤ (maxTimeValue : ℚ) then some ⟨⌊t⌋, floor_valid h⟩ else none

theorem newDate_intCast {n : ℤ} {d : Instant} : newDate (n : ℚ) = some d ↔ d.ms = n := by
  have hiff : |(n : ℚ)| ≤ (maxTimeValue : ℚ) ↔ |n| ≤ maxTimeValue := by
    rw [← Int.cast_abs, Int.cast_le]
  obtain ⟨ms, hms⟩ := d
  unfold newDate
  split_ifs with h
  · simp [eq_comm]
  · simp only [false_iff]
    rintro rfl
    exact h (hiff.mpr hms)

/-- Rounding to a double makes no integer a date and changes no date. -/
theorem newDate_rnd {n : ℤ} {d : Instant} : newDate (rnd (n : ℚ)) = some d ↔ d.ms = n := by
  rcases le_or_gt |n| (2 ^ 53) with h | h
  · rw [rnd_intCast h, newDate_intCast]
  · have hbig := two_pow_le_abs_rnd h
    have hnone : newDate (rnd (n : ℚ)) = none := by
      unfold newDate
      refine dif_neg fun hle => ?_
      have := hbig.trans hle
      norm_num [maxTimeValue] at this
    have hvalid := d.valid
    unfold maxTimeValue at hvalid
    rw [hnone]
    simp only [reduceCtorEq, false_iff]
    rintro hms
    rw [← hms] at h
    omega

end GameClub.Common
