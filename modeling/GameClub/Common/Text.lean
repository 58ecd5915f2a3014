import GameClub.Common.Values
import Mathlib.Data.List.TakeWhile

/-! # Numbers and characters in texts

`parseInt` reads the digits at the beginning of a text. `decodeURIComponent` reads the octets of a
character in UTF-8 from `%XX` escapes, and every other character as itself.

* `parseInt_digits`: the digits of a text that is nothing else.
* `decodeURIComponent_suffix`: what follows a character that stands for itself is decoded alone. -/

namespace GameClub.Common

open GameClub.Lib.Binary64

/-- White space and line ends. -/
def isSpace (c : Char) : Bool :=
  c.toNat ∈ [9, 10, 11, 12, 13, 32, 160, 5760, 8232, 8233, 8239, 8287, 12288, 65279] ||
    (8192 ≤ c.toNat && c.toNat ≤ 8202)

/-! ### parseInt -/

/-- The digits at the beginning; `none` is `NaN`. -/
def leadingInt (cs : List Char) : Option ℚ :=
  let digits := cs.takeWhile Char.isDigit
  if digits = [] then none else some (rnd (Nat.ofDigitChars 10 digits 0 : ℕ))

/-- `parseInt(text, 10)` -/
def parseInt (text : List Char) : Option ℚ :=
  match text.dropWhile isSpace with
  | '-' :: cs => (leadingInt cs).map fun x => -x
  | '+' :: cs => leadingInt cs
  | cs => leadingInt cs

theorem isSpace_digit {c : Char} (h : c.isDigit = true) : isSpace c = false := by
  have hbounds : 48 ≤ c.toNat ∧ c.toNat ≤ 57 := by
    simp only [Char.isDigit, Bool.and_eq_true, decide_eq_true_eq] at h
    exact ⟨UInt32.le_iff_toNat_le.mp h.1, UInt32.le_iff_toNat_le.mp h.2⟩
  unfold isSpace
  simp only [List.mem_cons, List.not_mem_nil, or_false, Bool.or_eq_false_iff, Bool.and_eq_false_iff,
    decide_eq_false_iff_not]
  omega

theorem leadingInt_digits {ds : List Char} (hne : ds ≠ []) (h : ∀ c ∈ ds, c.isDigit = true) :
    leadingInt ds = some (rnd (Nat.ofDigitChars 10 ds 0 : ℕ)) := by
  have hall : ds.takeWhile Char.isDigit = ds := List.takeWhile_eq_self_iff.mpr h
  unfold leadingInt
  rw [hall]
  exact if_neg hne

/-- **Digits are read whole.** -/
theorem parseInt_digits {ds : List Char} (hne : ds ≠ []) (h : ∀ c ∈ ds, c.isDigit = true) :
    parseInt ds = some (rnd (Nat.ofDigitChars 10 ds 0 : ℕ)) := by
  obtain ⟨c, cs, rfl⟩ := List.exists_cons_of_ne_nil hne
  have hc : c.isDigit = true := h c (by simp)
  have hdrop : (c :: cs).dropWhile isSpace = c :: cs := by
    rw [List.dropWhile_cons, isSpace_digit hc]
    rfl
  unfold parseInt
  rw [hdrop]
  split
  · next heq =>
    cases heq
    exact absurd hc (by decide)
  · next heq =>
    cases heq
    exact absurd hc (by decide)
  · exact leadingInt_digits hne h

/-- And digits after a minus sign. -/
theorem parseInt_minus {ds : List Char} (hne : ds ≠ []) (h : ∀ c ∈ ds, c.isDigit = true) :
    parseInt ('-' :: ds) = some (-rnd (Nat.ofDigitChars 10 ds 0 : ℕ)) := by
  have hdrop : ('-' :: ds).dropWhile isSpace = '-' :: ds := by
    rw [List.dropWhile_cons, show isSpace '-' = false from by decide]
    rfl
  unfold parseInt
  rw [hdrop]
  simp only [leadingInt_digits hne h, Option.map_some]

/-! ### decodeURIComponent -/

/-- What a text is made of: characters that stand for themselves, and escaped octets. -/
def uriUnits : List Char → Option (List (Char ⊕ ℕ))
  | [] => some []
  | '%' :: a :: b :: cs =>
    match hexValue a, hexValue b with
    | some x, some y => (uriUnits cs).map (.inr (x * 16 + y) :: ·)
    | _, _ => none
  | '%' :: _ => none
  | c :: cs => (uriUnits cs).map (.inl c :: ·)

/-- A character some octets of which have been read: the bits so far, how many octets are left, and
the least code point that needs as many. -/
structure Pending where
  bits : ℕ
  left : ℕ
  least : ℕ

/-- The first octet of a character of several. -/
def leadOctet (octet : ℕ) : Option Pending :=
  if octet < 0xC0 then none
  else if octet < 0xE0 then some ⟨octet - 0xC0, 1, 0x80⟩
  else if octet < 0xF0 then some ⟨octet - 0xE0, 2, 0x800⟩
  else if octet < 0xF8 then some ⟨octet - 0xF0, 3, 0x10000⟩
  else none

/-- The characters, given one that is not complete. -/
def uriChars : Option Pending → List (Char ⊕ ℕ) → Option (List Char)
  | none, [] => some []
  | none, .inl c :: us => (uriChars none us).map (c :: ·)
  | none, .inr octet :: us =>
    if octet < 0x80 then (uriChars none us).map (Char.ofNat octet :: ·)
    else
      match leadOctet octet with
      | none => none
      | some p => uriChars (some p) us
  | some p, .inr octet :: us =>
    if octet / 64 ≠ 2 then none
    else
      let bits := p.bits * 64 + octet % 64
      if p.left ≠ 1 then uriChars (some ⟨bits, p.left - 1, p.least⟩) us
      else if p.least ≤ bits ∧ bits.isValidChar then
        (uriChars none us).map (Char.ofNat bits :: ·)
      else none
  | some _, _ => none

/-- `decodeURIComponent`; `none` is an `URIError`. -/
def decodeURIComponent (text : List Char) : Option (List Char) :=
  (uriUnits text).bind (uriChars none)

/-- A character that stands for itself ends no escape. -/
theorem uriUnits_append {c : Char} (hc : c ≠ '%') (hx : hexValue c = none) (before after : List Char)
    {us : List (Char ⊕ ℕ)} (h : uriUnits (before ++ c :: after) = some us) :
    ∃ us₁ us₂, uriUnits after = some us₂ ∧ us = us₁ ++ .inl c :: us₂ := by
  induction before using uriUnits.induct generalizing us with
  | case1 =>
    rw [List.nil_append, uriUnits] at h
    · obtain ⟨us₂, hafter, rfl⟩ := Option.map_eq_some_iff.mp h
      exact ⟨[], us₂, hafter, rfl⟩
    · exact fun _ _ _ heq _ => hc heq
    · exact hc
  | case2 a b cs x y hx' hy' ih =>
    rw [List.cons_append, List.cons_append, List.cons_append, uriUnits, hx', hy'] at h
    obtain ⟨rest, hrest, rfl⟩ := Option.map_eq_some_iff.mp h
    obtain ⟨us₁, us₂, hafter, rfl⟩ := ih hrest
    exact ⟨.inr (x * 16 + y) :: us₁, us₂, hafter, rfl⟩
  | case3 a b cs hno =>
    rw [List.cons_append, List.cons_append, List.cons_append, uriUnits] at h
    split at h
    · next x y hx' hy' => exact absurd hy' (hno x y hx')
    · cases h
  | case4 cs hshort =>
    -- the character is one of the two that an escape needs
    rcases cs with _ | ⟨a, _ | ⟨b, cs⟩⟩
    · rcases after with _ | ⟨b, after⟩
      · simp [uriUnits] at h
      · simp [uriUnits, hx] at h
    · simp [uriUnits, hx] at h
    · exact absurd rfl (hshort a b cs)
  | case5 d cs hescape hpercent ih =>
    rw [List.cons_append, uriUnits] at h
    · obtain ⟨rest, hrest, rfl⟩ := Option.map_eq_some_iff.mp h
      obtain ⟨us₁, us₂, hafter, rfl⟩ := ih hrest
      exact ⟨.inl d :: us₁, us₂, hafter, rfl⟩
    · exact fun _ _ _ heq _ => hpercent heq
    · exact hpercent

/-- It is in the middle of no character either. -/
theorem uriChars_append {c : Char} (us₁ us₂ : List (Char ⊕ ℕ)) (p : Option Pending)
    {text : List Char} (h : uriChars p (us₁ ++ .inl c :: us₂) = some text) :
    ∃ text', uriChars none us₂ = some text' := by
  induction us₁ generalizing p text with
  | nil =>
    cases p with
    | none =>
      obtain ⟨text', htext, -⟩ := Option.map_eq_some_iff.mp h
      exact ⟨text', htext⟩
    | some p => cases h
  | cons u us₁ ih =>
    rcases p with _ | p <;> rcases u with d | octet
    · obtain ⟨text', htext, -⟩ := Option.map_eq_some_iff.mp h
      exact ih none htext
    · rw [List.cons_append, uriChars] at h
      split at h
      · obtain ⟨text', htext, -⟩ := Option.map_eq_some_iff.mp h
        exact ih none htext
      · split at h
        · cases h
        · exact ih _ h
    · cases h
    · rw [List.cons_append, uriChars] at h
      dsimp only at h
      split_ifs at h
      · exact ih _ h
      · obtain ⟨text', htext, -⟩ := Option.map_eq_some_iff.mp h
        exact ih none htext

/-- **What follows a character that stands for itself is decoded alone.** -/
theorem decodeURIComponent_suffix {c : Char} (hc : c ≠ '%') (hx : hexValue c = none)
    {before after text : List Char} (h : decodeURIComponent (before ++ c :: after) = some text) :
    ∃ text', decodeURIComponent after = some text' := by
  obtain ⟨us, hunits, hchars⟩ := Option.bind_eq_some_iff.mp h
  obtain ⟨us₁, us₂, hafter, rfl⟩ := uriUnits_append hc hx before after hunits
  obtain ⟨text', htext⟩ := uriChars_append us₁ us₂ none hchars
  exact ⟨text', Option.bind_eq_some_iff.mpr ⟨us₂, hafter, htext⟩⟩

example : decodeURIComponent "caf%C3%A9%20%E2%82%ac".toList = some "café €".toList := by decide

example : decodeURIComponent "%C3".toList = none := by decide

end GameClub.Common
