import Mathlib.Data.List.Infix
import Mathlib.Tactic

/-! # Patterns with wildcards

A pattern is read into tokens: two of its characters are wildcards, for any sequence and for any one
character, and an escape character makes the next character literal. A pattern that ends in an
escape is refused. Literal characters are compared by a relation, such as equality up to letter
case.

* `matchTokens_sequence`, `matchTokens_literals`: what a token matches, by the split points of the
  text.
* `tokens_escaped`: an escaped text is read as its characters.
* `matchTokens_contains`: between two wildcards it matches the texts it occurs in. -/

namespace GameClub.Lib.Like

variable {α : Type}

inductive Token (α : Type)
  | literal (c : α)
  | single
  | sequence
deriving DecidableEq

/-- The characters with a meaning. -/
structure Metacharacters (α : Type) where
  escape : α
  single : α
  sequence : α

/-! ### Matching -/

/-- **The tokens match the text**; a wildcard for a sequence is tried at every suffix. -/
def matchTokens (same : α → α → Bool) : List (Token α) → List α → Bool
  | [], text => text.isEmpty
  | .literal c :: tokens, text =>
    match text with
    | [] => false
    | x :: text => same x c && matchTokens same tokens text
  | .single :: tokens, text =>
    match text with
    | [] => false
    | _ :: text => matchTokens same tokens text
  | .sequence :: tokens, text => text.tails.any fun suffix => matchTokens same tokens suffix

/-- The text is `s` up to `same`. -/
def SameText (same : α → α → Bool) (text s : List α) : Prop :=
  List.Forall₂ (fun x c => same x c = true) text s

/-- **`s` occurs in the text**, up to `same`. -/
def OccursIn (same : α → α → Bool) (s text : List α) : Prop :=
  ∃ before found after, text = before ++ found ++ after ∧ SameText same found s

section

variable {same : α → α → Bool} {tokens : List (Token α)} {text s : List α}

/-- **Any sequence**, and what the other tokens match. -/
theorem matchTokens_sequence : matchTokens same (.sequence :: tokens) text = true ↔
    ∃ before after, text = before ++ after ∧ matchTokens same tokens after = true := by
  simp only [matchTokens, List.any_eq_true, List.mem_tails]
  constructor
  · rintro ⟨after, ⟨before, rfl⟩, h⟩
    exact ⟨before, after, rfl, h⟩
  · rintro ⟨before, after, rfl, h⟩
    exact ⟨after, List.suffix_append before after, h⟩

theorem matchTokens_literal {c : α} : matchTokens same (.literal c :: tokens) text = true ↔
    ∃ x after, text = x :: after ∧ same x c = true ∧ matchTokens same tokens after = true := by
  cases text with
  | nil => simp [matchTokens]
  | cons x text =>
    simp only [matchTokens, Bool.and_eq_true]
    constructor
    · rintro ⟨hsame, h⟩
      exact ⟨x, text, rfl, hsame, h⟩
    · rintro ⟨x', after, heq, hsame, h⟩
      cases heq
      exact ⟨hsame, h⟩

/-- **The characters of `s`**, and what the other tokens match; by induction on `s`. -/
theorem matchTokens_literals : matchTokens same (s.map .literal ++ tokens) text = true ↔
    ∃ found after, text = found ++ after ∧ SameText same found s ∧
      matchTokens same tokens after = true := by
  induction s generalizing text with
  | nil =>
    constructor
    · intro h
      exact ⟨[], text, rfl, .nil, h⟩
    · rintro ⟨found, after, rfl, hfound, h⟩
      cases hfound
      exact h
  | cons c s ih =>
    rw [List.map_cons, List.cons_append, matchTokens_literal]
    constructor
    · rintro ⟨x, rest, rfl, hsame, h⟩
      obtain ⟨found, after, rfl, hfound, h⟩ := ih.mp h
      exact ⟨x :: found, after, rfl, .cons hsame hfound, h⟩
    · rintro ⟨found, after, rfl, hfound, h⟩
      cases hfound with
      | cons hsame hfound =>
        exact ⟨_, _, rfl, hsame, ih.mpr ⟨_, after, rfl, hfound, h⟩⟩

/-- The empty sequence of tokens after a wildcard matches anything. -/
theorem matchTokens_end : matchTokens same [.sequence] text = true :=
  matchTokens_sequence.mpr ⟨text, [], by simp, rfl⟩

/-- **Between two wildcards** a text matches where it occurs. -/
theorem matchTokens_contains :
    matchTokens same (.sequence :: (s.map .literal ++ [.sequence])) text = true ↔
      OccursIn same s text := by
  rw [matchTokens_sequence]
  constructor
  · rintro ⟨before, rest, rfl, h⟩
    obtain ⟨found, after, rfl, hfound, -⟩ := matchTokens_literals.mp h
    exact ⟨before, found, after, by simp, hfound⟩
  · rintro ⟨before, found, after, rfl, hfound⟩
    exact ⟨before, found ++ after, by simp,
      matchTokens_literals.mpr ⟨found, after, rfl, hfound, matchTokens_end⟩⟩

end

/-! ### Reading a pattern -/

variable [DecidableEq α]

/-- The tokens of a pattern; `none` where it ends in an escape. -/
def tokens (m : Metacharacters α) : List α → Option (List (Token α))
  | [] => some []
  | c :: pattern =>
    if c = m.escape then
      match pattern with
      | [] => none
      | d :: pattern => (tokens m pattern).map (.literal d :: ·)
    else if c = m.sequence then (tokens m pattern).map (.sequence :: ·)
    else if c = m.single then (tokens m pattern).map (.single :: ·)
    else (tokens m pattern).map (.literal c :: ·)

/-- **The pattern matches the text**; `none` is the error of a dangling escape. -/
def like (m : Metacharacters α) (same : α → α → Bool) (text pattern : List α) : Option Bool :=
  (tokens m pattern).map fun ts => matchTokens same ts text

/-- Each metacharacter with an escape before it. -/
def escaped (m : Metacharacters α) (s : List α) : List α :=
  s.flatMap fun c =>
    if c = m.escape ∨ c = m.sequence ∨ c = m.single then [m.escape, c] else [c]

variable {m : Metacharacters α}

theorem tokens_escape (c : α) (pattern : List α) :
    tokens m (m.escape :: c :: pattern) = (tokens m pattern).map (.literal c :: ·) := by
  rw [tokens.eq_def]
  exact if_pos rfl

theorem tokens_plain {c : α} (hescape : c ≠ m.escape) (hsequence : c ≠ m.sequence)
    (hsingle : c ≠ m.single) (pattern : List α) :
    tokens m (c :: pattern) = (tokens m pattern).map (.literal c :: ·) := by
  rw [tokens.eq_def]
  exact (if_neg hescape).trans ((if_neg hsequence).trans (if_neg hsingle))

theorem tokens_sequence (h : m.sequence ≠ m.escape) (pattern : List α) :
    tokens m (m.sequence :: pattern) = (tokens m pattern).map (.sequence :: ·) := by
  rw [tokens.eq_def]
  exact (if_neg h).trans (if_pos rfl)

/-- **An escaped text is read as its characters**, whatever follows it. -/
theorem tokens_escaped (s pattern : List α) :
    tokens m (escaped m s ++ pattern) = (tokens m pattern).map (s.map .literal ++ ·) := by
  induction s with
  | nil => simp [escaped]
  | cons c s ih =>
    have hcons : escaped m (c :: s) = (if c = m.escape ∨ c = m.sequence ∨ c = m.single then
        [m.escape, c] else [c]) ++ escaped m s := List.flatMap_cons
    have hread : tokens m (escaped m (c :: s) ++ pattern) =
        (tokens m (escaped m s ++ pattern)).map (.literal c :: ·) := by
      rw [hcons]
      split_ifs with hmeta
      · exact tokens_escape c _
      · obtain ⟨hescape, hsequence, hsingle⟩ : c ≠ m.escape ∧ c ≠ m.sequence ∧ c ≠ m.single := by
          simpa [not_or] using hmeta
        exact tokens_plain hescape hsequence hsingle _
    rw [hread, ih, Option.map_map]
    rfl

/-- The escaped text between two wildcards. -/
theorem tokens_contains (h : m.sequence ≠ m.escape) (s : List α) :
    tokens m (m.sequence :: (escaped m s ++ [m.sequence])) =
      some (.sequence :: (s.map .literal ++ [.sequence])) := by
  rw [tokens_sequence h, tokens_escaped, tokens_sequence h]
  rfl

/-- **The search for an escaped text** is answered, by whether it occurs. -/
theorem like_contains (h : m.sequence ≠ m.escape) (same : α → α → Bool) (s text : List α) :
    ∃ found, like m same text (m.sequence :: (escaped m s ++ [m.sequence])) = some found ∧
      (found = true ↔ OccursIn same s text) := by
  unfold like
  rw [tokens_contains h]
  exact ⟨_, rfl, matchTokens_contains⟩

end GameClub.Lib.Like
