import GameClub.Lib.Like
import GameClub.Services.Listings

/-! # The customer search

A search term is escaped and put between two wildcards, and Postgres matches the pattern with
`ILIKE`. How it maps letters to lower case is a parameter.

* `like_escapeLike`, `search_literal`: a text matches exactly when the term occurs in it up to letter case.
* `mem_matching`: the customers that are listed. -/

namespace GameClub.Services

open GameClub.Lib GameClub.Common GameClub.Store

/-- A backslash makes the next character literal. -/
def likeMetacharacters : Like.Metacharacters Char where
  escape := '\\'
  single := '_'
  sequence := '%'

/-- `text ILIKE pattern`; `none` is the error of a pattern that ends in an escape. -/
def ilike (lower : Char → Char) (text pattern : String) : Option Bool :=
  Like.like likeMetacharacters (fun x c => lower x = lower c) text.toList pattern.toList

/-- **The term occurs in the text**, as a contiguous part up to letter case. -/
def ContainsTerm (lower : Char → Char) (text term : String) : Prop :=
  ∃ before found after : List Char, text.toList = before ++ found ++ after ∧
    found.map lower = term.toList.map lower

variable (lower : Char → Char)

theorem sameText_iff (found term : List Char) :
    Like.SameText (fun x c => decide (lower x = lower c)) found term ↔
      found.map lower = term.map lower := by
  unfold Like.SameText
  rw [← List.forall₂_eq_eq_eq, List.forall₂_map_left_iff, List.forall₂_map_right_iff]
  simp only [decide_eq_true_eq]

theorem occursIn_iff (text term : String) :
    Like.OccursIn (fun x c => decide (lower x = lower c)) term.toList text.toList ↔
      ContainsTerm lower text term := by
  unfold Like.OccursIn ContainsTerm
  simp only [sameText_iff]

/-- The term is escaped as the metacharacters of `ILIKE` need it. -/
theorem toList_escapeLike (s : String) :
    (CustomersService.escapeLike s).toList = Like.escaped likeMetacharacters s.toList := by
  unfold CustomersService.escapeLike Like.escaped
  rw [String.toList_ofList]
  refine congrArg (fun f => s.toList.flatMap f) (funext fun c => ?_)
  have hmeta : "\\%_".toList.contains c = true ↔ c = '\\' ∨ c = '%' ∨ c = '_' := by
    simp
  by_cases h : c = '\\' ∨ c = '%' ∨ c = '_'
  · rw [if_pos (hmeta.mpr h)]
    exact (if_pos h).symm
  · rw [if_neg (fun hc => h (hmeta.mp hc))]
    exact (if_neg h).symm

/-- The pattern of a term matches the texts it occurs in. -/
theorem like_escapeLike (s t : String) : ∃ found,
    Like.like likeMetacharacters (fun x c => decide (lower x = lower c)) t.toList
        ("%" ++ CustomersService.escapeLike s ++ "%").toList = some found ∧
      (found = true ↔ Like.OccursIn (fun x c => decide (lower x = lower c)) s.toList t.toList) := by
  have hpattern : ("%" ++ CustomersService.escapeLike s ++ "%").toList =
      '%' :: (Like.escaped likeMetacharacters s.toList ++ ['%']) := by
    simp [toList_escapeLike]
  rw [hpattern]
  exact Like.like_contains (by decide) _ s.toList t.toList

/-- **A search term is taken literally**: its pattern is well formed, and a text matches it exactly
when the term occurs in the text up to letter case. -/
theorem search_literal (s t : String) : ∃ found,
    ilike lower t ("%" ++ CustomersService.escapeLike s ++ "%") = some found ∧
      (found = true ↔ ContainsTerm lower t s) := by
  rw [← occursIn_iff]
  exact like_escapeLike lower s t

example : Like.like likeMetacharacters (fun x c => x.toLower = c.toLower) "100 SUM".toList
    ('%' :: (Like.escaped likeMetacharacters "0% s".toList ++ ['%'])) = some false := by decide

/-! ### The listing -/

/-- The pattern of a search that is not empty. -/
theorem pattern_some {s : String} (h : s ≠ "") : CustomersService.pattern (some s) =
    some ("%" ++ CustomersService.escapeLike s ++ "%") := by
  have hne : CustomersService.escapeLike s ≠ "" := by
    intro hempty
    have hlist := toList_escapeLike s
    rw [hempty] at hlist
    obtain ⟨c, cs, hs⟩ := List.exists_cons_of_ne_nil fun hnil => h (String.toList_eq_nil_iff.mp hnil)
    rw [hs, Like.escaped, List.flatMap_cons] at hlist
    split_ifs at hlist <;> cases hlist
  unfold CustomersService.pattern
  simp [Option.filter, h, hne]

/-- **The customers of a search**: those whose name or phone the term occurs in. -/
theorem mem_matching {sql : Sql} (hsql : sql.ilike = fun text p => (ilike lower text p).getD false)
    {db : Db} {s : String} (h : s ≠ "") {c : Customer} :
    c ∈ CustomersService.matching sql db (some s) ↔ c ∈ db.customers.rows ∧ c.deletedAt = none ∧
      (ContainsTerm lower c.fullName s ∨ ∃ phone, c.phone = some phone ∧
        ContainsTerm lower phone s) := by
  have hmatch : ∀ text, sql.ilike text ("%" ++ CustomersService.escapeLike s ++ "%") = true ↔
      ContainsTerm lower text s := by
    intro text
    obtain ⟨found, hfound, hiff⟩ := like_escapeLike lower s text
    rw [hsql, ← occursIn_iff]
    dsimp only [ilike]
    rw [hfound]
    exact hiff
  simp [CustomersService.matching, pattern_some h, hmatch, Option.any_eq_true]

end GameClub.Services
