import GameClub.Common.Exceptions

/-! # Patches

The fields of a body that updates an entity, and the columns that cannot be null. -/

namespace GameClub.Common

/-- A field of a body: absent, `null`, or a value. -/
abbrev Patch (α : Type) := Option (Option α)

/-- A column that cannot be null. -/
def notNull {α : Type} (column : String) : Option α → Except Thrown α
  | none => .error (.database (.notNullViolation column))
  | some a => .ok a

/-- A column that cannot be null, of an entity whose property may be undefined. -/
def notNullColumn {α : Type} (column : String) (property : Patch α) (stored : α) :
    Except Thrown α := notNull column (property.getD (some stored))

theorem notNull_ok {α : Type} {column : String} {x : Option α} {a : α} :
    notNull column x = .ok a ↔ x = some a := by
  cases x <;> simp [notNull]

theorem notNullColumn_ok {α : Type} {column : String} {property : Patch α} {stored a : α} :
    notNullColumn column property stored = .ok a ↔ property.getD (some stored) = some a :=
  notNull_ok

end GameClub.Common
