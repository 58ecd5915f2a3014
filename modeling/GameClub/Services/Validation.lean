import GameClub.Audit.Interceptors

/-! # The validation pipe

The global pipe makes an instance of the class of a body, and goes into the objects of a field that
has no type of its own: it makes a new object of each, without the fields whose names are dangerous or
name a member of `Object.prototype`. What it leaves out, it leaves out without an error.

* `transform_eq_iff`: a value comes through the pipe as it is exactly when none of its objects has
  such a field.
* `sizeOf_transform_le`: the pipe makes no value larger. -/

namespace GameClub.Services.ValidationPipe

open GameClub.Common
open GameClub.Audit (JsValue)

/-- The members of `Object.prototype`. -/
def objectPrototype : List String :=
  ["constructor", "__defineGetter__", "__defineSetter__", "hasOwnProperty", "__lookupGetter__",
    "__lookupSetter__", "isPrototypeOf", "propertyIsEnumerable", "toString", "valueOf", "__proto__",
    "toLocaleString"]

/-- The fields that are left out: `stripProtoKeys` deletes three of them, and `plainToInstance` takes
no field that a new object has already. -/
def leftOut : List String := "prototype" :: objectPrototype

mutual

/-- `transform` of a JSON value whose field has no type. -/
def transform : JsValue → JsValue
  | .array items => .array (transformItems items)
  | .object fields => .object (transformFields fields)
  | v => v

def transformItems : List JsValue → List JsValue
  | [] => []
  | item :: items => transform item :: transformItems items

def transformFields : List (String × JsValue) → List (String × JsValue)
  | [] => []
  | (key, v) :: fields =>
    if key ∈ leftOut then transformFields fields else (key, transform v) :: transformFields fields

end

mutual

/-- No object in the value has a field that is left out. -/
def intact : JsValue → Bool
  | .array items => intactItems items
  | .object fields => intactFields fields
  | _ => true

def intactItems : List JsValue → Bool
  | [] => true
  | item :: items => intact item && intactItems items

def intactFields : List (String × JsValue) → Bool
  | [] => true
  | (key, v) :: fields => decide (key ∉ leftOut) && intact v && intactFields fields

end

/-! ### What comes through -/

theorem length_transformFields_le (fields : List (String × JsValue)) :
    (transformFields fields).length ≤ fields.length := by
  induction fields with
  | nil => rw [transformFields]
  | cons f fields ih =>
    obtain ⟨key, v⟩ := f
    rw [transformFields, List.length_cons]
    split_ifs
    · exact ih.trans (Nat.le_succ _)
    · exact Nat.succ_le_succ ih

mutual

/-- **What comes through the pipe as it is.** -/
theorem transform_eq_iff : ∀ v, transform v = v ↔ intact v = true
  | .array items => by
    rw [transform, intact, ← transformItems_eq_iff items]
    exact ⟨fun h => JsValue.array.inj h, congrArg JsValue.array⟩
  | .object fields => by
    rw [transform, intact, ← transformFields_eq_iff fields]
    exact ⟨fun h => JsValue.object.inj h, congrArg JsValue.object⟩
  | .undefined | .null | .boolean _ | .number _ | .nan | .infinity _ | .string _ => by
    simp [transform, intact]

theorem transformItems_eq_iff : ∀ items, transformItems items = items ↔ intactItems items = true
  | [] => by simp [transformItems, intactItems]
  | item :: items => by
    rw [transformItems, intactItems, List.cons.injEq, transform_eq_iff item,
      transformItems_eq_iff items, Bool.and_eq_true]

theorem transformFields_eq_iff : ∀ fields,
    transformFields fields = fields ↔ intactFields fields = true
  | [] => by simp [transformFields, intactFields]
  | (key, v) :: fields => by
    rw [transformFields, intactFields]
    by_cases hkey : key ∈ leftOut
    · -- a field is missing, so the list is shorter
      have hshorter : transformFields fields ≠ (key, v) :: fields := by
        intro heq
        have hle := length_transformFields_le fields
        rw [heq, List.length_cons] at hle
        omega
      simp [hkey, hshorter]
    · rw [if_neg hkey, List.cons.injEq, Prod.mk.injEq, transform_eq_iff v,
        transformFields_eq_iff fields]
      simp [hkey]

end

example : transform (.object [("constructor", .number 1), ("b", .number 2)]) =
    .object [("b", .number 2)] := by
  simp [transform, transformFields, leftOut, objectPrototype]

mutual

/-- **The pipe makes no value larger.** -/
theorem sizeOf_transform_le : ∀ v, sizeOf (transform v) ≤ sizeOf v
  | .array items => by
    have hitems := sizeOf_transformItems_le items
    simp only [transform, JsValue.array.sizeOf_spec]
    omega
  | .object fields => by
    have hfields := sizeOf_transformFields_le fields
    simp only [transform, JsValue.object.sizeOf_spec]
    omega
  | .undefined | .null | .boolean _ | .number _ | .nan | .infinity _ | .string _ => by
    simp [transform]

theorem sizeOf_transformItems_le : ∀ items, sizeOf (transformItems items) ≤ sizeOf items
  | [] => by simp [transformItems]
  | item :: items => by
    have hitem := sizeOf_transform_le item
    have hitems := sizeOf_transformItems_le items
    simp only [transformItems, List.cons.sizeOf_spec]
    omega

theorem sizeOf_transformFields_le : ∀ fields, sizeOf (transformFields fields) ≤ sizeOf fields
  | [] => by simp [transformFields]
  | (key, v) :: fields => by
    have hv := sizeOf_transform_le v
    have hfields := sizeOf_transformFields_le fields
    rw [transformFields]
    split_ifs
    · simp only [List.cons.sizeOf_spec]
      omega
    · simp only [List.cons.sizeOf_spec, Prod.mk.sizeOf_spec]
      omega

end

/-- A value that is there and not `null` is still so after the pipe. -/
theorem transform_defined {v : JsValue} (hundefined : v ≠ .undefined) (hnull : v ≠ .null) :
    transform v ≠ .undefined ∧ transform v ≠ .null := by
  cases v <;> simp_all [transform]

end GameClub.Services.ValidationPipe
