import GameClub.Audit.Interceptors

/-! # The secrets an audit row keeps

`redact` goes through arrays, and replaces the secrets of the objects it meets there. It does not go
into the fields of these objects, so a secret under another key is recorded as it is.

* `secret_redact`: the secrets left are those whose first key is not one of a secret.
* `redacts_iff`: nothing is left exactly when every secret has such a key first; everything else of
  a value is always kept.
* `specs_recorded`: a computer whose specs have a password. -/

namespace GameClub.Audit

open GameClub.Common AuditService

/-! ### Secrets -/

/-- `Occurs v keys w`: one goes from `v` to the field value `w` by these keys, through any arrays. -/
inductive Occurs : JsValue → List String → JsValue → Prop
  | field {fields : List (String × JsValue)} {key : String} {w : JsValue} :
      (key, w) ∈ fields → Occurs (.object fields) [key] w
  | inside {fields : List (String × JsValue)} {key : String} {v w : JsValue}
      {keys : List String} :
      (key, v) ∈ fields → Occurs v keys w → Occurs (.object fields) (key :: keys) w
  | item {items : List JsValue} {v w : JsValue} {keys : List String} :
      v ∈ items → Occurs v keys w → Occurs (.array items) keys w

/-- A value other than `[REDACTED]` under the key of a secret, at any depth. -/
structure Secret (v : JsValue) (keys : List String) (w : JsValue) : Prop where
  occurs : Occurs v keys w
  key : ∃ key ∈ sensitive, keys.getLast? = some key
  plain : w ≠ .string "[REDACTED]"

/-- No secret is left. -/
def Clean (v : JsValue) : Prop := ∀ keys w, ¬ Secret v keys w

/-- One of the four keys comes first. -/
def SensitiveFirst (keys : List String) : Prop := ∃ key ∈ sensitive, keys.head? = some key

mutual

/-- The same value, except under the keys of secrets. -/
def SameElsewhere : JsValue → JsValue → Prop
  | .array items, w => ∃ items', w = .array items' ∧ SameItems items items'
  | .object fields, w => ∃ fields', w = .object fields' ∧ SameFields fields fields'
  | v, w => w = v

def SameItems : List JsValue → List JsValue → Prop
  | [], rest => rest = []
  | item :: items, rest =>
    ∃ item' items', rest = item' :: items' ∧ SameElsewhere item item' ∧ SameItems items items'

def SameFields : List (String × JsValue) → List (String × JsValue) → Prop
  | [], rest => rest = []
  | (key, v) :: fields, rest =>
    ∃ v' fields', rest = (key, v') :: fields' ∧ (key ∈ sensitive ∨ SameElsewhere v v') ∧
      SameFields fields fields'

end

/-! ### What stays the same -/

mutual

theorem SameElsewhere.refl : ∀ v, SameElsewhere v v
  | .array items => by
    rw [SameElsewhere]
    exact ⟨items, rfl, SameItems.refl items⟩
  | .object fields => by
    rw [SameElsewhere]
    exact ⟨fields, rfl, SameFields.refl fields⟩
  | .undefined | .null | .boolean _ | .number _ | .nan | .infinity _ | .string _ => by
    simp [SameElsewhere]

theorem SameItems.refl : ∀ items, SameItems items items
  | [] => by rw [SameItems]
  | item :: items => by
    rw [SameItems]
    exact ⟨item, items, rfl, SameElsewhere.refl item, SameItems.refl items⟩

theorem SameFields.refl : ∀ fields, SameFields fields fields
  | [] => by rw [SameFields]
  | (key, v) :: fields => by
    rw [SameFields]
    exact ⟨v, fields, rfl, Or.inr (SameElsewhere.refl v), SameFields.refl fields⟩

end

/-- What `redact` does with a field of an object. -/
def redactField (f : String × JsValue) : String × JsValue :=
  if f.1 ∈ sensitive then (f.1, .string "[REDACTED]") else f

theorem redact_object (fields : List (String × JsValue)) :
    redact (.object fields) = .object (fields.map redactField) := by
  rw [redact]
  rfl

theorem sameFields_redacted (fields : List (String × JsValue)) :
    SameFields fields (fields.map redactField) := by
  induction fields with
  | nil => rw [SameFields, List.map_nil]
  | cons f fields ih =>
    obtain ⟨key, v⟩ := f
    rw [SameFields, List.map_cons, redactField]
    split_ifs with hkey
    · exact ⟨_, _, rfl, Or.inl hkey, ih⟩
    · exact ⟨_, _, rfl, Or.inr (SameElsewhere.refl v), ih⟩

mutual

/-- **Everything that is no secret is kept.** -/
theorem sameElsewhere_redact : ∀ v, SameElsewhere v (redact v)
  | .array items => by
    rw [SameElsewhere, redact]
    exact ⟨redactAll items, rfl, sameItems_redactAll items⟩
  | .object fields => by
    rw [SameElsewhere, redact_object]
    exact ⟨_, rfl, sameFields_redacted fields⟩
  | .undefined | .null | .boolean _ | .number _ | .nan | .infinity _ | .string _ => by
    simp [SameElsewhere, redact]

theorem sameItems_redactAll : ∀ items, SameItems items (redactAll items)
  | [] => by rw [SameItems, redactAll]
  | item :: items => by
    rw [SameItems, redactAll]
    exact ⟨_, _, rfl, sameElsewhere_redact item, sameItems_redactAll items⟩

end

/-! ### The secrets left -/

/-- No field value is reached without a key. -/
theorem Occurs.keys_ne_nil {v w : JsValue} {keys : List String} (h : Occurs v keys w) :
    keys ≠ [] := by
  induction h with
  | field => exact List.cons_ne_nil _ _
  | inside => exact List.cons_ne_nil _ _
  | item _ _ ih => exact ih

/-- The secrets of an array are those of its items. -/
theorem secret_array {items : List JsValue} {keys : List String} {w : JsValue} :
    Secret (.array items) keys w ↔ ∃ v ∈ items, Secret v keys w := by
  constructor
  · rintro ⟨hoccurs, hkey, hplain⟩
    cases hoccurs with
    | item hmem h => exact ⟨_, hmem, h, hkey, hplain⟩
  · rintro ⟨v, hmem, h⟩
    exact ⟨.item hmem h.occurs, h.key, h.plain⟩

/-- A secret of an object is one of its fields, or lies inside one. -/
theorem secret_object {fields : List (String × JsValue)} {keys : List String} {w : JsValue} :
    Secret (.object fields) keys w ↔
      (∃ key ∈ sensitive, keys = [key] ∧ (key, w) ∈ fields ∧ w ≠ .string "[REDACTED]") ∨
        ∃ key v rest, keys = key :: rest ∧ (key, v) ∈ fields ∧ Secret v rest w := by
  constructor
  · rintro ⟨hoccurs, ⟨key, hsensitive, hlast⟩, hplain⟩
    cases hoccurs with
    | field hmem =>
      obtain rfl : _ = key := by simpa using hlast
      exact Or.inl ⟨_, hsensitive, rfl, hmem, hplain⟩
    | @inside _ first v _ rest hmem h =>
      refine Or.inr ⟨_, v, rest, rfl, hmem, h, ⟨key, hsensitive, ?_⟩, hplain⟩
      rwa [List.getLast?_cons_of_ne_nil h.keys_ne_nil] at hlast
  · rintro (⟨key, hsensitive, rfl, hmem, hplain⟩ | ⟨key, v, rest, rfl, hmem, h⟩)
    · exact ⟨.field hmem, ⟨key, hsensitive, rfl⟩, hplain⟩
    · obtain ⟨last, hsensitive, hlast⟩ := h.key
      exact ⟨.inside hmem h.occurs, ⟨last, hsensitive, by simp [List.getLast?_cons, hlast]⟩, h.plain⟩

/-- A field of the redacted object is one with another key, or has its value replaced. -/
theorem mem_redacted {fields : List (String × JsValue)} {key : String} {v : JsValue} :
    (key, v) ∈ fields.map redactField ↔
      (key ∉ sensitive ∧ (key, v) ∈ fields) ∨
        (key ∈ sensitive ∧ v = .string "[REDACTED]" ∧ ∃ old, (key, old) ∈ fields) := by
  simp only [List.mem_map, redactField]
  constructor
  · rintro ⟨⟨key', v'⟩, hmem, h⟩
    split_ifs at h with hkey
    · obtain ⟨rfl, rfl⟩ := Prod.mk.injEq .. ▸ h
      exact Or.inr ⟨hkey, rfl, v', hmem⟩
    · obtain ⟨rfl, rfl⟩ := Prod.mk.injEq .. ▸ h
      exact Or.inl ⟨hkey, hmem⟩
  · rintro (⟨hkey, hmem⟩ | ⟨hkey, rfl, old, hmem⟩)
    · exact ⟨_, hmem, if_neg hkey⟩
    · exact ⟨_, hmem, if_pos hkey⟩

/-- A text has no secrets. -/
theorem not_secret_string {s : String} {keys : List String} {w : JsValue} :
    ¬ Secret (.string s) keys w := by
  rintro ⟨hoccurs, -, -⟩
  cases hoccurs

/-- Of an object the secrets are left that lie inside a field with another key. -/
theorem secret_redact_object (fields : List (String × JsValue)) (keys : List String)
    (w : JsValue) :
    Secret (redact (.object fields)) keys w ↔
      Secret (.object fields) keys w ∧ ¬ SensitiveFirst keys := by
  rw [redact_object, secret_object, secret_object]
  constructor
  · rintro (⟨key, hsensitive, rfl, hmem, hplain⟩ | ⟨key, v, rest, rfl, hmem, h⟩)
    · -- a field of that key has its value replaced
      rcases mem_redacted.mp hmem with ⟨hkey, -⟩ | ⟨-, hw, -⟩
      · exact absurd hsensitive hkey
      · exact absurd hw hplain
    · rcases mem_redacted.mp hmem with ⟨hkey, hmem'⟩ | ⟨-, rfl, -⟩
      · refine ⟨Or.inr ⟨key, v, rest, rfl, hmem', h⟩, ?_⟩
        rintro ⟨first, hfirst, hhead⟩
        obtain rfl : key = first := by simpa using hhead
        exact hkey hfirst
      · exact absurd h not_secret_string
  · rintro ⟨⟨key, hsensitive, rfl, -, -⟩ | ⟨key, v, rest, rfl, hmem, h⟩, hfirst⟩
    · exact absurd ⟨key, hsensitive, rfl⟩ hfirst
    · have hkey : key ∉ sensitive := fun hkey => hfirst ⟨key, hkey, rfl⟩
      exact Or.inr ⟨key, v, rest, rfl, mem_redacted.mpr (Or.inl ⟨hkey, hmem⟩), h⟩

mutual

/-- **The secrets left are those whose first key is another one.** -/
theorem secret_redact : ∀ v keys w,
    Secret (redact v) keys w ↔ Secret v keys w ∧ ¬ SensitiveFirst keys
  | .array items, keys, w => by
    rw [redact, secret_array, secret_array]
    exact secret_redactAll items keys w
  | .object fields, keys, w => secret_redact_object fields keys w
  | .undefined, _, _ | .null, _, _ | .boolean _, _, _ | .number _, _, _ | .nan, _, _
  | .infinity _, _, _ | .string _, _, _ => by
    simp only [redact]
    exact ⟨fun h => (nomatch h.occurs), fun h => (nomatch h.1.occurs)⟩

theorem secret_redactAll : ∀ items keys w,
    (∃ v ∈ redactAll items, Secret v keys w) ↔
      (∃ v ∈ items, Secret v keys w) ∧ ¬ SensitiveFirst keys
  | [], keys, w => by simp [redactAll]
  | item :: items, keys, w => by
    simp only [redactAll, List.exists_mem_cons_iff, secret_redact item keys w,
      secret_redactAll items keys w]
    tauto

end

/-- **`redact` leaves no secret, and everything else, exactly when each secret has one of the four
keys first**: it lies in no field with another key. -/
theorem redacts_iff (v : JsValue) :
    (Clean (redact v) ∧ SameElsewhere v (redact v)) ↔
      ∀ keys w, Secret v keys w → SensitiveFirst keys := by
  constructor
  · rintro ⟨hclean, -⟩ keys w h
    by_contra hfirst
    exact hclean keys w ((secret_redact v keys w).mpr ⟨h, hfirst⟩)
  · intro h
    refine ⟨fun keys w hleft => ?_, sameElsewhere_redact v⟩
    obtain ⟨hsecret, hfirst⟩ := (secret_redact v keys w).mp hleft
    exact hfirst (h keys w hsecret)

/-! ### A computer with a password -/

def specs : JsValue := .object [("cpu", .string "i5"), ("password", .string "1234")]

/-- A body of `POST /computers`. -/
def passwordSpecs : JsValue :=
  .object [("label", .string "PC-01"), ("roomId", .string "3f0f4a52-5a2e-4a53-9d0f-0a53b2b1a001"),
    ("specs", specs)]

/-- The password of the specs reaches the audit row. -/
theorem specs_recorded :
    ¬ (∀ v, Clean (redact v) ∧ SameElsewhere v (redact v)) ∧
      Secret passwordSpecs ["specs", "password"] (.string "1234") ∧
      ∀ (req : Request) (result : JsValue), req.body = passwordSpecs →
        (row (AuditInterceptor.entry AuditedHandler.createComputer.metadata req result)).newValue =
          passwordSpecs := by
  have hsecret : Secret passwordSpecs ["specs", "password"] (.string "1234") := by
    have hfield : Occurs specs ["password"] (.string "1234") := .field (by simp)
    exact ⟨.inside (by simp) hfield, ⟨"password", by decide, rfl⟩, by simp⟩
  refine ⟨fun h => ?_, hsecret, fun req result hbody => ?_⟩
  · refine (h passwordSpecs).1 _ _ ((secret_redact _ _ _).mpr ⟨hsecret, ?_⟩)
    rintro ⟨key, hkey, hhead⟩
    obtain rfl : "specs" = key := by simpa using hhead
    exact absurd hkey (by decide)
  · simp only [row, AuditInterceptor.entry, hbody]
    rfl

end GameClub.Audit
