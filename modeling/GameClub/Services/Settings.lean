import GameClub.Lib.Fields
import GameClub.Lib.Table
import GameClub.Services.Validation

/-! # Settings

The settings are rows of a key and a value. `getAll` assigns them to an object that has the defaults,
and the response interceptor looks for `data` in that object; `get` reads one row, or the defaults.
A key is any text, so it may be `data`, or the name of a member of `Object.prototype`. A value is any
JSON value, and the validation pipe leaves some fields of its objects out.

* `stored_get?`: a row has what the pipe makes of the value last written.
* `getAll_lookup`, `getAll_proto`: the object, whatever the order of the rows.
* `settings_roundTrip_iff`: the response and `get` agree with what was written exactly when neither
  `data` nor `__proto__` was, the last values come through the pipe, and no member of
  `Object.prototype` is read for a key.
* `data_unwrapped`: a setting with the key `data`. -/

namespace GameClub.Services.Settings

open GameClub.Lib GameClub.Common
open GameClub.Audit (JsValue)
open GameClub.Services.ValidationPipe

/-! ### Requests -/

mutual

/-- The values of JSON. -/
def isJson : JsValue → Bool
  | .undefined | .nan | .infinity _ => false
  | .null | .boolean _ | .number _ | .string _ => true
  | .array items => allJson items
  | .object fields => fieldsJson fields

def allJson : List JsValue → Bool
  | [] => true
  | item :: items => isJson item && allJson items

def fieldsJson : List (String × JsValue) → Bool
  | [] => true
  | (key, value) :: fields =>
    isJson value && (fields.map Prod.fst).all (· ≠ key) && fieldsJson fields

end

/-- A valid body of `PUT /settings`, as it is sent. -/
structure UpdateSettingDto where
  key : String
  value : JsValue
  key_le : key.length ≤ 80
  value_json : isJson value = true
  value_defined : value ≠ .null

/-- A row of `settings`. -/
structure Setting where
  key : String
  value : JsValue
  updatedBy : Option Uuid

/-- A `PUT /settings` request of an owner. -/
structure PutSetting where
  dto : UpdateSettingDto
  sub : Uuid

/-! ### Objects -/

/-- An object in memory: its own fields, and its prototype where that is not `Object.prototype`. -/
structure JsObject where
  own : List (String × JsValue)
  proto : Option JsValue

/-- `{ ...fields }` -/
def JsObject.spread (fields : List (String × JsValue)) : JsObject := ⟨fields, none⟩

/-- `object[key] = value`. The setter of `__proto__` takes objects and `null`. -/
def JsObject.assign (object : JsObject) (key : String) (value : JsValue) : JsObject :=
  if key = "__proto__" then
    match value with
    | .null | .array _ | .object _ => { object with proto := some value }
    | _ => object
  else { object with own := Fields.assign key value object.own }

/-- `object[key]` of an object with `key in object`; no key that is read is `Object.prototype`'s. -/
def JsObject.property? (object : JsObject) (key : String) : Option JsValue :=
  (object.own.lookup key).or (object.proto.bind (JsValue.property? key))

/-- What reading a property gives: a value, or a member of `Object.prototype`. -/
inductive PropertyRead
  | value (v : JsValue)
  | member (name : String)

/-! ### SettingsService -/

namespace SettingsService

def DEFAULTS : List (String × JsValue) :=
  [("club.name", .string "Game Club"), ("club.currency", .string "UZS"),
    ("session.lateGraceSeconds", .number 0)]

def getAll (rows : List Setting) : JsObject :=
  rows.foldl (fun merged row => merged.assign row.key row.value) (.spread DEFAULTS)

/-- `DEFAULTS[key]` -/
def default (key : String) : PropertyRead :=
  match DEFAULTS.lookup key with
  | some value => .value value
  | none => if key ∈ objectPrototype then .member key else .value .undefined

/-- `get`: a value that is null or undefined is not one. -/
def get (key : String) (settings : Table Setting.key) : PropertyRead :=
  match (settings.get? key).map Setting.value with
  | none | some .undefined | some .null => default key
  | some value => .value value

def set (key : String) (value : JsValue) (updatedBy : Uuid) (settings : Table Setting.key) :
    Setting × Table Setting.key :=
  match settings.get? key with
  | some existing =>
    let saved := { existing with value, updatedBy := some updatedBy }
    (saved, settings.set saved)
  | none =>
    let saved := ⟨key, value, some updatedBy⟩
    (saved, settings.insert saved)

end SettingsService

/-- `PUT /settings`, with what the pipe makes of the body. -/
def PutSetting.handle (p : PutSetting) (settings : Table Setting.key) : Table Setting.key :=
  (SettingsService.set p.dto.key (transform p.dto.value) p.sub settings).2

/-- The table after the requests, from an empty one. -/
def stored (puts : List PutSetting) : Table Setting.key :=
  puts.foldl (fun settings p => p.handle settings) .empty

/-- The rows a `find` returns, in any order. -/
def Found (settings : Table Setting.key) : Type := { rows : List Setting // rows.Perm settings.rows }

/-! ### The response -/

/-- The success envelope of an object in memory. -/
def envelope (req : Audit.Request) (now : Instant) (payload : JsObject) : JsValue :=
  let isEnvelope := (payload.property? "data").isSome
  let data := if isEnvelope then (payload.property? "data").getD .undefined
    else .object payload.own
  let info := if isEnvelope then (payload.property? "meta").getD .undefined else .undefined
  .object ([("success", .boolean true), ("data", data)] ++
    (if info.truthy then [("meta", info)] else []) ++
    [("requestId", .string (Audit.getRequestId req)), ("timestamp", .string now.toISOString)])

/-- An object with `Object.prototype` is wrapped as the interceptor wraps a plain payload. -/
theorem envelope_plain (req : Audit.Request) (now : Instant) (fields : List (String × JsValue)) :
    envelope req now (.spread fields) =
      Audit.ResponseInterceptor.envelope req now (.object fields) := by
  have hread : ∀ key, (JsObject.spread fields).property? key =
      (JsValue.object fields).property? key := by
    intro key
    simp [JsObject.property?, JsObject.spread, JsValue.property?]
  simp only [envelope, Audit.ResponseInterceptor.envelope, hread, JsValue.isObject, Bool.true_and]
  rfl

/-- The response to `GET /settings`. -/
def response {settings : Table Setting.key} (req : Audit.Request) (now : Instant)
    (found : Found settings) : JsValue :=
  envelope req now (SettingsService.getAll found.val)

/-! ### What was written -/

/-- The value last written for a key. -/
def written (puts : List PutSetting) (key : String) : Option JsValue :=
  (puts.reverse.find? fun p => p.dto.key = key).map fun p => p.dto.value

/-- **Each written key has its last value, each other default key its default, and nothing else.** -/
def settingsOf (puts : List PutSetting) (key : String) : Option JsValue :=
  (written puts key).or (SettingsService.DEFAULTS.lookup key)

/-- The value is an object with exactly the fields of `map`. -/
def IsMap (value : JsValue) (map : String → Option JsValue) : Prop :=
  ∃ fields, value = .object fields ∧ (fields.map Prod.fst).Nodup ∧ ∀ key, fields.lookup key = map key

/-! ### The rows -/

/-- **Lookup after a set.** -/
theorem set_get? (key : String) (value : JsValue) (updatedBy : Uuid)
    (settings : Table Setting.key) (k : String) :
    ((SettingsService.set key value updatedBy settings).2.get? k).map Setting.value =
      if k = key then some value else (settings.get? k).map Setting.value := by
  unfold SettingsService.set
  cases hexisting : settings.get? key with
  | none =>
    dsimp only
    rw [Table.get?_insert]
    split_ifs with hk
    · subst hk
      rw [hexisting]
      rfl
    · rfl
  | some existing =>
    have hkey : existing.key = key := Table.key_of_get? hexisting
    dsimp only
    rw [Table.get?_set]
    dsimp only
    rw [hkey]
    split_ifs with hk
    · subst hk
      rw [hexisting]
      rfl
    · rfl

theorem written_concat (puts : List PutSetting) (p : PutSetting) (key : String) :
    written (puts ++ [p]) key = if key = p.dto.key then some p.dto.value else written puts key := by
  unfold written
  rw [List.reverse_append, List.reverse_singleton, List.singleton_append, List.find?_cons]
  by_cases hkey : key = p.dto.key
  · simp [hkey]
  · simp [hkey, Ne.symm hkey]

/-- **A row has what the pipe makes of the value last written**; by induction on the last request. -/
theorem stored_get? (puts : List PutSetting) (key : String) :
    ((stored puts).get? key).map Setting.value = (written puts key).map transform := by
  induction puts using List.reverseRecOn with
  | nil => rfl
  | append_singleton puts p ih =>
    have hlast : stored (puts ++ [p]) = p.handle (stored puts) := by
      simp [stored, List.foldl_append]
    rw [hlast, PutSetting.handle, set_get?, ih, written_concat]
    split_ifs <;> rfl

/-- What was written is the value of a request. -/
theorem written_some {puts : List PutSetting} {key : String} {v : JsValue}
    (h : written puts key = some v) : ∃ p ∈ puts, p.dto.key = key ∧ p.dto.value = v := by
  obtain ⟨p, hfind, hv⟩ := Option.map_eq_some_iff.mp h
  exact ⟨p, List.mem_reverse.mp (List.mem_of_find?_eq_some hfind),
    by simpa using List.find?_some hfind, hv⟩

theorem written_none {puts : List PutSetting} {key : String} :
    written puts key = none ↔ ∀ p ∈ puts, p.dto.key ≠ key := by
  simp [written, List.find?_eq_none]

/-- **`get` reads what was written, or the defaults.** -/
theorem get_stored (puts : List PutSetting) (key : String) :
    SettingsService.get key (stored puts) =
      ((written puts key).map fun v => PropertyRead.value (transform v)).getD
        (SettingsService.default key) := by
  unfold SettingsService.get
  rw [stored_get?]
  cases hwritten : written puts key with
  | none => rfl
  | some v =>
    obtain ⟨p, -, -, hv⟩ := written_some hwritten
    have hjson : v ≠ .undefined := by
      rintro rfl
      have hundefined := p.dto.value_json
      rw [hv] at hundefined
      simp [isJson] at hundefined
    obtain ⟨hundefined, hnull⟩ := transform_defined hjson (hv ▸ p.dto.value_defined)
    simp only [Option.map_some, Option.getD_some]

/-! ### The merged object -/

/-- The rows with another key than `__proto__`, as fields. -/
def fieldsOf (rows : List Setting) : List (String × JsValue) :=
  (rows.filter fun r => r.key ≠ "__proto__").map fun r => (r.key, r.value)

/-- The own fields after rows are assigned. -/
theorem foldl_own (rows : List Setting) (object : JsObject) :
    (rows.foldl (fun merged row => merged.assign row.key row.value) object).own =
      Fields.assignAll (fieldsOf rows) object.own := by
  induction rows generalizing object with
  | nil => rfl
  | cons r rows ih =>
    rw [List.foldl_cons, ih]
    unfold fieldsOf JsObject.assign
    by_cases hproto : r.key = "__proto__"
    · simp only [hproto, if_true, List.filter_cons]
      cases r.value <;> rfl
    · simp [hproto, Fields.assignAll]

/-- The prototype is the value of a row with the key `__proto__`, if it is not as it was. -/
theorem foldl_proto (rows : List Setting) (object : JsObject) :
    (rows.foldl (fun merged row => merged.assign row.key row.value) object).proto = object.proto ∨
      ∃ r ∈ rows, r.key = "__proto__" ∧
        (rows.foldl (fun merged row => merged.assign row.key row.value) object).proto =
          some r.value := by
  induction rows generalizing object with
  | nil => exact Or.inl rfl
  | cons r rows ih =>
    rw [List.foldl_cons]
    rcases ih (object.assign r.key r.value) with hsame | ⟨s, hs, hkey, hproto⟩
    · rw [hsame]
      unfold JsObject.assign
      split_ifs with hkey
      · split
        · exact Or.inr ⟨r, List.mem_cons_self .., hkey, by simp [*]⟩
        · exact Or.inr ⟨r, List.mem_cons_self .., hkey, by simp [*]⟩
        · exact Or.inr ⟨r, List.mem_cons_self .., hkey, by simp [*]⟩
        · exact Or.inl rfl
      · exact Or.inl rfl
    · exact Or.inr ⟨s, List.mem_cons_of_mem _ hs, hkey, hproto⟩

/-- A field of rows. -/
theorem fieldsOf_lookup (rows : List Setting) (k : String) :
    (fieldsOf rows).lookup k = if k = "__proto__" then none
      else (rows.find? fun r => r.key = k).map Setting.value := by
  induction rows with
  | nil => simp [fieldsOf]
  | cons r rows ih =>
    unfold fieldsOf at ih ⊢
    rw [List.find?_cons]
    by_cases hproto : r.key = "__proto__"
    · by_cases hk : k = "__proto__"
      · simpa [hproto, hk] using ih
      · simpa [hproto, hk, Ne.symm hk] using ih
    · by_cases hk : k = r.key
      · subst hk
        simp [hproto]
      · have hne : (k == r.key) = false := beq_eq_false_iff_ne.mpr hk
        simpa [hproto, hne, Ne.symm hk, List.lookup_cons] using ih

variable {settings : Table Setting.key}

/-- The rows found have different keys. -/
theorem Found.nodup (found : Found settings) : (found.val.map Setting.key).Nodup :=
  (found.property.map Setting.key).nodup_iff.mpr settings.nodup

/-- The row of a key is found in any order. -/
theorem Found.find? (found : Found settings) (k : String) :
    (found.val.find? fun r => r.key = k) = settings.get? k := by
  have hsame : ∀ r, (⟨found.val, found.nodup⟩ : Table Setting.key).get? k = some r ↔
      settings.get? k = some r := by
    intro r
    constructor
    · intro h
      obtain ⟨hmem, rfl⟩ := Table.mem_of_get? h
      exact Table.get?_of_mem (found.property.mem_iff.mp hmem)
    · intro h
      obtain ⟨hmem, rfl⟩ := Table.mem_of_get? h
      exact Table.get?_of_mem (found.property.mem_iff.mpr hmem)
  exact Option.ext hsame

/-- **The own fields are what has come through the pipe, over the defaults**, `__proto__` apart. -/
theorem getAll_lookup (puts : List PutSetting) (found : Found (stored puts)) (k : String) :
    (SettingsService.getAll found.val).own.lookup k = if k = "__proto__" then none
      else ((written puts k).map transform).or (SettingsService.DEFAULTS.lookup k) := by
  have hnodup : ((fieldsOf found.val).map Prod.fst).Nodup := by
    unfold fieldsOf
    rw [List.map_map]
    exact found.nodup.sublist (List.filter_sublist.map _)
  unfold SettingsService.getAll
  rw [foldl_own, Fields.lookup_assignAll hnodup, fieldsOf_lookup, found.find?, stored_get?]
  split_ifs with hk
  · subst hk
    rfl
  · rfl

theorem getAll_nodup (rows : List Setting) :
    ((SettingsService.getAll rows).own.map Prod.fst).Nodup := by
  unfold SettingsService.getAll
  rw [foldl_own]
  exact Fields.nodup_assignAll _ (by decide)

/-- The prototype is `Object.prototype`, or what was written for `__proto__`. -/
theorem getAll_proto (puts : List PutSetting) (found : Found (stored puts)) :
    (SettingsService.getAll found.val).proto = none ∨
      ∃ v, written puts "__proto__" = some v ∧
        (SettingsService.getAll found.val).proto = some (transform v) := by
  refine (foldl_proto found.val (.spread SettingsService.DEFAULTS)).imp_right ?_
  rintro ⟨r, hr, hkey, hproto⟩
  have hget := Table.get?_of_mem (found.property.mem_iff.mp hr)
  have hwritten := stored_get? puts "__proto__"
  rw [hkey] at hget
  rw [hget] at hwritten
  obtain ⟨v, hv, hvalue⟩ := Option.map_eq_some_iff.mp hwritten.symm
  exact ⟨v, hv, hproto.trans (congrArg some hvalue.symm)⟩

/-! ### The data of the response -/

/-- A property is smaller than its object. -/
theorem property_lt {object v : JsValue} {key : String} (h : object.property? key = some v) :
    sizeOf v < sizeOf object := by
  cases object with
  | object fields =>
    obtain ⟨key', hmem⟩ : ∃ key', (key', v) ∈ fields := by
      unfold JsValue.property? at h
      obtain ⟨before, after, rfl, -⟩ := List.lookup_eq_some_iff.mp h
      exact ⟨key, by simp⟩
    have hfield : sizeOf (key', v) < sizeOf fields := List.sizeOf_lt_of_mem hmem
    have hsize : sizeOf (key', v) = 1 + sizeOf key' + sizeOf v := rfl
    have hobject : sizeOf (JsValue.object fields) = 1 + sizeOf fields := by simp
    omega
  | _ => cases h

/-- What the envelope has for its data. -/
def dataOf (payload : JsObject) : JsValue := (payload.property? "data").getD (.object payload.own)

theorem envelope_data (req : Audit.Request) (now : Instant) (payload : JsObject) :
    (envelope req now payload).property? "data" = some (dataOf payload) := by
  unfold envelope dataOf
  cases payload.property? "data" <;> rfl

/-- A map is an object with these properties. -/
theorem IsMap.property {value : JsValue} {map : String → Option JsValue} (h : IsMap value map)
    (key : String) : value.property? key = map key := by
  obtain ⟨fields, rfl, -, hlookup⟩ := h
  exact hlookup key

/-- **The response and `get` at `key` agree with what was written.** -/
structure RoundTrips (puts : List PutSetting) (found : Found (stored puts)) (req : Audit.Request)
    (now : Instant) (key : String) : Prop where
  data : ∃ data, (response req now found).property? "data" = some data ∧
    IsMap data (settingsOf puts)
  get : SettingsService.get key (stored puts) = .value ((settingsOf puts key).getD .undefined)

variable {puts : List PutSetting} {found : Found (stored puts)}

/-- The last values come through the pipe. -/
def ValuesIntact (puts : List PutSetting) : Prop :=
  ∀ key v, written puts key = some v → intact v = true

/-- The data where neither `data` nor `__proto__` was written: what has come through the pipe. -/
theorem data_plain (hdata : written puts "data" = none) (hproto : written puts "__proto__" = none) :
    dataOf (SettingsService.getAll found.val) = .object (SettingsService.getAll found.val).own := by
  have hplain : (SettingsService.getAll found.val).proto = none := by
    rcases getAll_proto puts found with hnone | ⟨v, hv, -⟩
    · exact hnone
    · rw [hproto] at hv
      cases hv
  have hread : (SettingsService.getAll found.val).property? "data" = none := by
    rw [JsObject.property?, getAll_lookup, hplain, hdata]
    rfl
  rw [dataOf, hread]
  rfl

theorem data_isMap (hdata : written puts "data" = none) (hproto : written puts "__proto__" = none)
    (hvalues : ValuesIntact puts) :
    IsMap (dataOf (SettingsService.getAll found.val)) (settingsOf puts) := by
  refine ⟨_, data_plain hdata hproto, getAll_nodup _, fun k => ?_⟩
  rw [getAll_lookup, settingsOf]
  split_ifs with hk
  · subst hk
    rw [hproto]
    rfl
  · cases hwritten : written puts k with
    | none => rfl
    | some v =>
      rw [Option.map_some, (transform_eq_iff v).mpr (hvalues k v hwritten)]

/-- A map that is the data was not written for `data`: it would contain itself. -/
theorem data_unwritten
    (h : IsMap (dataOf (SettingsService.getAll found.val)) (settingsOf puts)) :
    written puts "data" = none := by
  by_contra hne
  obtain ⟨x, hx⟩ := Option.ne_none_iff_exists'.mp hne
  have hmap : settingsOf puts "data" = some x := by
    rw [settingsOf, hx]
    rfl
  have hdata : dataOf (SettingsService.getAll found.val) = transform x := by
    unfold dataOf JsObject.property?
    rw [getAll_lookup, if_neg (by decide), hx]
    rfl
  have hself := h.property "data"
  rw [hdata, hmap] at hself
  exact absurd ((property_lt hself).trans_le (sizeOf_transform_le x)) (lt_irrefl _)

/-- Nor was anything written for `__proto__`, which is no own field. -/
theorem proto_unwritten
    (h : IsMap (dataOf (SettingsService.getAll found.val)) (settingsOf puts)) :
    written puts "__proto__" = none := by
  by_contra hne
  obtain ⟨v, hv⟩ := Option.ne_none_iff_exists'.mp hne
  have hmap : settingsOf puts "__proto__" = some v := by
    rw [settingsOf, hv]
    rfl
  have hnodata : (SettingsService.getAll found.val).own.lookup "data" = none := by
    rw [getAll_lookup, if_neg (by decide), data_unwritten h]
    rfl
  have hself := h.property "__proto__"
  rw [hmap] at hself
  cases hread : (SettingsService.getAll found.val).property? "data" with
  | none =>
    have hdata : dataOf (SettingsService.getAll found.val) =
        .object (SettingsService.getAll found.val).own := by
      rw [dataOf, hread]
      rfl
    rw [hdata, JsValue.property?, getAll_lookup, if_pos rfl] at hself
    cases hself
  | some x =>
    -- the data is a property of the prototype, which is not larger than a property of the data
    have hdata : dataOf (SettingsService.getAll found.val) = x := by
      rw [dataOf, hread]
      rfl
    rw [JsObject.property?, hnodata, Option.none_or] at hread
    obtain ⟨v', hproto, hx⟩ := Option.bind_eq_some_iff.mp hread
    have hsame : v' = transform v := by
      rcases getAll_proto puts found with hnone | ⟨w, hw, hw'⟩
      · rw [hnone] at hproto
        cases hproto
      · rw [hproto] at hw'
        rw [hv] at hw
        rw [Option.some.inj hw', Option.some.inj hw]
    rw [hdata] at hself
    rw [hsame] at hx
    have hlt := (property_lt hx).trans_le (sizeOf_transform_le v)
    exact absurd (hlt.trans (property_lt hself)) (lt_irrefl _)

/-- And the last values have come through the pipe. -/
theorem values_intact
    (h : IsMap (dataOf (SettingsService.getAll found.val)) (settingsOf puts)) :
    ValuesIntact puts := by
  have hproto := proto_unwritten h
  intro key v hv
  have hself := h.property key
  have hkey : key ≠ "__proto__" := by
    rintro rfl
    rw [hproto] at hv
    cases hv
  rw [data_plain (data_unwritten h) hproto, JsValue.property?, getAll_lookup, if_neg hkey, settingsOf,
    hv] at hself
  exact (transform_eq_iff v).mp (Option.some.inj hself)

/-- No default has the name of a member. -/
theorem default_of_member : ∀ key ∈ objectPrototype, SettingsService.DEFAULTS.lookup key = none := by
  simp [objectPrototype, SettingsService.DEFAULTS, List.lookup_cons]

/-- **The response is the map of what was written, and `get` agrees with it at a key, exactly when
neither `data` nor `__proto__` was written, the last value of each key comes through the pipe, and the
key was written if it is one of a member of `Object.prototype`.** -/
theorem settings_roundTrip_iff (puts : List PutSetting) (found : Found (stored puts))
    (req : Audit.Request) (now : Instant) (key : String) :
    RoundTrips puts found req now key ↔
      (∀ p ∈ puts, p.dto.key ≠ "data" ∧ p.dto.key ≠ "__proto__") ∧ ValuesIntact puts ∧
        (key ∈ objectPrototype → ∃ p ∈ puts, p.dto.key = key) := by
  have hresponse : (response req now found).property? "data" =
      some (dataOf (SettingsService.getAll found.val)) := envelope_data req now _
  constructor
  · rintro ⟨⟨data, hdata, hmap⟩, hget⟩
    obtain rfl : dataOf (SettingsService.getAll found.val) = data :=
      Option.some.inj (hresponse.symm.trans hdata)
    refine ⟨fun p hp => ⟨written_none.mp (data_unwritten hmap) p hp,
      written_none.mp (proto_unwritten hmap) p hp⟩, values_intact hmap, fun hmember => ?_⟩
    by_contra hno
    have hnone : written puts key = none :=
      written_none.mpr fun p hp hkey => hno ⟨p, hp, hkey⟩
    have hdefault := default_of_member key hmember
    rw [get_stored, hnone, SettingsService.default, hdefault] at hget
    simp [hmember] at hget
  · rintro ⟨hkeys, hvalues, hmember⟩
    have hdata : written puts "data" = none := written_none.mpr fun p hp => (hkeys p hp).1
    have hproto : written puts "__proto__" = none := written_none.mpr fun p hp => (hkeys p hp).2
    refine ⟨⟨_, hresponse, data_isMap hdata hproto hvalues⟩, ?_⟩
    rw [get_stored, settingsOf]
    cases hwritten : written puts key with
    | some v =>
      rw [Option.map_some, (transform_eq_iff v).mpr (hvalues key v hwritten)]
      rfl
    | none =>
      unfold SettingsService.default
      cases hdefault : SettingsService.DEFAULTS.lookup key with
      | some v => rfl
      | none =>
        have hnot : key ∉ objectPrototype := by
          intro hin
          obtain ⟨p, hp, hkey⟩ := hmember hin
          exact written_none.mp hwritten p hp hkey
        simp [hnot]

/-! ### A setting with the key `data` -/

/-- `PUT /settings` with the key `data`. -/
def putData : PutSetting :=
  ⟨⟨"data", .string "backup", by decide, by simp [isJson], by simp⟩, 9⟩

/-- `GET /settings` of the owner. -/
def getSettings : Audit.Request where
  user := some ⟨Uuid.text 9, "owner@club.uz"⟩
  body := .undefined
  params := []
  ip := some "10.0.0.7"
  userAgent := none
  requestId := some "r-1"

def foundData : Found (stored [putData]) := ⟨_, .refl _⟩

/-- The data of the response is the value of the setting, without the other settings; and a key that
was not written reads a member of `Object.prototype`. -/
theorem data_unwrapped :
    (response getSettings .epoch foundData).property? "data" = some (.string "backup") ∧
    SettingsService.get "constructor" (stored [putData]) = .member "constructor" ∧
    ¬ ∀ (puts : List PutSetting) (found : Found (stored puts)) (req : Audit.Request)
      (now : Instant) (key : String), RoundTrips puts found req now key := by
  have hresponse : (response getSettings .epoch foundData).property? "data" =
      some (.string "backup") := rfl
  refine ⟨hresponse, rfl, fun h => ?_⟩
  obtain ⟨data, hdata, fields, hobject, -⟩ :=
    (h [putData] foundData getSettings .epoch "club.name").data
  rw [hresponse, hobject] at hdata
  cases hdata

end GameClub.Services.Settings
