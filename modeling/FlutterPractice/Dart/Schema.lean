import FlutterPractice.Dart.Json

/-! # Schemas of decoded JSON

A schema lists the known keys of an object with the types of their values. Null
is of every type, and an absent key is null. To a value that does not fit, known
keys lead through objects to what has the wrong type. A value can be restricted
to its known keys.
-/

namespace Dart

inductive Schema where
  | int
  | string
  | record (members : List (String × Schema))

namespace Schema

open Json

theorem sizeOf_member_lt {members : List (String × Schema)} {member : String × Schema}
    (h : member ∈ members) : sizeOf member.2 < sizeOf (record members) := by
  have hlt := List.sizeOf_lt_of_mem h
  obtain ⟨key, schema⟩ := member
  simp only [record.sizeOf_spec, Prod.mk.sizeOf_spec] at hlt ⊢
  omega

/-- Induction, with the schemas of all members of a record. -/
@[elab_as_elim, induction_eliminator]
theorem induction {motive : Schema → Prop} (int : motive .int) (string : motive .string)
    (record : ∀ members : List (String × Schema),
      (∀ member ∈ members, motive member.2) → motive (.record members)) :
    ∀ schema, motive schema
  | .int => int
  | .string => string
  | .record members => record members fun member _ => induction int string record member.2
termination_by schema => sizeOf schema
decreasing_by exact sizeOf_member_lt ‹_›

/-- The type of a value, whatever is inside it. -/
def hasType : Schema → Json → Bool
  | .int, .int _ => true
  | .string, .string _ => true
  | .record _, .object _ => true
  | _, _ => false

mutual

/-- The value and what its known keys hold have their types, unless they are null. -/
def fits : Schema → Json → Bool
  | _, .null => true
  | .int, .int _ => true
  | .string, .string _ => true
  | .record members, .object fields => membersFit members fields
  | _, _ => false

def membersFit : List (String × Schema) → List (String × Json) → Bool
  | [], _ => true
  | (key, schema) :: members, fields =>
    schema.fits (get fields key) && membersFit members fields

end

mutual

/-- The known keys only, with null for those that are absent. -/
def restrict : Schema → Json → Json
  | .record members, .object fields => .object (restrictMembers members fields)
  | _, json => json

def restrictMembers : List (String × Schema) → List (String × Json) → List (String × Json)
  | [], _ => []
  | (key, schema) :: members, fields =>
    (key, schema.restrict (get fields key)) :: restrictMembers members fields

end

/-- Known keys lead from a value through objects to another value, with the schema of each. -/
inductive Reaches : Schema → Json → List String → Schema → Json → Prop
  | here {schema : Schema} {json : Json} : Reaches schema json [] schema json
  | key {members : List (String × Schema)} {fields : List (String × Json)} {key : String}
      {path : List String} {schema target : Schema} {value : Json}
      (known : (key, schema) ∈ members)
      (rest : Reaches schema (get fields key) path target value) :
      Reaches (.record members) (.object fields) (key :: path) target value

variable {schema target : Schema} {json value : Json} {path : List String}
  {members : List (String × Schema)} {fields : List (String × Json)}

theorem membersFit_iff : membersFit members fields = true ↔
    ∀ member ∈ members, member.2.fits (get fields member.1) = true := by
  induction members with
  | nil => simp [membersFit]
  | cons member members ih => rw [membersFit, Bool.and_eq_true, ih, List.forall_mem_cons]

theorem fits_iff : schema.fits json = true ↔ json = .null ∨ schema.hasType json = true ∧
    ∀ members fields, schema = .record members → json = .object fields →
      ∀ member ∈ members, member.2.fits (get fields member.1) = true := by
  cases schema <;> cases json <;> simp [fits, hasType, membersFit_iff]

theorem Reaches.fits (h : Reaches schema json path target value) (hfits : schema.fits json = true) :
    target.fits value = true := by
  induction h with
  | here => exact hfits
  | key known rest ih =>
    rw [Schema.fits, membersFit_iff] at hfits
    exact ih (hfits _ known)

/-- To a value that does not fit, known keys lead to one of the wrong type. -/
theorem exists_reaches (h : ¬ schema.fits json = true) :
    ∃ path target value, Reaches schema json path target value ∧ value ≠ .null ∧
      target.hasType value = false := by
  induction schema generalizing json with
  | int | string =>
    rw [fits_iff, not_or, not_and'] at h
    exact ⟨[], _, json, .here, h.1, Bool.eq_false_iff.mpr (h.2 nofun)⟩
  | record members ih =>
    rw [fits_iff, not_or, not_and] at h
    obtain ⟨hnull, hmembers⟩ := h
    cases htype : (record members).hasType json with
    | false => exact ⟨[], _, json, .here, hnull, htype⟩
    | true =>
      cases json with
      | object fields =>
        obtain ⟨member, hmem, hfits⟩ : ∃ member ∈ members,
            ¬ member.2.fits (get fields member.1) = true := by
          simpa using hmembers htype
        obtain ⟨path, target, value, hreaches, hwrong⟩ := ih member hmem hfits
        exact ⟨member.1 :: path, target, value, .key hmem hreaches, hwrong⟩
      | _ => cases htype

theorem not_fits_iff : ¬ schema.fits json = true ↔
    ∃ path target value, Reaches schema json path target value ∧ value ≠ .null ∧
      target.hasType value = false := by
  constructor
  · exact exists_reaches
  · rintro ⟨path, target, value, hreaches, hnull, hwrong⟩ hfits
    obtain ⟨htype, -⟩ := (fits_iff.mp (hreaches.fits hfits)).resolve_left hnull
    rw [hwrong] at htype
    cases htype

end Schema

namespace Json

variable {α : Type}

def nullOr (toJson : α → Json) : Option α → Json
  | none => .null
  | some a => toJson a

/-- A decoder of what fits a schema, and an encoder into its known keys. -/
structure Codec (schema : Schema) (fromJson : Json → Option α) (toJson : α → Json) : Prop where
  fromJson_toJson : ∀ a, fromJson (toJson a) = some a
  toJson_ne_null : ∀ a, toJson a ≠ .null
  isSome_fromJson : ∀ json ≠ .null, (fromJson json).isSome = true ↔ schema.fits json = true
  toJson_of_fromJson : ∀ json a, fromJson json = some a → toJson a = schema.restrict json

theorem get_cons (key name : String) (value : Json) (fields : List (String × Json)) :
    get ((name, value) :: fields) key = if key = name then value else get fields key := by
  rw [Json.get, List.lookup_cons]
  by_cases hkey : key = name
  · rw [if_pos hkey, beq_iff_eq.mpr hkey]
    rfl
  · rw [if_neg hkey, beq_eq_false_iff_ne.mpr hkey]
    rfl

theorem orNull_of_ne_null {convert : Json → Option α} {json : Json} (h : json ≠ .null) :
    orNull convert json = (convert json).map some := by
  cases json <;> first | rfl | exact absurd rfl h

namespace Codec

theorem int : Codec .int asInt .int where
  fromJson_toJson _ := rfl
  toJson_ne_null _ := nofun
  isSome_fromJson json hnull := by cases json <;> simp_all [asInt, Schema.fits]
  toJson_of_fromJson json z h := by
    cases json <;> simp_all [asInt, Schema.restrict]

theorem string : Codec .string asString .string where
  fromJson_toJson _ := rfl
  toJson_ne_null _ := nofun
  isSome_fromJson json hnull := by cases json <;> simp_all [asString, Schema.fits]
  toJson_of_fromJson json text h := by
    cases json <;> simp_all [asString, Schema.restrict]

/-- The codec of a class that reads and writes the fields of an object. -/
theorem record {members : List (String × Schema)} {decode : List (String × Json) → Option α}
    {encode : α → List (String × Json)} (hround : ∀ a, decode (encode a) = some a)
    (hsome : ∀ fields, (decode fields).isSome = true ↔ Schema.membersFit members fields = true)
    (hrestrict : ∀ fields a, decode fields = some a →
      encode a = Schema.restrictMembers members fields) :
    Codec (.record members) (fun json => json.asObject.bind decode)
      fun a => .object (encode a) where
  fromJson_toJson := hround
  toJson_ne_null _ := nofun
  isSome_fromJson json hnull := by
    cases json with
    | object fields =>
      rw [Schema.fits]
      exact hsome fields
    | null => exact absurd rfl hnull
    | _ => simp [asObject, Schema.fits]
  toJson_of_fromJson json a h := by
    obtain ⟨fields, hfields, hdecode⟩ := Option.bind_eq_some_iff.mp h
    obtain rfl := asObject_eq_some.mp hfields
    rw [hrestrict fields a hdecode, Schema.restrict]

variable {schema : Schema} {fromJson : Json → Option α} {toJson : α → Json}
  (C : Codec schema fromJson toJson)
include C

theorem orNull_nullOr (value : Option α) : orNull fromJson (nullOr toJson value) = some value := by
  cases value with
  | none => rfl
  | some a =>
    rw [nullOr, orNull_of_ne_null (C.toJson_ne_null a), C.fromJson_toJson]
    rfl

theorem isSome_orNull (json : Json) :
    (orNull fromJson json).isSome = true ↔ schema.fits json = true := by
  by_cases hnull : json = .null
  · simp [hnull, orNull, Schema.fits]
  · rw [orNull_of_ne_null hnull, Option.isSome_map, C.isSome_fromJson json hnull]

theorem nullOr_of_orNull {json : Json} {value : Option α}
    (h : orNull fromJson json = some value) : nullOr toJson value = schema.restrict json := by
  by_cases hnull : json = .null
  · subst hnull
    obtain rfl := Option.some.inj h
    simp [nullOr, Schema.restrict]
  · rw [orNull_of_ne_null hnull] at h
    obtain ⟨a, ha, rfl⟩ := Option.map_eq_some_iff.mp h
    exact C.toJson_of_fromJson json a ha

end Codec

end Json

end Dart
