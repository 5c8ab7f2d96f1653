import FlutterPractice.Dart.Double

/-! # Decoded JSON

What `jsonDecode` returns, and what code does with a `dynamic` value of it. A
cast to another type throws, and so does an index into anything but an object.
-/

namespace Dart

inductive Json where
  | null
  | bool (b : Bool)
  | int (z : ℤ)
  | double (d : Double)
  | string (text : String)
  | array (elements : List Json)
  | object (fields : List (String × Json))

namespace Json

mutual

/-- `jsonEncode` throws at a double without a JSON text, wherever in the value it stands. -/
def encodable : Json → Bool
  | .double d => d.toRat.isSome
  | .array elements => allEncodable elements
  | .object fields => fieldsEncodable fields
  | _ => true

def allEncodable : List Json → Bool
  | [] => true
  | json :: elements => json.encodable && allEncodable elements

def fieldsEncodable : List (String × Json) → Bool
  | [] => true
  | (_, json) :: fields => json.encodable && fieldsEncodable fields

end

/-- The entry of a map, which is null for a key that is absent. -/
def get (fields : List (String × Json)) (key : String) : Json := (fields.lookup key).getD .null

/-- `json[key]` on a `dynamic`. -/
def index (json : Json) (key : String) : Option Json :=
  match json with
  | .object fields => some (get fields key)
  | _ => none

/-- The cast to `Map<String, dynamic>`. -/
def asObject : Json → Option (List (String × Json))
  | .object fields => some fields
  | _ => none

def asArray : Json → Option (List Json)
  | .array elements => some elements
  | _ => none

def asString : Json → Option String
  | .string text => some text
  | _ => none

def asInt : Json → Option ℤ
  | .int z => some z
  | _ => none

/-- A conversion where null stays null, as the casts to `String?` and `int?` do. -/
def orNull {α : Type} (convert : Json → Option α) : Json → Option (Option α)
  | .null => some none
  | json => (convert json).map some

/-- `json == text` for a `String`. -/
def isText (json : Json) (text : String) : Bool :=
  match json with
  | .string other => other = text
  | _ => false

theorem isText_iff {json : Json} {text : String} :
    json.isText text = true ↔ json = .string text := by
  cases json <;> simp [isText]

theorem index_eq_some {json value : Json} {key : String} :
    json.index key = some value ↔ ∃ fields, json = .object fields ∧ get fields key = value := by
  cases json <;> simp [index]

theorem asObject_eq_some {json : Json} {fields : List (String × Json)} :
    json.asObject = some fields ↔ json = .object fields := by
  cases json <;> simp [asObject]

theorem asArray_eq_some {json : Json} {elements : List Json} :
    json.asArray = some elements ↔ json = .array elements := by
  cases json <;> simp [asArray]

theorem asString_eq_some {json : Json} {text : String} :
    json.asString = some text ↔ json = .string text := by
  cases json <;> simp [asString]

theorem encodable_get {fields : List (String × Json)} (h : fieldsEncodable fields = true)
    (key : String) : (get fields key).encodable = true := by
  induction fields with
  | nil => rfl
  | cons field fields ih =>
    obtain ⟨hjson, hfields⟩ := Bool.and_eq_true_iff.mp h
    rw [get, List.lookup_cons]
    cases key == field.1 with
    | true => exact hjson
    | false => exact ih hfields

theorem encodable_of_index {json value : Json} {key : String} (h : json.encodable = true)
    (hvalue : json.index key = some value) : value.encodable = true := by
  obtain ⟨fields, rfl, rfl⟩ := index_eq_some.mp hvalue
  rw [encodable] at h
  exact encodable_get h key

theorem mapM_eq_some {α β : Type} {convert : α → Option β} {as : List α} {bs : List β} :
    as.mapM convert = some bs ↔ List.Forall₂ (fun a b => convert a = some b) as bs := by
  induction as generalizing bs with
  | nil => simp [eq_comm]
  | cons a as ih =>
    simp only [List.mapM_cons, bind, Option.bind_eq_some_iff, pure, Option.some.injEq,
      List.forall₂_cons_left_iff]
    constructor
    · rintro ⟨b, hb, bs, hbs, rfl⟩
      exact ⟨b, bs, hb, ih.mp hbs, rfl⟩
    · rintro ⟨b, bs, hb, hbs, rfl⟩
      exact ⟨b, hb, bs, ih.mpr hbs, rfl⟩

theorem isSome_mapM {α β : Type} {convert : α → Option β} {elements : List α} :
    (elements.mapM convert).isSome = true ↔ ∀ a ∈ elements, (convert a).isSome = true := by
  induction elements with
  | nil => simp
  | cons a elements ih =>
    rw [List.forall_mem_cons, ← ih, List.mapM_cons]
    cases convert a with
    | none => simp
    | some b => cases elements.mapM convert <;> simp

end Json

/-- A text that `jsonEncode` returns, as the value that it encodes. -/
@[ext] structure JsonText where
  value : Json
  encodable : value.encodable = true

def jsonEncode (json : Json) : Option JsonText :=
  if h : json.encodable = true then some ⟨json, h⟩ else none

def jsonDecode (text : JsonText) : Json := text.value

theorem jsonEncode_eq_some {json : Json} {text : JsonText} :
    jsonEncode json = some text ↔ jsonDecode text = json := by
  simp only [jsonEncode, jsonDecode]
  split
  · rw [Option.some.injEq, JsonText.ext_iff, eq_comm]
  · rename_i h
    simp only [reduceCtorEq, false_iff]
    rintro rfl
    exact h text.encodable

theorem isSome_jsonEncode {json : Json} :
    (jsonEncode json).isSome = true ↔ json.encodable = true := by
  rw [jsonEncode]
  split <;> simp [*]

end Dart
