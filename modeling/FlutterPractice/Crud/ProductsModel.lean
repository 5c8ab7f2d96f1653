import FlutterPractice.Dart.Double

/-! # Product records of the CRUD screens

The flat JSON objects that the product screens exchange with the backend, and
`ProductsModel.fromJson`, which reads one. A cast of a field to another type
throws, so every failure of the decoder is `none`.
-/

namespace FlutterPractice.Crud

open Dart

inductive JsonValue where
  | null
  | int (z : ℤ)
  | double (d : Double)
  | string (text : String)
  deriving DecidableEq

namespace JsonValue

def toRat : JsonValue → Option ℚ
  | .int z => some z
  | .double d => d.toRat
  | _ => none

/-- `jsonEncode` throws on doubles that no JSON number denotes. -/
def encodable : JsonValue → Bool
  | .double d => d.toRat.isSome
  | _ => true

/-- The cast of a `dynamic` to `String`. -/
def asString : JsonValue → Option String
  | .string text => some text
  | _ => none

def asInt : JsonValue → Option ℤ
  | .int z => some z
  | _ => none

/-- The cast of a `dynamic` to `String?`. -/
def asStringOrNull : JsonValue → Option (Option String)
  | .string text => some (some text)
  | .null => some none
  | _ => none

/--
What comes back for a posted value. An integral number is printed without a decimal point, and
`jsonDecode` reads such a number as an `int` where it fits the type and as a `double` elsewhere.
-/
def returned : JsonValue → JsonValue
  | .double d =>
    match d.toRat with
    | some v => if v.den = 1 ∧ IsInt64 v.num then .int v.num else .double d
    | none => .double d
  | v => v

theorem asInt_eq_some {v : JsonValue} {z : ℤ} : v.asInt = some z ↔ v = .int z := by
  cases v <;> simp [asInt]

theorem returned_double_eq_int {d : Double} {z : ℤ} :
    returned (.double d) = .int z ↔ d.toRat = some (z : ℚ) ∧ IsInt64 z := by
  unfold returned
  cases hd : d.toRat with
  | none => simp [hd]
  | some v =>
    simp only [hd, Option.some.injEq]
    constructor
    · intro h
      split at h
      · rename_i hv
        obtain rfl : v.num = z := by simpa using h
        exact ⟨((Rat.den_eq_one_iff v).mp hv.1).symm, hv.2⟩
      · cases h
    · rintro ⟨rfl, hz⟩
      simp [hz]

end JsonValue

abbrev JsonRecord := List (String × JsonValue)

/-- `record[key]`, which is null for a key that is absent. -/
def JsonRecord.get (record : JsonRecord) (key : String) : JsonValue :=
  (record.lookup key).getD .null

structure ProductsModel where
  id : String
  name : String
  code : ℤ
  image : Option String
  quantity : ℤ
  unitPrice : ℤ
  totalPrice : ℤ
  deriving DecidableEq

def ProductsModel.fromJson (productJson : JsonRecord) : Option ProductsModel := do
  let id ← (productJson.get "_id").asString
  let name ← (productJson.get "ProductName").asString
  let code ← (productJson.get "ProductCode").asInt
  let quantity ← (productJson.get "Qty").asInt
  let unitPrice ← (productJson.get "UnitPrice").asInt
  let totalPrice ← (productJson.get "TotalPrice").asInt
  let image ← (productJson.get "Img").asStringOrNull
  return { id, name, code, image, quantity, unitPrice, totalPrice }

/-- The backend keeps the posted fields under an `_id` of its own. -/
def readBack (id : String) (body : JsonRecord) : JsonRecord :=
  ("_id", .string id) :: body.map fun entry => (entry.1, entry.2.returned)

end FlutterPractice.Crud
