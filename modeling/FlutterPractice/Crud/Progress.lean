import FlutterPractice.Crud.ProductForms
import FlutterPractice.Crud.ProductList
import FlutterPractice.Dart.Json
import FlutterPractice.Machine.BusyFlag

/-! # The progress flags

The four handlers that talk to the backend raise a flag, await one response and
lower the flag in their last lines. Only `_updateProduct` does so in a
`finally` block. In the others, whatever throws leaves the flag raised.
-/

namespace FlutterPractice.Crud

open Dart Double Json Machine BusyFlag

/-- The body of a response: bytes that are no text, or a text with what it decodes to. -/
inductive Body where
  | malformed
  | text (json : Option Json)

inductive HttpReply where
  | response (statusCode : ℕ) (body : Body)
  | exception

/-- `response.body`, as the handlers print it. -/
def Body.asText : Body → Option (Option Json)
  | .malformed => none
  | .text json => some json

def JsonValue.toJson : JsonValue → Json
  | .null => .null
  | .int z => .int z
  | .double d => .double d
  | .string text => .string text

/-- `ProductsModel.fromJson` on an object that need not be flat. -/
def ProductsModel.ofObject (productJson : List (String × Json)) : Option ProductsModel := do
  let id ← (get productJson "_id").asString
  let name ← (get productJson "ProductName").asString
  let code ← (get productJson "ProductCode").asInt
  let quantity ← (get productJson "Qty").asInt
  let unitPrice ← (get productJson "UnitPrice").asInt
  let totalPrice ← (get productJson "TotalPrice").asInt
  let image ← orNull asString (get productJson "Img")
  return { id, name, code, image, quantity, unitPrice, totalPrice }

/-- `_onTapAddProductButton` behind `post`: the message it shows, if it does not throw. -/
def addAnswered : HttpReply → Option (Option String)
  | .exception => none
  | .response statusCode body => do
    let json ← body.asText
    if statusCode = 200 then
      let decodedJson ← json
      if (← decodedJson.index "status").isText "success" then
        return some "Product Added Successfully"
      else
        let errorMessage ← (← decodedJson.index "message").asString
        return some errorMessage
    else return none

/-- `_getProductList` behind `get`: the products it adds, if it does not throw. -/
def listAnswered : HttpReply → Option (List ProductsModel)
  | .exception => none
  | .response statusCode body => do
    let json ← body.asText
    if statusCode = 200 then
      let decodedJson ← json
      let data ← (← decodedJson.index "data").asArray
      data.mapM fun productJson => productJson.asObject.bind ProductsModel.ofObject
    else return []

/-- `_deleteProduct` behind `get`: the message it shows, if it does not throw. -/
def deleteAnswered : HttpReply → Option String
  | .exception => none
  | .response statusCode body => do
    let _ ← body.asText
    return if statusCode = 200 then "Success Fully Deleted" else "Delete Field"

def addHandler : Handler ProductForm HttpReply where
  begins form :=
    match onTapAddProductButton form with
    | .invalid _ => .rejected
    | .threw => .ended false
    | .sent _ => .waiting
  lowers reply := (addAnswered reply).isSome

def listHandler : Handler Unit HttpReply :=
  ⟨fun _ => .waiting, fun reply => (listAnswered reply).isSome⟩

def deleteHandler : Handler Unit HttpReply :=
  ⟨fun _ => .waiting, fun reply => (deleteAnswered reply).isSome⟩

/-- The `finally` block of `_updateProduct` runs behind whatever its `try` block does. -/
def updateHandler : Handler ProductForm HttpReply where
  begins form :=
    match updateProduct form with
    | .invalid _ => .rejected
    | .threw => .ended true
    | .sent _ => .waiting
  lowers _ := true

/-- Every field has more than white space, as the validators demand. -/
def ProductForm.Filled (form : ProductForm) : Prop :=
  ∀ text ∈ [form.productName, form.productCode, form.quantity, form.unitPrice, form.imageUrl],
    (trim text).isEmpty = false

/-- The texts of the numbers parse, the price and the quantity as doubles and as integers. -/
structure ProductForm.NumbersParse (form : ProductForm) : Prop where
  priceDouble : (parseDouble form.unitPrice).isSome
  quantityDouble : (parseDouble form.quantity).isSome
  code : (parseInt (trim form.productCode)).isSome
  quantity : (parseInt (trim form.quantity)).isSome
  price : (parseInt (trim form.unitPrice)).isSome

/-- A status other than 200, or an object that is a success or has a text as its message. -/
def AddReadable : HttpReply → Prop
  | .response statusCode (.text json) => statusCode = 200 →
      ∃ fields, json = some (.object fields) ∧
        (get fields "status" = .string "success" ∨
          ∃ message, get fields "message" = .string message)
  | _ => False

/-- A status other than 200, or an object whose `data` is a list of products. -/
def ListReadable : HttpReply → Prop
  | .response statusCode (.text json) => statusCode = 200 →
      ∃ fields elements, json = some (.object fields) ∧ get fields "data" = .array elements ∧
        ∀ element ∈ elements, ∃ productJson, element = .object productJson ∧
          (ProductsModel.ofObject productJson).isSome
  | _ => False

/-- Any response whose body is a text. -/
def DeleteReadable : HttpReply → Prop
  | .response _ (.text _) => True
  | _ => False

theorem ofObject_toJson (productJson : JsonRecord) :
    ProductsModel.ofObject (productJson.map fun field => (field.1, field.2.toJson)) =
      ProductsModel.fromJson productJson := by
  have hget (key : String) : get (productJson.map fun field => (field.1, field.2.toJson)) key =
      (productJson.get key).toJson := by
    induction productJson with
    | nil => rfl
    | cons field rest ih =>
      obtain ⟨name, value⟩ := field
      simp only [Json.get, JsonRecord.get, List.map_cons, List.lookup_cons] at ih ⊢
      cases key == name with
      | true => rfl
      | false => exact ih
  have hstring (v : JsonValue) : v.toJson.asString = v.asString := by cases v <;> rfl
  have hint (v : JsonValue) : v.toJson.asInt = v.asInt := by cases v <;> rfl
  have hnull (v : JsonValue) : orNull asString v.toJson = v.asStringOrNull := by cases v <;> rfl
  simp only [ProductsModel.ofObject, ProductsModel.fromJson, hget, hstring, hint, hnull]

theorem listAnswered_toJson (data : List JsonRecord) :
    listAnswered (.response 200 (.text (some (.object [("data", .array (data.map fun productJson =>
      .object (productJson.map fun field => (field.1, field.2.toJson))))])))) =
      (ListReply.response 200 (some data)).products := by
  have hflat : (fun productJson : Json => productJson.asObject.bind ProductsModel.ofObject) ∘
      (fun productJson : JsonRecord =>
        Json.object (productJson.map fun field => (field.1, field.2.toJson))) =
      ProductsModel.fromJson := funext ofObject_toJson
  calc
    _ = (data.map fun productJson =>
          Json.object (productJson.map fun field => (field.1, field.2.toJson))).mapM
          fun productJson => productJson.asObject.bind ProductsModel.ofObject := rfl
    _ = data.mapM ProductsModel.fromJson := by rw [List.mapM_map, hflat]
    _ = _ := rfl

theorem deleteAnswered_isSome (reply : HttpReply) :
    (deleteAnswered reply).isSome = true ↔ DeleteReadable reply := by
  rcases reply with ⟨statusCode, _ | json⟩ | _ <;>
    simp [deleteAnswered, DeleteReadable, Body.asText]

theorem addAnswered_isSome (reply : HttpReply) :
    (addAnswered reply).isSome = true ↔ AddReadable reply := by
  rcases reply with ⟨statusCode, _ | json⟩ | _
  · simp [addAnswered, AddReadable, Body.asText]
  · by_cases h200 : statusCode = 200
    · cases json with
      | none => simp [addAnswered, AddReadable, Body.asText, h200]
      | some decodedJson =>
        cases decodedJson with
        | object fields =>
          have hanswered : addAnswered (.response 200 (.text (some (.object fields)))) =
              if (Json.get fields "status").isText "success" then
                some (some "Product Added Successfully")
              else (Json.get fields "message").asString.bind fun message => some (some message) :=
            rfl
          rw [h200, hanswered]
          simp only [AddReadable, true_implies, Option.some.injEq, Json.object.injEq,
            exists_eq_left']
          split
          · rename_i hsuccess
            exact iff_of_true rfl (.inl (isText_iff.mp hsuccess))
          · rename_i hsuccess
            have hne : Json.get fields "status" ≠ .string "success" :=
              fun h => hsuccess (isText_iff.mpr h)
            simp [hne, Option.isSome_iff_exists, ← asString_eq_some, Option.bind_eq_some_iff]
        | _ => simp [addAnswered, AddReadable, Body.asText, h200, Json.index]
    · simp [addAnswered, AddReadable, Body.asText, h200]
  · simp [addAnswered, AddReadable]

theorem listAnswered_isSome (reply : HttpReply) :
    (listAnswered reply).isSome = true ↔ ListReadable reply := by
  rcases reply with ⟨statusCode, _ | json⟩ | _
  · simp [listAnswered, ListReadable, Body.asText]
  · by_cases h200 : statusCode = 200
    · cases json with
      | none => simp [listAnswered, ListReadable, Body.asText, h200]
      | some decodedJson =>
        cases decodedJson with
        | object fields =>
          have hanswered : listAnswered (.response 200 (.text (some (.object fields)))) =
              (Json.get fields "data").asArray.bind fun data =>
                data.mapM fun productJson => productJson.asObject.bind ProductsModel.ofObject :=
            rfl
          rw [h200, hanswered]
          simp only [ListReadable, true_implies, Option.some.injEq, Json.object.injEq,
            exists_and_left, exists_eq_left', ← asArray_eq_some]
          cases (Json.get fields "data").asArray with
          | none => simp
          | some data =>
            simp [isSome_mapM, Option.isSome_bind, Option.any_eq_true, asObject_eq_some]
        | _ => simp [listAnswered, ListReadable, Body.asText, h200, Json.index]
    · simp [listAnswered, ListReadable, Body.asText, h200]
  · simp [listAnswered, ListReadable]

theorem required_eq_none {message value : String} :
    required message value = none ↔ (trim value).isEmpty = false := by
  simp [required]

theorem isSome_toRat_mul_round {s t : Bool} {m n : ℕ} (hm : m < 2 ^ 64) (hn : n < 2 ^ 64) :
    (mul (round s m m.cast_nonneg) (round t n n.cast_nonneg)).toRat.isSome := by
  have hle (k : ℕ) (hk : k < 2 ^ 64) : binary64.round k ≤ 2 ^ (64 : ℤ) :=
    binary64.round_le_two_zpow k.cast_nonneg (by exact_mod_cast hk) (by decide)
  obtain ⟨p, hp, hpv⟩ := round_natCast_finite s hm
  obtain ⟨q, hq, hqv⟩ := round_natCast_finite t hn
  have hprod : p.val * q.val < 2 ^ (129 : ℤ) := by
    calc p.val * q.val ≤ 2 ^ (64 : ℤ) * 2 ^ (64 : ℤ) :=
          mul_le_mul (hpv ▸ hle m hm) (hqv ▸ hle n hn) q.2.1 (by positivity)
      _ < 2 ^ (129 : ℤ) := by norm_num
  have hround := binary64.round_le_two_zpow (mul_nonneg p.2.1 q.2.1) hprod (by decide)
  have hbound : binary64.round (p.val * q.val) < 2 ^ 1024 := by
    refine hround.trans_lt ?_
    exact_mod_cast pow_lt_pow_right₀ (one_lt_two (α := ℚ)) (by decide : 129 < 1024)
  rw [hp, hq, Double.mul, Double.round, if_pos hbound]
  rfl

theorem isSome_requestBody {parsePrice : String → Option JsonValue} {form : ProductForm} :
    (requestBody parsePrice form).isSome ↔ (parseDouble form.unitPrice).isSome ∧
      (parseDouble form.quantity).isSome ∧ (parseInt (trim form.productCode)).isSome ∧
      (parseInt (trim form.quantity)).isSome ∧ (parsePrice (trim form.unitPrice)).isSome := by
  simp only [requestBody, Option.bind_eq_bind, Option.pure_def]
  cases parseDouble form.unitPrice <;> cases parseDouble form.quantity <;>
    cases parseInt (trim form.productCode) <;> cases parseInt (trim form.quantity) <;>
    cases parsePrice (trim form.unitPrice) <;> simp

theorem submit_eq_threw {validators : List (Option String)} {request : Option JsonRecord} :
    submit validators request = .threw ↔ validators.reduceOption = [] ∧
      ∀ body, request = some body → ∃ entry ∈ body, entry.2.encodable = false := by
  unfold submit
  split
  · rename_i hv
    simp [hv]
  · rename_i hv
    cases request with
    | none => simp [not_not.mp hv]
    | some body =>
      simp only [not_not.mp hv, Option.some.injEq, forall_eq', true_and]
      split
      · rename_i hall
        simp only [reduceCtorEq, false_iff, not_exists, not_and, Bool.not_eq_false]
        exact List.all_eq_true.mp hall
      · rename_i hall
        simpa using hall

/-- A parsed add form is always sent: its total price is finite. -/
theorem encodable_of_requestBody {form : ProductForm} {body : JsonRecord}
    (h : requestBody (fun text => (parseInt text).map .int) form = some body) :
    ∀ entry ∈ body, entry.2.encodable = true := by
  obtain ⟨du, dq, code, q, price, hdu, hdq, -, hq, hprice, rfl⟩ := requestBody_eq_some.mp h
  obtain ⟨u, hu, rfl⟩ := Option.map_eq_some_iff.mp hprice
  obtain ⟨s, m, rfl, hmu, rfl⟩ := parseDouble_of_parseInt ((parseInt_trim _).symm.trans hu) hdu
  obtain ⟨t, n, rfl, hnq, rfl⟩ := parseDouble_of_parseInt ((parseInt_trim _).symm.trans hq) hdq
  have htotal := @isSome_toRat_mul_round s t m n hmu.lt hnq.lt
  simpa [JsonValue.encodable] using htotal

theorem onTapAddProductButton_eq_threw {form : ProductForm} :
    onTapAddProductButton form = .threw ↔ form.Filled ∧ ¬ form.NumbersParse := by
  have hvalid : [
      required "Please enter product name" form.productName,
      required "Please Enter Product Code" form.productCode,
      required "Please Enter Quantity" form.quantity,
      required "Please Enter Unit Price" form.unitPrice,
      required "Please Enter Image Url" form.imageUrl].reduceOption = [] ↔ form.Filled := by
    rw [List.reduceOption, List.filterMap_eq_nil_iff]
    simp [ProductForm.Filled, required_eq_none]
  have hparse : (requestBody (fun text => (parseInt text).map JsonValue.int) form).isSome ↔
      form.NumbersParse := by
    rw [isSome_requestBody, Option.isSome_map]
    exact ⟨fun ⟨h₁, h₂, h₃, h₄, h₅⟩ => ⟨h₁, h₂, h₃, h₄, h₅⟩,
      fun ⟨h₁, h₂, h₃, h₄, h₅⟩ => ⟨h₁, h₂, h₃, h₄, h₅⟩⟩
  rw [onTapAddProductButton, submit_eq_threw, hvalid, ← hparse]
  refine and_congr_right fun _ => ?_
  constructor
  · intro h hsome
    obtain ⟨body, hbody⟩ := Option.isSome_iff_exists.mp hsome
    obtain ⟨entry, hentry, hnot⟩ := h body hbody
    rw [encodable_of_requestBody hbody entry hentry] at hnot
    cases hnot
  · intro h body hbody
    exact (h (by rw [hbody]; rfl)).elim

theorem begins_add_iff (form : ProductForm) :
    addHandler.begins form ≠ .ended false ↔ (form.Filled → form.NumbersParse) := by
  have hthrew : addHandler.begins form = .ended false ↔ onTapAddProductButton form = .threw := by
    simp only [addHandler]
    cases onTapAddProductButton form <;> simp
  rw [ne_eq, hthrew, onTapAddProductButton_eq_threw, not_and, not_not]

theorem begins_update (form : ProductForm) : updateHandler.begins form ≠ .ended false := by
  simp only [updateHandler]
  cases updateProduct form <;> simp

/--
The flags over whole runs, with any overlap of calls: which texts and responses release them, for
the three handlers without a `finally` block. The fourth flag is always released.
-/
theorem along_flags_released_iff (adds updates : List (Event ProductForm HttpReply))
    (lists deletes : List (Event Unit HttpReply)) :
    (Along addHandler.step addHandler.Released idle adds ↔
      Along addHandler.step (Lowered (fun form => form.Filled → form.NumbersParse) AddReadable)
        idle adds) ∧
    (Along listHandler.step listHandler.Released idle lists ↔
      Along listHandler.step (Lowered (fun _ => True) ListReadable) idle lists) ∧
    (Along deleteHandler.step deleteHandler.Released idle deletes ↔
      Along deleteHandler.step (Lowered (fun _ => True) DeleteReadable) idle deletes) ∧
    Along updateHandler.step updateHandler.Released idle updates := by
  have hwaits : Begun.waiting ≠ .ended false ↔ True := by simp
  exact ⟨along_released_iff begins_add_iff addAnswered_isSome,
    along_released_iff (fun _ => hwaits) listAnswered_isSome,
    along_released_iff (fun _ => hwaits) deleteAnswered_isSome,
    along_released begins_update (fun _ => rfl) updates⟩

def halfQuantity : ProductForm := ⟨"Kola", "83468236", "2.5", "8", "kola.com"⟩

/-- A quantity that only `double.parse` reads, and a delete without a network: both flags stay. -/
theorem flags_not_released :
    ¬ Along addHandler.step addHandler.Released idle [.call halfQuantity] ∧
      ¬ Along deleteHandler.step deleteHandler.Released idle [.call (), .answer .exception] := by
  have hthrew : addHandler.begins halfQuantity = .ended false := by decide
  constructor
  · intro h
    have hstep : addHandler.step idle (.call halfQuantity) = some ⟨true, 0⟩ := by
      simp only [Handler.step, hthrew]
      rfl
    exact absurd ((h _ hstep).1 ⟨false, hthrew⟩ rfl) (by decide)
  · intro h
    exact absurd (((h _ rfl).2 _ rfl).1 rfl) (by decide)

end FlutterPractice.Crud
