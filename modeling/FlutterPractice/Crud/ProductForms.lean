import FlutterPractice.Crud.ProductsModel
import FlutterPractice.Dart.Number

/-! # The product forms

`AddNewProductScreen` and `UpdateProductScreen` post a product from the texts
of five fields. They type the unit price differently, and both compute the
total price in doubles. A posted record reads back as what was typed exactly
when the unit price is an integer, and the doubles that are posted are exact.
-/

namespace FlutterPractice.Crud

open Dart Double

structure ProductForm where
  productName : String
  productCode : String
  quantity : String
  unitPrice : String
  imageUrl : String

/-- The validators of both forms: a field of nothing but white space gets the message. -/
def required (message value : String) : Option String :=
  if (trim value).isEmpty then some message else none

/-- How far a tap on the button gets. -/
inductive Attempt where
  | invalid (messages : List String)
  | threw
  | sent (body : JsonRecord)
  deriving DecidableEq

/-- The messages that `validate` shows, then the request unless preparing or encoding it throws. -/
def submit (validators : List (Option String)) (requestBody : Option JsonRecord) : Attempt :=
  if validators.reduceOption ≠ [] then .invalid validators.reduceOption
  else
    match requestBody with
    | none => .threw
    | some body => if body.all fun entry => entry.2.encodable then .sent body else .threw

/-- The request body of both forms, over the way the form reads the unit price. -/
def requestBody (parsePrice : String → Option JsonValue) (form : ProductForm) :
    Option JsonRecord := do
  let totalPrice := mul (← parseDouble form.unitPrice) (← parseDouble form.quantity)
  let code ← parseInt (trim form.productCode)
  let quantity ← parseInt (trim form.quantity)
  let unitPrice ← parsePrice (trim form.unitPrice)
  return [
    ("ProductName", .string (trim form.productName)),
    ("ProductCode", .int code),
    ("Img", .string (trim form.imageUrl)),
    ("Qty", .int quantity),
    ("UnitPrice", unitPrice),
    ("TotalPrice", .double totalPrice)]

/-- `AddNewProductScreen._onTapAddProductButton` -/
def onTapAddProductButton (form : ProductForm) : Attempt :=
  submit [
    required "Please enter product name" form.productName,
    required "Please Enter Product Code" form.productCode,
    required "Please Enter Quantity" form.quantity,
    required "Please Enter Unit Price" form.unitPrice,
    required "Please Enter Image Url" form.imageUrl]
  (requestBody (fun text => (parseInt text).map .int) form)

/-- `UpdateProductScreen._updateProduct` -/
def updateProduct (form : ProductForm) : Attempt :=
  submit [
    required "Enter product name" form.productName,
    required "Enter product code" form.productCode,
    required "Enter product quantity" form.quantity,
    required "Enter product unit price" form.unitPrice,
    required "Enter product image url" form.imageUrl]
  (requestBody (fun text => (parseDouble text).map .double) form)

/-- The record read back is accepted and carries what was typed. -/
def ReadsBack (form : ProductForm) (body : JsonRecord) : Prop :=
  ∀ id, ∃ product, ProductsModel.fromJson (readBack id body) = some product ∧
    product.id = id ∧
    product.name = trim form.productName ∧
    parseInt (trim form.productCode) = some product.code ∧
    product.image = some (trim form.imageUrl) ∧
    parseInt (trim form.quantity) = some product.quantity ∧
    parseDecimal form.unitPrice = some (product.unitPrice : ℚ) ∧
    product.totalPrice = product.unitPrice * product.quantity

/-- The unit price is an `int`, and so is the total price, which a double can hold. -/
def ExactTotal (unitPrice : Option ℚ) (quantity : Option ℤ) : Prop :=
  ∃ u q : ℤ, unitPrice = some (u : ℚ) ∧ quantity = some q ∧ IsInt64 u ∧ IsInt64 (u * q) ∧
    binary64.Represents |((u * q : ℤ) : ℚ)|

theorem submit_eq_sent {validators : List (Option String)} {request : Option JsonRecord}
    {body : JsonRecord} : submit validators request = .sent body ↔
      validators.reduceOption = [] ∧ request = some body ∧ ∀ entry ∈ body, entry.2.encodable := by
  unfold submit
  split
  · rename_i hv
    simp [hv]
  · rename_i hv
    cases request with
    | none => simp
    | some b =>
      simp only [not_not.mp hv, Option.some.injEq, true_and]
      constructor
      · intro h
        split at h
        · rename_i hall
          obtain rfl := Attempt.sent.inj h
          exact ⟨rfl, List.all_eq_true.mp hall⟩
        · cases h
      · rintro ⟨rfl, hall⟩
        rw [if_pos (List.all_eq_true.mpr hall)]

theorem requestBody_eq_some {parsePrice : String → Option JsonValue} {form : ProductForm}
    {body : JsonRecord} : requestBody parsePrice form = some body ↔
      ∃ du dq code q price, parseDouble form.unitPrice = some du ∧
        parseDouble form.quantity = some dq ∧ parseInt (trim form.productCode) = some code ∧
        parseInt (trim form.quantity) = some q ∧ parsePrice (trim form.unitPrice) = some price ∧
        body = [
          ("ProductName", .string (trim form.productName)), ("ProductCode", .int code),
          ("Img", .string (trim form.imageUrl)), ("Qty", .int q), ("UnitPrice", price),
          ("TotalPrice", .double (mul du dq))] := by
  simp only [requestBody, Option.bind_eq_bind, Option.bind_eq_some_iff, Option.pure_def,
    Option.some.injEq]
  constructor
  · rintro ⟨du, hdu, dq, hdq, code, hcode, q, hq, price, hprice, rfl⟩
    exact ⟨du, dq, code, q, price, hdu, hdq, hcode, hq, hprice, rfl⟩
  · rintro ⟨du, dq, code, q, price, hdu, hdq, hcode, hq, hprice, rfl⟩
    exact ⟨du, hdu, dq, hdq, code, hcode, q, hq, price, hprice, rfl⟩

theorem fromJson_readBack {id name image : String} {code q : ℤ} {price : JsonValue}
    {total : Double} :
    ProductsModel.fromJson (readBack id [
        ("ProductName", .string name), ("ProductCode", .int code), ("Img", .string image),
        ("Qty", .int q), ("UnitPrice", price), ("TotalPrice", .double total)]) =
      price.returned.asInt.bind fun u => (JsonValue.double total).returned.asInt.bind fun t =>
        some ⟨id, name, code, some image, q, u, t⟩ := rfl

theorem readsBack_iff {form : ProductForm} {code q : ℤ} {price : JsonValue} {total : Double}
    (hcode : parseInt (trim form.productCode) = some code)
    (hq : parseInt (trim form.quantity) = some q) :
    ReadsBack form [
        ("ProductName", .string (trim form.productName)), ("ProductCode", .int code),
        ("Img", .string (trim form.imageUrl)), ("Qty", .int q), ("UnitPrice", price),
        ("TotalPrice", .double total)] ↔
      ∃ u : ℤ, price.returned = .int u ∧ parseDecimal form.unitPrice = some (u : ℚ) ∧
        (JsonValue.double total).returned = .int (u * q) := by
  simp only [ReadsBack, fromJson_readBack, Option.bind_eq_some_iff, JsonValue.asInt_eq_some]
  constructor
  · intro h
    obtain ⟨product, ⟨u, hu, t, ht, hp⟩, -, -, -, -, -, hr, htotal⟩ := h ""
    obtain rfl := Option.some.inj hp
    exact ⟨u, hu, hr, htotal ▸ ht⟩
  · rintro ⟨u, hu, hr, ht⟩ id
    exact ⟨_, ⟨u, hu, _, ht, rfl⟩, rfl, rfl, hcode, rfl, hq, hr, rfl⟩

/-- Of two rounded integers, the product comes back as the product exactly when that is exact. -/
theorem returned_total_iff {s t : Bool} {m n : ℕ} (hm : IsInt64 (signedInt s m))
    (hn : IsInt64 (signedInt t n)) :
    (JsonValue.double (mul (round s m m.cast_nonneg) (round t n n.cast_nonneg))).returned =
        .int (signedInt s m * signedInt t n) ↔
      IsInt64 (signedInt s m * signedInt t n) ∧
        binary64.Represents |((signedInt s m * signedInt t n : ℤ) : ℚ)| := by
  rw [JsonValue.returned_double_eq_int, toRat_mul_round_iff hm.lt hn.lt, and_comm]

/-- A price that denotes an `int` comes back as that `int` exactly when a double can hold it. -/
theorem returned_price_iff {text : String} {d : Double} {u : ℤ} (hd : parseDouble text = some d)
    (hu : parseDecimal text = some (u : ℚ)) (hu64 : IsInt64 u) :
    (JsonValue.double d).returned = .int u ↔ binary64.Represents |(u : ℚ)| := by
  rw [JsonValue.returned_double_eq_int]
  rcases parseDouble_cases hd with ⟨hnone, -⟩ | ⟨negative, v, hv, hsome, rfl⟩
  · rw [hnone] at hu
    cases hu
  · have hsigned : signed negative v = u := Option.some.inj (hsome.symm.trans hu)
    have habs : |(u : ℚ)| = v := by rw [← hsigned, abs_signed negative hv]
    constructor
    · rintro ⟨hr, -⟩
      exact represents_of_toRat_round hv hr
    · intro hr
      rw [habs] at hr
      have hlt : v < 2 ^ 64 := by
        rw [← habs]
        have hnat : |(u : ℚ)| = (u.natAbs : ℚ) := by rw [Nat.cast_natAbs, Int.cast_abs]
        rw [hnat]
        exact_mod_cast hu64.natAbs_lt
      rw [round_eq_finite_of_lt hv hr hlt]
      exact ⟨congrArg some hsigned, hu64⟩

theorem onTapAddProductButton_readsBack_iff {form : ProductForm} {body : JsonRecord}
    (h : onTapAddProductButton form = .sent body) :
    ReadsBack form body ↔ ExactTotal (parseDecimal form.unitPrice)
      (parseInt (trim form.quantity)) := by
  obtain ⟨du, dq, code, q, price, hdu, hdq, hcode, hq, hprice, rfl⟩ :=
    requestBody_eq_some.mp (submit_eq_sent.mp h).2.1
  obtain ⟨u, hu, rfl⟩ := Option.map_eq_some_iff.mp hprice
  rw [parseInt_trim] at hu
  obtain ⟨s, m, rfl, hmu, rfl⟩ := parseDouble_of_parseInt hu hdu
  obtain ⟨t, n, rfl, hnq, rfl⟩ := parseDouble_of_parseInt ((parseInt_trim _).symm.trans hq) hdq
  rw [readsBack_iff hcode hq, parseDecimal_of_parseInt hu hdu, hq]
  constructor
  · rintro ⟨u, hu, -, ht⟩
    obtain rfl : signedInt s m = u := JsonValue.int.inj hu
    exact ⟨_, _, rfl, rfl, hmu, (returned_total_iff hmu hnq).mp ht⟩
  · rintro ⟨u, q, hu, hq, -, ht⟩
    obtain rfl : signedInt s m = u := by exact_mod_cast Option.some.inj hu
    obtain rfl := Option.some.inj hq
    exact ⟨_, rfl, rfl, (returned_total_iff hmu hnq).mpr ht⟩

theorem updateProduct_readsBack_iff {form : ProductForm} {body : JsonRecord}
    (h : updateProduct form = .sent body) :
    ReadsBack form body ↔
      ExactTotal (parseDecimal form.unitPrice) (parseInt (trim form.quantity)) ∧
        ∀ u ∈ parseDecimal form.unitPrice, binary64.Represents |u| := by
  obtain ⟨du, dq, code, q, price, hdu, hdq, hcode, hq, hprice, rfl⟩ :=
    requestBody_eq_some.mp (submit_eq_sent.mp h).2.1
  rw [parseDouble_trim, hdu] at hprice
  obtain rfl := Option.some.inj hprice
  obtain ⟨t, n, rfl, hnq, rfl⟩ := parseDouble_of_parseInt ((parseInt_trim _).symm.trans hq) hdq
  rw [readsBack_iff hcode hq, hq]
  constructor
  · rintro ⟨u, hu, hdecimal, ht⟩
    obtain ⟨hr, hu64⟩ := JsonValue.returned_double_eq_int.mp hu
    have hexact := (returned_price_iff hdu hdecimal hu64).mp hu
    obtain ⟨s, m, rfl, rfl⟩ := eq_round_of_toRat hr hu64
    refine ⟨⟨_, _, hdecimal, rfl, hu64, (returned_total_iff hu64 hnq).mp ht⟩, fun v hv => ?_⟩
    obtain rfl := Option.some.inj (hdecimal.symm.trans hv)
    exact hexact
  · rintro ⟨⟨u, q, hdecimal, hq, hu64, ht⟩, hexact⟩
    obtain rfl := Option.some.inj hq
    have hu := (returned_price_iff hdu hdecimal hu64).mpr (hexact _ hdecimal)
    obtain ⟨s, m, rfl, rfl⟩ := eq_round_of_toRat (JsonValue.returned_double_eq_int.mp hu).1 hu64
    exact ⟨_, hu, hdecimal, (returned_total_iff hu64 hnq).mpr ht⟩

/--
What the forms send reads back as typed exactly when the number typed as unit price is an integer
and its product with the quantity is an `int` that a double can hold, on the update form together
with the price itself.
-/
theorem sent_readsBack_iff (form : ProductForm) (body : JsonRecord) :
    (onTapAddProductButton form = .sent body →
      (ReadsBack form body ↔
        ExactTotal (parseDecimal form.unitPrice) (parseInt (trim form.quantity)))) ∧
    (updateProduct form = .sent body →
      (ReadsBack form body ↔
        ExactTotal (parseDecimal form.unitPrice) (parseInt (trim form.quantity)) ∧
          ∀ u ∈ parseDecimal form.unitPrice, binary64.Represents |u|)) :=
  ⟨onTapAddProductButton_readsBack_iff, updateProduct_readsBack_iff⟩

def wholePrice : ProductForm := ⟨"Kola", "83468236", "80", "8", "kola.com"⟩

theorem wholePrice_accepted :
    (∃ body, onTapAddProductButton wholePrice = .sent body ∧ ReadsBack wholePrice body) ∧
      ∃ body, updateProduct wholePrice = .sent body ∧ ReadsBack wholePrice body := by
  have hprice : splitSign (trimChars "8".toList) = (false, ['8']) := rfl
  have hquantity : splitSign (trimChars "80".toList) = (false, ['8', '0']) := rfl
  have hdouble := parseDouble_of_natural hprice rfl
  have hr8 : binary64.Represents |((8 : ℤ) : ℚ)| := ⟨8, 0, by decide, by decide, by norm_num⟩
  have hr : binary64.Represents |((signedInt false 8 * signedInt false 80 : ℤ) : ℚ)| :=
    ⟨640, 0, by decide, by decide, by norm_num [signedInt]⟩
  have htotal := (toRat_mul_round_iff (by decide) (by decide)).mpr hr
  have hdecimal : parseDecimal wholePrice.unitPrice = some ((8 : ℤ) : ℚ) :=
    parseDecimal_of_natural hprice rfl
  have height := (returned_price_iff hdouble hdecimal (by decide)).mpr hr8
  have hexact : ExactTotal (parseDecimal wholePrice.unitPrice)
      (parseInt (trim wholePrice.quantity)) :=
    ⟨8, 80, hdecimal, by decide, by decide, by decide, hr⟩
  have hadd : ∃ body, onTapAddProductButton wholePrice = .sent body := by
    refine ⟨_, submit_eq_sent.mpr ⟨by decide, requestBody_eq_some.mpr ⟨_, _, 83468236, 80, .int 8,
      hdouble, parseDouble_of_natural hquantity rfl, by decide, by decide, by decide, rfl⟩, ?_⟩⟩
    simpa [JsonValue.encodable] using congrArg Option.isSome htotal
  have hupdate : ∃ body, updateProduct wholePrice = .sent body := by
    refine ⟨_, submit_eq_sent.mpr ⟨by decide, requestBody_eq_some.mpr ⟨_, _, 83468236, 80,
      .double (.round false (8 : ℕ) (Nat.cast_nonneg _)), hdouble,
      parseDouble_of_natural hquantity rfl, by decide, by decide, ?_, rfl⟩, ?_⟩⟩
    · rw [parseDouble_trim]
      exact congrArg (Option.map JsonValue.double) hdouble
    · have hsome := congrArg Option.isSome (JsonValue.returned_double_eq_int.mp height).1
      simpa [JsonValue.encodable] using And.intro hsome (congrArg Option.isSome htotal)
  obtain ⟨body, hbody⟩ := hadd
  obtain ⟨body', hbody'⟩ := hupdate
  refine ⟨⟨body, hbody, ((sent_readsBack_iff wholePrice body).1 hbody).mpr hexact⟩,
    body', hbody', ((sent_readsBack_iff wholePrice body').2 hbody').mpr ⟨hexact, fun u hu => ?_⟩⟩
  obtain rfl := Option.some.inj (hdecimal.symm.trans hu)
  exact hr8

section FractionalPrice

def fractionalPrice : ProductForm := ⟨"Kola", "83468236", "80", "8.5", "kola.com"⟩

theorem parseDouble_price : parseDouble "8.5" = some (.round false (17 / 2) (by norm_num)) := by
  have hparse : parseDouble "8.5" = some (.round false (scaled 85 (-1)) (scaled_nonneg _ _)) := rfl
  have hvalue : scaled 85 (-1) = 17 / 2 := by norm_num [scaled]
  simp only [hparse, hvalue]

theorem toRat_price : (Double.round false (17 / 2) (by norm_num)).toRat = some (17 / 2) := by
  rw [round_eq_finite_of_lt _ ⟨17, -1, by decide, by decide, by norm_num⟩ (by norm_num)]
  rfl

theorem toRat_total : (mul (.round false (17 / 2) (by norm_num))
    (.round false (80 : ℕ) (Nat.cast_nonneg _))).toRat = some 680 := by
  have hr : Binary.Format.Represents binary64 (17 / 2 * (80 : ℕ)) :=
    ⟨680, 0, by decide, by decide, by norm_num⟩
  rw [round_eq_finite_of_lt _ ⟨17, -1, by decide, by decide, by norm_num⟩ (by norm_num),
    round_natCast_eq false (by decide) (Binary.Format.represents_natCast (by decide) (by decide)),
    mul, round_eq_finite_of_lt (by norm_num) hr (by norm_num)]
  norm_num [toRat, signed]

/-- The update form sends a unit price of 8.5, and the product list cannot read the record. -/
theorem fractionalPrice_rejected :
    ∃ body, updateProduct fractionalPrice = .sent body ∧ ¬ ReadsBack fractionalPrice body := by
  have hdigits : splitSign (trimChars "80".toList) = (false, ['8', '0']) := rfl
  have hquantity : parseDouble "80" = some (.round false (80 : ℕ) (Nat.cast_nonneg _)) :=
    parseDouble_of_natural hdigits rfl
  have hsent : ∃ body, updateProduct fractionalPrice = .sent body := by
    refine ⟨_, submit_eq_sent.mpr ⟨by decide, requestBody_eq_some.mpr ⟨_, _, 83468236, 80,
      .double (.round false (17 / 2) (by norm_num)),
      parseDouble_price, hquantity, by decide, by decide, ?_, rfl⟩, ?_⟩⟩
    · rw [parseDouble_trim, fractionalPrice, parseDouble_price]
      rfl
    · simpa [JsonValue.encodable, toRat_price] using congrArg Option.isSome toRat_total
  obtain ⟨body, hbody⟩ := hsent
  refine ⟨body, hbody, ?_⟩
  have hdecimal : parseDecimal "8.5" = some (scaled 85 (-1)) := rfl
  have hvalue : scaled 85 (-1) = 17 / 2 := by norm_num [scaled]
  rw [updateProduct_readsBack_iff hbody, fractionalPrice, hdecimal, hvalue]
  rintro ⟨⟨u, q, hu, -⟩, -⟩
  rw [Option.some.injEq] at hu
  have hodd : (17 : ℚ) = 2 * u := by rw [← hu]; norm_num
  have hodd : (17 : ℤ) = 2 * u := by exact_mod_cast hodd
  omega

end FractionalPrice

end FlutterPractice.Crud
