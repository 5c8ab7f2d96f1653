import FlutterPractice.Dart.Number
import FlutterPractice.Hisabi.Calls

/-! # The product screen

`AddProductScreen` adds a product, or edits one that it was opened with or that
a search by id has loaded. An edit writes the `createdAt` of the product that
the screen was opened with, whichever product is loaded. While a search is in
flight the buttons are disabled, and so they are while a submit is, which is
why a submit is one event here.
-/

namespace FlutterPractice.Hisabi

open Dart Machine

structure Controllers where
  searchId : String
  barcode : String
  productName : String
  buyPrice : String
  sellPrice : String
  category : String
  quantity : String
  description : String
  deriving DecidableEq

inductive Field where
  | searchId
  | barcode
  | productName
  | buyPrice
  | sellPrice
  | category
  | quantity
  | description
  deriving DecidableEq

namespace Controllers

def clear : Controllers := ⟨"", "", "", "", "", "", "", ""⟩

def set (c : Controllers) (text : String) : Field → Controllers
  | .searchId => { c with searchId := text }
  | .barcode => { c with barcode := text }
  | .productName => { c with productName := text }
  | .buyPrice => { c with buyPrice := text }
  | .sellPrice => { c with sellPrice := text }
  | .category => { c with category := text }
  | .quantity => { c with quantity := text }
  | .description => { c with description := text }

/-- The validators of the form: a text must not be empty, and some texts must parse. -/
def validator (message : String) (invalid : Option (String × (String → Bool))) (value : String) :
    Option String :=
  if value.isEmpty then some message
  else invalid.bind fun check => if check.2 value then none else some check.1

def price (message value : String) : Option String :=
  validator message (some ("Invalid price", fun text => (parseDouble text).isSome)) value

/-- The form has two fields over the controller of the quantity. -/
def quantityField (c : Controllers) : Option String :=
  validator "Quantity required" (some ("Invalid qty", fun text => (parseInt text).isSome))
    c.quantity

def validate (c : Controllers) : List String :=
  List.reduceOption [
    validator "Please enter product name" none c.productName,
    price "Buy price required" c.buyPrice,
    price "Sell price required" c.sellPrice,
    c.quantityField,
    c.quantityField,
    validator "Please select or enter category" none c.category,
    validator "Please enter description" none c.description]

end Controllers

/-- A call whose statements run without others in between. -/
def Call.run (T : Table) (now : DateTime) (c : Call) : Except Failure (Table × ℤ) :=
  match c.check T with
  | .threw failure => .error failure
  | _ =>
    match c.write T now with
    | .ok result => .ok result
    | .error e => .error ⟨c.context, .database e⟩

/-- The fields of `_AddProductScreenState`, its search in flight, and the table. -/
structure AddProductState where
  productToEdit : Option Product
  controllers : Controllers
  isLoading : Bool
  isEditMode : Bool
  currentProductId : Option ℤ
  searching : Option ℤ
  closed : Bool
  table : Table
  deriving DecidableEq

/-- The readings of the clock in `_submitForm`, and the last one in `updateProduct`. -/
structure Clock where
  createdAt : DateTime
  updatedAt : DateTime
  written : DateTime
  deriving DecidableEq

/-- The flag `available` is false when the database throws for a reason of its own. -/
inductive AddProductEvent where
  | edit (field : Field) (text : String)
  | searchPressed
  | searchAnswered (available : Bool)
  | clearForm
  | submitForm (clock : Clock) (available : Bool)
  | close
  deriving DecidableEq

namespace AddProductState

/-- What `_checkForEditing` and `_searchProductById` do with a product. -/
def load (doubleToString : Double → String) (s : AddProductState) (product : Product) :
    AddProductState :=
  { s with
    isEditMode := true
    currentProductId := product.id
    controllers := { s.controllers with
      barcode := product.barcode
      productName := product.productName
      buyPrice := doubleToString product.buyPrice
      sellPrice := doubleToString product.sellPrice
      category := product.category
      quantity := toString product.quantity
      description := product.description } }

def initState (doubleToString : Double → String) (productToEdit : Option Product) (T : Table) :
    AddProductState :=
  let s : AddProductState := ⟨productToEdit, .clear, false, false, none, none, false, T⟩
  match productToEdit with
  | some product => s.load doubleToString product
  | none => s

/-- `_searchProductById` up to its query. -/
def searchProductById (s : AddProductState) (idStr : String) : AddProductState :=
  match parseInt idStr with
  | some id => { s with isLoading := true, searching := some id }
  | none => s

/-- `_searchProductById` from the answer of its query on. -/
def onFound (doubleToString : Double → String) (s : AddProductState) (id : ℤ) (available : Bool) :
    AddProductState :=
  let s := { s with isLoading := false, searching := none }
  if available then
    match s.table.getProductById id with
    | some product => s.load doubleToString product
    | none => s
  else s

/-- What the form writes as `createdAt`. -/
def createdAt (s : AddProductState) (now : DateTime) : DateTime :=
  if s.isEditMode then (s.productToEdit.map fun product => product.createdAt).getD now else now

/-- The product of `_submitForm`, where its texts parse. -/
def product (s : AddProductState) (clock : Clock) : Option Product := do
  let buyPrice ← parseDouble s.controllers.buyPrice
  let sellPrice ← parseDouble s.controllers.sellPrice
  let quantity ← parseInt s.controllers.quantity
  return {
    id := if s.isEditMode then s.currentProductId else none
    barcode := trim s.controllers.barcode
    productName := trim s.controllers.productName
    buyPrice := buyPrice
    sellPrice := sellPrice
    category := trim s.controllers.category
    quantity := quantity
    description := trim s.controllers.description
    createdAt := s.createdAt clock.createdAt
    updatedAt := clock.updatedAt }

/-- The call of the helper that saves a product. -/
def save (s : AddProductState) (product : Product) : Call :=
  if s.isEditMode && s.currentProductId.isSome then .updateProduct product
  else .insertProduct product

/-- A submit that succeeds pops the screen, and one that throws leaves it open. -/
def submitForm (s : AddProductState) (clock : Clock) (available : Bool) : AddProductState :=
  if s.controllers.validate ≠ [] then s
  else
    match s.product clock with
    | none => s
    | some product =>
      if available then
        match (s.save product).run s.table clock.written with
        | .ok (T, _) => { s with table := T, closed := true }
        | .error _ => s
      else s

def clearForm (s : AddProductState) : AddProductState :=
  { s with controllers := .clear, isEditMode := false, currentProductId := none }

/-- The search panel shows outside edit mode, and the cancel button in it. -/
def step (doubleToString : Double → String) (s : AddProductState) :
    AddProductEvent → Option AddProductState
  | .edit field text =>
    if s.closed || (s.isEditMode && field = .searchId) then none
    else some { s with controllers := s.controllers.set text field }
  | .searchPressed =>
    if s.closed || s.isLoading || s.isEditMode then none
    else if s.controllers.searchId.isEmpty then some s
    else some (s.searchProductById (trim s.controllers.searchId))
  | .searchAnswered available =>
    if s.closed then none else s.searching.map fun id => s.onFound doubleToString id available
  | .clearForm =>
    if s.closed || s.isLoading || !s.isEditMode then none else some s.clearForm
  | .submitForm clock available =>
    if s.closed || s.isLoading then none else some (s.submitForm clock available)
  | .close => if s.closed then none else some { s with closed := true }

end AddProductState

/-- The form passes its validators, and its texts the constraints of the table. -/
structure Accepted (s : AddProductState) : Prop where
  validate : s.controllers.validate = []
  buyPrice : parseDouble s.controllers.buyPrice ≠ some .nan
  sellPrice : parseDouble s.controllers.sellPrice ≠ some .nan
  barcode : ∀ row ∈ s.table.rows, row.barcode = trim s.controllers.barcode →
    some row.id = s.currentProductId

/-- In edit mode no row but the current one changes, and every row keeps its id and `createdAt`. -/
def KeepsIdentity (s : AddProductState) (_ : AddProductEvent) (t : AddProductState) : Prop :=
  s.isEditMode = true →
    t.table.rows.filter (fun row => some row.id ≠ s.currentProductId) =
      s.table.rows.filter (fun row => some row.id ≠ s.currentProductId) ∧
    t.table.rows.map (fun row => (row.id, row.createdAt)) =
      s.table.rows.map fun row => (row.id, row.createdAt)

/--
An accepted submit in edit mode has a current id, and the row of that id was created when the
product that the screen was opened with was, or else at the very reading of the clock.
-/
def KnowsCreatedAt (s : AddProductState) (e : AddProductEvent) (_ : AddProductState) : Prop :=
  ∀ clock, e = .submitForm clock true → s.isEditMode = true → Accepted s →
    ∃ id, s.currentProductId = some id ∧ ∀ row ∈ s.table.rows, row.id = id →
      row.createdAt = (s.productToEdit.map fun product => product.createdAt).getD clock.createdAt

variable {doubleToString : Double → String} {s t : AddProductState} {e : AddProductEvent}
  {T T' : Table} {p : Product} {clock : Clock}

theorem Controllers.validator_eq_none_iff {message value : String}
    {invalid : Option (String × (String → Bool))} :
    validator message invalid value = none ↔
      value ≠ "" ∧ ∀ check ∈ invalid, check.2 value = true := by
  rw [validator]
  by_cases hempty : value = ""
  · simp [hempty]
  · cases invalid with
    | none => simp [hempty]
    | some check => simp [hempty]

theorem Controllers.validate_eq_nil_iff {c : Controllers} : c.validate = [] ↔
    c.productName ≠ "" ∧ (c.buyPrice ≠ "" ∧ (parseDouble c.buyPrice).isSome = true) ∧
      (c.sellPrice ≠ "" ∧ (parseDouble c.sellPrice).isSome = true) ∧
      (c.quantity ≠ "" ∧ (parseInt c.quantity).isSome = true) ∧
      c.category ≠ "" ∧ c.description ≠ "" := by
  simp only [validate, List.reduceOption, List.filterMap_eq_nil_iff, List.forall_mem_cons, id,
    price, quantityField, validator_eq_none_iff]
  simp

theorem product_eq_some : s.product clock = some p ↔ ∃ buyPrice sellPrice quantity,
    parseDouble s.controllers.buyPrice = some buyPrice ∧
    parseDouble s.controllers.sellPrice = some sellPrice ∧
    parseInt s.controllers.quantity = some quantity ∧ p =
      { id := if s.isEditMode then s.currentProductId else none
        barcode := trim s.controllers.barcode
        productName := trim s.controllers.productName
        buyPrice := buyPrice
        sellPrice := sellPrice
        category := trim s.controllers.category
        quantity := quantity
        description := trim s.controllers.description
        createdAt := s.createdAt clock.createdAt
        updatedAt := clock.updatedAt } := by
  simp only [AddProductState.product, Option.bind_eq_bind, Option.bind_eq_some_iff,
    Option.pure_def, Option.some.injEq, eq_comm (b := p)]
  grind

theorem product_of_validate (h : s.controllers.validate = []) (clock : Clock) :
    ∃ p, s.product clock = some p ∧ p.id = (if s.isEditMode then s.currentProductId else none) ∧
      p.barcode = trim s.controllers.barcode ∧ p.createdAt = s.createdAt clock.createdAt ∧
      parseDouble s.controllers.buyPrice = some p.buyPrice ∧
      parseDouble s.controllers.sellPrice = some p.sellPrice := by
  obtain ⟨-, ⟨-, hbuy⟩, ⟨-, hsell⟩, ⟨-, hquantity⟩, -, -⟩ := Controllers.validate_eq_nil_iff.mp h
  obtain ⟨buyPrice, hbuy⟩ := Option.isSome_iff_exists.mp hbuy
  obtain ⟨sellPrice, hsell⟩ := Option.isSome_iff_exists.mp hsell
  obtain ⟨quantity, hquantity⟩ := Option.isSome_iff_exists.mp hquantity
  exact ⟨_, product_eq_some.mpr ⟨buyPrice, sellPrice, quantity, hbuy, hsell, hquantity, rfl⟩,
    rfl, rfl, rfl, hbuy, hsell⟩

theorem Call.run_eq_ok {c : Call} {now : DateTime} {result : Table × ℤ} :
    c.run T now = .ok result ↔
      (∀ failure, c.check T ≠ .threw failure) ∧ c.write T now = .ok result := by
  unfold run
  split
  · rename_i failure hc
    simp [hc]
  · rename_i hc
    have hc : ∀ failure, c.check T ≠ .threw failure := hc
    split
    · rename_i hw
      simp [hw, hc]
    · rename_i hw
      simp [hw]

@[simp] theorem searchProductById_table (s : AddProductState) (idStr : String) :
    (s.searchProductById idStr).table = s.table := by
  unfold AddProductState.searchProductById
  split <;> rfl

@[simp] theorem onFound_table (s : AddProductState) (id : ℤ) (available : Bool) :
    (s.onFound doubleToString id available).table = s.table := by
  unfold AddProductState.onFound
  dsimp only
  split
  · split <;> rfl
  · rfl

theorem submitForm_table (s : AddProductState) (clock : Clock) (available : Bool) :
    (s.submitForm clock available).table = s.table ∨
      available = true ∧ s.controllers.validate = [] ∧ ∃ p result, s.product clock = some p ∧
        (s.save p).run s.table clock.written =
          .ok ((s.submitForm clock available).table, result) := by
  by_cases hv : s.controllers.validate = []
  · obtain ⟨p, hp, -⟩ := product_of_validate hv clock
    cases available with
    | false => simp [AddProductState.submitForm, hv, hp]
    | true =>
      cases hrun : (s.save p).run s.table clock.written with
      | error failure => simp [AddProductState.submitForm, hv, hp, hrun]
      | ok result => exact .inr ⟨rfl, hv, p, result.2, hp, by
          simp [AddProductState.submitForm, hv, hp, hrun]⟩
  · simp [AddProductState.submitForm, hv]

theorem step_table (h : s.step doubleToString e = some t) :
    t.table = s.table ∨ ∃ clock available, e = .submitForm clock available ∧
      t = s.submitForm clock available := by
  cases e with
  | submitForm clock available =>
    obtain ⟨-, rfl⟩ : _ ∧ s.submitForm clock available = t := by
      simpa [AddProductState.step] using h
    exact .inr ⟨clock, available, rfl, rfl⟩
  | edit field text =>
    obtain ⟨-, h⟩ := Option.ite_none_left_eq_some.mp h
    obtain rfl := Option.some.inj h
    exact .inl rfl
  | searchPressed =>
    obtain ⟨-, h⟩ := Option.ite_none_left_eq_some.mp h
    split at h <;> obtain rfl := Option.some.inj h
    · exact .inl rfl
    · exact .inl (searchProductById_table s _)
  | searchAnswered available =>
    obtain ⟨-, h⟩ := Option.ite_none_left_eq_some.mp h
    obtain ⟨id, -, rfl⟩ := Option.map_eq_some_iff.mp h
    exact .inl (onFound_table s id available)
  | clearForm =>
    obtain ⟨-, h⟩ := Option.ite_none_left_eq_some.mp h
    obtain rfl := Option.some.inj h
    exact .inl rfl
  | close =>
    obtain ⟨-, h⟩ := Option.ite_none_left_eq_some.mp h
    obtain rfl := Option.some.inj h
    exact .inl rfl

theorem save_eq_updateProduct {q : Product} (hp : s.product clock = some p)
    (h : s.controllers.validate = []) (hq : s.save p = .updateProduct q) : q.id ≠ none := by
  obtain ⟨p', hp', hid, -⟩ := product_of_validate h clock
  obtain rfl : p = p' := Option.some.inj (hp.symm.trans hp')
  simp only [AddProductState.save] at hq
  split at hq
  · rename_i hc
    obtain ⟨he, hsome⟩ := Bool.and_eq_true_iff.mp hc
    obtain rfl := Call.updateProduct.inj hq
    rw [hid, if_pos he]
    exact Option.isSome_iff_ne_none.mp hsome
  · cases hq

theorem valid_step (hT : s.table.Valid) (h : s.step doubleToString e = some t) :
    t.table.Valid := by
  rcases step_table h with ht | ⟨clock, available, -, rfl⟩
  · rwa [ht]
  · rcases submitForm_table s clock available with ht | ⟨-, hv, p, result, hp, hrun⟩
    · rwa [ht]
    · have hid : ∀ q, s.save p = .updateProduct q → q.id ≠ none :=
        fun q hq => save_eq_updateProduct hp hv hq
      exact (Call.write_spec hT hid (Call.run_eq_ok.mp hrun).2).1

theorem Table.insert_of_fits (hT : T.Valid) (hid : p.id = none) (hn : p.hasNull = false)
    (hb : ∀ row ∈ T.rows, row.barcode ≠ p.barcode) :
    T.insert p = .ok (⟨T.rows ++ [{ p.toColumns with id := T.seq + 1 }],
      max T.seq (T.seq + 1)⟩, T.seq + 1) := by
  have hfresh : ¬ ∃ row ∈ T.rows, row.id = T.seq + 1 := by
    rintro ⟨row, hrow, he⟩
    have hle := hT.id_le row hrow
    omega
  have hfree : ¬ ∃ row ∈ T.rows, row.barcode = p.barcode := by
    rintro ⟨row, hrow, he⟩
    exact hb row hrow he
  simp [insert, hid, hn, hfresh, hfree]

theorem Table.update_of_fits {c : Columns} {id : ℤ} (hn : c.hasNull = false)
    (hb : ∀ row ∈ T.rows, row.barcode = c.barcode → row.id = id) :
    T.update c id = .ok ({ T with rows := T.rows.map (write c id) },
      T.rows.countP fun row => row.id = id) := by
  by_cases h0 : T.rows.countP (fun row => row.id = id) = 0
  · simp [update, h0, map_write_of_countP_eq_zero h0]
  · have hfree : ¬ T.rows.any (fun row => row.barcode = c.barcode && row.id ≠ id) := by
      simpa using hb
    simp only [update, hn, if_neg h0, if_neg hfree]
    rfl

theorem Table.hasNull_of_insert {r : ℤ} (h : T.insert p = .ok (T', r)) : p.hasNull = false := by
  by_contra hn
  rw [Bool.not_eq_false] at hn
  simp [insert, hn] at h

theorem Table.hasNull_of_update {c : Columns} {id r : ℤ} (hn : c.hasNull = true)
    (h : T.update c id = .ok (T', r)) : T' = T := by
  simp only [update, hn] at h
  split at h
  · exact (Prod.mk.inj (Except.ok.inj h)).1.symm
  · cases h

theorem save_of_none (hid : s.currentProductId = none) : s.save p = .insertProduct p := by
  simp [AddProductState.save, hid]

theorem submitForm_updateProduct {id : ℤ} (hvalid : s.controllers.validate = [])
    (hp : s.product clock = some p) (hsave : s.save p = .updateProduct p) (hid : p.id = some id)
    (hnull : p.hasNull = false)
    (hfree : ∀ row ∈ s.table.rows, row.barcode = p.barcode → row.id = id) :
    (s.submitForm clock true).table.rows =
      s.table.rows.map (Table.write { p.toColumns with updatedAt := clock.written } id) := by
  have hcheck : (Call.updateProduct p).check s.table = .checked := by
    have hother : ¬ ∃ row ∈ s.table.rows, row.barcode = p.barcode ∧ ¬ row.id = id := by
      rintro ⟨row, hrow, hb, hne⟩
      exact hne (hfree row hrow hb)
    simp [Call.check, hid, hother]
  have hwrite := Table.update_of_fits (c := { p.toColumns with updatedAt := clock.written })
    hnull hfree
  simp [AddProductState.submitForm, hvalid, hp, hsave, Call.run, hcheck, Call.write, hid, hwrite]

section Submit

variable (he : s.isEditMode = true)
include he

theorem save_of_some {id : ℤ} (hid : s.currentProductId = some id) :
    s.save p = .updateProduct p := by
  simp [AddProductState.save, he, hid]

theorem product_of_accepted (ha : Accepted s) (clock : Clock) :
    ∃ p, s.product clock = some p ∧ p.id = s.currentProductId ∧ p.hasNull = false ∧
      p.createdAt =
        (s.productToEdit.map fun product => product.createdAt).getD clock.createdAt ∧
      ∀ row ∈ s.table.rows, row.barcode = p.barcode → some row.id = s.currentProductId := by
  obtain ⟨p, hp, hid, hbarcode, hcreated, hbuy, hsell⟩ := product_of_validate ha.validate clock
  refine ⟨p, hp, by rw [hid, if_pos he], ?_, by rw [hcreated, AddProductState.createdAt, if_pos he],
    by rw [hbarcode]; exact ha.barcode⟩
  have hnb : p.buyPrice ≠ .nan := fun hn => ha.buyPrice (hn ▸ hbuy)
  have hns : p.sellPrice ≠ .nan := fun hn => ha.sellPrice (hn ▸ hsell)
  simp [Columns.hasNull, hnb, hns]

theorem submitForm_rows {id : ℤ} (ha : Accepted s) (hid : s.currentProductId = some id)
    (clock : Clock) : ∃ c : Columns,
      c.createdAt =
        (s.productToEdit.map fun product => product.createdAt).getD clock.createdAt ∧
      (s.submitForm clock true).table.rows = s.table.rows.map (Table.write c id) := by
  obtain ⟨p, hp, hpid, hnull, hcreated, hbarcode⟩ := product_of_accepted he ha clock
  rw [hid] at hpid hbarcode
  exact ⟨{ p.toColumns with updatedAt := clock.written }, hcreated,
    submitForm_updateProduct ha.validate hp (save_of_some he hid) hpid hnull
      fun row hrow hb => Option.some.inj (hbarcode row hrow hb)⟩

theorem submitForm_rows_of_none (hT : s.table.Valid) (ha : Accepted s)
    (hid : s.currentProductId = none) (clock : Clock) :
    ∃ row, (s.submitForm clock true).table.rows = s.table.rows ++ [row] := by
  obtain ⟨p, hp, hpid, hnull, -, hbarcode⟩ := product_of_accepted he ha clock
  rw [hid] at hpid hbarcode
  have hb : ∀ row ∈ s.table.rows, row.barcode ≠ p.barcode :=
    fun row hrow hb => Option.some_ne_none _ (hbarcode row hrow hb)
  have hcheck : (Call.insertProduct p).check s.table = .checked := by
    have hfree : ¬ ∃ row ∈ s.table.rows, row.barcode = p.barcode := by
      rintro ⟨row, hrow, he⟩
      exact hb row hrow he
    simp [Call.check, hfree]
  have hwrite := Table.insert_of_fits hT hpid hnull hb
  refine ⟨{ p.toColumns with id := s.table.seq + 1 }, ?_⟩
  simp [AddProductState.submitForm, ha.validate, hp, save_of_none hid, Call.run, hcheck,
    Call.write, hwrite]

theorem submitForm_of_not_accepted {available : Bool} (ha : available = true → ¬ Accepted s) :
    (s.submitForm clock available).table = s.table := by
  rcases submitForm_table s clock available with ht | ⟨hav, hv, p, result, hp, hrun⟩
  · exact ht
  · obtain ⟨hcheck, hwrite⟩ := Call.run_eq_ok.mp hrun
    obtain ⟨p', hp', hid, hbarcode, -, hbuy, hsell⟩ := product_of_validate hv clock
    obtain rfl : p = p' := Option.some.inj (hp.symm.trans hp')
    rw [if_pos he] at hid
    have haccepted : p.hasNull = false →
        (∀ row ∈ s.table.rows, row.barcode = p.barcode → some row.id = s.currentProductId) →
          Accepted s := by
      intro hnull hfree
      simp only [Columns.hasNull, Bool.or_eq_false_iff, decide_eq_false_iff_not] at hnull
      refine ⟨hv, ?_, ?_, hbarcode ▸ hfree⟩
      · simpa [hbuy] using hnull.1
      · simpa [hsell] using hnull.2
    cases hcur : s.currentProductId with
    | none =>
      rw [save_of_none hcur] at hwrite
      obtain ⟨-, -, -, hfree⟩ := Table.insert_eq_ok hwrite
      refine (ha hav (haccepted (Table.hasNull_of_insert hwrite) ?_)).elim
      exact fun row hrow hb => (hfree row hrow hb).elim
    | some id =>
      rw [hcur] at hid
      rw [save_of_some he hcur] at hcheck hwrite
      simp only [Call.write, hid] at hwrite
      cases hnull : p.hasNull with
      | true =>
        exact Table.hasNull_of_update (c := { p.toColumns with updatedAt := clock.written })
          hnull hwrite
      | false =>
        refine (ha hav (haccepted hnull fun row hrow hb => ?_)).elim
        rw [hcur, Option.some.injEq]
        by_contra hne
        have hother : ∃ row ∈ s.table.rows, row.barcode = p.barcode ∧ ¬ row.id = id :=
          ⟨row, hrow, hb, hne⟩
        simp [Call.check, Call.fails, hid, hother] at hcheck

end Submit

theorem filter_map_write (c : Columns) (id : ℤ) (rows : List Row) :
    (rows.map (Table.write c id)).filter (fun row => some row.id ≠ some id) =
      rows.filter fun row => some row.id ≠ some id := by
  induction rows with
  | nil => rfl
  | cons row rows ih =>
    rw [List.map_cons, List.filter_cons, List.filter_cons, ih]
    by_cases hid : row.id = id <;> simp [Table.write, hid]

theorem map_createdAt_write_iff (c : Columns) (id : ℤ) (rows : List Row) :
    ((rows.map (Table.write c id)).map fun row => (row.id, row.createdAt)) =
        rows.map (fun row => (row.id, row.createdAt)) ↔
      ∀ row ∈ rows, row.id = id → row.createdAt = c.createdAt := by
  rw [List.map_map, List.map_inj_left]
  refine forall₂_congr fun row _ => ?_
  by_cases hid : row.id = id
  · simp [Table.write, hid, eq_comm]
  · simp [Table.write, hid]

theorem KeepsIdentity.of_table (h : t.table = s.table) : KeepsIdentity s e t :=
  fun _ => ⟨by rw [h], by rw [h]⟩

theorem keepsIdentity_iff (hT : s.table.Valid) (h : s.step doubleToString e = some t) :
    KeepsIdentity s e t ↔ KnowsCreatedAt s e t := by
  constructor
  · rintro hk clock rfl he ha
    obtain ⟨-, rfl⟩ : _ ∧ s.submitForm clock true = t := by
      simpa [AddProductState.step] using h
    obtain ⟨hother, hcreated⟩ := hk he
    cases hid : s.currentProductId with
    | none =>
      obtain ⟨row, hrows⟩ := submitForm_rows_of_none he hT ha hid clock
      have hlen := congrArg List.length hcreated
      simp [hrows] at hlen
    | some id =>
      obtain ⟨c, hc, hrows⟩ := submitForm_rows he ha hid clock
      rw [hrows, map_createdAt_write_iff, hc] at hcreated
      exact ⟨id, rfl, hcreated⟩
  · intro hk
    rcases step_table h with ht | ⟨clock, available, rfl, rfl⟩
    · exact .of_table ht
    · intro he
      by_cases ha : available = true ∧ Accepted s
      · obtain ⟨rfl, ha⟩ := ha
        obtain ⟨id, hid, hcreated⟩ := hk clock rfl he ha
        obtain ⟨c, hc, hrows⟩ := submitForm_rows he ha hid clock
        rw [hrows, hid, map_createdAt_write_iff, hc]
        exact ⟨filter_map_write c id _, hcreated⟩
      · exact KeepsIdentity.of_table (e := .submitForm clock available)
          (submitForm_of_not_accepted he (not_and.mp ha)) he

theorem KeepsIdentity.getAllProducts (h : KeepsIdentity s e t) (he : s.isEditMode = true) :
    t.table.getAllProducts.map (·.id) = s.table.getAllProducts.map (·.id) := by
  rw [Table.map_id_getAllProducts, Table.map_id_getAllProducts, (h he).2]

theorem initState_table (productToEdit : Option Product) (T : Table) :
    (AddProductState.initState doubleToString productToEdit T).table = T := by
  cases productToEdit <;> rfl

/--
Every edit of a run keeps the identity of the products exactly when each submit that is accepted
in edit mode has a current id, whose row was created when the form says so.
-/
theorem along_keepsIdentity_iff (doubleToString : Double → String)
    (productToEdit : Option Product) (es : List AddProductEvent) (hT : T.Valid) :
    Along (AddProductState.step doubleToString) KeepsIdentity
        (.initState doubleToString productToEdit T) es ↔
      Along (AddProductState.step doubleToString) KnowsCreatedAt
        (.initState doubleToString productToEdit T) es := by
  have hinit : (AddProductState.initState doubleToString productToEdit T).table.Valid := by
    rwa [initState_table]
  apply along_congr (I := fun s => s.table.Valid) hinit
  intro s e t hs ht
  exact ⟨keepsIdentity_iff hs ht, fun _ => valid_step hs ht⟩

section Opened

variable {id : ℤ}

/-- No search loads a product with another id. -/
def OnlyLoads (id : ℤ) (s : AddProductState) (e : AddProductEvent) (_ : AddProductState) : Prop :=
  ∀ id', e = .searchAnswered true → s.searching = some id' →
    (s.table.getProductById id').isSome → id' = id

/-- The screen edits the product that it was opened with, which was created when the table says. -/
structure Editing (p : Product) (s : AddProductState) : Prop where
  opened : s.productToEdit = some p
  current : s.isEditMode = true → s.currentProductId = p.id
  createdAt : ∀ row ∈ s.table.rows, some row.id = p.id → row.createdAt = p.createdAt

theorem getProductById_id {q : Product} (h : T.getProductById id = some q) : q.id = some id := by
  obtain ⟨row, hrow, rfl⟩ := Option.map_eq_some_iff.mp h
  simpa [Row.toProduct] using List.find?_some hrow

theorem submitForm_cases (s : AddProductState) (clock : Clock) (available : Bool) :
    s.submitForm clock available = s ∨ (s.submitForm clock available).closed = true := by
  unfold AddProductState.submitForm
  split
  · exact .inl rfl
  · split
    · exact .inl rfl
    · split
      · split
        · exact .inr rfl
        · exact .inl rfl
      · exact .inl rfl

theorem Editing.step (h : Editing p s) (hid : p.id = some id) (hl : OnlyLoads id s e t)
    (ht : s.step doubleToString e = some t) (hopen : t.closed = false) : Editing p t := by
  cases e with
  | edit field text =>
    obtain ⟨-, ht⟩ := Option.ite_none_left_eq_some.mp ht
    obtain rfl := Option.some.inj ht
    exact ⟨h.opened, h.current, h.createdAt⟩
  | searchPressed =>
    obtain ⟨-, ht⟩ := Option.ite_none_left_eq_some.mp ht
    split at ht <;> obtain rfl := Option.some.inj ht
    · exact h
    · unfold AddProductState.searchProductById
      split
      · exact ⟨h.opened, h.current, h.createdAt⟩
      · exact h
  | searchAnswered available =>
    obtain ⟨-, ht⟩ := Option.ite_none_left_eq_some.mp ht
    obtain ⟨id', hs, rfl⟩ := Option.map_eq_some_iff.mp ht
    unfold AddProductState.onFound
    dsimp only
    split
    · rename_i hav
      split
      · rename_i q hq
        obtain rfl : id' = id := hl id' (by rw [hav]) hs (by rw [hq]; rfl)
        exact ⟨h.opened, fun _ => (getProductById_id hq).trans hid.symm, h.createdAt⟩
      · exact ⟨h.opened, h.current, h.createdAt⟩
    · exact ⟨h.opened, h.current, h.createdAt⟩
  | clearForm =>
    obtain ⟨-, ht⟩ := Option.ite_none_left_eq_some.mp ht
    obtain rfl := Option.some.inj ht
    exact ⟨h.opened, fun he => (Bool.false_ne_true he).elim, h.createdAt⟩
  | submitForm clock available =>
    obtain ⟨-, ht⟩ := Option.ite_none_left_eq_some.mp ht
    obtain rfl := Option.some.inj ht
    rcases submitForm_cases s clock available with hs | hclosed
    · rwa [hs]
    · rw [hopen] at hclosed
      cases hclosed
  | close =>
    obtain ⟨-, ht⟩ := Option.ite_none_left_eq_some.mp ht
    obtain rfl := Option.some.inj ht
    cases hopen

theorem Editing.knowsCreatedAt (h : Editing p s) (hid : p.id = some id) : KnowsCreatedAt s e t := by
  rintro clock rfl he -
  refine ⟨id, (h.current he).trans hid, fun row hrow hrid => ?_⟩
  rw [h.opened, Option.map_some, Option.getD_some]
  exact h.createdAt row hrow (by rw [hrid, hid])

theorem closed_step (ht : s.step doubleToString e = some t) : s.closed = false := by
  by_contra hc
  rw [Bool.not_eq_false] at hc
  cases e <;> simp [AddProductState.step, hc] at ht

/-- Opened with a stored product, and loading no other, the screen keeps every identity. -/
theorem along_keepsIdentity_of_opened {es : List AddProductEvent} (hT : T.Valid)
    (hid : p.id = some id) (hp : ∀ row ∈ T.rows, row.id = id → row.createdAt = p.createdAt)
    (h : Along (AddProductState.step doubleToString) (OnlyLoads id)
      (.initState doubleToString (some p) T) es) :
    Along (AddProductState.step doubleToString) KeepsIdentity
      (.initState doubleToString (some p) T) es := by
  apply h.of_invariant (I := fun s => s.table.Valid ∧ (s.closed = false → Editing p s))
  · refine ⟨hT, fun _ => ⟨rfl, fun _ => rfl, fun row hrow hrid => hp row hrow ?_⟩⟩
    rwa [hid, Option.some.injEq] at hrid
  · rintro s e t ⟨hvalid, hediting⟩ hl ht
    have hs := hediting (closed_step ht)
    exact ⟨(keepsIdentity_iff hvalid ht).mpr (hs.knowsCreatedAt hid), valid_step hvalid ht,
      hs.step hid hl ht⟩

end Opened

section Edits

/-- The price 8.0 as the form shows it. -/
def showPrice (_ : Double) : String := "8.0"

/-- The table after `cola` was added at the time 0. -/
def oneCola : Table := ⟨[{ (cola "42").toColumns with id := 1 }], 1⟩

theorem oneCola_valid : oneCola.Valid :=
  ⟨List.nodup_singleton _, List.nodup_singleton _, by simp [oneCola]⟩

/-- Open the screen without a product and load the one with the id 1. -/
def loadOne : List AddProductEvent := [.edit .searchId "1", .searchPressed, .searchAnswered true]

def loadedOne : AddProductState where
  productToEdit := none
  controllers := ⟨"1", "42", "Cola", "8.0", "8.0", "Food", "3", "A bottle"⟩
  isLoading := false
  isEditMode := true
  currentProductId := some 1
  searching := none
  closed := false
  table := oneCola

theorem exec_loadOne : exec (AddProductState.step showPrice)
    (.initState showPrice none oneCola) loadOne = some loadedOne := by
  decide

theorem accepted_loadedOne : Accepted loadedOne := by
  have hparse : parseDouble "8.0" = some (.round false (scaled 80 (-1)) (scaled_nonneg _ _)) := rfl
  have hnan : parseDouble "8.0" ≠ some .nan := by
    rw [hparse, Double.round]
    split <;> simp
  exact ⟨by decide, hnan, hnan, by simp [loadedOne, oneCola]⟩

/-- The screen is opened with the product itself, and the submit keeps its `createdAt`. -/
theorem along_keepsIdentity_iff_opened :
    let p := { cola "42" with id := some 1 }
    Along (AddProductState.step showPrice) KeepsIdentity (.initState showPrice (some p) oneCola)
        [.submitForm ⟨50, 51, 52⟩ true] ↔
      Along (AddProductState.step showPrice) KnowsCreatedAt (.initState showPrice (some p) oneCola)
        [.submitForm ⟨50, 51, 52⟩ true] :=
  along_keepsIdentity_iff showPrice _ _ oneCola_valid

/-- Submitted as it was loaded, the product gets the time of the edit as its `createdAt`. -/
theorem loadOne_submit_not_keepsIdentity :
    ¬ Along (AddProductState.step showPrice) KeepsIdentity
      (.initState showPrice none oneCola) (loadOne ++ [.submitForm ⟨50, 51, 52⟩ true]) := by
  intro h
  have ht : loadedOne.step showPrice (.submitForm ⟨50, 51, 52⟩ true) =
      some (loadedOne.submitForm ⟨50, 51, 52⟩ true) := rfl
  obtain ⟨id, hid, hcreated⟩ := (keepsIdentity_iff oneCola_valid ht).mp (h.last exec_loadOne ht)
    _ rfl rfl accepted_loadedOne
  have hzero := hcreated { (cola "42").toColumns with id := 1 } (List.mem_singleton.mpr rfl)
    (Option.some.inj hid)
  exact absurd hzero (by decide)

end Edits

end FlutterPractice.Hisabi
