import FlutterPractice.Dart.Text
import FlutterPractice.Hisabi.AddProduct

/-! # Editing a product without changes

The form stores trimmed texts, and opens with them when the product is edited.
Its validators look at the texts as they are typed, so they turn down in the
second form what trimming has emptied after the first one.
-/

namespace FlutterPractice.Hisabi

open Dart

/-- The texts that a submit must leave something of. -/
structure Controllers.NotBlank (c : Controllers) : Prop where
  productName : trim c.productName ≠ ""
  category : trim c.category ≠ ""
  description : trim c.description ≠ ""

/-- The form that the edit button of a row opens. -/
def openedFor (doubleToString : Double → String) (row : Row) (T : Table) : AddProductState :=
  .initState doubleToString (some row.toProduct) T

/-- The form is valid as it opens, and submitting it changes `updatedAt` of its row only. -/
def EditsNothing (doubleToString : Double → String) (row : Row) (T : Table) : Prop :=
  (openedFor doubleToString row T).controllers.validate = [] ∧
    ∀ clock : Clock, ((openedFor doubleToString row T).submitForm clock true).table.rows =
      T.rows.map (Table.write { row.toColumns with updatedAt := clock.written } row.id)

variable {doubleToString : Double → String} {s : AddProductState} {clock : Clock} {row : Row}
  {T : Table} {p : Product}

structure StoredBy (c : Controllers) (row : Row) : Prop where
  barcode : row.barcode = trim c.barcode
  productName : row.productName = trim c.productName
  category : row.category = trim c.category
  description : row.description = trim c.description
  quantity : IsInt64 row.quantity
  hasNull : row.hasNull = false

theorem length_of_updateProduct {T' : Table} {now : DateTime} {result : ℤ}
    (h : (Call.updateProduct p).write T now = .ok (T', result)) :
    T'.rows.length = T.rows.length := by
  cases hid : p.id with
  | none =>
    simp only [Call.write, hid] at h
    obtain ⟨rfl, -⟩ := Prod.mk.inj (Except.ok.inj h)
    rfl
  | some id =>
    simp only [Call.write, hid] at h
    rcases (Table.update_eq_ok h).2 with ⟨-, rfl⟩ | ⟨rfl, -⟩
    · rfl
    · exact List.length_map _

/-- A submit that adds a row has inserted it, since an update keeps the number of rows. -/
theorem storedBy_of_submitForm
    (h : (s.submitForm clock true).table.rows = s.table.rows ++ [row]) :
    StoredBy s.controllers row := by
  have hlength : (s.submitForm clock true).table.rows.length ≠ s.table.rows.length := by
    rw [h]
    simp
  rcases submitForm_table s clock true with hsame | ⟨-, -, p, result, hp, hrun⟩
  · exact absurd (congrArg (fun T => T.rows.length) hsame) hlength
  have hwrite := (Call.run_eq_ok.mp hrun).2
  rw [AddProductState.save] at hwrite
  split at hwrite
  · exact absurd (length_of_updateProduct hwrite) hlength
  · have hinsert : s.table.insert p = .ok ((s.submitForm clock true).table, result) := hwrite
    obtain ⟨htable, -, -, -⟩ := Table.insert_eq_ok hinsert
    obtain ⟨-, hlast⟩ := List.append_inj' (h.symm.trans (congrArg Table.rows htable)) rfl
    obtain rfl := List.singleton_inj.mp hlast
    have hnull := Table.hasNull_of_insert hinsert
    obtain ⟨buyPrice, sellPrice, quantity, -, -, hquantity, rfl⟩ := product_eq_some.mp hp
    exact ⟨rfl, rfl, rfl, rfl, isInt64_of_parseInt hquantity, hnull⟩

section Opened

-- The prices parse back from what the form shows of them.
variable (hbuy : parseDouble (doubleToString row.buyPrice) = some row.buyPrice)
  (hsell : parseDouble (doubleToString row.sellPrice) = some row.sellPrice)
include hbuy hsell

/-- The texts that a stored row has lost to trimming make the form invalid. -/
theorem validate_openedFor_iff {c : Controllers} (h : StoredBy c row) :
    (openedFor doubleToString row T).controllers.validate = [] ↔ c.NotBlank := by
  have hquantity := parseInt_toString h.quantity
  have htexts : (openedFor doubleToString row T).controllers =
      ⟨"", row.barcode, row.productName, doubleToString row.buyPrice,
        doubleToString row.sellPrice, row.category, toString row.quantity, row.description⟩ := rfl
  rw [Controllers.validate_eq_nil_iff, htexts]
  constructor
  · rintro ⟨hname, -, -, -, hcategory, hdescription⟩
    exact ⟨h.productName ▸ hname, h.category ▸ hcategory, h.description ▸ hdescription⟩
  · rintro ⟨hname, hcategory, hdescription⟩
    exact ⟨h.productName.symm ▸ hname,
      ⟨ne_empty_of_parseDouble hbuy, Option.isSome_of_eq_some hbuy⟩,
      ⟨ne_empty_of_parseDouble hsell, Option.isSome_of_eq_some hsell⟩,
      ⟨ne_empty_of_parseInt hquantity, Option.isSome_of_eq_some hquantity⟩,
      h.category.symm ▸ hcategory, h.description.symm ▸ hdescription⟩

theorem rows_submitForm_openedFor {c : Controllers} (h : StoredBy c row) (hT : T.Valid)
    (hrow : row ∈ T.rows)
    (hvalid : (openedFor doubleToString row T).controllers.validate = []) (clock : Clock) :
    ((openedFor doubleToString row T).submitForm clock true).table.rows =
      T.rows.map (Table.write { row.toColumns with updatedAt := clock.written } row.id) := by
  have hproduct : (openedFor doubleToString row T).product clock =
      some { row.toProduct with updatedAt := clock.updatedAt } := by
    refine product_eq_some.mpr ⟨row.buyPrice, row.sellPrice, row.quantity, hbuy, hsell,
      parseInt_toString h.quantity, ?_⟩
    have hbarcode : trim row.barcode = row.barcode := by rw [h.barcode, trim_trim]
    have hname : trim row.productName = row.productName := by rw [h.productName, trim_trim]
    have hcategory : trim row.category = row.category := by rw [h.category, trim_trim]
    have hdescription : trim row.description = row.description := by
      rw [h.description, trim_trim]
    simp [openedFor, AddProductState.initState, AddProductState.load, AddProductState.createdAt,
      Row.toProduct, hbarcode, hname, hcategory, hdescription]
  have hfree : ∀ other ∈ T.rows, other.barcode = row.barcode → other.id = row.id := by
    intro other hother hb
    rw [List.inj_on_of_nodup_map hT.barcodes hother hrow hb]
  exact submitForm_updateProduct (s := openedFor doubleToString row T) hvalid hproduct rfl rfl
    h.hasNull hfree

/--
An edit without changes of a row that the form has stored keeps the row, whatever else the table
has, exactly when trimming has left something of the name, the category and the description.
-/
theorem editsNothing_iff
    (hstored : (s.submitForm clock true).table.rows = s.table.rows ++ [row])
    (hT : T.Valid) (hrow : row ∈ T.rows) :
    EditsNothing doubleToString row T ↔ s.controllers.NotBlank := by
  have h := storedBy_of_submitForm hstored
  rw [EditsNothing, validate_openedFor_iff hbuy hsell h]
  refine and_iff_left_of_imp fun hblank => ?_
  exact rows_submitForm_openedFor hbuy hsell h hT hrow
    ((validate_openedFor_iff hbuy hsell h).mpr hblank)

end Opened

section Blank

def namedForm (productName : String) : AddProductState :=
  { AddProductState.initState showPrice none ⟨[], 0⟩ with
    controllers := ⟨"", "42", productName, "8.0", "8.0", "Food", "3", "A bottle"⟩ }

def namedRow (productName : String) : Row :=
  { (cola "42").toColumns with productName := productName, id := 1 }

/-- Spaces around a name are lost, and an edit without changes keeps what is left. -/
theorem editsNothing_iff_spaces :
    EditsNothing showPrice (namedRow "Cola") ⟨[namedRow "Cola"], 1⟩ ↔
      (namedForm " Cola ").controllers.NotBlank :=
  have hprice : parseDouble (showPrice eight) = some eight := by decide +kernel
  have hstored : ((namedForm " Cola ").submitForm ⟨0, 0, 0⟩ true).table.rows =
      [namedRow "Cola"] := by decide +kernel
  editsNothing_iff hprice hprice hstored
    ⟨List.nodup_singleton _, List.nodup_singleton _, by simp [namedRow]⟩
    (List.mem_singleton.mpr rfl)

/-- A name of one space is valid and stored as "", and the form with it is not valid. -/
theorem blank_not_editsNothing :
    (namedForm " ").controllers.validate = [] ∧
      ((namedForm " ").submitForm ⟨0, 0, 0⟩ true).table.rows = [namedRow ""] ∧
      ¬ EditsNothing showPrice (namedRow "") ⟨[namedRow ""], 1⟩ := by
  refine ⟨by decide +kernel, by decide +kernel, ?_⟩
  rintro ⟨hvalid, -⟩
  have hshown : (openedFor showPrice (namedRow "") ⟨[namedRow ""], 1⟩).controllers.validate =
      ["Please enter product name"] := by decide +kernel
  cases hshown.symm.trans hvalid

end Blank

end FlutterPractice.Hisabi
