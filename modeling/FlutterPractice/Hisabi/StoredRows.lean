import FlutterPractice.Dart.Iso8601
import FlutterPractice.Dart.Json
import FlutterPractice.Hisabi.Products
import FlutterPractice.Sql.Select

/-! # The rows as SQLite holds them

`Product.toMap` turns the times into texts, `ORDER BY createdAt DESC` compares
these, and `Product.fromMap` parses them. In the years 0 to 9999 the list of all
products is the one that the times themselves give.
-/

namespace FlutterPractice.Hisabi

open Dart Sql

structure StoredRow where
  id : ℤ
  barcode : String
  productName : String
  buyPrice : Double
  sellPrice : Double
  category : String
  quantity : ℤ
  description : String
  createdAt : String
  updatedAt : String
  deriving DecidableEq

namespace DateTime

/-- The texts have four digits for the year. -/
def HasFourDigitYear (t : DateTime) : Prop :=
  0 ≤ t ∧ (Fields.ofMicroseconds t.toNat).year ≤ 9999

def toIso8601String (t : DateTime) : String := Dart.toIso8601String t.toNat

variable {t u : ℤ}

theorem HasFourDigitYear.toIso8601String_lt_iff (ht : HasFourDigitYear t)
    (hu : HasFourDigitYear u) : toIso8601String t < toIso8601String u ↔ t < u := by
  rw [toIso8601String, toIso8601String, Dart.toIso8601String_lt_iff ht.2 hu.2]
  have ht0 : (0 : ℤ) ≤ t := ht.1
  have hu0 : (0 : ℤ) ≤ u := hu.1
  omega

theorem HasFourDigitYear.toIso8601String_le_iff (ht : HasFourDigitYear t)
    (hu : HasFourDigitYear u) : toIso8601String t ≤ toIso8601String u ↔ t ≤ u := by
  rw [← not_lt, hu.toIso8601String_lt_iff ht, not_lt]

theorem HasFourDigitYear.parseDateTime (ht : HasFourDigitYear t) :
    parseDateTime (toIso8601String t) = some t.toNat :=
  parseDateTime_toIso8601String ht.2

end DateTime

/-- `Product.toMap`, under the id that the row has. -/
def Row.toMap (row : Row) : StoredRow where
  id := row.id
  barcode := row.barcode
  productName := row.productName
  buyPrice := row.buyPrice
  sellPrice := row.sellPrice
  category := row.category
  quantity := row.quantity
  description := row.description
  createdAt := DateTime.toIso8601String row.createdAt
  updatedAt := DateTime.toIso8601String row.updatedAt

/-- `Product.fromMap`, which throws where a time does not parse. -/
def StoredRow.fromMap (row : StoredRow) : Option Product := do
  let createdAt ← parseDateTime row.createdAt
  let updatedAt ← parseDateTime row.updatedAt
  return {
    id := some row.id
    barcode := row.barcode
    productName := row.productName
    buyPrice := row.buyPrice
    sellPrice := row.sellPrice
    category := row.category
    quantity := row.quantity
    description := row.description
    createdAt := createdAt
    updatedAt := updatedAt }

/-- `SELECT * FROM products ORDER BY createdAt DESC` -/
def selectAllProducts (rows : List StoredRow) : List StoredRow := orderByDesc (·.createdAt) rows

def allProducts (rows : List StoredRow) : Option (List Product) :=
  (selectAllProducts rows).mapM StoredRow.fromMap

/-- Both times of the row are written with four digits for the year. -/
structure Row.Timely (row : Row) : Prop where
  createdAt : row.createdAt.HasFourDigitYear
  updatedAt : row.updatedAt.HasFourDigitYear

/-- A product of the rows whose `createdAt` is stored as a text of the years 0 to 9999. -/
def Written (rows : List StoredRow) (p : Product) : Prop :=
  DateTime.HasFourDigitYear p.createdAt ∧ ∃ row ∈ rows, row.fromMap = some p ∧
    row.createdAt = DateTime.toIso8601String p.createdAt

variable {row : Row} {rows : List Row} {T : Table}

theorem StoredRow.fromMap_id {row : StoredRow} {p : Product} (h : row.fromMap = some p) :
    p.id = some row.id := by
  obtain ⟨createdAt, -, h⟩ := Option.bind_eq_some_iff.mp h
  obtain ⟨updatedAt, -, h⟩ := Option.bind_eq_some_iff.mp h
  exact Option.some.inj h ▸ rfl

theorem Written.text {rows : List StoredRow} {row : StoredRow} {p : Product} (h : Written rows p)
    (hids : (rows.map (·.id)).Nodup) (hrow : row ∈ rows) (hp : row.fromMap = some p) :
    row.createdAt = DateTime.toIso8601String p.createdAt := by
  obtain ⟨-, row', hrow', hp', htext⟩ := h
  have hid : row.id = row'.id :=
    Option.some.inj ((StoredRow.fromMap_id hp).symm.trans (StoredRow.fromMap_id hp'))
  rwa [List.inj_on_of_nodup_map hids hrow hrow' hid]

theorem isSome_allProducts {rows : List StoredRow} :
    (allProducts rows).isSome ↔ ∀ row ∈ rows, row.fromMap.isSome := by
  have hperm : (selectAllProducts rows).Perm rows := orderByDesc_perm _ rows
  rw [allProducts, Json.isSome_mapM]
  constructor
  · exact fun h row hrow => h row (hperm.symm.subset hrow)
  · exact fun h row hrow => h row (hperm.subset hrow)

/-- The list holds the product of every row, and of two products the later one first. -/
theorem allProducts_spec {rows : List StoredRow} {products : List Product}
    (hids : (rows.map (·.id)).Nodup) (h : allProducts rows = some products) :
    (products.map some).Perm (rows.map StoredRow.fromMap) ∧
      products.Pairwise fun p q => Written rows p → Written rows q → q.createdAt ≤ p.createdAt := by
  have hperm : (selectAllProducts rows).Perm rows := orderByDesc_perm _ rows
  have hmap : (selectAllProducts rows).map StoredRow.fromMap = products.map some := by
    rw [← List.forall₂_eq_eq_eq, List.forall₂_map_left_iff, List.forall₂_map_right_iff]
    exact Json.mapM_eq_some.mp h
  refine ⟨hmap ▸ hperm.map _, ?_⟩
  have hordered : ((selectAllProducts rows).map StoredRow.fromMap).Pairwise fun a b =>
      ∀ p q, a = some p → b = some q → Written rows p → Written rows q →
        q.createdAt ≤ p.createdAt := by
    refine List.pairwise_map.mpr ((orderByDesc_pairwise _ rows).imp_of_mem ?_)
    intro a b ha hb hab p q hp hq hwp hwq
    rw [hwp.text hids (hperm.subset ha) hp, hwq.text hids (hperm.subset hb) hq] at hab
    exact (hwq.1.toIso8601String_le_iff hwp.1).mp hab
  rw [hmap] at hordered
  exact (List.pairwise_map.mp hordered).imp fun h => h _ _ rfl rfl

theorem Row.Timely.fromMap_toMap (h : row.Timely) : row.toMap.fromMap = some row.toProduct := by
  have hcreated := Int.toNat_of_nonneg h.createdAt.1
  have hupdated := Int.toNat_of_nonneg h.updatedAt.1
  simp only [StoredRow.fromMap, Row.toMap, h.createdAt.parseDateTime, h.updatedAt.parseDateTime,
    Option.bind_eq_bind, Option.bind_some, hcreated, hupdated]
  rfl

theorem selectAllProducts_toMap (h : ∀ row ∈ rows, row.Timely) :
    selectAllProducts (rows.map Row.toMap) =
      (orderByDesc (·.createdAt) rows).map Row.toMap := by
  symm
  apply List.map_mergeSort
  intro a ha b hb
  have hle := (h b hb).createdAt.toIso8601String_le_iff (h a ha).createdAt
  exact decide_eq_decide.mpr hle.symm

theorem allProducts_toMap (h : ∀ row ∈ T.rows, row.Timely) :
    allProducts (T.rows.map Row.toMap) = some T.getAllProducts := by
  rw [allProducts, selectAllProducts_toMap h, Json.mapM_eq_some, Table.getAllProducts,
    List.forall₂_map_left_iff, List.forall₂_map_right_iff]
  refine List.forall₂_same.mpr fun row hrow => ?_
  exact (h row ((orderByDesc_perm _ _).subset hrow)).fromMap_toMap

section Inserts

/-- Inserts one after the other; a rejected one has no effect. -/
def Table.insertAll (T : Table) (products : List Product) : Table :=
  products.foldl (fun T p =>
    match T.insert p with
    | .ok (T', _) => T'
    | .error _ => T) T

theorem Table.rows_insertAll (T : Table) (products : List Product) : ∃ rows,
    (T.insertAll products).rows = T.rows ++ rows ∧
      (rows.map (·.toColumns)).Sublist (products.map (·.toColumns)) := by
  induction products generalizing T with
  | nil => exact ⟨[], (List.append_nil _).symm, List.Sublist.refl _⟩
  | cons p products ih =>
    have hcons : T.insertAll (p :: products) =
        (match T.insert p with
          | .ok (T', _) => T'
          | .error _ => T).insertAll products := rfl
    rw [hcons]
    cases hinsert : T.insert p with
    | error e =>
      obtain ⟨rows, hrows, hsub⟩ := ih T
      exact ⟨rows, hrows, hsub.cons _⟩
    | ok result =>
      obtain ⟨T', id⟩ := result
      obtain ⟨rfl, -, -, -⟩ := insert_eq_ok hinsert
      obtain ⟨rows, hrows, hsub⟩ := ih ⟨T.rows ++ [{ p.toColumns with id := id }], max T.seq id⟩
      refine ⟨{ p.toColumns with id := id } :: rows, ?_, hsub.cons_cons _⟩
      rw [hrows, List.append_assoc]
      rfl

end Inserts

/--
The list of a table, whatever its rows hold, throws only where a time does not parse, and of any two
products in it that were created at different times the later one comes first. Behind inserts with
increasing times the list is that of the rows from the last one on. And the times of a row are read
back.
-/
theorem allProducts_newest_first :
    (∀ rows : List StoredRow, (rows.map (·.id)).Nodup →
      ((allProducts rows).isSome ↔ ∀ row ∈ rows, row.fromMap.isSome) ∧
      ∀ products, allProducts rows = some products →
        (products.map some).Perm (rows.map StoredRow.fromMap) ∧
          products.Pairwise fun p q => Written rows p → Written rows q →
            q.createdAt ≤ p.createdAt) ∧
    (∀ (T : Table) (products : List Product),
      (T.rows.map (·.createdAt) ++ products.map (·.createdAt)).Pairwise (· < ·) →
      (∀ row ∈ T.rows, row.Timely) →
      (∀ p ∈ products, p.createdAt.HasFourDigitYear ∧ p.updatedAt.HasFourDigitYear) →
      ∃ rows, (T.insertAll products).rows = T.rows ++ rows ∧
        (rows.map (·.toColumns)).Sublist (products.map (·.toColumns)) ∧
        allProducts ((T.insertAll products).rows.map Row.toMap) =
          some ((T.rows ++ rows).reverse.map Row.toProduct)) ∧
    ∀ row : Row, row.Timely → row.toMap.fromMap = some row.toProduct := by
  refine ⟨fun rows hids => ⟨isSome_allProducts, fun products h => allProducts_spec hids h⟩, ?_,
    fun row h => h.fromMap_toMap⟩
  · intro T products hincreasing htimely hproducts
    obtain ⟨rows, hrows, hsub⟩ := T.rows_insertAll products
    have hall : ∀ row ∈ (T.insertAll products).rows, row.Timely := by
      rw [hrows]
      intro row hrow
      rcases List.mem_append.mp hrow with hrow | hrow
      · exact htimely row hrow
      · obtain ⟨p, hp, hcolumns⟩ := List.mem_map.mp (hsub.subset (List.mem_map_of_mem hrow))
        obtain ⟨hcreated, hupdated⟩ := hproducts p hp
        exact ⟨by rwa [hcolumns] at hcreated, by rwa [hcolumns] at hupdated⟩
    have hpairwise : (T.insertAll products).rows.Pairwise fun a b =>
        a.createdAt < b.createdAt := by
      have hsublist : ((T.rows ++ rows).map (·.createdAt)).Sublist
          (T.rows.map (·.createdAt) ++ products.map (·.createdAt)) := by
        have hcreated := hsub.map fun c : Columns => c.createdAt
        rw [List.map_map, List.map_map] at hcreated
        rw [List.map_append]
        exact hcreated.append_left _
      rw [hrows]
      exact List.pairwise_map.mp (hincreasing.sublist hsublist)
    refine ⟨rows, hrows, hsub, ?_⟩
    rw [allProducts_toMap hall, ← hrows]
    exact congrArg (fun rows => some (List.map Row.toProduct rows))
      (orderByDesc_eq_reverse _ hpairwise)

end FlutterPractice.Hisabi
