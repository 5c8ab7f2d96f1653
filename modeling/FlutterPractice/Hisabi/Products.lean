import FlutterPractice.Dart.Double

/-! # The products table

`Product`, the `products` table that `_onCreate` declares, and the statements
that `DatabaseHelper` runs on it. A statement that breaks a constraint is
rejected without effect. Times are stored as values here; `Hisabi.StoredRows`
shows that their texts give the same list of products.
-/

namespace FlutterPractice.Hisabi

open Dart

/-- Microseconds of the wall clock. -/
abbrev DateTime := ℤ

structure Columns where
  barcode : String
  productName : String
  buyPrice : Double
  sellPrice : Double
  category : String
  quantity : ℤ
  description : String
  createdAt : DateTime
  updatedAt : DateTime
  deriving DecidableEq

structure Product extends Columns where
  id : Option ℤ
  deriving DecidableEq

structure Row extends Columns where
  id : ℤ
  deriving DecidableEq

def eight : Double :=
  .finite false ⟨8, by norm_num, 8, 0, by decide, by decide, by norm_num⟩

def cola (barcode : String) : Product where
  id := none
  barcode := barcode
  productName := "Cola"
  buyPrice := eight
  sellPrice := eight
  category := "Food"
  quantity := 3
  description := "A bottle"
  createdAt := 0
  updatedAt := 0

/-- `Product.fromMap` -/
def Row.toProduct (row : Row) : Product := { row with id := some row.id }

/-- The rows, and the largest id that `AUTOINCREMENT` has seen. -/
structure Table where
  rows : List Row
  seq : ℤ
  deriving DecidableEq

inductive SqlError where
  | notNull
  | uniqueBarcode
  | primaryKey
  deriving DecidableEq

/-- What the `catch` blocks of `DatabaseHelper` wrap: its own exceptions, or those of SQLite. -/
inductive Cause where
  | exception (message : String)
  | database (error : SqlError)
  deriving DecidableEq

structure Failure where
  context : String
  cause : Cause
  deriving DecidableEq

/-- SQLite stores a NaN as NULL. -/
def Columns.hasNull (c : Columns) : Bool := c.buyPrice = .nan || c.sellPrice = .nan

namespace Table

def empty : Table := ⟨[], 0⟩

/-- `INSERT INTO products` -/
def insert (T : Table) (p : Product) : Except SqlError (Table × ℤ) :=
  let id := p.id.getD (T.seq + 1)
  if p.hasNull then .error .notNull
  else if T.rows.any fun row => row.id = id then .error .primaryKey
  else if T.rows.any fun row => row.barcode = p.barcode then .error .uniqueBarcode
  else .ok (⟨T.rows ++ [{ p.toColumns with id := id }], max T.seq id⟩, id)

def write (c : Columns) (id : ℤ) (row : Row) : Row :=
  if row.id = id then { c with id := id } else row

/-- `UPDATE products SET .. WHERE id = ?`, with the number of rows it changes. -/
def update (T : Table) (c : Columns) (id : ℤ) : Except SqlError (Table × ℤ) :=
  let hits := T.rows.countP fun row => row.id = id
  if hits = 0 then .ok (T, 0)
  else if c.hasNull then .error .notNull
  else if T.rows.any fun row => row.barcode = c.barcode && row.id ≠ id then .error .uniqueBarcode
  else .ok ({ T with rows := T.rows.map (write c id) }, hits)

/-- `DELETE FROM products WHERE id = ?` -/
def delete (T : Table) (id : ℤ) : Table × ℤ :=
  ({ T with rows := T.rows.filter fun row => row.id ≠ id }, T.rows.countP fun row => row.id = id)

/-- `DELETE FROM products` -/
def clear (T : Table) : Table × ℤ := ({ T with rows := [] }, T.rows.length)

def getProductById (T : Table) (id : ℤ) : Option Product :=
  (T.rows.find? fun row => row.id = id).map Row.toProduct

/-- `SELECT * FROM products ORDER BY createdAt DESC` -/
def getAllProducts (T : Table) : List Product :=
  (T.rows.mergeSort fun a b => b.createdAt ≤ a.createdAt).map Row.toProduct

/-- The constraints of the table, and what keeps `AUTOINCREMENT` ahead of its ids. -/
structure Valid (T : Table) : Prop where
  ids : (T.rows.map (·.id)).Nodup
  barcodes : (T.rows.map (·.barcode)).Nodup
  id_le : ∀ row ∈ T.rows, row.id ≤ T.seq

theorem valid_empty : Valid empty := ⟨List.nodup_nil, List.nodup_nil, fun _ h => by cases h⟩

variable {T T' : Table} {p : Product} {c : Columns} {id r : ℤ}

/-- The order of the list is a matter of the ids and the times of creation. -/
theorem map_id_getAllProducts (T : Table) :
    T.getAllProducts.map (·.id) =
      ((T.rows.map fun row => (row.id, row.createdAt)).mergeSort fun a b => b.2 ≤ a.2).map
        fun key => some key.1 := by
  have hsort := List.map_mergeSort (l := T.rows) (f := fun row => (row.id, row.createdAt))
    (r := fun a b => decide (b.createdAt ≤ a.createdAt)) (s := fun a b => decide (b.2 ≤ a.2))
    (fun _ _ _ _ => rfl)
  rw [← hsort, getAllProducts, List.map_map, List.map_map]
  rfl

theorem insert_eq_ok (h : T.insert p = .ok (T', r)) :
    T' = ⟨T.rows ++ [{ p.toColumns with id := r }], max T.seq r⟩ ∧
      r = p.id.getD (T.seq + 1) ∧ (∀ row ∈ T.rows, row.id ≠ r) ∧
      ∀ row ∈ T.rows, row.barcode ≠ p.barcode := by
  simp only [insert] at h
  split at h
  · cases h
  · split at h
    · cases h
    · split at h
      · cases h
      · rename_i hid hbarcode
        obtain ⟨rfl, rfl⟩ := Prod.mk.inj (Except.ok.inj h)
        exact ⟨rfl, rfl, by simpa using hid, by simpa using hbarcode⟩

theorem update_eq_ok (h : T.update c id = .ok (T', r)) :
    r = T.rows.countP (fun row => row.id = id) ∧
      (r = 0 ∧ T' = T ∨
        T' = { T with rows := T.rows.map (write c id) } ∧
        ∀ row ∈ T.rows, row.barcode = c.barcode → row.id = id) := by
  simp only [update] at h
  split at h
  · rename_i h0
    obtain ⟨rfl, rfl⟩ := Prod.mk.inj (Except.ok.inj h)
    exact ⟨by simp [h0], .inl ⟨rfl, rfl⟩⟩
  · split at h
    · cases h
    · split at h
      · cases h
      · rename_i hbarcode
        obtain ⟨rfl, rfl⟩ := Prod.mk.inj (Except.ok.inj h)
        exact ⟨rfl, .inr ⟨rfl, by simpa using hbarcode⟩⟩

theorem Valid.insert (h : T.Valid) (hT : T.insert p = .ok (T', r)) : T'.Valid := by
  obtain ⟨rfl, -, hid, hbarcode⟩ := insert_eq_ok hT
  refine ⟨?_, ?_, ?_⟩
  · rw [List.map_append, List.nodup_append]
    refine ⟨h.ids, List.nodup_singleton _, ?_⟩
    rintro i hi j hj rfl
    obtain ⟨row, hrow, rfl⟩ := List.mem_map.mp hi
    exact hid row hrow (List.mem_singleton.mp hj)
  · rw [List.map_append, List.nodup_append]
    refine ⟨h.barcodes, List.nodup_singleton _, ?_⟩
    rintro i hi j hj rfl
    obtain ⟨row, hrow, rfl⟩ := List.mem_map.mp hi
    exact hbarcode row hrow (List.mem_singleton.mp hj)
  · intro row hrow
    rcases List.mem_append.mp hrow with hrow | hrow
    · exact (h.id_le row hrow).trans (le_max_left _ _)
    · obtain rfl := List.mem_singleton.mp hrow
      exact le_max_right _ _

theorem map_id_write (c : Columns) (id : ℤ) (rows : List Row) :
    (rows.map (write c id)).map (·.id) = rows.map (·.id) := by
  rw [List.map_map]
  apply List.map_congr_left
  intro row _
  simp only [Function.comp, write]
  split
  · rename_i hid
    exact hid.symm
  · rfl

theorem Valid.update (h : T.Valid) (hT : T.update c id = .ok (T', r)) : T'.Valid := by
  obtain ⟨-, ⟨-, rfl⟩ | ⟨rfl, hbarcode⟩⟩ := update_eq_ok hT
  · exact h
  · refine ⟨?_, ?_, ?_⟩
    · rw [map_id_write]
      exact h.ids
    · have hids := List.pairwise_map.mp h.ids
      have hbarcodes := List.pairwise_map.mp h.barcodes
      rw [List.map_map]
      refine List.pairwise_map.mpr ((hids.and hbarcodes).imp_of_mem ?_)
      rintro a b ha hb ⟨hid, hne⟩
      simp only [Function.comp, write]
      split
      · rename_i hai
        split
        · rename_i hbi
          exact fun _ => hid (hai.trans hbi.symm)
        · rename_i hbi
          exact fun he => hbi (hbarcode b hb he.symm)
      · rename_i hai
        split
        · exact fun he => hai (hbarcode a ha he)
        · exact hne
    · intro row hrow
      have hmem : row.id ∈ (T.rows.map (write c id)).map (·.id) := List.mem_map_of_mem hrow
      rw [map_id_write] at hmem
      obtain ⟨row', hrow', he⟩ := List.mem_map.mp hmem
      exact he ▸ h.id_le row' hrow'

theorem Valid.delete (h : T.Valid) (id : ℤ) : (T.delete id).1.Valid :=
  ⟨h.ids.sublist (List.filter_sublist.map _), h.barcodes.sublist (List.filter_sublist.map _),
    fun row hrow => h.id_le row (List.mem_of_mem_filter hrow)⟩

theorem Valid.clear (_ : T.Valid) : T.clear.1.Valid :=
  ⟨List.nodup_nil, List.nodup_nil, fun _ h => by cases h⟩

end Table

end FlutterPractice.Hisabi
