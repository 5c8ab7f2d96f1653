import FlutterPractice.Hisabi.Calls
import FlutterPractice.Sql.Like
import FlutterPractice.Sql.Select

/-! # The other queries of the helper

The search by name, the categories and their products, the count, and the value
of the inventory, which asks for a column that the table does not have.
-/

namespace FlutterPractice.Hisabi

open Dart Machine Sql

namespace Table

/-- `SELECT * FROM products WHERE productName LIKE ? ORDER BY productName ASC` -/
def searchProductsByName (T : Table) (query : String) : List Product :=
  (orderBy (·.productName) (T.rows.filter fun row =>
    like (anywhere query.toList) row.productName.toList)).map Row.toProduct

/-- `SELECT * FROM products WHERE category = ? ORDER BY productName ASC` -/
def getProductsByCategory (T : Table) (category : String) : List Product :=
  (orderBy (·.productName) (T.rows.filter fun row => row.category = category)).map Row.toProduct

/-- `SELECT DISTINCT category FROM products ORDER BY category ASC` -/
def getAllCategories (T : Table) : List String := distinct (·.category) T.rows

/-- `SELECT COUNT(*) FROM products` -/
def getProductCount (T : Table) : ℕ := T.rows.length

end Table

section Search

/-- The products whose names contain the text in any case, by name. -/
structure FindsByName (T : Table) (query : String) : Prop where
  perm : (T.searchProductsByName query).Perm ((T.rows.filter fun row =>
    ContainsIgnoreCase row.productName.toList query.toList).map Row.toProduct)
  ordered : (T.searchProductsByName query).Pairwise fun a b => a.productName ≤ b.productName

def named (name : String) : Table :=
  ⟨[{ (cola "42").toColumns with productName := name, id := 1 }], 1⟩

theorem valid_named (name : String) : (named name).Valid :=
  ⟨List.nodup_singleton _, List.nodup_singleton _,
    fun row hrow => by rw [List.mem_singleton.mp hrow]; exact le_refl _⟩

variable {T : Table} {query : String}

theorem toProduct_injective : Function.Injective Row.toProduct := by
  rintro ⟨c, id⟩ ⟨c', id'⟩ h
  obtain rfl : c = c' := congrArg Product.toColumns h
  obtain rfl : id = id' := Option.some.inj (congrArg Product.id h)
  rfl

theorem searchProductsByName_ordered (T : Table) (query : String) :
    (T.searchProductsByName query).Pairwise fun a b => a.productName ≤ b.productName :=
  List.pairwise_map.mpr (orderBy_pairwise _ _)

theorem findsByName_iff : FindsByName T query ↔ ∀ row ∈ T.rows,
    like (anywhere query.toList) row.productName.toList = true →
      ContainsIgnoreCase row.productName.toList query.toList := by
  constructor
  · rintro ⟨hperm, -⟩ row hrow hlike
    have hmem : row.toProduct ∈ T.searchProductsByName query :=
      List.mem_map_of_mem ((mem_orderBy _ _).mpr (List.mem_filter.mpr ⟨hrow, hlike⟩))
    obtain ⟨row', hrow', heq⟩ := List.mem_map.mp (hperm.subset hmem)
    obtain rfl := toProduct_injective heq
    exact of_decide_eq_true (List.mem_filter.mp hrow').2
  · intro h
    refine ⟨?_, searchProductsByName_ordered T query⟩
    have hfilter : T.rows.filter (fun row =>
          like (anywhere query.toList) row.productName.toList) =
        T.rows.filter fun row => ContainsIgnoreCase row.productName.toList query.toList := by
      apply List.filter_congr
      intro row hrow
      rw [Bool.eq_iff_iff, decide_eq_true_iff]
      exact ⟨h row hrow, like_anywhere_of_contains⟩
    rw [← hfilter]
    exact (orderBy_perm _ _).map _

/--
The search finds the products that contain the text iff no name matches the pattern without
containing it. It does so in every table iff the text has no wildcard.
-/
theorem findsByName_iff_no_wildcard (query : String) :
    (∀ T : Table, FindsByName T query ↔ ∀ row ∈ T.rows,
      like (anywhere query.toList) row.productName.toList = true →
        ContainsIgnoreCase row.productName.toList query.toList) ∧
    ((∀ T : Table, T.Valid → FindsByName T query) ↔ query.toList.any isWildcard = false) := by
  refine ⟨fun T => findsByName_iff, ?_⟩
  constructor
  · intro h
    by_contra hwildcard
    rw [Bool.not_eq_false] at hwildcard
    have hfinds := h _ (valid_named (String.ofList (instanceOf query.toList)))
    have hrow := findsByName_iff.mp hfinds _ (List.mem_singleton_self _)
    simp only [String.toList_ofList] at hrow
    exact not_contains_instanceOf hwildcard (hrow (like_anywhere_instanceOf _))
  · intro hwildcard T _
    exact findsByName_iff.mpr fun row _ => (like_anywhere_iff hwildcard).mp

/-- A search for "%" finds a product without a percent sign. -/
theorem not_findsByName_percent : ¬ FindsByName (named "Cola") "%" := by
  rw [findsByName_iff]
  decide +kernel

end Search

section Categories

variable (T : Table)

theorem getProductsByCategory_perm (category : String) :
    (T.getProductsByCategory category).Perm
      ((T.rows.filter fun row => row.category = category).map Row.toProduct) :=
  (orderBy_perm _ _).map _

theorem mem_getProductsByCategory {category : String} {product : Product} :
    product ∈ T.getProductsByCategory category ↔
      product ∈ T.rows.map Row.toProduct ∧ product.category = category := by
  rw [(getProductsByCategory_perm T category).mem_iff, List.mem_map, List.mem_map]
  constructor
  · rintro ⟨row, hrow, rfl⟩
    obtain ⟨hrow, hcategory⟩ := List.mem_filter.mp hrow
    exact ⟨⟨row, hrow, rfl⟩, of_decide_eq_true hcategory⟩
  · rintro ⟨⟨row, hrow, rfl⟩, hcategory⟩
    exact ⟨row, List.mem_filter.mpr ⟨hrow, decide_eq_true hcategory⟩, rfl⟩

theorem getAllProducts_perm : T.getAllProducts.Perm (T.rows.map Row.toProduct) :=
  List.Perm.map Row.toProduct (orderByDesc_perm (fun row : Row => row.createdAt) T.rows)

theorem flatMap_getProductsByCategory_perm :
    (T.getAllCategories.flatMap T.getProductsByCategory).Perm T.getAllProducts := by
  have hrows := (flatMap_distinct_perm (·.category) T.rows).map Row.toProduct
  rw [List.map_flatMap] at hrows
  refine List.Perm.trans ?_ (hrows.trans (getAllProducts_perm T).symm)
  exact List.Perm.flatMap_left _ fun c _ => getProductsByCategory_perm T c

theorem ne_nil_of_mem_getAllCategories {category : String} (h : category ∈ T.getAllCategories) :
    T.getProductsByCategory category ≠ [] := by
  obtain ⟨row, hrow, hcategory⟩ := (mem_distinct _ _).mp h
  exact List.ne_nil_of_mem
    ((mem_getProductsByCategory T).mpr ⟨List.mem_map_of_mem hrow, hcategory⟩)

/-- The categories are in order and not empty, and each product is in exactly one of them. -/
theorem categories_partition (T : Table) :
    T.getAllCategories.Nodup ∧ T.getAllCategories.Pairwise (· ≤ ·) ∧
      (∀ c ∈ T.getAllCategories, T.getProductsByCategory c ≠ []) ∧
      (T.getAllCategories.flatMap T.getProductsByCategory).Perm T.getAllProducts ∧
      (T.getAllCategories.map fun c => (T.getProductsByCategory c).length).sum =
        T.getProductCount ∧
      ∀ product ∈ T.getAllProducts,
        ∃! c, c ∈ T.getAllCategories ∧ product ∈ T.getProductsByCategory c := by
  refine ⟨distinct_nodup _ _, (distinct_pairwise _ _).imp le_of_lt,
    fun c => ne_nil_of_mem_getAllCategories T, flatMap_getProductsByCategory_perm T, ?_, ?_⟩
  · rw [← List.length_flatMap, (flatMap_getProductsByCategory_perm T).length_eq,
      (getAllProducts_perm T).length_eq, List.length_map, Table.getProductCount]
  · intro product hproduct
    have hmem := (getAllProducts_perm T).subset hproduct
    obtain ⟨row, hrow, rfl⟩ := List.mem_map.mp hmem
    refine ⟨row.category, ⟨(mem_distinct _ _).mpr ⟨row, hrow, rfl⟩, ?_⟩, ?_⟩
    · exact (mem_getProductsByCategory T).mpr ⟨hmem, rfl⟩
    · rintro c ⟨-, hc⟩
      exact ((mem_getProductsByCategory T).mp hc).2.symm

end Categories

section Inventory

def columns : List String :=
  ["id", "barcode", "productName", "buyPrice", "sellPrice", "category", "quantity", "description",
    "createdAt", "updatedAt"]

/-- The file, with the version that wrote it, 0 for none, and the table that it holds. -/
structure Database where
  version : ℕ
  columns : List String
  table : Table

namespace Database

def onCreate (version : ℕ) : Database := ⟨version, Hisabi.columns, .empty⟩

/-- `_onUpgrade`, which drops the table of an older version. -/
def onUpgrade (db : Database) (oldVersion newVersion : ℕ) : Database :=
  if oldVersion < 3 then onCreate newVersion else { db with version := newVersion }

/-- `openDatabase` with the version 3. -/
def openDatabase (db : Database) : Database :=
  if db.version = 0 then onCreate 3
  else if db.version < 3 then db.onUpgrade db.version 3
  else db

/-- A database that the app has opened, and whatever calls have run on it since. -/
inductive Reachable : Database → Prop

  | opened {old : Database} : old.version < 3 → Reachable old.openDatabase

  | reopened {db : Database} : Reachable db → Reachable db.openDatabase

  | ran {db : Database} {events : List StoreEvent} {s : Store} : Reachable db →
      exec Store.step ⟨db.table, []⟩ events = some s → Reachable { db with table := s.table }

end Database

inductive QueryError where
  | noSuchColumn (name : String)
  deriving DecidableEq

structure QueryFailure where
  context : String
  cause : QueryError
  deriving DecidableEq

/-- The number in a column, where it is finite. -/
def Row.number (row : Row) : String → Option ℚ
  | "id" => some row.id
  | "buyPrice" => row.buyPrice.toRat
  | "sellPrice" => row.sellPrice.toRat
  | "quantity" => some row.quantity
  | _ => none

/-- `SELECT SUM(a * b)`, which looks up the columns before it reads a row. -/
def sumOfProducts (columns : List String) (a b : String) (rows : List Row) :
    Except QueryError (Option (Option ℚ)) :=
  match [a, b].find? fun name => !columns.contains name with
  | some name => .error (.noSuchColumn name)
  | none => .ok (sum (rows.map fun row => (row.number a).bind fun x => (row.number b).map (x * ·)))

/-- `getTotalInventoryValue`, with the name of the price column. -/
def totalValue (price : String) (columns : List String) (T : Table) :
    Except QueryFailure (Option ℚ) :=
  match sumOfProducts columns price "quantity" T.rows with
  | .ok total => .ok (total.getD (some 0))
  | .error e => .error ⟨"Failed to get inventory value", e⟩

def Database.getTotalInventoryValue (db : Database) : Except QueryFailure (Option ℚ) :=
  totalValue "price" db.columns db.table

/-- The sum of a price of each row times its quantity, where the prices are finite. -/
def inventoryValue (price : Row → Double) (T : Table) : Option ℚ :=
  (T.rows.mapM fun row => (price row).toRat.map (· * (row.quantity : ℚ))).map List.sum

theorem Database.Reachable.columns {db : Database} (h : db.Reachable) :
    db.version = 3 ∧ db.columns = Hisabi.columns := by
  induction h with
  | @opened old hold =>
    rw [openDatabase]
    split
    · exact ⟨rfl, rfl⟩
    · rw [onUpgrade, if_pos hold]
      exact ⟨rfl, rfl⟩
  | @reopened db _ ih =>
    have hdb : db.openDatabase = db := by simp [openDatabase, ih.1]
    rwa [hdb]
  | ran _ _ ih => exact ih

theorem totalValue_of_mem {name : String} {price : Row → Double} (hname : name ∈ columns)
    (hprice : ∀ row : Row, row.number name = (price row).toRat) (T : Table) :
    totalValue name columns T = .ok (inventoryValue price T) := by
  have hquantity : "quantity" ∈ columns := by decide
  have hfind : [name, "quantity"].find? (fun name => !columns.contains name) = none := by
    simp [hname, hquantity]
  have hvalues : (fun row : Row => (row.number name).bind fun x =>
      (row.number "quantity").map (x * ·)) =
      fun row => (price row).toRat.map (· * (row.quantity : ℚ)) := by
    funext row
    rw [hprice]
    cases (price row).toRat <;> rfl
  rw [totalValue, sumOfProducts, hfind, hvalues]
  simp only [sum, List.map_eq_nil_iff]
  split
  · rename_i hrows
    rw [inventoryValue, hrows]
    rfl
  · rw [List.mapM_map]
    rfl

/--
However the database was opened and whatever has run on it since, the query asks for a column that
is not there, so it never returns the value of the inventory by any price.
-/
theorem getTotalInventoryValue_throws {db : Database} (h : db.Reachable) :
    db.getTotalInventoryValue =
        .error ⟨"Failed to get inventory value", .noSuchColumn "price"⟩ ∧
      ∀ price : Row → Double,
        db.getTotalInventoryValue ≠ .ok (inventoryValue price db.table) := by
  have herror : db.getTotalInventoryValue =
      .error ⟨"Failed to get inventory value", .noSuchColumn "price"⟩ := by
    rw [Database.getTotalInventoryValue, h.columns.2]
    rfl
  refine ⟨herror, fun price hok => ?_⟩
  rw [herror] at hok
  cases hok

def created : Database := Database.openDatabase ⟨0, [], .empty⟩

theorem getTotalInventoryValue_throws_created :
    created.getTotalInventoryValue =
        .error ⟨"Failed to get inventory value", .noSuchColumn "price"⟩ ∧
      ∀ price : Row → Double,
        created.getTotalInventoryValue ≠ .ok (inventoryValue price created.table) :=
  getTotalInventoryValue_throws (.opened (by decide))

/-- Not even for the empty table is it 0. -/
theorem getTotalInventoryValue_created_ne :
    created.getTotalInventoryValue ≠ .ok (some 0) ∧
      inventoryValue (·.sellPrice) created.table = some 0 := by
  constructor
  · rw [Database.getTotalInventoryValue]
    decide +kernel
  · rfl

end Inventory

end FlutterPractice.Hisabi
