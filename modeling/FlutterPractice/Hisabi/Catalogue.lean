import FlutterPractice.Hisabi.Queries
import FlutterPractice.Sql.Keyed

/-! # The store as a map

What the database helper is for: a finite map from ids to products in which no
two products share a barcode. Each call that returns performs one operation on
the map, each call that throws is refused by it, and the queries read it.
-/

namespace FlutterPractice.Hisabi

open Dart Machine Sql

abbrev Catalogue := ℤ → Option Columns

namespace Catalogue

variable (m : Catalogue)

def Taken (barcode : String) (id : Option ℤ) : Prop :=
  ∃ other c, m other = some c ∧ some other ≠ id ∧ c.barcode = barcode

/-- The call returns a number and leaves another map. -/
inductive Performs : Call → ℤ → Catalogue → Prop
  | insertProduct {p : Product} {id : ℤ} (own : ∀ i, p.id = some i → i = id) (fresh : m id = none)
      (free : ¬ m.Taken p.barcode none) (full : p.hasNull = false) :
      Performs (.insertProduct p) id (Function.update m id (some p.toColumns))
  | updateProduct {p : Product} {id : ℤ} {now : DateTime} (hid : p.id = some id)
      (present : m id ≠ none) (free : ¬ m.Taken p.barcode (some id)) (full : p.hasNull = false) :
      Performs (.updateProduct p) 1
        (Function.update m id (some { p.toColumns with updatedAt := now }))
  | updateMissing {p : Product} {id : ℤ} (hid : p.id = some id) (absent : m id = none) :
      Performs (.updateProduct p) 0 m
  | deleteProduct {id : ℤ} (present : m id ≠ none) :
      Performs (.deleteProduct id) 1 (Function.update m id none)
  | deleteMissing {id : ℤ} (absent : m id = none) : Performs (.deleteProduct id) 0 m
  | clearAllProducts : Performs .clearAllProducts {id | m id ≠ none}.ncard fun _ => none

/-- Why a call throws, and what it throws: the check has seen the reason, or a constraint has. -/
inductive Refuses : Call → Failure → Prop
  | insertTaken {p : Product} (taken : m.Taken p.barcode none) : Refuses (.insertProduct p)
      ⟨"Failed to insert product", .exception "Product with this barcode already exists!"⟩
  | insertUnique {p : Product} (taken : m.Taken p.barcode none) :
      Refuses (.insertProduct p) ⟨"Failed to insert product", .database .uniqueBarcode⟩
  | insertId {p : Product} {id : ℤ} (hid : p.id = some id) (present : m id ≠ none) :
      Refuses (.insertProduct p) ⟨"Failed to insert product", .database .primaryKey⟩
  | insertNull {p : Product} (null : p.hasNull = true) :
      Refuses (.insertProduct p) ⟨"Failed to insert product", .database .notNull⟩
  | updateWithoutId {p : Product} (hid : p.id = none) : Refuses (.updateProduct p)
      ⟨"Failed to update product", .exception "Cannot update product without ID"⟩
  | updateTaken {p : Product} {id : ℤ} (hid : p.id = some id)
      (taken : m.Taken p.barcode (some id)) : Refuses (.updateProduct p)
      ⟨"Failed to update product", .exception "Another product with this barcode already exists!"⟩
  | updateUnique {p : Product} {id : ℤ} (hid : p.id = some id)
      (taken : m.Taken p.barcode (some id)) :
      Refuses (.updateProduct p) ⟨"Failed to update product", .database .uniqueBarcode⟩
  | updateNull {p : Product} {id : ℤ} (hid : p.id = some id) (present : m id ≠ none)
      (null : p.hasNull = true) :
      Refuses (.updateProduct p) ⟨"Failed to update product", .database .notNull⟩

inductive PerformsAll (m : Catalogue) : List (ℕ × Call × ℤ) → Catalogue → Prop
  | nil : PerformsAll m [] m
  | snoc {ws : List (ℕ × Call × ℤ)} {u v : Catalogue} {i : ℕ} {c : Call} {result : ℤ}
      (h : PerformsAll m ws u) (hc : u.Performs c result v) :
      PerformsAll m (ws ++ [(i, c, result)]) v

end Catalogue

namespace Table

/-- `SELECT * FROM products WHERE barcode = ?` -/
def getProductByBarcode (T : Table) (barcode : String) : Option Product :=
  (T.rows.find? fun row => row.barcode = barcode).map Row.toProduct

/-- `SELECT * FROM products WHERE quantity <= ? ORDER BY quantity ASC` -/
def getLowStockProducts (T : Table) (threshold : ℤ) : List Product :=
  (orderBy (·.quantity) (T.rows.filter fun row => row.quantity ≤ threshold)).map Row.toProduct

def catalogue (T : Table) : Catalogue := fun id =>
  (lookup Row.id T.rows id).map fun row => row.toColumns

structure Answers (T : Table) (m : Catalogue) : Prop where
  byId : ∀ id, T.getProductById id = (m id).map fun c => { c with id := some id }
  byBarcode : ∀ barcode p, T.getProductByBarcode barcode = some p ↔
    ∃ id, p.id = some id ∧ m id = some p.toColumns ∧ p.barcode = barcode
  all : ∀ p, p ∈ T.getAllProducts ↔ ∃ id, p.id = some id ∧ m id = some p.toColumns
  all_nodup : T.getAllProducts.Nodup
  all_ordered : T.getAllProducts.Pairwise fun a b => b.createdAt ≤ a.createdAt
  lowStock : ∀ threshold p, p ∈ T.getLowStockProducts threshold ↔
    p ∈ T.getAllProducts ∧ p.quantity ≤ threshold
  lowStock_nodup : ∀ threshold, (T.getLowStockProducts threshold).Nodup
  lowStock_ordered : ∀ threshold,
    (T.getLowStockProducts threshold).Pairwise fun a b => a.quantity ≤ b.quantity
  count : T.getProductCount = {id | m id ≠ none}.ncard

variable {T : Table} {p : Product} {id : ℤ}

theorem catalogue_eq_some {columns : Columns} (h : T.Valid) :
    T.catalogue id = some columns ↔ { columns with id := id } ∈ T.rows := by
  rw [catalogue, Option.map_eq_some_iff]
  constructor
  · rintro ⟨row, hrow, rfl⟩
    obtain ⟨hmem, rfl⟩ := mem_of_lookup_eq_some hrow
    exact hmem
  · intro hmem
    exact ⟨_, (lookup_eq_some_iff h.ids).mpr ⟨hmem, rfl⟩, rfl⟩

theorem catalogue_eq_none : T.catalogue id = none ↔ ∀ row ∈ T.rows, row.id ≠ id := by
  rw [catalogue, Option.map_eq_none_iff, lookup_eq_none_iff]

theorem taken_iff (h : T.Valid) {barcode : String} {current : Option ℤ} :
    T.catalogue.Taken barcode current ↔
      ∃ row ∈ T.rows, some row.id ≠ current ∧ row.barcode = barcode := by
  constructor
  · rintro ⟨other, columns, hc, hne, hbarcode⟩
    exact ⟨_, (catalogue_eq_some h).mp hc, hne, hbarcode⟩
  · rintro ⟨row, hrow, hne, hbarcode⟩
    exact ⟨row.id, row.toColumns, (catalogue_eq_some h).mpr hrow, hne, hbarcode⟩

theorem taken_of_any (h : T.Valid) {barcode : String}
    (hany : T.rows.any (fun row => row.barcode = barcode) = true) :
    T.catalogue.Taken barcode none := by
  obtain ⟨row, hrow, hbarcode⟩ := List.any_eq_true.mp hany
  exact (taken_iff h).mpr ⟨row, hrow, nofun, of_decide_eq_true hbarcode⟩

theorem taken_of_any_other (h : T.Valid) {barcode : String}
    (hany : T.rows.any (fun row => row.barcode = barcode && row.id ≠ id) = true) :
    T.catalogue.Taken barcode (some id) := by
  obtain ⟨row, hrow, hother⟩ := List.any_eq_true.mp hany
  obtain ⟨hbarcode, hne⟩ := Bool.and_eq_true_iff.mp hother
  refine (taken_iff h).mpr ⟨row, hrow, fun he => ?_, of_decide_eq_true hbarcode⟩
  exact of_decide_eq_true hne (Option.some.inj he)

theorem countP_eq_zero_iff :
    T.rows.countP (fun row => row.id = id) = 0 ↔ T.catalogue id = none := by
  rw [List.countP_eq_zero, catalogue_eq_none]
  simp

theorem countP_eq_one (h : T.Valid) (hid : T.catalogue id ≠ none) :
    T.rows.countP (fun row => row.id = id) = 1 := by
  have hle : T.rows.countP (fun row => row.id = id) ≤ 1 := h.countP_le_one id
  have hne : T.rows.countP (fun row => row.id = id) ≠ 0 := fun h0 => hid (countP_eq_zero_iff.mp h0)
  omega

theorem ncard_catalogue (h : T.Valid) : {id | T.catalogue id ≠ none}.ncard = T.rows.length := by
  rw [← ncard_lookup h.ids]
  congr 1
  ext id
  rw [Set.mem_ofPred_eq, Set.mem_ofPred_eq, catalogue, ne_eq, Option.map_eq_none_iff]

theorem catalogue_of_rows {rows : List Row} {seq : ℤ} {m : ℤ → Option Row}
    (h : lookup Row.id rows = m) :
    catalogue ⟨rows, seq⟩ = Option.map (fun row => row.toColumns) ∘ m := by
  rw [← h]
  rfl

theorem catalogue_append {p : Product} {seq : ℤ} (hid : ∀ row ∈ T.rows, row.id ≠ id) :
    catalogue ⟨T.rows ++ [{ p.toColumns with id := id }], seq⟩ =
      Function.update T.catalogue id (some p.toColumns) := by
  rw [catalogue_of_rows (lookup_append_singleton (lookup_eq_none_iff.mpr hid)),
    Function.comp_update]
  rfl

theorem catalogue_write {columns : Columns} (hid : T.catalogue id ≠ none) :
    catalogue { T with rows := T.rows.map (write columns id) } =
      Function.update T.catalogue id (some columns) := by
  have hsome : lookup Row.id T.rows id ≠ none := fun h => hid (Option.map_eq_none_iff.mpr h)
  let row : Row := { columns with id := id }
  have hrow : lookup Row.id (T.rows.map fun a => if a.id = id then row else a) = _ :=
    lookup_map_replace rfl
  rw [if_neg hsome] at hrow
  exact (catalogue_of_rows hrow).trans (Function.comp_update _ _ _ _)

theorem catalogue_filter :
    catalogue { T with rows := T.rows.filter fun row => row.id ≠ id } =
      Function.update T.catalogue id none := by
  rw [catalogue_of_rows lookup_filter_ne, Function.comp_update]
  rfl

theorem mem_map_toProduct {rows : List Row} :
    p ∈ rows.map Row.toProduct ↔ ∃ id, p.id = some id ∧ { p.toColumns with id := id } ∈ rows := by
  rw [List.mem_map]
  constructor
  · rintro ⟨row, hrow, rfl⟩
    exact ⟨row.id, rfl, hrow⟩
  · rintro ⟨id, hid, hrow⟩
    refine ⟨_, hrow, ?_⟩
    cases p
    cases hid
    rfl

theorem nodup_map_toProduct (h : T.Valid) {rows : List Row} (hrows : rows.Perm T.rows) :
    (rows.map Row.toProduct).Nodup :=
  ((hrows.nodup_iff.mpr h.ids.of_map).map toProduct_injective)

theorem getLowStockProducts_perm (threshold : ℤ) : (T.getLowStockProducts threshold).Perm
    ((T.rows.filter fun row => row.quantity ≤ threshold).map Row.toProduct) :=
  (orderBy_perm _ _).map _

theorem mem_getAllProducts (h : T.Valid) :
    p ∈ T.getAllProducts ↔ ∃ id, p.id = some id ∧ T.catalogue id = some p.toColumns := by
  rw [(getAllProducts_perm T).mem_iff, mem_map_toProduct]
  simp only [catalogue_eq_some h]

theorem mem_getLowStockProducts {threshold : ℤ} :
    p ∈ T.getLowStockProducts threshold ↔ p ∈ T.getAllProducts ∧ p.quantity ≤ threshold := by
  rw [(getLowStockProducts_perm threshold).mem_iff, (getAllProducts_perm T).mem_iff, List.mem_map,
    List.mem_map]
  constructor
  · rintro ⟨row, hrow, rfl⟩
    obtain ⟨hrow, hle⟩ := List.mem_filter.mp hrow
    exact ⟨⟨row, hrow, rfl⟩, of_decide_eq_true hle⟩
  · rintro ⟨⟨row, hrow, rfl⟩, hle⟩
    exact ⟨row, List.mem_filter.mpr ⟨hrow, decide_eq_true hle⟩, rfl⟩

theorem getProductByBarcode_eq_some (h : T.Valid) {barcode : String} :
    T.getProductByBarcode barcode = some p ↔
      ∃ id, p.id = some id ∧ T.catalogue id = some p.toColumns ∧ p.barcode = barcode := by
  -- The barcode is a key of the rows as well.
  have hlookup (row : Row) : (T.rows.find? fun row => row.barcode = barcode) = some row ↔
      row ∈ T.rows ∧ row.barcode = barcode :=
    lookup_eq_some_iff h.barcodes
  rw [getProductByBarcode, Option.map_eq_some_iff]
  constructor
  · rintro ⟨row, hrow, rfl⟩
    obtain ⟨hrow, hbarcode⟩ := (hlookup row).mp hrow
    exact ⟨row.id, rfl, (catalogue_eq_some h).mpr hrow, hbarcode⟩
  · rintro ⟨id, hid, hrow, hbarcode⟩
    refine ⟨_, (hlookup _).mpr ⟨(catalogue_eq_some h).mp hrow, hbarcode⟩, ?_⟩
    cases p
    cases hid
    rfl

theorem answers_catalogue (h : T.Valid) : T.Answers T.catalogue where
  byId id := by
    have hrow : T.getProductById id = (lookup Row.id T.rows id).map Row.toProduct := rfl
    rw [hrow, catalogue, Option.map_map]
    cases hlookup : lookup Row.id T.rows id with
    | none => rfl
    | some row =>
      obtain ⟨-, rfl⟩ := mem_of_lookup_eq_some hlookup
      rfl
  byBarcode barcode p := getProductByBarcode_eq_some h
  all p := mem_getAllProducts h
  all_nodup := nodup_map_toProduct h (List.mergeSort_perm _ _)
  all_ordered :=
    List.pairwise_map.mpr (orderByDesc_pairwise (fun row : Row => row.createdAt) T.rows)
  lowStock threshold p := mem_getLowStockProducts
  lowStock_nodup threshold := by
    rw [(getLowStockProducts_perm threshold).nodup_iff]
    exact (h.ids.of_map.filter _).map toProduct_injective
  lowStock_ordered threshold := List.pairwise_map.mpr (orderBy_pairwise _ _)
  count := (ncard_catalogue h).symm

end Table

section Writes

variable {T T' : Table} {p : Product} {c : Call} {id result : ℤ} {now : DateTime}

open Table

theorem Table.performs_insert (hT : T.Valid) (h : T.insert p = .ok (T', result)) :
    T.catalogue.Performs (.insertProduct p) result T'.catalogue := by
  have hfull : p.hasNull = false := by
    simp only [insert] at h
    split at h
    · cases h
    · rename_i hnull
      exact Bool.eq_false_iff.mpr hnull
  obtain ⟨rfl, hresult, hfresh, hbarcode⟩ := insert_eq_ok h
  rw [catalogue_append hfresh]
  refine .insertProduct (fun i hi => ?_) (catalogue_eq_none.mpr hfresh) (fun htaken => ?_) hfull
  · rw [hresult, hi, Option.getD_some]
  · obtain ⟨row, hrow, -, hrow'⟩ := (taken_iff hT).mp htaken
    exact hbarcode row hrow hrow'

theorem Table.performs_update (hT : T.Valid) (hid : p.id = some id)
    (h : T.update { p.toColumns with updatedAt := now } id = .ok (T', result)) :
    T.catalogue.Performs (.updateProduct p) result T'.catalogue := by
  by_cases habsent : T.catalogue id = none
  · have h0 := countP_eq_zero_iff.mpr habsent
    rw [update, if_pos h0] at h
    obtain ⟨rfl, rfl⟩ := Prod.mk.inj (Except.ok.inj h)
    exact .updateMissing hid habsent
  · have h1 := countP_eq_one hT habsent
    have hfull : p.hasNull = false := by
      rw [update, if_neg (by omega)] at h
      split at h
      · cases h
      · rename_i hnull
        exact Bool.eq_false_iff.mpr hnull
    obtain ⟨hresult, ⟨h0, -⟩ | ⟨rfl, hbarcode⟩⟩ := update_eq_ok h
    · omega
    · rw [hresult, h1, catalogue_write habsent]
      refine .updateProduct hid habsent (fun htaken => ?_) hfull
      obtain ⟨row, hrow, hne, hrow'⟩ := (taken_iff hT).mp htaken
      exact hne (congrArg some (hbarcode row hrow hrow'))

theorem Table.performs_delete (hT : T.Valid) :
    T.catalogue.Performs (.deleteProduct id) (T.delete id).2 (T.delete id).1.catalogue := by
  have hmap : (T.delete id).1.catalogue = Function.update T.catalogue id none := catalogue_filter
  have hresult : (T.delete id).2 = T.rows.countP fun row => row.id = id := rfl
  rw [hmap, hresult]
  by_cases habsent : T.catalogue id = none
  · rw [countP_eq_zero_iff.mpr habsent, ← habsent, Function.update_eq_self]
    exact .deleteMissing habsent
  · rw [countP_eq_one hT habsent]
    exact .deleteProduct habsent

theorem Call.performs (hT : T.Valid) (hid : ∀ p, c = .updateProduct p → p.id ≠ none)
    (hw : c.write T now = .ok (T', result)) : T.catalogue.Performs c result T'.catalogue := by
  cases c with
  | insertProduct p => exact performs_insert hT hw
  | updateProduct p =>
    obtain ⟨id, hp⟩ := Option.ne_none_iff_exists'.mp (hid p rfl)
    simp only [write, hp] at hw
    exact performs_update hT hp hw
  | deleteProduct id =>
    obtain ⟨rfl, rfl⟩ := Prod.mk.inj (Except.ok.inj hw)
    exact performs_delete hT
  | clearAllProducts =>
    obtain ⟨rfl, rfl⟩ := Prod.mk.inj (Except.ok.inj hw)
    rw [← ncard_catalogue hT]
    exact .clearAllProducts

theorem Call.refuses_of_check (hT : T.Valid) (hc : c.ready = .checked) {failure : Failure}
    (h : c.check T = .threw failure) : T.catalogue.Refuses c failure := by
  cases c with
  | insertProduct p =>
    simp only [check] at h
    split at h
    · rename_i hany
      obtain rfl := Phase.threw.inj h
      exact .insertTaken (taken_of_any hT hany)
    · cases h
  | updateProduct p =>
    cases hid : p.id with
    | none =>
      simp only [check, hid] at h
      obtain rfl := Phase.threw.inj h
      exact .updateWithoutId hid
    | some id =>
      simp only [check, hid] at h
      split at h
      · rename_i hany
        obtain rfl := Phase.threw.inj h
        exact .updateTaken hid (taken_of_any_other hT hany)
      · cases h
  | deleteProduct id => cases hc
  | clearAllProducts => cases hc

theorem Call.refuses_of_write (hT : T.Valid) {e : SqlError} (hw : c.write T now = .error e) :
    T.catalogue.Refuses c ⟨c.context, .database e⟩ := by
  cases c with
  | insertProduct p =>
    simp only [write, Table.insert] at hw
    split at hw
    · rename_i hnull
      obtain rfl := Except.error.inj hw
      exact .insertNull hnull
    · split at hw
      · rename_i hany
        obtain rfl := Except.error.inj hw
        obtain ⟨row, hrow, hid⟩ := List.any_eq_true.mp hany
        have hid : row.id = p.id.getD (T.seq + 1) := of_decide_eq_true hid
        cases hp : p.id with
        | none =>
          -- The next id is larger than all that the table has.
          have hle := hT.id_le row hrow
          rw [hid, hp, Option.getD_none] at hle
          omega
        | some id =>
          rw [hp, Option.getD_some] at hid
          exact .insertId hp fun h => catalogue_eq_none.mp h row hrow hid
      · split at hw
        · rename_i hany
          obtain rfl := Except.error.inj hw
          exact .insertUnique (taken_of_any hT hany)
        · cases hw
  | updateProduct p =>
    cases hid : p.id with
    | none =>
      simp only [write, hid] at hw
      cases hw
    | some id =>
      simp only [write, hid, Table.update] at hw
      split at hw
      · cases hw
      · rename_i h0
        split at hw
        · rename_i hnull
          obtain rfl := Except.error.inj hw
          exact .updateNull hid (fun h => h0 (countP_eq_zero_iff.mpr h)) hnull
        · split at hw
          · rename_i hany
            obtain rfl := Except.error.inj hw
            exact .updateUnique hid (taken_of_any_other hT hany)
          · cases hw
  | deleteProduct id => cases hw
  | clearAllProducts => cases hw

variable {s t : Store}

theorem Linearised.performs {ws : List (ℕ × Call × ℤ)} {e : StoreEvent} (h : Linearised T s ws)
    (hm : Move s e t) (hp : T.catalogue.PerformsAll ws s.table.catalogue) :
    T.catalogue.PerformsAll (ws ++ wrote s e) t.table.catalogue := by
  cases hm with
  | call c => simpa [wrote] using hp
  | check hi hc => simpa [wrote, Store.setPhase] using hp
  | @write i now c U result hi hw =>
    have hid : ∀ p, c = .updateProduct p → p.id ≠ none := by
      rintro p rfl
      exact h.hasId i p hi
    have hone : wrote s (.write i now) = [(i, c, result)] := by simp [wrote, hi, hw]
    rw [hone]
    exact hp.snoc (c.performs h.valid hid hw)
  | reject hi hw => simpa [wrote, hi, hw, Store.setPhase] using hp

/-- The map refuses the calls that a step makes throw, for the reason that they throw. -/
def RefusesThrown (s : Store) (_ : StoreEvent) (t : Store) : Prop :=
  ∀ (i : ℕ) (c : Call) (failure : Failure), t.calls[i]? = some ⟨c, .threw failure⟩ →
    s.calls[i]? ≠ some ⟨c, .threw failure⟩ → s.table.catalogue.Refuses c failure

theorem refusesThrown_setPhase {e : StoreEvent} {i : ℕ} {c : Call} {phase : Phase}
    {before : CallState} (hi : s.calls[i]? = some before)
    (h : ∀ failure, phase = .threw failure → s.table.catalogue.Refuses c failure) :
    RefusesThrown s e (s.setPhase i c phase) := by
  intro j c' failure hj hnew
  obtain ⟨hlt, -⟩ := List.getElem?_eq_some_iff.mp hi
  by_cases hij : i = j
  · subst hij
    simp only [Store.setPhase, List.getElem?_set_self hlt, Option.some.injEq,
      CallState.mk.injEq] at hj
    obtain ⟨rfl, hphase⟩ := hj
    exact h failure hphase
  · simp only [Store.setPhase, List.getElem?_set_ne hij] at hj
    exact absurd hj hnew

theorem Linearised.refusesThrown {ws : List (ℕ × Call × ℤ)} {e : StoreEvent}
    (h : Linearised T s ws) (hm : Move s e t) : RefusesThrown s e t := by
  cases hm with
  | call c =>
    intro j c' failure hj hnew
    rw [List.getElem?_append] at hj
    split at hj
    · exact absurd hj hnew
    · simp [List.getElem?_singleton] at hj
  | check hi hc =>
    exact refusesThrown_setPhase hi fun failure hf => Call.refuses_of_check h.valid hc hf
  | @write i now c U result hi hw => exact refusesThrown_setPhase (e := .write i now) hi nofun
  | reject hi hw =>
    refine refusesThrown_setPhase hi fun failure hf => ?_
    obtain rfl := Phase.threw.inj hf
    exact Call.refuses_of_write h.valid hw

/--
However the statements of the calls interleave, the calls that have returned perform the operations
of a map one after the other, each once and with the result that it returns, and the queries answer
from that map. The map refuses every call that throws, at the statement where it throws and for the
reason that it gives.
-/
theorem store_refines_catalogue {es : List StoreEvent} (hT : T.Valid)
    (h : exec Store.step ⟨T, []⟩ es = some s) :
    let ws := outputs Store.step wrote ⟨T, []⟩ es
    T.catalogue.PerformsAll ws s.table.catalogue ∧ (ws.map (·.1)).Nodup ∧
      (∀ (i : ℕ) (c : Call) (result : ℤ),
        s.calls[i]? = some ⟨c, .returned result⟩ ↔ (i, c, result) ∈ ws) ∧
      s.table.Answers s.table.catalogue ∧ Along Store.step RefusesThrown ⟨T, []⟩ es := by
  intro ws
  have hrun := exec_outputs
    (H := fun ws s => Linearised T s ws ∧ T.catalogue.PerformsAll ws s.table.catalogue)
    ⟨linearised_initial hT, .nil⟩
    (fun ws s e t hs ht =>
      ⟨hs.1.move (step_storeMove ht), hs.1.performs (step_storeMove ht) hs.2⟩) h
  have hsteps : Along Store.step RefusesThrown ⟨T, []⟩ es := by
    apply along_true.of_invariant (I := fun s => ∃ ws, Linearised T s ws) ⟨_, linearised_initial hT⟩
    rintro s e t ⟨ws, hs⟩ - ht
    have hm := step_storeMove ht
    exact ⟨hs.refusesThrown hm, _, hs.move hm⟩
  exact ⟨hrun.2, hrun.1.once, hrun.1.returned, answers_catalogue hrun.1.valid, hsteps⟩

/-- Two inserts of one barcode race: one is performed, and the map refuses the other. -/
theorem store_refines_catalogue_race :
    let insert := Call.insertProduct (cola "42")
    let es := [.call insert, .call insert, .check 0, .check 1, .write 0 10, .write 1 11]
    outputs Store.step wrote ⟨.empty, []⟩ es = [(0, insert, 1)] ∧
    ∃ s, exec Store.step ⟨.empty, []⟩ es = some s ∧
      s.calls[1]? =
        some ⟨insert, .threw ⟨"Failed to insert product", .database .uniqueBarcode⟩⟩ ∧
      Table.empty.catalogue.PerformsAll [(0, insert, 1)] s.table.catalogue ∧
      Along Store.step RefusesThrown ⟨.empty, []⟩ es := by
  intro insert es
  have hone : outputs Store.step wrote ⟨.empty, []⟩ es = [(0, insert, 1)] := rfl
  have hrun : exec Store.step ⟨.empty, []⟩ es = some _ := rfl
  obtain ⟨hperforms, -, -, -, hsteps⟩ := store_refines_catalogue Table.valid_empty hrun
  exact ⟨hone, _, rfl, rfl, hone ▸ hperforms, hsteps⟩

end Writes

end FlutterPractice.Hisabi
