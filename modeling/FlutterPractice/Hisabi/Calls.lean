import FlutterPractice.Hisabi.Products
import FlutterPractice.Machine.Run

/-! # Concurrent calls of the database helper

`insertProduct` and `updateProduct` look for the barcode in one statement and
write in a later one, and the statements of other calls may run in between.
The constraints of the table decide what the check has missed. Every run
amounts to the writes of its returned calls, one after the other.
-/

namespace FlutterPractice.Hisabi

open Dart Machine

inductive Call where
  | insertProduct (product : Product)
  | updateProduct (product : Product)
  | deleteProduct (id : ℤ)
  | clearAllProducts
  deriving DecidableEq

inductive Phase where
  | started
  | checked
  | returned (result : ℤ)
  | threw (failure : Failure)
  deriving DecidableEq

namespace Call

/-- What the `catch` block of the call puts in front of the cause. -/
def context : Call → String
  | .insertProduct _ => "Failed to insert product"
  | .updateProduct _ => "Failed to update product"
  | .deleteProduct _ => "Failed to delete product"
  | .clearAllProducts => "Failed to clear products"

/-- The phase in which the call writes: only two of them query the barcode before. -/
def ready : Call → Phase
  | .insertProduct _ | .updateProduct _ => .checked
  | .deleteProduct _ | .clearAllProducts => .started

def fails (c : Call) (cause : Cause) : Phase := .threw ⟨c.context, cause⟩

/-- The query of the barcode, and what the call does with its answer. -/
def check (T : Table) : Call → Phase
  | .insertProduct p =>
    if T.rows.any fun row => row.barcode = p.barcode then
      fails (.insertProduct p) (.exception "Product with this barcode already exists!")
    else .checked
  | .updateProduct p =>
    match p.id with
    | none => fails (.updateProduct p) (.exception "Cannot update product without ID")
    | some id =>
      if T.rows.any fun row => row.barcode = p.barcode && row.id ≠ id then
        fails (.updateProduct p) (.exception "Another product with this barcode already exists!")
      else .checked
  | c => c.ready

/-- The writing statement. No row has the id NULL. -/
def write (T : Table) (now : DateTime) : Call → Except SqlError (Table × ℤ)
  | .insertProduct p => T.insert p
  | .updateProduct p =>
    match p.id with
    | some id => T.update { p.toColumns with updatedAt := now } id
    | none => .ok (T, 0)
  | .deleteProduct id => .ok (T.delete id)
  | .clearAllProducts => .ok T.clear

end Call

structure CallState where
  call : Call
  phase : Phase
  deriving DecidableEq

structure Store where
  table : Table
  calls : List CallState
  deriving DecidableEq

inductive StoreEvent where
  | call (c : Call)
  | check (i : ℕ)
  | write (i : ℕ) (now : DateTime)
  deriving DecidableEq

namespace Store

def setPhase (s : Store) (i : ℕ) (c : Call) (phase : Phase) : Store :=
  { s with calls := s.calls.set i ⟨c, phase⟩ }

def step (s : Store) : StoreEvent → Option Store
  | .call c => some { s with calls := s.calls ++ [⟨c, .started⟩] }
  | .check i => s.calls[i]?.bind fun k =>
    if k.phase = .started ∧ k.call.ready = .checked then
      some (s.setPhase i k.call (k.call.check s.table))
    else none
  | .write i now => s.calls[i]?.bind fun k =>
    if k.phase = k.call.ready then
      match k.call.write s.table now with
      | .ok (T, result) => some { s.setPhase i k.call (.returned result) with table := T }
      | .error e => some (s.setPhase i k.call (k.call.fails (.database e)))
    else none

end Store

/-- The writes that a step carries out, each with its call and the result it returns. -/
def wrote (s : Store) : StoreEvent → List (ℕ × Call × ℤ)
  | .write i now =>
    match s.calls[i]? with
    | some k =>
      match k.call.write s.table now with
      | .ok (_, result) => [(i, k.call, result)]
      | .error _ => []
    | none => []
  | _ => []

/-- The write of a call, and nothing else: one new row with a fresh id, or the one row of an id. -/
def OwnWrite (T T' : Table) (result : ℤ) : Call → Prop
  | .insertProduct p =>
    T'.rows = T.rows ++ [{ p.toColumns with id := result }] ∧
      (∀ row ∈ T.rows, row.id ≠ result) ∧ (p.id = none → T.seq < result ∧ T'.seq = result)
  | .updateProduct p => ∃ id now, p.id = some id ∧
    T' = { T with rows := T.rows.map fun row =>
      if row.id = id then { toColumns := { p.toColumns with updatedAt := now }, id := id }
      else row } ∧
      result = T.rows.countP (fun row => row.id = id) ∧ result ≤ 1
  | .deleteProduct id =>
    T' = { T with rows := T.rows.filter fun row => row.id ≠ id } ∧
      result = T.rows.countP (fun row => row.id = id) ∧ result ≤ 1
  | .clearAllProducts => T' = { T with rows := [] } ∧ result = T.rows.length

/-- The second table is what the writes make of the first, in their order. -/
inductive Applied (T : Table) : List (ℕ × Call × ℤ) → Table → Prop
  | nil : Applied T [] T
  | snoc {ws : List (ℕ × Call × ℤ)} {U T' : Table} {i : ℕ} {c : Call} {result : ℤ}
      (h : Applied T ws U) (hw : OwnWrite U T' result c) : Applied T (ws ++ [(i, c, result)]) T'

inductive Move (s : Store) : StoreEvent → Store → Prop
  | call (c : Call) : Move s (.call c) { s with calls := s.calls ++ [⟨c, .started⟩] }
  | check {i : ℕ} {c : Call} (hi : s.calls[i]? = some ⟨c, .started⟩) (hc : c.ready = .checked) :
      Move s (.check i) (s.setPhase i c (c.check s.table))
  | write {i : ℕ} {now : DateTime} {c : Call} {T : Table} {result : ℤ}
      (hi : s.calls[i]? = some ⟨c, c.ready⟩) (hw : c.write s.table now = .ok (T, result)) :
      Move s (.write i now) { s.setPhase i c (.returned result) with table := T }
  | reject {i : ℕ} {now : DateTime} {c : Call} {e : SqlError}
      (hi : s.calls[i]? = some ⟨c, c.ready⟩) (hw : c.write s.table now = .error e) :
      Move s (.write i now) (s.setPhase i c (c.fails (.database e)))

variable {s t : Store} {T T' : Table}

theorem step_storeMove {e : StoreEvent} (h : s.step e = some t) : Move s e t := by
  cases e with
  | call c =>
    obtain rfl := Option.some.inj h
    exact .call c
  | check i =>
    obtain ⟨⟨c, phase⟩, hi, h⟩ := Option.bind_eq_some_iff.mp h
    split at h
    · rename_i hc
      obtain ⟨rfl, hc⟩ : phase = .started ∧ c.ready = .checked := hc
      obtain rfl := Option.some.inj h
      exact .check hi hc
    · cases h
  | write i now =>
    obtain ⟨⟨c, phase⟩, hi, h⟩ := Option.bind_eq_some_iff.mp h
    split at h
    · rename_i hp
      obtain rfl : phase = c.ready := hp
      split at h
      · rename_i hw
        obtain rfl := Option.some.inj h
        exact .write hi hw
      · rename_i hw
        obtain rfl := Option.some.inj h
        exact .reject hi hw
    · cases h

theorem Table.Valid.countP_le_one (h : T.Valid) (id : ℤ) :
    T.rows.countP (fun row => row.id = id) ≤ 1 := by
  have hcount : (T.rows.map (·.id)).count id ≤ 1 := List.nodup_iff_count_le_one.mp h.ids id
  rwa [List.count_eq_countP, List.countP_map] at hcount

theorem map_write_of_countP_eq_zero {c : Columns} {id : ℤ} {rows : List Row}
    (h : rows.countP (fun row => row.id = id) = 0) : rows.map (Table.write c id) = rows := by
  rw [List.countP_eq_zero] at h
  calc
    rows.map (Table.write c id) = rows.map fun row => row :=
      List.map_congr_left fun row hrow => if_neg (by simpa using h row hrow)
    _ = rows := List.map_id' rows

theorem Call.write_spec {c : Call} {now : DateTime} {result : ℤ} (h : T.Valid)
    (hid : ∀ p, c = .updateProduct p → p.id ≠ none) (hw : c.write T now = .ok (T', result)) :
    T'.Valid ∧ OwnWrite T T' result c := by
  cases c with
  | insertProduct p =>
    refine ⟨h.insert hw, ?_⟩
    obtain ⟨rfl, hr, hfresh, -⟩ := Table.insert_eq_ok hw
    refine ⟨rfl, hfresh, fun hp => ?_⟩
    rw [hp, Option.getD_none] at hr
    subst hr
    exact ⟨Int.lt_add_one_iff.mpr le_rfl, max_eq_right (Int.le_add_one le_rfl)⟩
  | updateProduct p =>
    obtain ⟨id, hp⟩ := Option.ne_none_iff_exists'.mp (hid p rfl)
    simp only [Call.write, hp] at hw
    refine ⟨h.update hw, id, now, hp, ?_⟩
    obtain ⟨rfl, ⟨h0, rfl⟩ | ⟨rfl, -⟩⟩ := Table.update_eq_ok hw
    · have hsame : T'.rows.map (Table.write { p.toColumns with updatedAt := now } id) = T'.rows :=
        map_write_of_countP_eq_zero (by exact_mod_cast h0)
      exact ⟨congrArg (fun rows => { T' with rows := rows }) hsame.symm, rfl,
        by exact_mod_cast h.countP_le_one id⟩
    · exact ⟨rfl, rfl, by exact_mod_cast h.countP_le_one id⟩
  | deleteProduct id =>
    obtain ⟨rfl, rfl⟩ := Prod.mk.inj (Except.ok.inj hw)
    exact ⟨h.delete id, rfl, rfl, by exact_mod_cast h.countP_le_one id⟩
  | clearAllProducts =>
    obtain ⟨rfl, rfl⟩ := Prod.mk.inj (Except.ok.inj hw)
    exact ⟨h.clear, rfl, rfl⟩

/-- A run so far amounts to its writes: they belong to the calls that have returned. -/
structure Linearised (T : Table) (s : Store) (ws : List (ℕ × Call × ℤ)) : Prop where
  valid : s.table.Valid
  applied : Applied T ws s.table
  once : (ws.map (·.1)).Nodup
  returned : ∀ (i : ℕ) (c : Call) (result : ℤ),
    s.calls[i]? = some ⟨c, .returned result⟩ ↔ (i, c, result) ∈ ws
  hasId : ∀ (i : ℕ) (p : Product),
    s.calls[i]? = some ⟨.updateProduct p, .checked⟩ → p.id ≠ none

theorem Call.ready_cases (c : Call) : c.ready = .checked ∨ c.ready = .started := by
  cases c <;> simp [Call.ready]

theorem Call.check_cases (T : Table) (c : Call) (hc : c.ready = .checked) :
    (c.check T = .checked ∧ ∀ p, c = .updateProduct p → p.id ≠ none) ∨
      ∃ failure, c.check T = .threw failure := by
  cases c with
  | insertProduct p =>
    simp only [Call.check]
    split
    · exact .inr ⟨_, rfl⟩
    · exact .inl ⟨rfl, fun q hq => by cases hq⟩
  | updateProduct p =>
    simp only [Call.check]
    cases hp : p.id with
    | none => exact .inr ⟨_, rfl⟩
    | some id =>
      simp only
      split
      · exact .inr ⟨_, rfl⟩
      · refine .inl ⟨rfl, ?_⟩
        rintro q hq
        obtain rfl := Call.updateProduct.inj hq
        simp [hp]
  | deleteProduct id => cases hc
  | clearAllProducts => cases hc

/-- A call that goes on or throws leaves the table and the returned calls as they are. -/
theorem Linearised.setPhase {ws : List (ℕ × Call × ℤ)} (h : Linearised T s ws) {i : ℕ} {c : Call}
    {before after : Phase} (hi : s.calls[i]? = some ⟨c, before⟩)
    (hb : ∀ result, before ≠ .returned result) (ha : ∀ result, after ≠ .returned result)
    (hid : after = .checked → ∀ p, c = .updateProduct p → p.id ≠ none) :
    Linearised T (s.setPhase i c after) ws := by
  obtain ⟨hlt, -⟩ := List.getElem?_eq_some_iff.mp hi
  refine ⟨h.valid, h.applied, h.once, fun j c' result => ?_, fun j p hj => ?_⟩
  · rw [← h.returned]
    by_cases hij : i = j
    · subst hij
      rw [hi]
      simp [Store.setPhase, hlt, ha, hb]
    · simp [Store.setPhase, List.getElem?_set_ne hij]
  · by_cases hij : i = j
    · subst hij
      simp only [Store.setPhase, List.getElem?_set_self hlt, Option.some.injEq,
        CallState.mk.injEq] at hj
      exact hid hj.2 p hj.1
    · simp only [Store.setPhase, List.getElem?_set_ne hij] at hj
      exact h.hasId j p hj

theorem Linearised.move {ws : List (ℕ × Call × ℤ)} {e : StoreEvent} (h : Linearised T s ws)
    (hm : Move s e t) : Linearised T t (ws ++ wrote s e) := by
  cases hm with
  | call c =>
    have hnone : wrote s (.call c) = [] := rfl
    rw [hnone, List.append_nil]
    refine ⟨h.valid, h.applied, h.once, fun j c' result => ?_, fun j p hj => ?_⟩
    · rw [← h.returned, List.getElem?_append]
      split
      · rfl
      · rename_i hj
        rw [List.getElem?_eq_none (by omega : s.calls.length ≤ j)]
        simp [List.getElem?_singleton]
    · rw [List.getElem?_append] at hj
      split at hj
      · exact h.hasId j p hj
      · simp [List.getElem?_singleton] at hj
  | @check i c hi hc =>
    have hnone : wrote s (.check i) = [] := rfl
    rw [hnone, List.append_nil]
    rcases c.check_cases s.table hc with ⟨hcheck, hid⟩ | ⟨failure, hcheck⟩
    · exact h.setPhase hi (by simp) (by simp [hcheck]) (fun _ => hid)
    · exact h.setPhase hi (by simp) (by simp [hcheck]) (by simp [hcheck])
  | @write i now c U result hi hw =>
    have hone : wrote s (.write i now) = [(i, c, result)] := by simp [wrote, hi, hw]
    have hid : ∀ p, c = .updateProduct p → p.id ≠ none := by
      rintro p rfl
      exact h.hasId i p hi
    have hready : ∀ result, c.ready ≠ .returned result := by
      rcases c.ready_cases with hr | hr <;> simp [hr]
    obtain ⟨hvalid, hown⟩ := Call.write_spec h.valid hid hw
    obtain ⟨hlt, -⟩ := List.getElem?_eq_some_iff.mp hi
    -- The call has not returned before, so it has no write yet.
    have hnew : ∀ c' result', (i, c', result') ∉ ws := by
      intro c' result' hmem
      have hget := (h.returned i c' result').mpr hmem
      rw [hi, Option.some.injEq, CallState.mk.injEq] at hget
      exact hready result' hget.2
    rw [hone]
    refine ⟨hvalid, h.applied.snoc hown, ?_, fun j c' result' => ?_, fun j p hj => ?_⟩
    · rw [List.map_append, List.nodup_append]
      refine ⟨h.once, List.nodup_singleton _, ?_⟩
      rintro j hj k hk rfl
      obtain ⟨⟨j, c', result'⟩, hmem, rfl⟩ := List.mem_map.mp hj
      obtain rfl : j = i := List.mem_singleton.mp hk
      exact hnew c' result' hmem
    · rw [List.mem_append, ← h.returned, List.mem_singleton]
      by_cases hij : i = j
      · subst hij
        rw [hi]
        simp only [Store.setPhase, List.getElem?_set_self hlt, Option.some.injEq,
          CallState.mk.injEq, Phase.returned.injEq, Prod.mk.injEq, true_and]
        constructor
        · rintro ⟨rfl, rfl⟩
          exact .inr ⟨rfl, rfl⟩
        · rintro (⟨-, hr⟩ | ⟨rfl, rfl⟩)
          · exact (hready result' hr).elim
          · exact ⟨rfl, rfl⟩
      · simp [Store.setPhase, List.getElem?_set_ne hij, Ne.symm hij]
    · by_cases hij : i = j
      · subst hij
        simp [Store.setPhase, hlt] at hj
      · simp only [Store.setPhase, List.getElem?_set_ne hij] at hj
        exact h.hasId j p hj
  | @reject i now c e hi hw =>
    have hnone : wrote s (.write i now) = [] := by simp [wrote, hi, hw]
    rw [hnone, List.append_nil]
    apply h.setPhase hi
    · rcases c.ready_cases with hr | hr <;> simp [hr]
    · simp [Call.fails]
    · simp [Call.fails]

theorem linearised_initial (hT : T.Valid) : Linearised T ⟨T, []⟩ [] :=
  ⟨hT, .nil, List.nodup_nil, fun i c result => by simp, fun i p hi => by simp at hi⟩

/-- A step leaves the table alone, or it is the one write of a call that returns. -/
def OneWrite (s : Store) (e : StoreEvent) (t : Store) : Prop :=
  wrote s e = [] ∧ t.table = s.table ∨
    ∃ i c result, wrote s e = [(i, c, result)] ∧ OwnWrite s.table t.table result c

theorem Linearised.oneWrite {ws : List (ℕ × Call × ℤ)} {e : StoreEvent} (h : Linearised T s ws)
    (hm : Move s e t) : OneWrite s e t := by
  cases hm with
  | call c => exact .inl ⟨rfl, rfl⟩
  | check hi hc => exact .inl ⟨rfl, rfl⟩
  | @write i now c U result hi hw =>
    have hid : ∀ p, c = .updateProduct p → p.id ≠ none := by
      rintro p rfl
      exact h.hasId i p hi
    exact .inr ⟨i, c, result, by simp [wrote, hi, hw], (Call.write_spec h.valid hid hw).2⟩
  | reject hi hw => exact .inl ⟨by simp [wrote, hi, hw], rfl⟩

/--
In every run over a valid table the barcodes and the ids stay distinct, and each step leaves the
table alone or is the one write of a call. The writes belong to the calls that have returned, one
to each, so a call that has thrown has changed nothing.
-/
theorem calls_write_once {es : List StoreEvent} (hT : T.Valid)
    (h : exec Store.step ⟨T, []⟩ es = some s) :
    let ws := outputs Store.step wrote ⟨T, []⟩ es
    ((s.table.rows.map (·.barcode)).Nodup ∧ (s.table.rows.map (·.id)).Nodup) ∧
      Along Store.step OneWrite ⟨T, []⟩ es ∧ Applied T ws s.table ∧ (ws.map (·.1)).Nodup ∧
      (∀ (i : ℕ) (c : Call) (result : ℤ),
        s.calls[i]? = some ⟨c, .returned result⟩ ↔ (i, c, result) ∈ ws) ∧
      ∀ (i : ℕ) (c : Call) (failure : Failure),
        s.calls[i]? = some ⟨c, .threw failure⟩ → ∀ w ∈ ws, w.1 ≠ i := by
  have hlin := exec_outputs (H := fun ws s => Linearised T s ws)
    (linearised_initial hT) (fun ws s e t hs ht => hs.move (step_storeMove ht)) h
  have hsteps : Along Store.step OneWrite ⟨T, []⟩ es := by
    apply along_true.of_invariant (I := fun s => ∃ ws, Linearised T s ws) ⟨_, linearised_initial hT⟩
    rintro s e t ⟨ws, hs⟩ - ht
    have hm := step_storeMove ht
    exact ⟨hs.oneWrite hm, _, hs.move hm⟩
  refine ⟨⟨hlin.valid.barcodes, hlin.valid.ids⟩, hsteps, hlin.applied, hlin.once, hlin.returned, ?_⟩
  rintro i c failure hi ⟨j, c', result⟩ hw rfl
  have hret := (hlin.returned j c' result).mpr hw
  rw [hi] at hret
  cases hret

section Race

/-- Two inserts of one barcode both pass the check, and the constraint stops the second. -/
theorem calls_write_once_race :
    let es := [.call (.insertProduct (cola "42")), .call (.insertProduct (cola "42")),
      .check 0, .check 1, .write 0 10, .write 1 11]
    ∃ s, exec Store.step ⟨.empty, []⟩ es = some s ∧
      ∀ (i : ℕ) (c : Call) (result : ℤ), s.calls[i]? = some ⟨c, .returned result⟩ ↔
        (i, c, result) ∈ outputs Store.step wrote ⟨.empty, []⟩ es :=
  ⟨_, rfl, (calls_write_once Table.valid_empty rfl).2.2.2.2.1⟩

end Race

end FlutterPractice.Hisabi
