import FlutterPractice.Hisabi.AddProduct

/-! # A submit among other calls

A submit of the product screen saves through a call of the database helper,
whose statements take their turn with those of other calls, some of them in
flight when the screen was opened. The screen reports a success when its call
returns. It does not look at the number of rows that the call has changed.
-/

namespace FlutterPractice.Hisabi

open Dart Machine

/-- The screen over the database: the index of its running call and what the call saves, the table
before and behind the write of the call, and the product of a reported success. -/
structure Submission where
  form : AddProductState
  store : Store
  running : Option (ℕ × Product)
  written : Option (Table × Table)
  reported : Option Product
  deriving DecidableEq

inductive SubmitEvent where
  | edit (field : Field) (text : String)
  | submit (clock : Clock)
  | store (e : StoreEvent)
  | finish
  deriving DecidableEq

namespace Submission

/-- The screen in a run of the database that has begun before. -/
def opened (form : AddProductState) (store : Store) : Submission := ⟨form, store, none, none, none⟩

/-- `_submitForm` up to the call of the helper. -/
def submitForm (s : Submission) (clock : Clock) : Submission :=
  if s.form.controllers.validate ≠ [] then s
  else
    match s.form.product clock with
    | none => s
    | some product =>
      { s with
        store := { s.store with calls := s.store.calls ++ [⟨s.form.save product, .started⟩] }
        running := some (s.store.calls.length, product)
        written := none }

/-- `_submitForm` behind the call: it pops with `true`, or shows the error. -/
def finish (s : Submission) : Option Submission :=
  s.running.bind fun (i, product) => (s.store.calls[i]?).bind fun k =>
    match k.phase with
    | .returned _ => some { s with running := none, reported := some product }
    | .threw _ => some { s with running := none }
    | _ => none

/-- The write of the running call among those of a step. -/
def ownWrite (s : Submission) (e : StoreEvent) : Bool :=
  (wrote s.store e).any fun w => s.running.any fun r => r.1 = w.1

/-- The buttons are disabled during a submit, and the screen is gone behind a success. -/
def step (s : Submission) : SubmitEvent → Option Submission
  | .edit field text =>
    if s.reported.isSome then none
    else some { s with form := { s.form with controllers := s.form.controllers.set text field } }
  | .submit clock =>
    if s.reported.isSome || s.running.isSome then none else some (s.submitForm clock)
  | .store e => (s.store.step e).map fun store =>
    { s with
      store := store
      written := if s.ownWrite e then some (s.store.table, store.table) else s.written }
  | .finish => if s.reported.isSome then none else s.finish

end Submission

/-- The row of the current id holds what the texts of the form say. -/
def Holds (T : Table) (current : Option ℤ) (c : Controllers) : Prop :=
  ∃ row ∈ T.rows, some row.id = current ∧ row.barcode = trim c.barcode ∧
    row.productName = trim c.productName ∧ parseDouble c.buyPrice = some row.buyPrice ∧
    parseDouble c.sellPrice = some row.sellPrice ∧ row.category = trim c.category ∧
    parseInt c.quantity = some row.quantity ∧ row.description = trim c.description

def Present (T : Table) (current : Option ℤ) : Prop := ∃ row ∈ T.rows, some row.id = current

/-- The last press of the submit button in a run, and the screen that it finds. -/
def LastSubmit (o : Submission) (es : List SubmitEvent) (clock : Clock) (u : Submission) : Prop :=
  ∃ pre post, es = pre ++ .submit clock :: post ∧ (∀ clock, .submit clock ∉ post) ∧
    exec Submission.step o pre = some u

variable {o s t u : Submission} {T U : Table} {p : Product} {form : AddProductState}
  {clock : Clock} {es : List SubmitEvent}

/-- What the call of a submit in edit mode has written is there exactly if its row was. -/
theorem holds_iff_present {now : DateTime} {result : ℤ} (hp : form.product clock = some p)
    (hedit : form.isEditMode = true) (hw : (form.save p).write T now = .ok (U, result)) :
    Holds U form.currentProductId form.controllers ↔ Present T form.currentProductId := by
  obtain ⟨buyPrice, sellPrice, quantity, hbuy, hsell, hquantity, rfl⟩ := product_eq_some.mp hp
  cases hcurrent : form.currentProductId with
  | none =>
    constructor
    · rintro ⟨row, -, hrow, -⟩
      cases hrow
    · rintro ⟨row, -, hrow⟩
      cases hrow
  | some id =>
    simp only [AddProductState.save, hedit, hcurrent, Option.isSome_some, Bool.and_self, if_true,
      Call.write] at hw
    obtain ⟨hr, hcases⟩ := Table.update_eq_ok hw
    constructor
    · rintro ⟨row, hrow, hrid, -⟩
      have hids : U.rows.map (·.id) = T.rows.map (·.id) := by
        rcases hcases with ⟨-, rfl⟩ | ⟨rfl, -⟩
        · rfl
        · exact Table.map_id_write _ _ _
      obtain ⟨row', hrow', he⟩ := List.mem_map.mp (hids ▸ List.mem_map_of_mem hrow)
      exact ⟨row', hrow', he ▸ hrid⟩
    · rintro ⟨row, hrow, hrid⟩
      have hrid : row.id = id := Option.some.inj hrid
      rcases hcases with ⟨h0, -⟩ | ⟨rfl, -⟩
      · -- A row that is there is counted.
        rw [hr] at h0
        have hnone := List.countP_eq_zero.mp (by exact_mod_cast h0) row hrow
        exact (hnone (by simpa using hrid)).elim
      · refine ⟨_, List.mem_map_of_mem hrow, ?_⟩
        rw [Table.write, if_pos hrid]
        exact ⟨rfl, rfl, rfl, hbuy, hsell, rfl, hquantity, rfl⟩

theorem Move.call_at {S S' : Store} {e : StoreEvent} {i : ℕ} {c : Call} {phase : Phase}
    (h : Move S e S') (hi : S.calls[i]? = some ⟨c, phase⟩) :
    (S'.calls[i]? = S.calls[i]? ∧ ∀ w ∈ wrote S e, w.1 ≠ i) ∨
      (∃ next, S'.calls[i]? = some ⟨c, next⟩ ∧ (∀ result, next ≠ .returned result) ∧
        ∀ w ∈ wrote S e, w.1 ≠ i) ∨
      ∃ now result, S'.calls[i]? = some ⟨c, .returned result⟩ ∧
        c.write S.table now = .ok (S'.table, result) ∧ wrote S e = [(i, c, result)] := by
  obtain ⟨hlt, -⟩ := List.getElem?_eq_some_iff.mp hi
  cases h with
  | call c' => exact .inl ⟨List.getElem?_append_left hlt, fun w hw => by cases hw⟩
  | @check j c' hj hc =>
    by_cases hij : j = i
    · subst hij
      obtain ⟨rfl, -⟩ := CallState.mk.inj (Option.some.inj (hi.symm.trans hj))
      refine .inr (.inl ⟨_, List.getElem?_set_self hlt, fun result => ?_, fun w hw => by cases hw⟩)
      rcases c.check_cases S.table hc with ⟨hcheck, -⟩ | ⟨failure, hcheck⟩ <;> simp [hcheck]
    · exact .inl ⟨List.getElem?_set_ne hij, fun w hw => by cases hw⟩
  | @write j now c' T result hj hw =>
    have hone : wrote S (.write j now) = [(j, c', result)] := by simp [wrote, hj, hw]
    by_cases hij : j = i
    · subst hij
      obtain ⟨rfl, -⟩ := CallState.mk.inj (Option.some.inj (hi.symm.trans hj))
      exact .inr (.inr ⟨now, result, List.getElem?_set_self hlt, hw, hone⟩)
    · refine .inl ⟨List.getElem?_set_ne hij, fun w hw => ?_⟩
      rw [hone, List.mem_singleton] at hw
      rwa [hw]
  | @reject j now c' error hj hw =>
    have hnone : wrote S (.write j now) = [] := by simp [wrote, hj, hw]
    rw [hnone]
    by_cases hij : j = i
    · subst hij
      obtain ⟨rfl, -⟩ := CallState.mk.inj (Option.some.inj (hi.symm.trans hj))
      exact .inr (.inl ⟨_, List.getElem?_set_self hlt, fun result => by simp [Call.fails],
        fun w hw => by cases hw⟩)
    · exact .inl ⟨List.getElem?_set_ne hij, fun w hw => by cases hw⟩

theorem LastSubmit.append {e : SubmitEvent} (h : LastSubmit o es clock u)
    (he : ∀ clock, e ≠ .submit clock) : LastSubmit o (es ++ [e]) clock u := by
  obtain ⟨pre, post, rfl, hlast, hu⟩ := h
  refine ⟨pre, post ++ [e], by simp, fun clock hmem => ?_, hu⟩
  rcases List.mem_append.mp hmem with hmem | hmem
  · exact hlast clock hmem
  · exact he clock (List.mem_singleton.mp hmem).symm

/-- The product that the last submit makes of the texts, in edit mode. -/
structure Submitted (o : Submission) (es : List SubmitEvent) (clock : Clock) (u : Submission)
    (p : Product) : Prop where
  last : LastSubmit o es clock u
  edit : u.form.isEditMode = true
  product : u.form.product clock = some p

/-- The write of the call that saves the product, between the tables kept for it. -/
def Wrote (s u : Submission) (p : Product) : Prop :=
  ∃ T U now result, s.written = some (T, U) ∧ (u.form.save p).write T now = .ok (U, result)

/-- The running call saves what the last submit has made of the texts, and its return and the
report have a write behind them. -/
structure Saving (o : Submission) (es : List SubmitEvent) (s : Submission) : Prop where
  reached : exec Submission.step o es = some s
  edit : s.form.isEditMode = true
  running : ∀ i p, s.running = some (i, p) → ∃ clock u, Submitted o es clock u p ∧
    ∃ phase, s.store.calls[i]? = some ⟨u.form.save p, phase⟩ ∧
      ∀ result, phase = .returned result → Wrote s u p
  reported : ∀ p, s.reported = some p → s.running = none ∧
    ∃ clock u, Submitted o es clock u p ∧ Wrote s u p

theorem Submitted.append {e : SubmitEvent} (h : Submitted o es clock u p)
    (he : ∀ clock, e ≠ .submit clock) : Submitted o (es ++ [e]) clock u p :=
  ⟨h.last.append he, h.edit, h.product⟩

theorem ownWrite_eq_false {i : ℕ} {e : StoreEvent} (hr : s.running = some (i, p))
    (h : ∀ w ∈ wrote s.store e, w.1 ≠ i) : s.ownWrite e = false := by
  rw [Submission.ownWrite, List.any_eq_false, hr]
  intro w hw
  simpa using (h w hw).symm

theorem Saving.submitForm (h : Saving o es s) (hrunning : s.running = none)
    (hr : s.reported = none) (ht : s.step (.submit clock) = some (s.submitForm clock)) :
    Saving o (es ++ [.submit clock]) (s.submitForm clock) := by
  have hreached := exec_concat h.reached ht
  unfold Submission.submitForm at hreached ⊢
  split
  · rename_i hv
    rw [if_pos hv] at hreached
    refine ⟨hreached, h.edit, fun i p hq => ?_, fun p hq => ?_⟩
    · rw [hrunning] at hq
      cases hq
    · rw [hr] at hq
      cases hq
  · rename_i hv
    obtain ⟨p, hp, -⟩ := product_of_validate (not_not.mp hv) clock
    rw [if_neg hv] at hreached
    rw [hp] at hreached ⊢
    refine ⟨hreached, h.edit, ?_, fun q hq => by rw [hr] at hq; cases hq⟩
    rintro i q hq
    obtain ⟨rfl, rfl⟩ := Prod.mk.inj (Option.some.inj hq)
    have hlast : LastSubmit o (es ++ [.submit clock]) clock s :=
      ⟨es, [], rfl, fun _ => List.not_mem_nil, h.reached⟩
    exact ⟨clock, s, ⟨hlast, h.edit, hp⟩, .started, by simp, fun result hs => by cases hs⟩

theorem Saving.storeStep (h : Saving o es s) {e : StoreEvent} (ht : s.step (.store e) = some t) :
    Saving o (es ++ [.store e]) t := by
  have hreached := exec_concat h.reached ht
  obtain ⟨S, hS, rfl⟩ := Option.map_eq_some_iff.mp ht
  refine ⟨hreached, h.edit, fun i p hr => ?_, fun p hp => ?_⟩
  · have hr : s.running = some (i, p) := hr
    obtain ⟨clock, u, hu, phase, hi, hwrote⟩ := h.running i p hr
    refine ⟨clock, u, hu.append (by simp), ?_⟩
    rcases (step_storeMove hS).call_at hi with ⟨hsame, hno⟩ | ⟨next, hnext, hnot, hno⟩ |
      ⟨now, result, hret, hw, hone⟩
    · refine ⟨phase, hsame.trans hi, fun result hp => ?_⟩
      rw [ownWrite_eq_false hr hno]
      exact hwrote result hp
    · exact ⟨next, hnext, fun result hp => (hnot result hp).elim⟩
    · refine ⟨_, hret, fun _ _ => ?_⟩
      have hown : s.ownWrite e = true := by simp [Submission.ownWrite, hone, hr]
      rw [hown]
      exact ⟨s.store.table, S.table, now, result, rfl, hw⟩
  · obtain ⟨hrun, clock, u, hu, hwrote⟩ := h.reported p hp
    have hown : s.ownWrite e = false := by simp [Submission.ownWrite, hrun]
    rw [hown]
    exact ⟨hrun, clock, u, hu.append (by simp), hwrote⟩

theorem Saving.finish (h : Saving o es s) (hr : s.reported = none)
    (ht : s.step .finish = some t) : Saving o (es ++ [.finish]) t := by
  have hreached := exec_concat h.reached ht
  obtain ⟨-, ht⟩ := Option.ite_none_left_eq_some.mp ht
  obtain ⟨⟨i, p⟩, hrun, ht⟩ := Option.bind_eq_some_iff.mp ht
  obtain ⟨k, hk, ht⟩ := Option.bind_eq_some_iff.mp ht
  obtain ⟨clock, u, hu, phase, hi, hwrote⟩ := h.running i p hrun
  obtain rfl := Option.some.inj (hk.symm.trans hi)
  cases phase with
  | returned result =>
    obtain rfl := Option.some.inj ht
    refine ⟨hreached, h.edit, fun i q hq => (by cases hq), ?_⟩
    rintro q hq
    obtain rfl := Option.some.inj hq
    exact ⟨rfl, clock, u, hu.append (by simp), hwrote result rfl⟩
  | threw failure =>
    obtain rfl := Option.some.inj ht
    refine ⟨hreached, h.edit, fun i q hq => (by cases hq), fun q hq => ?_⟩
    obtain hq : s.reported = some q := hq
    rw [hr] at hq
    cases hq
  | started | checked => cases ht

theorem Saving.step {e : SubmitEvent} (h : Saving o es s) (ht : s.step e = some t) :
    Saving o (es ++ [e]) t := by
  cases e with
  | edit field text =>
    have hreached := exec_concat h.reached ht
    obtain ⟨-, ht⟩ := Option.ite_none_left_eq_some.mp ht
    obtain rfl := Option.some.inj ht
    refine ⟨hreached, h.edit, fun i p hrun => ?_, fun p hp => ?_⟩
    · obtain ⟨clock, u, hu, hcall⟩ := h.running i p hrun
      exact ⟨clock, u, hu.append (by simp), hcall⟩
    · obtain ⟨hrun, clock, u, hu, hwrote⟩ := h.reported p hp
      exact ⟨hrun, clock, u, hu.append (by simp), hwrote⟩
  | submit clock =>
    obtain ⟨hno, hsame⟩ := Option.ite_none_left_eq_some.mp ht
    obtain rfl := Option.some.inj hsame
    simp only [Bool.or_eq_true, not_or, Bool.not_eq_true, Option.isSome_eq_false_iff,
      Option.isNone_iff_eq_none] at hno
    exact h.submitForm hno.2 hno.1 ht
  | store e => exact h.storeStep ht
  | finish =>
    obtain ⟨hno, -⟩ := Option.ite_none_left_eq_some.mp ht
    simp only [Bool.not_eq_true, Option.isSome_eq_false_iff, Option.isNone_iff_eq_none] at hno
    exact h.finish hno ht

/--
A success that the form reports in edit mode is that of the last submit and has one write behind
it. Behind that write the row of the current id holds what the texts were at the press of the
button, exactly if the table had such a row in front of it.
-/
theorem reported_holds_iff {S : Store} (hedit : form.isEditMode = true)
    (h : exec Submission.step (.opened form S) es = some s) (hreported : s.reported.isSome) :
    ∃ pre clock post u T U, es = pre ++ .submit clock :: post ∧
      (∀ clock, .submit clock ∉ post) ∧ exec Submission.step (.opened form S) pre = some u ∧
      s.written = some (T, U) ∧
      (Holds U u.form.currentProductId u.form.controllers ↔
        Present T u.form.currentProductId) := by
  have hopened : Saving (.opened form S) [] (.opened form S) :=
    ⟨rfl, hedit, fun i q hq => (by cases hq), fun q hq => (by cases hq)⟩
  have hsaving := exec_history hopened (fun _ _ _ _ hs ht => hs.step ht) h
  obtain ⟨p, hp⟩ := Option.isSome_iff_exists.mp hreported
  obtain ⟨-, clock, u, hu, T, U, now, result, hwritten, hw⟩ := hsaving.reported p hp
  obtain ⟨pre, post, hes, hlast, hpre⟩ := hu.last
  exact ⟨pre, clock, post, u, T, U, hes, hlast, hpre, hwritten,
    holds_iff_present hu.product hu.edit hw⟩

/-- The screen as it is opened with the one product of `oneCola`. -/
def editCola : AddProductState :=
  .initState showPrice (some { cola "42" with id := some 1 }) oneCola

/-- The name is typed and submitted, and nothing else runs: the row is there, and it is updated. -/
theorem reported_holds_iff_alone :
    let es := [.edit .productName "Tea", .submit ⟨50, 51, 52⟩, .store (.check 0),
      .store (.write 0 60), .finish]
    ∃ s pre clock post u T U,
      exec Submission.step (.opened editCola ⟨oneCola, []⟩) es = some s ∧ s.reported.isSome ∧
      es = pre ++ .submit clock :: post ∧ (∀ clock, .submit clock ∉ post) ∧
      exec Submission.step (.opened editCola ⟨oneCola, []⟩) pre = some u ∧
      s.written = some (T, U) ∧
      (Holds U u.form.currentProductId u.form.controllers ↔
        Present T u.form.currentProductId) := by
  intro es
  have hreports : ((exec Submission.step (.opened editCola ⟨oneCola, []⟩) es).any
      fun s => s.reported.isSome) = true := by
    decide +kernel
  obtain ⟨s, hs, hreported⟩ := (Option.any_eq_true _ _).mp hreports
  obtain ⟨pre, clock, post, u, T, U, hfacts⟩ := reported_holds_iff rfl hs hreported
  exact ⟨s, pre, clock, post, u, T, U, hs, hreported, hfacts⟩

/-- The delete that was in flight runs between the check and the write. -/
theorem reported_deleted_not_holds : ∃ s T U,
    exec Submission.step (.opened editCola ⟨oneCola, [⟨.deleteProduct 1, .started⟩]⟩)
      [.submit ⟨50, 51, 52⟩, .store (.check 1), .store (.write 0 55), .store (.write 1 60),
        .finish] = some s ∧
    s.reported.isSome ∧ s.written = some (T, U) ∧
    ¬ Holds U editCola.currentProductId editCola.controllers := by
  refine ⟨_, _, _, rfl, rfl, rfl, ?_⟩
  rintro ⟨row, hrow, -⟩
  cases hrow

end FlutterPractice.Hisabi
