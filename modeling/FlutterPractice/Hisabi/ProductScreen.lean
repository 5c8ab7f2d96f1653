import FlutterPractice.Hisabi.AddProduct

/-! # The product screen on the navigator

`_submitForm` awaits a call of the database helper, whose statements take their
turn with those of other calls. A success pops what lies on top. That is the
screen, unless the dialog for a new category, which can be opened during a
submit, covers it. A screen that has been left meanwhile is not told.
-/

namespace FlutterPractice.Hisabi

open Dart Machine

def called (S : Store) : StoreEvent → List ℕ
  | .call _ => [S.calls.length]
  | _ => []

/-- The screen over the database, with the submit that it awaits, and what it has returned. -/
structure ProductScreen where
  form : AddProductState
  store : Store
  running : Option (ℕ × Call)
  dialog : Bool
  popped : Option (Option Bool)
  deriving DecidableEq

inductive ScreenEvent where
  | form (e : AddProductEvent)
  | submit (clock : Clock)
  | openDialog
  | closeDialog (category : Option String)
  | back
  | store (e : StoreEvent)
  | finish
  deriving DecidableEq

namespace ProductScreen

/-- The screen in a run of the database that has begun before. -/
def opened (doubleToString : Double → String) (productToEdit : Option Product) (S : Store) :
    ProductScreen :=
  ⟨.initState doubleToString productToEdit S.table, S, none, false, none⟩

/-- The events of the form that occur; only the answer of a search comes behind the dialog. -/
def reaches (s : ProductScreen) : AddProductEvent → Bool
  | .submitForm _ _ | .close => false
  | .searchAnswered _ => true
  | .edit _ _ | .searchPressed | .clearForm => !s.dialog

/-- `_submitForm` up to the call of the helper. -/
def submitForm (s : ProductScreen) (clock : Clock) : ProductScreen :=
  if s.form.controllers.validate ≠ [] then s
  else
    match s.form.product clock with
    | none => s
    | some product =>
      { s with
        form := { s.form with isLoading := true }
        store := { s.store with calls := s.store.calls ++ [⟨s.form.save product, .started⟩] }
        running := some (s.store.calls.length, s.form.save product) }

/-- `Navigator.pop`; the context of a screen that is gone throws, and `_submitForm` catches it. -/
def pop (s : ProductScreen) (result : Option Bool) : ProductScreen :=
  if s.popped.isSome then s
  else if s.dialog then { s with dialog := false }
  else { s with popped := some result }

/-- The `finally` block of `_submitForm`. -/
def release (s : ProductScreen) : ProductScreen :=
  if s.popped.isSome then { s with running := none }
  else { s with running := none, form := { s.form with isLoading := false } }

/-- `_submitForm` behind the call. -/
def finish (s : ProductScreen) : Option ProductScreen :=
  s.running.bind fun (i, _) => (s.store.calls[i]?).bind fun k =>
    match k.phase with
    | .returned _ => some (s.release.pop (some true))
    | .threw _ => some s.release
    | _ => none

/-- The buttons are disabled while `_isLoading`, but not the menu of categories and the icon that
closes the screen. -/
def step (doubleToString : Double → String) (s : ProductScreen) :
    ScreenEvent → Option ProductScreen
  | .form e =>
    if s.popped.isSome || !s.reaches e then none
    else ({ s.form with table := s.store.table }.step doubleToString e).map fun form =>
      { s with form }
  | .submit clock =>
    if s.popped.isSome || s.dialog || s.form.isLoading then none else some (s.submitForm clock)
  | .openDialog => if s.popped.isSome || s.dialog then none else some { s with dialog := true }
  | .closeDialog category =>
    if !s.dialog || category = some "" then none
    else some { s with
      dialog := false
      form := { s.form with
        controllers := category.elim s.form.controllers fun category =>
          s.form.controllers.set (trim category) .category } }
  | .back => if s.popped.isSome || s.dialog then none else some (s.pop none)
  | .store e => (s.store.step e).map fun store => { s with store }
  | .finish => s.finish

def issued (s : ProductScreen) : ScreenEvent → List ℕ
  | .submit clock => if (s.submitForm clock).store.calls = s.store.calls then []
      else [s.store.calls.length]
  | _ => []

/-- The call whose success has popped the dialog and left the screen open. -/
def hidden (s : ProductScreen) : ScreenEvent → List ℕ
  | .finish => s.running.toList.filterMap fun (i, _) =>
    (s.store.calls[i]?).bind fun k =>
      match k.phase with
      | .returned _ => if s.popped.isNone && s.dialog then some i else none
      | _ => none
  | _ => []

/-- The call that no screen awaits: one made elsewhere, or that of a screen as it is left. -/
def orphaned (s : ProductScreen) : ScreenEvent → List ℕ
  | .back => (s.running.map (·.1)).toList
  | .store e => called s.store e
  | _ => []

/-- The writes of a step, those of other calls included. -/
def wrote (s : ProductScreen) : ScreenEvent → List (ℕ × Call × ℤ)
  | .store e => Hisabi.wrote s.store e
  | _ => []

end ProductScreen

/-- What a step of the form keeps of its waiting for a search or a submit. -/
structure KeepsWaiting (f f' : AddProductState) : Prop where
  search : (f.searching ≠ none → f.isLoading = true) → f'.searching ≠ none → f'.isLoading = true
  submit : f.isLoading = true → f.searching = none → f'.isLoading = true ∧ f'.searching = none

/-- One constructor for each way in which a step concerns the submits of the screen, with the calls
that it issues, hides and orphans, and its writes. -/
inductive ScreenMove (s : ProductScreen) :
    List ℕ → List ℕ → List ℕ → List (ℕ × Call × ℤ) → ProductScreen → Prop

  | form {form : AddProductState} (dialog : Bool) (hform : KeepsWaiting s.form form) :
      ScreenMove s [] [] [] [] { s with form, dialog }

  | submit (c : Call) (hopen : s.popped = none) (hidle : s.form.isLoading = false) :
      ScreenMove s [s.store.calls.length] [] [] []
        { s with
          form := { s.form with isLoading := true }
          store := { s.store with calls := s.store.calls ++ [⟨c, .started⟩] }
          running := some (s.store.calls.length, c) }

  | back (hopen : s.popped = none) :
      ScreenMove s [] [] (s.running.map (·.1)).toList [] { s with popped := some none }

  | store {e : StoreEvent} {S : Store} (h : Move s.store e S) :
      ScreenMove s [] [] (called s.store e) (Hisabi.wrote s.store e) { s with store := S }

  | late {i : ℕ} {c : Call} {k : CallState} (hgone : s.popped ≠ none)
      (hrunning : s.running = some (i, c)) (hi : s.store.calls[i]? = some k)
      (hstarted : k.phase ≠ .started) (hchecked : k.phase ≠ .checked) :
      ScreenMove s [] [] [] [] { s with running := none }

  | threw {i : ℕ} {c c' : Call} {failure : Failure} (hopen : s.popped = none)
      (hrunning : s.running = some (i, c)) (hi : s.store.calls[i]? = some ⟨c', .threw failure⟩) :
      ScreenMove s [] [] [] [] { s with running := none, form := { s.form with isLoading := false } }

  | hidden {i : ℕ} {c c' : Call} {result : ℤ} (hopen : s.popped = none)
      (hrunning : s.running = some (i, c)) (hi : s.store.calls[i]? = some ⟨c', .returned result⟩) :
      ScreenMove s [] [i] [] []
        { s with running := none, form := { s.form with isLoading := false }, dialog := false }

  | succeeded {i : ℕ} {c c' : Call} {result : ℤ} (hopen : s.popped = none)
      (hrunning : s.running = some (i, c)) (hi : s.store.calls[i]? = some ⟨c', .returned result⟩) :
      ScreenMove s [] [] [] []
        { s with
          running := none
          form := { s.form with isLoading := false }
          popped := some (some true) }

variable {doubleToString : Double → String} {s t : ProductScreen} {f f' : AddProductState}
  {e : ScreenEvent} {T : Table} {S : Store}

theorem keepsWaiting_step {e : AddProductEvent} (he : s.reaches e = true)
    (h : f.step doubleToString e = some f') : KeepsWaiting f f' := by
  cases e with
  | edit field text =>
    obtain ⟨-, h⟩ := Option.ite_none_left_eq_some.mp h
    obtain rfl := Option.some.inj h
    exact ⟨id, fun hl hs => ⟨hl, hs⟩⟩
  | searchPressed =>
    obtain ⟨hno, h⟩ := Option.ite_none_left_eq_some.mp h
    have hidle : f.isLoading = false := by
      simp only [Bool.or_eq_true, not_or, Bool.not_eq_true] at hno
      exact hno.1.2
    refine ⟨?_, fun hl => by rw [hidle] at hl; cases hl⟩
    split at h
    · obtain rfl := Option.some.inj h
      exact id
    · obtain rfl := Option.some.inj h
      rw [AddProductState.searchProductById]
      split
      · exact fun _ _ => rfl
      · exact id
  | searchAnswered available =>
    obtain ⟨-, h⟩ := Option.ite_none_left_eq_some.mp h
    obtain ⟨id, hid, rfl⟩ := Option.map_eq_some_iff.mp h
    have hnone : (f.onFound doubleToString id available).searching = none := by
      rw [AddProductState.onFound]
      split
      · split <;> rfl
      · rfl
    refine ⟨fun _ hs => (hs hnone).elim, fun _ hs => ?_⟩
    rw [hs] at hid
    cases hid
  | clearForm =>
    obtain ⟨-, h⟩ := Option.ite_none_left_eq_some.mp h
    obtain rfl := Option.some.inj h
    exact ⟨id, fun hl hs => ⟨hl, hs⟩⟩
  | submitForm clock available => cases he
  | close => cases he

theorem KeepsWaiting.refl (f : AddProductState) : KeepsWaiting f f := ⟨id, fun hl hs => ⟨hl, hs⟩⟩

theorem ProductScreen.submitForm_cases (s : ProductScreen) (clock : Clock) :
    s.submitForm clock = s ∨ ∃ c, s.submitForm clock = { s with
      form := { s.form with isLoading := true }
      store := { s.store with calls := s.store.calls ++ [⟨c, .started⟩] }
      running := some (s.store.calls.length, c) } := by
  unfold submitForm
  split
  · exact .inl rfl
  · split
    · exact .inl rfl
    · exact .inr ⟨_, rfl⟩

theorem screenMove_finish (h : s.finish = some t) :
    ScreenMove s [] (s.hidden .finish) [] [] t := by
  obtain ⟨⟨i, c⟩, hrunning, h⟩ := Option.bind_eq_some_iff.mp h
  obtain ⟨⟨c', phase⟩, hi, h⟩ := Option.bind_eq_some_iff.mp h
  simp only [ProductScreen.hidden, hrunning, hi, Option.toList_some, List.filterMap_cons,
    List.filterMap_nil, Option.bind_some]
  cases hpopped : s.popped with
  | some result =>
    have hgone : s.popped ≠ none := by simp [hpopped]
    cases phase with
    | returned result =>
      obtain rfl := Option.some.inj h
      simpa [ProductScreen.release, ProductScreen.pop, hpopped] using
        ScreenMove.late hgone hrunning hi (by simp) (by simp)
    | threw failure =>
      obtain rfl := Option.some.inj h
      simpa [ProductScreen.release, hpopped] using
        ScreenMove.late hgone hrunning hi (by simp) (by simp)
    | started | checked => cases h
  | none =>
    cases phase with
    | returned result =>
      obtain rfl := Option.some.inj h
      cases hdialog : s.dialog with
      | true =>
        simpa [ProductScreen.release, ProductScreen.pop, hpopped, hdialog] using
          ScreenMove.hidden hpopped hrunning hi
      | false =>
        simpa [ProductScreen.release, ProductScreen.pop, hpopped, hdialog] using
          ScreenMove.succeeded hpopped hrunning hi
    | threw failure =>
      obtain rfl := Option.some.inj h
      simpa [ProductScreen.release, hpopped] using ScreenMove.threw hpopped hrunning hi
    | started | checked => cases h

theorem step_screenMove (h : s.step doubleToString e = some t) :
    ScreenMove s (s.issued e) (s.hidden e) (s.orphaned e) (s.wrote e) t := by
  cases e with
  | form e =>
    obtain ⟨hno, h⟩ := Option.ite_none_left_eq_some.mp h
    obtain ⟨form, hform, rfl⟩ := Option.map_eq_some_iff.mp h
    simp only [Bool.or_eq_true, not_or, Bool.not_eq_true, Bool.not_eq_false'] at hno
    have hkeeps := keepsWaiting_step hno.2 hform
    exact .form s.dialog ⟨hkeeps.search, hkeeps.submit⟩
  | submit clock =>
    obtain ⟨hno, h⟩ := Option.ite_none_left_eq_some.mp h
    obtain rfl := Option.some.inj h
    simp only [Bool.or_eq_true, not_or, Bool.not_eq_true, Option.isSome_eq_false_iff,
      Option.isNone_iff_eq_none] at hno
    rcases s.submitForm_cases clock with he | ⟨c, he⟩
    · simpa [ProductScreen.issued, ProductScreen.hidden, ProductScreen.orphaned,
        ProductScreen.wrote, he] using
        ScreenMove.form s.dialog (.refl s.form)
    · simpa [ProductScreen.issued, ProductScreen.hidden, ProductScreen.orphaned,
        ProductScreen.wrote, he] using
        ScreenMove.submit c hno.1.1 hno.2
  | openDialog =>
    obtain ⟨-, h⟩ := Option.ite_none_left_eq_some.mp h
    obtain rfl := Option.some.inj h
    exact .form true (.refl s.form)
  | closeDialog category =>
    obtain ⟨-, h⟩ := Option.ite_none_left_eq_some.mp h
    obtain rfl := Option.some.inj h
    exact .form false ⟨id, fun hl hs => ⟨hl, hs⟩⟩
  | back =>
    obtain ⟨hno, h⟩ := Option.ite_none_left_eq_some.mp h
    obtain rfl := Option.some.inj h
    simp only [Bool.or_eq_true, not_or, Bool.not_eq_true, Option.isSome_eq_false_iff,
      Option.isNone_iff_eq_none] at hno
    have hpop : s.pop none = { s with popped := some none } := by
      simp [ProductScreen.pop, hno.1, hno.2]
    rw [hpop]
    exact .back hno.1
  | store e =>
    obtain ⟨S, hS, rfl⟩ := Option.map_eq_some_iff.mp h
    exact .store (step_storeMove hS)
  | finish => exact screenMove_finish h

end FlutterPractice.Hisabi
