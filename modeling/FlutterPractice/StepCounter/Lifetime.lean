import FlutterPractice.Machine.Lifetime
import FlutterPractice.StepCounter.Saves

/-! # The lifetime of the step counter page

The callbacks of `StepCounterPage` with their calls of `setState`, from the
preferences that `_initialize` awaits to the stream of the pedometer. `dispose`
removes the observer of the app and saves the steps. It cancels neither what is
awaited nor the subscription to the stream, which nothing holds on to.
-/

namespace FlutterPractice.StepCounter

open Dart Machine Lifetime

/-- The page with the texts of its status, what `_initialize` awaits, and the subscription. -/
structure Live where
  state : State
  status : String
  isCounting : Bool
  awaitsPrefs : Bool
  awaitsPermission : Bool
  listening : Bool
  deriving DecidableEq

/-- What happens to the page. The permission is `none` where the request for it throws, and the
stream may be unavailable. -/
inductive LiveEvent where
  | dateChanged (today : Date)
  | prefsAnswered (later : Date)
  | permissionAnswered (isGranted : Option Bool) (available : Bool)
  | reading (steps : ℤ)
  | streamError
  | streamDone
  | paused
  | resumed (later : Date)
  | resetToday
  | resetAll
  | setGoal (text : String)
  | write (i : ℕ)
  deriving DecidableEq

namespace Live

/-- The page that `initState` leaves on the first day, over the stored preferences. -/
def initial (prefs : Prefs) (created : Date) : Live where
  state := ⟨Page.create created, prefs, [], created⟩
  status := "Initializing..."
  isCounting := false
  awaitsPrefs := true
  awaitsPermission := false
  listening := false

def setPage (f : Page → Page) (s : Live) : Live :=
  { s with state := { s.state with page := f s.state.page } }

def setClock (today : Date) : Callback Live :=
  .modify fun s => { s with state := { s.state with clock := today } }

/-- `_saveData`, which throws into its own future until the preferences are there. -/
def saveData : Callback Live :=
  .modify fun s => if s.awaitsPrefs then s else { s with state := s.state.saveData }

def saveTodaySteps : Callback Live :=
  .branch (fun s => 0 < s.state.page.todaySteps)
    (.andThen (.modify (setPage Page.recordToday)) saveData) .skip

/-- The clock shows the date of its `DateTime.now()`. -/
def resetForNewDay : Callback Live :=
  .andThen (.setState fun s =>
    { s.setPage (fun page => page.resetForNewDay s.state.clock) with status := "New day started!" })
    saveData

/-- The second date is that of the `DateTime.now()` in `_resetForNewDay`. -/
def checkDateChange (later : Date) : Callback Live :=
  .branch (fun s => isSameDay s.state.page.lastResetDate s.state.clock) (setClock later) <|
    .andThen saveTodaySteps (.andThen (setClock later) resetForNewDay)

/-- `_initialize` behind `SharedPreferences.getInstance`. The request for the permission is sent
between the load and the check of the date. -/
def initializePage (later : Date) : Callback Live :=
  .andThen (.modify fun s =>
    { s.setPage (fun page => page.loadSavedData s.state.prefs) with
      awaitsPrefs := false, awaitsPermission := true })
    (checkDateChange later)

def initializePedometer (available : Bool) : Callback Live :=
  .attempt
    (.andThen (if available then .modify fun s => { s with listening := true } else .throw)
      (.setState fun s => { s with isCounting := true, status := "Counting steps..." }))
    (.setState fun s =>
      { s with
        status := "Error initializing pedometer. Using alternative method..."
        isCounting := false })

/-- `_checkPermissionsAndInitialize` behind the request. -/
def onPermission (isGranted : Option Bool) (available : Bool) : Callback Live :=
  .andThen (.modify fun s => { s with awaitsPermission := false }) <|
    match isGranted with
    | some true => initializePedometer available
    | some false =>
      .setState fun s => { s with status := "Permission denied. Cannot count steps." }
    | none => .throw

def onStepCount (steps : ℤ) : Callback Live :=
  .andThen (.setState fun s =>
    { s.setPage (fun page => page.onStepCount steps) with status := "Counting steps..." }) saveData

def onError : Callback Live :=
  .setState fun s => { s with status := "Step counter paused. Keep walking!" }

def onDone : Callback Live :=
  .andThen (.modify fun s => { s with listening := false }) <|
    .setState fun s => { s with status := "Step counting stopped", isCounting := false }

def update (f : Page → Page) : Callback Live := .andThen (.setState (setPage f)) saveData

/-- The observer of the app is on the page until `dispose`, as its buttons are. -/
def widget : Widget Live LiveEvent where
  onScreen
    | .paused | .resumed _ | .resetToday | .resetAll | .setGoal _ => true
    | _ => false
  callback s
    | .dateChanged today => some (setClock today)
    | .prefsAnswered later => if s.awaitsPrefs then some (initializePage later) else none
    | .permissionAnswered isGranted available =>
      if s.awaitsPermission then some (onPermission isGranted available) else none
    | .reading steps => if s.listening then some (onStepCount steps) else none
    | .streamError => if s.listening then some onError else none
    | .streamDone => if s.listening then some onDone else none
    | .paused => some saveTodaySteps
    | .resumed later => some (checkDateChange later)
    | .resetToday => some (update Page.resetTodaySteps)
    | .resetAll => some (update Page.resetAllHistory)
    | .setGoal text => some (update fun page => page.setGoal text)
    | .write i =>
      (s.state.writeNext i).map fun state => .modify fun s => { s with state := state }
  dispose := saveTodaySteps

/-- The preferences of another day, an answer for the permission, and what the stream brings. -/
def Late (s : Live) : LiveEvent → Prop
  | .prefsAnswered _ =>
    (s.state.page.loadSavedData s.state.prefs).lastResetDate ≠ s.state.clock
  | .permissionAnswered isGranted _ => isGranted.isSome = true
  | .reading _ | .streamError | .streamDone => True
  | _ => False

/-- Nothing is awaited, and nobody listens to the stream. -/
structure Quiet (s : Live) : Prop where
  prefs : s.awaitsPrefs = false
  permission : s.awaitsPermission = false
  stream : s.listening = false

variable {s : Live} {p : Lifetime.Page Live} {es : List (Lifetime.Event LiveEvent)}
  {disposed : Bool}

section Mounted

theorem saveData_eq (h : s.awaitsPrefs = false) :
    saveData disposed s = ⟨{ s with state := s.state.saveData }, false, false⟩ := by
  rw [saveData, Callback.modify_apply, if_neg (by simp [h])]

theorem saveTodaySteps_eq (h : s.awaitsPrefs = false) :
    saveTodaySteps disposed s = ⟨{ s with state := s.state.saveTodaySteps }, false, false⟩ := by
  rw [saveTodaySteps, Callback.branch, State.saveTodaySteps]
  by_cases hpos : 0 < s.state.page.todaySteps
  · rw [if_pos (by simpa using hpos), if_pos hpos, Callback.modify_andThen]
    exact saveData_eq h
  · rw [if_neg (by simpa using hpos), if_neg hpos]
    rfl

theorem update_mounted (h : s.awaitsPrefs = false) (f : Page → Page) :
    (update f false s).fields = { s with state := s.state.update (f s.state.page) } := by
  have hf : (s.setPage f).awaitsPrefs = false := h
  rw [update, Callback.setState_andThen_mounted, saveData_eq hf]
  rfl

theorem onStepCount_mounted (h : s.awaitsPrefs = false) (steps : ℤ) :
    (onStepCount steps false s).fields.state =
      s.state.update (s.state.page.onStepCount steps) := by
  rw [onStepCount, Callback.setState_andThen_mounted, saveData_eq (by exact h)]
  rfl

theorem resetForNewDay_mounted (h : s.awaitsPrefs = false) :
    (resetForNewDay false s).fields.state = s.state.resetForNewDay s.state.clock := by
  rw [resetForNewDay, Callback.setState_andThen_mounted, saveData_eq (by exact h)]
  rfl

theorem checkDateChange_mounted (h : s.awaitsPrefs = false) (later : Date) :
    (checkDateChange later false s).fields.state = s.state.checkDateChange later := by
  rw [checkDateChange, Callback.branch, State.checkDateChange]
  split
  · rfl
  · have hsave : saveTodaySteps false s = _ := saveTodaySteps_eq h
    rw [Callback.andThen_of_returned (by rw [hsave]), hsave, setClock, Callback.modify_andThen]
    exact resetForNewDay_mounted h

theorem initializePage_mounted (prefs : Prefs) (created checked later : Date) :
    (initializePage later false
      (setClock checked false (initial prefs created)).fields).fields.state =
        .launch prefs created checked later := by
  rw [initializePage, Callback.modify_andThen, checkDateChange_mounted rfl]
  rfl

def toEvent : LiveEvent → Option Event
  | .dateChanged today => some (.dateChanged today)
  | .reading steps => some (.reading steps)
  | .paused => some .paused
  | .resumed later => some (.resumed later)
  | .resetToday => some .resetToday
  | .resetAll => some .resetAll
  | .setGoal text => some (.setGoal text)
  | .write i => some (.write i)
  | _ => none

theorem step_mounted {e : LiveEvent} {e' : Event} (hprefs : s.awaitsPrefs = false)
    (hstream : s.listening = true) (he : toEvent e = some e') :
    (widget.step ⟨s, false⟩ (.callback e)).map (fun p => p.fields.state) = s.state.step e' := by
  rw [Widget.step_mounted]
  cases e with
  | dateChanged today =>
    obtain rfl := Option.some.inj he
    rfl
  | reading steps =>
    obtain rfl := Option.some.inj he
    simp only [widget, if_pos hstream, Option.map_some, onStepCount_mounted hprefs, State.step]
  | paused =>
    obtain rfl := Option.some.inj he
    simp only [widget, Option.map_some, saveTodaySteps_eq hprefs, State.step]
  | resumed later =>
    obtain rfl := Option.some.inj he
    simp only [widget, Option.map_some, checkDateChange_mounted hprefs, State.step]
  | resetToday | resetAll | setGoal text =>
    obtain rfl := Option.some.inj he
    simp only [widget, Option.map_some, update_mounted hprefs, State.step]
  | write i =>
    obtain rfl := Option.some.inj he
    simp only [widget, State.step]
    cases s.state.writeNext i <;> rfl
  | _ => cases he

end Mounted

theorem saveData_frame (disposed : Bool) (s : Live) :
    ∃ state, saveData disposed s = ⟨{ s with state := state }, false, false⟩ := by
  rw [saveData, Callback.modify_apply]
  split
  · exact ⟨s.state, rfl⟩
  · exact ⟨_, rfl⟩

theorem saveTodaySteps_frame (disposed : Bool) (s : Live) :
    ∃ state, saveTodaySteps disposed s = ⟨{ s with state := state }, false, false⟩ := by
  rw [saveTodaySteps, Callback.branch]
  split
  · exact saveData_frame disposed (s.setPage Page.recordToday)
  · exact ⟨s.state, rfl⟩

/-- A disposed page saves the steps of another day before `setState` throws. -/
theorem checkDateChange_disposed (later : Date) (s : Live) : ∃ state,
    checkDateChange later true s = ⟨{ s with state := state },
      decide (s.state.page.lastResetDate ≠ s.state.clock),
      decide (s.state.page.lastResetDate ≠ s.state.clock)⟩ := by
  rw [checkDateChange, Callback.branch]
  by_cases hd : s.state.page.lastResetDate = s.state.clock
  · rw [if_pos (isSameDay_iff.mpr hd)]
    exact ⟨{ s.state with clock := later }, by simp [setClock, hd]⟩
  · rw [if_neg fun h => hd (isSameDay_iff.mp h)]
    obtain ⟨state, hsave⟩ := saveTodaySteps_frame true s
    rw [Callback.andThen_of_returned (by rw [hsave]), hsave]
    exact ⟨{ state with clock := later }, by simp [setClock, resetForNewDay, hd]⟩

theorem called_initializePedometer (available : Bool) (s : Live) :
    (initializePedometer available true s).called = true := by
  cases available <;> rfl

theorem called_onPermission (isGranted : Option Bool) (available : Bool) (s : Live) :
    (onPermission isGranted available true s).called = true ↔ isGranted.isSome = true := by
  rcases isGranted with _ | _ | _
  · simp [onPermission]
  · simp [onPermission]
  · simp [onPermission, called_initializePedometer]

theorem called_initializePage (later : Date) (s : Live) :
    (initializePage later true s).called = true ↔
      (s.state.page.loadSavedData s.state.prefs).lastResetDate ≠ s.state.clock := by
  rw [initializePage, Callback.modify_andThen]
  obtain ⟨state, hcheck⟩ := checkDateChange_disposed later _
  rw [hcheck, decide_eq_true_iff]
  exact Iff.rfl

/-- A page that is disposed sends the request for the permission, too. -/
theorem initializePage_awaitsPermission (later : Date) (s : Live) :
    (initializePage later true s).fields.awaitsPermission = true := by
  rw [initializePage, Callback.modify_andThen]
  obtain ⟨state, hcheck⟩ := checkDateChange_disposed later _
  rw [hcheck]

theorem along_spares_iff : Along widget.step widget.Spares p es ↔
    Along widget.step (Avoids Late) p es := by
  apply Widget.along_spares_iff
  intro s e c hscreen hc
  cases e with
  | dateChanged today =>
    obtain rfl := Option.some.inj hc
    simp [setClock, Late]
  | prefsAnswered later =>
    obtain ⟨-, hc⟩ := Option.ite_none_right_eq_some.mp hc
    obtain rfl := Option.some.inj hc
    exact called_initializePage later s
  | permissionAnswered isGranted available =>
    obtain ⟨-, hc⟩ := Option.ite_none_right_eq_some.mp hc
    obtain rfl := Option.some.inj hc
    exact called_onPermission isGranted available s
  | reading | streamError | streamDone =>
    obtain ⟨-, hc⟩ := Option.ite_none_right_eq_some.mp hc
    obtain rfl := Option.some.inj hc
    exact iff_of_true rfl trivial
  | write i =>
    obtain ⟨state, -, rfl⟩ := Option.map_eq_some_iff.mp hc
    simp [Late]
  | paused | resumed | resetToday | resetAll | setGoal => cases hscreen

theorem forall_along_spares_iff (hp : p.disposed = true) :
    (∀ es, Along widget.step widget.Spares p es) ↔ Quiet p.fields := by
  apply Widget.forall_along_spares_iff Quiet hp
  · intro s e c hs hscreen hc
    cases e with
    | dateChanged today =>
      obtain rfl := Option.some.inj hc
      exact ⟨rfl, hs.prefs, hs.permission, hs.stream⟩
    | write i =>
      obtain ⟨state, -, rfl⟩ := Option.map_eq_some_iff.mp hc
      exact ⟨rfl, hs.prefs, hs.permission, hs.stream⟩
    | prefsAnswered later => simp [widget, hs.prefs] at hc
    | permissionAnswered isGranted available => simp [widget, hs.permission] at hc
    | reading | streamError | streamDone => simp [widget, hs.stream] at hc
    | paused | resumed | resetToday | resetAll | setGoal => cases hscreen
  · intro s hs
    have hdenied (s : Live) (h : s.awaitsPermission = true) :
        ¬ Along widget.step widget.Spares ⟨s, true⟩
          [.callback (.permissionAnswered (some false) false)] :=
      Widget.not_along_singleton rfl (if_pos h) rfl
    cases hprefs : s.awaitsPrefs with
    | true =>
      exact ⟨[.callback (.prefsAnswered s.state.clock), _],
        Widget.not_along_cons rfl (if_pos hprefs) (hdenied _ (initializePage_awaitsPermission _ s))⟩
    | false =>
      cases hpermission : s.awaitsPermission with
      | true => exact ⟨_, hdenied s hpermission⟩
      | false =>
        cases hstream : s.listening with
        | true =>
          exact ⟨[.callback .streamError], Widget.not_along_singleton rfl (if_pos hstream) rfl⟩
        | false => exact absurd ⟨hprefs, hpermission, hstream⟩ hs

end Live

end FlutterPractice.StepCounter
