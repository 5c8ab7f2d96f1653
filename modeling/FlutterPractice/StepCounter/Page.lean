import FlutterPractice.Dart.Date
import FlutterPractice.Dart.Number
import FlutterPractice.Machine.Run

/-! # The step counter page

The fields of `StepCounterPage`, its preferences, and the `_saveData` calls
that are still writing them. A call writes `baselineSteps` at once and the
other four keys later, one at a time, each with the value that its field has
by then. Other code may run between two writes.
-/

namespace FlutterPractice.StepCounter

open Dart Machine

structure Entry where
  date : String
  steps : ℤ
  goal : ℤ
  deriving DecidableEq

/-- The fields of the page. `_lastResetDate` is read only for its calendar day. -/
structure Page where
  todaySteps : ℤ
  totalSteps : ℤ
  dailyGoal : ℤ
  baselineSteps : ℤ
  stepHistory : List Entry
  lastResetDate : Date
  deriving DecidableEq

inductive Key | baselineSteps | todaySteps | dailyGoal | lastDate | stepHistory
  deriving DecidableEq

structure Prefs where
  baselineSteps : Option ℤ
  todaySteps : Option ℤ
  dailyGoal : Option ℤ
  lastDate : Option Date
  stepHistory : Option (List Entry)
  deriving DecidableEq

namespace Prefs

def empty : Prefs := ⟨none, none, none, none, none⟩

/-- One of the writes of `_saveData`. -/
def write (prefs : Prefs) (page : Page) : Key → Prefs
  | .baselineSteps => { prefs with baselineSteps := some page.baselineSteps }
  | .todaySteps => { prefs with todaySteps := some page.todaySteps }
  | .dailyGoal => { prefs with dailyGoal := some page.dailyGoal }
  | .lastDate => { prefs with lastDate := some page.lastResetDate }
  | .stepHistory => { prefs with stepHistory := some page.stepHistory }

def Holds (prefs : Prefs) (page : Page) : Key → Prop
  | .baselineSteps => prefs.baselineSteps = some page.baselineSteps
  | .todaySteps => prefs.todaySteps = some page.todaySteps
  | .dailyGoal => prefs.dailyGoal = some page.dailyGoal
  | .lastDate => prefs.lastDate = some page.lastResetDate
  | .stepHistory => prefs.stepHistory = some page.stepHistory

end Prefs

/-- The history that `_loadSavedData` starts with when none is stored. -/
def sampleHistory : List Entry := [
  ⟨"2024-01-15", 8432, 10000⟩,
  ⟨"2024-01-14", 12543, 10000⟩,
  ⟨"2024-01-13", 5678, 10000⟩,
  ⟨"2024-01-12", 9876, 10000⟩,
  ⟨"2024-01-11", 7345, 10000⟩]

def isSameDay (date1 date2 : Date) : Bool :=
  date1.year == date2.year && date1.month == date2.month && date1.day == date2.day

/-- Update the entry of a date in place, or insert a new one in front. -/
def upsertEntry (todayDate : String) (steps goal : ℤ) (history : List Entry) : List Entry :=
  match history.findIdx? fun item => item.date = todayDate with
  | some existingIndex =>
    history.modify existingIndex fun item => { item with steps := steps, goal := goal }
  | none => ⟨todayDate, steps, goal⟩ :: history

namespace Page

def create (today : Date) : Page := ⟨0, 0, 10000, 0, [], today⟩

def loadSavedData (page : Page) (prefs : Prefs) : Page where
  baselineSteps := prefs.baselineSteps.getD 0
  todaySteps := prefs.todaySteps.getD 0
  dailyGoal := prefs.dailyGoal.getD 10000
  lastResetDate := prefs.lastDate.getD page.lastResetDate
  stepHistory := prefs.stepHistory.getD sampleHistory
  totalSteps := page.totalSteps

/-- What `_saveTodaySteps` does to the history when there are steps to save. -/
def recordToday (page : Page) : Page :=
  let history := upsertEntry page.lastResetDate.text page.todaySteps page.dailyGoal page.stepHistory
  { page with stepHistory := if history.length > 30 then history.take 30 else history }

def resetForNewDay (page : Page) (now : Date) : Page :=
  { page with baselineSteps := page.totalSteps, todaySteps := 0, lastResetDate := now }

def onStepCount (page : Page) (steps : ℤ) : Page :=
  let baseline := if page.baselineSteps = 0 then steps else page.baselineSteps
  if steps - baseline < 0 then
    { page with totalSteps := steps, todaySteps := 0, baselineSteps := steps }
  else { page with totalSteps := steps, todaySteps := steps - baseline, baselineSteps := baseline }

def resetTodaySteps (page : Page) : Page :=
  { page with baselineSteps := page.totalSteps, todaySteps := 0 }

def resetAllHistory (page : Page) : Page :=
  { page with stepHistory := [], todaySteps := 0, baselineSteps := page.totalSteps }

def setGoal (page : Page) (text : String) : Page :=
  { page with dailyGoal := (parseInt text).getD 10000 }

end Page

/-- The page with its preferences, the writes that each unfinished `_saveData` call has left, and
today's date. -/
structure State where
  page : Page
  prefs : Prefs
  saves : List (List Key)
  clock : Date
  deriving DecidableEq

/-- What happens to the page. A second date is what a later `DateTime.now()` of the same handler
returns, and `paused` stands for `dispose` too. -/
inductive Event where
  | dateChanged (today : Date)
  | reading (steps : ℤ)
  | paused
  | resumed (later : Date)
  | resetToday
  | resetAll
  | setGoal (text : String)
  | write (i : ℕ)
  | restarted (checked later : Date)
  deriving DecidableEq

namespace State

/-- `_saveData` up to its first suspension. -/
def saveData (s : State) : State :=
  { s with
    prefs := s.prefs.write s.page .baselineSteps
    saves := s.saves ++ [[.todaySteps, .dailyGoal, .lastDate, .stepHistory]] }

/-- A change of the fields that calls `_saveData` afterwards. -/
def update (s : State) (page : Page) : State := saveData { s with page := page }

def saveTodaySteps (s : State) : State :=
  if 0 < s.page.todaySteps then s.update s.page.recordToday else s

def resetForNewDay (s : State) (now : Date) : State := s.update (s.page.resetForNewDay now)

/-- `_checkDateChange`, where the clock shows the date of the first `DateTime.now()`. -/
def checkDateChange (s : State) (later : Date) : State :=
  if isSameDay s.page.lastResetDate s.clock then { s with clock := later }
  else { s.saveTodaySteps.resetForNewDay later with clock := later }

/-- A new page over the preferences: created on one day, initialised on another. -/
def launch (prefs : Prefs) (created checked later : Date) : State :=
  checkDateChange ⟨(Page.create created).loadSavedData prefs, prefs, [], checked⟩ later

/-- The next write of the `i`-th unfinished `_saveData` call. -/
def writeNext (s : State) (i : ℕ) : Option State :=
  match s.saves[i]? with
  | some (key :: keys) =>
    some { s with
      prefs := s.prefs.write s.page key
      saves := if keys = [] then s.saves.eraseIdx i else s.saves.set i keys }
  | _ => none

def step (s : State) : Event → Option State
  | .dateChanged today => some { s with clock := today }
  | .reading steps => some (s.update (s.page.onStepCount steps))
  | .paused => some s.saveTodaySteps
  | .resumed later => some (s.checkDateChange later)
  | .resetToday => some (s.update s.page.resetTodaySteps)
  | .resetAll => some (s.update s.page.resetAllHistory)
  | .setGoal text => some (s.update (s.page.setGoal text))
  | .write i => s.writeNext i
  | .restarted checked later =>
    if s.saves = [] then some (launch s.prefs s.clock checked later) else none

end State

theorem isSameDay_iff {d d' : Date} : isSameDay d d' = true ↔ d = d' := by
  simp [isSameDay, Date.ext_iff, and_assoc]

end FlutterPractice.StepCounter
