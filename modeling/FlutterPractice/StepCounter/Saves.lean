import FlutterPractice.StepCounter.Page

/-! # What the preferences hold

After the first save, every key is still to be written by an unfinished
`_saveData` call or holds the value of its field. Hence the preferences hold
the page once all calls are done, and a restart loads it back.
-/

namespace FlutterPractice.StepCounter

open Dart Machine

@[simp] theorem Page.onStepCount_stepHistory (page : Page) (steps : ℤ) :
    (page.onStepCount steps).stepHistory = page.stepHistory := by
  simp only [Page.onStepCount]
  split <;> split <;> rfl

@[simp] theorem Page.onStepCount_lastResetDate (page : Page) (steps : ℤ) :
    (page.onStepCount steps).lastResetDate = page.lastResetDate := by
  simp only [Page.onStepCount]
  split <;> split <;> rfl

namespace State

@[simp] theorem update_page (s : State) (page : Page) : (s.update page).page = page := rfl

@[simp] theorem update_clock (s : State) (page : Page) : (s.update page).clock = s.clock := rfl

@[simp] theorem resetForNewDay_page (s : State) (now : Date) :
    (s.resetForNewDay now).page = s.page.resetForNewDay now := rfl

@[simp] theorem saveTodaySteps_clock (s : State) : s.saveTodaySteps.clock = s.clock := by
  unfold saveTodaySteps
  split <;> rfl

theorem saveTodaySteps_page (s : State) : s.saveTodaySteps.page =
    if 0 < s.page.todaySteps then s.page.recordToday else s.page := by
  unfold saveTodaySteps
  split <;> rfl

theorem saveTodaySteps_frame (s : State) :
    ∃ history, s.saveTodaySteps.page = { s.page with stepHistory := history } := by
  rw [saveTodaySteps_page]
  split
  · exact ⟨_, rfl⟩
  · exact ⟨_, rfl⟩

theorem checkDateChange_of_same {s : State} {later : Date} (h : s.page.lastResetDate = s.clock) :
    s.checkDateChange later = { s with clock := later } := by
  rw [checkDateChange, if_pos (isSameDay_iff.mpr h)]

theorem checkDateChange_of_ne {s : State} {later : Date} (h : s.page.lastResetDate ≠ s.clock) :
    s.checkDateChange later = { s.saveTodaySteps.resetForNewDay later with clock := later } := by
  rw [checkDateChange, if_neg fun hs => h (isSameDay_iff.mp hs)]

theorem checkDateChange_page (s : State) (later : Date) : (s.checkDateChange later).page =
    if s.page.lastResetDate = s.clock then s.page
    else (if 0 < s.page.todaySteps then s.page.recordToday else s.page).resetForNewDay later := by
  split
  · rename_i hd
    rw [checkDateChange_of_same hd]
  · rename_i hd
    rw [checkDateChange_of_ne hd]
    simp only [resetForNewDay_page, saveTodaySteps_page]

theorem checkDateChange_clock (s : State) (later : Date) :
    (s.checkDateChange later).clock = later := by
  unfold checkDateChange
  split <;> rfl

/-- The saves that it starts have written no more than their first key. -/
theorem checkDateChange_prefs_stepHistory (s : State) (later : Date) :
    (s.checkDateChange later).prefs.stepHistory = s.prefs.stepHistory := by
  unfold checkDateChange saveTodaySteps
  split
  · rfl
  · split <;> rfl

theorem writeNext_eq_some {s t : State} {i : ℕ} : s.writeNext i = some t ↔
    ∃ key keys, s.saves[i]? = some (key :: keys) ∧ t =
      { s with
        prefs := s.prefs.write s.page key
        saves := if keys = [] then s.saves.eraseIdx i else s.saves.set i keys } := by
  unfold writeNext
  constructor
  · intro h
    split at h
    · rename_i key keys hi
      exact ⟨key, keys, hi, (Option.some.inj h).symm⟩
    · cases h
  · rintro ⟨key, keys, hi, rfl⟩
    rw [hi]

theorem restarted_eq_some {s t : State} {checked later : Date} :
    s.step (.restarted checked later) = some t ↔
      s.saves = [] ∧ t = .launch s.prefs s.clock checked later := by
  rw [step, Option.ite_none_right_eq_some, Option.some.injEq, eq_comm (a := t)]

end State

theorem Prefs.holds_write_self (prefs : Prefs) (page : Page) (key : Key) :
    (prefs.write page key).Holds page key := by
  cases key <;> rfl

theorem Prefs.Holds.write {prefs : Prefs} {page : Page} {key : Key} (h : prefs.Holds page key)
    (other : Key) : (prefs.write page other).Holds page key := by
  cases other <;> cases key <;> first | exact h | rfl

theorem Page.loadSavedData_of_holds {prefs : Prefs} {page : Page} (created : Date)
    (h : ∀ key, prefs.Holds page key) :
    (Page.create created).loadSavedData prefs = { page with totalSteps := 0 } := by
  have hb : prefs.baselineSteps = some page.baselineSteps := h .baselineSteps
  have ht : prefs.todaySteps = some page.todaySteps := h .todaySteps
  have hg : prefs.dailyGoal = some page.dailyGoal := h .dailyGoal
  have hd : prefs.lastDate = some page.lastResetDate := h .lastDate
  have hh : prefs.stepHistory = some page.stepHistory := h .stepHistory
  simp [Page.loadSavedData, hb, ht, hg, hd, hh, Page.create]

def Pending (s : State) (key : Key) : Prop := ∃ keys ∈ s.saves, key ∈ keys

/-- Every key is pending or holds its field. -/
def Saved (s : State) : Prop := ∀ key, Pending s key ∨ s.prefs.Holds s.page key

/-- Nothing is stored, and the fields have the values that `_loadSavedData` falls back to. -/
def Pristine (s : State) : Prop :=
  s.saves = [] ∧ s.prefs = .empty ∧
    s.page = (Page.create s.page.lastResetDate).loadSavedData .empty

def Stored (s : State) : Prop := Saved s ∨ Pristine s

variable {s t : State}

theorem saved_update (s : State) (page : Page) : Saved (s.update page) := by
  intro key
  have hlast : [.todaySteps, .dailyGoal, .lastDate, .stepHistory] ∈ (s.update page).saves :=
    List.mem_append_right _ (List.mem_singleton.mpr rfl)
  cases key with
  | baselineSteps => exact .inr rfl
  | _ => exact .inl ⟨_, hlast, by decide⟩

theorem Pending.of_writeNext {i : ℕ} {key : Key} (h : Pending s key)
    (ht : s.writeNext i = some t) : Pending t key ∨ t.prefs.Holds t.page key := by
  obtain ⟨head, tail, hi, rfl⟩ := State.writeNext_eq_some.mp ht
  obtain ⟨keys, hmem, hkey⟩ := h
  obtain ⟨j, hj⟩ := List.getElem?_of_mem hmem
  have hlt : i < s.saves.length := (List.getElem?_eq_some_iff.mp hi).1
  by_cases hij : j = i
  · -- The call that writes: its head is written now, its tail remains.
    subst hij
    obtain rfl := Option.some.inj (hj.symm.trans hi)
    rcases List.mem_cons.mp hkey with rfl | htail
    · exact .inr (s.prefs.holds_write_self s.page key)
    · refine .inl ⟨tail, ?_, htail⟩
      have hne : tail ≠ [] := List.ne_nil_of_mem htail
      simp only [if_neg hne]
      exact List.mem_set hlt tail
  · refine .inl ⟨keys, ?_, hkey⟩
    simp only
    split
    · exact List.mem_eraseIdx_iff_getElem?.mpr ⟨j, hij, hj⟩
    · exact List.mem_of_getElem? ((List.getElem?_set_ne (Ne.symm hij)).trans hj)

theorem Saved.writeNext {i : ℕ} (h : Saved s) (ht : s.writeNext i = some t) : Saved t := by
  intro key
  rcases h key with hp | hh
  · exact hp.of_writeNext ht
  · obtain ⟨head, tail, -, rfl⟩ := State.writeNext_eq_some.mp ht
    exact .inr (hh.write head)

theorem Saved.holds (h : Saved s) (hs : s.saves = []) (key : Key) : s.prefs.Holds s.page key := by
  rcases h key with ⟨keys, hmem, -⟩ | hh
  · rw [hs] at hmem
    cases hmem
  · exact hh

/-- Once all saves are done, a new page loads the old one. Its day is that of its creation where
nothing was ever stored. -/
theorem Stored.loadSavedData (h : Stored s) (hs : s.saves = []) (created : Date) :
    ∃ day, (day = s.page.lastResetDate ∨ day = created ∧ s.prefs = .empty) ∧
      (Page.create created).loadSavedData s.prefs =
        { s.page with totalSteps := 0, lastResetDate := day } := by
  rcases h with h | ⟨-, hp, hpage⟩
  · exact ⟨_, .inl rfl, Page.loadSavedData_of_holds created (h.holds hs)⟩
  · refine ⟨created, .inr ⟨rfl, hp⟩, ?_⟩
    rw [hp, hpage]
    rfl

theorem saved_checkDateChange_or (s : State) (later : Date) :
    Saved (s.checkDateChange later) ∨ s.checkDateChange later = { s with clock := later } := by
  by_cases hd : s.page.lastResetDate = s.clock
  · exact .inr (State.checkDateChange_of_same hd)
  · rw [State.checkDateChange_of_ne hd]
    exact .inl (saved_update _ _)

theorem Stored.checkDateChange (h : Stored s) (later : Date) :
    Stored (s.checkDateChange later) := by
  rcases saved_checkDateChange_or s later with hsaved | hsame
  · exact .inl hsaved
  · rw [hsame]
    exact h

theorem Saved.restart (h : Saved s) (hs : s.saves = []) (created checked : Date) :
    Saved ⟨(Page.create created).loadSavedData s.prefs, s.prefs, [], checked⟩ := by
  intro key
  rw [Page.loadSavedData_of_holds created (h.holds hs)]
  have hk := h.holds hs key
  exact .inr (by cases key <;> exact hk)

theorem Stored.restart (h : Stored s) (hs : s.saves = []) (created checked : Date) :
    Stored ⟨(Page.create created).loadSavedData s.prefs, s.prefs, [], checked⟩ := by
  rcases h with h | ⟨-, hp, -⟩
  · exact .inl (h.restart hs created checked)
  · right
    rw [hp]
    exact ⟨rfl, rfl, rfl⟩

theorem stored_launch_empty (created checked later : Date) :
    Stored (State.launch .empty created checked later) :=
  Stored.checkDateChange (.inr ⟨rfl, rfl, rfl⟩) later

theorem writeNext_nil {i : ℕ} (hs : s.saves = []) : s.writeNext i = none := by
  simp [State.writeNext, hs]

theorem step_cases {e : Event} (ht : s.step e = some t) :
    Saved t ∨ (∃ today, t = { s with clock := today }) ∨
      (∃ i, e = .write i ∧ s.writeNext i = some t) ∨
      ∃ checked later, e = .restarted checked later ∧ s.saves = [] ∧
        t = State.launch s.prefs s.clock checked later := by
  cases e with
  | dateChanged today => exact .inr (.inl ⟨today, (Option.some.inj ht).symm⟩)
  | reading steps | resetToday | resetAll | setGoal text =>
    obtain rfl := Option.some.inj ht
    exact .inl (saved_update _ _)
  | paused =>
    obtain rfl := Option.some.inj ht
    unfold State.saveTodaySteps
    split
    · exact .inl (saved_update _ _)
    · exact .inr (.inl ⟨s.clock, rfl⟩)
  | resumed later =>
    obtain rfl := Option.some.inj ht
    rcases saved_checkDateChange_or s later with h | h
    · exact .inl h
    · exact .inr (.inl ⟨later, h⟩)
  | write i => exact .inr (.inr (.inl ⟨i, rfl, ht⟩))
  | restarted checked later =>
    obtain ⟨hs, ht⟩ := State.restarted_eq_some.mp ht
    exact .inr (.inr (.inr ⟨checked, later, rfl, hs, ht⟩))

/-- The events that come from outside and leave the page running. -/
def Event.shared : Event → Bool
  | .write _ | .restarted _ _ => false
  | _ => true

/-- What an event does to the page, on a given date. -/
def Event.onPage (clock : Date) (page : Page) : Event → Page
  | .reading steps => page.onStepCount steps
  | .paused => if 0 < page.todaySteps then page.recordToday else page
  | .resumed later =>
    if page.lastResetDate = clock then page
    else (if 0 < page.todaySteps then page.recordToday else page).resetForNewDay later
  | .resetToday => page.resetTodaySteps
  | .resetAll => page.resetAllHistory
  | .setGoal text => page.setGoal text
  | _ => page

def Event.onClock (clock : Date) : Event → Date
  | .dateChanged today => today
  | .resumed later => later
  | _ => clock

theorem step_onPage {e : Event} (he : e.shared) (ht : s.step e = some t) :
    t.page = e.onPage s.clock s.page ∧ t.clock = e.onClock s.clock := by
  cases e with
  | dateChanged today | reading steps | resetToday | resetAll | setGoal text =>
    obtain rfl := Option.some.inj ht
    exact ⟨rfl, rfl⟩
  | paused =>
    obtain rfl := Option.some.inj ht
    exact ⟨s.saveTodaySteps_page, s.saveTodaySteps_clock⟩
  | resumed later =>
    obtain rfl := Option.some.inj ht
    exact ⟨s.checkDateChange_page later, s.checkDateChange_clock later⟩
  | write i | restarted checked later => cases he

theorem writeNext_onPage {i : ℕ} (ht : s.writeNext i = some t) :
    t.page = s.page ∧ t.clock = s.clock := by
  obtain ⟨key, keys, -, rfl⟩ := State.writeNext_eq_some.mp ht
  exact ⟨rfl, rfl⟩

theorem Stored.step {e : Event} (h : Stored s) (ht : s.step e = some t) : Stored t := by
  rcases step_cases ht with hsaved | ⟨today, rfl⟩ | ⟨i, rfl, hw⟩ | ⟨checked, later, rfl, hs, rfl⟩
  · exact .inl hsaved
  · exact h
  · rcases h with h | ⟨hs, -⟩
    · exact .inl (h.writeNext hw)
    · rw [writeNext_nil hs] at hw
      cases hw
  · exact (h.restart hs _ _).checkDateChange _

theorem Saved.step {e : Event} (h : Saved s) (ht : s.step e = some t) : Saved t := by
  rcases step_cases ht with hsaved | ⟨today, rfl⟩ | ⟨i, rfl, hw⟩ | ⟨checked, later, rfl, hs, rfl⟩
  · exact hsaved
  · exact h
  · exact h.writeNext hw
  · have hload := h.restart hs s.clock checked
    rcases saved_checkDateChange_or _ later with hsaved | hsame
    · exact hsaved
    · rw [State.launch, hsame]
      exact hload

/-- While a save is unfinished, every key is pending or holds its field. -/
def Covered (s : State) : Prop := s.saves ≠ [] → Saved s

theorem covered_launch (prefs : Prefs) (created checked later : Date) :
    Covered (State.launch prefs created checked later) := by
  intro hne
  rcases saved_checkDateChange_or _ later with hsaved | hsame
  · exact hsaved
  · rw [State.launch, hsame] at hne
    exact (hne rfl).elim

theorem Covered.step {e : Event} (h : Covered s) (ht : s.step e = some t) : Covered t := by
  rcases step_cases ht with hsaved | ⟨today, rfl⟩ | ⟨i, rfl, hw⟩ | ⟨checked, later, rfl, -, rfl⟩
  · exact fun _ => hsaved
  · exact h
  · have hne : s.saves ≠ [] := fun hs => by simp [writeNext_nil hs] at hw
    exact fun _ => (h hne).writeNext hw
  · exact covered_launch _ _ _ _

theorem saved_of_exec {prefs : Prefs} {created checked later : Date} {pre post : List Event}
    {u : State} (hu : exec State.step (State.launch prefs created checked later) pre = some u)
    (hsave : u.saves ≠ []) (hs : exec State.step u post = some s) : Saved s := by
  have hcov : Covered u := exec_invariant (covered_launch _ _ _ _) (fun _ _ _ h ht => h.step ht) hu
  exact exec_invariant (hcov hsave) (fun _ _ _ h ht => h.step ht) hs

/--
Whatever the preferences held at first: once a run has started a save, the store reads back as the
fields of the page in every state in which all saves have finished.
-/
theorem loadSavedData_of_finished {prefs : Prefs} {created checked later : Date}
    {pre post : List Event} {u s : State}
    (hu : exec State.step (State.launch prefs created checked later) pre = some u)
    (hsave : u.saves ≠ []) (hs : exec State.step u post = some s) (hfin : s.saves = [])
    (fresh : Date) :
    (Page.create fresh).loadSavedData s.prefs = { s.page with totalSteps := 0 } :=
  Page.loadSavedData_of_holds fresh ((saved_of_exec hu hsave hs).holds hfin)

/-- Two readings whose saves overlap, the second one's writes first. -/
theorem loadSavedData_overlapping : ∃ day s,
    exec State.step (State.launch .empty day day day)
      ([.reading 100, .reading 130] ++
        List.replicate 4 (.write 1) ++ List.replicate 4 (.write 0)) = some s ∧
      (Page.create day).loadSavedData s.prefs = { s.page with totalSteps := 0 } := by
  let day : Date := ⟨2025, 3, 1, by decide, by decide⟩
  let first := State.update ⟨(Page.create day).loadSavedData .empty, .empty, [], day⟩
    ⟨0, 100, 10000, 100, sampleHistory, day⟩
  have hread : exec State.step (State.launch .empty day day day) [.reading 100] = some first := rfl
  have hrest : exec State.step first
      ([.reading 130] ++ List.replicate 4 (.write 1) ++ List.replicate 4 (.write 0)) = some _ := rfl
  exact ⟨day, _, rfl, loadSavedData_of_finished hread (List.cons_ne_nil _ _) hrest rfl day⟩

end FlutterPractice.StepCounter
