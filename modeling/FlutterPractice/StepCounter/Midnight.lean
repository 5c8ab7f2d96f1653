import FlutterPractice.StepCounter.History

/-! # Steps and the day they were read on

An account of `_todaySteps` as a sum of increments between readings, kept
beside the page. `_onStepCount` does not look at the date, so the account stays
within one day only where every reading finds the page on the present date.
-/

namespace FlutterPractice.StepCounter

open Dart Machine DatedLog

/-- The steps between two readings, with the dates the two were delivered on. -/
structure Increment where
  first : Date
  second : Date
  steps : ℤ
  deriving DecidableEq

/-- The page, the last reading with its date, and the increments that `_todaySteps` counts. -/
structure Watched where
  state : State
  lastReading : Option (Date × ℤ)
  counted : List Increment
  deriving DecidableEq

/-- `_onStepCount` moves the baseline to the reading itself. -/
def rebases (page : Page) (steps : ℤ) : Bool :=
  page.baselineSteps = 0 || steps < page.baselineSteps

def observe (w : Watched) (e : Event) (t : State) : Watched :=
  match e with
  | .reading steps =>
    { state := t
      lastReading := some (w.state.clock, steps)
      counted :=
        if rebases w.state.page steps then []
        else
          match w.lastReading with
          | some (day, previous) => w.counted ++ [⟨day, w.state.clock, steps - previous⟩]
          | none => w.counted }
  | .resumed _ =>
    { w with
      state := t
      counted := if isSameDay w.state.page.lastResetDate w.state.clock then w.counted else [] }
  | .restarted checked _ =>
    let page := (Page.create w.state.clock).loadSavedData w.state.prefs
    { w with
      state := t
      counted := if isSameDay page.lastResetDate checked then w.counted else [] }
  | .resetToday | .resetAll => { w with state := t, counted := [] }
  | _ => { w with state := t }

def watch (w : Watched) (e : Event) : Option Watched := (w.state.step e).map (observe w e)

def installed (created checked later : Date) : Watched :=
  ⟨.launch .empty created checked later, none, []⟩

/-- A reading finds the page on the present date. -/
def ReadOnDay (w : Watched) (e : Event) (_ : Watched) : Prop :=
  match e with
  | .reading _ => w.state.page.lastResetDate = w.state.clock
  | _ => True

/-- Every record of the history is of steps that were read on its day. -/
def RecordsOnDay (w : Watched) : Op Date (ℤ × ℤ) → Prop
  | .record day _ => ∀ i ∈ w.counted, i.second = day
  | .clear => True

/-- A reading leaves the page on the present date and counts nothing that was read on earlier dates
only, and the history records steps under the day they were read on. -/
def CountedOnDay (w : Watched) (e : Event) (w' : Watched) : Prop :=
  (match e with
    | .reading _ => w'.state.page.lastResetDate = w.state.clock ∧
        ∀ i ∈ w'.counted, ¬ (i.first < w.state.clock ∧ i.second < w.state.clock)
    | _ => True) ∧
  ∀ op ∈ logged w.state e, RecordsOnDay w op

instance (w : Watched) : (op : Op Date (ℤ × ℤ)) → Decidable (RecordsOnDay w op)
  | .record day _ => inferInstanceAs (Decidable (∀ i ∈ w.counted, i.second = day))
  | .clear => .isTrue trivial

instance (w w' : Watched) (e : Event) : Decidable (CountedOnDay w e w') :=
  match e with
  | .reading _ => inferInstanceAs (Decidable ((_ ∧ _) ∧ _))
  | .dateChanged _ | .paused | .resumed _ | .resetToday | .resetAll | .setGoal _ | .write _
  | .restarted _ _ => inferInstanceAs (Decidable (True ∧ _))

variable {w w' : Watched} {e : Event}

theorem watch_eq_some : watch w e = some w' ↔
    ∃ t, w.state.step e = some t ∧ observe w e t = w' := by
  simp [watch]

/-- `_todaySteps` is the sum of the increments, all between consecutive readings. -/
structure Sums (w : Watched) : Prop where
  today : w.state.page.todaySteps = (w.counted.map Increment.steps).sum
  unset : w.state.page.baselineSteps = 0 → w.state.page.todaySteps = 0
  reading : w.state.page.baselineSteps ≠ 0 → ∃ day,
    w.lastReading = some (day, w.state.page.baselineSteps + w.state.page.todaySteps)
  total : w.state.page.totalSteps ≠ 0 → ∃ day,
    w.lastReading = some (day, w.state.page.totalSteps)
  stored : Stored w.state

theorem Sums.checkDateChange {s : State} {last : Option (Date × ℤ)} {counted : List Increment}
    {later : Date} (h : Sums ⟨s, last, counted⟩) :
    Sums ⟨s.checkDateChange later, last,
      if isSameDay s.page.lastResetDate s.clock then counted else []⟩ := by
  by_cases hd : s.page.lastResetDate = s.clock
  · rw [State.checkDateChange_of_same hd, if_pos (isSameDay_iff.mpr hd)]
    exact ⟨h.today, h.unset, h.reading, h.total, h.stored⟩
  · have hst := Stored.checkDateChange h.stored later
    rw [State.checkDateChange_of_ne hd] at hst ⊢
    rw [if_neg fun hs => hd (isSameDay_iff.mp hs)]
    obtain ⟨history, hp⟩ := s.saveTodaySteps_frame
    have htotal : s.saveTodaySteps.page.totalSteps = s.page.totalSteps := by rw [hp]
    refine ⟨rfl, fun _ => rfl, ?_, ?_, hst⟩
    · simpa [Page.resetForNewDay, htotal] using h.total
    · simpa [Page.resetForNewDay, htotal] using h.total

theorem onStepCount_of_rebases {page : Page} {steps : ℤ} (h : rebases page steps) :
    page.onStepCount steps =
      { page with totalSteps := steps, todaySteps := 0, baselineSteps := steps } := by
  simp only [rebases, Bool.or_eq_true, decide_eq_true_eq] at h
  by_cases h0 : page.baselineSteps = 0
  · simp [Page.onStepCount, h0]
  · have hlt : steps < page.baselineSteps := h.resolve_left h0
    simp only [Page.onStepCount, if_neg h0, if_pos (Int.sub_neg_of_lt hlt)]

theorem onStepCount_of_not_rebases {page : Page} {steps : ℤ} (h : ¬ rebases page steps) :
    page.onStepCount steps =
      { page with totalSteps := steps, todaySteps := steps - page.baselineSteps } := by
  simp only [rebases, Bool.or_eq_true, decide_eq_true_eq, not_or, not_lt] at h
  have hnot : ¬ steps - page.baselineSteps < 0 := by omega
  simp only [Page.onStepCount, if_neg h.1, if_neg hnot]

/-- A reading adds its distance from the reading before it, unless it moves the baseline. -/
theorem Sums.onStepCount (h : Sums w) (steps : ℤ) :
    Sums (observe w (.reading steps) (w.state.update (w.state.page.onStepCount steps))) := by
  have hst : Stored (w.state.update (w.state.page.onStepCount steps)) := .inl (saved_update _ _)
  by_cases hr : rebases w.state.page steps
  · have hpage := onStepCount_of_rebases hr
    refine ⟨?_, ?_, ?_, ?_, hst⟩
    · simp [observe, hr, hpage]
    · simp [observe, hpage]
    · simp [observe, hpage]
    · simp [observe, hpage]
  · have hpage := onStepCount_of_not_rebases hr
    have hb : w.state.page.baselineSteps ≠ 0 := by
      intro h0
      simp [rebases, h0] at hr
    obtain ⟨day, hlast⟩ := h.reading hb
    refine ⟨?_, ?_, ?_, ?_, hst⟩
    · have htoday := h.today
      simp [observe, hr, hpage, hlast]
      omega
    · simp [observe, hpage, hb]
    · simp [observe, hpage]
    · simp [observe, hpage]

theorem Sums.step (h : Sums w) (hw : watch w e = some w') : Sums w' := by
  obtain ⟨t, ht, rfl⟩ := watch_eq_some.mp hw
  have hst := h.stored.step ht
  cases e with
  | dateChanged today =>
    obtain rfl := Option.some.inj ht
    exact ⟨h.today, h.unset, h.reading, h.total, hst⟩
  | reading steps =>
    obtain rfl := Option.some.inj ht
    exact h.onStepCount steps
  | paused =>
    obtain rfl := Option.some.inj ht
    obtain ⟨history, hp⟩ := w.state.saveTodaySteps_frame
    refine ⟨?_, ?_, ?_, ?_, hst⟩
    · simpa [observe, hp] using h.today
    · simpa [observe, hp] using h.unset
    · simpa [observe, hp] using h.reading
    · simpa [observe, hp] using h.total
  | resumed later =>
    obtain rfl := Option.some.inj ht
    exact h.checkDateChange
  | resetToday | resetAll =>
    obtain rfl := Option.some.inj ht
    refine ⟨rfl, fun _ => rfl, ?_, h.total, hst⟩
    simpa [observe, Page.resetTodaySteps, Page.resetAllHistory] using h.total
  | setGoal text =>
    obtain rfl := Option.some.inj ht
    exact ⟨h.today, h.unset, h.reading, h.total, hst⟩
  | write i =>
    obtain ⟨key, keys, -, rfl⟩ := State.writeNext_eq_some.mp ht
    exact ⟨h.today, h.unset, h.reading, h.total, hst⟩
  | restarted checked later =>
    obtain ⟨hs, rfl⟩ := State.restarted_eq_some.mp ht
    obtain ⟨day, -, hpage⟩ := h.stored.loadSavedData hs w.state.clock
    have hload : Sums ⟨⟨(Page.create w.state.clock).loadSavedData w.state.prefs,
        w.state.prefs, [], checked⟩, w.lastReading, w.counted⟩ := by
      have hst := h.stored.restart hs w.state.clock checked
      rw [hpage] at hst ⊢
      exact ⟨h.today, h.unset, h.reading, fun h0 => (h0 rfl).elim, hst⟩
    exact hload.checkDateChange

theorem sums_installed (created checked later : Date) : Sums (installed created checked later) := by
  have hload : Sums ⟨⟨(Page.create created).loadSavedData .empty, .empty, [], checked⟩, none, []⟩ :=
    ⟨rfl, fun _ => rfl, fun hn => (hn rfl).elim, fun hn => (hn rfl).elim, .inr ⟨rfl, rfl, rfl⟩⟩
  have h := @Sums.checkDateChange _ none [] later hload
  rwa [ite_self] at h

/-- In every state `_todaySteps` is what the account of the run adds up to. -/
theorem todaySteps_eq_sum {created checked later : Date} {es : List Event}
    (h : exec watch (installed created checked later) es = some w) :
    w.state.page.todaySteps = (w.counted.map Increment.steps).sum :=
  (exec_invariant (sums_installed created checked later) (fun _ _ _ hs hw => hs.step hw) h).today

/-- All that is counted was read on the day of the page, and counting has been saved. -/
structure OneDay (w : Watched) : Prop where
  second : ∀ i ∈ w.counted, i.second = w.state.page.lastResetDate
  saved : w.counted ≠ [] → w.state.prefs.baselineSteps ≠ none
  stored : Stored w.state

theorem baseline_checkDateChange {s : State} {later : Date} (h : s.prefs.baselineSteps ≠ none) :
    (s.checkDateChange later).prefs.baselineSteps ≠ none := by
  by_cases hd : s.page.lastResetDate = s.clock
  · rwa [State.checkDateChange_of_same hd]
  · rw [State.checkDateChange_of_ne hd]
    exact Option.some_ne_none _

theorem baseline_step {s t : State} (ht : s.step e = some t)
    (h : s.prefs.baselineSteps ≠ none) : t.prefs.baselineSteps ≠ none := by
  cases e with
  | dateChanged today =>
    obtain rfl := Option.some.inj ht
    exact h
  | reading steps | resetToday | resetAll | setGoal text =>
    obtain rfl := Option.some.inj ht
    exact Option.some_ne_none _
  | paused =>
    obtain rfl := Option.some.inj ht
    unfold State.saveTodaySteps
    split
    · exact Option.some_ne_none _
    · exact h
  | resumed later =>
    obtain rfl := Option.some.inj ht
    exact baseline_checkDateChange h
  | write i =>
    obtain ⟨key, keys, -, rfl⟩ := State.writeNext_eq_some.mp ht
    cases key with
    | baselineSteps => exact Option.some_ne_none _
    | _ => exact h
  | restarted checked later =>
    obtain ⟨-, rfl⟩ := State.restarted_eq_some.mp ht
    exact baseline_checkDateChange h

theorem recordsOnDay_recorded {page : Page} {op : Op Date (ℤ × ℤ)} (h : op ∈ recorded page)
    (hw : ∀ i ∈ w.counted, i.second = page.lastResetDate) : RecordsOnDay w op := by
  unfold recorded at h
  split at h
  · obtain rfl := List.mem_singleton.mp h
    exact hw
  · cases h

theorem mem_recorded_of_mem_recordedOn {page : Page} {today : Date} {op : Op Date (ℤ × ℤ)}
    (h : op ∈ recordedOn today page) : op ∈ recorded page := by
  unfold recordedOn at h
  split at h
  · cases h
  · exact h

theorem OneDay.second_loaded (h : OneDay w) (hs : w.state.saves = []) :
    ∀ i ∈ w.counted,
      i.second = ((Page.create w.state.clock).loadSavedData w.state.prefs).lastResetDate := by
  intro i hi
  obtain ⟨day, hday, hpage⟩ := h.stored.loadSavedData hs w.state.clock
  rw [hpage]
  rcases hday with rfl | ⟨-, hempty⟩
  · exact h.second i hi
  · refine (h.saved (List.ne_nil_of_mem hi) ?_).elim
    rw [hempty]
    rfl

theorem OneDay.records (h : OneDay w) {t : State} (ht : w.state.step e = some t) :
    ∀ op ∈ logged w.state e, RecordsOnDay w op := by
  intro op hop
  cases e with
  | paused => exact recordsOnDay_recorded hop h.second
  | resumed later => exact recordsOnDay_recorded (mem_recorded_of_mem_recordedOn hop) h.second
  | resetAll =>
    obtain rfl := List.mem_singleton.mp hop
    trivial
  | restarted checked later =>
    obtain ⟨hs, rfl⟩ := State.restarted_eq_some.mp ht
    exact recordsOnDay_recorded (mem_recorded_of_mem_recordedOn hop) (h.second_loaded hs)
  | _ => cases hop

theorem second_checkDateChange {s : State} {counted : List Increment} {later : Date}
    (h : ∀ i ∈ counted, i.second = s.page.lastResetDate) :
    ∀ i ∈ (if isSameDay s.page.lastResetDate s.clock then counted else []),
      i.second = (s.checkDateChange later).page.lastResetDate := by
  intro i hi
  split at hi
  · rename_i hd
    rw [State.checkDateChange_of_same (isSameDay_iff.mp hd)]
    exact h i hi
  · cases hi

theorem OneDay.step (h : OneDay w) (hd : ReadOnDay w e w') (hw : watch w e = some w') :
    OneDay w' := by
  obtain ⟨t, ht, rfl⟩ := watch_eq_some.mp hw
  have hst := h.stored.step ht
  have hsaved (hn : w.counted ≠ []) := baseline_step ht (h.saved hn)
  cases e with
  | dateChanged today =>
    obtain rfl := Option.some.inj ht
    exact ⟨h.second, hsaved, hst⟩
  | reading steps =>
    obtain rfl := Option.some.inj ht
    have hd : w.state.page.lastResetDate = w.state.clock := hd
    refine ⟨?_, fun _ => Option.some_ne_none _, hst⟩
    intro i hi
    simp only [observe, State.update_page, Page.onStepCount_lastResetDate] at hi ⊢
    split at hi
    · cases hi
    · split at hi
      · rcases List.mem_append.mp hi with hi | hi
        · exact h.second i hi
        · obtain rfl := List.mem_singleton.mp hi
          exact hd.symm
      · exact h.second i hi
  | paused =>
    obtain rfl := Option.some.inj ht
    obtain ⟨history, hp⟩ := w.state.saveTodaySteps_frame
    refine ⟨?_, hsaved, hst⟩
    simpa [observe, hp] using h.second
  | resumed later =>
    obtain rfl := Option.some.inj ht
    refine ⟨second_checkDateChange h.second, fun hn => hsaved ?_, hst⟩
    rintro hnil
    exact hn (by simp [observe, hnil])
  | resetToday | resetAll =>
    obtain rfl := Option.some.inj ht
    exact ⟨fun _ hi => (List.not_mem_nil hi).elim, fun _ => Option.some_ne_none _, hst⟩
  | setGoal text =>
    obtain rfl := Option.some.inj ht
    exact ⟨h.second, hsaved, hst⟩
  | write i =>
    have hpage : t.page = w.state.page := by
      obtain ⟨key, keys, -, rfl⟩ := State.writeNext_eq_some.mp ht
      rfl
    refine ⟨?_, hsaved, hst⟩
    simpa [observe, hpage] using h.second
  | restarted checked later =>
    obtain ⟨hs, rfl⟩ := State.restarted_eq_some.mp ht
    refine ⟨second_checkDateChange (s := ⟨_, _, [], checked⟩) (h.second_loaded hs),
      fun hn => hsaved ?_, hst⟩
    rintro hnil
    exact hn (by simp [observe, hnil])

theorem OneDay.countedOnDay (h : OneDay w) (hd : ReadOnDay w e w') (hw : watch w e = some w') :
    CountedOnDay w e w' := by
  have h' := h.step hd hw
  obtain ⟨t, ht, rfl⟩ := watch_eq_some.mp hw
  refine ⟨?_, h.records ht⟩
  cases e with
  | reading steps =>
    obtain rfl := Option.some.inj ht
    have hd : w.state.page.lastResetDate = w.state.clock := hd
    have hlast : (w.state.page.onStepCount steps).lastResetDate = w.state.clock := by
      rw [Page.onStepCount_lastResetDate, hd]
    refine ⟨hlast, fun i hi hlt => ?_⟩
    exact hlt.2.ne ((h'.second i hi).trans hlast)
  | _ => trivial

theorem CountedOnDay.readOnDay (h : CountedOnDay w e w') (hw : watch w e = some w') :
    ReadOnDay w e w' := by
  obtain ⟨t, ht, rfl⟩ := watch_eq_some.mp hw
  cases e with
  | reading steps =>
    obtain rfl := Option.some.inj ht
    have hlast : (w.state.page.onStepCount steps).lastResetDate = w.state.clock := h.1.1
    rwa [Page.onStepCount_lastResetDate] at hlast
  | _ => trivial

theorem oneDay_installed (created checked later : Date) :
    OneDay (installed created checked later) :=
  ⟨fun _ hi => (List.not_mem_nil hi).elim, fun hn => (hn rfl).elim, stored_launch_empty _ _ _⟩

/--
A run counts all steps under the day they were read on exactly when every reading of the run finds
`_lastResetDate` on the present date.
-/
theorem along_countedOnDay_iff (created checked later : Date) (es : List Event) :
    Along watch CountedOnDay (installed created checked later) es ↔
      Along watch ReadOnDay (installed created checked later) es := by
  apply along_congr (I := OneDay) (oneDay_installed _ _ _)
  intro w e w' hs hw
  refine ⟨?_, fun hd => hs.step hd hw⟩
  constructor
  · exact fun hc => hc.readOnDay hw
  · exact fun hd => hs.countedOnDay hd hw

/-- Midnight passes while the page stays open: ten steps of the second day go to the first. -/
theorem midnight_not_countedOnDay :
    let w := installed march1 march1 march1
    let es := [.reading 100, .reading 150, .dateChanged march2, .reading 160, .paused]
    ¬ Along watch CountedOnDay w es ∧
      (exec watch w es).map (fun w => w.state.page.stepHistory.head?) =
        some (some ⟨"2025-03-01", 60, 10000⟩) := by
  decide

end FlutterPractice.StepCounter
