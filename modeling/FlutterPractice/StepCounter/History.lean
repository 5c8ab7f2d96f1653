import FlutterPractice.Machine.DatedLog
import FlutterPractice.StepCounter.Saves

/-! # The step history is a dated log

`_saveTodaySteps` records the steps and the goal of a day, and a reset clears
all days. Over any run, restarts included, the history shows the 30 newest
entries of the log of these records.
-/

namespace FlutterPractice.StepCounter

open Dart Machine DatedLog

abbrev Log := DatedLog Date (ℤ × ℤ)

def toEntry (x : Date × ℤ × ℤ) : Entry := ⟨x.1.text, x.2.1, x.2.2⟩

def sampleDay (day : ℕ) (h : day < 32) : Date := ⟨2024, 1, day, by decide, h⟩

def lastSampleDay : Date := sampleDay 15 (by decide)

def sampleLog : Log := ofEntries [
  (lastSampleDay, 8432, 10000),
  (sampleDay 14 (by decide), 12543, 10000),
  (sampleDay 13 (by decide), 5678, 10000),
  (sampleDay 12 (by decide), 9876, 10000),
  (sampleDay 11 (by decide), 7345, 10000)]

def recorded (page : Page) : List (Op Date (ℤ × ℤ)) :=
  if 0 < page.todaySteps then
    [.record page.lastResetDate (page.todaySteps, page.dailyGoal)]
  else []

/-- What `_checkDateChange` records. -/
def recordedOn (today : Date) (page : Page) : List (Op Date (ℤ × ℤ)) :=
  if isSameDay page.lastResetDate today then [] else recorded page

def logged (s : State) : Event → List (Op Date (ℤ × ℤ))
  | .paused => recorded s.page
  | .resumed _ => recordedOn s.clock s.page
  | .resetAll => [.clear]
  | .restarted checked _ => recordedOn checked ((Page.create s.clock).loadSavedData s.prefs)
  | _ => []

/-- The dates that the clock shows from the event on. -/
def Event.dates : Event → List Date
  | .dateChanged today => [today]
  | .resumed later => [later]
  | .restarted checked later => [checked, later]
  | _ => []

/-- The clock does not go backwards. -/
def Forward (s : State) (e : Event) (_ : State) : Prop := (s.clock :: e.dates).Pairwise (· ≤ ·)

instance (s t : State) (e : Event) : Decidable (Forward s e t) :=
  inferInstanceAs (Decidable (List.Pairwise _ _))

/-- The page shows the recent entries of the log, whose dates its own day has reached. -/
structure Shows (page : Page) (L : Log) : Prop where
  history : page.stepHistory = (L.recent 30).map toEntry
  dates_le : ∀ d ∈ L.dates, d ≤ page.lastResetDate
  steps_pos : ∀ d ∈ L.dates, 0 < (L.value d).1

structure Tracks (s : State) (L : Log) : Prop where
  shows : Shows s.page L
  date_le : s.page.lastResetDate ≤ s.clock
  stored : Stored s

theorem Forward.le {s t : State} {e : Event} (h : Forward s e t) : ∀ d ∈ e.dates, s.clock ≤ d :=
  (List.pairwise_cons.mp h).1

theorem Forward.restarted {s t : State} {checked later : Date}
    (h : Forward s (.restarted checked later) t) : s.clock ≤ checked ∧ checked ≤ later :=
  ⟨h.le _ List.mem_cons_self,
    (List.pairwise_cons.mp (List.pairwise_cons.mp h).2).1 _ List.mem_cons_self⟩

theorem findIdx?_toEntry (d : Date) (l : List (Date × ℤ × ℤ)) :
    (l.map toEntry).findIdx? (fun item => item.date = d.text) =
      l.findIdx? fun x => x.1 = d := by
  rw [List.findIdx?_map]
  congr 1
  funext x
  simp [toEntry, Date.text_injective.eq_iff]

theorem upsertEntry_toEntry (d : Date) (steps goal : ℤ) (l : List (Date × ℤ × ℤ)) :
    upsertEntry d.text steps goal (l.map toEntry) = (upsert d (steps, goal) l).map toEntry := by
  rw [upsertEntry, upsert, findIdx?_toEntry]
  cases hi : l.findIdx? (fun x => x.1 = d) with
  | none => rfl
  | some i =>
    obtain ⟨hlt, hd, -⟩ := List.findIdx?_eq_some_iff_getElem.mp hi
    have hd : l[i].1 = d := by simpa using hd
    apply List.ext_getElem
    · simp
    · intro j hj hj'
      by_cases hij : i = j
      · subst hij
        simp [toEntry, hd]
      · simp [hij]

variable {page : Page} {L : Log}

theorem recent_sampleLog : sampleHistory = (sampleLog.recent 30).map toEntry := by
  rw [sampleLog, recent_ofEntries (by decide)]
  decide

theorem mem_sampleLog {d : Date} (h : d ∈ sampleLog.dates) :
    d ≤ lastSampleDay ∧ 0 < (sampleLog.value d).1 := by
  simp only [sampleLog, ofEntries, dates_record, Finset.mem_insert] at h
  rcases h with rfl | rfl | rfl | rfl | rfl | h
  · decide
  · decide
  · decide
  · decide
  · decide
  · cases h

theorem stepHistory_recordToday (page : Page) : page.recordToday.stepHistory =
    (upsertEntry page.lastResetDate.text page.todaySteps page.dailyGoal
      page.stepHistory).take 30 := by
  simp only [Page.recordToday]
  split
  · rfl
  · rw [List.take_of_length_le (by omega)]

theorem recordToday_stepHistory (hh : page.stepHistory = (L.recent 30).map toEntry)
    (hd : ∀ d ∈ L.dates, d ≤ page.lastResetDate) :
    page.recordToday.stepHistory =
      ((L.record page.lastResetDate (page.todaySteps, page.dailyGoal)).recent 30).map toEntry := by
  rw [stepHistory_recordToday, hh, upsertEntry_toEntry, ← List.map_take, take_upsert_recent hd]

theorem Shows.saveTodaySteps (h : Shows page L) :
    Shows (if 0 < page.todaySteps then page.recordToday else page)
      ((recorded page).foldl apply L) := by
  unfold recorded
  split
  · rename_i hpos
    refine ⟨recordToday_stepHistory h.history h.dates_le, dates_record_le h.dates_le, ?_⟩
    intro d hd
    by_cases he : d = page.lastResetDate
    · subst he
      simpa [apply] using hpos
    · have hd := (Finset.mem_insert.mp hd).resolve_left he
      simpa [apply, value_record_of_ne he] using h.steps_pos d hd
  · exact h

/-- Shows only depends on the history and the day, and the day may move on. -/
theorem Shows.later {page' : Page} (h : Shows page L) (hh : page'.stepHistory = page.stepHistory)
    (hd : page.lastResetDate ≤ page'.lastResetDate) : Shows page' L :=
  ⟨hh ▸ h.history, fun d hm => (h.dates_le d hm).trans hd, h.steps_pos⟩

theorem Shows.clear {page' : Page} (hh : page'.stepHistory = []) : Shows page' L.clear :=
  ⟨by simp [hh], fun d hd => by simp [DatedLog.clear] at hd,
    fun d hd => by simp [DatedLog.clear] at hd⟩

variable {s t : State}

theorem Tracks.checkDateChange {later : Date} (hs : Shows s.page L) (hst : Stored s)
    (hd : s.page.lastResetDate ≤ s.clock) (hl : s.clock ≤ later) :
    Tracks (s.checkDateChange later) ((recordedOn s.clock s.page).foldl apply L) := by
  refine ⟨?_, ?_, hst.checkDateChange later⟩
  · by_cases he : s.page.lastResetDate = s.clock
    · rw [State.checkDateChange_of_same he, recordedOn, if_pos (isSameDay_iff.mpr he)]
      exact hs
    · rw [State.checkDateChange_of_ne he, recordedOn, if_neg fun h => he (isSameDay_iff.mp h)]
      apply hs.saveTodaySteps.later
      · simp [Page.resetForNewDay, State.saveTodaySteps_page]
      · split <;> exact hd.trans hl
  · by_cases he : s.page.lastResetDate = s.clock
    · rw [State.checkDateChange_of_same he]
      exact hd.trans hl
    · rw [State.checkDateChange_of_ne he]
      exact le_rfl

theorem Tracks.lastResetDate_loaded (h : Tracks s L) (hs : s.saves = []) :
    s.page.lastResetDate ≤ ((Page.create s.clock).loadSavedData s.prefs).lastResetDate ∧
      ((Page.create s.clock).loadSavedData s.prefs).lastResetDate ≤ s.clock := by
  obtain ⟨day, hday, hpage⟩ := h.stored.loadSavedData hs s.clock
  rw [hpage]
  rcases hday with rfl | ⟨rfl, -⟩
  · exact ⟨le_rfl, h.date_le⟩
  · exact ⟨h.date_le, le_rfl⟩

theorem Tracks.launch {checked later : Date} (h : Tracks s L) (hs : s.saves = [])
    (hc : s.clock ≤ checked) (hl : checked ≤ later) :
    Tracks (State.launch s.prefs s.clock checked later)
      ((recordedOn checked ((Page.create s.clock).loadSavedData s.prefs)).foldl apply L) := by
  obtain ⟨hle, hle'⟩ := h.lastResetDate_loaded hs
  have hshows : Shows ((Page.create s.clock).loadSavedData s.prefs) L := by
    obtain ⟨day, -, hpage⟩ := h.stored.loadSavedData hs s.clock
    exact h.shows.later (by rw [hpage]) hle
  exact Tracks.checkDateChange (s := ⟨_, s.prefs, [], checked⟩) hshows
    (h.stored.restart hs s.clock checked) (hle'.trans hc) hl

theorem Tracks.step {e : Event} (h : Tracks s L) (hf : Forward s e t)
    (ht : s.step e = some t) : Tracks t ((logged s e).foldl apply L) := by
  have hstored := h.stored.step ht
  cases e with
  | dateChanged today =>
    obtain rfl := Option.some.inj ht
    exact ⟨h.shows, h.date_le.trans (hf.le today List.mem_cons_self), hstored⟩
  | reading steps =>
    obtain rfl := Option.some.inj ht
    refine ⟨h.shows.later ?_ ?_, ?_, hstored⟩
    · simp
    · simp
    · simpa using h.date_le
  | paused =>
    obtain rfl := Option.some.inj ht
    refine ⟨?_, ?_, hstored⟩
    · rw [State.saveTodaySteps_page]
      exact h.shows.saveTodaySteps
    · rw [State.saveTodaySteps_page, State.saveTodaySteps_clock]
      split <;> exact h.date_le
  | resumed later =>
    obtain rfl := Option.some.inj ht
    exact Tracks.checkDateChange h.shows h.stored h.date_le (hf.le later List.mem_cons_self)
  | resetToday | setGoal text =>
    obtain rfl := Option.some.inj ht
    exact ⟨h.shows.later rfl le_rfl, h.date_le, hstored⟩
  | resetAll =>
    obtain rfl := Option.some.inj ht
    exact ⟨Shows.clear rfl, h.date_le, hstored⟩
  | write i =>
    obtain ⟨key, keys, -, rfl⟩ := State.writeNext_eq_some.mp ht
    exact ⟨h.shows, h.date_le, hstored⟩
  | restarted checked later =>
    obtain ⟨hs, rfl⟩ := State.restarted_eq_some.mp ht
    exact h.launch hs hf.restarted.1 hf.restarted.2

theorem tracks_launch_empty {created checked later : Date} (h0 : lastSampleDay < created)
    (hc : created ≤ checked) (hl : checked ≤ later) :
    Tracks (State.launch .empty created checked later) sampleLog := by
  have hshows : Shows ((Page.create created).loadSavedData .empty) sampleLog :=
    ⟨recent_sampleLog, fun d hd => (mem_sampleLog hd).1.trans h0.le,
      fun d hd => (mem_sampleLog hd).2⟩
  have hnone : recordedOn checked ((Page.create created).loadSavedData .empty) = [] := by
    have hrec : recorded ((Page.create created).loadSavedData .empty) = [] := rfl
    rw [recordedOn, hrec, ite_self]
  have h : Tracks (State.launch .empty created checked later)
      ((recordedOn checked ((Page.create created).loadSavedData .empty)).foldl apply sampleLog) :=
    Tracks.checkDateChange (s := ⟨_, .empty, [], checked⟩) hshows (.inr ⟨rfl, rfl, rfl⟩) hc hl
  rwa [hnone] at h

/-- The history lists the 30 newest entries of the log, newest first. -/
structure Refines (page : Page) (L : Log) : Prop where
  history : page.stepHistory = (L.recent 30).map toEntry
  newest_first : (L.recent 30).Pairwise fun x y => y.1 < x.1
  dates_nodup : (page.stepHistory.map Entry.date).Nodup
  length_le : page.stepHistory.length ≤ 30
  steps_pos : ∀ entry ∈ page.stepHistory, 0 < entry.steps
  dropped_older : ∀ d ∈ L.dates, (∀ x ∈ L.recent 30, x.1 ≠ d) → ∀ x ∈ L.recent 30, d < x.1

theorem Shows.refines (h : Shows page L) : Refines page L where
  history := h.history
  newest_first := pairwise_recent
  dates_nodup := by
    rw [h.history, List.map_map, List.Nodup, List.pairwise_map]
    exact pairwise_recent.imp fun hlt he => hlt.ne' (Date.text_injective he)
  length_le := by
    rw [h.history, List.length_map]
    exact length_recent_le
  steps_pos := by
    rw [h.history]
    intro entry hentry
    obtain ⟨x, hx, rfl⟩ := List.mem_map.mp hentry
    obtain ⟨hd, hv⟩ := mem_recent hx
    simpa [toEntry, hv] using h.steps_pos x.1 hd
  dropped_older := fun _ hd hn => lt_of_not_recent hd hn

/--
In every run whose clock does not go backwards, the history shows the log of what
`_saveTodaySteps` has recorded since the installation, the samples included.
-/
theorem stepHistory_refines {created checked later : Date} {es : List Event}
    (h0 : lastSampleDay < created) (hc : created ≤ checked) (hl : checked ≤ later)
    (hf : Along State.step Forward (.launch .empty created checked later) es)
    (h : exec State.step (.launch .empty created checked later) es = some s) :
    Refines s.page ((outputs State.step logged (.launch .empty created checked later) es).foldl
      apply sampleLog) := by
  have htracks := hf.simulation (tracks_launch_empty h0 hc hl)
    (fun s e t L hs hf ht => hs.step hf ht) h
  exact htracks.shows.refines

def march1 : Date := ⟨2025, 3, 1, by decide, by decide⟩

def march2 : Date := ⟨2025, 3, 2, by decide, by decide⟩

/-- A day with 50 steps, whose rollover happens when the page is resumed on the next one. -/
theorem stepHistory_refines_rollover :
    let s := State.launch .empty march1 march1 march1
    let es := [.reading 100, .reading 150, .dateChanged march2,
      .resumed march2, .setGoal "8000", .reading 160, .paused]
    ∃ t, exec State.step s es = some t ∧
      Refines t.page ((outputs State.step logged s es).foldl apply sampleLog) :=
  ⟨_, rfl, stepHistory_refines (by decide) le_rfl le_rfl (by decide) rfl⟩

end FlutterPractice.StepCounter
