import FlutterPractice.StepCounter.History

/-! # What the history has for a closed day

`_checkDateChange` records the day that it closes if there are steps to record.
It leaves the history alone otherwise, so an entry that a pause has written for
the day stays when the count is reset after it.
-/

namespace FlutterPractice.StepCounter

open Dart Machine DatedLog

/-- A page that is open for the first time, before its first `_checkDateChange`. -/
def State.opened (created checked : Date) : State :=
  ⟨(Page.create created).loadSavedData .empty, .empty, [], checked⟩

def closing (s : State) : Event → Option Page
  | .resumed _ => if isSameDay s.page.lastResetDate s.clock then none else some s.page
  | .restarted checked _ =>
    let page := (Page.create s.clock).loadSavedData s.prefs
    if isSameDay page.lastResetDate checked then none else some page
  | _ => none

def HasDay (history : List Entry) (day : Date) : Prop :=
  ∃ item ∈ history, item.date = day.text

def Closes (page : Page) (history : List Entry) : Prop :=
  (HasDay history page.lastResetDate ↔ 0 < page.todaySteps) ∧
    ∀ item ∈ history, item.date = page.lastResetDate.text →
      item.steps = page.todaySteps ∧ item.goal = page.dailyGoal

def ClosesRight (s : State) (e : Event) (t : State) : Prop :=
  ∀ page ∈ closing s e, Closes page t.page.stepHistory

/-- A day that is closed without steps has no entry from before. -/
def NothingStale (s : State) (e : Event) (_ : State) : Prop :=
  ∀ page ∈ closing s e, page.todaySteps ≤ 0 → ¬ HasDay page.stepHistory page.lastResetDate

/-- A history of at most thirty days, one entry each. -/
structure Tidy (history : List Entry) : Prop where
  nodup : (history.map Entry.date).Nodup
  length_le : history.length ≤ 30

variable {history : List Entry} {date : String} {steps goal : ℤ} {page : Page} {s t : State}
  {e : Event}

theorem upsertEntry_of_mem (h : date ∈ history.map Entry.date) :
    (upsertEntry date steps goal history).map Entry.date = history.map Entry.date ∧
      ⟨date, steps, goal⟩ ∈ upsertEntry date steps goal history := by
  obtain ⟨item, hitem, hdate⟩ := List.mem_map.mp h
  have hsome : (history.findIdx? fun item => item.date = date).isSome := by
    rw [List.findIdx?_isSome, List.any_eq_true]
    exact ⟨item, hitem, by simpa using hdate⟩
  obtain ⟨i, hi⟩ := Option.isSome_iff_exists.mp hsome
  obtain ⟨hlt, hd, -⟩ := List.findIdx?_eq_some_iff_getElem.mp hi
  have hd : history[i].date = date := by simpa using hd
  have hup : upsertEntry date steps goal history =
      history.modify i fun item => { item with steps := steps, goal := goal } := by
    rw [upsertEntry, hi]
  rw [hup]
  constructor
  · apply List.ext_getElem
    · simp
    · intro j hj hj'
      by_cases hij : i = j
      · subst hij
        simp
      · simp [hij]
  · refine List.mem_of_getElem? (i := i) ?_
    simp [List.getElem?_eq_getElem hlt, hd]

theorem upsertEntry_of_not_mem (h : date ∉ history.map Entry.date) :
    upsertEntry date steps goal history = ⟨date, steps, goal⟩ :: history := by
  have hnone : history.findIdx? (fun item => item.date = date) = none := by
    rw [List.findIdx?_eq_none_iff]
    intro item hitem
    have hne : item.date ≠ date := fun hd => h (List.mem_map.mpr ⟨item, hitem, hd⟩)
    simpa using hne
  rw [upsertEntry, hnone]

theorem Tidy.recordToday (h : Tidy page.stepHistory) :
    Tidy page.recordToday.stepHistory ∧
      ⟨page.lastResetDate.text, page.todaySteps, page.dailyGoal⟩ ∈
        page.recordToday.stepHistory := by
  rw [stepHistory_recordToday]
  by_cases hm : page.lastResetDate.text ∈ page.stepHistory.map Entry.date
  · obtain ⟨hdates, hmem⟩ := @upsertEntry_of_mem _ _ page.todaySteps page.dailyGoal hm
    have hlen := congrArg List.length hdates
    simp only [List.length_map] at hlen
    rw [List.take_of_length_le (hlen ▸ h.length_le)]
    exact ⟨⟨hdates ▸ h.nodup, hlen ▸ h.length_le⟩, hmem⟩
  · rw [upsertEntry_of_not_mem hm]
    refine ⟨⟨?_, by simp⟩, by simp⟩
    rw [List.map_take]
    exact (List.nodup_cons.mpr ⟨hm, h.nodup⟩).sublist (List.take_sublist _ _)

theorem closes_iff (h : Tidy page.stepHistory) :
    Closes page (if 0 < page.todaySteps then page.recordToday else page).stepHistory ↔
      (page.todaySteps ≤ 0 → ¬ HasDay page.stepHistory page.lastResetDate) := by
  by_cases hpos : 0 < page.todaySteps
  · rw [if_pos hpos]
    refine iff_of_true ?_ fun hle => (hpos.not_ge hle).elim
    obtain ⟨htidy, hmem⟩ := h.recordToday
    refine ⟨iff_of_true ⟨_, hmem, rfl⟩ hpos, fun item hitem hdate => ?_⟩
    obtain rfl := List.inj_on_of_nodup_map htidy.nodup hitem hmem hdate
    exact ⟨rfl, rfl⟩
  · rw [if_neg hpos]
    constructor
    · intro hcloses _ hday
      exact hpos (hcloses.1.mp hday)
    · intro hnone
      have hnone := hnone (not_lt.mp hpos)
      exact ⟨iff_of_false hnone hpos, fun item hitem hdate => (hnone ⟨item, hitem, hdate⟩).elim⟩

theorem Tidy.recorded (h : Tidy page.stepHistory) :
    Tidy (if 0 < page.todaySteps then page.recordToday else page).stepHistory := by
  split
  · exact h.recordToday.1
  · exact h

theorem Tidy.onPage (h : Tidy page.stepHistory) (clock : Date) :
    Tidy (e.onPage clock page).stepHistory := by
  cases e with
  | reading steps => rwa [Event.onPage, Page.onStepCount_stepHistory]
  | paused => exact h.recorded
  | resumed later =>
    rw [Event.onPage]
    split
    · exact h
    · exact h.recorded
  | resetAll => exact ⟨List.nodup_nil, Nat.zero_le _⟩
  | _ => exact h

structure Kept (s : State) : Prop where
  tidy : Tidy s.page.stepHistory
  stored : Stored s

theorem tidy_sampleHistory : Tidy sampleHistory := ⟨by decide, by decide⟩

theorem kept_opened (created checked : Date) : Kept (State.opened created checked) :=
  ⟨tidy_sampleHistory, .inr ⟨rfl, rfl, rfl⟩⟩

theorem Kept.loaded (h : Kept s) (hs : s.saves = []) :
    Tidy ((Page.create s.clock).loadSavedData s.prefs).stepHistory := by
  obtain ⟨day, -, hpage⟩ := h.stored.loadSavedData hs s.clock
  rw [hpage]
  exact h.tidy

theorem Kept.step (h : Kept s) (ht : s.step e = some t) : Kept t := by
  refine ⟨?_, h.stored.step ht⟩
  cases e with
  | write i =>
    rw [(writeNext_onPage ht).1]
    exact h.tidy
  | restarted checked later =>
    obtain ⟨hs, rfl⟩ := State.restarted_eq_some.mp ht
    rw [State.launch, State.checkDateChange_page]
    split
    · exact h.loaded hs
    · exact (h.loaded hs).recorded
  | _ =>
    rw [(step_onPage rfl ht).1]
    exact h.tidy.onPage s.clock

theorem mem_closing (hp : page ∈ closing s e) :
    (∃ later, e = .resumed later ∧ page = s.page ∧ page.lastResetDate ≠ s.clock) ∨
      ∃ checked later, e = .restarted checked later ∧
        page = (Page.create s.clock).loadSavedData s.prefs ∧ page.lastResetDate ≠ checked := by
  cases e with
  | resumed later =>
    simp only [closing, Option.mem_def, Option.ite_none_left_eq_some, Option.some.injEq] at hp
    obtain ⟨hd, rfl⟩ := hp
    exact .inl ⟨later, rfl, rfl, fun h => hd (isSameDay_iff.mpr h)⟩
  | restarted checked later =>
    simp only [closing, Option.mem_def, Option.ite_none_left_eq_some, Option.some.injEq] at hp
    obtain ⟨hd, rfl⟩ := hp
    exact .inr ⟨checked, later, rfl, rfl, fun h => hd (isSameDay_iff.mpr h)⟩
  | _ => cases hp

theorem Kept.closing (h : Kept s) (ht : s.step e = some t) (hp : page ∈ closing s e) :
    Tidy page.stepHistory ∧ t.page.stepHistory =
      (if 0 < page.todaySteps then page.recordToday else page).stepHistory := by
  rcases mem_closing hp with ⟨later, rfl, rfl, hd⟩ | ⟨checked, later, rfl, rfl, hd⟩
  · rw [(step_onPage rfl ht).1, Event.onPage, if_neg hd]
    exact ⟨h.tidy, rfl⟩
  · simp only [State.step] at ht
    split at ht
    · rename_i hs
      obtain rfl := Option.some.inj ht
      rw [State.launch, State.checkDateChange_page, if_neg hd]
      exact ⟨h.loaded hs, rfl⟩
    · cases ht

/--
Every day that a run closes has its final count in the history, or no entry for no steps, exactly
when no day closes without steps that has an entry from before.
-/
theorem along_closesRight_iff (created checked : Date) (es : List Event) :
    Along State.step ClosesRight (.opened created checked) es ↔
      Along State.step NothingStale (.opened created checked) es := by
  apply along_congr (I := Kept) (kept_opened created checked)
  intro s e t hs ht
  refine ⟨forall₂_congr fun page hp => ?_, fun _ => hs.step ht⟩
  obtain ⟨htidy, hhistory⟩ := hs.closing ht hp
  rw [hhistory]
  exact closes_iff htidy

/-- A walk that is reset before midnight, behind a pause: the history has fifty steps for it. -/
theorem reset_not_closesRight :
    Along State.step Forward (.opened march1 march1)
        [.resumed march1, .reading 100, .reading 150, .paused, .resetToday,
          .dateChanged march2, .resumed march2] ∧
      ¬ Along State.step ClosesRight (.opened march1 march1)
        [.resumed march1, .reading 100, .reading 150, .paused, .resetToday,
          .dateChanged march2, .resumed march2] := by
  refine ⟨by decide, fun h => ?_⟩
  have hlast := along_iff.mp h [.resumed march1, .reading 100, .reading 150, .paused, .resetToday,
    .dateChanged march2] (.resumed march2) [] _ _ rfl rfl rfl
  have hstale : HasDay (⟨"2025-03-01", 50, 10000⟩ :: sampleHistory) march1 :=
    ⟨_, List.mem_cons_self, rfl⟩
  exact absurd ((hlast _ rfl).1.mp hstale) (by decide)

/--
What can be stale: in a run whose clock does not go backwards, the day of the page has an entry
exactly when a record of that day is left in the log.
-/
theorem hasDay_iff_logged {created checked later : Date} {es : List Event}
    (h0 : lastSampleDay < created) (hc : created ≤ checked) (hl : checked ≤ later)
    (hf : Along State.step Forward (.launch .empty created checked later) es)
    (h : exec State.step (.launch .empty created checked later) es = some s) :
    HasDay s.page.stepHistory s.page.lastResetDate ↔
      s.page.lastResetDate ∈ ((outputs State.step logged (.launch .empty created checked later)
        es).foldl apply sampleLog).dates := by
  have htracks := hf.simulation (tracks_launch_empty h0 hc hl)
    (fun s e t L hs hf ht => hs.step hf ht) h
  obtain ⟨hhistory, hle, -⟩ := htracks.shows
  rw [HasDay, hhistory]
  constructor
  · rintro ⟨item, hitem, hdate⟩
    obtain ⟨⟨d, v⟩, hx, rfl⟩ := List.mem_map.mp hitem
    obtain rfl : d = s.page.lastResetDate := Date.text_injective hdate
    exact (mem_recent hx).1
  · intro hd
    obtain ⟨rest, hrest⟩ := @recent_eq_cons_newest _ _ _ _ 29 _ hd hle
    rw [hrest, List.map_cons]
    exact ⟨_, List.mem_cons_self, rfl⟩

end FlutterPractice.StepCounter
