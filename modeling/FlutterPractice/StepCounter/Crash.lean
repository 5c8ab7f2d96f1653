import FlutterPractice.StepCounter.History

/-! # A crash during the rollover

`_checkDateChange` starts two `_saveData` calls whose writes interleave with
each other and with older calls. A crash keeps what has been written, and the
next start runs the rollover again on that. Whether the finished day survives
depends only on which keys were written and what they held before.
-/

namespace FlutterPractice.StepCounter

open Dart Machine DatedLog

/-- A state of an initialised page, in a run whose clock does not go backwards. -/
def Reachable (s : State) : Prop :=
  ∃ created checked later es, lastSampleDay < created ∧ created ≤ checked ∧
    checked ≤ later ∧ Along State.step Forward (.launch .empty created checked later) es ∧
    exec State.step (.launch .empty created checked later) es = some s

def written (s : State) : Event → List Key
  | .write i => (s.saves[i]?.bind List.head?).toList
  | _ => []

def Writes (ws : List Event) : Prop := ∀ e ∈ ws, ∃ i, e = .write i

/-- What the preferences may hold when the rollover of a state crashes, with the keys written since
both calls have written their baseline. -/
inductive CrashStore (s : State) (later : Date) : List Key → Prefs → Prop
  | beforeWrites : CrashStore s later [] s.prefs
  | betweenCalls : CrashStore s later [] s.saveTodaySteps.prefs
  | afterwards {ws : List Event} {u : State} (hws : Writes ws)
      (hu : exec State.step (s.checkDateChange later) ws = some u) :
      CrashStore s later (outputs State.step written (s.checkDateChange later) ws) u.prefs

/-- The page is started over the preferences of a crash, and all its saves finish. -/
def Recovers (crashed : Date) (prefs : Prefs) (v : State) : Prop :=
  ∃ created checked later ws, crashed ≤ created ∧ created ≤ checked ∧ checked ≤ later ∧
    Writes ws ∧ exec State.step (.launch prefs created checked later) ws = some v ∧ v.saves = []

def HasEntry (history : List Entry) (day : Date) (steps : ℤ) : Prop :=
  ∃ entry ∈ history, entry.date = day.text ∧ entry.steps = steps

instance (history : List Entry) (day : Date) (steps : ℤ) : Decidable (HasEntry history day steps) :=
  inferInstanceAs (Decidable (∃ _ ∈ _, _))

/-- The step count that a crash leaves behind: the rollover writes a zero. -/
def leftSteps (prefs : Prefs) (keys : List Key) : ℤ :=
  if .todaySteps ∈ keys then 0 else prefs.todaySteps.getD 0

/--
The stored steps are still those of the day, where the restart will record them under it;
elsewhere the stored history has the day, or has been written by the rollover.
-/
def KeepsDay (s : State) (keys : List Key) : Prop :=
  if 0 < leftSteps s.prefs keys ∧ .lastDate ∉ keys ∧
      s.prefs.lastDate = some s.page.lastResetDate then
    leftSteps s.prefs keys = s.page.todaySteps
  else .stepHistory ∈ keys ∨
    HasEntry (s.prefs.stepHistory.getD sampleHistory) s.page.lastResetDate s.page.todaySteps

def Prefs.writeAll (prefs : Prefs) (page : Page) (keys : List Key) : Prefs :=
  keys.foldl (fun prefs key => prefs.write page key) prefs

/-- What is written to one key, and kept by the writes to the others, is the field of the page. -/
theorem Prefs.writeAll_get {α : Type} {get : Prefs → Option α} {page : Page} {key : Key} {value : α}
    (hself : ∀ prefs : Prefs, get (prefs.write page key) = some value)
    (hother : ∀ (prefs : Prefs) (other : Key), other ≠ key →
      get (prefs.write page other) = get prefs) (prefs : Prefs) (keys : List Key) :
    get (prefs.writeAll page keys) = if key ∈ keys then some value else get prefs := by
  induction keys generalizing prefs with
  | nil => rfl
  | cons other keys ih =>
    rw [Prefs.writeAll, List.foldl_cons, ← Prefs.writeAll, ih]
    by_cases hk : other = key
    · subst hk
      simp [hself]
    · simp [hother prefs other hk, Ne.symm hk]

theorem Prefs.writeAll_todaySteps (prefs : Prefs) (page : Page) (keys : List Key) :
    (prefs.writeAll page keys).todaySteps =
      if .todaySteps ∈ keys then some page.todaySteps else prefs.todaySteps :=
  Prefs.writeAll_get (fun _ => rfl)
    (fun _ other h => by cases other <;> first | rfl | exact (h rfl).elim) prefs keys

theorem Prefs.writeAll_lastDate (prefs : Prefs) (page : Page) (keys : List Key) :
    (prefs.writeAll page keys).lastDate =
      if .lastDate ∈ keys then some page.lastResetDate else prefs.lastDate :=
  Prefs.writeAll_get (fun _ => rfl)
    (fun _ other h => by cases other <;> first | rfl | exact (h rfl).elim) prefs keys

theorem Prefs.writeAll_stepHistory (prefs : Prefs) (page : Page) (keys : List Key) :
    (prefs.writeAll page keys).stepHistory =
      if .stepHistory ∈ keys then some page.stepHistory else prefs.stepHistory :=
  Prefs.writeAll_get (fun _ => rfl)
    (fun _ other h => by cases other <;> first | rfl | exact (h rfl).elim) prefs keys

variable {s t u : State} {ws : List Event}

theorem exec_writes (hws : Writes ws) (h : exec State.step s ws = some u) :
    u.page = s.page ∧
      u.prefs = s.prefs.writeAll s.page (outputs State.step written s ws) := by
  induction ws generalizing s with
  | nil =>
    obtain rfl := Option.some.inj h
    exact ⟨rfl, rfl⟩
  | cons e ws ih =>
    obtain ⟨t, ht, hu⟩ := exec_cons.mp h
    obtain ⟨i, rfl⟩ := hws e List.mem_cons_self
    have hrest := ih (fun e he => hws e (List.mem_cons_of_mem _ he)) hu
    obtain ⟨key, keys, hi, rfl⟩ := State.writeNext_eq_some.mp ht
    refine ⟨hrest.1, ?_⟩
    rw [hrest.2, outputs, ht]
    simp [written, hi, Prefs.writeAll]

theorem CrashStore.fields {later : Date} {keys : List Key} {q : Prefs}
    (h : CrashStore s later keys q) (hn : 0 < s.page.todaySteps)
    (hd : s.page.lastResetDate ≠ s.clock) :
    q.todaySteps = (if .todaySteps ∈ keys then some 0 else s.prefs.todaySteps) ∧
      q.lastDate = (if .lastDate ∈ keys then some later else s.prefs.lastDate) ∧
      q.stepHistory =
        if .stepHistory ∈ keys then some s.page.recordToday.stepHistory
        else s.prefs.stepHistory := by
  cases h with
  | beforeWrites => exact ⟨rfl, rfl, rfl⟩
  | betweenCalls =>
    rw [State.saveTodaySteps, if_pos hn]
    exact ⟨rfl, rfl, rfl⟩
  | afterwards hws hu =>
    have hpage : (s.checkDateChange later).page = s.page.recordToday.resetForNewDay later := by
      rw [State.checkDateChange_page, if_neg hd, if_pos hn]
    have hprefs : (s.checkDateChange later).prefs.todaySteps = s.prefs.todaySteps ∧
        (s.checkDateChange later).prefs.lastDate = s.prefs.lastDate ∧
        (s.checkDateChange later).prefs.stepHistory = s.prefs.stepHistory := by
      rw [State.checkDateChange_of_ne hd, State.saveTodaySteps, if_pos hn]
      exact ⟨rfl, rfl, rfl⟩
    rw [(exec_writes hws hu).2, Prefs.writeAll_todaySteps, Prefs.writeAll_lastDate,
      Prefs.writeAll_stepHistory, hpage, hprefs.1, hprefs.2.1, hprefs.2.2]
    exact ⟨rfl, rfl, rfl⟩

section Restart

variable {page : Page} {day : Date} {steps : ℤ} {history : List Entry}

/-- The history shows a log that reaches no further than the day. -/
def HistoryUpTo (day : Date) (history : List Entry) : Prop :=
  ∃ L : Log, history = (L.recent 30).map toEntry ∧ ∀ d ∈ L.dates, d ≤ day

theorem HistoryUpTo.mono {day' : Date} (h : HistoryUpTo day history) (hle : day ≤ day') :
    HistoryUpTo day' history := by
  obtain ⟨L, hh, hd⟩ := h
  exact ⟨L, hh, fun d hm => (hd d hm).trans hle⟩

/-- An entry of that day is the first one. -/
theorem HistoryUpTo.eq_cons (h : HistoryUpTo day history) {entry : Entry} (hm : entry ∈ history)
    (hd : entry.date = day.text) : ∃ rest, history = entry :: rest := by
  obtain ⟨L, rfl, hle⟩ := h
  obtain ⟨⟨d, v⟩, hx, rfl⟩ := List.mem_map.mp hm
  obtain rfl : d = day := Date.text_injective hd
  obtain ⟨hdates, hv⟩ := mem_recent hx
  obtain rfl : v = L.value d := hv
  obtain ⟨rest, hrest⟩ := recent_eq_cons_newest (n := 29) hdates hle
  exact ⟨rest.map toEntry, by rw [hrest, List.map_cons]⟩

theorem hasEntry_recordToday (h : HistoryUpTo page.lastResetDate page.stepHistory) :
    HasEntry page.recordToday.stepHistory page.lastResetDate steps ↔ page.todaySteps = steps := by
  obtain ⟨L, hh, hd⟩ := h
  rw [HasEntry, recordToday_stepHistory hh hd]
  constructor
  · rintro ⟨entry, hm, hdate, rfl⟩
    obtain ⟨⟨d, v⟩, hx, rfl⟩ := List.mem_map.mp hm
    obtain rfl : d = page.lastResetDate := Date.text_injective hdate
    have hv : v = (page.todaySteps, page.dailyGoal) := (mem_recent hx).2.trans value_record_self
    rw [hv]
    rfl
  · rintro rfl
    obtain ⟨rest, hrest⟩ := recent_eq_cons_newest (n := 29)
      (Finset.mem_insert_self page.lastResetDate L.dates)
      (dates_record_le (v := (page.todaySteps, page.dailyGoal)) hd)
    rw [value_record_self] at hrest
    refine ⟨toEntry (page.lastResetDate, page.todaySteps, page.dailyGoal), ?_, rfl, rfl⟩
    rw [hrest, List.map_cons]
    exact List.mem_cons_self

theorem mem_upsertEntry_of_ne {date : String} {goal : ℤ} {entry : Entry}
    (h : entry.date ≠ date) :
    entry ∈ upsertEntry date steps goal history ↔ entry ∈ history := by
  unfold upsertEntry
  split
  · rename_i i hi
    obtain ⟨hlt, hd, -⟩ := List.findIdx?_eq_some_iff_getElem.mp hi
    have hd : history[i].date = date := by simpa using hd
    constructor
    · intro hm
      obtain ⟨j, hj⟩ := List.getElem?_of_mem hm
      by_cases hij : i = j
      · subst hij
        simp only [List.getElem?_modify_eq, List.getElem?_eq_getElem hlt, Option.map_eq_map,
          Option.map_some, Option.some.injEq] at hj
        exact (h (hj ▸ hd)).elim
      · rw [List.getElem?_modify_ne _ _ hij] at hj
        exact List.mem_of_getElem? hj
    · intro hm
      obtain ⟨j, hj⟩ := List.getElem?_of_mem hm
      have hij : i ≠ j := by
        rintro rfl
        rw [List.getElem?_eq_getElem hlt] at hj
        exact h (Option.some.inj hj ▸ hd)
      rw [← List.getElem?_modify_ne (fun item => { item with steps := steps, goal := goal }) _ hij]
        at hj
      exact List.mem_of_getElem? hj
  · have hne : entry ≠ ⟨date, steps, goal⟩ := fun he => h (by rw [he])
    simp [hne]

theorem mem_take_upsertEntry {date : String} {goal : ℤ} {entry : Entry} {rest : List Entry}
    (h : entry.date ≠ date) :
    entry ∈ (upsertEntry date steps goal (entry :: rest)).take 2 := by
  unfold upsertEntry
  rw [List.findIdx?_cons, if_neg (by simpa using h)]
  cases rest.findIdx? (fun item => item.date = date) with
  | none => simp
  | some i => simp

theorem hasEntry_recordToday_of_ne (h : HistoryUpTo day page.stepHistory)
    (hne : page.lastResetDate ≠ day) :
    HasEntry page.recordToday.stepHistory day steps ↔ HasEntry page.stepHistory day steps := by
  have htext {entry : Entry} (hd : entry.date = day.text) :
      entry.date ≠ page.lastResetDate.text := by
    rw [hd]
    exact fun he => hne (Date.text_injective he).symm
  constructor
  · rintro ⟨entry, hm, hd, hs⟩
    refine ⟨entry, ?_, hd, hs⟩
    apply (mem_upsertEntry_of_ne (htext hd)).mp
    simp only [Page.recordToday] at hm
    split at hm
    · exact List.mem_of_mem_take hm
    · exact hm
  · rintro ⟨entry, hm, hd, hs⟩
    obtain ⟨rest, hrest⟩ := h.eq_cons hm hd
    have hmem : entry ∈ (upsertEntry page.lastResetDate.text page.todaySteps page.dailyGoal
        (entry :: rest)).take 2 := mem_take_upsertEntry (htext hd)
    refine ⟨entry, ?_, hd, hs⟩
    simp only [Page.recordToday, hrest]
    split
    · exact List.take_subset_take_left _ (by decide) hmem
    · exact List.mem_of_mem_take hmem

end Restart

/-- What a run has stored is about days up to that of the page. -/
structure Ready (s : State) : Prop where
  tracks : ∃ L, Tracks s L
  sample_le : lastSampleDay ≤ s.page.lastResetDate
  stored : ∀ history, s.prefs.stepHistory = some history →
    HistoryUpTo s.page.lastResetDate history

theorem lastResetDate_le_checkDateChange {later : Date} (h : s.page.lastResetDate ≤ s.clock)
    (hl : s.clock ≤ later) :
    s.page.lastResetDate ≤ (s.checkDateChange later).page.lastResetDate := by
  by_cases hd : s.page.lastResetDate = s.clock
  · rw [State.checkDateChange_of_same hd]
  · rw [State.checkDateChange_of_ne hd]
    exact h.trans hl

theorem Tracks.day_step {L : Log} {e : Event} (h : Tracks s L) (hf : Forward s e t)
    (ht : s.step e = some t) :
    s.page.lastResetDate ≤ t.page.lastResetDate ∧
      (t.prefs.stepHistory = s.prefs.stepHistory ∨
        t.prefs.stepHistory = some s.page.stepHistory) := by
  cases e with
  | dateChanged today =>
    obtain rfl := Option.some.inj ht
    exact ⟨le_rfl, .inl rfl⟩
  | reading steps =>
    obtain rfl := Option.some.inj ht
    exact ⟨by simp, .inl rfl⟩
  | resetToday | resetAll | setGoal text =>
    obtain rfl := Option.some.inj ht
    exact ⟨le_rfl, .inl rfl⟩
  | paused =>
    obtain rfl := Option.some.inj ht
    unfold State.saveTodaySteps
    split
    · exact ⟨le_rfl, .inl rfl⟩
    · exact ⟨le_rfl, .inl rfl⟩
  | resumed later =>
    obtain rfl := Option.some.inj ht
    exact ⟨lastResetDate_le_checkDateChange h.date_le (hf.le later List.mem_cons_self),
      .inl (s.checkDateChange_prefs_stepHistory later)⟩
  | write i =>
    obtain ⟨key, keys, -, rfl⟩ := State.writeNext_eq_some.mp ht
    refine ⟨le_rfl, ?_⟩
    cases key with
    | stepHistory => exact .inr rfl
    | _ => exact .inl rfl
  | restarted checked later =>
    obtain ⟨hs, rfl⟩ := State.restarted_eq_some.mp ht
    obtain ⟨hc, hl⟩ := hf.restarted
    obtain ⟨hle, hle'⟩ := h.lastResetDate_loaded hs
    exact ⟨hle.trans (lastResetDate_le_checkDateChange (s := ⟨_, s.prefs, [], checked⟩)
      (hle'.trans hc) hl), .inl (State.checkDateChange_prefs_stepHistory _ _)⟩

theorem Ready.step {e : Event} (h : Ready s) (hf : Forward s e t) (ht : s.step e = some t) :
    Ready t := by
  obtain ⟨L, hL⟩ := h.tracks
  obtain ⟨hle, hstored⟩ := hL.day_step hf ht
  refine ⟨⟨_, hL.step hf ht⟩, h.sample_le.trans hle, fun history hh => ?_⟩
  rcases hstored with hs | hs
  · exact (h.stored history (hs ▸ hh)).mono hle
  · obtain rfl := Option.some.inj (hs.symm.trans hh)
    exact ⟨L, hL.shows.history, fun d hd => (hL.shows.dates_le d hd).trans hle⟩

theorem Reachable.ready (h : Reachable s) : Ready s := by
  obtain ⟨created, checked, later, es, h0, hc, hl, hf, hs⟩ := h
  apply hf.exec_invariant (I := Ready) _ (fun s e t hr hf ht => hr.step hf ht) hs
  have htracks := tracks_launch_empty h0 hc hl
  refine ⟨⟨_, htracks⟩, ?_, fun history hh => ?_⟩
  · exact h0.le.trans (lastResetDate_le_checkDateChange
      (s := ⟨(Page.create created).loadSavedData .empty, .empty, [], checked⟩) hc hl)
  · have hnone : (State.launch .empty created checked later).prefs.stepHistory = none :=
      State.checkDateChange_prefs_stepHistory _ _
    rw [hnone] at hh
    cases hh

section Crash

variable {later : Date} {keys : List Key} {q : Prefs}

theorem launch_stepHistory {created checked again : Date} :
    (State.launch q created checked again).page.stepHistory =
      let page := (Page.create created).loadSavedData q
      if page.lastResetDate ≠ checked ∧ 0 < page.todaySteps then page.recordToday.stepHistory
      else page.stepHistory := by
  unfold State.launch
  by_cases hd : ((Page.create created).loadSavedData q).lastResetDate = checked
  · rw [State.checkDateChange_of_same hd]
    simp [hd]
  · rw [State.checkDateChange_of_ne hd]
    simp only [State.resetForNewDay_page, State.saveTodaySteps_page, Page.resetForNewDay]
    by_cases hn : 0 < ((Page.create created).loadSavedData q).todaySteps
    · simp [hd, hn]
    · simp [hn]

theorem CrashStore.loaded (hq : CrashStore s later keys q) (hs : Ready s)
    (hn : 0 < s.page.todaySteps) (hd : s.page.lastResetDate < s.clock) (hl : s.clock ≤ later)
    {created : Date} (hc : later ≤ created) :
    let page := (Page.create created).loadSavedData q
    page.todaySteps = leftSteps s.prefs keys ∧
      (page.lastResetDate = s.page.lastResetDate ↔
        .lastDate ∉ keys ∧ s.prefs.lastDate = some s.page.lastResetDate) ∧
      HistoryUpTo s.page.lastResetDate page.stepHistory ∧
      (HasEntry page.stepHistory s.page.lastResetDate s.page.todaySteps ↔
        .stepHistory ∈ keys ∨
          HasEntry (s.prefs.stepHistory.getD sampleHistory) s.page.lastResetDate
            s.page.todaySteps) := by
  obtain ⟨ht, hdate, hh⟩ := hq.fields hn hd.ne
  obtain ⟨L, hL⟩ := hs.tracks
  have hlater := hd.trans_le hl
  refine ⟨?_, ?_, ?_, ?_⟩
  · simp only [Page.loadSavedData, ht, leftSteps]
    split <;> rfl
  · simp only [Page.loadSavedData, hdate]
    by_cases hk : .lastDate ∈ keys
    · simp [hk, hlater.ne']
    · cases hp : s.prefs.lastDate with
      | none => simp [hk, Page.create, (hlater.trans_le hc).ne']
      | some day => simp [hk]
  · simp only [Page.loadSavedData, hh]
    split
    · exact ⟨_, recordToday_stepHistory hL.shows.history hL.shows.dates_le,
        dates_record_le hL.shows.dates_le⟩
    · cases hp : s.prefs.stepHistory with
      | none =>
        exact ⟨sampleLog, recent_sampleLog, fun d hd => (mem_sampleLog hd).1.trans hs.sample_le⟩
      | some history => exact hs.stored history hp
  · simp only [Page.loadSavedData, hh]
    by_cases hk : .stepHistory ∈ keys
    · have hup : HistoryUpTo s.page.lastResetDate s.page.stepHistory :=
        ⟨L, hL.shows.history, hL.shows.dates_le⟩
      simp [hk, hasEntry_recordToday hup]
    · simp [hk]

/--
After a crash during the rollover of a day and the next start, the history has the day with its
steps exactly when the keys written by then say so.
-/
theorem crash_hasEntry_iff (h : Reachable s) (hn : 0 < s.page.todaySteps)
    (hd : s.page.lastResetDate < s.clock) (hl : s.clock ≤ later)
    (hq : CrashStore s later keys q) {v : State} (hv : Recovers later q v) :
    HasEntry v.page.stepHistory s.page.lastResetDate s.page.todaySteps ↔ KeepsDay s keys := by
  obtain ⟨created, checked, again, ws, hc, hc', -, hws, hv, -⟩ := hv
  obtain ⟨hleft, hday, hup, hentry⟩ := hq.loaded h.ready hn hd hl hc
  have hlt : s.page.lastResetDate < checked := ((hd.trans_le hl).trans_le hc).trans_le hc'
  rw [(exec_writes hws hv).1, launch_stepHistory, KeepsDay]
  simp only
  by_cases hk : 0 < leftSteps s.prefs keys ∧ .lastDate ∉ keys ∧
      s.prefs.lastDate = some s.page.lastResetDate
  · -- The restart records the day again, with the steps that are left.
    have hsame := hday.mpr hk.2
    rw [if_pos hk, if_pos ⟨by rw [hsame]; exact hlt.ne, by rw [hleft]; exact hk.1⟩, ← hleft]
    rw [← hsame] at hup ⊢
    exact hasEntry_recordToday hup
  · -- Any other record of the restart leaves the entry of the day.
    rw [if_neg hk, ← hentry]
    split
    · rename_i hrec
      apply hasEntry_recordToday_of_ne hup
      intro hsame
      exact hk ⟨hleft ▸ hrec.2, hday.mp hsame⟩
    · exact Iff.rfl

end Crash

/-- Fifty steps of the first of March, all of it saved, on the morning of the second. -/
def eve : State where
  page := ⟨50, 150, 10000, 100, sampleHistory, march1⟩
  prefs := ⟨some 100, some 50, some 10000, some march1, some sampleHistory⟩
  saves := []
  clock := march2

theorem reachable_eve : Reachable eve :=
  ⟨march1, march1, march1,
    [.reading 100, .reading 150] ++ List.replicate 8 (.write 0) ++
      [.dateChanged march2],
    by decide, le_rfl, le_rfl, by decide, rfl⟩

/-- The older call has written its history among writes of the other one, which the crash tears. -/
theorem crash_hasEntry_iff_torn :
    ∃ u v, exec State.step (eve.checkDateChange eve.clock)
        [.write 0, .write 1, .write 0, .write 0, .write 0] = some u ∧ u.saves ≠ [] ∧
      Recovers eve.clock u.prefs v ∧
      (HasEntry v.page.stepHistory eve.page.lastResetDate eve.page.todaySteps ↔
        KeepsDay eve [.todaySteps, .todaySteps, .dailyGoal, .lastDate, .stepHistory]) := by
  have hws : Writes [.write 0, .write 1, .write 0, .write 0, .write 0] := by simp [Writes]
  have hrecovers : ∀ u, exec State.step (eve.checkDateChange eve.clock)
      [.write 0, .write 1, .write 0, .write 0, .write 0] = some u →
        ∃ v, Recovers eve.clock u.prefs v := by
    intro u hu
    obtain rfl := Option.some.inj hu
    exact ⟨_, eve.clock, eve.clock, eve.clock, [], le_rfl, le_rfl, le_rfl, nofun, rfl, rfl⟩
  obtain ⟨v, hv⟩ := hrecovers _ rfl
  exact ⟨_, v, rfl, by decide, hv,
    crash_hasEntry_iff reachable_eve (by decide) (by decide) le_rfl (.afterwards hws rfl) hv⟩

/-- A crash behind the write of `todaySteps`: the zero is stored under the first of March. -/
theorem torn_rollover_loses_day :
    ∃ u v, exec State.step (eve.checkDateChange eve.clock) [.write 0] = some u ∧
      CrashStore eve eve.clock [.todaySteps] u.prefs ∧ Recovers eve.clock u.prefs v ∧
      ¬ HasEntry v.page.stepHistory eve.page.lastResetDate eve.page.todaySteps := by
  have hfirst : Writes [.write 0] := fun e he => ⟨0, List.mem_singleton.mp he⟩
  have hrest : Writes (List.replicate 4 (.write 0)) := fun e he => ⟨0, List.eq_of_mem_replicate he⟩
  exact ⟨_, _, rfl, .afterwards hfirst rfl, ⟨eve.clock, eve.clock, eve.clock, _,
    le_rfl, le_rfl, le_rfl, hrest, rfl, rfl⟩, by decide⟩

end FlutterPractice.StepCounter
