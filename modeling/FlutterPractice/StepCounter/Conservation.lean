import FlutterPractice.StepCounter.ClosedDay
import FlutterPractice.StepCounter.Reboot

/-! # Steps across days

Every step between two readings is counted once: in a day that was closed, in
a count that the user has reset, or in the count on the page. Only a count that
ends before the app has had a reading of its own starts again from nothing, so
that steps up to the next reading are counted nowhere.
-/

namespace FlutterPractice.StepCounter

open Dart Machine

def ending (s : State) : Event → Option Page
  | .resetToday | .resetAll => some s.page
  | e => closing s e

inductive Mark where
  | reading (steps : ℤ)
  | ended (page : Page)

def marks (s : State) (e : Event) : List Mark :=
  e.readings.map .reading ++ ((ending s e).map .ended).toList

/-- The steps between readings, the reading to go on from, and the counts that have ended. -/
structure Account where
  counted : ℤ
  previous : Option ℤ
  ended : ℤ

def Account.apply (a : Account) : Mark → Account
  | .reading steps =>
    ⟨a.counted + (steps - a.previous.getD steps), some steps, a.ended⟩
  | .ended page =>
    ⟨a.counted, if page.totalSteps = 0 then none else a.previous, a.ended + page.todaySteps⟩

def accountOf (created checked : Date) (es : List Event) : Account :=
  (outputs State.step marks (.opened created checked) es).foldl Account.apply ⟨0, none, 0⟩

def span (readings : List ℤ) : ℤ := readings.getLastD 0 - readings.headD 0

/-- The readings of a device that is not restarted. -/
structure Rising (readings : List ℤ) : Prop where
  pos : ∀ r ∈ readings, 0 < r
  le : readings.Pairwise (· ≤ ·)

/-- The page counts on from the previous reading. -/
structure Balances (page : Page) (a : Account) : Prop where
  balance : a.ended + page.todaySteps = a.counted
  unset : a.previous = none →
    page.baselineSteps = 0 ∧ page.todaySteps = 0 ∧ page.totalSteps = 0
  set : ∀ r, a.previous = some r → 0 < r ∧ 0 < page.baselineSteps ∧ page.baselineSteps ≤ r ∧
    page.todaySteps = r - page.baselineSteps ∧ (page.totalSteps = r ∨ page.totalSteps = 0)

variable {page page' : Page} {a : Account} {r : ℤ}

theorem Balances.congr (h : Balances page a) (hb : page'.baselineSteps = page.baselineSteps)
    (ht : page'.todaySteps = page.todaySteps)
    (htotal : page'.totalSteps = page.totalSteps ∨ page'.totalSteps = 0) : Balances page' a where
  balance := ht ▸ h.balance
  unset hnone := by
    obtain ⟨hb0, ht0, htotal0⟩ := h.unset hnone
    exact ⟨hb.trans hb0, ht.trans ht0, htotal.elim (·.trans htotal0) id⟩
  set r hr := by
    obtain ⟨hpos, hbpos, hble, htoday, htotals⟩ := h.set r hr
    refine ⟨hpos, hb ▸ hbpos, hb ▸ hble, by rw [ht, hb, htoday], ?_⟩
    rcases htotal with htotal | htotal
    · rwa [htotal]
    · exact .inr htotal

@[simp] theorem onStepCount_totalSteps (page : Page) (steps : ℤ) :
    (page.onStepCount steps).totalSteps = steps := by
  simp only [Page.onStepCount]
  split <;> split <;> rfl

theorem Balances.reading (h : Balances page a) (hr : 0 < r)
    (hle : ∀ q, a.previous = some q → q ≤ r) :
    Balances (page.onStepCount r) (a.apply (.reading r)) := by
  have hcount := onStepCount_count page r
  have hbaseline := congrArg Prod.fst hcount
  have htoday := congrArg Prod.snd hcount
  have htotal := onStepCount_totalSteps page r
  have hbalance := h.balance
  cases hp : a.previous with
  | none =>
    obtain ⟨hb0, ht0, -⟩ := h.unset hp
    rw [count_of_lt (.inl hb0)] at hbaseline htoday
    simp only at hbaseline htoday
    refine ⟨?_, nofun, fun q hq => ?_⟩
    · simp only [Account.apply, hp, Option.getD_none]
      omega
    · obtain rfl := Option.some.inj hq
      exact ⟨hr, by omega, by omega, by omega, .inl htotal⟩
  | some q =>
    obtain ⟨-, hbpos, hble, hcounted, -⟩ := h.set q hp
    have hqr := hle q hp
    rw [count_of_le (by simp only; omega)] at hbaseline htoday
    simp only at hbaseline htoday
    refine ⟨?_, nofun, fun q' hq' => ?_⟩
    · simp only [Account.apply, hp, Option.getD_some]
      omega
    · obtain rfl := Option.some.inj hq'
      exact ⟨hr, by omega, by omega, by omega, .inl htotal⟩

/-- The next count goes on from the reading of the page, if it has one. -/
theorem Balances.ended (h : Balances page a) (hb : page'.baselineSteps = page.totalSteps)
    (ht : page'.todaySteps = 0) (htotal : page'.totalSteps = page.totalSteps) :
    Balances page' (a.apply (.ended page)) := by
  have hbalance := h.balance
  refine ⟨?_, fun hnone => ?_, fun q hq => ?_⟩
  · simp only [Account.apply, ht]
    omega
  · have hzero : page.totalSteps = 0 := by
      by_contra hne
      rw [Account.apply] at hnone
      exact hne (h.unset (by simpa [hne] using hnone)).2.2
    exact ⟨hb.trans hzero, ht, htotal.trans hzero⟩
  · obtain ⟨hne, hq⟩ : page.totalSteps ≠ 0 ∧ a.previous = some q := by
      simpa [Account.apply] using hq
    obtain ⟨hpos, -, -, -, htotals⟩ := h.set q hq
    have hread : page.totalSteps = q := htotals.resolve_right hne
    exact ⟨hpos, by omega, by omega, by omega, .inl (htotal.trans hread)⟩

/-- Where no page has been restarted, every reading is gone on from. -/
structure Unbroken (readings : List ℤ) (page : Page) (a : Account) : Prop where
  counted : a.counted = span readings
  previous : a.previous = readings.getLast?
  total : ∀ r, a.previous = some r → page.totalSteps = r

def Event.isRestart : Event → Bool
  | .restarted _ _ => true
  | _ => false

structure Conserved (es : List Event) (s : State) (a : Account) : Prop where
  page : Balances s.page a
  stored : Stored s
  previous : ∀ r, a.previous = some r → (es.flatMap Event.readings).getLast? = some r
  le : a.counted ≤ span (es.flatMap Event.readings)
  unbroken : (∀ e ∈ es, e.isRestart = false) → Unbroken (es.flatMap Event.readings) s.page a

variable {es : List Event} {e : Event} {s t : State} {rs : List ℤ}

theorem span_append_singleton (rs : List ℤ) (r : ℤ) :
    span (rs ++ [r]) = span rs + (r - rs.getLast?.getD r) := by
  rcases List.eq_nil_or_concat rs with rfl | ⟨rs, p, rfl⟩
  · simp [span]
  · have hhead : (rs ++ [p] ++ [r]).headD 0 = (rs ++ [p]).headD 0 := by cases rs <;> rfl
    rw [List.concat_eq_append, span, span, List.getLastD_concat, List.getLastD_concat, hhead,
      List.getLast?_concat, Option.getD_some]
    omega

theorem Rising.last_le (h : Rising (rs ++ [r])) : rs.getLast?.getD r ≤ r := by
  cases hp : rs.getLast? with
  | none => exact le_rfl
  | some p =>
    have hlast := (List.pairwise_append.mp h.le).2.2 p (List.mem_of_getLast? hp)
    exact hlast r (List.mem_singleton_self r)

theorem flatMap_readings_append (es : List Event) (e : Event) :
    (es ++ [e]).flatMap Event.readings = es.flatMap Event.readings ++ e.readings := by
  simp

theorem Conserved.reading (h : Conserved es s a)
    (hrise : Rising ((es ++ [Event.reading r]).flatMap Event.readings))
    (ht : s.step (.reading r) = some t) :
    Conserved (es ++ [.reading r]) t (a.apply (.reading r)) := by
  have hst := h.stored.step ht
  obtain rfl := Option.some.inj ht
  have hone : (Event.reading r).readings = [r] := rfl
  have hle := h.le
  rw [flatMap_readings_append, hone] at hrise
  have hlast := hrise.last_le
  have hspan := span_append_singleton (es.flatMap Event.readings) r
  have hprevious (q : ℤ) (hq : a.previous = some q) : q ≤ r := by
    rw [h.previous q hq] at hlast
    exact hlast
  refine ⟨h.page.reading (hrise.pos r (by simp)) hprevious, hst, ?_, ?_, fun hno => ?_⟩
  · rintro q hq
    obtain rfl := Option.some.inj hq
    rw [flatMap_readings_append, hone, List.getLast?_concat]
  · rw [flatMap_readings_append, hone, hspan]
    cases hp : a.previous with
    | none =>
      simp only [Account.apply, hp, Option.getD_none]
      omega
    | some q =>
      simp only [Account.apply, hp, Option.getD_some, h.previous q hp]
      omega
  · obtain ⟨hcounted, hgo, -⟩ := h.unbroken fun e he => hno e (List.mem_append_left _ he)
    rw [flatMap_readings_append, hone]
    refine ⟨?_, (List.getLast?_concat).symm, fun q hq => ?_⟩
    · rw [hspan, Account.apply, hcounted, hgo]
    · obtain rfl := Option.some.inj hq
      exact onStepCount_totalSteps s.page r

theorem Conserved.frame (h : Conserved es s a) (hst : Stored t) (hread : e.readings = [])
    (hb : t.page.baselineSteps = s.page.baselineSteps)
    (ht : t.page.todaySteps = s.page.todaySteps)
    (htotal : t.page.totalSteps = s.page.totalSteps ∨
      e.isRestart = true ∧ t.page.totalSteps = 0) : Conserved (es ++ [e]) t a := by
  have happend := flatMap_readings_append es e
  rw [hread, List.append_nil] at happend
  refine ⟨h.page.congr hb ht (htotal.imp_right And.right), hst, ?_, ?_, fun hno => ?_⟩
  · rw [happend]
    exact h.previous
  · rw [happend]
    exact h.le
  · rw [happend]
    obtain ⟨hcounted, hgo, hread⟩ := h.unbroken fun e he => hno e (List.mem_append_left _ he)
    refine ⟨hcounted, hgo, fun q hq => ?_⟩
    have hno := hno e (List.mem_append_right _ (List.mem_singleton_self e))
    rcases htotal with htotal | ⟨hrestart, -⟩
    · exact htotal.trans (hread q hq)
    · rw [hno] at hrestart
      cases hrestart

theorem Conserved.ended (h : Conserved es s a) (hpage : Balances page a) (hst : Stored t)
    (hread : e.readings = []) (hb : t.page.baselineSteps = page.totalSteps)
    (ht : t.page.todaySteps = 0) (htotal : t.page.totalSteps = page.totalSteps)
    (hown : e.isRestart = true ∨ page = s.page) :
    Conserved (es ++ [e]) t (a.apply (.ended page)) := by
  have happend := flatMap_readings_append es e
  rw [hread, List.append_nil] at happend
  refine ⟨hpage.ended hb ht htotal, hst, fun q hq => ?_, ?_, fun hno => ?_⟩
  · rw [happend]
    obtain ⟨-, hq⟩ : page.totalSteps ≠ 0 ∧ a.previous = some q := by simpa [Account.apply] using hq
    exact h.previous q hq
  · rw [happend]
    exact h.le
  · rw [happend]
    have hnot := hno e (List.mem_append_right _ (List.mem_singleton_self e))
    obtain ⟨hcounted, hgo, hread⟩ := h.unbroken fun e he => hno e (List.mem_append_left _ he)
    obtain rfl : page = s.page := hown.resolve_left (by simp [hnot])
    -- The page has a reading of its own, if there has been one.
    have hkeeps : (a.apply (.ended s.page)).previous = a.previous := by
      simp only [Account.apply]
      split
      · rename_i hzero
        cases hp : a.previous with
        | none => rfl
        | some q =>
          obtain ⟨hpos, -⟩ := h.page.set q hp
          have htotal := hread q hp
          omega
      · rfl
    refine ⟨hcounted, hkeeps.trans hgo, fun q hq => ?_⟩
    rw [hkeeps] at hq
    exact htotal.trans (hread q hq)

theorem closed_page (page : Page) (later : Date) :
    let page' := (if 0 < page.todaySteps then page.recordToday else page).resetForNewDay later
    page'.baselineSteps = page.totalSteps ∧ page'.todaySteps = 0 ∧
      page'.totalSteps = page.totalSteps := by
  split
  · exact ⟨rfl, rfl, rfl⟩
  · exact ⟨rfl, rfl, rfl⟩

theorem Conserved.resumed {later : Date} (h : Conserved es s a)
    (ht : s.step (.resumed later) = some t) :
    Conserved (es ++ [.resumed later]) t ((marks s (.resumed later)).foldl Account.apply a) := by
  have hst := h.stored.step ht
  obtain rfl := Option.some.inj ht
  by_cases hd : s.page.lastResetDate = s.clock
  · have hnone : marks s (.resumed later) = [] := by
      simp [marks, Event.readings, ending, closing, isSameDay_iff.mpr hd]
    have hsame : (s.checkDateChange later).page = s.page := by
      rw [State.checkDateChange_page, if_pos hd]
    rw [hnone]
    exact h.frame hst rfl (by rw [hsame]) (by rw [hsame]) (.inl (by rw [hsame]))
  · have hone : marks s (.resumed later) = [.ended s.page] := by
      simp [marks, Event.readings, ending, closing, mt isSameDay_iff.mp hd]
    obtain ⟨hb, ht, htotal⟩ := closed_page s.page later
    rw [hone]
    apply h.ended h.page hst rfl _ _ _ (.inr rfl)
    · rw [State.checkDateChange_page, if_neg hd, hb]
    · rw [State.checkDateChange_page, if_neg hd, ht]
    · rw [State.checkDateChange_page, if_neg hd, htotal]

theorem Conserved.restarted {checked later : Date} (h : Conserved es s a)
    (ht : s.step (.restarted checked later) = some t) :
    Conserved (es ++ [.restarted checked later]) t
      ((marks s (.restarted checked later)).foldl Account.apply a) := by
  have hst := h.stored.step ht
  obtain ⟨hs, rfl⟩ := State.restarted_eq_some.mp ht
  obtain ⟨day, -, hload⟩ := h.stored.loadSavedData hs s.clock
  rw [State.launch] at hst ⊢
  simp only [marks, Event.readings, ending, closing, hload] at hst ⊢
  -- The new page goes on from the stored baseline, without a reading of its own.
  by_cases hd : day = checked
  · subst hd
    rw [State.checkDateChange_of_same rfl] at hst ⊢
    simp only [isSameDay_iff.mpr rfl]
    exact h.frame hst rfl rfl rfl (.inr ⟨rfl, rfl⟩)
  · have hpage : Balances { s.page with totalSteps := 0, lastResetDate := day } a :=
      h.page.congr rfl rfl (.inr rfl)
    obtain ⟨hb, ht, htotal⟩ :=
      closed_page { s.page with totalSteps := 0, lastResetDate := day } later
    simp only [mt isSameDay_iff.mp hd]
    apply h.ended hpage hst rfl _ _ _ (.inl rfl)
    · rw [State.checkDateChange_page, if_neg hd, hb]
    · rw [State.checkDateChange_page, if_neg hd, ht]
    · rw [State.checkDateChange_page, if_neg hd, htotal]

theorem Conserved.step (h : Conserved es s a) (hrise : Rising ((es ++ [e]).flatMap Event.readings))
    (ht : s.step e = some t) :
    Conserved (es ++ [e]) t ((marks s e).foldl Account.apply a) := by
  have hst := h.stored.step ht
  cases e with
  | reading steps => exact h.reading hrise ht
  | resumed later => exact h.resumed ht
  | restarted checked later => exact h.restarted ht
  | resetToday | resetAll =>
    obtain rfl := Option.some.inj ht
    exact h.ended h.page hst rfl rfl rfl rfl (.inr rfl)
  | paused =>
    obtain rfl := Option.some.inj ht
    obtain ⟨history, hp⟩ := s.saveTodaySteps_frame
    exact h.frame hst rfl (by rw [hp]) (by rw [hp]) (.inl (by rw [hp]))
  | write i =>
    obtain ⟨hp, -⟩ := writeNext_onPage ht
    exact h.frame hst rfl (by rw [hp]) (by rw [hp]) (.inl (by rw [hp]))
  | dateChanged today | setGoal text =>
    obtain rfl := Option.some.inj ht
    exact h.frame hst rfl rfl rfl (.inl rfl)

theorem conserved_opened (created checked : Date) :
    Conserved [] (.opened created checked) ⟨0, none, 0⟩ where
  page := ⟨rfl, fun _ => ⟨rfl, rfl, rfl⟩, nofun⟩
  stored := .inr ⟨rfl, rfl, rfl⟩
  previous := nofun
  le := le_rfl
  unbroken _ := ⟨rfl, rfl, nofun⟩

theorem Rising.of_append {e : Event} (h : Rising ((es ++ [e]).flatMap Event.readings)) :
    Rising (es.flatMap Event.readings) := by
  rw [flatMap_readings_append] at h
  exact ⟨fun r hr => h.pos r (List.mem_append_left _ hr), (List.pairwise_append.mp h.le).1⟩

theorem conserved_of_exec {created checked : Date} (hrise : Rising (es.flatMap Event.readings))
    (h : exec State.step (.opened created checked) es = some s) :
    Conserved es s (accountOf created checked es) := by
  refine (exec_history (H := fun es s => exec State.step (.opened created checked) es = some s ∧
    (Rising (es.flatMap Event.readings) → Conserved es s (accountOf created checked es)))
    ⟨rfl, fun _ => conserved_opened created checked⟩ ?_ h).2 hrise
  rintro es s e t ⟨hs, hconserved⟩ ht
  refine ⟨exec_concat hs ht, fun hrise => ?_⟩
  have haccount : accountOf created checked (es ++ [e]) =
      (marks s e).foldl Account.apply (accountOf created checked es) := by
    rw [accountOf, outputs_append_singleton hs ht, List.foldl_append, ← accountOf]
  rw [haccount]
  exact (hconserved hrise.of_append).step hrise ht

def overnight : List Event := [.resumed march1, .reading 100, .reading 150, .paused,
  .dateChanged march2, .resumed march2, .reading 170, .resetToday, .reading 200]

/--
In every run over any number of days, with pauses, resets and restarts, whose readings are positive
and do not fall: the counts of the days that have been closed, the counts that the user has reset
and the count on the page are together the steps between the readings, each counted once. They are
no more than the steps from the first reading to the last, and all of them without a restart.
-/
theorem steps_conserved {created checked : Date} (hrise : Rising (es.flatMap Event.readings))
    (h : exec State.step (.opened created checked) es = some s) :
    let a := accountOf created checked es
    a.ended + s.page.todaySteps = a.counted ∧ a.counted ≤ span (es.flatMap Event.readings) ∧
      ((∀ e ∈ es, e.isRestart = false) → a.counted = span (es.flatMap Event.readings)) := by
  have hconserved := conserved_of_exec hrise h
  exact ⟨hconserved.page.balance, hconserved.le, fun hno => (hconserved.unbroken hno).counted⟩

/-- Fifty steps of the first day, twenty that are reset, and thirty of the second day. -/
theorem steps_conserved_overnight : ∃ s,
    exec State.step (.opened march1 march1) overnight = some s ∧
      (accountOf march1 march1 overnight).ended + s.page.todaySteps =
        (accountOf march1 march1 overnight).counted := by
  have hrise : Rising (overnight.flatMap Event.readings) := ⟨by decide, by decide⟩
  exact ⟨_, rfl, (steps_conserved hrise rfl).1⟩

end FlutterPractice.StepCounter
