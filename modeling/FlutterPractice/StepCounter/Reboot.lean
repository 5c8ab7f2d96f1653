import FlutterPractice.StepCounter.History

/-! # Counting across reboots

The readings of one day, summed up by the baseline and compared with the steps
that were walked. What the baseline leaves out is never made up for, so the
count is right at the end only if it was right after every reading. That leaves
the days without a reboot and without a zero, and the days without a step.
-/

namespace FlutterPractice.StepCounter

open Dart Machine

/-- The steps between two consecutive readings. Below the earlier one, the counter started again. -/
def stepsBetween (previous steps : ℤ) : ℤ :=
  if previous ≤ steps then steps - previous else steps

def walked : List ℤ → ℤ
  | previous :: steps :: rest => stepsBetween previous steps + walked (steps :: rest)
  | _ => 0

/-- What `_onStepCount` makes of the baseline and of today's steps. -/
def count (x : ℤ × ℤ) (steps : ℤ) : ℤ × ℤ :=
  if x.1 = 0 ∨ steps < x.1 then (steps, 0) else (x.1, steps - x.1)

def account (readings : List ℤ) : ℤ × ℤ := readings.foldl count (0, 0)

/-- The readings rise from a positive one, or they are all the same until they are zero. -/
def Steady (readings : List ℤ) : Prop :=
  readings.Pairwise (fun previous steps => 0 < previous ∧ previous ≤ steps) ∨
    ∃ c m n, readings = List.replicate m c ++ List.replicate n 0

theorem account_append (rs : List ℤ) (r : ℤ) : account (rs ++ [r]) = count (account rs) r := by
  simp [account]

theorem walked_append (rs : List ℤ) (p r : ℤ) :
    walked (rs ++ [p, r]) = walked (rs ++ [p]) + stepsBetween p r := by
  induction rs with
  | nil => simp [walked]
  | cons q rs ih =>
    cases rs with
    | nil => simp [walked]
    | cons q' rs =>
      simp only [List.cons_append, walked] at ih ⊢
      rw [ih, add_assoc]

variable {p r w : ℤ} {x : ℤ × ℤ}

theorem stepsBetween_nonneg (hr : 0 ≤ r) : 0 ≤ stepsBetween p r := by
  unfold stepsBetween
  split <;> omega

theorem sub_le_stepsBetween (hp : 0 ≤ p) : r - p ≤ stepsBetween p r := by
  unfold stepsBetween
  split <;> omega

theorem count_of_lt (h : x.1 = 0 ∨ r < x.1) : count x r = (r, 0) := if_pos h

theorem count_of_le (h : ¬ (x.1 = 0 ∨ r < x.1)) : count x r = (x.1, r - x.1) := if_neg h

structure Counts (walked last : ℤ) (x : ℤ × ℤ) : Prop where
  last_eq : x.1 + x.2 = last
  baseline_nonneg : 0 ≤ x.1
  today_nonneg : 0 ≤ x.2
  today_le : x.2 ≤ walked
  unset : x.1 = 0 → x.2 = 0

theorem counts_first (hr : 0 ≤ r) : Counts 0 r (count (0, 0) r) := by
  rw [count_of_lt (.inl rfl)]
  exact ⟨add_zero r, hr, le_rfl, le_rfl, fun _ => rfl⟩

theorem Counts.count (h : Counts w p x) (hr : 0 ≤ r) :
    Counts (w + stepsBetween p r) r (count x r) := by
  obtain ⟨hlast, hb, ht, hle, hunset⟩ := h
  have hnonneg := @stepsBetween_nonneg p r hr
  have hsub := @sub_le_stepsBetween p r (by omega)
  by_cases hx : x.1 = 0 ∨ r < x.1
  · rw [count_of_lt hx]
    exact ⟨add_zero r, hr, le_rfl, by omega, fun _ => rfl⟩
  · rw [count_of_le hx]
    exact ⟨add_sub_cancel _ _, hb, by simp only []; omega, by simp only []; omega,
      fun h0 => (hx (.inl h0)).elim⟩

/-- A reading is counted in full from a baseline that it does not fall below, or adds nothing. -/
def CountsFully (p r : ℤ) (x : ℤ × ℤ) : Prop := x.1 ≠ 0 ∧ p ≤ r ∨ r = 0 ∧ x.2 = 0

/-- The count is right behind a reading iff it was right before and the reading is counted in
full. -/
theorem Counts.count_eq_iff (h : Counts w p x) (hr : 0 ≤ r) :
    (StepCounter.count x r).2 = w + stepsBetween p r ↔ x.2 = w ∧ CountsFully p r x := by
  obtain ⟨hlast, hb, ht, hle, hunset⟩ := h
  unfold CountsFully stepsBetween
  by_cases hx : x.1 = 0 ∨ r < x.1
  · rw [count_of_lt hx]
    simp only []
    split <;> omega
  · rw [count_of_le hx]
    simp only []
    split <;> omega

variable {rs : List ℤ}

theorem counts_account (h : ∀ q ∈ rs ++ [p], 0 ≤ q) :
    Counts (walked (rs ++ [p])) p (account (rs ++ [p])) := by
  induction rs using List.reverseRecOn generalizing p with
  | nil => exact counts_first (h p (List.mem_singleton.mpr rfl))
  | append_singleton rs q ih =>
    have hq := ih fun q' hq' => h q' (List.mem_append_left _ hq')
    rw [account_append, List.append_assoc, List.singleton_append, walked_append]
    exact hq.count (h p (List.mem_append_right _ (List.mem_singleton.mpr rfl)))

theorem foldl_count_fst {a t : ℤ} (ha : a ≠ 0) (h : ∀ q ∈ rs, a ≤ q) :
    (rs.foldl count (a, t)).1 = a := by
  induction rs generalizing t with
  | nil => rfl
  | cons q rs ih =>
    obtain ⟨hq, hrs⟩ := List.forall_mem_cons.mp h
    rw [List.foldl_cons, count_of_le (by simp only []; omega)]
    exact ih hrs

theorem account_rising_fst {a : ℤ}
    (h : (a :: rs).Pairwise fun previous steps => 0 < previous ∧ previous ≤ steps) :
    (account (a :: rs)).1 = a := by
  have hfirst : account (a :: rs) = rs.foldl count (a, 0) := by
    rw [account, List.foldl_cons, count_of_lt (.inl rfl)]
  rw [hfirst]
  cases rs with
  | nil => rfl
  | cons q rs =>
    have hall := (List.pairwise_cons.mp h).1
    exact foldl_count_fst (hall q List.mem_cons_self).1.ne' fun q' hq' => (hall q' hq').2

theorem foldl_count_replicate (c : ℤ) (m : ℕ) :
    (List.replicate m c).foldl count (c, 0) = (c, 0) := by
  have hcount : count (c, 0) c = (c, 0) := by simp [count]
  induction m with
  | zero => rfl
  | succ m ih => rw [List.replicate_succ, List.foldl_cons, hcount, ih]

theorem account_replicate (c : ℤ) (m : ℕ) : account (List.replicate (m + 1) c) = (c, 0) := by
  rw [account, List.replicate_succ, List.foldl_cons, count_of_lt (.inl rfl),
    foldl_count_replicate]

theorem account_append_zero (h0 : 0 ≤ (account rs).1) :
    account (rs ++ [0]) = (0, 0) := by
  rw [account_append, count_of_lt (by omega)]

/-- The same reading over and over counts no steps, and a zero behind it unsets the baseline. -/
theorem account_level {c : ℤ} {m : ℕ} (hc : m ≠ 0 → 0 ≤ c) (n : ℕ) :
    (account (List.replicate m c ++ List.replicate n 0)).2 = 0 ∧
      account (List.replicate m c ++ List.replicate (n + 1) 0) = (0, 0) := by
  have hm : 0 ≤ (account (List.replicate m c)).1 ∧ (account (List.replicate m c)).2 = 0 := by
    cases m with
    | zero => exact ⟨le_rfl, rfl⟩
    | succ m =>
      rw [account_replicate]
      exact ⟨hc (Nat.succ_ne_zero m), rfl⟩
  induction n with
  | zero =>
    rw [List.replicate_zero, List.append_nil, List.replicate_one]
    exact ⟨hm.2, account_append_zero hm.1⟩
  | succ n ih =>
    refine ⟨by rw [ih.2], ?_⟩
    rw [List.replicate_succ', ← List.append_assoc]
    exact account_append_zero (by rw [ih.2])

theorem nonneg_of_level {c : ℤ} {m n : ℕ} (h : ∀ q ∈ rs, 0 ≤ q)
    (hrs : rs = List.replicate m c ++ List.replicate n 0) (hm : m ≠ 0) : 0 ≤ c :=
  h c (by rw [hrs]; exact List.mem_append_left _ (List.mem_replicate.mpr ⟨hm, rfl⟩))

theorem level_append {c : ℤ} {m n : ℕ}
    (h : rs ++ [r] = List.replicate m c ++ List.replicate n 0) :
    (r = 0 ∧ ∃ k, rs = List.replicate m c ++ List.replicate k 0) ∨
      (r = c ∧ ∃ k, rs = List.replicate k c) := by
  cases n with
  | zero =>
    cases m with
    | zero => simp at h
    | succ m =>
      rw [List.replicate_zero, List.append_nil, List.replicate_succ'] at h
      obtain ⟨hrs, hr⟩ := List.append_inj' h rfl
      exact .inr ⟨(List.cons.inj hr).1, m, hrs⟩
  | succ n =>
    rw [List.replicate_succ', ← List.append_assoc] at h
    obtain ⟨hrs, hr⟩ := List.append_inj' h rfl
    exact .inl ⟨(List.cons.inj hr).1, n, hrs⟩

theorem countsFully_of_steady (h : ∀ q ∈ rs ++ [p], 0 ≤ q) (hs : Steady (rs ++ [p] ++ [r])) :
    Steady (rs ++ [p]) ∧ CountsFully p r (account (rs ++ [p])) := by
  have hcounts := counts_account h
  rcases hs with hs | ⟨c, m, n, hs⟩
  · obtain ⟨hrise, -, hlast⟩ := List.pairwise_append.mp hs
    have hp := hlast p (List.mem_append_right _ (List.mem_singleton.mpr rfl)) r
      (List.mem_singleton.mpr rfl)
    refine ⟨.inl hrise, .inl ⟨fun h0 => ?_, hp.2⟩⟩
    have hsum := hcounts.last_eq
    have hunset := hcounts.unset h0
    omega
  · rcases level_append hs with ⟨rfl, k, hk⟩ | ⟨rfl, k, hk⟩
    · refine ⟨.inr ⟨c, m, k, hk⟩, .inr ⟨rfl, ?_⟩⟩
      have hc := nonneg_of_level h hk
      rw [hk]
      exact (account_level hc k).1
    · have hp : p = r := List.eq_of_mem_replicate (hk ▸ List.mem_append_right rs
        (List.mem_singleton.mpr rfl))
      subst hp
      cases k with
      | zero => simp at hk
      | succ k =>
        refine ⟨.inr ⟨p, k + 1, 0, by simpa using hk⟩, ?_⟩
        rw [hk, account_replicate]
        by_cases h0 : p = 0
        · exact .inr ⟨h0, rfl⟩
        · exact .inl ⟨h0, le_rfl⟩

theorem rising_append {l : List ℤ}
    (h : l.Pairwise fun previous steps => 0 < previous ∧ previous ≤ steps)
    (hr : ∀ q ∈ l, 0 < q ∧ q ≤ r) :
    (l ++ [r]).Pairwise fun previous steps => 0 < previous ∧ previous ≤ steps := by
  refine List.pairwise_append.mpr ⟨h, List.pairwise_singleton _ _, ?_⟩
  intro q hq r' hr'
  obtain rfl := List.mem_singleton.mp hr'
  exact hr q hq

/-- Between a first and a last reading that agree, rising readings do not move. -/
theorem eq_last_of_rising
    (h : (rs ++ [p]).Pairwise fun previous steps => 0 < previous ∧ previous ≤ steps)
    (hfirst : (account (rs ++ [p])).1 = p) : ∀ q ∈ rs ++ [p], q = p := by
  cases rs with
  | nil => exact fun q hq => List.mem_singleton.mp hq
  | cons a rs =>
    obtain rfl : a = p := (account_rising_fst h).symm.trans hfirst
    obtain ⟨-, -, hlast⟩ := List.pairwise_append.mp h
    intro q hq
    rcases List.mem_append.mp hq with hq | hq
    · rcases List.mem_cons.mp hq with rfl | hrs
      · rfl
      · have hle := (hlast q hq a (List.mem_singleton.mpr rfl)).2
        have hge := ((List.pairwise_cons.mp h).1 q (List.mem_append_left _ hrs)).2
        exact le_antisymm hle hge
    · exact List.mem_singleton.mp hq

theorem steady_of_countsFully (h : ∀ q ∈ rs ++ [p], 0 ≤ q) (hs : Steady (rs ++ [p]))
    (hfull : CountsFully p r (account (rs ++ [p]))) : Steady (rs ++ [p] ++ [r]) := by
  have hcounts := counts_account h
  have hsum := hcounts.last_eq
  have hb := hcounts.baseline_nonneg
  have ht := hcounts.today_nonneg
  rcases hs with hs | ⟨c, m, n, hs⟩
  · rcases hfull with ⟨h0, hpr⟩ | ⟨rfl, ht⟩
    · refine .inl (rising_append hs fun q hq => ?_)
      obtain ⟨-, -, hlast⟩ := List.pairwise_append.mp hs
      rcases List.mem_append.mp hq with hq | hq
      · have hle := hlast q hq p (List.mem_singleton.mpr rfl)
        exact ⟨hle.1, hle.2.trans hpr⟩
      · obtain rfl := List.mem_singleton.mp hq
        exact ⟨by omega, hpr⟩
    · have hall := eq_last_of_rising hs (by omega)
      refine .inr ⟨p, (rs ++ [p]).length, 1, ?_⟩
      rw [← List.eq_replicate_of_mem hall]
      rfl
  · rcases hfull with ⟨h0, hpr⟩ | ⟨rfl, -⟩
    · cases n with
      | zero =>
        rw [List.replicate_zero, List.append_nil] at hs
        have hall : ∀ q ∈ rs ++ [p], q = c := fun q hq => List.eq_of_mem_replicate (hs ▸ hq)
        obtain rfl := hall p (List.mem_append_right _ List.mem_cons_self)
        have hp : 0 < p := by omega
        refine .inl (rising_append ?_ fun q hq => by rw [hall q hq]; exact ⟨hp, hpr⟩)
        rw [hs]
        exact List.pairwise_replicate.mpr (.inr ⟨hp, le_rfl⟩)
      | succ n =>
        -- The zero at the end has unset the baseline.
        rw [hs, (account_level (nonneg_of_level h hs) n).2] at h0
        exact (h0 rfl).elim
    · refine .inr ⟨c, m, n + 1, ?_⟩
      rw [hs, List.replicate_succ', List.append_assoc]

theorem account_eq_walked_iff (h : ∀ q ∈ rs, 0 ≤ q) :
    (account rs).2 = walked rs ↔ Steady rs := by
  induction rs using List.reverseRecOn with
  | nil => exact iff_of_true rfl (.inl .nil)
  | append_singleton rs r ih =>
    obtain ⟨hrs, hr⟩ := List.forall_mem_append.mp h
    have hr := hr r (List.mem_singleton.mpr rfl)
    induction rs using List.reverseRecOn with
    | nil => exact iff_of_true rfl (.inl (List.pairwise_singleton _ _))
    | append_singleton rs p _ =>
      have hwalked : walked (rs ++ [p] ++ [r]) = walked (rs ++ [p]) + stepsBetween p r := by
        rw [List.append_assoc, List.singleton_append, walked_append]
      rw [account_append, hwalked, (counts_account hrs).count_eq_iff hr, ih hrs]
      constructor
      · rintro ⟨hs, hfull⟩
        exact steady_of_countsFully hrs hs hfull
      · exact countsFully_of_steady hrs

def Event.readings : Event → List ℤ
  | .reading steps => [steps]
  | _ => []

def Event.Within (day : Date) : Event → Prop
  | .dateChanged today => today = day
  | .reading steps => 0 ≤ steps
  | .resumed later => later = day
  | .restarted checked later => checked = day ∧ later = day
  | .resetToday | .resetAll => False
  | .paused | .setGoal _ | .write _ => True

/-- The page holds the account of its readings, on the day they were read. -/
structure Accounts (day : Date) (s : State) (x : ℤ × ℤ) : Prop where
  baseline : s.page.baselineSteps = x.1
  today : s.page.todaySteps = x.2
  date : s.page.lastResetDate = day
  clock : s.clock = day
  stored : Stored s

variable {day : Date} {s t : State} {e : Event}

theorem onStepCount_count (page : Page) (steps : ℤ) :
    ((page.onStepCount steps).baselineSteps, (page.onStepCount steps).todaySteps) =
      count (page.baselineSteps, page.todaySteps) steps := by
  by_cases h0 : page.baselineSteps = 0
  · simp [Page.onStepCount, count, h0]
  · by_cases hlt : steps < page.baselineSteps
    · have hneg : steps - page.baselineSteps < 0 := by omega
      simp [Page.onStepCount, count, h0, hlt, hneg]
    · have hneg : ¬ steps - page.baselineSteps < 0 := by omega
      simp only [Page.onStepCount, count, h0, hlt, if_neg hneg, if_false, or_self]

theorem Accounts.checkDateChange (h : Accounts day s x) :
    Accounts day (s.checkDateChange day) x := by
  rw [State.checkDateChange_of_same (h.date.trans h.clock.symm)]
  exact ⟨h.baseline, h.today, h.date, rfl, h.stored⟩

theorem Accounts.launch (h : Accounts day s x) (hs : s.saves = []) :
    Accounts day (State.launch s.prefs s.clock day day) x := by
  have hst := h.stored.restart hs s.clock day
  obtain ⟨today, hday, hpage⟩ := h.stored.loadSavedData hs s.clock
  have hdate : today = day := by
    rcases hday with rfl | ⟨rfl, -⟩
    · exact h.date
    · exact h.clock
  have hload : Accounts day
      ⟨(Page.create s.clock).loadSavedData s.prefs, s.prefs, [], day⟩ x := by
    rw [hpage] at hst ⊢
    exact ⟨h.baseline, h.today, hdate, rfl, hst⟩
  exact hload.checkDateChange

theorem Accounts.step (h : Accounts day s x) (he : e.Within day) (ht : s.step e = some t) :
    Accounts day t (e.readings.foldl count x) := by
  have hst := h.stored.step ht
  cases e with
  | reading steps =>
    obtain rfl := Option.some.inj ht
    have hcount := onStepCount_count s.page steps
    rw [h.baseline, h.today] at hcount
    exact ⟨congrArg Prod.fst hcount, congrArg Prod.snd hcount, by simpa using h.date, h.clock, hst⟩
  | dateChanged today =>
    obtain rfl := Option.some.inj ht
    exact ⟨h.baseline, h.today, h.date, he, hst⟩
  | paused =>
    obtain rfl := Option.some.inj ht
    obtain ⟨history, hp⟩ := s.saveTodaySteps_frame
    exact ⟨by rw [hp]; exact h.baseline, by rw [hp]; exact h.today, by rw [hp]; exact h.date,
      s.saveTodaySteps_clock.trans h.clock, hst⟩
  | resumed later =>
    obtain rfl := Option.some.inj ht
    obtain rfl : later = day := he
    exact h.checkDateChange
  | setGoal text =>
    obtain rfl := Option.some.inj ht
    exact ⟨h.baseline, h.today, h.date, h.clock, hst⟩
  | write i =>
    obtain ⟨hpage, hclock⟩ := writeNext_onPage ht
    exact ⟨hpage ▸ h.baseline, hpage ▸ h.today, hpage ▸ h.date, hclock ▸ h.clock, hst⟩
  | restarted checked later =>
    obtain ⟨rfl, rfl⟩ := he
    obtain ⟨hs, rfl⟩ := State.restarted_eq_some.mp ht
    exact h.launch hs
  | resetToday | resetAll => exact he.elim

theorem accounts_launch_empty (day : Date) :
    Accounts day (State.launch .empty day day day) (0, 0) := by
  have hload : Accounts day ⟨(Page.create day).loadSavedData .empty, .empty, [], day⟩ (0, 0) :=
    ⟨rfl, rfl, rfl, rfl, .inr ⟨rfl, rfl, rfl⟩⟩
  exact hload.checkDateChange

theorem readings_nonneg {es : List Event} (h : ∀ e ∈ es, e.Within day) :
    ∀ q ∈ es.flatMap Event.readings, 0 ≤ q := by
  intro q hq
  obtain ⟨e, he, hq⟩ := List.mem_flatMap.mp hq
  cases e with
  | reading steps =>
    obtain rfl := List.mem_singleton.mp hq
    exact h _ he
  | _ => cases hq

/--
Over the readings of one day, restarts included, today's steps are the steps walked exactly when
the readings rise from a positive one, or are all the same until they are zero.
-/
theorem todaySteps_eq_walked_iff {es : List Event} (hday : ∀ e ∈ es, e.Within day)
    (h : exec State.step (State.launch .empty day day day) es = some s) :
    s.page.todaySteps = walked (es.flatMap Event.readings) ↔
      Steady (es.flatMap Event.readings) := by
  have hrun : Along State.step (fun _ e _ => e.Within day) (State.launch .empty day day day) es :=
    along_of_forall hday
  have haccounts : Accounts day s ((outputs State.step (fun _ e => e.readings)
      (State.launch .empty day day day) es).foldl count (0, 0)) :=
    hrun.simulation (accounts_launch_empty day) (fun s e t x hs he ht => hs.step he ht) h
  rw [outputs_of_exec h] at haccounts
  rw [haccounts.today]
  exact account_eq_walked_iff (readings_nonneg hday)

/-- A walk of thirty steps, with a restart between its two readings. -/
theorem todaySteps_eq_walked_iff_restart : ∃ s,
    exec State.step (State.launch .empty march1 march1 march1)
      ([.reading 100] ++ List.replicate 4 (.write 0) ++
        [.restarted march1 march1, .reading 130]) = some s ∧
      (s.page.todaySteps = walked [100, 130] ↔ Steady [100, 130]) := by
  have hday : ∀ e ∈ [Event.reading 100] ++ List.replicate 4 (.write 0) ++
      [.restarted march1 march1, .reading 130], e.Within march1 := by
    simp [Event.Within]
  exact ⟨_, rfl, todaySteps_eq_walked_iff hday rfl⟩

/-- A reboot after fifty steps, and another hundred and twenty: the page shows twenty. -/
theorem todaySteps_ne_walked_reboot : ∃ s,
    (∀ e ∈ [Event.reading 100, .reading 150, .reading 120], e.Within march1) ∧
      exec State.step (State.launch .empty march1 march1 march1)
        [.reading 100, .reading 150, .reading 120] = some s ∧
      s.page.todaySteps = 20 ∧ walked [100, 150, 120] = 170 := by
  refine ⟨_, ?_, rfl, rfl, rfl⟩
  simp [Event.Within]

end FlutterPractice.StepCounter
