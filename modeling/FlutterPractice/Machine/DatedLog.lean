import Mathlib.Data.Finset.Sort

/-! # Dated logs

A log keeps the last value recorded for each date, over any linear order of
dates. Its recent entries are the newest ones, newest first. Recording at the
newest date or later changes only the first of them, so a list that is updated
there and truncated keeps showing the recent entries of the log.
-/

structure DatedLog (δ ν : Type*) where
  dates : Finset δ
  value : δ → ν

namespace DatedLog

variable {δ ν : Type*} [LinearOrder δ] {d : δ} {v : ν} {n : ℕ}

def record (L : DatedLog δ ν) (d : δ) (v : ν) : DatedLog δ ν :=
  ⟨insert d L.dates, Function.update L.value d v⟩

def clear (L : DatedLog δ ν) : DatedLog δ ν := ⟨∅, L.value⟩

inductive Op (δ ν : Type*) where
  | record (d : δ) (v : ν)
  | clear

def apply (L : DatedLog δ ν) : Op δ ν → DatedLog δ ν
  | .record d v => L.record d v
  | .clear => L.clear

/-- The log that holds the entries of a list, of which earlier ones win. -/
def ofEntries [Inhabited ν] : List (δ × ν) → DatedLog δ ν
  | [] => ⟨∅, fun _ => default⟩
  | (d, v) :: entries => (ofEntries entries).record d v

def recent (L : DatedLog δ ν) (n : ℕ) : List (δ × ν) :=
  ((L.dates.sort (· ≥ ·)).take n).map fun d => (d, L.value d)

/-- Replace the entry of a date, or put a new one first. -/
def upsert (d : δ) (v : ν) (entries : List (δ × ν)) : List (δ × ν) :=
  match entries.findIdx? fun entry => entry.1 = d with
  | some i => entries.set i (d, v)
  | none => (d, v) :: entries

variable {L : DatedLog δ ν}

@[simp] theorem dates_record : (L.record d v).dates = insert d L.dates := rfl

@[simp] theorem value_record_self : (L.record d v).value d = v := by simp [record]

theorem dates_record_le (h : ∀ e ∈ L.dates, e ≤ d) : ∀ e ∈ (L.record d v).dates, e ≤ d := by
  intro e he
  rcases Finset.mem_insert.mp he with rfl | he
  · exact le_rfl
  · exact h e he

theorem value_record_of_ne {e : δ} (h : e ≠ d) : (L.record d v).value e = L.value e := by
  simp [record, h]

@[simp] theorem recent_clear : L.clear.recent n = [] := by simp [recent, clear]

theorem mem_recent {x : δ × ν} (h : x ∈ L.recent n) : x.1 ∈ L.dates ∧ x.2 = L.value x.1 := by
  obtain ⟨d, hd, rfl⟩ := List.mem_map.mp h
  exact ⟨(Finset.mem_sort _).mp (List.mem_of_mem_take hd), rfl⟩

theorem length_recent_le : (L.recent n).length ≤ n := by
  simp [recent]

theorem pairwise_recent : (L.recent n).Pairwise fun x y => y.1 < x.1 := by
  rw [recent, List.pairwise_map]
  exact (Finset.sortedGT_sort L.dates).pairwise.sublist (List.take_sublist _ _)

theorem lt_of_not_recent (hd : d ∈ L.dates) (hn : ∀ x ∈ L.recent n, x.1 ≠ d) :
    ∀ x ∈ L.recent n, d < x.1 := by
  intro x hx
  obtain ⟨e, he, rfl⟩ := List.mem_map.mp hx
  have hmem : d ∈ L.dates.sort (· ≥ ·) := (Finset.mem_sort _).mpr hd
  rw [← List.take_append_drop n (L.dates.sort (· ≥ ·)), List.mem_append] at hmem
  rcases hmem with hmem | hmem
  · exact (hn (d, L.value d) (List.mem_map.mpr ⟨d, hmem, rfl⟩) rfl).elim
  · have hsort := (Finset.sortedGT_sort L.dates).pairwise
    rw [← List.take_append_drop n (L.dates.sort (· ≥ ·)), List.pairwise_append] at hsort
    exact hsort.2.2 e he d hmem

theorem map_value_record {l : List δ} (hl : d ∉ l) :
    (l.map fun e => (e, (L.record d v).value e)) = l.map fun e => (e, L.value e) :=
  List.map_congr_left fun e he => by rw [value_record_of_ne (ne_of_mem_of_not_mem he hl)]

theorem recent_record_later (h : ∀ e ∈ L.dates, e < d) :
    (L.record d v).recent (n + 1) = (d, v) :: L.recent n := by
  have hd : d ∉ L.dates := fun hd => lt_irrefl d (h d hd)
  rw [recent, dates_record, Finset.sort_insert (r := (· ≥ ·)) (fun e he => (h e he).le) hd,
    List.take_succ_cons, List.map_cons, value_record_self, map_value_record]
  · rfl
  · exact fun hm => hd ((Finset.mem_sort _).mp (List.mem_of_mem_take hm))

/-- When the newest date is recorded again, only the first entry changes. -/
theorem recent_record_newest (hd : d ∈ L.dates) (h : ∀ e ∈ L.dates, e ≤ d) :
    ∃ rest, L.recent (n + 1) = (d, L.value d) :: rest ∧
      (L.record d v).recent (n + 1) = (d, v) :: rest := by
  have hins : insert d (L.dates.erase d) = L.dates := Finset.insert_erase hd
  have hsort : L.dates.sort (· ≥ ·) = d :: (L.dates.erase d).sort (· ≥ ·) := by
    conv_lhs => rw [← hins]
    exact Finset.sort_insert (r := (· ≥ ·)) (fun e he => h e (Finset.mem_of_mem_erase he))
      (Finset.notMem_erase d _)
  refine ⟨(((L.dates.erase d).sort (· ≥ ·)).take n).map fun e => (e, L.value e), ?_, ?_⟩
  · rw [recent, hsort, List.take_succ_cons, List.map_cons]
  · rw [recent, dates_record, Finset.insert_eq_of_mem hd, hsort, List.take_succ_cons,
      List.map_cons, value_record_self, map_value_record]
    intro hm
    exact Finset.notMem_erase d _ ((Finset.mem_sort _).mp (List.mem_of_mem_take hm))

theorem recent_eq_cons_newest (hd : d ∈ L.dates) (h : ∀ e ∈ L.dates, e ≤ d) :
    ∃ rest, L.recent (n + 1) = (d, L.value d) :: rest :=
  let ⟨rest, hold, _⟩ := recent_record_newest (v := L.value d) hd h
  ⟨rest, hold⟩

theorem exists_of_mem_ofEntries [Inhabited ν] {entries : List (δ × ν)}
    (h : d ∈ (ofEntries entries).dates) : ∃ x ∈ entries, x.1 = d := by
  induction entries with
  | nil => simp [ofEntries] at h
  | cons x entries ih =>
    rcases Finset.mem_insert.mp h with rfl | h
    · exact ⟨x, List.mem_cons_self, rfl⟩
    · obtain ⟨y, hy, hd⟩ := ih h
      exact ⟨y, List.mem_cons_of_mem _ hy, hd⟩

theorem recent_ofEntries [Inhabited ν] {entries : List (δ × ν)}
    (h : entries.Pairwise fun x y => y.1 < x.1) :
    (ofEntries entries).recent n = entries.take n := by
  induction entries generalizing n with
  | nil => simp [ofEntries, recent]
  | cons x entries ih =>
    obtain ⟨hx, hentries⟩ := List.pairwise_cons.mp h
    cases n with
    | zero => simp [recent]
    | succ n =>
      have hlater : ∀ e ∈ (ofEntries entries).dates, e < x.1 := by
        intro e he
        obtain ⟨y, hy, rfl⟩ := exists_of_mem_ofEntries he
        exact hx y hy
      rw [ofEntries, recent_record_later hlater, ih hentries, List.take_succ_cons]

theorem upsert_of_ne {entries : List (δ × ν)} (h : ∀ x ∈ entries, x.1 ≠ d) :
    upsert d v entries = (d, v) :: entries := by
  have hnone : entries.findIdx? (fun entry => entry.1 = d) = none := by
    rw [List.findIdx?_eq_none_iff]
    intro x hx
    simpa using h x hx
  rw [upsert, hnone]

theorem upsert_cons_self {w : ν} {rest : List (δ × ν)} :
    upsert d v ((d, w) :: rest) = (d, v) :: rest := by
  simp [upsert, List.findIdx?_cons]

/-- The list form of a record: update the entries shown, and drop what is too much. -/
theorem take_upsert_recent (h : ∀ e ∈ L.dates, e ≤ d) :
    (upsert d v (L.recent (n + 1))).take (n + 1) = (L.record d v).recent (n + 1) := by
  by_cases hd : d ∈ L.dates
  · obtain ⟨rest, hold, hnew⟩ := recent_record_newest (n := n) (v := v) hd h
    have hlen : ((d, v) :: rest).length ≤ n + 1 := hnew ▸ length_recent_le
    rw [hold, hnew, upsert_cons_self, List.take_of_length_le hlen]
  · have hlt : ∀ e ∈ L.dates, e < d :=
      fun e he => lt_of_le_of_ne (h e he) fun hed => hd (hed ▸ he)
    have hne : ∀ x ∈ L.recent (n + 1), x.1 ≠ d := fun x hx => (hlt _ (mem_recent hx).1).ne
    rw [upsert_of_ne hne, recent_record_later hlt, List.take_succ_cons, recent, recent,
      ← List.map_take, List.take_take, Nat.min_eq_left (Nat.le_succ n)]

end DatedLog
