import FlutterPractice.Dart.Number
import FlutterPractice.Machine.Reload

/-! # The students

The `students` table and the page that adds and deletes students. Every write
is followed by a `load`, and until that has come the page shows an older list.
What is shown in the end is the table: one new row for each student saved, and
none of the students whose icon was tapped.
-/

namespace FlutterPractice.Students

open Dart Machine

structure Columns where
  name : String
  age : ℤ
  grade : String
  deriving DecidableEq

structure Student extends Columns where
  id : Option ℤ
  deriving DecidableEq

structure Row extends Columns where
  id : ℤ
  deriving DecidableEq

/-- `Student.fromMap` -/
def Row.toStudent (row : Row) : Student := { row with id := some row.id }

@[simp] theorem Row.toStudent_id (row : Row) : row.toStudent.id = some row.id := rfl

/-- The rows by id, and the largest id that `AUTOINCREMENT` has seen. -/
structure Table where
  rows : List Row
  seq : ℤ
  deriving DecidableEq

/-- The statements of `StudentRepository` that write. -/
inductive Write where
  | insert (student : Columns)
  | delete (id : ℤ)
  deriving DecidableEq

namespace Table

/-- `INSERT INTO students` with the id NULL, and `DELETE FROM students WHERE id=?` -/
def apply (T : Table) : Write → Table
  | .insert student => ⟨T.rows ++ [{ student with id := T.seq + 1 }], T.seq + 1⟩
  | .delete id => { T with rows := T.rows.filter fun row => row.id ≠ id }

/-- `SELECT * FROM students` -/
def getAll (T : Table) : List Student := T.rows.map Row.toStudent

/-- What the primary key and `AUTOINCREMENT` keep. -/
structure Valid (T : Table) : Prop where
  ids : (T.rows.map (·.id)).Nodup
  id_le : ∀ row ∈ T.rows, row.id ≤ T.seq

theorem valid_empty : Valid ⟨[], 0⟩ := ⟨List.nodup_nil, fun _ h => by cases h⟩

end Table

abbrev StudentPage := Viewing Table Write (List Student)

inductive Event where
  | save (name age grade : String)
  | delete (index : ℕ)
  | database (e : Viewing.Advance)
  deriving DecidableEq

namespace StudentPage

/-- `initState` -/
def opened (T : Table) : StudentPage := ⟨T, [], [.read], []⟩

/-- `addStudent` throws at `int.parse`, before there is a call. -/
def addStudent (s : StudentPage) (name age grade : String) : StudentPage :=
  match parseInt age with
  | none => s
  | some age => s.ask (.write (.insert ⟨name, age, grade⟩))

/-- A tap on the icon of a student; `s.id!` throws for one without an id. -/
def onDelete (s : StudentPage) (student : Student) : StudentPage :=
  match student.id with
  | none => s
  | some id => s.ask (.write (.delete id))

def step (s : StudentPage) : Event → Option StudentPage
  | .save name age grade => some (s.addStudent name age grade)
  | .delete index => s.view[index]?.map s.onDelete
  | .database e => s.advance Table.apply Table.getAll e

end StudentPage

/-- What the user has asked for: a student to save, or one of those shown to delete. -/
inductive Demand where
  | save (student : Columns)
  | delete (student : Student)

def demands (s : StudentPage) : Event → List Demand
  | .save name age grade => ((parseInt age).map fun age => .save ⟨name, age, grade⟩).toList
  | .delete index => (s.view[index]?.map .delete).toList
  | .database _ => []

def saves (ds : List Demand) : List Columns := ds.filterMap fun
  | .save student => some student
  | .delete _ => none

def deletions (ds : List Demand) : List Student := ds.filterMap fun
  | .save _ => none
  | .delete student => some student

def inserts (waiting : List (Statement Write)) : List Columns := waiting.filterMap fun
  | .write (.insert student) => some student
  | _ => none

def deletes (waiting : List (Statement Write)) : List ℤ := waiting.filterMap fun
  | .write (.delete id) => some id
  | _ => none

section Lists

variable {ds ds' : List Demand} {waiting waiting' : List (Statement Write)}

@[simp] theorem saves_append : saves (ds ++ ds') = saves ds ++ saves ds' := List.filterMap_append

@[simp] theorem deletions_append : deletions (ds ++ ds') = deletions ds ++ deletions ds' :=
  List.filterMap_append

@[simp] theorem inserts_append :
    inserts (waiting ++ waiting') = inserts waiting ++ inserts waiting' := List.filterMap_append

@[simp] theorem deletes_append :
    deletes (waiting ++ waiting') = deletes waiting ++ deletes waiting' := List.filterMap_append

end Lists

/-- The rows that there have been, and the ids of those that a statement has deleted. -/
structure Accounted (T : Table) (new : List Row) (gone : List ℤ) (ds : List Demand)
    (s : StudentPage) : Prop where
  ids : new.map (·.id) = (List.range new.length).map fun i : ℕ => T.seq + 1 + i
  seq : s.store.seq = T.seq + new.length
  rows : s.store.rows = (T.rows ++ new).filter fun row => row.id ∉ gone
  saved : (saves ds).Perm (new.map (·.toColumns) ++ inserts s.waiting)
  deleted : ((deletions ds).map (·.id)).Perm ((gone ++ deletes s.waiting).map some)
  known : ∀ student ∈ deletions ds, student ∈ (T.rows ++ new).map Row.toStudent
  shown : ∀ student ∈ s.view, student ∈ (T.rows ++ new).map Row.toStudent
  replies : ∀ students, .contents students ∈ s.replies →
    ∀ student ∈ students, student ∈ (T.rows ++ new).map Row.toStudent

section Accounts

variable {T : Table} {new : List Row} {gone : List ℤ} {ds : List Demand} {s t : StudentPage}

theorem accounted_opened (T : Table) : Accounted T [] [] [] (StudentPage.opened T) where
  ids := rfl
  seq := (add_zero _).symm
  rows := by simp [StudentPage.opened]
  saved := .refl _
  deleted := .refl _
  known := nofun
  shown := nofun
  replies := nofun

theorem Accounted.addStudent (h : Accounted T new gone ds s) (name age grade : String) :
    Accounted T new gone (ds ++ demands s (.save name age grade))
      (s.addStudent name age grade) := by
  simp only [demands, StudentPage.addStudent]
  cases parseInt age with
  | none => simpa using h
  | some age =>
    refine { h with saved := ?_, deleted := ?_, known := ?_ }
    · have hsaved := h.saved.append_right [⟨name, age, grade⟩]
      simpa [saves, inserts, Viewing.ask] using hsaved
    · simpa [deletions, deletes, Viewing.ask] using h.deleted
    · simpa [deletions] using h.known

theorem Accounted.onDelete (h : Accounted T new gone ds s) {index : ℕ} {student : Student}
    (hs : s.view[index]? = some student) :
    Accounted T new gone (ds ++ demands s (.delete index)) (s.onDelete student) := by
  have hknown := h.shown student (List.mem_of_getElem? hs)
  obtain ⟨row, -, rfl⟩ := List.mem_map.mp hknown
  have hask : s.onDelete row.toStudent = s.ask (.write (.delete row.id)) := rfl
  rw [hask]
  simp only [demands, hs]
  refine { h with saved := ?_, deleted := ?_, known := ?_ }
  · simpa [saves, inserts, Viewing.ask] using h.saved
  · have hdeleted := h.deleted.append_right [some row.id]
    simpa [deletions, deletes, Viewing.ask] using hdeleted
  · intro student hmem
    rw [deletions_append] at hmem
    rcases List.mem_append.mp hmem with hmem | hmem
    · exact h.known student hmem
    · obtain rfl : student = row.toStudent := by simpa [deletions] using hmem
      exact hknown

theorem Accounted.id_le (h : Accounted T new gone ds s) (hT : T.Valid) {row : Row}
    (hrow : row ∈ T.rows ++ new) : row.id ≤ s.store.seq := by
  rw [h.seq]
  rcases List.mem_append.mp hrow with hrow | hrow
  · have hle := hT.id_le row hrow
    omega
  · have hmem : row.id ∈ new.map (·.id) := List.mem_map_of_mem hrow
    rw [h.ids] at hmem
    obtain ⟨i, hi, hid⟩ := List.mem_map.mp hmem
    have hlt := List.mem_range.mp hi
    omega

theorem Accounted.gone_le (h : Accounted T new gone ds s) (hT : T.Valid) {id : ℤ}
    (hid : id ∈ gone) : id ≤ s.store.seq := by
  have hmem : some id ∈ (gone ++ deletes s.waiting).map some :=
    List.mem_map_of_mem (List.mem_append_left _ hid)
  obtain ⟨student, hstudent, hsome⟩ := List.mem_map.mp (h.deleted.mem_iff.mpr hmem)
  obtain ⟨row, hrow, rfl⟩ := List.mem_map.mp (h.known student hstudent)
  obtain rfl : row.id = id := Option.some.inj hsome
  exact h.id_le hT hrow

theorem mem_grown {row : Row} {student : Student}
    (h : student ∈ (T.rows ++ new).map Row.toStudent) :
    student ∈ (T.rows ++ (new ++ [row])).map Row.toStudent := by
  rw [← List.append_assoc, List.map_append]
  exact List.mem_append_left _ h

theorem Accounted.insert (h : Accounted T new gone ds s) (hT : T.Valid) {i : ℕ} {c : Columns}
    (hi : s.waiting[i]? = some (.write (.insert c))) :
    Accounted T (new ++ [{ c with id := s.store.seq + 1 }]) gone ds
      ⟨s.store.apply (.insert c), s.view, s.waiting.eraseIdx i, s.replies ++ [.done]⟩ := by
  have hperm := Viewing.waiting_perm hi
  have hfresh : s.store.seq + 1 ∉ gone := fun hmem => by
    have hle := h.gone_le hT hmem
    omega
  refine ⟨?_, ?_, ?_, ?_, ?_, ?_, ?_, ?_⟩
  · rw [List.map_append, h.ids, List.length_append, List.length_singleton, List.range_succ,
      List.map_append, h.seq]
    simp [add_right_comm]
  · simp [Table.apply, h.seq, add_assoc]
  · simp [Table.apply, h.rows, hfresh]
  · refine h.saved.trans ?_
    rw [List.map_append, List.append_assoc]
    exact (hperm.filterMap _).append_left _
  · exact h.deleted.trans (((hperm.filterMap _).append_left _).map some)
  · exact fun student hs => mem_grown (h.known student hs)
  · exact fun student hs => mem_grown (h.shown student hs)
  · intro students hmem student hs
    have hmem : .contents students ∈ s.replies := by simpa using hmem
    exact mem_grown (h.replies students hmem student hs)

theorem Accounted.delete (h : Accounted T new gone ds s) {i : ℕ} {id : ℤ}
    (hi : s.waiting[i]? = some (.write (.delete id))) :
    Accounted T new (gone ++ [id]) ds
      ⟨s.store.apply (.delete id), s.view, s.waiting.eraseIdx i, s.replies ++ [.done]⟩ := by
  have hperm := Viewing.waiting_perm hi
  refine { h with rows := ?_, saved := ?_, deleted := ?_, replies := ?_ }
  · rw [Table.apply, h.rows, List.filter_filter]
    apply List.filter_congr
    intro row _
    simp [and_comm]
  · exact h.saved.trans ((hperm.filterMap _).append_left _)
  · refine h.deleted.trans (List.Perm.map some ?_)
    rw [List.append_assoc]
    exact (hperm.filterMap _).append_left _
  · exact fun students hmem => h.replies students (by simpa using hmem)

theorem Accounted.load (h : Accounted T new gone ds s) {i : ℕ}
    (hi : s.waiting[i]? = some .read) :
    Accounted T new gone ds ⟨s.store, s.view, s.waiting.eraseIdx i,
      s.replies ++ [.contents s.store.getAll]⟩ := by
  have hperm := Viewing.waiting_perm hi
  refine { h with saved := ?_, deleted := ?_, replies := ?_ }
  · exact h.saved.trans ((hperm.filterMap _).append_left _)
  · exact h.deleted.trans (((hperm.filterMap _).append_left _).map some)
  · intro students hmem student hs
    rcases List.mem_append.mp hmem with hmem | hmem
    · exact h.replies students hmem student hs
    · obtain rfl : students = s.store.getAll := by simpa using hmem
      obtain ⟨row, hrow, rfl⟩ := List.mem_map.mp hs
      rw [h.rows] at hrow
      exact List.mem_map_of_mem (List.mem_of_mem_filter hrow)

theorem Accounted.answer (h : Accounted T new gone ds s) (ht : s.answer = some t) :
    Accounted T new gone ds t := by
  rcases Viewing.answer_cases ht with ⟨replies, hr, rfl⟩ | ⟨students, replies, hr, rfl⟩
  · refine { h with saved := ?_, deleted := ?_, replies := ?_ }
    · simpa [inserts] using h.saved
    · simpa [deletes] using h.deleted
    · exact fun students hmem => h.replies students (hr ▸ List.mem_cons_of_mem _ hmem)
  · refine { h with shown := ?_, replies := ?_ }
    · exact h.replies students (hr ▸ List.mem_cons_self)
    · exact fun students hmem => h.replies students (hr ▸ List.mem_cons_of_mem _ hmem)

/-- The account of a run so far, with what the page shows. -/
def Balanced (T : Table) (ds : List Demand) (s : StudentPage) : Prop :=
  (∃ new gone, Accounted T new gone ds s) ∧ s.Current Table.getAll

theorem Balanced.step (hT : T.Valid) {e : Event} (h : Balanced T ds s) (ht : s.step e = some t) :
    Balanced T (ds ++ demands s e) t := by
  obtain ⟨⟨new, gone, h⟩, hcurrent⟩ := h
  cases e with
  | save name age grade =>
    obtain rfl := Option.some.inj ht
    refine ⟨⟨new, gone, h.addStudent name age grade⟩, ?_⟩
    rw [StudentPage.addStudent]
    split
    · exact hcurrent
    · exact hcurrent.ask
  | delete index =>
    obtain ⟨student, hs, rfl⟩ := Option.map_eq_some_iff.mp ht
    refine ⟨⟨new, gone, h.onDelete hs⟩, ?_⟩
    rw [StudentPage.onDelete]
    split
    · exact hcurrent
    · exact hcurrent.ask
  | database e =>
    have hnone : demands s (.database e) = [] := rfl
    rw [hnone, List.append_nil]
    refine ⟨?_, hcurrent.advance ht⟩
    cases e with
    | run i =>
      rcases Viewing.run_cases ht with ⟨w, hi, rfl⟩ | ⟨hi, rfl⟩
      · cases w with
        | insert c => exact ⟨_, _, h.insert hT hi⟩
        | delete id => exact ⟨_, _, h.delete hi⟩
      · exact ⟨_, _, h.load hi⟩
    | answer => exact ⟨_, _, h.answer ht⟩

theorem Accounted.ids_nodup (h : Accounted T new gone ds s) (hT : T.Valid) :
    ((T.rows ++ new).map (·.id)).Nodup := by
  rw [List.map_append, List.nodup_append, h.ids]
  refine ⟨hT.ids, List.nodup_range.map fun i j hij => by simpa using hij, ?_⟩
  rintro id hid id' hid' rfl
  obtain ⟨row, hrow, rfl⟩ := List.mem_map.mp hid
  obtain ⟨i, -, hi⟩ := List.mem_map.mp hid'
  have hle := hT.id_le row hrow
  omega

theorem Accounted.mem_gone_iff (h : Accounted T new gone ds s) (hT : T.Valid)
    (hs : s.waiting = []) {row : Row} (hrow : row ∈ T.rows ++ new) :
    row.id ∈ gone ↔ row.toStudent ∈ deletions ds := by
  have hdeleted := h.deleted
  rw [hs, deletes, List.filterMap_nil, List.append_nil] at hdeleted
  constructor
  · intro hmem
    obtain ⟨student, hstudent, hid⟩ :=
      List.mem_map.mp (hdeleted.mem_iff.mpr (List.mem_map_of_mem hmem))
    obtain ⟨row', hrow', rfl⟩ := List.mem_map.mp (h.known student hstudent)
    obtain rfl := List.inj_on_of_nodup_map (h.ids_nodup hT) hrow' hrow (Option.some.inj hid)
    exact hstudent
  · intro hmem
    have hid : some row.id ∈ (deletions ds).map (·.id) := List.mem_map.mpr ⟨_, hmem, rfl⟩
    obtain ⟨id, hid, he⟩ := List.mem_map.mp (hdeleted.mem_iff.mp hid)
    exact Option.some.inj he ▸ hid

/-- The page shows the table, and the table is what the user has asked for. -/
def Fulfilled (T : Table) (ds : List Demand) (s : StudentPage) : Prop :=
  s.view = s.store.getAll ∧ ∃ new : List Row,
    new.map (·.id) = (List.range new.length).map (fun i : ℕ => T.seq + 1 + i) ∧
      (new.map (·.toColumns)).Perm (saves ds) ∧
      s.store.rows = (T.rows ++ new).filter fun row => row.toStudent ∉ deletions ds

theorem Balanced.fulfilled (h : Balanced T ds s) (hT : T.Valid) (hs : s.Settled) :
    Fulfilled T ds s := by
  obtain ⟨⟨new, gone, h⟩, hcurrent⟩ := h
  refine ⟨hcurrent.view_eq hs, new, h.ids, ?_, ?_⟩
  · have hsaved := h.saved
    rw [hs.1, inserts, List.filterMap_nil, List.append_nil] at hsaved
    exact hsaved.symm
  · rw [h.rows]
    apply List.filter_congr
    intro row hrow
    exact decide_eq_decide.mpr (not_congr (h.mem_gone_iff hT hs.1 hrow))

theorem exec_database {es : List Viewing.Advance} :
    exec StudentPage.step s (es.map .database) =
      exec (Viewing.advance Table.apply Table.getAll) s es := by
  induction es generalizing s with
  | nil => rfl
  | cons e es ih =>
    simp only [List.map_cons, exec]
    exact congrArg _ (funext fun t => ih)

/--
In whatever order the database runs the calls of the page, once no call is under way the page shows
the table: one row with a new id for each student saved, and the others without the students whose
icon was tapped. From every state the database gets there by itself, within `work` steps.
-/
theorem studentPage_settles {es : List Event} (hT : T.Valid)
    (h : exec StudentPage.step (StudentPage.opened T) es = some s) :
    (s.Settled → Fulfilled T (outputs StudentPage.step demands (StudentPage.opened T) es) s) ∧
      (∃ (fs : List Viewing.Advance) (t : StudentPage),
        exec StudentPage.step s (fs.map .database) = some t ∧ t.Settled) ∧
      ∀ (fs : List Viewing.Advance) (t : StudentPage),
        exec StudentPage.step s (fs.map .database) = some t → fs.length ≤ s.work := by
  have hbalanced := exec_outputs (H := fun ds s => Balanced T ds s)
    ⟨⟨_, _, accounted_opened T⟩, .inl (List.mem_singleton_self _)⟩
    (fun ds s e t hs ht => hs.step hT ht) h
  refine ⟨hbalanced.fulfilled hT, ?_, fun fs t ht => ?_⟩
  · simp only [exec_database]
    exact s.exists_settled
  · rw [exec_database] at ht
    exact Viewing.length_le_work ht

/-- Two students are saved, the first is deleted while the list of both is still on its way. -/
theorem studentPage_settles_overtaken :
    let es := [.database (.run 0), .database .answer, .save "Ann" "20" "A", .database (.run 0),
      .database .answer, .database (.run 0), .database .answer, .save "Bob" "21" "B", .delete 0,
      .database (.run 1), .database (.run 0), .database .answer, .database (.run 0),
      .database .answer, .database .answer, .database (.run 0), .database .answer]
    ∃ s, exec StudentPage.step (StudentPage.opened ⟨[], 0⟩) es = some s ∧
      Fulfilled ⟨[], 0⟩
        (outputs StudentPage.step demands (StudentPage.opened ⟨[], 0⟩) es) s :=
  ⟨_, by rfl, (studentPage_settles Table.valid_empty (by rfl)).1 ⟨rfl, rfl⟩⟩

end Accounts

end FlutterPractice.Students
