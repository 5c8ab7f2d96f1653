import Mathlib
import FlutterPractice.Machine.Run

/-! # Views that are read again after every write

A view hands statements to a store, which runs them in any order and answers in
the order in which it has run them. The answer to a write asks for another
read. A view that waits for nothing shows the store, and however it is left
alone it comes to wait for nothing.
-/

namespace Machine

variable {σ ω ν : Type*}

inductive Statement (ω : Type*) where
  | write (w : ω)
  | read
  deriving DecidableEq

inductive Reply (ν : Type*) where
  | done
  | contents (v : ν)
  deriving DecidableEq

/-- A store and its view, the statements that have not run, and the replies that have not come. -/
structure Viewing (σ ω ν : Type*) where
  store : σ
  view : ν
  waiting : List (Statement ω)
  replies : List (Reply ν)
  deriving DecidableEq

/-- What the view holds after a reply. -/
def Reply.show (v : ν) : Reply ν → ν
  | .done => v
  | .contents w => w

namespace Viewing

variable (apply : σ → ω → σ) (read : σ → ν)

def ask (s : Viewing σ ω ν) (q : Statement ω) : Viewing σ ω ν :=
  { s with waiting := s.waiting ++ [q] }

def run (s : Viewing σ ω ν) (i : ℕ) : Option (Viewing σ ω ν) :=
  s.waiting[i]?.map fun
  | .write w =>
    ⟨apply s.store w, s.view, s.waiting.eraseIdx i, s.replies ++ [.done]⟩
  | .read => ⟨s.store, s.view, s.waiting.eraseIdx i, s.replies ++ [.contents (read s.store)]⟩

def answer (s : Viewing σ ω ν) : Option (Viewing σ ω ν) :=
  match s.replies with
  | [] => none
  | .done :: replies => some ⟨s.store, s.view, s.waiting ++ [.read], replies⟩
  | .contents v :: replies => some ⟨s.store, v, s.waiting, replies⟩

/-- What happens of its own accord. -/
inductive Advance where
  | run (i : ℕ)
  | answer
  deriving DecidableEq

def advance (s : Viewing σ ω ν) : Advance → Option (Viewing σ ω ν)
  | .run i => s.run apply read i
  | .answer => s.answer

def Settled (s : Viewing σ ω ν) : Prop := s.waiting = [] ∧ s.replies = []

/-- What the view holds once the replies have come. -/
def latest (s : Viewing σ ω ν) : ν := s.replies.foldl Reply.show s.view

/-- Another read is owed, or the replies on their way hold the store as it is. -/
def Current (s : Viewing σ ω ν) : Prop :=
  .read ∈ s.waiting ∨ .done ∈ s.replies ∨ s.latest = read s.store

/-- The steps that are left of a statement until nothing is left of it. -/
def Statement.work : Statement ω → ℕ
  | .write _ => 4
  | .read => 2

def Reply.work : Reply ν → ℕ
  | .done => 3
  | .contents _ => 1

def work (s : Viewing σ ω ν) : ℕ :=
  (s.waiting.map Statement.work).sum + (s.replies.map Reply.work).sum

variable {apply read} {s t : Viewing σ ω ν} {i : ℕ}

theorem waiting_perm {q : Statement ω} (h : s.waiting[i]? = some q) :
    s.waiting.Perm (q :: s.waiting.eraseIdx i) := by
  obtain ⟨hlt, rfl⟩ := List.getElem?_eq_some_iff.mp h
  exact (List.getElem_cons_eraseIdx_perm hlt).symm

theorem run_cases (h : s.run apply read i = some t) :
    (∃ w, s.waiting[i]? = some (.write w) ∧
      t = ⟨apply s.store w, s.view, s.waiting.eraseIdx i, s.replies ++ [.done]⟩) ∨
    (s.waiting[i]? = some .read ∧ t =
      ⟨s.store, s.view, s.waiting.eraseIdx i, s.replies ++ [.contents (read s.store)]⟩) := by
  obtain ⟨q, hq, rfl⟩ := Option.map_eq_some_iff.mp h
  cases q with
  | write w => exact .inl ⟨w, hq, rfl⟩
  | read => exact .inr ⟨hq, rfl⟩

theorem answer_cases (h : s.answer = some t) :
    (∃ replies, s.replies = .done :: replies ∧
      t = ⟨s.store, s.view, s.waiting ++ [.read], replies⟩) ∨
    (∃ v replies, s.replies = .contents v :: replies ∧
      t = ⟨s.store, v, s.waiting, replies⟩) := by
  rw [answer] at h
  split at h
  · cases h
  · rename_i replies hr
    exact .inl ⟨replies, hr, (Option.some.inj h).symm⟩
  · rename_i v replies hr
    exact .inr ⟨v, replies, hr, (Option.some.inj h).symm⟩

theorem Current.ask {q : Statement ω} (h : s.Current read) : (s.ask q).Current read := by
  rcases h with h | h | h
  · exact .inl (List.mem_append_left _ h)
  · exact .inr (.inl h)
  · exact .inr (.inr h)

theorem current_run (ht : s.run apply read i = some t) : t.Current read := by
  rcases run_cases ht with ⟨w, -, rfl⟩ | ⟨-, rfl⟩
  · exact .inr (.inl (List.mem_append_right _ (List.mem_singleton_self _)))
  · refine .inr (.inr ?_)
    rw [latest, List.foldl_append]
    rfl

theorem Current.answer (h : s.Current read) (ht : s.answer = some t) : t.Current read := by
  rcases answer_cases ht with ⟨replies, -, rfl⟩ | ⟨v, replies, hr, rfl⟩
  · exact .inl (List.mem_append_right _ (List.mem_singleton_self _))
  · rcases h with h | h | h
    · exact .inl h
    · rw [hr] at h
      exact .inr (.inl ((List.mem_cons.mp h).resolve_left nofun))
    · rw [latest, hr] at h
      exact .inr (.inr h)

theorem Current.view_eq (h : s.Current read) (hs : s.Settled) : s.view = read s.store := by
  obtain ⟨hw, hr⟩ := hs
  rcases h with h | h | h
  · rw [hw] at h
    cases h
  · rw [hr] at h
    cases h
  · rwa [latest, hr] at h

theorem work_run (h : s.run apply read i = some t) : t.work + 1 ≤ s.work := by
  rcases run_cases h with ⟨w, hq, rfl⟩ | ⟨hq, rfl⟩
  · have hsum := ((waiting_perm hq).map Statement.work).sum_eq
    simp [work, hsum, Statement.work, Reply.work]
    omega
  · have hsum := ((waiting_perm hq).map Statement.work).sum_eq
    simp [work, hsum, Statement.work, Reply.work]
    omega

theorem work_answer (h : s.answer = some t) : t.work + 1 ≤ s.work := by
  rcases answer_cases h with ⟨replies, hr, rfl⟩ | ⟨v, replies, hr, rfl⟩
  · simp [work, hr, Statement.work, Reply.work]
    omega
  · simp [work, hr, Reply.work]

theorem Current.advance {e : Advance} (h : s.Current read) (ht : s.advance apply read e = some t) :
    t.Current read := by
  cases e with
  | run i => exact current_run ht
  | answer => exact h.answer ht

theorem work_advance {e : Advance} (h : s.advance apply read e = some t) :
    t.work + 1 ≤ s.work := by
  cases e with
  | run i => exact work_run h
  | answer => exact work_answer h

theorem length_le_work {es : List Advance} (h : exec (advance apply read) s es = some t) :
    es.length ≤ s.work := by
  induction es generalizing s with
  | nil => exact Nat.zero_le _
  | cons e es ih =>
    obtain ⟨u, hu, ht⟩ := exec_cons.mp h
    have hlength := ih ht
    have hwork := work_advance hu
    rw [List.length_cons]
    omega

/-- A view that is not settled has something to wait for. -/
theorem exists_advance (h : ¬ s.Settled) : ∃ e t, s.advance apply read e = some t := by
  cases hw : s.waiting with
  | cons q waiting =>
    refine ⟨.run 0, ?_⟩
    rw [Viewing.advance, Viewing.run, hw]
    exact ⟨_, rfl⟩
  | nil =>
    refine ⟨.answer, ?_⟩
    rw [Viewing.advance, Viewing.answer]
    cases hr : s.replies with
    | nil => exact absurd ⟨hw, hr⟩ h
    | cons r replies => cases r <;> exact ⟨_, rfl⟩

theorem exists_settled (s : Viewing σ ω ν) :
    ∃ es t, exec (advance apply read) s es = some t ∧ t.Settled := by
  induction hn : s.work using Nat.strong_induction_on generalizing s with
  | h n ih =>
    by_cases hs : s.Settled
    · exact ⟨[], s, rfl, hs⟩
    · obtain ⟨e, u, hu⟩ : ∃ e u, s.advance apply read e = some u := exists_advance hs
      have hwork := work_advance hu
      obtain ⟨es, t, ht, hsettled⟩ := ih u.work (by omega) u rfl
      exact ⟨e :: es, t, exec_cons.mpr ⟨u, hu, ht⟩, hsettled⟩

end Viewing

end Machine
