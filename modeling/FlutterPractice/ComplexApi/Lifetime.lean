import FlutterPractice.ComplexApi.Paging
import FlutterPractice.Machine.Lifetime

/-! # The lifetime of the user list

The callbacks of `ComplexApi` with their calls of `setState`. On the screen they
are the steps of the paged list. `dispose` only lets go of the scroll
controller: a request in flight is answered all the same, and each way to answer
it ends in `setState`, the failures in the `catch` block.
-/

namespace FlutterPractice.ComplexApi

open Machine Lifetime

namespace Live

variable {User Json : Type}

def fetchUsers : Callback (State User) :=
  .branch (fun s => s.isLoading || !s.hasMore) .skip <|
    .andThen (.setState fun s => { s with isLoading := true }) <|
      .modify fun s => { s with inFlight := s.inFlight ++ [s.currentPage] }

def refreshData : Callback (State User) :=
  .andThen (.setState fun s => { s with users := [], currentPage := 1, hasMore := true }) fetchUsers

/-- The listener of the scroll controller at the end of the list. -/
def onScrolled : Callback (State User) :=
  .branch (fun s => s.hasMore && !s.isLoading) fetchUsers .skip

/-- `_fetchUsers` from the answer of `http.get` on. -/
def onReply (fromJson : Json → Option User) (r : Reply Json) : Callback (State User) :=
  .attempt
    (match fetchedUsers fromJson r with
      | some fetched => .setState fun s =>
        { s with
          users := s.users ++ fetched
          currentPage := s.currentPage + 1
          hasMore := fetched.length == pageSize
          isLoading := false }
      | none => .throw)
    (.setState fun s => { s with isLoading := false })

/-- `initState` has fetched the first page already. -/
def initial : State User := (fetchUsers false ComplexApi.initial).fields

def widget (fromJson : Json → Option User) : Widget (State User) (ComplexApi.Event Json) where
  onScreen
    | .initialFetch | .scrolledToBottom | .refresh => true
    | .reply _ _ => false
  callback s
    | .initialFetch => some fetchUsers
    | .scrolledToBottom => some onScrolled
    | .refresh => some refreshData
    | .reply i r =>
      if i < s.inFlight.length then
        some (.andThen (.modify fun s => { s with inFlight := s.inFlight.eraseIdx i })
          (onReply fromJson r))
      else none
  dispose := .skip

def Late (_ : State User) : ComplexApi.Event Json → Prop
  | .reply _ _ => True
  | _ => False

variable {fromJson : Json → Option User} {s : State User} {p t : Page (State User)}
  {e : ComplexApi.Event Json} {es : List (Lifetime.Event (ComplexApi.Event Json))}

theorem fetchUsers_mounted (s : State User) :
    (fetchUsers false s).fields = ComplexApi.fetchUsers s := by
  rw [fetchUsers, Callback.branch, ComplexApi.fetchUsers]
  split <;> rfl

theorem onReply_mounted (fromJson : Json → Option User) (r : Reply Json) (s : State User) :
    (onReply fromJson r false s).fields = ComplexApi.onReply fromJson s r := by
  rw [onReply, ComplexApi.onReply]
  cases fetchedUsers fromJson r <;> rfl

theorem onScrolled_mounted (s : State User) : (onScrolled false s).fields =
    if s.hasMore && !s.isLoading then ComplexApi.fetchUsers s else s := by
  rw [onScrolled, Callback.branch]
  split
  · exact fetchUsers_mounted s
  · rfl

theorem step_mounted (s : State User) (e : ComplexApi.Event Json) :
    (widget fromJson).step ⟨s, false⟩ (.callback e) =
      (ComplexApi.step fromJson s e).map fun s => ⟨s, false⟩ := by
  rw [Widget.step_mounted]
  cases e with
  | initialFetch => simp [widget, ComplexApi.step, fetchUsers_mounted]
  | scrolledToBottom => simp only [widget, ComplexApi.step, Option.map_some, onScrolled_mounted]
  | refresh =>
    simp [widget, ComplexApi.step, refreshData, ComplexApi.refreshData, fetchUsers_mounted]
  | reply i r =>
    simp only [widget, ComplexApi.step]
    split
    · simp [onReply_mounted]
    · rfl

/-- On a disposed page the first `setState` throws, and so does that of the `catch` block. -/
theorem onReply_disposed (fromJson : Json → Option User) (r : Reply Json) (s : State User) :
    onReply fromJson r true s = ⟨s, true, true⟩ := by
  rw [onReply]
  cases fetchedUsers fromJson r <;> rfl

theorem along_spares_iff : Along (widget fromJson).step (widget fromJson).Spares p es ↔
    Along (widget fromJson).step (Avoids Late) p es := by
  apply Widget.along_spares_iff
  intro s e c hscreen hc
  cases e with
  | reply i r =>
    obtain ⟨-, hc⟩ := Option.ite_none_right_eq_some.mp hc
    obtain rfl := Option.some.inj hc
    rw [Callback.modify_andThen, onReply_disposed]
    exact iff_of_true rfl trivial
  | _ => cases hscreen

theorem forall_along_spares_iff (hp : p.disposed = true) :
    (∀ es, Along (widget fromJson).step (widget fromJson).Spares p es) ↔
      p.fields.inFlight = [] := by
  apply Widget.forall_along_spares_iff (fun s => s.inFlight = []) hp
  · intro s e c hs hscreen hc
    cases e with
    | reply i r =>
      obtain ⟨hi, -⟩ := Option.ite_none_right_eq_some.mp hc
      simp [hs] at hi
    | _ => cases hscreen
  · intro s hs
    have hpos : 0 < s.inFlight.length := List.length_pos_iff.mpr hs
    refine ⟨[.callback (.reply 0 .exception)], Widget.not_along_singleton rfl (if_pos hpos) ?_⟩
    rw [Callback.modify_andThen, onReply_disposed]

end Live

end FlutterPractice.ComplexApi
