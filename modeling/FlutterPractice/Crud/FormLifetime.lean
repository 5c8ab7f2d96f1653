import FlutterPractice.Crud.Progress
import FlutterPractice.Machine.Lifetime

/-! # The lifetime of the product forms

The handlers of the two forms and of an item of the list, with their calls of
`setState`. What stands in front of the last one uses the context of the page,
which throws once the page is disposed. Only the `finally` block of
`_updateProduct` and the answers without a message get to it all the same.
-/

namespace FlutterPractice.Crud

open Dart Json Machine Lifetime

abbrev FormEvent := BusyFlag.Event ProductForm HttpReply

namespace Form

def raise : Callback BusyFlag.State :=
  .andThen (.modify fun s => { s with inProgress := true }) (.setState id)

def lower : Callback BusyFlag.State :=
  .andThen (.modify fun s => { s with inProgress := false }) (.setState id)

def await : Callback BusyFlag.State := .modify fun s => { s with running := s.running + 1 }

def Answers {ι : Type} (Late : HttpReply → Prop) (_ : BusyFlag.State)
    (e : BusyFlag.Event ι HttpReply) : Prop :=
  ∃ reply, e = .answer reply ∧ Late reply

def resume (onAnswered : HttpReply → Callback BusyFlag.State) (s : BusyFlag.State)
    (reply : HttpReply) : Option (Callback BusyFlag.State) :=
  if 0 < s.running then
    some (.andThen (.modify fun s => { s with running := s.running - 1 }) (onAnswered reply))
  else none

/-- The class of a page with one handler that awaits one answer. -/
def widget (ι : Type) (onPressed : ι → Callback BusyFlag.State)
    (onAnswered : HttpReply → Callback BusyFlag.State) :
    Widget BusyFlag.State (BusyFlag.Event ι HttpReply) where
  onScreen
    | .call _ => true
    | .answer _ => false
  callback s
    | .call input => some (onPressed input)
    | .answer reply => resume onAnswered s reply
  dispose := .skip

end Form

namespace AddScreen

/-- `_onTapAddProductButton` up to `post`; what throws there leaves the flag raised. -/
def onPressed (form : ProductForm) : Callback BusyFlag.State :=
  match onTapAddProductButton form with
  | .invalid _ => .skip
  | .threw => .andThen Form.raise .throw
  | .sent _ => .andThen Form.raise Form.await

/-- The branches on the answer: a success clears the controllers and shows a message, and so does
another text as the message. -/
def showAnswer (decodedJson : Json) : Callback BusyFlag.State :=
  match decodedJson.index "status" with
  | none => .throw
  | some status =>
    if status.isText "success" then .useContext
    else
      match (decodedJson.index "message").bind asString with
      | none => .throw
      | some _ => .useContext

/-- `_onTapAddProductButton` from the answer of `post` on. -/
def onAnswered : HttpReply → Callback BusyFlag.State
  | .exception => .throw
  | .response statusCode body =>
    match body.asText with
    | none => .throw
    | some json =>
      .andThen
        (if statusCode = 200 then
          match json with
          | none => .throw
          | some decodedJson => showAnswer decodedJson
        else .skip)
        Form.lower

def widget : Widget BusyFlag.State FormEvent := Form.widget ProductForm onPressed onAnswered

/-- The answers with another status than 200 and a text as their body. -/
def Late (reply : HttpReply) : Prop :=
  ∃ statusCode json, reply = .response statusCode (.text json) ∧ statusCode ≠ 200

end AddScreen

namespace UpdateScreen

/-- `_updateProduct` up to `post`; what throws there goes through the other two blocks. -/
def onPressed (form : ProductForm) : Callback BusyFlag.State :=
  match updateProduct form with
  | .invalid _ => .skip
  | .threw =>
    .andThen (.setState fun s => { s with inProgress := true }) <|
      .lastly (.attempt .throw .useContext) (.setState fun s => { s with inProgress := false })
  | .sent _ => .andThen (.setState fun s => { s with inProgress := true }) Form.await

/-- The `try` block from the answer of `post` on. The message of a failure is a text, or null. -/
def showAnswer : HttpReply → Callback BusyFlag.State
  | .exception => .throw
  | .response statusCode body =>
    match body.asText with
    | none => .throw
    | some json =>
      if statusCode = 200 then
        match json.bind fun decodedJson => decodedJson.index "status" with
        | none => .throw
        | some status =>
          if status.isText "success" then .andThen .useContext .useContext
          else
            match (json.bind fun decodedJson => decodedJson.index "message").bind
                (orNull asString) with
            | none => .throw
            | some _ => .useContext
      else .useContext

def onAnswered (reply : HttpReply) : Callback BusyFlag.State :=
  .lastly (.attempt (showAnswer reply) .useContext)
    (.setState fun s => { s with inProgress := false })

def widget : Widget BusyFlag.State FormEvent := Form.widget ProductForm onPressed onAnswered

end UpdateScreen

namespace Item

def onPressed (_ : Unit) : Callback BusyFlag.State :=
  .andThen (.setState fun s => { s with inProgress := true }) Form.await

/-- `_deleteProduct` from the answer of `get` on; both messages use the context. -/
def onAnswered : HttpReply → Callback BusyFlag.State
  | .exception => .throw
  | .response _ body =>
    match body.asText with
    | none => .throw
    | some _ => .andThen .useContext (.setState fun s => { s with inProgress := false })

def widget : Widget BusyFlag.State (BusyFlag.Event Unit HttpReply) :=
  Form.widget Unit onPressed onAnswered

end Item

namespace Form

variable {ι : Type} {onPressed : ι → Callback BusyFlag.State}
  {onAnswered : HttpReply → Callback BusyFlag.State} {s : BusyFlag.State} {p : Page BusyFlag.State}
  {es : List (Lifetime.Event (BusyFlag.Event ι HttpReply))}

theorem step_mounted (H : BusyFlag.Handler ι HttpReply)
    (hpressed : ∀ input s, some (onPressed input false s).fields = H.step s (.call input))
    (hanswered : ∀ reply s, (onAnswered reply false s).fields =
      { s with inProgress := if H.lowers reply then false else s.inProgress })
    (s : BusyFlag.State) (e : BusyFlag.Event ι HttpReply) :
    (widget ι onPressed onAnswered).step ⟨s, false⟩ (.callback e) =
      (H.step s e).map fun s => ⟨s, false⟩ := by
  rw [Widget.step_mounted]
  cases e with
  | call input => rw [← hpressed]; rfl
  | answer reply =>
    simp only [widget, resume, BusyFlag.Handler.step]
    split
    · simp [hanswered]
    · rfl

theorem along_spares_iff {Late : HttpReply → Prop}
    (hlate : ∀ reply s, (onAnswered reply true s).called = true ↔ Late reply) :
    Along (widget ι onPressed onAnswered).step (widget ι onPressed onAnswered).Spares p es ↔
      Along (widget ι onPressed onAnswered).step (Avoids (Answers Late)) p es := by
  apply Widget.along_spares_iff
  intro s e c hscreen hc
  cases e with
  | call input => cases hscreen
  | answer reply =>
    obtain ⟨-, hc⟩ := Option.ite_none_right_eq_some.mp hc
    obtain rfl := Option.some.inj hc
    rw [Callback.modify_andThen, hlate]
    simp [Answers]

theorem forall_along_spares_iff {reply : HttpReply}
    (hlate : ∀ s, (onAnswered reply true s).called = true) (hp : p.disposed = true) :
    (∀ es, Along (widget ι onPressed onAnswered).step (widget ι onPressed onAnswered).Spares p es) ↔
      p.fields.running = 0 := by
  apply Widget.forall_along_spares_iff (fun s : BusyFlag.State => s.running = 0) hp
  · intro s e c hs hscreen hc
    cases e with
    | call input => cases hscreen
    | answer reply =>
      obtain ⟨hpos, -⟩ := Option.ite_none_right_eq_some.mp hc
      omega
  · intro s hs
    refine ⟨[.callback (.answer reply)],
      Widget.not_along_singleton rfl (if_pos (Nat.pos_of_ne_zero hs)) ?_⟩
    rw [Callback.modify_andThen]
    exact hlate _

end Form

variable {s : BusyFlag.State}

/-- The branches of the add form change nothing, and the context makes them throw. -/
theorem AddScreen.showAnswer_apply (decodedJson : Json) (disposed : Bool) :
    AddScreen.showAnswer decodedJson disposed s =
      ⟨s, false, disposed || (addAnswered (.response 200 (.text (some decodedJson)))).isNone⟩ := by
  simp only [AddScreen.showAnswer, addAnswered, Body.asText, Option.bind_eq_bind, Option.bind_some,
    if_true, Option.pure_def]
  cases decodedJson.index "status" with
  | none => simp
  | some status =>
    simp only [Option.bind_some]
    split
    · simp
    · rw [← Option.bind_assoc]
      cases (decodedJson.index "message").bind asString with
      | none => simp
      | some message => simp

theorem AddScreen.onAnswered_text (statusCode : ℕ) (json : Option Json) (disposed : Bool) :
    AddScreen.onAnswered (.response statusCode (.text json)) disposed s =
      if statusCode = 200 then
        if disposed || (addAnswered (.response 200 (.text json))).isNone then ⟨s, false, true⟩
        else Form.lower disposed s
      else Form.lower disposed s := by
  simp only [AddScreen.onAnswered, Body.asText]
  by_cases h200 : statusCode = 200
  · rw [if_pos h200, if_pos h200]
    cases json with
    | none => simp [Callback.andThen, addAnswered, Body.asText]
    | some decodedJson =>
      simp only [Callback.andThen, AddScreen.showAnswer_apply]
      cases disposed || (addAnswered (.response 200 (.text (some decodedJson)))).isNone <;> simp
  · rw [if_neg h200, if_neg h200]
    simp [Callback.andThen]

theorem AddScreen.called_onAnswered_iff (reply : HttpReply) (s : BusyFlag.State) :
    (AddScreen.onAnswered reply true s).called = true ↔ AddScreen.Late reply := by
  rcases reply with ⟨statusCode, _ | json⟩ | _
  · simp [AddScreen.onAnswered, Body.asText, AddScreen.Late]
  · rw [AddScreen.onAnswered_text]
    by_cases h200 : statusCode = 200
    · simp [AddScreen.Late, h200]
    · simp [AddScreen.Late, h200, Form.lower]
  · simp [AddScreen.onAnswered, AddScreen.Late]

theorem AddScreen.step_mounted (s : BusyFlag.State) (e : FormEvent) :
    AddScreen.widget.step ⟨s, false⟩ (.callback e) =
      (addHandler.step s e).map fun s => ⟨s, false⟩ := by
  apply Form.step_mounted
  · intro form s
    simp only [AddScreen.onPressed, BusyFlag.Handler.step, addHandler]
    cases onTapAddProductButton form <;> rfl
  · intro reply s
    rcases reply with ⟨statusCode, _ | json⟩ | _
    · rfl
    · rw [AddScreen.onAnswered_text]
      by_cases h200 : statusCode = 200
      · subst h200
        have hlowers : addHandler.lowers (.response 200 (.text json)) =
            !(addAnswered (.response 200 (.text json))).isNone := by simp [addHandler]
        rw [hlowers, if_pos rfl, Bool.false_or]
        cases (addAnswered (.response 200 (.text json))).isNone <;> rfl
      · have hlowers : addHandler.lowers (.response statusCode (.text json)) = true := by
          simp [addHandler, addAnswered, Body.asText, h200]
        rw [if_neg h200, hlowers]
        rfl
    · rfl

theorem UpdateScreen.fields_showAnswer (reply : HttpReply) (disposed : Bool) :
    (UpdateScreen.showAnswer reply disposed s).fields = s := by
  rcases reply with ⟨statusCode, _ | json⟩ | _
  · rfl
  · simp only [UpdateScreen.showAnswer, Body.asText]
    split
    · cases json.bind fun decodedJson => decodedJson.index "status" with
      | none => rfl
      | some status =>
        simp only
        split
        · cases disposed <;> rfl
        · cases (json.bind fun decodedJson => decodedJson.index "message").bind
            (orNull asString) <;> rfl
    · rfl
  · rfl

theorem UpdateScreen.step_mounted (s : BusyFlag.State) (e : FormEvent) :
    UpdateScreen.widget.step ⟨s, false⟩ (.callback e) =
      (updateHandler.step s e).map fun s => ⟨s, false⟩ := by
  apply Form.step_mounted
  · intro form s
    simp only [UpdateScreen.onPressed, BusyFlag.Handler.step, updateHandler]
    cases updateProduct form <;> rfl
  · intro reply s
    have hfields := UpdateScreen.fields_showAnswer (s := s) reply false
    simp only [UpdateScreen.onAnswered, Callback.lastly, Callback.attempt]
    split <;> simp [hfields, updateHandler]

theorem Item.step_mounted (s : BusyFlag.State) (e : BusyFlag.Event Unit HttpReply) :
    Item.widget.step ⟨s, false⟩ (.callback e) =
      (deleteHandler.step s e).map fun s => ⟨s, false⟩ := by
  apply Form.step_mounted
  · intro _ s
    rfl
  · intro reply s
    rcases reply with ⟨statusCode, _ | json⟩ | _ <;> rfl

theorem Item.not_called_onAnswered (reply : HttpReply) (s : BusyFlag.State) :
    (Item.onAnswered reply true s).called = false := by
  rcases reply with ⟨statusCode, _ | json⟩ | _ <;> rfl

theorem UpdateScreen.called_onAnswered (reply : HttpReply) (s : BusyFlag.State) :
    (UpdateScreen.onAnswered reply true s).called = true :=
  Callback.lastly_setState_disposed _ s

theorem Item.along_spares_iff {p : Page BusyFlag.State}
    {es : List (Lifetime.Event (BusyFlag.Event Unit HttpReply))} :
    Along Item.widget.step Item.widget.Spares p es ↔
      Along Item.widget.step (Avoids (Form.Answers fun _ => False)) p es :=
  Form.along_spares_iff fun reply s => by simp [Item.not_called_onAnswered]

theorem Item.along_spares {p : Page BusyFlag.State}
    (es : List (Lifetime.Event (BusyFlag.Event Unit HttpReply))) :
    Along Item.widget.step Item.widget.Spares p es := by
  apply Item.along_spares_iff.mpr
  apply along_true.mono
  rintro p e q - - e' - ⟨reply, -, ⟨⟩⟩

end FlutterPractice.Crud
