import Mathlib.Data.Rat.Defs
import Mathlib.Data.List.Induction
import Mathlib.Algebra.Order.Field.Rat
import Mathlib.Tactic.FieldSimp
import Mathlib.Tactic.Ring
import FlutterPractice.Machine.Run

/-! # The calculator

An operator button takes the last numeral, not the pending result, as its left
operand. So the display is right where the numeral in front of the last
operator happens to stand for everything in front of it. Numbers are exact.

An operator button also empties the input, so `double.parse` throws at the next
button that parses unless a digit or `C` comes in between.
-/

namespace FlutterPractice.Calculator

inductive Operator | plus | minus | times | divide
  deriving DecidableEq

/-- A result, or none for a division by zero. -/
def Operator.apply : Operator → ℚ → ℚ → Option ℚ
  | .plus, x, y => some (x + y)
  | .minus, x, y => some (x - y)
  | .times, x, y => some (x * y)
  | .divide, x, y => if y ≠ 0 then some (x / y) else none

inductive Button where
  | clear
  | equals
  | operator (o : Operator)
  | digit (d : Fin 10)

def number (digits : List (Fin 10)) : ℕ := digits.foldl (fun n d => n * 10 + d.val) 0

/-- `double.parse` on a text of digits, which throws at the empty text. -/
def parse (input : List (Fin 10)) : Option ℚ := if input = [] then none else some (number input)

inductive Output where
  | typed (input : List (Fin 10))
  | result (q : ℚ)
  | error
  deriving DecidableEq

def Output.ofResult : Option ℚ → Output
  | some q => .result q
  | none => .error

structure State where
  output : Output
  input : List (Fin 10)
  operator : Option Operator
  num1 : ℚ
  num2 : ℚ

/-- What `C` leaves, and what the page starts with. -/
def cleared : State := ⟨.typed [0], [0], none, 0, 0⟩

def append (input : List (Fin 10)) (d : Fin 10) : List (Fin 10) :=
  if input = [0] then [d] else input ++ [d]

def buttonPressed (s : State) : Button → State
  | .clear => cleared
  | .equals =>
    match parse s.input with
    | none => s
    | some num2 =>
      match s.operator with
      | none => { s with num2 }
      | some o => { s with num2, output := .ofResult (o.apply s.num1 num2) }
  | .operator o =>
    match parse s.input with
    | none => s
    | some num1 => { s with num1, operator := some o, input := [] }
  | .digit d => { s with input := append s.input d, output := .typed (append s.input d) }

def Output.shown : Output → Option ℚ
  | .typed input => parse input
  | .result q => some q
  | .error => none

/-- The digits of an operand, as they are typed. -/
structure Numeral where
  digits : List (Fin 10)
  ne_nil : digits ≠ []

def Numeral.value (d : Numeral) : ℚ := number d.digits

def Numeral.buttons (d : Numeral) : List Button := d.digits.map .digit

structure Term where
  operator : Operator
  operand : Numeral
  equals : Bool

def equalsButtons (equals : Bool) : List Button := if equals then [.equals] else []

def Term.buttons (t : Term) : List Button :=
  .operator t.operator :: t.operand.buttons ++ equalsButtons t.equals

/-- `C d₁ o₁ d₂ ... dₙ =`, with `=` pressed anywhere in between too. -/
def buttons (d : Numeral) (equals : Bool) (terms : List Term) : List Button :=
  .clear :: d.buttons ++ equalsButtons equals ++ terms.flatMap Term.buttons ++ [.equals]

/-- The value from left to right, none where a divisor met on the way is zero. -/
def evaluate (d : Numeral) (terms : List Term) : Option ℚ :=
  terms.foldl (fun v t => v.bind fun x => t.operator.apply x t.operand.value) (some d.value)

def lastOperand (d : Numeral) (terms : List Term) : ℚ :=
  terms.getLast?.elim d.value fun t => t.operand.value

/-- What stands in front of the last operator is its left operand, or does not matter. -/
def Agrees (d : Numeral) (terms : List Term) : Prop :=
  ∀ front t, terms = front ++ [t] →
    evaluate d front = some (lastOperand d front) ∨
      t.operand.value = 0 ∧ (t.operator = .divide ∨
        t.operator = .times ∧ (evaluate d front).isSome = true)

def press (s : State) (buttons : List Button) : State := buttons.foldl buttonPressed s

structure Typed (s : State) (pending : Option (ℚ × Operator)) (x : ℚ) : Prop where
  parse_input : parse s.input = some x
  operator : s.operator = pending.map Prod.snd
  num1 : ∀ p ∈ pending, s.num1 = p.1

variable {s : State} {d : Numeral} {o : Operator} {x y v : ℚ}

theorem press_append (s : State) (bs cs : List Button) :
    press s (bs ++ cs) = press (press s bs) cs := List.foldl_append

theorem number_append (input : List (Fin 10)) (d : Fin 10) :
    number (append input d) = number input * 10 + d.val := by
  rw [append]
  split
  · rename_i h
    simp [h, number]
  · simp [number]

theorem number_foldl_append (input ds : List (Fin 10)) :
    number (ds.foldl append input) = ds.foldl (fun n d => n * 10 + d.val) (number input) := by
  induction ds generalizing input with
  | nil => rfl
  | cons d ds ih =>
    rw [List.foldl_cons, ih, number_append]
    rfl

theorem foldl_append_ne_nil {ds : List (Fin 10)} (h : ds ≠ []) (input : List (Fin 10)) :
    ds.foldl append input ≠ [] := by
  cases ds using List.reverseRecOn with
  | nil => exact absurd rfl h
  | append_singleton ds d =>
    rw [List.foldl_append, List.foldl_cons, List.foldl_nil, append]
    split <;> simp

theorem press_digits {ds : List (Fin 10)} (h : ds ≠ []) (s : State) :
    press s (ds.map .digit) =
      { s with input := ds.foldl append s.input, output := .typed (ds.foldl append s.input) } := by
  induction ds generalizing s with
  | nil => exact absurd rfl h
  | cons d ds ih =>
    cases ds with
    | nil => rfl
    | cons e ds => exact ih (List.cons_ne_nil e ds) (buttonPressed s (.digit d))

theorem press_numeral (d : Numeral) (h : number s.input = 0) : ∃ input,
    parse input = some d.value ∧ press s d.buttons = { s with input, output := .typed input } := by
  refine ⟨d.digits.foldl append s.input, ?_, press_digits d.ne_nil s⟩
  rw [parse, if_neg (foldl_append_ne_nil d.ne_nil _), number_foldl_append, h]
  rfl

theorem buttonPressed_equals (s : State) :
    ∃ output num2, buttonPressed s .equals = { s with output, num2 } := by
  rw [buttonPressed]
  split
  · exact ⟨_, _, rfl⟩
  · split
    · exact ⟨_, _, rfl⟩
    · exact ⟨_, _, rfl⟩

theorem Typed.equalsButtons {pending : Option (ℚ × Operator)} (h : Typed s pending x)
    (equals : Bool) : Typed (press s (equalsButtons equals)) pending x := by
  cases equals with
  | false => exact h
  | true =>
    obtain ⟨output, num2, hequals⟩ := buttonPressed_equals s
    have hpress : press s (Calculator.equalsButtons true) = { s with output, num2 } := hequals
    rw [hpress]
    exact ⟨h.parse_input, h.operator, h.num1⟩

theorem Typed.term {pending : Option (ℚ × Operator)} (h : Typed s pending x) (t : Term) :
    Typed (press s t.buttons) (some (x, t.operator)) t.operand.value := by
  have hop : buttonPressed s (.operator t.operator) =
      { s with num1 := x, operator := some t.operator, input := [] } := by
    simp only [buttonPressed, h.parse_input]
  obtain ⟨input, hparse, hpress⟩ := press_numeral (s := buttonPressed s (.operator t.operator))
    t.operand (by rw [hop]; rfl)
  have hbuttons : press s t.buttons =
      press (press (buttonPressed s (.operator t.operator)) t.operand.buttons)
        (Calculator.equalsButtons t.equals) :=
    press_append (buttonPressed s (.operator t.operator)) _ _
  rw [hbuttons, hpress, hop]
  apply Typed.equalsButtons
  exact ⟨hparse, rfl, fun p hp => (Option.mem_some.mp hp).symm ▸ rfl⟩

def pending (d : Numeral) (terms : List Term) : Option (ℚ × Operator) :=
  terms.getLast?.map fun t => (lastOperand d terms.dropLast, t.operator)

theorem Typed.terms (h : Typed s none d.value) (terms : List Term) :
    Typed (press s (terms.flatMap Term.buttons)) (pending d terms) (lastOperand d terms) := by
  induction terms using List.reverseRecOn with
  | nil => exact h
  | append_singleton front t ih =>
    have hterm := ih.term t
    rw [List.flatMap_append, press_append, List.flatMap_singleton]
    simpa [pending, lastOperand] using hterm

theorem evaluate_append_singleton (d : Numeral) (front : List Term) (t : Term) :
    evaluate d (front ++ [t]) =
      (evaluate d front).bind fun x => t.operator.apply x t.operand.value := by
  simp [evaluate]

theorem apply_eq_apply_iff (o : Operator) :
    o.apply x y = o.apply v y ↔ v = x ∨ y = 0 ∧ (o = .divide ∨ o = .times) := by
  cases o with
  | plus => simp [Operator.apply, eq_comm]
  | minus => simp [Operator.apply, eq_comm]
  | times => simp [Operator.apply, eq_comm]
  | divide =>
    by_cases hy : y = 0
    · simp [Operator.apply, hy]
    · simp [Operator.apply, hy, div_left_inj', eq_comm]

theorem apply_eq_none_iff (o : Operator) : o.apply x y = none ↔ y = 0 ∧ o = .divide := by
  cases o <;> simp [Operator.apply]

theorem apply_eq_bind_iff (o : Operator) (value : Option ℚ) :
    o.apply x y = value.bind (fun v => o.apply v y) ↔
      value = some x ∨ y = 0 ∧ (o = .divide ∨ o = .times ∧ value.isSome = true) := by
  cases value with
  | none => simp [apply_eq_none_iff]
  | some v => simp [apply_eq_apply_iff]

theorem agrees_nil (d : Numeral) : Agrees d [] := by
  intro front t h
  simp at h

theorem agrees_append_singleton {front : List Term} {t : Term} : Agrees d (front ++ [t]) ↔
    evaluate d front = some (lastOperand d front) ∨
      t.operand.value = 0 ∧ (t.operator = .divide ∨
        t.operator = .times ∧ (evaluate d front).isSome = true) := by
  constructor
  · exact fun h => h front t rfl
  · intro h front' t' heq
    obtain ⟨rfl, hlast⟩ := List.append_inj' heq rfl
    obtain rfl := List.singleton_inj.mp hlast
    exact h

theorem shown_ofResult (result : Option ℚ) : (Output.ofResult result).shown = result := by
  cases result <;> rfl

theorem shown_equals (h : Typed s (some (x, o)) y) :
    (buttonPressed s .equals).output.shown = o.apply x y := by
  obtain rfl : s.num1 = x := h.num1 _ rfl
  have hoperator : s.operator = some o := h.operator
  simp only [buttonPressed, h.parse_input, hoperator, shown_ofResult]

theorem output_equals (h : Typed s none y) : (buttonPressed s .equals).output = s.output := by
  have hoperator : s.operator = none := h.operator
  simp only [buttonPressed, h.parse_input, hoperator]

theorem output_equalsButtons (h : Typed s none y) (equals : Bool) :
    (press s (equalsButtons equals)).output = s.output := by
  cases equals with
  | false => rfl
  | true => exact output_equals h

/--
The display is right behind the last `=` iff the operand in front of the last operator stands for
everything in front of it.
-/
theorem shown_eq_evaluate_iff (s : State) (d : Numeral) (equals : Bool) (terms : List Term) :
    (press s (buttons d equals terms)).output.shown = evaluate d terms ↔ Agrees d terms := by
  obtain ⟨input, hparse, hpress⟩ := press_numeral (s := cleared) d rfl
  have hbuttons : press s (buttons d equals terms) =
      buttonPressed (press (press (press cleared d.buttons) (equalsButtons equals))
        (terms.flatMap Term.buttons)) .equals := by
    rw [buttons, press_append, press_append, press_append]
    rfl
  have hfirst : Typed (press cleared d.buttons) none d.value := by
    rw [hpress]
    exact ⟨hparse, rfl, nofun⟩
  have hterms := (hfirst.equalsButtons equals).terms terms
  rw [hbuttons]
  cases terms using List.reverseRecOn with
  | nil =>
    have houtput : (press (press cleared d.buttons) (equalsButtons equals)).output =
        .typed input := by
      rw [output_equalsButtons hfirst, hpress]
    have hshown := (output_equals hterms).trans houtput
    rw [hshown]
    exact iff_of_true hparse (agrees_nil d)
  | append_singleton front t =>
    have hpending : pending d (front ++ [t]) = some (lastOperand d front, t.operator) := by
      simp [pending]
    have hlast : lastOperand d (front ++ [t]) = t.operand.value := by simp [lastOperand]
    rw [hpending, hlast] at hterms
    rw [shown_equals hterms, evaluate_append_singleton, agrees_append_singleton,
      apply_eq_bind_iff]

section Exceptions

/-- `double.parse` meets a text that is no numeral. -/
def throws (s : State) : Button → Bool
  | .clear => false
  | .equals => (parse s.input).isNone
  | .operator _ => (parse s.input).isNone
  | .digit _ => false

def step (s : State) (b : Button) : Option State := some (buttonPressed s b)

def Button.isOperator : Button → Bool
  | .operator _ => true
  | _ => false

/-- Behind an operator comes a digit or `C`. -/
def follows (last : Button) : Button → Bool
  | .clear => true
  | .equals => !last.isOperator
  | .operator _ => !last.isOperator
  | .digit _ => true

structure Behind (last : Button) (s : State) : Prop where
  isNone_parse : (parse s.input).isNone = last.isOperator

theorem append_ne_nil (input : List (Fin 10)) (d : Fin 10) : append input d ≠ [] := by
  rw [append]
  split <;> simp

theorem throws_eq_false_iff {last b : Button} (h : Behind last s) :
    throws s b = false ↔ follows last b = true := by
  cases b <;> simp [throws, follows, h.isNone_parse]

theorem Behind.buttonPressed {b : Button} (h : throws s b = false) :
    Behind b (buttonPressed s b) := by
  constructor
  cases b with
  | clear => rfl
  | digit d => simp [Calculator.buttonPressed, parse, append_ne_nil, Button.isOperator]
  | equals =>
    obtain ⟨output, num2, hequals⟩ := buttonPressed_equals s
    rw [hequals]
    exact h
  | operator o =>
    cases hx : parse s.input with
    | none => simp [throws, hx] at h
    | some x =>
      simp only [Calculator.buttonPressed, hx]
      rfl

theorem Behind.along_iff {last : Button} (h : Behind last s) (presses : List Button) :
    Machine.Along step (fun s b _ => throws s b = false) s presses ↔
      (last :: presses).IsChain fun b c => follows b c = true := by
  induction presses generalizing last s with
  | nil => simp [Machine.Along]
  | cons b presses ih =>
    rw [List.isChain_cons_cons, ← throws_eq_false_iff h]
    constructor
    · intro halong
      obtain ⟨hb, hpresses⟩ := halong _ rfl
      exact ⟨hb, (ih (Behind.buttonPressed hb)).mp hpresses⟩
    · rintro ⟨hb, hchain⟩ t ht
      obtain rfl := Option.some.inj ht
      exact ⟨hb, (ih (Behind.buttonPressed hb)).mpr hchain⟩

/-- No press throws iff no operator is directly followed by another one or by `=`. -/
theorem along_not_throws_iff (presses : List Button) :
    Machine.Along step (fun s b _ => throws s b = false) cleared presses ↔
      presses.IsChain fun b c => follows b c = true := by
  have hcleared : Behind .clear cleared := ⟨rfl⟩
  rw [hcleared.along_iff]
  cases presses with
  | nil => simp
  | cons b presses =>
    have hfirst : follows .clear b = true := by cases b <;> rfl
    simp [List.isChain_cons_cons, hfirst]

theorem not_along_not_throws_plus_equals :
    ¬ Machine.Along step (fun s b _ => throws s b = false) cleared
      [.digit 1, .operator .plus, .equals] := by
  decide +kernel

end Exceptions

section Examples

def one : Numeral := ⟨[1], List.cons_ne_nil _ _⟩

def two : Numeral := ⟨[2], List.cons_ne_nil _ _⟩

/-- Behind `C 1 + 2 + 2 =` the first sum is lost. -/
theorem shown_ne_evaluate_sum :
    (press cleared (buttons one false [⟨.plus, two, false⟩, ⟨.plus, two, false⟩])).output.shown =
        some 4 ∧
      evaluate one [⟨.plus, two, false⟩, ⟨.plus, two, false⟩] = some 5 := by
  decide +kernel

end Examples

end FlutterPractice.Calculator
