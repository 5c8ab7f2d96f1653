import FlutterPractice.Machine.Run
import FlutterPractice.Dart.Json
import FlutterPractice.Dart.Number
import FlutterPractice.Dart.Date

/-! # The money ledger

Every entry added to the ledger starts a save, which encodes both lists anew.
An amount that is parsed but has no JSON text stops this save and all later
ones: the ledger is read back iff every accepted amount is finite.
-/

namespace FlutterPractice.Money

open Dart Machine

/-- The texts of points in time, which `parse` reads back. -/
structure IsoFormat (DateTime : Type) where

  toIso8601String : DateTime → String

  parse : String → Option DateTime
  parse_toIso8601String : ∀ date, parse (toIso8601String date) = some date

/-- The lists hold maps of `dynamic` values: an entry has any title and amount. -/
structure Entry (DateTime : Type) where
  title : Json
  amount : Json
  date : DateTime

structure Prefs where
  earning : Option (List JsonText)
  expense : Option (List JsonText)

/-- The page with its preferences, and the `_saveData` calls that have yet to run. -/
structure State (DateTime : Type) where
  earning : List (Entry DateTime)
  expense : List (Entry DateTime)
  prefs : Prefs
  saves : ℕ

inductive Event (DateTime : Type) where
  | onPressed (isEarning : Bool) (title amount : String) (entryDate : DateTime)
  | saveData

variable {DateTime : Type} (F : IsoFormat DateTime)

def encode (item : Entry DateTime) : Option JsonText :=
  jsonEncode (.object
    [("title", item.title), ("amount", item.amount),
      ("date", .string (F.toIso8601String item.date))])

def decode (text : JsonText) : Option (Entry DateTime) := do
  let decodedItem := jsonDecode text
  let title ← decodedItem.index "title"
  let amount ← decodedItem.index "amount"
  let date ← F.parse (← (← decodedItem.index "date").asString)
  return ⟨title, amount, date⟩

/-- Both lists of a new page; what a failing conversion was to fill stays empty. -/
def loadData (prefs : Prefs) : List (Entry DateTime) × List (Entry DateTime) :=
  match (prefs.earning.getD []).mapM (decode F) with
  | none => ([], [])
  | some earning => (earning, ((prefs.expense.getD []).mapM (decode F)).getD [])

/-- What is stored when a call gets to its writes: an item that cannot be encoded ends it. -/
def saveData (s : State DateTime) : Prefs :=
  match s.earning.mapM (encode F) with
  | none => s.prefs
  | some earning =>
    match s.expense.mapM (encode F) with
    | none => { s.prefs with earning := some earning }
    | some expense => ⟨some earning, some expense⟩

def addEntry (s : State DateTime) (title : String) (amount : Double) (date : DateTime)
    (isEarning : Bool) : State DateTime :=
  let entry : Entry DateTime := ⟨.string title, .double amount, date⟩
  if isEarning then { s with earning := s.earning ++ [entry], saves := s.saves + 1 }
  else { s with expense := s.expense ++ [entry], saves := s.saves + 1 }

/-- The amount of the entry that the form adds, if it adds one. -/
def accepted (title amount : String) : Option Double :=
  if title ≠ "" ∧ amount ≠ "" then parseDouble amount else none

def onPressed (s : State DateTime) (isEarning : Bool) (title amount : String)
    (entryDate : DateTime) : State DateTime :=
  match accepted title amount with
  | some d => addEntry s title d entryDate isEarning
  | none => s

def step (s : State DateTime) : Event DateTime → Option (State DateTime)
  | .onPressed isEarning title amount entryDate =>
    some (onPressed s isEarning title amount entryDate)
  | .saveData =>
    if 0 < s.saves then some { s with prefs := saveData F s, saves := s.saves - 1 } else none

/-- A page behind its own `_loadData`. -/
def opened (prefs : Prefs) : State DateTime :=
  ⟨(loadData F prefs).1, (loadData F prefs).2, prefs, 0⟩

def added (isEarning : Bool) (events : List (Event DateTime)) : List (Entry DateTime) :=
  events.filterMap fun
    | .onPressed other title amount entryDate =>
      if other = isEarning then
        (accepted title amount).map fun d => ⟨.string title, .double d, entryDate⟩
      else none
    | .saveData => none

/-- The amount that the event adds to a list can be written as JSON. -/
def Event.FiniteAmount : Event DateTime → Prop
  | .onPressed _ title amount _ => ∀ d ∈ accepted title amount, d.toRat.isSome = true
  | .saveData => True

instance : (e : Event DateTime) → Decidable e.FiniteAmount
  | .onPressed _ title amount _ =>
    inferInstanceAs (Decidable (∀ d ∈ accepted title amount, d.toRat.isSome = true))
  | .saveData => .isTrue trivial

/-- What `_saveData` needs of an item. -/
def Entry.Encodable (item : Entry DateTime) : Prop :=
  item.title.encodable = true ∧ item.amount.encodable = true

def ReadsBack (s : State DateTime) : Prop := loadData F s.prefs = (s.earning, s.expense)

/-- Both stored lists decode to these entries. -/
structure Decodes (prefs : Prefs) (earning expense : List (Entry DateTime)) : Prop where
  earning : (prefs.earning.getD []).mapM (decode F) = some earning
  expense : (prefs.expense.getD []).mapM (decode F) = some expense

variable {F} {s t : State DateTime} {item : Entry DateTime}

theorem isSome_encode : (encode F item).isSome = true ↔ item.Encodable := by
  simp [encode, isSome_jsonEncode, Entry.Encodable, Json.encodable, Json.fieldsEncodable]

theorem decode_of_encode {text : JsonText} (h : encode F item = some text) :
    decode F text = some item := by
  have htext := jsonEncode_eq_some.mp h
  simp [decode, htext, Json.index, Json.get, Json.asString, List.lookup, F.parse_toIso8601String]

theorem encodable_of_decode {text : JsonText} (h : decode F text = some item) :
    item.Encodable := by
  simp only [decode, bind, Option.bind_eq_some_iff, pure, Option.some.injEq] at h
  obtain ⟨title, htitle, amount, hamount, -, -, -, -, -, -, rfl⟩ := h
  exact ⟨Json.encodable_of_index text.encodable htitle,
    Json.encodable_of_index text.encodable hamount⟩

theorem mapM_decode_of_encode {items : List (Entry DateTime)} {texts : List JsonText}
    (h : items.mapM (encode F) = some texts) : texts.mapM (decode F) = some items := by
  rw [Json.mapM_eq_some] at h ⊢
  exact h.flip.imp fun text item hitem => decode_of_encode hitem

theorem encodable_of_mapM_decode {texts : List JsonText} {items : List (Entry DateTime)}
    (h : texts.mapM (decode F) = some items) : ∀ item ∈ items, item.Encodable := by
  rw [Json.mapM_eq_some] at h
  induction h with
  | nil => exact List.forall_mem_nil _
  | cons hitem _ ih => exact List.forall_mem_cons.mpr ⟨encodable_of_decode hitem, ih⟩

theorem encodable_loadData (prefs : Prefs) :
    (∀ item ∈ (loadData F prefs).1, item.Encodable) ∧
      ∀ item ∈ (loadData F prefs).2, item.Encodable := by
  rw [loadData]
  split
  · simp
  · rename_i earning hearning
    refine ⟨encodable_of_mapM_decode hearning, ?_⟩
    cases hexpense : (prefs.expense.getD []).mapM (decode F) with
    | none => simp
    | some expense => exact encodable_of_mapM_decode hexpense

theorem Decodes.loadData {prefs : Prefs} {earning expense : List (Entry DateTime)}
    (h : Decodes F prefs earning expense) : loadData F prefs = (earning, expense) := by
  simp [Money.loadData, h.earning, h.expense]

theorem decodes_saveData (hearning : ∀ item ∈ s.earning, item.Encodable)
    (hexpense : ∀ item ∈ s.expense, item.Encodable) :
    Decodes F (saveData F s) s.earning s.expense := by
  have hencode (items : List (Entry DateTime)) (h : ∀ item ∈ items, item.Encodable) :
      ∃ texts, items.mapM (encode F) = some texts :=
    Option.isSome_iff_exists.mp (Json.isSome_mapM.mpr fun item hitem =>
      isSome_encode.mpr (h item hitem))
  obtain ⟨earning, he⟩ := hencode s.earning hearning
  obtain ⟨expense, hx⟩ := hencode s.expense hexpense
  simp only [saveData, he, hx]
  exact ⟨mapM_decode_of_encode he, mapM_decode_of_encode hx⟩

theorem loadData_saveData (hearning : ∀ item ∈ s.earning, item.Encodable)
    (hexpense : ∀ item ∈ s.expense, item.Encodable) :
    loadData F (saveData F s) = (s.earning, s.expense) :=
  (decodes_saveData hearning hexpense).loadData

theorem added_append (isEarning : Bool) (es fs : List (Event DateTime)) :
    added isEarning (es ++ fs) = added isEarning es ++ added isEarning fs :=
  List.filterMap_append

theorem onPressed_lists (s : State DateTime) (isEarning : Bool) (title amount : String)
    (entryDate : DateTime) :
    (onPressed s isEarning title amount entryDate).earning =
        s.earning ++ added true [.onPressed isEarning title amount entryDate] ∧
      (onPressed s isEarning title amount entryDate).expense =
        s.expense ++ added false [.onPressed isEarning title amount entryDate] := by
  cases h : accepted title amount <;> cases isEarning <;>
    simp [onPressed, addEntry, added, h]

theorem onPressed_cases (s : State DateTime) (isEarning : Bool) (title amount : String)
    (entryDate : DateTime) :
    (onPressed s isEarning title amount entryDate).prefs = s.prefs ∧
      (onPressed s isEarning title amount entryDate = s ∧
          (∀ other, added other [.onPressed isEarning title amount entryDate] = []) ∨
        (onPressed s isEarning title amount entryDate).saves = s.saves + 1 ∧
          added isEarning [.onPressed isEarning title amount entryDate] ≠ []) := by
  cases h : accepted title amount <;> cases isEarning <;>
    simp [onPressed, addEntry, added, h]

theorem onPressed_eq_or (s : State DateTime) (isEarning : Bool) (title amount : String)
    (entryDate : DateTime) :
    onPressed s isEarning title amount entryDate = s ∨
      0 < (onPressed s isEarning title amount entryDate).saves := by
  rw [onPressed]
  split
  · right
    cases isEarning <;> exact s.saves.succ_pos
  · exact .inl rfl

theorem encodable_added_singleton (e : Event DateTime) :
    ((∀ item ∈ added true [e], item.Encodable) ∧ ∀ item ∈ added false [e], item.Encodable) ↔
      e.FiniteAmount := by
  cases e with
  | saveData => simp [added, Event.FiniteAmount]
  | onPressed isEarning title amount entryDate =>
    cases h : accepted title amount <;> cases isEarning <;>
      simp [added, Event.FiniteAmount, Entry.Encodable, Json.encodable, h]

theorem encodable_added_iff {es : List (Event DateTime)} :
    ((∀ item ∈ added true es, item.Encodable) ∧ ∀ item ∈ added false es, item.Encodable) ↔
      ∀ e ∈ es, e.FiniteAmount := by
  induction es with
  | nil => simp [added]
  | cons e es ih =>
    rw [← List.singleton_append, added_append, added_append, List.forall_mem_append,
      List.forall_mem_append, and_and_and_comm, encodable_added_singleton, ih,
      List.singleton_append, List.forall_mem_cons]

/-- The lists are what was loaded and added, and stored where no save is to come. -/
def Kept (F : IsoFormat DateTime) (prefs : Prefs) (es : List (Event DateTime))
    (s : State DateTime) : Prop :=
  s.earning = (loadData F prefs).1 ++ added true es ∧
    s.expense = (loadData F prefs).2 ++ added false es ∧
      (s.saves = 0 → (∀ item ∈ s.earning, item.Encodable) →
        (∀ item ∈ s.expense, item.Encodable) → ReadsBack F s)

theorem kept_step {prefs : Prefs} {es : List (Event DateTime)} {e : Event DateTime}
    (h : Kept F prefs es s) (ht : step F s e = some t) : Kept F prefs (es ++ [e]) t := by
  obtain ⟨hearning, hexpense, hstored⟩ := h
  cases e with
  | onPressed isEarning title amount entryDate =>
    obtain rfl := Option.some.inj ht
    obtain ⟨he, hx⟩ := onPressed_lists s isEarning title amount entryDate
    refine ⟨?_, ?_, ?_⟩
    · rw [he, hearning, added_append, List.append_assoc]
    · rw [hx, hexpense, added_append, List.append_assoc]
    · rcases onPressed_eq_or s isEarning title amount entryDate with heq | hpos
      · rwa [heq]
      · exact fun hzero => absurd hzero hpos.ne'
  | saveData =>
    obtain ⟨-, ht⟩ := Option.ite_none_right_eq_some.mp ht
    obtain rfl := Option.some.inj ht
    refine ⟨?_, ?_, fun _ he hx => loadData_saveData he hx⟩
    · simpa [added_append, added] using hearning
    · simpa [added_append, added] using hexpense

theorem kept_opened (prefs : Prefs) : Kept F prefs [] (opened F prefs) :=
  ⟨(List.append_nil _).symm, (List.append_nil _).symm, fun _ _ _ => rfl⟩

/--
A new page reads back what the page opened with and everything added since iff every accepted
amount is finite.
-/
theorem loadData_eq_added_iff (F : IsoFormat DateTime) (prefs : Prefs)
    {es : List (Event DateTime)} {t : State DateTime}
    (ht : exec (step F) (opened F prefs) es = some t) (hsaves : t.saves = 0) :
    loadData F t.prefs =
        ((loadData F prefs).1 ++ added true es, (loadData F prefs).2 ++ added false es) ↔
      ∀ e ∈ es, e.FiniteAmount := by
  obtain ⟨hearning, hexpense, hstored⟩ :=
    exec_history (H := Kept F prefs) (kept_opened prefs) (fun _ _ _ _ => kept_step) ht
  rw [← encodable_added_iff, ← hearning, ← hexpense]
  obtain ⟨hloaded, hloaded'⟩ := encodable_loadData (F := F) prefs
  constructor
  · intro h
    have hback := encodable_loadData (F := F) t.prefs
    rw [h, hearning, hexpense] at hback
    exact ⟨(List.forall_mem_append.mp hback.1).2, (List.forall_mem_append.mp hback.2).2⟩
  · rintro ⟨he, hx⟩
    apply hstored hsaves
    · rw [hearning]
      exact List.forall_mem_append.mpr ⟨hloaded, he⟩
    · rw [hexpense]
      exact List.forall_mem_append.mpr ⟨hloaded', hx⟩

section Examples

/-- Points in time at midnight. -/
def midnightText (day : Date) : String := day.text ++ "T00:00:00.000"

theorem midnightText_injective : Function.Injective midnightText := by
  intro d d' h
  simp only [midnightText, ← String.toList_inj, String.toList_append] at h
  exact Date.text_injective (String.toList_inj.mp (List.append_cancel_right h))

noncomputable def midnights : IsoFormat Date where
  toIso8601String := midnightText
  parse := Function.partialInv midnightText
  parse_toIso8601String := Function.partialInv_left midnightText_injective

def payday : Date := ⟨2025, 4, 25, by decide, by decide⟩

def salaryAndRent : List (Event Date) :=
  [.onPressed true "Salary" "1200.5" payday, .onPressed false "Rent" "800" payday, .saveData,
    .saveData]

def giftAndRent : List (Event Date) :=
  [.onPressed true "Gift" "NaN" payday, .onPressed false "Rent" "800" payday, .saveData, .saveData]

theorem accepted_rent : (accepted "Rent" "800").isSome = true := by decide +kernel

theorem loadData_eq_added_salary : ∃ t,
    exec (step midnights) (opened midnights ⟨none, none⟩) salaryAndRent = some t ∧
      loadData midnights t.prefs = (added true salaryAndRent, added false salaryAndRent) := by
  obtain ⟨salary, hsalary⟩ := Option.isSome_iff_exists.mp
    (show (accepted "Salary" "1200.5").isSome = true by decide +kernel)
  obtain ⟨rent, hrent⟩ := Option.isSome_iff_exists.mp accepted_rent
  have hrun : ∃ t, exec (step midnights) (opened midnights ⟨none, none⟩) salaryAndRent = some t ∧
      t.saves = 0 := by
    simp [salaryAndRent, exec, step, onPressed, hsalary, hrent, addEntry, opened]
  obtain ⟨t, ht, hsaves⟩ := hrun
  have hfinite : ∀ e ∈ salaryAndRent, e.FiniteAmount := by decide +kernel
  exact ⟨t, ht, (loadData_eq_added_iff midnights ⟨none, none⟩ ht hsaves).mpr hfinite⟩

/-- Not even the rent is stored. -/
theorem loadData_ne_added_gift : ∃ t,
    exec (step midnights) (opened midnights ⟨none, none⟩) giftAndRent = some t ∧ t.saves = 0 ∧
      t.earning = added true giftAndRent ∧ t.expense = added false giftAndRent ∧
      t.prefs = ⟨none, none⟩ ∧
      loadData midnights t.prefs ≠ (added true giftAndRent, added false giftAndRent) := by
  have hgift : accepted "Gift" "NaN" = some .nan := by decide +kernel
  obtain ⟨rent, hrent⟩ := Option.isSome_iff_exists.mp accepted_rent
  have hencode (date : Date) : encode midnights ⟨.string "Gift", .double .nan, date⟩ = none := rfl
  simp [giftAndRent, exec, step, onPressed, hgift, hrent, addEntry, opened, saveData, loadData,
    added, hencode]

end Examples

end FlutterPractice.Money
