import Mathlib.Data.String.Basic
import FlutterPractice.Dart.Calendar
import FlutterPractice.Dart.Number

/-! # Times as texts

`DateTime.toIso8601String` of local times in the years 0 to 9999: fields of
fixed widths, with three more digits for the microseconds unless they are zero.
The texts are ordered as the times are, and read back.
-/

namespace Dart

def fixedDigits : ℕ → ℕ → List Char
  | 0, _ => []
  | w + 1, n => Nat.digitChar (n / 10 ^ w) :: fixedDigits w (n % 10 ^ w)

/-- The microseconds behind the milliseconds. -/
def microDigits (n : ℕ) : List Char := if n = 0 then [] else fixedDigits 3 n

namespace Fields

def text (f : Fields) : List Char :=
  fixedDigits 4 f.year ++ '-' :: (fixedDigits 2 f.month ++ '-' :: (fixedDigits 2 f.day ++ 'T' ::
    (fixedDigits 2 f.hour ++ ':' :: (fixedDigits 2 f.minute ++ ':' :: (fixedDigits 2 f.second ++
      '.' :: (fixedDigits 3 f.millisecond ++ microDigits f.microsecond))))))

/-- The fields have no more digits than they are written with. -/
structure Fits (f : Fields) : Prop where
  year : f.year < 10 ^ 4
  month : f.month < 10 ^ 2
  day : f.day < 10 ^ 2
  hour : f.hour < 10 ^ 2
  minute : f.minute < 10 ^ 2
  second : f.second < 10 ^ 2
  millisecond : f.millisecond < 10 ^ 3
  microsecond : f.microsecond < 10 ^ 3

theorem fits_ofMicroseconds {t : ℕ} (h : (ofMicroseconds t).year ≤ 9999) :
    (ofMicroseconds t).Fits := by
  have hmonth := Calendar.month_le t
  have hday := Calendar.day_lt t
  constructor
  · omega
  all_goals simp only [ofMicroseconds]; omega

end Fields

def toIso8601String (t : ℕ) : String := String.ofList (Fields.ofMicroseconds t).text

def readNumber (width : ℕ) (cs : List Char) : Option (ℕ × List Char) :=
  if cs.length < width then none
  else (digits 10 (cs.take width) 0).map fun n => (n, cs.drop width)

def readChar (c : Char) : List Char → Option (List Char)
  | [] => none
  | d :: cs => if d = c then some cs else none

/-- Microseconds, from at least one digit and at most the first six. -/
def readFraction (cs : List Char) : Option ℕ :=
  if cs.isEmpty || cs.any fun c => (digit 10 c).isNone then none
  else digits 10 ((cs ++ List.replicate 6 '0').take 6) 0

/-- `DateTime.parse`, for the texts that `toIso8601String` writes. -/
def parseDateTime (text : String) : Option ℕ := do
  let (year, cs) ← readNumber 4 text.toList
  let (month, cs) ← readNumber 2 (← readChar '-' cs)
  let (day, cs) ← readNumber 2 (← readChar '-' cs)
  let (hour, cs) ← readNumber 2 (← readChar 'T' cs)
  let (minute, cs) ← readNumber 2 (← readChar ':' cs)
  let (second, cs) ← readNumber 2 (← readChar ':' cs)
  let micros ← readFraction (← readChar '.' cs)
  return Fields.toMicroseconds
    ⟨year, month, day, hour, minute, second, micros / 1000, micros % 1000⟩

section Digits

variable {β : Type} {w m n : ℕ} {a b rest : List Char}

@[simp] theorem length_fixedDigits (w n : ℕ) : (fixedDigits w n).length = w := by
  induction w generalizing n with
  | zero => rfl
  | succ w ih => rw [fixedDigits, List.length_cons, ih]

theorem digitChar_lt_iff : ∀ v < 10, ∀ w < 10, Nat.digitChar v < Nat.digitChar w ↔ v < w := by
  decide

theorem digitChar_inj : ∀ v < 10, ∀ w < 10, Nat.digitChar v = Nat.digitChar w ↔ v = w := by
  decide

theorem digit_digitChar : ∀ v < 10, digit 10 (Nat.digitChar v) = some v := by
  decide

/-- Digits of one width are compared before anything behind them. -/
theorem fixedDigits_append_lt_iff (hn : n < 10 ^ w) (hm : m < 10 ^ w) :
    fixedDigits w n ++ a < fixedDigits w m ++ b ↔ n < m ∨ n = m ∧ a < b := by
  induction w generalizing n m with
  | zero =>
    obtain rfl : n = 0 := by omega
    obtain rfl : m = 0 := by omega
    simp [fixedDigits]
  | succ w ih =>
    have hpos : 0 < 10 ^ w := by positivity
    have hhead {k : ℕ} (hk : k < 10 ^ (w + 1)) : k / 10 ^ w < 10 :=
      Nat.div_lt_of_lt_mul (by rwa [← pow_succ])
    rw [fixedDigits, fixedDigits, List.cons_append, List.cons_append, List.cons_lt_cons_iff,
      digitChar_lt_iff _ (hhead hn) _ (hhead hm), digitChar_inj _ (hhead hn) _ (hhead hm),
      ih (Nat.mod_lt n hpos) (Nat.mod_lt m hpos), lt_iff_div_mod (n := n) (10 ^ w)]
    have heq : n = m ↔ n / 10 ^ w = m / 10 ^ w ∧ n % 10 ^ w = m % 10 ^ w := by
      constructor
      · rintro rfl
        exact ⟨rfl, rfl⟩
      · rintro ⟨hdiv, hmod⟩
        rw [← Nat.div_add_mod n (10 ^ w), ← Nat.div_add_mod m (10 ^ w), hdiv, hmod]
    rw [heq]
    tauto

/-- No digits stand for zero, and are less than any. -/
theorem microDigits_lt_iff (hn : n < 10 ^ 3) (hm : m < 10 ^ 3) :
    microDigits n < microDigits m ↔ n < m := by
  have hnil (k : ℕ) : ¬ fixedDigits 3 k < [] := List.not_lt_nil _
  rw [microDigits, microDigits]
  split
  · split
    · simp [*]
    · have hlt : [] < fixedDigits 3 m := by simp [fixedDigits]
      exact iff_of_true hlt (by omega)
  · split
    · exact iff_of_false (hnil n) (by omega)
    · have h := fixedDigits_append_lt_iff (a := []) (b := []) hn hm
      simpa using h

theorem digits_append (radix : ℕ) (a b : List Char) (acc : ℕ) :
    digits radix (a ++ b) acc = (digits radix a acc).bind (digits radix b) := by
  induction a generalizing acc with
  | nil => rfl
  | cons c a ih =>
    simp only [List.cons_append, digits, ih]
    cases digit radix c <;> rfl

theorem digits_fixedDigits (hn : n < 10 ^ w) (acc : ℕ) :
    digits 10 (fixedDigits w n) acc = some (acc * 10 ^ w + n) := by
  induction w generalizing n acc with
  | zero =>
    obtain rfl : n = 0 := by omega
    simp [fixedDigits, digits]
  | succ w ih =>
    have hhead : n / 10 ^ w < 10 := Nat.div_lt_of_lt_mul (by rwa [← pow_succ])
    have hdiv := Nat.div_add_mod n (10 ^ w)
    simp only [fixedDigits, digits, digit_digitChar _ hhead, Option.bind_some,
      ih (Nat.mod_lt n (by positivity))]
    congr 1
    calc
      (acc * 10 + n / 10 ^ w) * 10 ^ w + n % 10 ^ w
        = acc * 10 ^ (w + 1) + (10 ^ w * (n / 10 ^ w) + n % 10 ^ w) := by ring
      _ = acc * 10 ^ (w + 1) + n := by rw [hdiv]

theorem readNumber_fixedDigits (hn : n < 10 ^ w) (rest : List Char) :
    readNumber w (fixedDigits w n ++ rest) = some (n, rest) := by
  have hlen := length_fixedDigits w n
  have hlong : ¬ (fixedDigits w n ++ rest).length < w := by
    rw [List.length_append, hlen]
    omega
  rw [readNumber, if_neg hlong, List.take_left' hlen, List.drop_left' hlen,
    digits_fixedDigits hn]
  simp

theorem bind_readNumber_fixedDigits (hn : n < 10 ^ w) (rest : List Char)
    (f : ℕ × List Char → Option β) :
    (readNumber w (fixedDigits w n ++ rest) >>= f) = f (n, rest) := by
  rw [readNumber_fixedDigits hn]
  rfl

theorem bind_readChar_cons (c : Char) (cs : List Char) (f : List Char → Option β) :
    (readChar c (c :: cs) >>= f) = f cs := by
  rw [readChar, if_pos rfl]
  rfl

theorem any_isNone_fixedDigits (hn : n < 10 ^ w) :
    ((fixedDigits w n).any fun c => (digit 10 c).isNone) = false := by
  have hdigit := isSome_digit_of_digits (digits_fixedDigits hn 0)
  rw [List.any_eq_false]
  intro c hc
  simpa [← Option.isNone_iff_eq_none] using Option.isSome_iff_ne_none.mp (hdigit c hc)

theorem readFraction_microDigits (hm : m < 10 ^ 3) (hn : n < 10 ^ 3) :
    readFraction (fixedDigits 3 m ++ microDigits n) = some (m * 1000 + n) := by
  have hmicro : ((microDigits n).any fun c => (digit 10 c).isNone) = false := by
    rw [microDigits]
    split
    · rfl
    · exact any_isNone_fixedDigits hn
  have hdigits : ((fixedDigits 3 m ++ microDigits n).isEmpty ||
      (fixedDigits 3 m ++ microDigits n).any fun c => (digit 10 c).isNone) = false := by
    rw [List.any_append, any_isNone_fixedDigits hm, hmicro]
    rfl
  -- without microseconds the padding is read in their place
  have hsix : (fixedDigits 3 m ++ microDigits n ++ List.replicate 6 '0').take 6 =
      fixedDigits 3 m ++ fixedDigits 3 n := by
    rw [microDigits]
    split
    · rename_i h0
      rw [h0]
      rfl
    · rfl
  rw [readFraction, hdigits, hsix, digits_append, digits_fixedDigits hm]
  simp only [Bool.false_eq_true, if_false, Option.bind_some, digits_fixedDigits hn]
  simp

end Digits

namespace Fields

variable {f g : Fields}

theorem text_lt_iff (hf : f.Fits) (hg : g.Fits) : f.text < g.text ↔ f.toList < g.toList := by
  rw [text, text, fixedDigits_append_lt_iff hf.year hg.year, List.cons_lt_cons_self,
    fixedDigits_append_lt_iff hf.month hg.month, List.cons_lt_cons_self,
    fixedDigits_append_lt_iff hf.day hg.day, List.cons_lt_cons_self,
    fixedDigits_append_lt_iff hf.hour hg.hour, List.cons_lt_cons_self,
    fixedDigits_append_lt_iff hf.minute hg.minute, List.cons_lt_cons_self,
    fixedDigits_append_lt_iff hf.second hg.second, List.cons_lt_cons_self,
    fixedDigits_append_lt_iff hf.millisecond hg.millisecond,
    microDigits_lt_iff hf.microsecond hg.microsecond]
  simp [toList, timeOfDay, List.cons_lt_cons_iff]

end Fields

variable {t u : ℕ}

theorem toIso8601String_lt_iff (ht : (Fields.ofMicroseconds t).year ≤ 9999)
    (hu : (Fields.ofMicroseconds u).year ≤ 9999) :
    toIso8601String t < toIso8601String u ↔ t < u := by
  rw [String.lt_iff_toList_lt, toIso8601String, toIso8601String, String.toList_ofList,
    String.toList_ofList, Fields.text_lt_iff (Fields.fits_ofMicroseconds ht)
      (Fields.fits_ofMicroseconds hu), Fields.toList_lt_iff]

theorem parseDateTime_toIso8601String (ht : (Fields.ofMicroseconds t).year ≤ 9999) :
    parseDateTime (toIso8601String t) = some t := by
  have h := Fields.fits_ofMicroseconds ht
  rw [parseDateTime, toIso8601String, String.toList_ofList, Fields.text,
    bind_readNumber_fixedDigits h.year]
  simp only [bind_readChar_cons, bind_readNumber_fixedDigits h.month,
    bind_readNumber_fixedDigits h.day, bind_readNumber_fixedDigits h.hour,
    bind_readNumber_fixedDigits h.minute, bind_readNumber_fixedDigits h.second,
    readFraction_microDigits h.millisecond h.microsecond]
  change some _ = some t
  rw [Option.some.injEq]
  have hdiv : ((Fields.ofMicroseconds t).millisecond * 1000 +
      (Fields.ofMicroseconds t).microsecond) / 1000 = (Fields.ofMicroseconds t).millisecond := by
    have hlt := h.microsecond
    omega
  have hmod : ((Fields.ofMicroseconds t).millisecond * 1000 +
      (Fields.ofMicroseconds t).microsecond) % 1000 = (Fields.ofMicroseconds t).microsecond := by
    have hlt := h.microsecond
    omega
  rw [hdiv, hmod]
  exact Fields.toMicroseconds_ofMicroseconds t

end Dart
