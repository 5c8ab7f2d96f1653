import Mathlib.Computability.RegularExpressions
import FlutterPractice.Dart.Number

/-! # Texts and patterns

The length that Dart gives to a text, the texts that `trim` leaves alone, and
patterns between `^` and `$`. A text that matches a pattern is made of the
pattern's letters. The texts of integers are read back.
-/

namespace RegularExpression

variable {α : Type*}

def letters : RegularExpression α → List α
  | zero => []
  | epsilon => []
  | char a => [a]
  | plus P Q => P.letters ++ Q.letters
  | comp P Q => P.letters ++ Q.letters
  | star P => P.letters

def oneOf (cs : List α) : RegularExpression α := cs.foldr (fun c P => char c + P) 0

def oneOrMore (P : RegularExpression α) : RegularExpression α := P * star P

def twoOrMore (P : RegularExpression α) : RegularExpression α := P * oneOrMore P

theorem mem_letters_of_mem_matches {P : RegularExpression α} {x : List α} {a : α}
    (h : x ∈ P.matches') (ha : a ∈ x) : a ∈ P.letters := by
  induction P generalizing x with
  | zero => exact h.elim
  | epsilon =>
    obtain rfl : x = [] := h
    cases ha
  | char b =>
    obtain rfl : x = [b] := h
    exact ha
  | plus P Q ihP ihQ =>
    rcases h with h | h
    · exact List.mem_append_left _ (ihP h ha)
    · exact List.mem_append_right _ (ihQ h ha)
  | comp P Q ihP ihQ =>
    obtain ⟨y, hy, z, hz, rfl⟩ := h
    rcases List.mem_append.mp ha with ha | ha
    · exact List.mem_append_left _ (ihP hy ha)
    · exact List.mem_append_right _ (ihQ hz ha)
  | star P ih =>
    obtain ⟨ys, rfl, hys⟩ := h
    obtain ⟨y, hy, ha⟩ := List.mem_flatten.mp ha
    exact ih (hys y hy) ha

end RegularExpression

namespace Dart

/-- The number of UTF-16 code units. -/
def length (text : String) : ℕ := (text.toList.map fun c => if c.toNat < 0x10000 then 1 else 2).sum

/-- `RegExp(r"^...$").hasMatch(text)`. -/
def hasMatch (pattern : RegularExpression Char) (text : String) : Bool := pattern.rmatch text.toList

def charRange (first last : Char) : List Char :=
  (List.range' first.toNat (last.toNat + 1 - first.toNat)).map Char.ofNat

def Trimmed (text : String) : Prop :=
  text.toList.head?.any isWhitespace = false ∧ text.toList.getLast?.any isWhitespace = false

instance (text : String) : Decidable (Trimmed text) := inferInstanceAs (Decidable (_ ∧ _))

theorem trimChars_eq_self_iff {cs : List Char} : trimChars cs = cs ↔
    cs.dropWhile isWhitespace = cs ∧ cs.rdropWhile isWhitespace = cs := by
  rw [trimChars]
  constructor
  · intro h
    have hsuffix : cs.dropWhile isWhitespace <:+ cs := List.dropWhile_suffix _
    have hprefix : (cs.dropWhile isWhitespace).rdropWhile isWhitespace <+:
        cs.dropWhile isWhitespace := List.rdropWhile_prefix _ _
    have hdrop := hsuffix.eq_of_length_le (by simpa only [h] using hprefix.length_le)
    exact ⟨hdrop, by rwa [hdrop] at h⟩
  · rintro ⟨hdrop, hrdrop⟩
    rw [hdrop, hrdrop]

theorem trim_eq_self_iff {text : String} : trim text = text ↔ Trimmed text := by
  rw [← String.toList_inj, toList_trim, trimChars_eq_self_iff, List.dropWhile_eq_self_iff,
    List.rdropWhile_eq_self_iff, Trimmed]
  generalize text.toList = cs
  apply and_congr
  · cases cs <;> simp
  · cases cs using List.reverseRecOn <;> simp

theorem trimmed_of_hasMatch {pattern : RegularExpression Char} {text : String}
    (hpattern : pattern.letters.any isWhitespace = false) (h : hasMatch pattern text = true) :
    Trimmed text := by
  rw [List.any_eq_false] at hpattern
  have hmatch := (RegularExpression.rmatch_iff_matches' _ _).mp h
  have hall (c : Char) (hc : c ∈ text.toList) : isWhitespace c = false :=
    Bool.eq_false_iff.mpr
      (hpattern c (RegularExpression.mem_letters_of_mem_matches hmatch hc))
  rw [Trimmed, Option.any_eq_false_iff_get, Option.any_eq_false_iff_get]
  exact ⟨fun hsome => hall _ (List.mem_of_mem_head? (Option.get_mem hsome)),
    fun hsome => hall _ (List.mem_of_mem_getLast? (Option.get_mem hsome))⟩

section Printing

variable {c : Char} {cs : List Char} {z : ℤ}

theorem digit_of_isDigit (h : c.isDigit = true) : digit 10 c = some (c.toNat - '0'.toNat) := by
  simp only [Char.isDigit, ge_iff_le, Bool.and_eq_true, decide_eq_true_eq] at h
  have hdigit : '0' ≤ c ∧ c ≤ '9' := h
  have hlt : c.toNat - '0'.toNat < 10 := by
    have hle : c.toNat ≤ '9'.toNat := h.2
    have h9 : '9'.toNat = 57 := rfl
    have h0 : '0'.toNat = 48 := rfl
    omega
  simp only [digit, if_pos hdigit, if_pos hlt]

theorem digits_of_isDigit (h : ∀ c ∈ cs, c.isDigit = true) (acc : ℕ) :
    digits 10 cs acc = some (Nat.ofDigitChars 10 cs acc) := by
  induction cs generalizing acc with
  | nil => simp [digits]
  | cons c cs ih =>
    obtain ⟨hc, hcs⟩ := List.forall_mem_cons.mp h
    rw [digits, digit_of_isDigit hc, Option.bind_some, ih hcs, Nat.ofDigitChars_cons,
      Nat.mul_comm]

theorem isDigit_toDigits (n : ℕ) : ∀ c ∈ Nat.toDigits 10 n, c.isDigit = true :=
  fun _ => Nat.isDigit_of_mem_toDigits (by decide) (by decide)

theorem natural_toDigits (n : ℕ) : natural 10 (Nat.toDigits 10 n) = some n := by
  have hne : (Nat.toDigits 10 n).isEmpty = false := by
    simp [Nat.toDigits_ne_nil]
  rw [natural, hne, digits_of_isDigit (isDigit_toDigits n), Nat.ofDigitChars_ten_toDigits]
  rfl

theorem trimChars_eq_self (h : ∀ c ∈ cs, isWhitespace c = false) : trimChars cs = cs := by
  rw [trimChars_eq_self_iff, List.dropWhile_eq_self_iff, List.rdropWhile_eq_self_iff]
  constructor
  · exact fun hl => Bool.eq_false_iff.mp (h _ (List.getElem_mem hl))
  · exact fun hl => Bool.eq_false_iff.mp (h _ (List.getLast_mem hl))

theorem isWhitespace_of_isDigit (h : c.isDigit = true) : isWhitespace c = false := by
  simp only [Char.isDigit, ge_iff_le, Bool.and_eq_true, decide_eq_true_eq] at h
  have h0 : 48 ≤ c.toNat := h.1
  have h9 : c.toNat ≤ 57 := h.2
  simp [isWhitespace]
  omega

theorem splitSign_of_isDigit (h : ∀ c ∈ cs, c.isDigit = true) : splitSign cs = (false, cs) := by
  unfold splitSign
  split
  · exact absurd (h '-' List.mem_cons_self) (by decide)
  · exact absurd (h '+' List.mem_cons_self) (by decide)
  · rfl

/-- Digits are no hexadecimal literal. -/
theorem parseInt_of_toDigits {source : String} {negative : Bool} {n : ℕ}
    (hs : splitSign (trimChars source.toList) = (negative, Nat.toDigits 10 n))
    (hz : IsInt64 (signedInt negative n)) : parseInt source = some (signedInt negative n) := by
  have hdigits := isDigit_toDigits n
  have hdecimal : decimalInt negative (Nat.toDigits 10 n) = some (signedInt negative n) := by
    simp [decimalInt, natural_toDigits, hz]
  simp only [parseInt, hs]
  split
  · rename_i ds heq
    exact absurd (hdigits 'x' (by simp [heq])) (by decide)
  · rename_i ds heq
    exact absurd (hdigits 'X' (by simp [heq])) (by decide)
  · exact hdecimal

theorem parseInt_toString (hz : IsInt64 z) : parseInt (toString z) = some z := by
  have hwhite (n : ℕ) : ∀ c ∈ Nat.toDigits 10 n, isWhitespace c = false :=
    fun c hc => isWhitespace_of_isDigit (isDigit_toDigits n c hc)
  rw [Int.toString_eq_repr, Int.repr_eq_if]
  split
  · rename_i hpos
    have hs : splitSign (trimChars z.toNat.repr.toList) = (false, Nat.toDigits 10 z.toNat) := by
      rw [Nat.repr_eq_ofList_toDigits, String.toList_ofList, trimChars_eq_self (hwhite _),
        splitSign_of_isDigit (isDigit_toDigits _)]
    have hsigned : signedInt false z.toNat = z := Int.toNat_of_nonneg hpos
    rw [parseInt_of_toDigits hs (hsigned.symm ▸ hz), hsigned]
  · rename_i hneg
    have hs : splitSign (trimChars ("-" ++ (-z).toNat.repr).toList) =
        (true, Nat.toDigits 10 (-z).toNat) := by
      have hlist : ("-" ++ (-z).toNat.repr).toList = '-' :: Nat.toDigits 10 (-z).toNat := by
        simp [Nat.repr_eq_ofList_toDigits]
      rw [hlist, trimChars_eq_self (List.forall_mem_cons.mpr ⟨by decide, hwhite _⟩)]
      rfl
    have hsigned : signedInt true (-z).toNat = z := by
      simp only [signedInt, if_true]
      omega
    rw [parseInt_of_toDigits hs (hsigned.symm ▸ hz), hsigned]

theorem isInt64_of_decimalInt {negative : Bool} (h : decimalInt negative cs = some z) :
    IsInt64 z := by
  obtain ⟨n, -, -, hz⟩ := decimalInt_eq_some h
  exact hz

theorem isInt64_of_hexInt {negative : Bool} (h : hexInt negative cs = some z) : IsInt64 z := by
  obtain ⟨n, -, h⟩ := Option.bind_eq_some_iff.mp h
  split at h
  · rename_i hz
    exact Option.some.inj h ▸ hz
  · rename_i hn
    obtain ⟨⟨rfl, hlt⟩, hsome⟩ := Option.ite_none_right_eq_some.mp h
    obtain rfl := Option.some.inj hsome
    simp only [signedInt, IsInt64, Bool.false_eq_true, if_false] at hn ⊢
    omega

theorem isInt64_of_parseInt {source : String} (h : parseInt source = some z) : IsInt64 z := by
  simp only [parseInt] at h
  split at h
  · exact isInt64_of_hexInt h
  · exact isInt64_of_hexInt h
  · exact isInt64_of_decimalInt h

end Printing

end Dart
