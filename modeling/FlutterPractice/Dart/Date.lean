import Mathlib

/-! # Calendar days

The part of a `DateTime` that the step counter reads: its year, month and day.
Days are ordered by the calendar, and the text of a day determines it.
-/

namespace Dart

@[ext] structure Date where
  year : ℕ
  month : ℕ
  day : ℕ
  month_lt : month < 13
  day_lt : day < 32

namespace Date

def ordinal (d : Date) : ℕ := d.year * 10000 + d.month * 100 + d.day

theorem ordinal_injective : Function.Injective ordinal := by
  rintro ⟨y, m, d, hm, hd⟩ ⟨y', m', d', hm', hd'⟩ h
  simp only [ordinal] at h
  obtain rfl : y = y' := by omega
  obtain rfl : m = m' := by omega
  obtain rfl : d = d' := by omega
  rfl

instance : LinearOrder Date := LinearOrder.lift' ordinal ordinal_injective

def padLeft (text : String) (width : ℕ) (padding : Char) : String :=
  String.ofList (List.replicate (width - text.length) padding ++ text.toList)

/-- The year, and the month and the day padded to two digits. -/
def text (d : Date) : String :=
  toString d.year ++ "-" ++ padLeft (toString d.month) 2 '0' ++ "-" ++
    padLeft (toString d.day) 2 '0'

/-- Two digits are kept apart by the padding, and read back. -/
theorem padLeft_two_digits : ∀ n < 32,
    (padLeft (toString n) 2 '0').toList.length = 2 ∧
      Nat.ofDigitChars 10 (padLeft (toString n) 2 '0').toList 0 = n := by
  decide

theorem padLeft_two_injective {m n : ℕ} (hm : m < 32) (hn : n < 32)
    (h : (padLeft (toString m) 2 '0').toList = (padLeft (toString n) 2 '0').toList) : m = n := by
  rw [← (padLeft_two_digits m hm).2, h, (padLeft_two_digits n hn).2]

theorem toString_injective {m n : ℕ} (h : (toString m).toList = (toString n).toList) : m = n := by
  simp only [Nat.toString_eq_ofList_toDigits, String.toList_ofList] at h
  calc
    m = Nat.ofDigitChars 10 (Nat.toDigits 10 m) 0 := Nat.ofDigitChars_ten_toDigits.symm
    _ = n := by rw [h, Nat.ofDigitChars_ten_toDigits]

theorem toList_text (d : Date) :
    d.text.toList = (toString d.year).toList ++ ('-' :: (padLeft (toString d.month) 2 '0').toList ++
      '-' :: (padLeft (toString d.day) 2 '0').toList) := by
  have hdash : "-".toList = ['-'] := rfl
  simp only [text, String.toList_append, hdash, List.append_assoc, List.cons_append,
    List.nil_append]

theorem text_injective : Function.Injective text := by
  intro d d' h
  have hlen (n : ℕ) (hn : n < 32) := (padLeft_two_digits n hn).1
  have hmonth := d.month_lt
  have hmonth' := d'.month_lt
  have hl := congrArg String.toList h
  rw [toList_text, toList_text] at hl
  -- What follows the year has six characters on both sides.
  obtain ⟨hy, hl⟩ := List.append_inj' hl (by
    simp only [List.length_append, List.length_cons, hlen d.month (by omega),
      hlen d'.month (by omega), hlen d.day d.day_lt, hlen d'.day d'.day_lt])
  obtain ⟨hm, hd⟩ := List.append_inj hl (by
    simp only [List.length_cons, hlen d.month (by omega), hlen d'.month (by omega)])
  have hy := toString_injective hy
  have hm := padLeft_two_injective (by omega) (by omega) (List.cons.inj hm).2
  have hd := padLeft_two_injective d.day_lt d'.day_lt (List.cons.inj hd).2
  apply ordinal_injective
  rw [ordinal, ordinal, hy, hm, hd]

end Date

end Dart
