import FlutterPractice.Dart.Double

/-! # Reading numbers from text

Dart's `String.trim`, `int.parse` and `double.parse`, with `none` for a
`FormatException`. A text that both parsers accept denotes one integer, which
the second parser rounds.
-/

namespace Dart

/-- The characters that `String.trim` removes: Unicode's White_Space and the byte order mark. -/
def isWhitespace (c : Char) : Bool :=
  (0x9 ≤ c.toNat && c.toNat ≤ 0xD) || (0x2000 ≤ c.toNat && c.toNat ≤ 0x200A) ||
    [0x20, 0x85, 0xA0, 0x1680, 0x2028, 0x2029, 0x202F, 0x205F, 0x3000, 0xFEFF].contains c.toNat

def trimChars (cs : List Char) : List Char := (cs.dropWhile isWhitespace).rdropWhile isWhitespace

def trim (text : String) : String := String.ofList (trimChars text.toList)

@[simp] theorem toList_trim (text : String) : (trim text).toList = trimChars text.toList := by
  simp [trim]

theorem trimChars_idem (cs : List Char) : trimChars (trimChars cs) = trimChars cs := by
  have hdrop : (trimChars cs).dropWhile isWhitespace = trimChars cs := by
    rw [List.dropWhile_eq_self_iff]
    intro hl hw
    -- What is left starts as the text does behind its leading white space.
    have hpre : trimChars cs <+: cs.dropWhile isWhitespace := List.rdropWhile_prefix _ _
    have hlen := hl.trans_le hpre.length_le
    have hget : (trimChars cs)[0] = (cs.dropWhile isWhitespace)[0] := hpre.getElem hl
    rw [hget] at hw
    exact List.dropWhile_get_zero_not isWhitespace cs hlen hw
  change ((trimChars cs).dropWhile isWhitespace).rdropWhile isWhitespace = trimChars cs
  rw [hdrop]
  exact List.rdropWhile_idempotent _ _

theorem trim_trim (text : String) : trim (trim text) = trim text := by
  rw [← String.toList_inj, toList_trim, toList_trim, trimChars_idem]

/-- An optional sign and what follows it. -/
def splitSign : List Char → Bool × List Char
  | '-' :: cs => (true, cs)
  | '+' :: cs => (false, cs)
  | cs => (false, cs)

def digit (radix : ℕ) (c : Char) : Option ℕ :=
  let v :=
    if '0' ≤ c ∧ c ≤ '9' then c.toNat - '0'.toNat
    else if 'a' ≤ c ∧ c ≤ 'z' then c.toNat - 'a'.toNat + 10
    else if 'A' ≤ c ∧ c ≤ 'Z' then c.toNat - 'A'.toNat + 10
    else radix
  if v < radix then some v else none

/-- The number that a possibly empty sequence of digits denotes. -/
def digits (radix : ℕ) : List Char → ℕ → Option ℕ
  | [], acc => some acc
  | c :: cs, acc => (digit radix c).bind fun v => digits radix cs (acc * radix + v)

/-- A nonempty sequence of digits. -/
def natural (radix : ℕ) (cs : List Char) : Option ℕ :=
  if cs.isEmpty then none else digits radix cs 0

/-- A decimal literal must fit the type. -/
def decimalInt (negative : Bool) (cs : List Char) : Option ℤ := do
  let n ← natural 10 cs
  if IsInt64 (signedInt negative n) then some (signedInt negative n) else none

/-- A hexadecimal literal without a minus sign may use the sign bit. -/
def hexInt (negative : Bool) (cs : List Char) : Option ℤ := do
  let n ← natural 16 cs
  if IsInt64 (signedInt negative n) then some (signedInt negative n)
  else if negative = false ∧ n < 2 ^ 64 then some (n - 2 ^ 64)
  else none

/-- `int.tryParse`; `int.parse` throws where it is `none`. -/
def parseInt (source : String) : Option ℤ :=
  let (negative, cs) := splitSign (trimChars source.toList)
  match cs with
  | '0' :: 'x' :: ds | '0' :: 'X' :: ds => hexInt negative ds
  | cs => decimalInt negative cs

def fraction : List Char → Option (List Char)
  | [] => some []
  | '.' :: ds => some ds
  | _ => none

def exponent : List Char → Option ℤ
  | [] => some 0
  | _ :: cs => (natural 10 (splitSign cs).2).map (signedInt (splitSign cs).1)

def scaled (n : ℕ) (e : ℤ) : ℚ := n * 10 ^ e

theorem scaled_nonneg (n : ℕ) (e : ℤ) : 0 ≤ scaled n e := by
  unfold scaled
  positivity

/-- The digits of a mantissa with an optional decimal point and an optional exponent, and the power
of ten that scales them. -/
def decimalLiteral (cs : List Char) : Option (ℕ × ℤ) := do
  let mantissa := cs.takeWhile fun c => c != 'e' && c != 'E'
  let whole := mantissa.takeWhile (· != '.')
  let frac ← fraction (mantissa.dropWhile (· != '.'))
  let n ← natural 10 (whole ++ frac)
  let e ← exponent (cs.dropWhile fun c => c != 'e' && c != 'E')
  return (n, e - frac.length)

def decimalDouble (negative : Bool) (cs : List Char) : Option Double :=
  (decimalLiteral cs).map fun literal =>
    .round negative (scaled literal.1 literal.2) (scaled_nonneg _ _)

/-- `double.tryParse`; `double.parse` throws where it is `none`. -/
def parseDouble (source : String) : Option Double :=
  let (negative, cs) := splitSign (trimChars source.toList)
  if cs = "Infinity".toList then some (.infinity negative)
  else if cs = "NaN".toList then some .nan
  else decimalDouble negative cs

/-- The number that a text denotes, before `double.parse` rounds it. -/
def parseDecimal (source : String) : Option ℚ :=
  let (negative, cs) := splitSign (trimChars source.toList)
  (decimalLiteral cs).map fun literal => Double.signed negative (scaled literal.1 literal.2)

theorem parseInt_trim (source : String) : parseInt (trim source) = parseInt source := by
  simp only [parseInt, toList_trim, trimChars_idem]

theorem parseDouble_trim (source : String) : parseDouble (trim source) = parseDouble source := by
  simp only [parseDouble, toList_trim, trimChars_idem]

theorem ne_empty_of_parseDouble {text : String} {d : Double} (h : parseDouble text = some d) :
    text ≠ "" := by
  rintro rfl
  have hnone : parseDouble "" = none := by decide +kernel
  cases hnone.symm.trans h

theorem ne_empty_of_parseInt {text : String} {n : ℤ} (h : parseInt text = some n) :
    text ≠ "" := by
  rintro rfl
  have hnone : parseInt "" = none := by decide +kernel
  cases hnone.symm.trans h

section Agreement

theorem isSome_digit_of_digits {radix acc n : ℕ} {cs : List Char}
    (h : digits radix cs acc = some n) : ∀ c ∈ cs, (digit radix c).isSome := by
  induction cs generalizing acc with
  | nil => simp
  | cons c cs ih =>
    obtain ⟨v, hv, h⟩ := Option.bind_eq_some_iff.mp h
    intro d hd
    rcases List.mem_cons.mp hd with rfl | hd
    · simp [hv]
    · exact ih h d hd

theorem isSome_digit_of_natural {radix n : ℕ} {cs : List Char} (h : natural radix cs = some n) :
    ∀ c ∈ cs, (digit radix c).isSome := by
  unfold natural at h
  split at h
  · cases h
  · exact isSome_digit_of_digits h

theorem ne_of_natural {n : ℕ} {cs : List Char} (h : natural 10 cs = some n) {c d : Char}
    (hc : c ∈ cs) (hd : digit 10 d = none) : c ≠ d := by
  rintro rfl
  simpa [hd] using isSome_digit_of_natural h c hc

theorem decimalLiteral_of_natural {cs : List Char} {n : ℕ} (hn : natural 10 cs = some n) :
    decimalLiteral cs = some (n, 0) := by
  have hmantissa : cs.takeWhile (fun c => c != 'e' && c != 'E') = cs := by
    rw [List.takeWhile_eq_self_iff]
    intro c hc
    simp [ne_of_natural hn hc (d := 'e') (by decide), ne_of_natural hn hc (d := 'E') (by decide)]
  have hwhole : cs.takeWhile (· != '.') = cs := by
    rw [List.takeWhile_eq_self_iff]
    intro c hc
    simp [ne_of_natural hn hc (d := '.') (by decide)]
  have hrest : ∀ p : Char → Bool, cs.takeWhile p = cs → cs.dropWhile p = [] := by
    intro p hp
    have happ := List.takeWhile_append_dropWhile (p := p) (l := cs)
    rw [hp] at happ
    simpa using happ
  simp only [decimalLiteral, hmantissa, hwhole, hrest _ hmantissa, hrest _ hwhole, fraction,
    exponent, List.append_nil, hn, Option.bind_eq_bind, Option.bind_some, List.length_nil,
    Option.pure_def]
  rfl

/-- On a sequence of digits `double.parse` rounds what the digits denote. -/
theorem parseDouble_of_natural {source : String} {negative : Bool} {cs : List Char} {n : ℕ}
    (hs : splitSign (trimChars source.toList) = (negative, cs)) (hn : natural 10 cs = some n) :
    parseDouble source = some (.round negative n n.cast_nonneg) := by
  have hinf : cs ≠ "Infinity".toList := by
    rintro rfl
    exact ne_of_natural hn (c := 'I') (by decide) (d := 'I') (by decide) rfl
  have hnan : cs ≠ "NaN".toList := by
    rintro rfl
    exact ne_of_natural hn (c := 'N') (by decide) (d := 'N') (by decide) rfl
  simp only [parseDouble, hs, if_neg hinf, if_neg hnan, decimalDouble,
    decimalLiteral_of_natural hn, Option.map_some, scaled]
  simp

theorem parseDecimal_of_natural {source : String} {negative : Bool} {cs : List Char} {n : ℕ}
    (hs : splitSign (trimChars source.toList) = (negative, cs)) (hn : natural 10 cs = some n) :
    parseDecimal source = some (signedInt negative n : ℚ) := by
  simp only [parseDecimal, hs, decimalLiteral_of_natural hn, Option.map_some, scaled]
  rw [zpow_zero, mul_one, Double.signed_natCast]

/-- A finite double that `double.parse` returns is the rounding of what the text denotes. -/
theorem parseDouble_cases {source : String} {d : Double} (h : parseDouble source = some d) :
    (parseDecimal source = none ∧ d.toRat = none) ∨ ∃ negative q hq,
      parseDecimal source = some (Double.signed negative q) ∧ d = .round negative q hq := by
  obtain ⟨negative, cs, hs⟩ : ∃ negative cs, splitSign (trimChars source.toList) = (negative, cs) :=
    ⟨_, _, rfl⟩
  simp only [parseDouble, parseDecimal, hs] at h ⊢
  split at h
  · rename_i hinf
    obtain rfl := Option.some.inj h
    have hnone : decimalLiteral "Infinity".toList = none := by decide
    exact .inl ⟨by rw [hinf, hnone, Option.map_none], rfl⟩
  · split at h
    · rename_i hnan
      obtain rfl := Option.some.inj h
      have hnone : decimalLiteral "NaN".toList = none := by decide
      exact .inl ⟨by rw [hnan, hnone, Option.map_none], rfl⟩
    · obtain ⟨literal, hliteral, rfl⟩ := Option.map_eq_some_iff.mp h
      exact .inr ⟨negative, _, scaled_nonneg literal.1 literal.2, by rw [hliteral]; rfl, rfl⟩

theorem parseDouble_of_hex {source : String} {negative : Bool} {c : Char} {ds : List Char}
    (hs : splitSign (trimChars source.toList) = (negative, '0' :: c :: ds))
    (hc : c = 'x' ∨ c = 'X') : parseDouble source = none := by
  have h0 : digit 10 '0' = some 0 := by decide
  have hx : digit 10 c = none := by rcases hc with rfl | rfl <;> decide
  have he : c ≠ 'e' ∧ c ≠ 'E' ∧ c ≠ '.' := by rcases hc with rfl | rfl <;> decide
  simp [parseDouble, hs, decimalDouble, decimalLiteral, he, natural, digits, h0, hx]

theorem decimalInt_eq_some {negative : Bool} {cs : List Char} {z : ℤ}
    (h : decimalInt negative cs = some z) :
    ∃ n, natural 10 cs = some n ∧ z = signedInt negative n ∧ IsInt64 z := by
  obtain ⟨n, hn, h⟩ := Option.bind_eq_some_iff.mp h
  split at h
  · rename_i hz
    obtain rfl := Option.some.inj h
    exact ⟨n, hn, rfl, hz⟩
  · cases h

/-- A text that both parsers accept is a sequence of digits behind an optional sign. -/
theorem natural_of_parseInt {source : String} {z : ℤ} {d : Double}
    (hz : parseInt source = some z) (hd : parseDouble source = some d) :
    ∃ negative cs n, splitSign (trimChars source.toList) = (negative, cs) ∧
      natural 10 cs = some n ∧ z = signedInt negative n ∧ IsInt64 z := by
  obtain ⟨negative, cs, hs⟩ : ∃ negative cs, splitSign (trimChars source.toList) = (negative, cs) :=
    ⟨_, _, rfl⟩
  simp only [parseInt, hs] at hz
  split at hz
  · rw [parseDouble_of_hex hs (.inl rfl)] at hd
    cases hd
  · rw [parseDouble_of_hex hs (.inr rfl)] at hd
    cases hd
  · obtain ⟨n, hn, hz⟩ := decimalInt_eq_some hz
    exact ⟨negative, _, n, hs, hn, hz⟩

theorem parseDouble_of_parseInt {source : String} {z : ℤ} {d : Double}
    (hz : parseInt source = some z) (hd : parseDouble source = some d) :
    ∃ negative n, z = signedInt negative n ∧ IsInt64 z ∧
      d = .round negative n n.cast_nonneg := by
  obtain ⟨negative, cs, n, hs, hn, hsigned, hz⟩ := natural_of_parseInt hz hd
  rw [parseDouble_of_natural hs hn] at hd
  exact ⟨negative, n, hsigned, hz, (Option.some.inj hd).symm⟩

theorem parseDecimal_of_parseInt {source : String} {z : ℤ} {d : Double}
    (hz : parseInt source = some z) (hd : parseDouble source = some d) :
    parseDecimal source = some (z : ℚ) := by
  obtain ⟨negative, cs, n, hs, hn, rfl, -⟩ := natural_of_parseInt hz hd
  exact parseDecimal_of_natural hs hn

end Agreement

end Dart
