import Kernelflut.Foundations.Text
import Mathlib.Data.List.DropRight
import Mathlib.Data.List.TakeWhile

/-!
# `sscanf`

Formats made of literal characters, white space and `%<width>d`, with the
meaning the C standard gives them: white space in the format matches any amount
of white space, none included; `%<width>d` skips white space and then takes the
longest numeral of at most `width` characters, its sign counted; the first
directive that does not match ends the scan.  What a scan returns is the list of
the integers converted.

`scanInt_eq_some_iff` describes a conversion without the scanner's steps: the
input is blanks, a numeral, and the rest, where the numeral fills the field or
the rest does not go on with a digit.
-/

namespace Scanning

/-- `isspace`. -/
def isSpace (c : Char) : Bool :=
  c = ' ' ∨ c = '\t' ∨ c = '\n' ∨ c = '\x0b' ∨ c = '\x0c' ∨ c = '\r'

/-- The digits at the front, at most `width` of them, and the rest. -/
def spanDigits : (width : ℕ) → List Char → List Char × List Char
  | 0, input => ([], input)
  | _ + 1, [] => ([], [])
  | width + 1, c :: input =>
      if c.isDigit then
        let (digits, rest) := spanDigits width input
        (c :: digits, rest)
      else ([], c :: input)

/-- The digits after a sign, as a number. -/
def scanNumber (width : ℕ) (input : List Char) : Option (ℕ × List Char) :=
  let (digits, rest) := spanDigits width input
  if digits = [] then none else some (Nat.ofDigitChars 10 digits 0, rest)

/-- A number of at most `width` characters, perhaps after a sign. -/
def scanSigned (width : ℕ) : List Char → Option (ℤ × List Char)
  | '-' :: input =>
      (scanNumber (width - 1) input).map fun (n, rest) => (-(n : ℤ), rest)
  | '+' :: input => (scanNumber (width - 1) input).map fun (n, rest) => ((n : ℤ), rest)
  | input => (scanNumber width input).map fun (n, rest) => ((n : ℤ), rest)

/-- `%<width>d`: the integer and the rest of the input. -/
def scanInt (width : ℕ) (input : List Char) : Option (ℤ × List Char) :=
  scanSigned width (input.dropWhile isSpace)

/-- A part of a format. -/
inductive Directive where
  | literal (c : Char)
  | space
  | int (width : ℕ)
  deriving DecidableEq, Repr

/-- The integers converted by `sscanf`. -/
def scan : List Directive → List Char → List ℤ
  | [], _ => []
  | .literal _ :: _, [] => []
  | .literal c :: format, c' :: input => if c' = c then scan format input else []
  | .space :: format, input => scan format (input.dropWhile isSpace)
  | .int width :: format, input =>
      match scanInt width input with
      | none => []
      | some (n, rest) => n :: scan format rest

/-! ## Numerals -/

/-- The numerals, with their values. -/
inductive Numeral : List Char → ℤ → Prop
  | plain {digits : List Char} : digits ≠ [] → (∀ c ∈ digits, c.isDigit = true) →
      Numeral digits (Nat.ofDigitChars 10 digits 0)
  | plus {digits : List Char} : digits ≠ [] → (∀ c ∈ digits, c.isDigit = true) →
      Numeral ('+' :: digits) (Nat.ofDigitChars 10 digits 0)
  | minus {digits : List Char} : digits ≠ [] → (∀ c ∈ digits, c.isDigit = true) →
      Numeral ('-' :: digits) (-(Nat.ofDigitChars 10 digits 0 : ℕ))

/-- Nothing that would belong to the numeral follows it. -/
def NoDigitHead (rest : List Char) : Prop := ∀ c ∈ rest.head?, c.isDigit = false

/-- A decimal integer is a numeral. -/
theorem numeral_decimal (z : ℤ) : Numeral (Text.decimal z) z := by
  have digits : ∀ c ∈ Nat.toDigits 10 z.natAbs, c.isDigit = true :=
    fun c hc => Text.isDigit_of_mem_toDigits hc
  unfold Text.decimal
  split
  · have numeral := Numeral.minus Nat.toDigits_ne_nil digits
    rw [Nat.ofDigitChars_ten_toDigits] at numeral
    convert numeral using 1
    omega
  · have numeral := Numeral.plain Nat.toDigits_ne_nil digits
    rw [Nat.ofDigitChars_ten_toDigits] at numeral
    convert numeral using 1
    omega

/-! ## The digits of a field -/

/-- What `spanDigits` takes: digits only, as many as the field allows. -/
theorem spanDigits_spec (width : ℕ) (input : List Char) :
    input = (spanDigits width input).1 ++ (spanDigits width input).2 ∧
      (∀ c ∈ (spanDigits width input).1, c.isDigit = true) ∧
      (spanDigits width input).1.length ≤ width ∧
      ((spanDigits width input).1.length = width ∨
        NoDigitHead (spanDigits width input).2) := by
  induction width generalizing input with
  | zero => simp [spanDigits]
  | succ width ih =>
      cases input with
      | nil => simp [spanDigits, NoDigitHead]
      | cons c input =>
          obtain ⟨split, all, fits, ends⟩ := ih input
          rw [spanDigits]
          split
          · next digit =>
              refine ⟨congrArg (c :: ·) split, ?_, Nat.succ_le_succ fits,
                ends.imp_left (congrArg Nat.succ)⟩
              rintro d (_ | ⟨_, hd⟩)
              · exact digit
              · exact all d hd
          · next other => simpa [NoDigitHead] using other

/-- Conversely, digits that fill the field, or that nothing more follows, are
what it takes. -/
theorem spanDigits_append {width : ℕ} {digits rest : List Char}
    (all : ∀ c ∈ digits, c.isDigit = true) (fits : digits.length ≤ width)
    (ends : digits.length = width ∨ NoDigitHead rest) :
    spanDigits width (digits ++ rest) = (digits, rest) := by
  induction digits generalizing width with
  | nil =>
      cases width with
      | zero => rfl
      | succ width =>
          rcases ends with full | none
          · cases full
          · cases rest with
            | nil => rfl
            | cons c rest =>
                have other : c.isDigit = false := none c rfl
                simp [spanDigits, other]
  | cons c digits ih =>
      cases width with
      | zero => cases fits
      | succ width =>
          have digit : c.isDigit = true := all c List.mem_cons_self
          rw [List.cons_append, spanDigits, if_pos digit,
            ih (fun d hd => all d (List.mem_cons_of_mem _ hd))
              (Nat.le_of_succ_le_succ fits) (ends.imp_left Nat.succ.inj)]

theorem scanNumber_eq_some_iff {width : ℕ} {input rest : List Char} {n : ℕ} :
    scanNumber width input = some (n, rest) ↔
      ∃ digits, input = digits ++ rest ∧ digits ≠ [] ∧ (∀ c ∈ digits, c.isDigit = true) ∧
        digits.length ≤ width ∧ (digits.length = width ∨ NoDigitHead rest) ∧
        n = Nat.ofDigitChars 10 digits 0 := by
  constructor
  · intro h
    obtain ⟨split, all, fits, ends⟩ := spanDigits_spec width input
    rw [scanNumber] at h
    simp only at h
    split at h
    · cases h
    · next nonempty =>
        cases h
        exact ⟨_, split, nonempty, all, fits, ends, rfl⟩
  · rintro ⟨digits, rfl, nonempty, all, fits, ends, rfl⟩
    rw [scanNumber, spanDigits_append all fits ends]
    exact if_neg nonempty

/-! ## A conversion -/

theorem isSpace_of_isDigit {c : Char} (digit : c.isDigit = true) : isSpace c = false := by
  rw [isSpace, decide_eq_false_iff_not]
  rintro (rfl | rfl | rfl | rfl | rfl | rfl) <;> exact absurd digit (by decide)

theorem Numeral.mem {numeral : List Char} {n : ℤ} (h : Numeral numeral n) {c : Char}
    (hc : c ∈ numeral) : c = '+' ∨ c = '-' ∨ c.isDigit = true := by
  cases h with
  | plain _ all => exact Or.inr (Or.inr (all c hc))
  | plus _ all => exact (List.mem_cons.mp hc).imp_right fun digit => Or.inr (all c digit)
  | minus _ all => exact Or.inr ((List.mem_cons.mp hc).imp_right (all c))

theorem notMem_blanks {blanks : List Char} (blank : ∀ d ∈ blanks, isSpace d = true) {c : Char}
    (space : isSpace c = false) : c ∉ blanks := by
  intro hc
  rw [blank c hc] at space
  cases space

theorem Numeral.notMem {numeral : List Char} {n : ℤ} (h : Numeral numeral n) {c : Char}
    (plus : c ≠ '+') (minus : c ≠ '-') (digit : c.isDigit = false) : c ∉ numeral := by
  intro hc
  rcases h.mem hc with isPlus | isMinus | isDigit
  · exact plus isPlus
  · exact minus isMinus
  · rw [isDigit] at digit
    cases digit

/-- A numeral does not start with white space. -/
theorem Numeral.head {numeral : List Char} {n : ℤ} (h : Numeral numeral n) :
    ∃ c cs, numeral = c :: cs ∧ isSpace c = false := by
  cases h with
  | plain nonempty all =>
      obtain ⟨c, cs, rfl⟩ := List.exists_cons_of_ne_nil nonempty
      exact ⟨c, cs, rfl, isSpace_of_isDigit (all c List.mem_cons_self)⟩
  | plus => exact ⟨'+', _, rfl, by decide⟩
  | minus => exact ⟨'-', _, rfl, by decide⟩

theorem scanSigned_plain {width : ℕ} {c : Char} (digit : c.isDigit = true)
    (input : List Char) :
    scanSigned width (c :: input) =
      (scanNumber width (c :: input)).map fun (n, rest) => ((n : ℤ), rest) := by
  unfold scanSigned
  split
  · next same => exact absurd ((List.cons.inj same).1 ▸ digit) (by decide)
  · next same => exact absurd ((List.cons.inj same).1 ▸ digit) (by decide)
  · rfl

/-- A number with its sign is a numeral, and the longest there is. -/
theorem scanSigned_eq_some_iff {width : ℕ} {input rest : List Char} {n : ℤ} :
    scanSigned width input = some (n, rest) ↔
      ∃ numeral, input = numeral ++ rest ∧ Numeral numeral n ∧ numeral.length ≤ width ∧
        (numeral.length = width ∨ NoDigitHead rest) := by
  constructor
  · intro h
    unfold scanSigned at h
    split at h
    · obtain ⟨⟨m, rest'⟩, number, same⟩ := Option.map_eq_some_iff.mp h
      cases same
      obtain ⟨digits, rfl, nonempty, all, fits, ends, rfl⟩ :=
        scanNumber_eq_some_iff.mp number
      have := List.length_pos_iff.mpr nonempty
      refine ⟨_, rfl, Numeral.minus nonempty all, ?_, ends.imp_left fun full => ?_⟩ <;>
        simp only [List.length_cons] <;> omega
    · obtain ⟨⟨m, rest'⟩, number, same⟩ := Option.map_eq_some_iff.mp h
      cases same
      obtain ⟨digits, rfl, nonempty, all, fits, ends, rfl⟩ :=
        scanNumber_eq_some_iff.mp number
      have := List.length_pos_iff.mpr nonempty
      refine ⟨_, rfl, Numeral.plus nonempty all, ?_, ends.imp_left fun full => ?_⟩ <;>
        simp only [List.length_cons] <;> omega
    · obtain ⟨⟨m, rest'⟩, number, same⟩ := Option.map_eq_some_iff.mp h
      cases same
      obtain ⟨digits, rfl, nonempty, all, fits, ends, rfl⟩ :=
        scanNumber_eq_some_iff.mp number
      exact ⟨_, rfl, Numeral.plain nonempty all, fits, ends⟩
  · rintro ⟨numeral, rfl, isNumeral, fits, ends⟩
    cases isNumeral with
    | @plain digits nonempty all =>
        obtain ⟨c, cs, rfl⟩ := List.exists_cons_of_ne_nil nonempty
        have number := scanNumber_eq_some_iff.mpr
          ⟨c :: cs, rfl, nonempty, all, fits, ends, rfl⟩
        rw [List.cons_append, scanSigned_plain (all c List.mem_cons_self),
          ← List.cons_append, number]
        rfl
    | @plus digits nonempty all =>
        have number := scanNumber_eq_some_iff.mpr
          ⟨digits, rfl, nonempty, all, Nat.le_sub_one_of_lt fits,
            ends.imp_left fun full => by rw [← full]; rfl, rfl⟩
        rw [List.cons_append, scanSigned, number]
        rfl
    | @minus digits nonempty all =>
        have number := scanNumber_eq_some_iff.mpr
          ⟨digits, rfl, nonempty, all, Nat.le_sub_one_of_lt fits,
            ends.imp_left fun full => by rw [← full]; rfl, rfl⟩
        rw [List.cons_append, scanSigned, number]
        rfl

/-- **What `%<width>d` converts.** -/
theorem scanInt_eq_some_iff {width : ℕ} {input rest : List Char} {n : ℤ} :
    scanInt width input = some (n, rest) ↔
      ∃ blanks numeral, input = blanks ++ (numeral ++ rest) ∧
        (∀ c ∈ blanks, isSpace c = true) ∧ Numeral numeral n ∧ numeral.length ≤ width ∧
        (numeral.length = width ∨ NoDigitHead rest) := by
  rw [scanInt, scanSigned_eq_some_iff]
  constructor
  · rintro ⟨numeral, split, isNumeral, fits, ends⟩
    refine ⟨input.takeWhile isSpace, numeral, ?_, ?_, isNumeral, fits, ends⟩
    · rw [← split, List.takeWhile_append_dropWhile]
    · exact fun c hc => List.mem_takeWhile_imp hc
  · rintro ⟨blanks, numeral, rfl, blank, isNumeral, fits, ends⟩
    refine ⟨numeral, ?_, isNumeral, fits, ends⟩
    obtain ⟨c, cs, rfl, visible⟩ := isNumeral.head
    rw [List.dropWhile_append_of_pos blank, List.cons_append,
      List.dropWhile_cons_of_neg (by rw [visible]; decide)]

/-! ## Formats -/

theorem scan_literals (word : List Char) (format : List Directive) (rest : List Char) :
    scan (word.map .literal ++ format) (word ++ rest) = scan format rest := by
  induction word with
  | nil => rfl
  | cons c word ih =>
      show (if c = c then scan (word.map .literal ++ format) (word ++ rest) else []) = _
      rw [if_pos rfl, ih]

/-- A format that begins with a word converts nothing unless the input does. -/
theorem exists_append_of_scan_literals (word : List Char) {format : List Directive}
    {input : List Char} (h : scan (word.map .literal ++ format) input ≠ []) :
    ∃ rest, input = word ++ rest := by
  induction word generalizing input with
  | nil => exact ⟨input, rfl⟩
  | cons c word ih =>
      cases input with
      | nil => exact absurd rfl h
      | cons c' input =>
          rw [List.map_cons, List.cons_append, scan] at h
          split at h
          · next same =>
              obtain ⟨rest, rfl⟩ := ih h
              exact ⟨rest, by rw [same, List.cons_append]⟩
          · exact absurd rfl h

/-- White space before `%<width>d` makes no difference. -/
theorem scan_space_int (width : ℕ) (format : List Directive) (input : List Char) :
    scan (.space :: .int width :: format) input = scan (.int width :: format) input := by
  rw [scan, scan, scan, scanInt, scanInt, List.dropWhile_idempotent]

end Scanning
