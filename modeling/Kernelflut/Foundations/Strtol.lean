import Kernelflut.Foundations.Scanning
import Mathlib.Algebra.Order.Ring.Int

/-!
# `strtol`, `strtoul` and `atoi`

The conversions of the C library for a `long` of 64 bits, as far as a caller sees
them that does not ask where the number ended.  White space is skipped, then the
longest numeral is converted, with 0 for a text that has none; what follows it is
ignored.  A number out of range gives the limit of the range, and for `strtoul` a
minus sign is a negation modulo `2 ^ 64`.

`atoi` keeps the low 32 bits of a `strtol`, as an `int`.

The written numbers are described without the conversions: `DecimalText` and
`HexText` say that a text is a numeral from its first to its last character.  On
these, `atoi_decimalText` and `strtoul16_hexText` say which range is converted as
it is written.
-/

namespace Strtol

open Scanning Text

/-! ## Decimal -/

/-- `strtol(text, NULL, 10)` -/
def strtol10 (text : List Char) : ℤ :=
  match scanInt text.length text with
  | none => 0
  | some (z, _) => if z < -2 ^ 63 then -2 ^ 63 else if 2 ^ 63 ≤ z then 2 ^ 63 - 1 else z

/-- `atoi(text)` -/
def atoi (text : List Char) : ℤ := (strtol10 text).bmod (2 ^ 32)

theorem atoi_range (text : List Char) : -2147483648 ≤ atoi text ∧ atoi text ≤ 2147483647 := by
  have lower := Int.le_bmod (x := strtol10 text) (show 0 < 2 ^ 32 by norm_num)
  have upper := Int.bmod_lt (x := strtol10 text) (show 0 < 2 ^ 32 by norm_num)
  rw [atoi]
  norm_num at lower upper ⊢
  omega

/-- The text is a decimal number, perhaps after white space. -/
def DecimalText (text : List Char) (z : ℤ) : Prop :=
  ∃ blanks numeral, text = blanks ++ numeral ∧ (∀ c ∈ blanks, isSpace c = true) ∧
    Numeral numeral z

/-- The characters of a decimal number. -/
theorem DecimalText.notMem {text : List Char} {z : ℤ} (written : DecimalText text z) {c : Char}
    (space : isSpace c = false) (sign : c ≠ '+' ∧ c ≠ '-') (digit : c.isDigit = false) :
    c ∉ text := by
  obtain ⟨blanks, numeral, rfl, blank, isNumeral⟩ := written
  rw [List.mem_append, not_or]
  exact ⟨notMem_blanks blank space, isNumeral.notMem sign.1 sign.2 digit⟩

theorem scanInt_decimalText {text : List Char} {z : ℤ} (written : DecimalText text z) :
    scanInt text.length text = some (z, []) := by
  obtain ⟨blanks, numeral, rfl, blank, isNumeral⟩ := written
  refine scanInt_eq_some_iff.mpr
    ⟨blanks, numeral, by rw [List.append_nil], blank, isNumeral, ?_, Or.inr ?_⟩
  · rw [List.length_append]
    exact Nat.le_add_left _ _
  · intro c hc
    cases hc

/-- **An `int` is converted as it is written.** -/
theorem atoi_decimalText {text : List Char} {z : ℤ} (written : DecimalText text z)
    (lower : -2147483648 ≤ z) (upper : z ≤ 2147483647) : atoi text = z := by
  rw [atoi, strtol10, scanInt_decimalText written]
  simp only [if_neg (show ¬ z < -2 ^ 63 by omega), if_neg (show ¬ 2 ^ 63 ≤ z by omega)]
  apply Int.bmod_eq_of_le
  · norm_num
    omega
  · norm_num
    omega

/-! ## Hexadecimal -/

def isHexDigit (c : Char) : Bool := (hexValue c).isSome

/-- A sign, and whether it is a minus. -/
def splitSign : List Char → Bool × List Char
  | '-' :: text => (true, text)
  | '+' :: text => (false, text)
  | text => (false, text)

/-- `0x` in front of a digit. -/
def skipPrefix : List Char → List Char
  | '0' :: x :: c :: text =>
      if (x = 'x' ∨ x = 'X') ∧ isHexDigit c then c :: text else '0' :: x :: c :: text
  | text => text

/-- The sign and the number at the front. -/
def scanHex (text : List Char) : Bool × ℕ :=
  let (negative, text) := splitSign (text.dropWhile isSpace)
  (negative, (readHex ((skipPrefix text).takeWhile isHexDigit)).getD 0)

/-- `strtoul(text, NULL, 16)` -/
def strtoul16 (text : List Char) : ℕ :=
  let (negative, n) := scanHex text
  if 2 ^ 64 ≤ n then 2 ^ 64 - 1 else if negative then (2 ^ 64 - n) % 2 ^ 64 else n

/-- A hexadecimal number, with or without the prefix. -/
inductive HexNumeral : List Char → ℕ → Prop
  | plain {digits : List Char} {n : ℕ} : digits ≠ [] → readHex digits = some n →
      HexNumeral digits n
  | prefixed {x : Char} {digits : List Char} {n : ℕ} : x = 'x' ∨ x = 'X' → digits ≠ [] →
      readHex digits = some n → HexNumeral ('0' :: x :: digits) n

/-- A sign, or none. -/
inductive Sign : List Char → Bool → Prop
  | none : Sign [] false
  | plus : Sign ['+'] false
  | minus : Sign ['-'] true

/-- The text is a hexadecimal number, perhaps after white space and a sign. -/
def HexText (text : List Char) (z : ℤ) : Prop :=
  ∃ blanks sign negative numeral n, text = blanks ++ (sign ++ numeral) ∧
    (∀ c ∈ blanks, isSpace c = true) ∧ Sign sign negative ∧ HexNumeral numeral n ∧
    z = if negative then -(n : ℤ) else n

theorem isHexDigit_of_readHex {token : List Char} {n : ℕ} (h : readHex token = some n) :
    ∀ c ∈ token, isHexDigit c = true := by
  have digits : ∀ m, (token.foldlM (fun n c => (hexValue c).map (16 * n + ·)) m).isSome →
      ∀ c ∈ token, isHexDigit c = true := by
    clear h
    induction token with
    | nil => simp
    | cons c token ih =>
        intro m some
        rw [List.foldlM_cons] at some
        cases value : hexValue c with
        | none => simp [value] at some
        | some d =>
            rintro c' (_ | ⟨_, hc'⟩)
            · rw [isHexDigit, value]
              rfl
            · exact ih _ (by simpa [value] using some) c' hc'
  exact digits 0 (by rw [← readHex, h]; rfl)

theorem ne_of_isHexDigit {c d : Char} (digit : isHexDigit c = true)
    (other : isHexDigit d = false) : c ≠ d := by
  rintro rfl
  rw [other] at digit
  cases digit

theorem isSpace_of_isHexDigit {c : Char} (digit : isHexDigit c = true) : isSpace c = false := by
  rw [isSpace, decide_eq_false_iff_not]
  rintro (rfl | rfl | rfl | rfl | rfl | rfl) <;> exact ne_of_isHexDigit digit rfl rfl

/-- A numeral starts with a digit. -/
theorem HexNumeral.head {numeral : List Char} {n : ℕ} (h : HexNumeral numeral n) :
    ∃ c cs, numeral = c :: cs ∧ isHexDigit c = true := by
  cases h with
  | plain nonempty number =>
      obtain ⟨c, cs, rfl⟩ := List.exists_cons_of_ne_nil nonempty
      exact ⟨c, cs, rfl, isHexDigit_of_readHex number c List.mem_cons_self⟩
  | prefixed => exact ⟨'0', _, rfl, by decide⟩

theorem splitSign_append {sign numeral : List Char} {negative : Bool} {n : ℕ}
    (isSign : Sign sign negative) (isNumeral : HexNumeral numeral n) :
    splitSign (sign ++ numeral) = (negative, numeral) := by
  cases isSign with
  | plus | minus => rfl
  | none =>
      obtain ⟨c, cs, rfl, digit⟩ := isNumeral.head
      have minus : c ≠ '-' := ne_of_isHexDigit digit rfl
      have plus : c ≠ '+' := ne_of_isHexDigit digit rfl
      simp [splitSign, minus, plus]

/-- Without its prefix a numeral is its digits. -/
theorem readHex_skipPrefix {numeral : List Char} {n : ℕ} (h : HexNumeral numeral n) :
    readHex ((skipPrefix numeral).takeWhile isHexDigit) = some n := by
  have whole : ∀ {digits : List Char}, readHex digits = some n →
      digits.takeWhile isHexDigit = digits := fun number =>
    List.takeWhile_eq_self_iff.mpr (isHexDigit_of_readHex number)
  cases h with
  | plain nonempty number =>
      have kept : skipPrefix numeral = numeral := by
        unfold skipPrefix
        split
        · next x c text =>
            have digit := isHexDigit_of_readHex number x (by simp)
            have lower : x ≠ 'x' := ne_of_isHexDigit digit rfl
            have upper : x ≠ 'X' := ne_of_isHexDigit digit rfl
            simp [lower, upper]
        · rfl
      rw [kept, whole number, number]
  | @prefixed x digits _ letter nonempty number =>
      obtain ⟨c, cs, rfl⟩ := List.exists_cons_of_ne_nil nonempty
      have digit := isHexDigit_of_readHex number c List.mem_cons_self
      rw [skipPrefix, if_pos ⟨letter, digit⟩, whole number, number]

theorem scanHex_hexText {text : List Char} {z : ℤ} (written : HexText text z) :
    ∃ negative n, scanHex text = (negative, n) ∧ z = if negative then -(n : ℤ) else n := by
  obtain ⟨blanks, sign, negative, numeral, n, rfl, blank, isSign, isNumeral, value⟩ := written
  refine ⟨negative, n, ?_, value⟩
  have visible : (sign ++ numeral).dropWhile isSpace = sign ++ numeral := by
    cases isSign with
    | plus | minus => rfl
    | none =>
        obtain ⟨c, cs, rfl, digit⟩ := isNumeral.head
        rw [List.nil_append, List.dropWhile_cons_of_neg]
        rw [isSpace_of_isHexDigit digit]
        exact Bool.false_ne_true
  rw [scanHex, List.dropWhile_append_of_pos blank, visible,
    splitSign_append isSign isNumeral]
  simp only [readHex_skipPrefix isNumeral, Option.getD_some]

/-- The characters of a hexadecimal number. -/
theorem HexText.notMem {text : List Char} {z : ℤ} (written : HexText text z) {c : Char}
    (space : isSpace c = false) (sign : c ≠ '+' ∧ c ≠ '-') (letter : c ≠ 'x' ∧ c ≠ 'X')
    (digit : isHexDigit c = false) : c ∉ text := by
  obtain ⟨blanks, signs, negative, numeral, n, rfl, blank, isSign, isNumeral, -⟩ := written
  have notDigit : ∀ {digits : List Char} {m : ℕ}, readHex digits = some m → c ∉ digits := by
    intro digits m number hc
    rw [isHexDigit_of_readHex number c hc] at digit
    cases digit
  simp only [List.mem_append, not_or]
  refine ⟨notMem_blanks blank space, fun hc => ?_, fun hc => ?_⟩
  · cases isSign with
    | none => cases hc
    | plus => exact sign.1 (List.mem_singleton.mp hc)
    | minus => exact sign.2 (List.mem_singleton.mp hc)
  · cases isNumeral with
    | plain _ number => exact notDigit number hc
    | prefixed isLetter _ number =>
        rcases hc with _ | ⟨_, _ | ⟨_, hc⟩⟩
        · exact absurd digit (by decide)
        · exact isLetter.elim letter.1 letter.2
        · exact notDigit number hc

/-- **An unsigned 64-bit number is converted as it is written.** -/
theorem strtoul16_hexText {text : List Char} {z : ℤ} (written : HexText text z)
    (nonneg : 0 ≤ z) (below : z < 2 ^ 64) : (strtoul16 text : ℤ) = z := by
  obtain ⟨negative, n, scanned, value⟩ := scanHex_hexText written
  rw [strtoul16, scanned]
  cases negative with
  | false =>
      obtain rfl : z = n := value
      have small : ¬ 2 ^ 64 ≤ n := by omega
      simp only [if_neg small, Bool.false_eq_true, if_false]
  | true =>
      -- Only a zero has a minus sign here.
      obtain rfl : z = -(n : ℤ) := value
      obtain rfl : n = 0 := by omega
      rfl

end Strtol
