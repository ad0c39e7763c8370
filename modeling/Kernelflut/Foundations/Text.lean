import Mathlib.Data.Int.Basic
import Mathlib.Data.List.Basic
import Mathlib.Tactic.Ring

/-!
# Text protocols

Lines that end with a separator, decimal integers and hexadecimal digits, each
printed and read back.  A byte is written as the `Char` with its code.

* `splitOn_terminated` — a stream of complete lines splits into these lines;
* `readInt_decimal` — a printed integer reads back, whatever its sign and size;
* `readHex_append_hexPadded` — so do numbers printed with leading zeros, one
  after the other, in fields that are wide enough, and each fills its field
  exactly (`length_hexPadded`).
-/

namespace Text

universe u

/-! ## Lines -/

section Lines

variable {α : Type u} [DecidableEq α] {sep : α}

/-- The lines one after the other, each ended by the separator. -/
def terminated (sep : α) (lines : List (List α)) : List α :=
  lines.flatMap (· ++ [sep])

omit [DecidableEq α] in
@[simp] theorem terminated_nil : terminated sep [] = [] := rfl

omit [DecidableEq α] in
@[simp] theorem terminated_cons (line : List α) (lines : List (List α)) :
    terminated sep (line :: lines) = line ++ sep :: terminated sep lines := by
  simp [terminated]

omit [DecidableEq α] in
theorem terminated_append (lines lines' : List (List α)) :
    terminated sep (lines ++ lines') = terminated sep lines ++ terminated sep lines' :=
  List.flatMap_append

/-- **Splitting at the separator** gives the lines back, and nothing after the
last one. -/
theorem splitOn_terminated {lines : List (List α)} (clean : ∀ line ∈ lines, sep ∉ line) :
    (terminated sep lines).splitOn sep = lines ++ [[]] := by
  induction lines with
  | nil => exact List.splitOn_nil sep
  | cons line lines ih =>
      rw [terminated_cons, List.splitOn_append_cons_self_of_not_mem
        (clean line List.mem_cons_self), ih fun l hl => clean l (List.mem_cons_of_mem _ hl)]
      rfl

end Lines

/-! ## Decimal integers -/

/-- `%d`. -/
def decimal (z : ℤ) : List Char :=
  if z < 0 then '-' :: Nat.toDigits 10 z.natAbs else Nat.toDigits 10 z.natAbs

/-- A number: digits, at least one. -/
def readNat (token : List Char) : Option ℕ :=
  if token ≠ [] ∧ token.all Char.isDigit then some (Nat.ofDigitChars 10 token 0) else none

/-- An integer: a number, perhaps after a minus sign. -/
def readInt : List Char → Option ℤ
  | '-' :: token => (readNat token).map fun n : ℕ => -(n : ℤ)
  | token => (readNat token).map fun n : ℕ => (n : ℤ)

theorem isDigit_of_mem_toDigits {n : ℕ} {c : Char} (h : c ∈ Nat.toDigits 10 n) :
    c.isDigit = true :=
  Nat.isDigit_of_mem_toDigits (by decide) (by decide) h

theorem readNat_toDigits (n : ℕ) : readNat (Nat.toDigits 10 n) = some n := by
  have digits : (Nat.toDigits 10 n).all Char.isDigit = true :=
    List.all_eq_true.mpr fun c hc => isDigit_of_mem_toDigits hc
  rw [readNat, if_pos ⟨Nat.toDigits_ne_nil, digits⟩, Nat.ofDigitChars_ten_toDigits]

/-- The first digit is not taken for a sign. -/
theorem readInt_toDigits (n : ℕ) : readInt (Nat.toDigits 10 n) = some (n : ℤ) := by
  have number := readNat_toDigits n
  unfold readInt
  split
  · next token signed =>
      have := @isDigit_of_mem_toDigits n '-' (signed ▸ List.mem_cons_self)
      exact absurd this (by decide)
  · rw [number]
    rfl

/-- **Decimal integers read back.** -/
theorem readInt_decimal (z : ℤ) : readInt (decimal z) = some z := by
  unfold decimal
  split
  · next negative =>
      rw [readInt, readNat_toDigits, Option.map_some, Option.some.injEq]
      omega
  · next nonneg =>
      rw [readInt_toDigits, Option.some.injEq]
      omega

/-- The characters of a decimal integer. -/
theorem mem_decimal {z : ℤ} {c : Char} (h : c ∈ decimal z) : c = '-' ∨ c.isDigit = true := by
  unfold decimal at h
  split at h
  · exact (List.mem_cons.mp h).imp_right isDigit_of_mem_toDigits
  · exact Or.inr (isDigit_of_mem_toDigits h)

theorem notMem_decimal {z : ℤ} {c : Char} (sign : c ≠ '-') (digit : c.isDigit = false) :
    c ∉ decimal z := by
  intro h
  rcases mem_decimal h with rfl | isDigit
  · exact sign rfl
  · rw [digit] at isDigit
    cases isDigit

/-- The sign takes one character more. -/
theorem length_decimal_le {z : ℤ} {k : ℕ} (pos : 0 < k) (below : z.natAbs < 10 ^ k) :
    (decimal z).length ≤ k + 1 := by
  have digits : (Nat.toDigits 10 z.natAbs).length ≤ k :=
    (Nat.length_toDigits_le_iff (by decide) pos).mpr below
  unfold decimal
  split
  · exact Nat.succ_le_succ digits
  · exact digits.trans (Nat.le_succ k)

/-! ## Hexadecimal digits -/

/-- The value of a hexadecimal digit, of either case. -/
def hexValue (c : Char) : Option ℕ :=
  if '0' ≤ c ∧ c ≤ '9' then some (c.toNat - '0'.toNat)
  else if 'a' ≤ c ∧ c ≤ 'f' then some (c.toNat - 'a'.toNat + 10)
  else if 'A' ≤ c ∧ c ≤ 'F' then some (c.toNat - 'A'.toNat + 10)
  else none

/-- The number that hexadecimal digits spell. -/
def readHex (token : List Char) : Option ℕ :=
  token.foldlM (fun n c => (hexValue c).map (16 * n + ·)) 0

/-- `%0<width>x`, of a number that fits the field. -/
def hexPadded : (width n : ℕ) → List Char
  | 0, _ => []
  | width + 1, n => hexPadded width (n / 16) ++ [Nat.digitChar (n % 16)]

theorem length_hexPadded (width n : ℕ) : (hexPadded width n).length = width := by
  induction width generalizing n with
  | zero => rfl
  | succ width ih => rw [hexPadded, List.length_append, ih]; rfl

theorem hexValue_digitChar : ∀ d < 16, hexValue (Nat.digitChar d) = some d := by decide

/-- The characters of a hexadecimal field. -/
theorem notMem_hexPadded {c : Char} (other : hexValue c = none) (width n : ℕ) :
    c ∉ hexPadded width n := by
  induction width generalizing n with
  | zero => exact List.not_mem_nil
  | succ width ih =>
      rw [hexPadded, List.mem_append, List.mem_singleton]
      rintro (front | rfl)
      · exact ih _ front
      · rw [hexValue_digitChar _ (Nat.mod_lt n (by decide))] at other
        cases other

theorem readHex_append_digit {token : List Char} {n d : ℕ} (h : readHex token = some n)
    (hd : d < 16) : readHex (token ++ [Nat.digitChar d]) = some (16 * n + d) := by
  unfold readHex at h ⊢
  rw [List.foldlM_append, h]
  simp [hexValue_digitChar d hd]

/-- **Hexadecimal fields read back**, after whatever digits come before. -/
theorem readHex_append_hexPadded {token : List Char} {n : ℕ} (h : readHex token = some n)
    {width m : ℕ} (fits : m < 16 ^ width) :
    readHex (token ++ hexPadded width m) = some (16 ^ width * n + m) := by
  induction width generalizing m with
  | zero =>
      obtain rfl : m = 0 := by simpa using fits
      simpa [hexPadded] using h
  | succ width ih =>
      have quotient : m / 16 < 16 ^ width := by
        rw [Nat.div_lt_iff_lt_mul (by decide), ← pow_succ]
        exact fits
      rw [hexPadded, ← List.append_assoc,
        readHex_append_digit (ih quotient) (Nat.mod_lt m (by decide)), Option.some.injEq]
      calc 16 * (16 ^ width * n + m / 16) + m % 16
          = 16 ^ (width + 1) * n + (16 * (m / 16) + m % 16) := by ring
        _ = 16 ^ (width + 1) * n + m := by rw [Nat.div_add_mod]

end Text
