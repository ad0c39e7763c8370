import Kernelflut.Foundations.Scanning
import Kernelflut.Pixelflut.Pool
import Kernelflut.Pixelflut.Protocol

/-!
# The answer to a size request

After the request is written, `pf_size` reads byte by byte into a buffer of 32
characters until it sees a newline, and hands the buffer to `sscanf`.  The input
of the model is everything the connection still delivers before it ends.

Two designs show in `pfSize_stream`.  The buffer is bounded, so a line of more
than 31 characters is given up after 32 of them, the rest of it still unread.
And `sscanf` is lenient: white space in its format matches none as well, a field
of 12 characters ends a numeral, what follows the second numeral is not looked
at, and a number too large for an `int` is converted all the same.

How such a number is stored is not the business of this development; `toInt`
stands for it, and is only known not to change what an `int` can hold.
-/

namespace Kernelflut.Pixelflut

open Scanning Text

universe u

variable {B : Type u}

/-- `read_until(fd, sep, buf, buf_len)`: the characters before the separator, if
it was reached, and what is left to read. -/
def readUntil (sep : Char) : (bufLen : ℕ) → List Char → Option (List Char) × List Char
  | 0, input => (none, input)
  | _ + 1, [] => (none, [])
  | bufLen + 1, c :: input =>
      if c = sep then (some [], input)
      else
        let (buf, rest) := readUntil sep bufLen input
        (buf.map (c :: ·), rest)

/-- What a C function sees of a buffer: the characters before the first NUL. -/
def cString (buf : List Char) : List Char := buf.takeWhile (· ≠ '\x00')

/-- `"SIZE %12d %12d\n"` -/
def sizeFormat : List Directive :=
  sizeLine.map .literal ++ [.space, .int 12, .space, .int 12, .space]

/-- `pf_size` from `read_until` on: how the exchange ends, and what is left to
read on the connection. -/
def sizeExchange (toInt : ℤ → ℤ) (input : List Char) : SizeReply × List Char :=
  match readUntil '\n' 32 input with
  | (none, rest) => (.readFails, rest)
  | (some buf, rest) =>
      match scan sizeFormat (cString buf) with
      | [w, h] => (.size (toInt w) (toInt h), rest)
      | _ => (.malformed, rest)

/-- An `int`. -/
def IsInt (z : ℤ) : Prop := -2147483648 ≤ z ∧ z ≤ 2147483647

instance (z : ℤ) : Decidable (IsInt z) :=
  inferInstanceAs (Decidable (-2147483648 ≤ z ∧ z ≤ 2147483647))

/-! ## Reading a line -/

section ReadUntil

variable {sep : Char} {bufLen : ℕ}

/-- A line that fits, separator included, is read to its end. -/
theorem readUntil_line {line : List Char} (clean : sep ∉ line) (fits : line.length < bufLen)
    (rest : List Char) : readUntil sep bufLen (line ++ sep :: rest) = (some line, rest) := by
  induction line generalizing bufLen with
  | nil =>
      cases bufLen with
      | zero => cases fits
      | succ bufLen => simp [readUntil]
  | cons c line ih =>
      cases bufLen with
      | zero => cases fits
      | succ bufLen =>
          have other : c ≠ sep := fun same => clean (same ▸ List.mem_cons_self)
          rw [List.cons_append, readUntil, if_neg other,
            ih (fun h => clean (List.mem_cons_of_mem _ h)) (Nat.lt_of_succ_lt_succ fits)]
          rfl

/-- Otherwise the buffer is filled, or the input is at its end. -/
theorem readUntil_no_line {input : List Char} (beyond : sep ∉ input.take bufLen) :
    readUntil sep bufLen input = (none, input.drop bufLen) := by
  induction bufLen generalizing input with
  | zero => rfl
  | succ bufLen ih =>
      cases input with
      | nil => rfl
      | cons c input =>
          rw [List.take_succ_cons, List.mem_cons, not_or] at beyond
          rw [readUntil, if_neg (Ne.symm beyond.1), ih beyond.2]
          rfl

/-- A separator within reach ends a line that fits. -/
theorem exists_line {input : List Char} (h : sep ∈ input.take bufLen) :
    ∃ line rest, input = line ++ sep :: rest ∧ sep ∉ line ∧ line.length < bufLen := by
  obtain ⟨line, tail, split, clean⟩ := List.eq_append_cons_of_mem h
  refine ⟨line, tail ++ input.drop bufLen, ?_, clean, ?_⟩
  · calc input = input.take bufLen ++ input.drop bufLen := (List.take_append_drop _ _).symm
      _ = line ++ sep :: (tail ++ input.drop bufLen) := by
          rw [split, List.append_assoc, List.cons_append]
  · have bound : (input.take bufLen).length ≤ bufLen := List.length_take_le _ _
    rw [split, List.length_append, List.length_cons] at bound
    omega

end ReadUntil

/-! ## What `sscanf` accepts -/

/-- `%12d` finds the numeral `num` before `rest`: it is not too long, and it is
cut off at 12 characters or ends where the digits do. -/
def SizeField (num : List Char) (z : ℤ) (rest : List Char) : Prop :=
  Numeral num z ∧ num.length ≤ 12 ∧ (num.length = 12 ∨ NoDigitHead rest)

/-- The text that `sscanf` takes for an answer with these two numbers. -/
def Accepted (text : List Char) (w h : ℤ) : Prop :=
  ∃ blanks₁ num₁ blanks₂ num₂ rest,
    text = sizeLine ++ (blanks₁ ++ (num₁ ++ (blanks₂ ++ (num₂ ++ rest)))) ∧
      (∀ c ∈ blanks₁, isSpace c = true) ∧ SizeField num₁ w (blanks₂ ++ (num₂ ++ rest)) ∧
      (∀ c ∈ blanks₂, isSpace c = true) ∧ SizeField num₂ h rest

theorem scan_sizeFormat_eq_iff {text : List Char} {w h : ℤ} :
    scan sizeFormat text = [w, h] ↔ Accepted text w h := by
  have fields : ∀ input, scan [.space, .int 12, .space, .int 12, .space] input = [w, h] ↔
      ∃ rest₁ rest₂, scanInt 12 input = some (w, rest₁) ∧
        scanInt 12 rest₁ = some (h, rest₂) := by
    intro input
    rw [scan_space_int, scan]
    cases scanInt 12 input with
    | none => simp
    | some first =>
        obtain ⟨w', rest₁⟩ := first
        simp only [scan_space_int]
        rw [scan]
        cases second : scanInt 12 rest₁ with
        | none => simp [second]
        | some found =>
            obtain ⟨h', rest₂⟩ := found
            simp [scan, second]
  constructor
  · intro scanned
    obtain ⟨input, rfl⟩ := exists_append_of_scan_literals sizeLine
      (by rw [← sizeFormat, scanned]; exact List.cons_ne_nil _ _)
    rw [sizeFormat, scan_literals, fields] at scanned
    obtain ⟨rest₁, rest₂, first, second⟩ := scanned
    obtain ⟨blanks₁, num₁, rfl, blank₁, field₁⟩ := scanInt_eq_some_iff.mp first
    obtain ⟨blanks₂, num₂, rfl, blank₂, field₂⟩ := scanInt_eq_some_iff.mp second
    exact ⟨blanks₁, num₁, blanks₂, num₂, rest₂, rfl, blank₁, field₁, blank₂, field₂⟩
  · rintro ⟨blanks₁, num₁, blanks₂, num₂, rest, rfl, blank₁, field₁, blank₂, field₂⟩
    rw [sizeFormat, scan_literals, fields]
    exact ⟨_, _, scanInt_eq_some_iff.mpr ⟨blanks₁, num₁, rfl, blank₁, field₁⟩,
      scanInt_eq_some_iff.mpr ⟨blanks₂, num₂, rfl, blank₂, field₂⟩⟩

/-- How the exchange ends when a line is there. -/
theorem sizeExchange_line (toInt : ℤ → ℤ) {line : List Char} (clean : '\n' ∉ line)
    (fits : line.length ≤ 31) (rest : List Char) :
    (sizeExchange toInt (line ++ '\n' :: rest)).2 = rest ∧
      (∀ w h, Accepted (cString line) w h →
        (sizeExchange toInt (line ++ '\n' :: rest)).1 = .size (toInt w) (toInt h)) ∧
      ((∀ w h, ¬ Accepted (cString line) w h) →
        (sizeExchange toInt (line ++ '\n' :: rest)).1 = .malformed) := by
  have buffered := readUntil_line clean (Nat.lt_succ_of_le fits) rest
  rw [sizeExchange, buffered]
  simp only
  refine ⟨?_, fun w h accepted => ?_, fun rejected => ?_⟩
  · split <;> rfl
  · rw [scan_sizeFormat_eq_iff.mpr accepted]
  · split
    · next w h scanned => exact absurd (scan_sizeFormat_eq_iff.mp scanned) (rejected w h)
    · rfl

/-- How it ends when none is. -/
theorem sizeExchange_no_line {toInt : ℤ → ℤ} {input : List Char}
    (beyond : '\n' ∉ input.take 32) :
    sizeExchange toInt input = (.readFails, input.drop 32) := by
  rw [sizeExchange, readUntil_no_line beyond]

/-! ## Lines in the documented form -/

/-- `SIZE` and two integers of type `int`, with white space before each. -/
def WellFormed (line : List Char) (w h : ℤ) : Prop :=
  ∃ blanks₁ num₁ blanks₂ num₂,
    line = sizeLine ++ (blanks₁ ++ (num₁ ++ (blanks₂ ++ num₂))) ∧
      (blanks₁ ≠ [] ∧ ∀ c ∈ blanks₁, isSpace c = true) ∧ (Numeral num₁ w ∧ IsInt w) ∧
      (blanks₂ ≠ [] ∧ ∀ c ∈ blanks₂, isSpace c = true) ∧ (Numeral num₂ h ∧ IsInt h)

/-- Such a line consists of letters, blanks, signs and digits. -/
theorem WellFormed.notMem {line : List Char} {w h : ℤ} (wellFormed : WellFormed line w h)
    {c : Char} (letter : c ∉ sizeLine) (space : isSpace c = false) (plus : c ≠ '+')
    (minus : c ≠ '-') (digit : c.isDigit = false) : c ∉ line := by
  obtain ⟨blanks₁, num₁, blanks₂, num₂, rfl, ⟨-, blank₁⟩, ⟨numeral₁, -⟩, ⟨-, blank₂⟩,
    numeral₂, -⟩ := wellFormed
  simp only [List.mem_append, not_or]
  exact ⟨letter, notMem_blanks blank₁ space, numeral₁.notMem plus minus digit,
    notMem_blanks blank₂ space, numeral₂.notMem plus minus digit⟩

/-- So it ends at no NUL. -/
theorem WellFormed.cString_eq {line : List Char} {w h : ℤ}
    (wellFormed : WellFormed line w h) : cString line = line := by
  rw [cString, List.takeWhile_eq_self_iff]
  intro c hc
  rw [decide_eq_true_iff]
  rintro rfl
  exact wellFormed.notMem (by decide) rfl (by decide) (by decide) rfl hc

/-- Numerals that fit their fields are accepted: the first one ends at a blank. -/
theorem accepted_of_fits {blanks₁ num₁ blanks₂ num₂ : List Char} {w h : ℤ}
    (blank₁ : ∀ c ∈ blanks₁, isSpace c = true) (numeral₁ : Numeral num₁ w)
    (fits₁ : num₁.length ≤ 12) (nonempty : blanks₂ ≠ [])
    (blank₂ : ∀ c ∈ blanks₂, isSpace c = true) (numeral₂ : Numeral num₂ h)
    (fits₂ : num₂.length ≤ 12) :
    Accepted (sizeLine ++ (blanks₁ ++ (num₁ ++ (blanks₂ ++ num₂)))) w h := by
  refine ⟨blanks₁, num₁, blanks₂, num₂, [], by rw [List.append_nil], blank₁,
    ⟨numeral₁, fits₁, Or.inr ?_⟩, blank₂, numeral₂, fits₂, Or.inr ?_⟩
  · obtain ⟨c, blanks, rfl⟩ := List.exists_cons_of_ne_nil nonempty
    intro d hd
    obtain rfl : c = d := Option.some.inj hd
    rw [Bool.eq_false_iff]
    intro digit
    have space : isSpace c = true := blank₂ c List.mem_cons_self
    rw [isSpace_of_isDigit digit] at space
    cases space
  · intro d hd
    cases hd

/-- Short lines in the documented form have such numerals. -/
theorem WellFormed.accepted {line : List Char} {w h : ℤ} (wellFormed : WellFormed line w h)
    (short : line.length ≤ 19) : Accepted line w h := by
  obtain ⟨blanks₁, num₁, blanks₂, num₂, rfl, ⟨nonempty₁, blank₁⟩, ⟨numeral₁, -⟩,
    ⟨nonempty₂, blank₂⟩, numeral₂, -⟩ := wellFormed
  have length₁ := List.length_pos_iff.mpr nonempty₁
  have length₂ := List.length_pos_iff.mpr nonempty₂
  obtain ⟨c₁, cs₁, num₁_eq, -⟩ := numeral₁.head
  obtain ⟨c₂, cs₂, num₂_eq, -⟩ := numeral₂.head
  have digits₁ : 0 < num₁.length := by rw [num₁_eq]; exact Nat.succ_pos _
  have digits₂ : 0 < num₂.length := by rw [num₂_eq]; exact Nat.succ_pos _
  simp only [List.length_append, show sizeLine.length = 4 from rfl] at short
  exact accepted_of_fits blank₁ numeral₁ (by omega) nonempty₂ blank₂ numeral₂ (by omega)

/-! ## A call -/

/-- **One call of `pf_size` on a stream.**  It consumes one line if that has at
most 31 characters, and 32 characters otherwise.  It succeeds if and only if
there is such a line and `sscanf` accepts it, and stores the two numbers; if it
does not succeed it stores nothing. -/
theorem pfSize_stream (toInt : ℤ → ℤ) (exact_on_int : ∀ z, IsInt z → toInt z = z)
    (c : Client B) (input : List Char) :
    let exchange := sizeExchange toInt input
    let ret := (pfSize c exchange.1).2.2.1
    let stored := (pfSize c exchange.1).2.2.2
    (∀ line rest, input = line ++ '\n' :: rest → '\n' ∉ line → line.length ≤ 31 →
        exchange.2 = rest) ∧
      ('\n' ∉ input.take 32 → exchange.2 = input.drop 32) ∧
      (ret = 0 ↔ ∃ line rest w h, input = line ++ '\n' :: rest ∧ '\n' ∉ line ∧
        line.length ≤ 31 ∧ Accepted (cString line) w h) ∧
      (∀ line rest w h, input = line ++ '\n' :: rest → '\n' ∉ line → line.length ≤ 31 →
        Accepted (cString line) w h → stored = some (toInt w, toInt h) ∧
          (IsInt w → IsInt h → stored = some (w, h))) ∧
      (ret ≠ 0 → stored = none) := by
  intro exchange ret stored
  have unchanged : ret ≠ 0 → stored = none := by
    simp only [ret, stored]
    cases exchange.1 <;> simp [pfSize]
  refine ⟨?_, ?_, ⟨?_, ?_⟩, ?_, unchanged⟩
  · rintro line rest rfl clean fits
    exact (sizeExchange_line toInt clean fits rest).1
  · intro beyond
    simp only [exchange, sizeExchange_no_line beyond]
  · intro success
    by_cases within : '\n' ∈ input.take 32
    · obtain ⟨line, rest, rfl, clean, fits⟩ := exists_line within
      by_contra rejected
      have malformed : (sizeExchange toInt (line ++ '\n' :: rest)).1 = .malformed :=
        (sizeExchange_line toInt clean (Nat.le_of_lt_succ fits) rest).2.2 fun w h accepted =>
          rejected ⟨line, rest, w, h, rfl, clean, Nat.le_of_lt_succ fits, accepted⟩
      simp only [ret, exchange, malformed, pfSize, errPfRecv] at success
      cases success
    · simp only [ret, exchange, sizeExchange_no_line within, pfSize, errPfRecv] at success
      cases success
  · rintro ⟨line, rest, w, h, rfl, clean, fits, accepted⟩
    simp only [ret, exchange, (sizeExchange_line toInt clean fits rest).2.1 w h accepted, pfSize]
  · rintro line rest w h rfl clean fits accepted
    have size : stored = some (toInt w, toInt h) := by
      simp only [stored, exchange,
        (sizeExchange_line toInt clean fits rest).2.1 w h accepted, pfSize]
    refine ⟨size, fun hw hh => ?_⟩
    rw [size, exact_on_int w hw, exact_on_int h hh]

/-- Keeping the low 32 bits, as the conversion to `int` does on common machines. -/
def wrapInt (z : ℤ) : ℤ := (z + 2147483648) % 4294967296 - 2147483648

theorem wrapInt_of_isInt {z : ℤ} (h : IsInt z) : wrapInt z = z := by
  obtain ⟨above, below⟩ := h
  rw [wrapInt]
  omega

/-- Two lines are waiting: the call takes the first one. -/
theorem pfSize_stream_two_answers :
    let answers := ['S', 'I', 'Z', 'E', ' ', '8', ' ', '6', '\n', 'S', 'I', 'Z', 'E', '\n']
    let c : Client Unit := Client.connected [3]
    (sizeExchange wrapInt answers).2 = ['S', 'I', 'Z', 'E', '\n'] ∧
      (pfSize c (sizeExchange wrapInt answers).1).2.2 = (0, some (8, 6)) := by
  intro answers c
  have line : answers = ['S', 'I', 'Z', 'E', ' ', '8', ' ', '6'] ++
      '\n' :: ['S', 'I', 'Z', 'E', '\n'] := rfl
  obtain ⟨consumed, -, success, size, -⟩ :=
    pfSize_stream wrapInt (fun _ => wrapInt_of_isInt) c answers
  have accepted : Accepted (cString ['S', 'I', 'Z', 'E', ' ', '8', ' ', '6']) 8 6 :=
    scan_sizeFormat_eq_iff.mp (by decide)
  refine ⟨consumed _ _ line (by decide) (by decide), Prod.ext ?_ ?_⟩
  · exact success.mpr ⟨_, _, 8, 6, line, by decide, by decide, accepted⟩
  · exact (size _ _ 8 6 line (by decide) (by decide) accepted).2 (by decide) (by decide)

/-- The call stays in step with a stream of lines, and succeeds exactly on those in
the documented form. -/
def InStep (toInt : ℤ → ℤ) (c : Client B) (line rest : List Char) : Prop :=
  let exchange := sizeExchange toInt (line ++ '\n' :: rest)
  let ret := (pfSize c exchange.1).2.2.1
  let stored := (pfSize c exchange.1).2.2.2
  exchange.2 = rest ∧ (ret = 0 ↔ ∃ w h, WellFormed line w h) ∧
    (∀ w h, WellFormed line w h → stored = some (w, h)) ∧ (ret ≠ 0 → stored = none)

/-- An answer with 28 blanks is given up half read; answers with something after the
numbers, no white space before them, or a number beyond `int` are taken. -/
theorem not_inStep :
    let c : Client Unit := Client.connected [3]
    ¬ InStep wrapInt c
        (sizeLine ++ (List.replicate 28 ' ' ++ (['8'] ++ ([' '] ++ ['6'])))) [] ∧
      ¬ InStep wrapInt c ['S', 'I', 'Z', 'E', ' ', '8', ' ', '6', '!'] [] ∧
      ¬ InStep wrapInt c ['S', 'I', 'Z', 'E', '8', ' ', '6'] [] ∧
      ¬ InStep wrapInt c
        ['S', 'I', 'Z', 'E', ' ', '4', '2', '9', '4', '9', '6', '7', '2', '9', '6', ' ', '6']
        [] := by
  intro c
  refine ⟨fun inStep => ?_, fun inStep => ?_, fun inStep => ?_, fun inStep => ?_⟩
  · exact absurd inStep.1 (by decide)
  · obtain ⟨w, h, wellFormed⟩ := inStep.2.1.mp (by decide)
    have foreign : '!' ∉ ['S', 'I', 'Z', 'E', ' ', '8', ' ', '6', '!'] :=
      wellFormed.notMem (by decide) rfl (by decide) (by decide) rfl
    exact absurd foreign (by decide)
  · obtain ⟨w, h, blanks₁, num₁, blanks₂, num₂, line, ⟨nonempty, blank⟩, -⟩ :=
      inStep.2.1.mp (by decide)
    obtain ⟨b, blanks, rfl⟩ := List.exists_cons_of_ne_nil nonempty
    have first : '8' = b := by
      injection line with _ line; injection line with _ line
      injection line with _ line; injection line with _ line
      injection line
    subst first
    exact absurd (blank '8' List.mem_cons_self) (by decide)
  · obtain ⟨w, h, wellFormed⟩ := inStep.2.1.mp (by decide)
    have scanned := scan_sizeFormat_eq_iff.mpr (wellFormed.accepted (by decide))
    obtain ⟨-, -, -, -, -, -, ⟨-, isInt⟩, -⟩ := wellFormed
    obtain rfl : 4294967296 = w := (List.cons.inj scanned).1
    exact absurd isInt (by decide)

end Kernelflut.Pixelflut
