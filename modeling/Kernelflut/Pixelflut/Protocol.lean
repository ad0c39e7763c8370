import Kernelflut.Foundations.Text
import Kernelflut.Pixelflut.Pixel

/-!
# The pixelflut protocol

A client asks for the size of the screen, or sets a pixel; a request is a line.
This is the server's side of it, the grammar

    SIZE
    PX <decimal integer> <decimal integer> <six hex digits>

and next to it the two format strings with which `pixelflut.c` prints its
requests.  `decode_terminated` is the round trip for a whole stream: whatever
requests are printed one after the other, splitting the bytes at newlines and
parsing each line gives these requests.
-/

namespace Kernelflut.Pixelflut

open Text

/-- A request, as the server understands it. -/
inductive Request where
  | size
  | px (x y : ℤ) (colour : Colour)
  deriving DecidableEq, Repr

/-! ## The grammar -/

/-- Six hexadecimal digits. -/
def readColour (token : List Char) : Option Colour :=
  if token.length = 6 then (readHex token).map (BitVec.ofNat 24) else none

/-- A line, without its newline. -/
def parseRequest (line : List Char) : Option Request :=
  match line.splitOn ' ' with
  | [keyword] => if keyword = ['S', 'I', 'Z', 'E'] then some .size else none
  | [keyword, x, y, rrggbb] =>
      if keyword = ['P', 'X'] then do
        let x ← readInt x
        let y ← readInt y
        let colour ← readColour rrggbb
        return .px x y colour
      else none
  | _ => none

/-- A stream of bytes, if all of its lines are complete requests. -/
def decode (stream : List Char) : Option (List Request) :=
  let pieces := stream.splitOn '\n'
  if pieces.getLast? = some [] then pieces.dropLast.mapM parseRequest else none

/-! ## The format strings -/

/-- `"SIZE\n"`, without the newline. -/
def sizeLine : List Char := ['S', 'I', 'Z', 'E']

/-- `"PX %d %d %02x%02x%02x\n"`, without the newline. -/
def Px.line (px : Px) : List Char :=
  ['P', 'X', ' '] ++ decimal px.x ++ [' '] ++ decimal px.y ++ [' '] ++
    (hexPadded 2 px.r.toNat ++ hexPadded 2 px.g.toNat ++ hexPadded 2 px.b.toNat)

/-! ## The round trip -/

section RoundTrip

/-- The three channels as one number. -/
theorem Px.toNat_colour (px : Px) :
    px.colour.toNat = 65536 * px.r.toNat + 256 * px.g.toNat + px.b.toNat := by
  have joined : ∀ {n : ℕ} (high : BitVec n) (low : BitVec 8),
      (high ++ low).toNat = 256 * high.toNat + low.toNat := by
    intro n high low
    rw [BitVec.toNat_append, ← Nat.shiftLeft_add_eq_or_of_lt low.isLt, Nat.shiftLeft_eq]
    omega
  rw [Px.colour, joined, joined]
  omega

theorem readColour_channels (px : Px) :
    readColour (hexPadded 2 px.r.toNat ++ hexPadded 2 px.g.toNat ++
      hexPadded 2 px.b.toNat) = some px.colour := by
  have channel : ∀ b : BitVec 8, b.toNat < 16 ^ 2 := fun b => b.isLt
  have red := readHex_append_hexPadded (rfl : readHex [] = some 0) (channel px.r)
  have green := readHex_append_hexPadded red (channel px.g)
  have blue := readHex_append_hexPadded green (channel px.b)
  rw [List.nil_append] at blue
  rw [readColour, if_pos (by simp only [List.length_append, length_hexPadded]), blue,
    Option.map_some, Option.some.injEq]
  apply BitVec.eq_of_toNat_eq
  have bound := px.colour.isLt
  rw [Px.toNat_colour] at bound
  rw [BitVec.toNat_ofNat, Px.toNat_colour]
  omega

/-- Neither blanks nor newlines are printed within a token. -/
theorem notMem_channels {c : Char} (other : hexValue c = none) (px : Px) :
    c ∉ hexPadded 2 px.r.toNat ++ hexPadded 2 px.g.toNat ++ hexPadded 2 px.b.toNat := by
  simp only [List.mem_append, not_or]
  exact ⟨⟨notMem_hexPadded other _ _, notMem_hexPadded other _ _⟩,
    notMem_hexPadded other _ _⟩

/-- The tokens of a printed pixel. -/
theorem splitOn_pxLine (px : Px) :
    px.line.splitOn ' ' = [['P', 'X'], decimal px.x, decimal px.y,
      hexPadded 2 px.r.toNat ++ hexPadded 2 px.g.toNat ++ hexPadded 2 px.b.toNat] := by
  have blank : ∀ z : ℤ, ' ' ∉ decimal z := fun _ => notMem_decimal (by decide) (by decide)
  have tokens : px.line = ['P', 'X'] ++ ' ' :: (decimal px.x ++ ' ' :: (decimal px.y ++
      ' ' :: (hexPadded 2 px.r.toNat ++ hexPadded 2 px.g.toNat ++
        hexPadded 2 px.b.toNat))) := by
    simp [Px.line]
  rw [tokens, List.splitOn_append_cons_self_of_not_mem (by decide),
    List.splitOn_append_cons_self_of_not_mem (blank _),
    List.splitOn_append_cons_self_of_not_mem (blank _),
    List.splitOn_eq_singleton (notMem_channels rfl px)]

theorem parseRequest_pxLine (px : Px) :
    parseRequest px.line = some (.px px.x px.y px.colour) := by
  rw [parseRequest, splitOn_pxLine]
  simp only [if_true, readInt_decimal, readColour_channels]
  rfl

theorem parseRequest_sizeLine : parseRequest sizeLine = some .size := by decide

theorem newline_notMem_pxLine (px : Px) : '\n' ∉ px.line := by
  have digits : ∀ z : ℤ, '\n' ∉ decimal z := fun _ => notMem_decimal (by decide) (by decide)
  rw [Px.line, List.mem_append, not_or]
  refine ⟨?_, notMem_channels rfl px⟩
  simp only [List.mem_append, not_or]
  exact ⟨⟨⟨⟨by decide, digits _⟩, by decide⟩, digits _⟩, by decide⟩

/-- **A stream of complete lines** decodes to the requests its lines are. -/
theorem decode_terminated {lines : List (List Char)} {requests : List Request}
    (clean : ∀ line ∈ lines, '\n' ∉ line)
    (parsed : lines.map parseRequest = requests.map some) :
    decode (terminated '\n' lines) = some requests := by
  unfold decode
  rw [splitOn_terminated clean]
  simp only [List.getLast?_concat, if_true, List.dropLast_concat]
  clear clean
  induction lines generalizing requests with
  | nil =>
      obtain rfl : requests = [] := List.map_eq_nil_iff.mp parsed.symm
      rfl
  | cons line lines ih =>
      obtain ⟨request, requests, rfl, first, rest⟩ := List.map_eq_cons_iff.mp parsed.symm
      rw [List.mapM_cons, ← first, ih rest.symm]
      rfl

end RoundTrip

end Kernelflut.Pixelflut
