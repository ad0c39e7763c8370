import Mathlib.Data.BitVec

/-!
# Pixels and `PX` commands

A framebuffer word is a `uint32_t` in RGB32 layout: the low 24 bits are the
colour `rrggbb`, the top byte is padding.  `pf_set_buf` and `pf_set` send a
pixel as one line `PX <x> <y> <rrggbb>`; the server stores the 24-bit colour.

`Px.colour_ofWord` is the fact everything else uses: the three channel
extractions of `pf_set_buf`, read back in the order they are printed, are
exactly the low 24 bits of the word.
-/

namespace Kernelflut.Pixelflut

/-- `uint32_t`: one RGB32 framebuffer word. -/
abbrev Word := BitVec 32

/-- What the server keeps for a pixel: `rrggbb`. -/
abbrev Colour := BitVec 24

/-- A position on the screen, `(x, y)`. -/
abbrev Pos := ℤ × ℤ

/-- `PF_NO_BGCOLOR`. -/
def pfNoBgcolor : Word := 0x80000000

/-- The low 24 bits of a framebuffer word. -/
def colourOf (color : Word) : Colour := color.setWidth 24

/-- `color & 0x00ffffff`, the word without its padding byte. -/
def visible (color : Word) : Word := color &&& 0x00ffffff

/-- One command `PX x y rrggbb`, as the arguments of the `dprintf`. -/
structure Px where
  x : ℤ
  y : ℤ
  r : BitVec 8
  g : BitVec 8
  b : BitVec 8
  deriving DecidableEq, Repr

namespace Px

def pos (px : Px) : Pos := (px.x, px.y)

/-- The colour as the six digits spell it. -/
def colour (px : Px) : Colour := px.r ++ px.g ++ px.b

/-- What the command does to the server's canvas. -/
def write (px : Px) : Pos × Colour := (px.pos, px.colour)

@[simp] theorem write_fst (px : Px) : px.write.1 = px.pos := rfl

@[simp] theorem write_snd (px : Px) : px.write.2 = px.colour := rfl

/-- "extract colors": the command `pf_set_buf` assembles from a framebuffer
word. -/
def ofWord (x y : ℤ) (color : Word) : Px where
  x := x
  y := y
  b := ((color >>> 0) &&& 0xff).setWidth 8
  g := ((color >>> 8) &&& 0xff).setWidth 8
  r := ((color >>> 16) &&& 0xff).setWidth 8

@[simp] theorem pos_ofWord (x y : ℤ) (color : Word) :
    (ofWord x y color).pos = (x, y) := rfl

/-- Masking with `0xff` before the conversion to `unsigned char` changes
nothing. -/
theorem setWidth_and_ff (color : Word) :
    (color &&& 0xff).setWidth 8 = color.setWidth 8 := by
  rw [BitVec.setWidth_and]
  exact BitVec.and_allOnes

/-- The printed channels spell the low 24 bits of the word. -/
@[simp] theorem colour_ofWord (x y : ℤ) (color : Word) :
    (ofWord x y color).colour = colourOf color := by
  simp only [colour, ofWord, colourOf, setWidth_and_ff]
  ext i hi
  simp only [BitVec.getElem_append, BitVec.getElem_setWidth,
    BitVec.getLsbD_ushiftRight]
  split
  · simp
  · split
    · congr 1; omega
    · congr 1; omega

end Px

/-- The masked word is the colour, as a number. -/
theorem setWidth_colourOf (color : Word) :
    (colourOf color).setWidth 32 = visible color := by
  apply BitVec.eq_of_toNat_eq
  simp [colourOf, visible, Nat.and_two_pow_sub_one_eq_mod _ 24]
  omega

end Kernelflut.Pixelflut
