import Kernelflut.Foundations.MachineInt
import Mathlib.Data.Nat.Digits.Defs

/-!
# Records in memory

Programs exchange records as bytes, the fields one after the other, least significant
byte first.  `natBytes` and `intBytes` write a field of a given width, and `natAt` and
`intAt` read one that starts at an index of a buffer; an access outside of the buffer is
undefined.

A record that was written field by field is read back field by field, wherever it is
in a buffer (`natAt_record`, `intAt_record`).
-/

namespace LittleEndian

open MachineInt

/-- An unsigned integer of `width` bytes. -/
def natBytes : ℕ → ℕ → List UInt8
  | 0, _ => []
  | width + 1, value => UInt8.ofNat value :: natBytes width (value / 256)

/-- A signed one, two's complement. -/
def intBytes (width : ℕ) (value : ℤ) : List UInt8 :=
  natBytes width (value % 256 ^ width).toNat

def natOf (bytes : List UInt8) : ℕ := Nat.ofDigits 256 (bytes.map UInt8.toNat)

def intOf (bytes : List UInt8) : ℤ := (natOf bytes : ℤ).bmod (256 ^ bytes.length)

/-- The `width` bytes from index `i` on. -/
def slice (buffer : List UInt8) (i : ℤ) (width : ℕ) : Option (List UInt8) :=
  if 0 ≤ i ∧ i + width ≤ buffer.length then some ((buffer.drop i.toNat).take width) else none

def natAt (width : ℕ) (buffer : List UInt8) (i : ℤ) : Option ℕ :=
  (slice buffer i width).map natOf

def intAt (width : ℕ) (buffer : List UInt8) (i : ℤ) : Option ℤ :=
  (slice buffer i width).map intOf

@[simp] theorem length_natBytes (width value : ℕ) : (natBytes width value).length = width := by
  induction width generalizing value with
  | zero => rfl
  | succ width ih => rw [natBytes, List.length_cons, ih]

@[simp] theorem length_intBytes (width : ℕ) (value : ℤ) :
    (intBytes width value).length = width := length_natBytes _ _

theorem natOf_natBytes {width value : ℕ} (h : value < 256 ^ width) :
    natOf (natBytes width value) = value := by
  induction width generalizing value with
  | zero =>
      obtain rfl : value = 0 := by rwa [pow_zero, Nat.lt_one_iff] at h
      rfl
  | succ width ih =>
      have h' : value / 256 < 256 ^ width :=
        Nat.div_lt_of_lt_mul (by rwa [pow_succ'] at h)
      have rest := ih h'
      unfold natOf at rest ⊢
      rw [natBytes, List.map_cons, Nat.ofDigits_cons, rest, UInt8.toNat_ofNat']
      exact Nat.mod_add_div value 256

theorem intOf_intBytes {width : ℕ} {value : ℤ} (pos : 0 < width)
    (h : InRange (8 * width) value) : intOf (intBytes width value) = value := by
  have modulus : (256 : ℤ) ^ width = 2 ^ (8 * width) := by
    rw [pow_mul]
    norm_num
  have nonneg : 0 ≤ value % (256 : ℤ) ^ width := Int.emod_nonneg _ (by positivity)
  have small : (value % (256 : ℤ) ^ width).toNat < 256 ^ width := by
    have := Int.emod_lt_of_pos value (show (0 : ℤ) < 256 ^ width by positivity)
    zify
    omega
  rw [intOf, length_intBytes, intBytes, natOf_natBytes small, Int.toNat_of_nonneg nonneg]
  have exact := faithful_wrapping (show 0 < 8 * width by omega) value h
  rw [wrapping, Option.some.injEq] at exact
  have modulus' : (256 : ℕ) ^ width = 2 ^ (8 * width) := by exact_mod_cast modulus
  rw [modulus', show (256 : ℤ) ^ width = ((2 ^ (8 * width) : ℕ) : ℤ) by
    push_cast
    exact modulus, Int.emod_bmod]
  exact exact

/-! ## Records -/

section Records

variable {before : List UInt8} {i : ℤ}

theorem slice_of_split (field after : List UInt8) (here : i = before.length) :
    slice (before ++ field ++ after) i field.length = some field := by
  subst here
  rw [slice, if_pos ⟨Int.natCast_nonneg _, by
    rw [List.length_append, List.length_append]
    push_cast
    omega⟩]
  simp

/-- **A field of a record** is at the offset of its predecessors' widths. -/
theorem slice_record {fields : List (List UInt8)} {field : List UInt8} (k : ℕ)
    (after : List UInt8) (kth : fields[k]? = some field)
    (here : i = before.length + ((fields.take k).map List.length).sum) :
    slice (before ++ fields.flatten ++ after) i field.length = some field := by
  obtain ⟨inside, rfl⟩ := List.getElem?_eq_some_iff.mp kth
  have split : fields = fields.take k ++ fields[k] :: fields.drop (k + 1) := by
    rw [List.getElem_cons_drop, List.take_append_drop]
  have regrouped : before ++ fields.flatten ++ after =
      (before ++ (fields.take k).flatten) ++ fields[k] ++
        ((fields.drop (k + 1)).flatten ++ after) := by
    conv_lhs => rw [split]
    simp only [List.flatten_append, List.flatten_cons, List.append_assoc]
  rw [regrouped]
  refine slice_of_split _ _ ?_
  rw [here, List.length_append, List.length_flatten]
  push_cast
  rfl

theorem natAt_record {fields : List (List UInt8)} {width value : ℕ} (k : ℕ)
    (after : List UInt8) (kth : fields[k]? = some (natBytes width value))
    (h : value < 256 ^ width)
    (here : i = before.length + ((fields.take k).map List.length).sum) :
    natAt width (before ++ fields.flatten ++ after) i = some value := by
  have field := slice_record k after kth here
  rw [length_natBytes] at field
  rw [natAt, field, Option.map_some, natOf_natBytes h]

theorem intAt_record {fields : List (List UInt8)} {width : ℕ} {value : ℤ} (k : ℕ)
    (after : List UInt8) (kth : fields[k]? = some (intBytes width value)) (pos : 0 < width)
    (h : InRange (8 * width) value)
    (here : i = before.length + ((fields.take k).map List.length).sum) :
    intAt width (before ++ fields.flatten ++ after) i = some value := by
  have field := slice_record k after kth here
  rw [length_intBytes] at field
  rw [intAt, field, Option.map_some, intOf_intBytes pos h]

end Records

end LittleEndian
