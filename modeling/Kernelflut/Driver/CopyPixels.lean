import Kernelflut.Driver.DirtyRects
import Kernelflut.Evdi.Framebuffers
import Kernelflut.Foundations.ByteMemory

/-!
# Copying pixels to the client

A grab copies the dirty rectangles from the scanout buffer, row by row, into a buffer of
the client's.  Both have four bytes a pixel, and each its own distance from row to row:
`pitches[0]` in the scanout buffer, `buf_byte_stride` in the client's.

The mapping of the scanout buffer is a list of bytes, and a read outside of it is
undefined (`none`).  Addresses in the client's buffer are relative to its start, and
`writable` are those that `copy_to_user` can write.

`copyPrimaryPixels_spec` says what a grab leaves in the client's memory, whether it
comes to its end or not.  With the stride that `evdi.c` registers its buffers with, and
in words, that is the `refresh` of `Kernelflut.Evdi.Framebuffers`, for each of the
rectangles (`copyPrimaryPixels_refresh`).
-/

namespace Kernelflut.Driver

open Kernelflut.Pixelflut ByteMemory LittleEndian Merging

def eAgain : ℤ := 11
def eNoMem : ℤ := 12
def eFault : ℤ := 14
def eInval : ℤ := 22

/-- What the driver uses of a `struct evdi_framebuffer` and the `drm_framebuffer` in
it. -/
structure EvdiFramebuffer where
  id : ℕ
  width : ℕ
  height : ℕ
  /-- `pitches[0]` -/
  pitch : ℕ
  bitsPerPixel : ℤ
  pixelFormat : ℕ
  deriving DecidableEq, Repr

/-- The conversion to `int`. -/
def int32 (z : ℤ) : ℤ := z.bmod (2 ^ 32)

/-- `for (; y > 0; --y)`: copy rows of `byteSpan` bytes. -/
def copyRows (writable : ℤ → Bool) (vmapping : List UInt8)
    (pitch bufByteStride byteSpan : ℤ) :
    ℕ → ℤ → ℤ → Memory → Option (ℤ × Memory)
  | 0, _, _, mem => some (0, mem)
  | y + 1, src, dst, mem =>
      (slice vmapping src byteSpan.toNat).bind fun bytes =>
        let (mem, left) := copyToUser writable mem dst bytes
        if left ≠ 0 then some (-eFault, mem)
        else copyRows writable vmapping pitch bufByteStride byteSpan y (src + pitch)
          (dst + bufByteStride) mem

/-- `copy_primary_pixels(efb, buffer, buf_byte_stride, num_rects, rects, max_x, max_y)`:
the code returned, and the memory. -/
def copyPrimaryPixels (writable : ℤ → Bool) (efb : EvdiFramebuffer) (vmapping : List UInt8)
    (bufByteStride : ℤ) (maxX maxY : ℤ) : List DrmClipRect → Memory → Option (ℤ × Memory)
  | [], mem => some (0, mem)
  | r :: rects, mem =>
      let byteOffset : ℤ := r.x1 * 4
      let byteSpan : ℤ := ((r.x2 : ℤ) - r.x1) * 4
      let srcOffset := int32 (efb.pitch * r.y1 + byteOffset)
      let dstOffset := int32 (bufByteStride * r.y1 + byteOffset)
      let y : ℤ := (r.y2 : ℤ) - r.y1
      -- "rect size may correspond to previous resolution"
      if maxX < r.x2 ∨ maxY < r.y2 then some (-eFault, mem)
      else
        (copyRows writable vmapping efb.pitch bufByteStride byteSpan y.toNat
          srcOffset dstOffset
          mem).bind fun (err, mem) =>
            if err ≠ 0 then some (err, mem)
            else copyPrimaryPixels writable efb vmapping bufByteStride maxX maxY rects mem

/-! ## Transfers that may fail -/

/-- What became of a transfer: it came to its end, as it does when all is `fine`, or it
was broken off with `-EFAULT`. -/
structure Outcome (target : Memory) (S : Set ℤ) (fine : Prop) (mem : Memory)
    (result : ℤ × Memory) : Prop where
  code : result.1 = 0 ∨ result.1 = -eFault
  transfers : Transfers target S mem result.2
  complete : result.1 = 0 → Agrees target S result.2
  succeeds : fine → result.1 = 0

section Outcomes

variable {target mem : Memory} {S S' : Set ℤ} {fine fine' : Prop}
  {result result' : ℤ × Memory}

/-- Nothing is to be written. -/
theorem Outcome.nothing (target mem : Memory) (fine : Prop) :
    Outcome target ∅ fine mem (0, mem) where
  code := Or.inl rfl
  transfers := .refl _ _ _
  complete := fun _ k hk => absurd hk (Set.notMem_empty k)
  succeeds := fun _ => rfl

/-- A transfer of anything may fail, if only something is not fine. -/
theorem Outcome.failed (target mem : Memory) (S : Set ℤ) :
    Outcome target S False mem (-eFault, mem) where
  code := Or.inr rfl
  transfers := .refl _ _ _
  complete := fun h => absurd h (show -eFault ≠ 0 by decide)
  succeeds := False.elim

/-- One after the other, and the second only when the first has come to its end. -/
theorem Outcome.andThen (first : Outcome target S fine mem result)
    (second : result.1 = 0 → Outcome target S' fine' result.2 result') :
    Outcome target (S ∪ S') (fine ∧ fine') mem
      (if result.1 ≠ 0 then result else result') := by
  by_cases broken : result.1 ≠ 0
  · rw [if_pos broken]
    exact
      { code := first.code
        transfers := first.transfers.mono Set.subset_union_left
        complete := fun h => absurd h broken
        succeeds := fun h => first.succeeds h.1 }
  · rw [if_neg broken]
    have ended : result.1 = 0 := not_not.mp broken
    have second := second ended
    exact
      { code := second.code
        transfers := (first.transfers.mono Set.subset_union_left).trans
          (second.transfers.mono Set.subset_union_right)
        complete := fun h => ((first.complete ended).transfer second.transfers).union
          (second.complete h)
        succeeds := fun h => second.succeeds h.2 }

/-- One `copy_to_user`. -/
theorem Outcome.copyToUser (writable : ℤ → Bool) {dst : ℤ} {bytes : List UInt8}
    (carries : ∀ k : ℕ, ∀ byte, bytes[k]? = some byte → byte = target (dst + k))
    (mem : Memory) :
    let copied := copyToUser writable mem dst bytes
    Outcome target {k | dst ≤ k ∧ k < dst + bytes.length}
      (∀ k ∈ {k | dst ≤ k ∧ k < dst + bytes.length}, writable k = true) mem
      (if copied.2 ≠ 0 then -eFault else 0, copied.1) := by
  intro copied
  obtain ⟨transfers, complete, succeeds⟩ := copyToUser_spec writable carries mem
  constructor
  · dsimp only
    split
    · exact Or.inr rfl
    · exact Or.inl rfl
  · exact transfers
  · intro ended
    apply complete
    by_contra left
    rw [if_pos left] at ended
    exact absurd ended (show -eFault ≠ 0 by decide)
  · intro fine
    exact if_neg (not_not.mpr (succeeds fine))

/-- The same pixels, described otherwise. -/
theorem Outcome.congr_set (h : Outcome target S fine mem result) (same : S' = S)
    (imp : fine' → fine) : Outcome target S' fine' mem result := by
  subst same
  exact { h with succeeds := fun hf => h.succeeds (imp hf) }

end Outcomes

/-! ## Where the pixels are -/

/-- The address of a pixel, in a buffer with the given stride. -/
def address (stride : ℤ) (p : Pos) : ℤ := stride * p.2 + 4 * p.1

/-- The addresses of the bytes of some pixels. -/
def bytesOf (stride : ℤ) (S : Set Pos) : Set ℤ :=
  {k | ∃ p ∈ S, address stride p ≤ k ∧ k < address stride p + 4}

/-- The object behind a framebuffer holds all its rows, as `evdi_fb_user_fb_create`
checks, and is no larger than an `int` can count. -/
structure EvdiFramebuffer.Backed (efb : EvdiFramebuffer)
    (vmapping : List UInt8) : Prop where
  rows : efb.pitch * efb.height ≤ vmapping.length
  row : 4 * efb.width ≤ efb.pitch
  small : vmapping.length < 2 ^ 31

/-- The client's buffer has room for all the rows. -/
structure EvdiFramebuffer.FitsInto (efb : EvdiFramebuffer) (stride : ℤ) : Prop where
  row : 4 * (efb.width : ℤ) ≤ stride
  small : stride * efb.height < 2 ^ 31

/-- What the client's buffer is to hold: the rows of the scanout buffer. -/
def scanned (efb : EvdiFramebuffer) (vmapping : List UInt8) (stride : ℤ) : Memory :=
  fun k => load vmapping (efb.pitch * (k / stride) + k % stride)

/-- An address inside a row. -/
theorem row_ediv_emod (y : ℤ) {stride offset : ℤ} (nonneg : 0 ≤ offset)
    (inside : offset < stride) :
    (stride * y + offset) / stride = y ∧ (stride * y + offset) % stride = offset := by
  have pos : 0 < stride := lt_of_le_of_lt nonneg inside
  constructor
  · rw [add_comm, Int.add_mul_ediv_left _ _ pos.ne',
      Int.ediv_eq_zero_of_lt nonneg inside, zero_add]
  · rw [add_comm, Int.add_mul_emod_self_left, Int.emod_eq_of_lt nonneg inside]

/-- The pixels of a row take up all of its bytes. -/
theorem mem_bytesOf_row {stride : ℤ} {x1 x2 y k : ℤ} :
    k ∈ bytesOf stride {p | (x1 ≤ p.1 ∧ p.1 < x2) ∧ p.2 = y} ↔
      stride * y + 4 * x1 ≤ k ∧ k < stride * y + 4 * x2 := by
  constructor
  · rintro ⟨⟨x, y'⟩, ⟨⟨left, right⟩, row⟩, from_x, inside⟩
    simp only [address] at left right row from_x inside
    subst row
    omega
  · rintro ⟨left, right⟩
    refine ⟨((k - stride * y) / 4, y), ⟨⟨?_, ?_⟩, rfl⟩, ?_, ?_⟩ <;>
      simp only [address] <;> omega

section Rows

variable (writable : ℤ → Bool) {efb : EvdiFramebuffer} {vmapping : List UInt8} {stride : ℤ}

/-- The bytes of a row of the scanout buffer. -/
theorem slice_row (stride : ℤ) (backed : efb.Backed vmapping) {x1 x2 y : ℕ}
    (ordered : x1 ≤ x2) (inside : x2 ≤ efb.width) (below : y < efb.height) :
    ∃ bytes, slice vmapping (efb.pitch * y + 4 * x1) (4 * (x2 - x1)) = some bytes ∧
      bytes.length = 4 * (x2 - x1) ∧
      (4 * (efb.width : ℤ) ≤ stride → ∀ k : ℕ, ∀ byte, bytes[k]? = some byte →
        byte = scanned efb vmapping stride (stride * y + 4 * x1 + k)) := by
  have wide := backed.row
  have room : efb.pitch * (y + 1) ≤ vmapping.length :=
    (Nat.mul_le_mul_left _ (Nat.succ_le_of_lt below)).trans backed.rows
  rw [Nat.mul_succ] at room
  have start : ((efb.pitch : ℤ) * y + 4 * x1).toNat = efb.pitch * y + 4 * x1 := by
    have : (efb.pitch : ℤ) * y + 4 * x1 = ((efb.pitch * y + 4 * x1 : ℕ) : ℤ) := by
      push_cast; rfl
    rw [this, Int.toNat_natCast]
  have defined : slice vmapping (efb.pitch * y + 4 * x1) (4 * (x2 - x1)) =
      some ((vmapping.drop (efb.pitch * y + 4 * x1)).take (4 * (x2 - x1))) := by
    rw [slice, if_pos ⟨by positivity, by push_cast [ordered]; zify at room wide; omega⟩,
      start]
  refine ⟨_, defined, ?_, ?_⟩
  · rw [List.length_take, List.length_drop]
    omega
  · intro fits k byte there
    obtain ⟨short, rfl⟩ := List.getElem?_eq_some_iff.mp there
    rw [List.length_take] at short
    have column : (4 * (x1 : ℤ) + k) < stride := by omega
    obtain ⟨row, offset⟩ := row_ediv_emod y (show (0 : ℤ) ≤ 4 * (x1 : ℤ) + k by positivity)
      column
    have index :
        ((efb.pitch : ℤ) * y + (4 * (x1 : ℤ) + k)).toNat = efb.pitch * y + 4 * x1 + k := by
      have : (efb.pitch : ℤ) * y + (4 * (x1 : ℤ) + k) =
          ((efb.pitch * y + 4 * x1 + k : ℕ) : ℤ) := by
        push_cast; ring
      rw [this, Int.toNat_natCast]
    rw [scanned, add_assoc (stride * _), row, offset, load, index, List.getElem_take,
      List.getElem_drop]
    rw [List.getD_eq_getElem?_getD, List.getElem?_eq_getElem (by omega), Option.getD_some]

/-- The rows from `y` on, `n` of them, between two columns. -/
def rowsFrom (x1 x2 y : ℤ) (n : ℕ) : Set Pos :=
  {p | (x1 ≤ p.1 ∧ p.1 < x2) ∧ y ≤ p.2 ∧ p.2 < y + n}

/-- The first row, and the others. -/
theorem rowsFrom_succ (x1 x2 y : ℤ) (n : ℕ) :
    rowsFrom x1 x2 y (n + 1) =
      {p | (x1 ≤ p.1 ∧ p.1 < x2) ∧ p.2 = y} ∪ rowsFrom x1 x2 (y + 1) n := by
  ext p
  simp only [rowsFrom, Set.mem_ofPred_eq, Set.mem_union]
  push_cast
  omega

/-- The bytes of two sets of pixels. -/
theorem bytesOf_union (stride : ℤ) (S S' : Set Pos) :
    bytesOf stride (S ∪ S') = bytesOf stride S ∪ bytesOf stride S' := by
  ext k
  simp only [bytesOf, Set.mem_ofPred_eq, Set.mem_union, or_and_right, exists_or]

/-- **The loop over the rows**, from row `y` on. -/
theorem copyRows_spec (backed : efb.Backed vmapping) (fits : efb.FitsInto stride)
    {x1 x2 : ℕ} (ordered : x1 ≤ x2) (inside : x2 ≤ efb.width) (n y : ℕ)
    (below : y + n ≤ efb.height) (mem : Memory) :
    ∃ result, copyRows writable vmapping efb.pitch stride (4 * (x2 - x1 : ℕ)) n
        (efb.pitch * y + 4 * x1) (stride * y + 4 * x1) mem = some result ∧
      Outcome (scanned efb vmapping stride) (bytesOf stride (rowsFrom x1 x2 y n))
        (∀ k ∈ bytesOf stride (rowsFrom x1 x2 y n), writable k = true) mem result := by
  induction n generalizing y mem with
  | zero =>
      refine ⟨(0, mem), rfl, (Outcome.nothing _ _ True).congr_set ?_ fun _ => trivial⟩
      refine Set.eq_empty_iff_forall_notMem.mpr ?_
      rintro k ⟨p, ⟨-, from_y, inside⟩, -⟩
      push_cast at inside
      omega
  | succ n ih =>
      obtain ⟨bytes, defined, length, carries⟩ :=
        slice_row stride backed ordered inside (show y < efb.height by omega)
      have row := Outcome.copyToUser writable (carries fits.row) mem
      have rowSet : bytesOf stride {p | ((x1 : ℤ) ≤ p.1 ∧ p.1 < x2) ∧ p.2 = y} =
          {k : ℤ | stride * y + 4 * x1 ≤ k ∧ k < stride * y + 4 * x1 + bytes.length} := by
        ext k
        rw [mem_bytesOf_row, Set.mem_ofPred_eq, length]
        omega
      have row := row.congr_set rowSet id
      obtain ⟨rest, restRows, restOutcome⟩ := ih (y + 1) (by omega)
        (copyToUser writable mem (stride * y + 4 * x1) bytes).1
      have both := row.andThen fun _ => restOutcome
      rw [← bytesOf_union, Nat.cast_succ, ← rowsFrom_succ] at both
      refine ⟨_, ?_, both.congr_set rfl fun fine => ?_⟩
      · rw [copyRows, show ((4 * (x2 - x1 : ℕ) : ℤ)).toNat = 4 * (x2 - x1) by omega,
          defined, Option.bind_some]
        have src :
            (efb.pitch : ℤ) * y + 4 * x1 + efb.pitch = efb.pitch * (y + 1 : ℕ) + 4 * x1 := by
          push_cast; ring
        have dst : stride * y + 4 * x1 + stride = stride * (y + 1 : ℕ) + 4 * x1 := by
          push_cast; ring
        rw [src, dst]
        dsimp only
        rw [restRows]
        by_cases left : (copyToUser writable mem (stride * y + 4 * x1) bytes).2 = 0
        · simp [left]
        · simp [left, eFault]
      · rw [rowsFrom_succ, bytesOf_union] at fine
        exact ⟨fun k hk => fine k (Or.inl (rowSet ▸ hk)), fun k hk => fine k (Or.inr hk)⟩

/-- An `int` that does not wrap. -/
theorem int32_of_bounds {z : ℤ} (nonneg : 0 ≤ z) (small : z < 2 ^ 31) : int32 z = z := by
  apply Int.bmod_eq_of_le
  · omega
  · norm_num at small ⊢
    omega

/-- One rectangle that lies inside the frame. -/
theorem copyRows_rect (backed : efb.Backed vmapping) (fits : efb.FitsInto stride)
    {r : DrmClipRect} (within : r.Within efb.width efb.height) (mem : Memory) :
    ∃ result, copyRows writable vmapping efb.pitch stride (((r.x2 : ℤ) - r.x1) * 4)
        ((r.y2 : ℤ) - r.y1).toNat (int32 (efb.pitch * r.y1 + r.x1 * 4))
        (int32 (stride * r.y1 + r.x1 * 4)) mem = some result ∧
      Outcome (scanned efb vmapping stride) (bytesOf stride r.pixels)
        (∀ k ∈ bytesOf stride r.pixels, writable k = true) mem result := by
  obtain ⟨columns, inside, rows, below⟩ := within
  have pixels : r.pixels = rowsFrom r.x1 r.x2 r.y1 (r.y2 - r.y1) := by
    ext p
    rw [DrmClipRect.mem_pixels, rowsFrom, Set.mem_ofPred_eq]
    omega
  obtain ⟨result, copied, outcome⟩ := copyRows_spec writable backed fits columns
    inside (r.y2 - r.y1) r.y1 (by omega) mem
  rw [← pixels] at outcome
  refine ⟨result, ?_, outcome⟩
  rw [show ((r.y2 : ℤ) - r.y1).toNat = r.y2 - r.y1 by omega,
    show ((r.x2 : ℤ) - r.x1) * 4 = 4 * (r.x2 - r.x1 : ℕ) by push_cast [columns]; ring,
    mul_comm (r.x1 : ℤ) 4]
  rcases Nat.eq_zero_or_pos (r.y2 - r.y1) with none | some
  · -- No row, and the offsets do not matter.
    rw [none, copyRows] at copied ⊢
    exact copied
  · have row := fits.row
    have wide := backed.row
    have rowsBelow : stride * (r.y1 + 1 : ℕ) ≤ stride * efb.height :=
      mul_le_mul_of_nonneg_left (by exact_mod_cast (by omega : r.y1 + 1 ≤ efb.height))
        (by omega)
    have srcBelow : efb.pitch * (r.y1 + 1) ≤ efb.pitch * efb.height :=
      Nat.mul_le_mul_left _ (by omega)
    have small := fits.small
    have small' := backed.small
    have rows' := backed.rows
    rw [Nat.mul_succ] at srcBelow
    push_cast at rowsBelow
    rw [mul_add, mul_one] at rowsBelow
    rw [int32_of_bounds (by positivity) (by zify at *; omega),
      int32_of_bounds (add_nonneg (mul_nonneg (by omega) (by omega)) (by omega)) (by omega)]
    exact copied

/-- **The loop over the rectangles.**  Whatever rectangles there are, with their corners
in order: no byte outside of them is written, those that are written are the scanout
buffer's, and unless `-EFAULT` is returned they all are.  It is returned when a rectangle
is not inside the frame, and else only on a fault. -/
theorem copyPrimaryPixels_spec (backed : efb.Backed vmapping) (fits : efb.FitsInto stride)
    {rects : List DrmClipRect} (ordered : ∀ r ∈ rects, r.x1 ≤ r.x2 ∧ r.y1 ≤ r.y2)
    (mem : Memory) :
    ∃ result,
      copyPrimaryPixels writable efb vmapping stride efb.width efb.height rects mem =
        some result ∧
      Outcome (scanned efb vmapping stride) (bytesOf stride (dirtyArea rects))
        ((∀ r ∈ rects, r.Within efb.width efb.height) ∧
          ∀ k ∈ bytesOf stride (dirtyArea rects), writable k = true) mem result ∧
      (result.1 = 0 → ∀ r ∈ rects, r.Within efb.width efb.height) := by
  induction rects generalizing mem with
  | nil =>
      refine ⟨(0, mem), rfl, (Outcome.nothing _ _ True).congr_set ?_ fun _ => trivial, ?_⟩
      · rw [dirtyArea, cover_nil]
        refine Set.eq_empty_iff_forall_notMem.mpr ?_
        rintro k ⟨p, hp, -⟩
        exact hp
      · exact fun _ r hr => absurd hr List.not_mem_nil
  | cons r rects ih =>
      obtain ⟨columns, rows⟩ := ordered r List.mem_cons_self
      by_cases beyond : (efb.width : ℤ) < r.x2 ∨ (efb.height : ℤ) < r.y2
      · refine ⟨(-eFault, mem), ?_, (Outcome.failed _ mem _).congr_set rfl ?_, ?_⟩
        · rw [copyPrimaryPixels, if_pos beyond]
        · rintro ⟨within, -⟩
          obtain ⟨-, inside, -, below⟩ := within r List.mem_cons_self
          omega
        · exact fun h => absurd h (show -eFault ≠ 0 by decide)
      · have within : r.Within efb.width efb.height :=
          ⟨columns, by omega, rows, by omega⟩
        obtain ⟨first, copied, firstOutcome⟩ :=
          copyRows_rect writable backed fits within mem
        obtain ⟨rest, copiedRest, restOutcome, restWithin⟩ :=
          ih (fun r hr => ordered r (List.mem_cons_of_mem _ hr)) first.2
        have both := firstOutcome.andThen fun _ => restOutcome
        rw [← bytesOf_union, ← dirtyArea_cons] at both
        refine ⟨_, ?_, both.congr_set rfl ?_, ?_⟩
        · rw [copyPrimaryPixels, if_neg beyond, copied, Option.bind_some]
          dsimp only
          rw [copiedRest]
          split <;> rfl
        · rw [dirtyArea_cons, bytesOf_union]
          rintro ⟨within, fine⟩
          exact ⟨fun k hk => fine k (Or.inl hk),
            fun r hr => within r (List.mem_cons_of_mem _ hr),
            fun k hk => fine k (Or.inr hk)⟩
        · intro ended r' hr'
          rcases List.mem_cons.mp hr' with rfl | hr'
          · exact within
          · by_cases broken : first.1 ≠ 0
            · rw [if_pos broken] at ended
              exact absurd ended broken
            · rw [if_neg broken] at ended
              exact restWithin ended r' hr'

end Rows

/-! ## In words -/

/-- The word of a pixel in the scanout buffer. -/
def scanoutWord (efb : EvdiFramebuffer) (vmapping : List UInt8) (p : Pos) : Word :=
  wordAt (load vmapping) (address efb.pitch p)

/-- Pixels do not overlap. -/
theorem eq_of_address {stride width : ℤ} (row : 4 * width ≤ stride) {p q : Pos}
    (hp : 0 ≤ p.1 ∧ p.1 < width) (hq : 0 ≤ q.1 ∧ q.1 < width) {k : ℤ}
    (inside_p : address stride p ≤ k ∧ k < address stride p + 4)
    (inside_q : address stride q ≤ k ∧ k < address stride q + 4) : p = q := by
  simp only [address] at inside_p inside_q
  have column_p := row_ediv_emod p.2
    (show 0 ≤ k - stride * p.2 by omega) (show k - stride * p.2 < stride by omega)
  have column_q := row_ediv_emod q.2
    (show 0 ≤ k - stride * q.2 by omega) (show k - stride * q.2 < stride by omega)
  rw [add_sub_cancel] at column_p column_q
  have rows : p.2 = q.2 := column_p.1.symm.trans column_q.1
  rw [rows] at inside_p
  exact Prod.ext (by omega) rows

section Words

variable {efb : EvdiFramebuffer} {vmapping : List UInt8} {stride : ℤ} {p : Pos}

/-- The four bytes at the address of a pixel are its word. -/
theorem wordAt_scanned (row : 4 * (efb.width : ℤ) ≤ stride) (left : 0 ≤ p.1)
    (right : p.1 < efb.width) :
    wordAt (scanned efb vmapping stride) (address stride p) =
      scanoutWord efb vmapping p := by
  have byte : ∀ j : ℤ, 0 ≤ j → j < 4 → scanned efb vmapping stride (address stride p + j) =
      load vmapping (address efb.pitch p + j) := by
    intro j nonneg small
    obtain ⟨quotient, remainder⟩ := row_ediv_emod (y := p.2)
      (show 0 ≤ 4 * p.1 + j by omega) (show 4 * p.1 + j < stride by omega)
    rw [scanned, address, add_assoc, quotient, remainder, address, add_assoc]
  have first := byte 0 (by omega) (by omega)
  rw [add_zero, add_zero] at first
  rw [scanoutWord, wordAt, wordAt, first, byte 1 (by omega) (by omega),
    byte 2 (by omega) (by omega), byte 3 (by omega) (by omega)]

/-- A transfer of some pixels of the frame that came to its end, word by word. -/
theorem Outcome.words {target : Memory} {word : Pos → Word} {width : ℤ} {S : Set Pos}
    {fine : Prop} {mem : Memory} {result : ℤ × Memory}
    (outcome : Outcome target (bytesOf stride S) fine mem result) (ended : result.1 = 0)
    (spelled : wordAt target (address stride p) = word p) (row : 4 * width ≤ stride)
    (inside : ∀ q ∈ S, 0 ≤ q.1 ∧ q.1 < width) (hp : 0 ≤ p.1 ∧ p.1 < width) :
    (p ∈ S → wordAt result.2 (address stride p) = word p) ∧
      (p ∉ S → wordAt result.2 (address stride p) = wordAt mem (address stride p)) := by
  constructor
  · intro copied
    rw [← spelled]
    exact wordAt_congr fun k from_p below =>
      outcome.complete ended k ⟨p, copied, from_p, below⟩
  · intro other
    refine wordAt_congr fun k from_p below => outcome.transfers.of_notMem ?_
    rintro ⟨q, hq, from_q, below_q⟩
    rw [eq_of_address row hp (inside q hq) ⟨from_p, below⟩ ⟨from_q, below_q⟩] at other
    exact other hq

end Words

/-- A pixel of a rectangle inside the frame is in a column of the frame. -/
theorem DrmClipRect.Within.columns {r : DrmClipRect} {width height : ℕ}
    (h : r.Within width height) {p : Pos} (hp : p ∈ r.pixels) : 0 ≤ p.1 ∧ p.1 < width := by
  obtain ⟨-, inside, -, -⟩ := h
  rw [DrmClipRect.mem_pixels] at hp
  omega

/-- The desktop as `kernelflut` sees it, by the index of a pixel. -/
def desktopOf (efb : EvdiFramebuffer) (vmapping : List UInt8) : ℤ → Word :=
  fun i => scanoutWord efb vmapping (i % efb.width, i / efb.width)

/-- Refreshing one rectangle after the other. -/
theorem foldl_refresh (width : ℕ) (rects : List DrmClipRect) (desktop old : ℤ → Word)
    (i : ℤ) :
    (((i % width, i / width) : Pos) ∈ dirtyArea rects →
      rects.foldl (fun buf r => Evdi.refresh width r.toEvdiRect desktop buf) old i =
        desktop i) ∧
    (((i % width, i / width) : Pos) ∉ dirtyArea rects →
      rects.foldl (fun buf r => Evdi.refresh width r.toEvdiRect desktop buf) old i =
        old i) := by
  induction rects generalizing old with
  | nil =>
      rw [dirtyArea, cover_nil]
      exact ⟨fun h => absurd h (Set.notMem_empty _), fun _ => rfl⟩
  | cons r rects ih =>
      obtain ⟨covered, other⟩ := ih (Evdi.refresh width r.toEvdiRect desktop old)
      rw [List.foldl_cons, dirtyArea_cons]
      by_cases later : ((i % width, i / width) : Pos) ∈ dirtyArea rects
      · exact ⟨fun _ => covered later, fun h => absurd (Or.inr later) h⟩
      · rw [other later]
        constructor
        · intro here
          exact if_pos (here.resolve_right later)
        · intro nowhere
          exact if_neg fun h => nowhere (Or.inl h)

/-- **A grab into a buffer of `evdi.c`**, which is registered with the stride
`width * BYTES_PER_PIXEL`: it succeeds, and refreshes exactly the rectangles it reports
with what is on the screen.  This is all that a grab copies, since `make insmod` loads the
module with `enable_cursor_blending=0`. -/
theorem copyPrimaryPixels_refresh {efb : EvdiFramebuffer} {vmapping : List UInt8}
    {writable : ℤ → Bool} {rects : List DrmClipRect} (backed : efb.Backed vmapping)
    (small : 4 * (efb.width : ℤ) * efb.height < 2 ^ 31)
    (within : ∀ r ∈ rects, r.Within efb.width efb.height)
    (fine : ∀ k, 0 ≤ k → k < 4 * (efb.width : ℤ) * efb.height → writable k = true)
    (mem : Memory) :
    ∃ mem', copyPrimaryPixels writable efb vmapping
      (4 * efb.width) efb.width efb.height rects
        mem = some (0, mem') ∧
      (fun i => wordAt mem' (4 * i)) =
        rects.foldl
          (fun buf r => Evdi.refresh efb.width r.toEvdiRect (desktopOf efb vmapping) buf)
          fun i => wordAt mem (4 * i) := by
  obtain ⟨⟨err, mem'⟩, copied, outcome, -⟩ := copyPrimaryPixels_spec writable backed
    (show efb.FitsInto (4 * efb.width) from ⟨le_rfl, small⟩)
    (fun r hr => ⟨(within r hr).x1_le_x2, (within r hr).y1_le_y2⟩) mem
  have inFrame : ∀ q ∈ dirtyArea rects, 0 ≤ q.1 ∧ q.1 < efb.width := by
    rintro q ⟨r, hr, hq⟩
    exact (within r hr).columns hq
  have ended : err = 0 := by
    refine outcome.succeeds ⟨within, ?_⟩
    rintro k ⟨q, ⟨r, hr, hq⟩, from_q, below_q⟩
    obtain ⟨left, right⟩ := (within r hr).columns hq
    obtain ⟨-, -, -, below⟩ := within r hr
    rw [DrmClipRect.mem_pixels] at hq
    simp only [address] at from_q below_q
    have rows : 4 * (efb.width : ℤ) * (q.2 + 1) ≤ 4 * efb.width * efb.height :=
      mul_le_mul_of_nonneg_left (by omega) (by omega)
    rw [mul_add, mul_one] at rows
    have above : 0 ≤ 4 * (efb.width : ℤ) * q.2 := mul_nonneg (by omega) (by omega)
    exact fine k (by omega) (by omega)
  subst ended
  refine ⟨mem', copied, funext fun i => ?_⟩
  obtain ⟨covered, other⟩ := foldl_refresh efb.width rects (desktopOf efb vmapping)
    (fun i => wordAt mem (4 * i)) i
  rcases Nat.eq_zero_or_pos efb.width with none | some
  · -- There are no pixels.
    have empty : ∀ q, q ∉ dirtyArea rects := fun q hq => by
      have := inFrame q hq
      omega
    rw [other (empty _)]
    exact wordAt_congr fun k _ _ => outcome.transfers.of_notMem fun ⟨q, hq, _⟩ => empty q hq
  · have column : 0 ≤ i % efb.width ∧ i % efb.width < efb.width :=
      ⟨Int.emod_nonneg _ (by omega), Int.emod_lt_of_pos _ (by omega)⟩
    have index : 4 * i = address (4 * efb.width) (i % efb.width, i / efb.width) := by
      rw [address, mul_assoc, ← mul_add, Int.mul_ediv_add_emod]
    obtain ⟨copiedWord, otherWord⟩ :=
      outcome.words (p := (i % efb.width, i / efb.width)) rfl
        (wordAt_scanned le_rfl column.1 column.2) le_rfl inFrame column
    by_cases dirty : ((i % efb.width, i / efb.width) : Pos) ∈ dirtyArea rects
    · rw [covered dirty, index, copiedWord dirty]
      rfl
    · rw [other dirty, index, otherWord dirty]

/-- The right one of two pixels. -/
theorem copyPrimaryPixels_refresh_right :
    ∃ mem', copyPrimaryPixels (fun _ => true) ⟨1, 2, 1, 8, 32, 0⟩ (List.replicate 8 7)
      (4 * (2 : ℕ))
        (2 : ℕ) (1 : ℕ) [⟨1, 0, 2, 1⟩] (fun _ => 0) = some (0, mem') ∧
      (fun i => wordAt mem' (4 * i)) =
        [(⟨1, 0, 2, 1⟩ : DrmClipRect)].foldl (fun buf r => Evdi.refresh (2 : ℕ) r.toEvdiRect
          (desktopOf ⟨1, 2, 1, 8, 32, 0⟩ (List.replicate 8 7)) buf)
            fun i => wordAt (fun _ => 0) (4 * i) :=
  copyPrimaryPixels_refresh ⟨by decide, by decide, by decide⟩
    (by norm_num)
      (List.forall_mem_singleton.mpr ⟨by decide, by decide, by decide, by decide⟩)
    (fun _ _ _ => rfl) _

end Kernelflut.Driver
