import Kernelflut.Driver.CopyPixels

/-!
# The cursor

The desktop has no cursor in it: the driver is told separately what it looks like and
where it is.  With `evdi_enable_cursor_blending` a grab draws it into the client's
buffer, after the rectangles, pixel by pixel over what is in the scanout buffer.

`channel_blendAlpha` is what blending two pixels computes, and
`cursorComposeAndCopy_spec` what drawing the whole cursor does to the client's memory.

The size of the cursor is checked against its object in 32 bits, so the check says
something only of a cursor whose size is counted in 32 bits (`EvdiCursor.Counted`).
-/

namespace Kernelflut.Driver

open Kernelflut.Pixelflut ByteMemory LittleEndian Merging CountedLoop Overwrites MachineInt

/-! ## Blending -/

/-- `blend_component(pixel, blend, alpha)` -/
def blendComponent (pixel blend alpha : Word) : Word :=
  let preBlend := pixel * (255 - alpha) + blend * alpha
  (preBlend + ((preBlend + 1) <<< 8)) >>> 16

/-- `blend_alpha(pixel_val32, blend_val32)` -/
def blendAlpha (pixelVal32 blendVal32 : Word) : Word :=
  let alpha := blendVal32 >>> 24
  blendComponent (pixelVal32 &&& 0xff) (blendVal32 &&& 0xff) alpha |||
    blendComponent ((pixelVal32 &&& 0xff00) >>> 8)
      ((blendVal32 &&& 0xff00) >>> 8) alpha <<< 8 |||
    blendComponent ((pixelVal32 &&& 0xff0000) >>> 16)
      ((blendVal32 &&& 0xff0000) >>> 16) alpha
      <<< 16

/-- The weighted sum of two channels is at most 255 times the largest one. -/
theorem weighted_le {p b a : ℕ} (hp : p ≤ 255) (hb : b ≤ 255) (ha : a ≤ 255) :
    p * (255 - a) + b * a ≤ 255 * 255 := by
  calc p * (255 - a) + b * a
      ≤ 255 * (255 - a) + 255 * a :=
        Nat.add_le_add (Nat.mul_le_mul_right _ hp) (Nat.mul_le_mul_right _ hb)
    _ = 255 * 255 := by rw [← Nat.mul_add, Nat.sub_add_cancel ha]

/-- What the shifts and additions of `blend_component` come to: the weighted average,
rounded down. -/
theorem blendComponent_toNat {pixel blend alpha : Word} (hp : pixel.toNat ≤ 255)
    (hb : blend.toNat ≤ 255) (ha : alpha.toNat ≤ 255) :
    (blendComponent pixel blend alpha).toNat =
      (pixel.toNat * (255 - alpha.toNat) + blend.toNat * alpha.toNat) / 255 := by
  have bound := weighted_le hp hb ha
  have first : pixel.toNat * (255 - alpha.toNat) ≤ 255 * 255 :=
    le_trans (Nat.le_add_right _ _) bound
  have second : blend.toNat * alpha.toNat ≤ 255 * 255 :=
    le_trans (Nat.le_add_left _ _) bound
  have complement : (255 - alpha).toNat = 255 - alpha.toNat := by
    rw [BitVec.toNat_sub]
    have : (255 : Word).toNat = 255 := rfl
    omega
  have exact : (pixel * (255 - alpha) + blend * alpha).toNat =
      pixel.toNat * (255 - alpha.toNat) + blend.toNat * alpha.toNat := by
    rw [BitVec.toNat_add, BitVec.toNat_mul, BitVec.toNat_mul, complement]
    omega
  rw [blendComponent, ← exact]
  rw [← exact] at bound
  generalize pixel * (255 - alpha) + blend * alpha = preBlend at bound ⊢
  have one : (1 : Word).toNat = 1 := rfl
  rw [BitVec.toNat_ushiftRight, BitVec.toNat_add, BitVec.toNat_shiftLeft, BitVec.toNat_add,
    Nat.shiftLeft_eq, Nat.shiftRight_eq_div_pow, one,
    Nat.mod_eq_of_lt (show preBlend.toNat + 1 < 2 ^ 32 by omega),
    Nat.mod_eq_of_lt (show (preBlend.toNat + 1) * 2 ^ 8 < 2 ^ 32 by omega),
    Nat.mod_eq_of_lt (by omega)]
  omega

/-- The `k`th byte of a word, as a number. -/
def channel (word : Word) (k : ℕ) : ℕ := word.toNat / 256 ^ k % 256

/-- A channel is a byte. -/
theorem channel_le (word : Word) (k : ℕ) : channel word k ≤ 255 :=
  Nat.le_of_lt_succ (Nat.mod_lt _ (by norm_num))

/-- Shift and mask read a channel. -/
theorem toNat_shifted_and (word : Word) (k : ℕ) :
    (word >>> (8 * k) &&& 0xff).toNat = channel word k := by
  have mask : (0xff : Word).toNat = 2 ^ 8 - 1 := rfl
  rw [BitVec.toNat_and, mask, Nat.and_two_pow_sub_one_eq_mod, BitVec.toNat_ushiftRight,
    Nat.shiftRight_eq_div_pow, pow_mul]
  rfl

/-- The average of two channels, weighted by the cursor's alpha channel. -/
def blended (pixel cursor : Word) (k : ℕ) : ℕ :=
  (channel pixel k * (255 - channel cursor 3) + channel cursor k * channel cursor 3) / 255

/-- The average of two bytes is a byte. -/
theorem blended_le (pixel cursor : Word) (k : ℕ) : blended pixel cursor k ≤ 255 := by
  have := weighted_le (channel_le pixel k) (channel_le cursor k) (channel_le cursor 3)
  rw [blended]
  omega

/-- Three averages side by side; none of them runs over into the next. -/
theorem blendAlpha_toNat (pixel cursor : Word) :
    (blendAlpha pixel cursor).toNat =
      blended pixel cursor 0 + 256 * blended pixel cursor 1 +
        65536 * blended pixel cursor 2 := by
  have alpha : (cursor >>> 24).toNat = channel cursor 3 := by
    rw [BitVec.toNat_ushiftRight, Nat.shiftRight_eq_div_pow, channel]
    have := cursor.isLt
    omega
  have component : ∀ k,
      (blendComponent (pixel >>> (8 * k) &&& 0xff) (cursor >>> (8 * k) &&& 0xff)
        (cursor >>> 24)).toNat = blended pixel cursor k := by
    intro k
    have p := toNat_shifted_and pixel k
    have c := toNat_shifted_and cursor k
    have a := alpha
    rw [blendComponent_toNat (p ▸ channel_le pixel k) (c ▸ channel_le cursor k)
      (a ▸ channel_le cursor 3), p, c, a, blended]
  have second : ∀ word : Word,
      (word &&& 0xff00) >>> 8 = word >>> (8 * 1) &&& 0xff := fun word =>
    BitVec.ushiftRight_and_distrib word 0xff00 8
  have third : ∀ word : Word, (word &&& 0xff0000) >>> 16 = word >>> (8 * 2) &&& 0xff :=
    fun word => BitVec.ushiftRight_and_distrib word 0xff0000 16
  have first : ∀ word : Word, word &&& (0xff : Word) = word >>> (8 * 0) &&& (0xff : Word) :=
    fun word => rfl
  have b₀ := blended_le pixel cursor 0
  have b₁ := blended_le pixel cursor 1
  have b₂ := blended_le pixel cursor 2
  rw [blendAlpha, first pixel, first cursor, second pixel, second cursor, third pixel,
    third cursor, BitVec.toNat_or, BitVec.toNat_or, BitVec.toNat_shiftLeft,
    BitVec.toNat_shiftLeft,
    component, component, component, Nat.shiftLeft_eq, Nat.shiftLeft_eq,
    Nat.mod_eq_of_lt (show blended pixel cursor 1 * 2 ^ 8 < 2 ^ 32 by omega),
    Nat.mod_eq_of_lt (show blended pixel cursor 2 * 2 ^ 16 < 2 ^ 32 by omega)]
  have low : blended pixel cursor 0 ||| blended pixel cursor 1 * 2 ^ 8 =
      blended pixel cursor 1 * 2 ^ 8 + blended pixel cursor 0 := by
    rw [Nat.or_comm, ← Nat.shiftLeft_eq, Nat.shiftLeft_add_eq_or_of_lt (by omega)]
  have high : (blended pixel cursor 1 * 2 ^ 8 + blended pixel cursor 0) |||
      blended pixel cursor 2 * 2 ^ 16 = blended pixel cursor 2 * 2 ^ 16 +
        (blended pixel cursor 1 * 2 ^ 8 + blended pixel cursor 0) := by
    rw [Nat.or_comm, ← Nat.shiftLeft_eq _ 16, Nat.shiftLeft_add_eq_or_of_lt (by omega)]
  rw [low, high]
  omega

/-- **Blending is exact**: of any two pixels each channel is the weighted average, rounded
down, and nothing overflows into another channel or the padding. -/
theorem channel_blendAlpha (pixel cursor : Word) :
    (∀ k < 3, channel (blendAlpha pixel cursor) k =
      (channel pixel k * (255 - channel cursor 3) + channel cursor k * channel cursor 3) /
        255) ∧
      channel (blendAlpha pixel cursor) 3 = 0 := by
  have b₀ := blended_le pixel cursor 0
  have b₁ := blended_le pixel cursor 1
  have b₂ := blended_le pixel cursor 2
  have value := blendAlpha_toNat pixel cursor
  constructor
  · intro k hk
    show _ = blended pixel cursor k
    rw [channel, value]
    obtain rfl | rfl | rfl : k = 0 ∨ k = 1 ∨ k = 2 := by omega
    all_goals omega
  · rw [channel, value]
    omega

/-! ## The cursor -/

/-- What the cursor uses of a `struct evdi_gem_object`. -/
structure EvdiGemObject where
  size : ℕ
  vmapping : Option (List UInt8)
  deriving DecidableEq, Repr

/-- `struct evdi_cursor` -/
structure EvdiCursor where
  enabled : Bool
  x : ℤ
  y : ℤ
  width : ℕ
  height : ℕ
  hotX : ℤ
  hotY : ℤ
  pixelFormat : ℕ
  stride : ℕ
  obj : Option EvdiGemObject
  deriving DecidableEq, Repr

/-- `evdi_cursor_enable(cursor, enable)` -/
def cursorEnable (cursor : EvdiCursor) (enable : Bool) : EvdiCursor :=
  { cursor with enabled := enable, obj := if enable then cursor.obj else none }

/-- `evdi_cursor_set(cursor, obj, width, height, hot_x, hot_y, pixel_format, stride)`.
`vmap` is `evdi_gem_vmap`: the object as it is then, or an error. -/
def cursorSet (vmap : EvdiGemObject → Except ℤ EvdiGemObject) (cursor : EvdiCursor)
    (obj : Option EvdiGemObject) (width height : ℕ) (hotX hotY : ℤ)
    (pixelFormat stride : ℕ) : EvdiCursor :=
  let obj := obj.bind fun obj =>
    if obj.vmapping.isSome then some obj
    else
      match vmap obj with
      | .ok obj => some obj
      | .error _ => none
  { cursor with enabled := obj.isSome, width, height, hotX, hotY, pixelFormat, stride, obj }

/-- `evdi_cursor_move(cursor, x, y)` -/
def cursorMove (cursor : EvdiCursor) (x y : ℤ) : EvdiCursor := { cursor with x, y }

/-- `evdi_cursor_compose_pixel(buffer, cursor_value, fb_value, cmd_offset)` -/
def cursorComposePixel (writable : ℤ → Bool) (cursorValue fbValue : Word) (cmdOffset : ℤ)
    (mem : Memory) : Memory × ℕ :=
  copyToUser writable mem cmdOffset (wordBytes (blendAlpha fbValue cursorValue))

/-- The `(x, y)` that the loops go through. -/
def cursorOffsets (hCursorW hCursorH : ℤ) : List (ℤ × ℤ) :=
  (counting hCursorH 1 0 (-hCursorH, 0)).flatMap fun (y, _) =>
    (counting hCursorW 1 0 (-hCursorW, 0)).map fun (x, _) => (x, y)

/-- The body of the loops, for each of them. -/
def cursorComposePixels (writable : ℤ → Bool) (cursor : EvdiCursor)
    (cursorBuffer : List UInt8) (efb : EvdiFramebuffer) (vmapping : List UInt8)
    (bufByteStride : ℤ) :
    List (ℤ × ℤ) → Memory → Option (ℤ × Memory)
  | [], mem => some (0, mem)
  | (x, y) :: offsets, mem =>
      let hCursorW : ℤ := (cursor.width / 2 : ℕ)
      let hCursorH : ℤ := (cursor.height / 2 : ℕ)
      let mousePixX := int32 (cursor.x + x + hCursorW)
      let mousePixY := int32 (cursor.y + y + hCursorH)
      -- `is_pix_sane`
      if 0 ≤ mousePixX ∧ 0 ≤ mousePixY ∧ mousePixX < efb.width ∧ mousePixY < efb.height then
        let cursorPix := int32 (hCursorW + x + (hCursorH + y) * cursor.width)
        (natAt 4 cursorBuffer (4 * cursorPix)).bind fun cursVal =>
          (natAt 4 vmapping
            (4 * (((efb.pitch / 4 : ℕ) * mousePixY + mousePixX) % 2 ^ 32))).bind
              fun fbValue =>
            let cmdOffset := int32 (bufByteStride * mousePixY + mousePixX * 4)
            let (mem, left) :=
              cursorComposePixel writable (.ofNat 32 cursVal) (.ofNat 32 fbValue)
              cmdOffset mem
            if left ≠ 0 then some (-eFault, mem)
            else cursorComposePixels writable cursor cursorBuffer efb vmapping
              bufByteStride offsets
              mem
      else cursorComposePixels writable cursor cursorBuffer efb vmapping
        bufByteStride offsets mem

/-- `evdi_cursor_compose_and_copy(cursor, efb, buffer, buf_byte_stride)`.  `getBpp` is
`evdi_fb_get_bpp`. -/
def cursorComposeAndCopy (getBpp : ℕ → ℕ) (writable : ℤ → Bool) (cursor : EvdiCursor)
    (efb : EvdiFramebuffer) (vmapping : List UInt8) (bufByteStride : ℤ) (mem : Memory) :
    Option (ℤ × Memory) :=
  if cursor.enabled then
    match cursor.obj with
    | none => some (-eInval, mem)
    | some obj =>
        match obj.vmapping with
        | none => some (-eInval, mem)
        | some cursorBuffer =>
            let bytespp := (getBpp cursor.pixelFormat + 7) / 8
            if bytespp ≠ 4 then some (-eInval, mem)
            else if obj.size < cursor.width * cursor.height * bytespp % 2 ^ 32 then
              some (-eInval, mem)
            else
              cursorComposePixels writable cursor cursorBuffer efb vmapping bufByteStride
                (cursorOffsets (cursor.width / 2 : ℕ) (cursor.height / 2 : ℕ)) mem
  else some (0, mem)

/-! ## What is drawn -/

/-- `cursor_buffer[cursor_pix]` -/
def cursorWord (cursorBuffer : List UInt8) (cursorPix : ℤ) : Word :=
  wordAt (load cursorBuffer) (4 * cursorPix)

/-- The pixels of the cursor that are drawn; of an odd number of columns or rows the
last one is not. -/
def EvdiCursor.area (cursor : EvdiCursor) : Set Pos :=
  {p | (cursor.x ≤ p.1 ∧ p.1 < cursor.x + 2 * (cursor.width / 2 : ℕ)) ∧
    cursor.y ≤ p.2 ∧ p.2 < cursor.y + 2 * (cursor.height / 2 : ℕ)}

/-- The pixels of the frame. -/
def EvdiFramebuffer.frame (efb : EvdiFramebuffer) : Set Pos :=
  {p | (0 ≤ p.1 ∧ p.1 < efb.width) ∧ 0 ≤ p.2 ∧ p.2 < efb.height}

instance (efb : EvdiFramebuffer) : DecidablePred (· ∈ efb.frame) := fun p =>
  inferInstanceAs (Decidable ((0 ≤ p.1 ∧ p.1 < efb.width) ∧ 0 ≤ p.2 ∧ p.2 < efb.height))

/-- The desktop with the cursor over it. -/
def composedWord (cursor : EvdiCursor) (cursorBuffer : List UInt8) (efb : EvdiFramebuffer)
    (vmapping : List UInt8) (p : Pos) : Word :=
  blendAlpha (scanoutWord efb vmapping p)
    (cursorWord cursorBuffer (p.1 - cursor.x + (p.2 - cursor.y) * cursor.width))

/-- The memory that spells a word for each pixel. -/
def spelled (stride : ℤ) (word : Pos → Word) : Memory :=
  fun k => (wordBytes (word (k % stride / 4, k / stride))).getD (k % stride % 4).toNat 0

/-- The bytes of one pixel. -/
theorem spelled_address {stride : ℤ} (word : Pos → Word) {p : Pos} (left : 0 ≤ p.1)
    (right : 4 * p.1 + 4 ≤ stride) {j : ℕ} (small : j < 4) :
    spelled stride word (address stride p + j) = (wordBytes (word p)).getD j 0 := by
  obtain ⟨row, offset⟩ := row_ediv_emod p.2 (show 0 ≤ 4 * p.1 + (j : ℤ) by omega)
    (show 4 * p.1 + (j : ℤ) < stride by omega)
  rw [spelled, address, add_assoc, row, offset]
  have column : (4 * p.1 + (j : ℤ)) / 4 = p.1 := by omega
  have byte : ((4 * p.1 + (j : ℤ)) % 4).toNat = j := by omega
  rw [column, byte]

/-- Spelled out, a word is read back. -/
theorem wordAt_spelled {stride : ℤ} (word : Pos → Word) {p : Pos} (left : 0 ≤ p.1)
    (right : 4 * p.1 + 4 ≤ stride) :
    wordAt (spelled stride word) (address stride p) = word p := by
  have stored := wordAt_overwrite_self (spelled stride word) (address stride p) (word p)
  rw [← stored]
  refine wordAt_congr fun k from_p below => ?_
  -- Storing the word over itself changes nothing.
  refine (overwrite_of_forall (mem_keys_writesAt.mpr ⟨from_p, by rwa [length_wordBytes]⟩)
    fun w hw here => ?_).symm
  obtain ⟨-, there⟩ := mem_writesAt.mp hw
  obtain ⟨inside, byte⟩ := List.getElem?_eq_some_iff.mp there
  rw [length_wordBytes] at inside
  have spells := spelled_address word left right inside
  rw [List.getD_eq_getElem?_getD, there, Option.getD_some, here,
    show address stride p + ((k - address stride p).toNat : ℕ) = k by omega] at spells
  exact spells.symm

/-- The position is an `int` and the size is counted in 32 bits. -/
structure EvdiCursor.Counted (cursor : EvdiCursor) : Prop where
  x : InRange 32 cursor.x
  y : InRange 32 cursor.y
  size : cursor.width * cursor.height * 4 < 2 ^ 32

/-- An `int` that overflows is not the coordinate of a pixel. -/
theorem int32_sane {x : ℤ} (i bound : ℤ) (hx : InRange 32 x) (nonneg : 0 ≤ i)
    (small : i < 2 ^ 31) (narrow : bound ≤ 2 ^ 31) :
    (0 ≤ int32 (x + i) ∧ int32 (x + i) < bound ↔ 0 ≤ x + i ∧ x + i < bound) ∧
      (0 ≤ x + i → x + i < bound → int32 (x + i) = x + i) := by
  obtain ⟨low, high⟩ := hx
  rw [int32, Int.bmod_def]
  norm_num at *
  split <;> omega

section Drawing

variable (writable : ℤ → Bool) {cursor : EvdiCursor} {cursorBuffer : List UInt8}
  {efb : EvdiFramebuffer} {vmapping : List UInt8} {stride : ℤ}

/-- Reading the pixel that is under the cursor. -/
theorem scanout_natAt (backed : efb.Backed vmapping) (aligned : 4 ∣ efb.pitch) {p : Pos}
    (hp : p ∈ efb.frame) :
    ∃ value,
      natAt 4 vmapping (4 * (((efb.pitch / 4 : ℕ) * p.2 + p.1) % 2 ^ 32)) = some value ∧
      BitVec.ofNat 32 value = scanoutWord efb vmapping p := by
  obtain ⟨⟨left, right⟩, above, below⟩ := hp
  obtain ⟨pitch, hpitch⟩ := aligned
  have wide := backed.row
  have rows := backed.rows
  have small := backed.small
  have room : (efb.pitch : ℤ) * (p.2 + 1) ≤ efb.pitch * efb.height :=
    mul_le_mul_of_nonneg_left (by omega) (by omega)
  have start : 0 ≤ (efb.pitch : ℤ) * p.2 := mul_nonneg (by omega) above
  rw [mul_add, mul_one] at room
  zify at rows wide small
  have quarter : ((efb.pitch / 4 : ℕ) : ℤ) = pitch := by
    rw [hpitch, Nat.mul_div_cancel_left _ (by norm_num)]
  have exact : 4 * (((efb.pitch / 4 : ℕ) * p.2 + p.1) % 2 ^ 32) = address efb.pitch p := by
    have product : (efb.pitch : ℤ) * p.2 = 4 * (pitch * p.2) := by
      rw [hpitch]
      push_cast
      ring
    rw [quarter, address, product, Int.emod_eq_of_lt (by omega)
      (by norm_num at small ⊢; omega)]
    ring
  rw [exact]
  refine natAt_eq_wordAt ?_ ?_ <;> rw [address] <;> omega

/-- Reading the cursor's own pixel. -/
theorem cursor_natAt (counted : cursor.Counted)
    (held : cursor.width * cursor.height * 4 ≤ cursorBuffer.length) {i j : ℤ}
    (hi : 0 ≤ i ∧ i < cursor.width) (hj : 0 ≤ j ∧ j < cursor.height) :
    ∃ value, natAt 4 cursorBuffer (4 * int32 (i + j * cursor.width)) = some value ∧
      BitVec.ofNat 32 value = cursorWord cursorBuffer (i + j * cursor.width) := by
  have small := counted.size
  have last : (j + 1) * (cursor.width : ℤ) ≤ cursor.height * cursor.width :=
    mul_le_mul_of_nonneg_right (by omega) (by omega)
  have start : 0 ≤ j * (cursor.width : ℤ) := mul_nonneg hj.1 (by omega)
  rw [add_mul, one_mul, mul_comm (cursor.height : ℤ)] at last
  zify at small held
  have exact : int32 (i + j * cursor.width) = i + j * cursor.width := by
    apply int32_of_bounds
    · omega
    · norm_num at small ⊢
      omega
  rw [exact]
  exact natAt_eq_wordAt (by omega) (by omega)

/-- Where the loops are at `(x, y)`. -/
def mousePix (cursor : EvdiCursor) (offset : ℤ × ℤ) : Pos :=
  (cursor.x + (offset.1 + (cursor.width / 2 : ℕ)),
    cursor.y + (offset.2 + (cursor.height / 2 : ℕ)))

/-- `x` and `y` are between these bounds. -/
def OffsetOf (cursor : EvdiCursor) (offset : ℤ × ℤ) : Prop :=
  (-(cursor.width / 2 : ℕ) ≤ offset.1 ∧ offset.1 < (cursor.width / 2 : ℕ)) ∧
    -(cursor.height / 2 : ℕ) ≤ offset.2 ∧ offset.2 < (cursor.height / 2 : ℕ)

/-- The test of `is_pix_sane`: whether the pixel is in the frame, and if so where. -/
theorem isPixSane_iff (mode : Admitted efb.width efb.height) (counted : cursor.Counted)
    {x y : ℤ} (inside : OffsetOf cursor (x, y)) :
    let mousePixX := int32 (cursor.x + x + (cursor.width / 2 : ℕ))
    let mousePixY := int32 (cursor.y + y + (cursor.height / 2 : ℕ))
    ((0 ≤ mousePixX ∧ 0 ≤ mousePixY ∧ mousePixX < efb.width ∧ mousePixY < efb.height) ↔
        mousePix cursor (x, y) ∈ efb.frame) ∧
      (mousePix cursor (x, y) ∈ efb.frame →
        (mousePixX, mousePixY) = mousePix cursor (x, y)) := by
  obtain ⟨⟨left, right⟩, above, below⟩ := inside
  obtain ⟨narrow, low⟩ := mode
  -- There is a row and a column, so each of them is no longer than the whole.
  have columns : cursor.width * 1 ≤ cursor.width * cursor.height :=
    Nat.mul_le_mul_left _ (by omega)
  have rows : 1 * cursor.height ≤ cursor.width * cursor.height :=
    Nat.mul_le_mul_right _ (by omega)
  have size := counted.size
  have saneX := int32_sane (x + (cursor.width / 2 : ℕ)) efb.width counted.x
    (by omega) (by norm_num at size ⊢; omega) (by norm_num; omega)
  have saneY := int32_sane (y + (cursor.height / 2 : ℕ)) efb.height counted.y
    (by omega) (by norm_num at size ⊢; omega) (by norm_num; omega)
  simp only [add_assoc]
  simp only [mousePix, EvdiFramebuffer.frame, Set.mem_ofPred_eq]
  refine ⟨?_, fun ⟨⟨h₁, h₂⟩, h₃, h₄⟩ => by rw [saneX.2 h₁ h₂, saneY.2 h₃ h₄]⟩
  rw [← saneX.1, ← saneY.1]
  constructor
  · exact fun ⟨h₁, h₂, h₃, h₄⟩ => ⟨⟨h₁, h₃⟩, h₂, h₄⟩
  · exact fun ⟨⟨h₁, h₃⟩, h₂, h₄⟩ => ⟨h₁, h₂, h₃, h₄⟩

/-- The pixels of the frame that are drawn at some offsets. -/
def drawnAt (cursor : EvdiCursor) (efb : EvdiFramebuffer) (offsets : List (ℤ × ℤ)) :
    Set Pos :=
  efb.frame ∩ {p | ∃ offset ∈ offsets, mousePix cursor offset = p}

/-- Nothing is drawn outside of the frame. -/
theorem drawnAt_cons_of_notMem {offset : ℤ × ℤ} (h : mousePix cursor offset ∉ efb.frame)
    (offsets : List (ℤ × ℤ)) :
    drawnAt cursor efb (offset :: offsets) = drawnAt cursor efb offsets := by
  ext p
  simp only [drawnAt, Set.mem_inter_iff, Set.mem_ofPred_eq, List.mem_cons, or_and_right,
    exists_or, exists_eq_left]
  constructor
  · rintro ⟨inFrame, rfl | rest⟩
    · exact absurd inFrame h
    · exact ⟨inFrame, rest⟩
  · exact fun ⟨inFrame, rest⟩ => ⟨inFrame, Or.inr rest⟩

/-- In the frame it is one pixel more. -/
theorem drawnAt_cons_of_mem {offset : ℤ × ℤ} (h : mousePix cursor offset ∈ efb.frame)
    (offsets : List (ℤ × ℤ)) :
    drawnAt cursor efb (offset :: offsets) =
      {mousePix cursor offset} ∪ drawnAt cursor efb offsets := by
  ext p
  simp only [drawnAt, Set.mem_inter_iff, Set.mem_ofPred_eq, List.mem_cons, or_and_right,
    exists_or, exists_eq_left, Set.mem_union, Set.mem_singleton_iff]
  constructor
  · rintro ⟨inFrame, rfl | rest⟩
    · exact Or.inl rfl
    · exact Or.inr ⟨inFrame, rest⟩
  · rintro (rfl | ⟨inFrame, rest⟩)
    · exact ⟨h, Or.inl rfl⟩
    · exact ⟨inFrame, Or.inr rest⟩

/-- **The loops that draw**, from some offset on. -/
theorem cursorComposePixels_spec (backed : efb.Backed vmapping)
    (fits : efb.FitsInto stride) (mode : Admitted efb.width efb.height)
    (aligned : 4 ∣ efb.pitch) (counted : cursor.Counted)
    (held : cursor.width * cursor.height * 4 ≤ cursorBuffer.length)
    {offsets : List (ℤ × ℤ)} (inside : ∀ offset ∈ offsets, OffsetOf cursor offset)
    (mem : Memory) :
    ∃ result,
      cursorComposePixels writable cursor cursorBuffer efb vmapping stride offsets mem =
        some result ∧
      Outcome (spelled stride (composedWord cursor cursorBuffer efb vmapping))
        (bytesOf stride (drawnAt cursor efb offsets))
        (∀ k ∈ bytesOf stride (drawnAt cursor efb offsets), writable k = true)
        mem result := by
  induction offsets generalizing mem with
  | nil =>
      refine ⟨(0, mem), rfl, (Outcome.nothing _ _ True).congr_set ?_ fun _ => trivial⟩
      exact Set.eq_empty_iff_forall_notMem.mpr
        fun k ⟨p, ⟨_, offset, member, _⟩, _⟩ => List.not_mem_nil member
  | cons offset offsets ih =>
      obtain ⟨x, y⟩ := offset
      have here := inside _ List.mem_cons_self
      have rest := ih fun offset h => inside offset (List.mem_cons_of_mem _ h)
      obtain ⟨sane, position⟩ := isPixSane_iff mode counted here
      rw [cursorComposePixels]
      by_cases inFrame : mousePix cursor (x, y) ∈ efb.frame
      · obtain ⟨hx, hy⟩ := Prod.ext_iff.mp (position inFrame)
        dsimp only at hx hy
        dsimp only
        rw [if_pos (sane.mpr inFrame), hx, hy]
        obtain ⟨⟨left, right⟩, above, below⟩ := here
        obtain ⟨cursVal, readCursor, cursorPixel⟩ := cursor_natAt counted held
          (i := (cursor.width / 2 : ℕ) + x) (j := (cursor.height / 2 : ℕ) + y)
            (by omega) (by omega)
        obtain ⟨fbValue, readScanout, scanoutPixel⟩ := scanout_natAt backed aligned inFrame
        rw [readCursor, Option.bind_some, readScanout, Option.bind_some, cursorPixel,
          scanoutPixel]
        have word : blendAlpha (scanoutWord efb vmapping (mousePix cursor (x, y)))
            (cursorWord cursorBuffer ((cursor.width / 2 : ℕ) + x +
              ((cursor.height / 2 : ℕ) + y) * cursor.width)) =
              composedWord cursor cursorBuffer efb vmapping (mousePix cursor (x, y)) := by
          rw [composedWord]
          congr 3 <;> rw [mousePix] <;> ring
        rw [cursorComposePixel, word, drawnAt_cons_of_mem inFrame]
        generalize mousePix cursor (x, y) = p at inFrame ⊢
        obtain ⟨⟨fromLeft, toRight⟩, fromTop, toBottom⟩ := inFrame
        have row := fits.row
        have offset : int32 (stride * p.2 + p.1 * 4) = address stride p := by
          have rows : stride * (p.2 + 1) ≤ stride * efb.height :=
            mul_le_mul_of_nonneg_left (by omega) (by omega)
          have start : 0 ≤ stride * p.2 := mul_nonneg (by omega) fromTop
          have small := fits.small
          rw [mul_add, mul_one] at rows
          rw [address, mul_comm 4, int32_of_bounds (by omega) (by omega)]
        rw [offset]
        generalize composedWord cursor cursorBuffer efb vmapping = word at rest ⊢
        have carries : ∀ j : ℕ, ∀ byte, (wordBytes (word p))[j]? = some byte →
            byte = spelled stride word (address stride p + j) := by
          intro j byte there
          obtain ⟨short, rfl⟩ := List.getElem?_eq_some_iff.mp there
          rw [length_wordBytes] at short
          rw [spelled_address word fromLeft (by omega) short,
            List.getD_eq_getElem?_getD, there, Option.getD_some]
        have pixel := Outcome.copyToUser writable carries mem
        have pixelSet : bytesOf stride {p} =
            {k | address stride p ≤ k ∧
              k < address stride p + (wordBytes (word p)).length} := by
          ext k
          simp [bytesOf, length_wordBytes]
        have pixel := pixel.congr_set pixelSet id
        obtain ⟨result, drawn, outcome⟩ :=
          rest (copyToUser writable mem (address stride p) (wordBytes (word p))).1
        have both := pixel.andThen fun _ => outcome
        rw [← bytesOf_union] at both
        refine ⟨_, ?_, both.congr_set rfl fun fine => ?_⟩
        · rw [drawn]
          by_cases missing :
            (copyToUser writable mem (address stride p) (wordBytes (word p))).2 = 0
          · simp [missing]
          · simp [missing, eFault]
        · rw [bytesOf_union] at fine
          exact ⟨fun k hk => fine k (Or.inl (pixelSet ▸ hk)),
            fun k hk => fine k (Or.inr hk)⟩
      · rw [if_neg (mt sane.mp inFrame), drawnAt_cons_of_notMem inFrame]
        exact rest mem

/-- The loops go through all offsets between the bounds. -/
theorem mem_cursorOffsets {offset : ℤ × ℤ} :
    offset ∈ cursorOffsets (cursor.width / 2 : ℕ) (cursor.height / 2 : ℕ) ↔
      OffsetOf cursor offset := by
  have loop : ∀ (half v : ℤ), (∃ b, (v, b) ∈ counting half 1 0 (-half, 0)) ↔
      -half ≤ v ∧ v < half := by
    intro half v
    simp only [mem_counting Int.one_pos, Prod.mk.injEq, mul_one, mul_zero, add_zero]
    constructor
    · rintro ⟨-, k, ⟨rfl, -⟩, below⟩
      omega
    · rintro ⟨low, high⟩
      exact ⟨0, (v + half).toNat, ⟨by omega, rfl⟩, by omega⟩
  obtain ⟨x, y⟩ := offset
  rw [OffsetOf, ← loop, ← loop, cursorOffsets, List.mem_flatMap]
  constructor
  · rintro ⟨⟨y', b⟩, rows, columns⟩
    obtain ⟨⟨x', b'⟩, column, same⟩ := List.mem_map.mp columns
    obtain ⟨rfl, rfl⟩ := Prod.mk.inj same
    exact ⟨⟨b', column⟩, b, rows⟩
  · rintro ⟨⟨b', column⟩, b, rows⟩
    exact ⟨(y, b), rows, List.mem_map.mpr ⟨(x, b'), column, rfl⟩⟩

/-- All of them together: the part of the cursor that is in the frame. -/
theorem drawnAt_cursorOffsets :
    drawnAt cursor efb (cursorOffsets (cursor.width / 2 : ℕ) (cursor.height / 2 : ℕ)) =
      efb.frame ∩ cursor.area := by
  ext ⟨x, y⟩
  simp only [drawnAt, Set.mem_inter_iff, Set.mem_ofPred_eq, mem_cursorOffsets,
    OffsetOf, mousePix, EvdiCursor.area, Prod.mk.injEq]
  refine and_congr_right fun _ => ⟨?_, fun inside => ?_⟩
  · rintro ⟨offset, inside, rfl, rfl⟩
    omega
  · exact ⟨(x - cursor.x - (cursor.width / 2 : ℕ), y - cursor.y - (cursor.height / 2 : ℕ)),
      by omega, by omega, by omega⟩

end Drawing

/-! ## The whole of a grab -/

/-- The object of a cursor that passes the checks of `evdi_cursor_compose_and_copy`. -/
def EvdiCursor.shown (getBpp : ℕ → ℕ) (cursor : EvdiCursor) : Option (List UInt8) :=
  if cursor.enabled then
    cursor.obj.bind fun obj =>
      obj.vmapping.filter fun _ =>
        decide ((getBpp cursor.pixelFormat + 7) / 8 = 4 ∧
          cursor.width * cursor.height * 4 % 2 ^ 32 ≤ obj.size)
  else none

/-- The mapping of the cursor's object has the size of the object. -/
def EvdiCursor.Mapped (cursor : EvdiCursor) : Prop :=
  ∀ obj cursorBuffer, cursor.obj = some obj → obj.vmapping = some cursorBuffer →
    cursorBuffer.length = obj.size

/-- `copy_cursor_pixels(efb, buffer, buf_byte_stride, cursor)`, which logs a failure and
goes on. -/
def copyCursorPixels (enableCursorBlending : Bool) (getBpp : ℕ → ℕ) (writable : ℤ → Bool)
    (efb : EvdiFramebuffer) (vmapping : List UInt8) (bufByteStride : ℤ)
    (cursor : EvdiCursor) (mem : Memory) : Option Memory :=
  if enableCursorBlending then
    (cursorComposeAndCopy getBpp writable cursor efb vmapping bufByteStride mem).map
      Prod.snd
  else some mem

/-- The end of `evdi_painter_grabpix_ioctl`: all that it copies to the client's buffer. -/
def copyPixels (enableCursorBlending : Bool) (getBpp : ℕ → ℕ) (writable : ℤ → Bool)
    (efb : EvdiFramebuffer) (vmapping : List UInt8) (bufByteStride : ℤ)
    (cursor : EvdiCursor) (rects : List DrmClipRect) (mem : Memory) :
    Option (ℤ × Memory) :=
  (copyPrimaryPixels writable efb vmapping bufByteStride efb.width efb.height rects
    mem).bind
    fun (err, mem) =>
      if err = 0 then
        (copyCursorPixels enableCursorBlending getBpp writable efb vmapping
          bufByteStride cursor
          mem).map fun mem => (err, mem)
      else some (err, mem)

section Grabbing

variable (getBpp : ℕ → ℕ) (writable : ℤ → Bool) {cursor : EvdiCursor}
  {efb : EvdiFramebuffer} {vmapping : List UInt8} {stride : ℤ}

/-- **Drawing the cursor.** -/
theorem cursorComposeAndCopy_spec (backed : efb.Backed vmapping)
    (fits : efb.FitsInto stride) (mode : Admitted efb.width efb.height)
    (aligned : 4 ∣ efb.pitch) (counted : cursor.Counted) (mapped : cursor.Mapped)
    (mem : Memory) :
    ∃ result,
      cursorComposeAndCopy getBpp writable cursor efb vmapping stride mem = some result ∧
      (cursor.shown getBpp = none → result.2 = mem) ∧
      ∀ cursorBuffer, cursor.shown getBpp = some cursorBuffer →
        Outcome (spelled stride (composedWord cursor cursorBuffer efb vmapping))
          (bytesOf stride (efb.frame ∩ cursor.area))
          (∀ k ∈ bytesOf stride (efb.frame ∩ cursor.area), writable k = true)
          mem result := by
  rw [cursorComposeAndCopy]
  cases enabled : cursor.enabled with
  | false => exact ⟨(0, mem), rfl, fun _ => rfl, by simp [EvdiCursor.shown, enabled]⟩
  | true =>
      cases hobj : cursor.obj with
      | none => exact ⟨(-eInval, mem), rfl, fun _ => rfl, by simp [EvdiCursor.shown, hobj]⟩
      | some obj =>
          cases hmap : obj.vmapping with
          | none =>
              exact ⟨(-eInval, mem), by simp [hmap], fun _ => rfl,
                by simp [EvdiCursor.shown, hobj, hmap]⟩
          | some cursorBuffer =>
              have shown :
                  cursor.shown getBpp = if (getBpp cursor.pixelFormat + 7) / 8 = 4 ∧
                  cursor.width * cursor.height * 4 % 2 ^ 32 ≤ obj.size
                then some cursorBuffer else none := by
                simp [EvdiCursor.shown, enabled, hobj, hmap, Option.filter]
              rw [shown]
              simp only [hmap, if_true]
              by_cases four : (getBpp cursor.pixelFormat + 7) / 8 = 4
              · by_cases sized : cursor.width * cursor.height * 4 % 2 ^ 32 ≤ obj.size
                · have held : cursor.width * cursor.height * 4 ≤ cursorBuffer.length := by
                    rwa [mapped obj cursorBuffer hobj hmap, ← Nat.mod_eq_of_lt counted.size]
                  obtain ⟨result, drawn, outcome⟩ := cursorComposePixels_spec
                    writable backed fits mode aligned counted held
                    (fun offset => mem_cursorOffsets.mp) mem
                  rw [drawnAt_cursorOffsets] at outcome
                  rw [four, if_neg (not_not.mpr rfl), if_neg (Nat.not_lt.mpr sized), drawn,
                    if_pos ⟨rfl, sized⟩]
                  refine ⟨result, rfl, nofun, fun _ same => ?_⟩
                  cases same
                  exact outcome
                · rw [four, if_neg (not_not.mpr rfl), if_pos (Nat.lt_of_not_le sized),
                    if_neg fun h => sized h.2]
                  exact ⟨(-eInval, mem), rfl, fun _ => rfl, nofun⟩
              · rw [if_pos four, if_neg fun h => four h.1]
                exact ⟨(-eInval, mem), rfl, fun _ => rfl, nofun⟩

/-- The cursor that is drawn, if one is. -/
def shownCursor (enableCursorBlending : Bool) (getBpp : ℕ → ℕ) (cursor : EvdiCursor) :
    Option (List UInt8) :=
  if enableCursorBlending then cursor.shown getBpp else none

/-- The pixels it is drawn over. -/
def overlaidArea (enableCursorBlending : Bool) (getBpp : ℕ → ℕ) (cursor : EvdiCursor)
    (efb : EvdiFramebuffer) : Set Pos :=
  {p | (shownCursor enableCursorBlending getBpp cursor).isSome = true ∧ p ∈ efb.frame ∧
    p ∈ cursor.area}

instance (cursor : EvdiCursor) : DecidablePred (· ∈ cursor.area) := fun p =>
  inferInstanceAs
    (Decidable ((cursor.x ≤ p.1 ∧ p.1 < cursor.x + 2 * (cursor.width / 2 : ℕ)) ∧
    cursor.y ≤ p.2 ∧ p.2 < cursor.y + 2 * (cursor.height / 2 : ℕ)))

/-- What a pixel of the client's buffer is to show. -/
def overlaidWord (enableCursorBlending : Bool) (getBpp : ℕ → ℕ) (cursor : EvdiCursor)
    (efb : EvdiFramebuffer) (vmapping : List UInt8) (p : Pos) : Word :=
  match shownCursor enableCursorBlending getBpp cursor with
  | none => scanoutWord efb vmapping p
  | some cursorBuffer =>
      if p ∈ cursor.area then composedWord cursor cursorBuffer efb vmapping p
      else scanoutWord efb vmapping p

/-- A cursor that is not shown leaves the buffer as it was. -/
theorem copyCursorPixels_of_none {enableCursorBlending : Bool}
    (backed : efb.Backed vmapping) (fits : efb.FitsInto stride)
    (mode : Admitted efb.width efb.height) (aligned : 4 ∣ efb.pitch)
    (counted : cursor.Counted) (mapped : cursor.Mapped)
    (hidden : shownCursor enableCursorBlending getBpp cursor = none) (mem : Memory) :
    copyCursorPixels enableCursorBlending getBpp writable efb vmapping stride cursor mem =
      some mem := by
  cases enableCursorBlending with
  | false => rfl
  | true =>
      obtain ⟨result, drawn, nothing, -⟩ := cursorComposeAndCopy_spec getBpp
        writable backed fits mode aligned counted mapped mem
      rw [copyCursorPixels, if_pos rfl, drawn, Option.map_some, nothing hidden]

/-- A cursor that is shown is spelled over the frame. -/
theorem copyCursorPixels_of_some {enableCursorBlending : Bool} {cursorBuffer : List UInt8}
    (backed : efb.Backed vmapping) (fits : efb.FitsInto stride)
    (mode : Admitted efb.width efb.height) (aligned : 4 ∣ efb.pitch)
    (counted : cursor.Counted) (mapped : cursor.Mapped)
    (shown : shownCursor enableCursorBlending getBpp cursor = some cursorBuffer)
    (fine : ∀ k ∈ bytesOf stride (efb.frame ∩ cursor.area), writable k = true)
    (mem : Memory) :
    ∃ mem', copyCursorPixels enableCursorBlending getBpp writable efb vmapping stride
      cursor mem =
        some mem' ∧
      Outcome (spelled stride (composedWord cursor cursorBuffer efb vmapping))
        (bytesOf stride (efb.frame ∩ cursor.area)) True mem (0, mem') := by
  cases enableCursorBlending with
  | false => cases shown
  | true =>
      obtain ⟨⟨err, mem'⟩, drawn, -, outcome⟩ := cursorComposeAndCopy_spec getBpp
        writable backed fits mode aligned counted mapped mem
      have outcome := outcome cursorBuffer shown
      obtain rfl : err = 0 := outcome.succeeds fine
      refine ⟨mem', ?_, outcome.congr_set rfl fun _ => fine⟩
      rw [copyCursorPixels, if_pos rfl, drawn]
      rfl

/-- The addresses of the frame's pixels are in a buffer with room for all rows. -/
theorem address_bounds (fits : efb.FitsInto stride) {p : Pos} (hp : p ∈ efb.frame) :
    0 ≤ address stride p ∧ address stride p + 4 ≤ stride * efb.height := by
  obtain ⟨⟨left, right⟩, above, below⟩ := hp
  have row := fits.row
  have rows : stride * (p.2 + 1) ≤ stride * efb.height :=
    mul_le_mul_of_nonneg_left (by omega) (by omega)
  have start : 0 ≤ stride * p.2 := mul_nonneg (by omega) above
  rw [mul_add, mul_one] at rows
  rw [address]
  omega

/-- Rectangles inside the frame have only pixels of the frame. -/
theorem dirtyArea_subset_frame {rects : List DrmClipRect}
    (within : ∀ r ∈ rects, r.Within efb.width efb.height) :
    dirtyArea rects ⊆ efb.frame := by
  rintro p ⟨r, hr, hp⟩
  obtain ⟨-, right, -, below⟩ := within r hr
  rw [DrmClipRect.mem_pixels] at hp
  exact ⟨by omega, by omega⟩

/-- **A grab with the cursor**: into a buffer with room for the frame it succeeds.  The
rectangles show the desktop with the cursor over it, as do the pixels the cursor is drawn
over, in a rectangle or not; no other pixel is written. -/
theorem copyPixels_spec (enableCursorBlending : Bool) (backed : efb.Backed vmapping)
    (fits : efb.FitsInto stride) (mode : Admitted efb.width efb.height)
    (aligned : 4 ∣ efb.pitch) (counted : cursor.Counted) (mapped : cursor.Mapped)
    {rects : List DrmClipRect} (within : ∀ r ∈ rects, r.Within efb.width efb.height)
    (fine : ∀ k, 0 ≤ k → k < stride * efb.height → writable k = true) (mem : Memory) :
    ∃ mem', copyPixels enableCursorBlending getBpp writable efb vmapping stride
      cursor rects mem =
        some (0, mem') ∧
      ∀ p : Pos, 0 ≤ p.1 ∧ p.1 < efb.width →
        (p ∈ dirtyArea rects ∪ overlaidArea enableCursorBlending getBpp cursor efb →
          wordAt mem' (address stride p) =
            overlaidWord enableCursorBlending getBpp cursor efb vmapping p) ∧
        (p ∉ dirtyArea rects ∪ overlaidArea enableCursorBlending getBpp cursor efb →
          wordAt mem' (address stride p) = wordAt mem (address stride p)) := by
  have writes : ∀ S ⊆ efb.frame, ∀ k ∈ bytesOf stride S, writable k = true := by
    rintro S inFrame k ⟨p, hp, from_p, below_p⟩
    have := address_bounds fits (inFrame hp)
    exact fine k (by omega) (by omega)
  have inFrame := dirtyArea_subset_frame within
  obtain ⟨⟨err, primary⟩, copied, outcome, -⟩ := copyPrimaryPixels_spec writable
    backed fits (fun r hr => ⟨(within r hr).x1_le_x2, (within r hr).y1_le_y2⟩) mem
  obtain rfl : err = 0 := outcome.succeeds ⟨within, writes _ inFrame⟩
  have words := fun (p : Pos) (hp : 0 ≤ p.1 ∧ p.1 < efb.width) =>
    outcome.words rfl (wordAt_scanned fits.row hp.1 hp.2) fits.row
      (fun q hq => (inFrame hq).1) hp
  rw [copyPixels, copied, Option.bind_some]
  dsimp only
  rw [if_pos rfl]
  cases shown : shownCursor enableCursorBlending getBpp cursor with
  | none =>
      rw [copyCursorPixels_of_none getBpp writable backed fits mode aligned counted
        mapped shown]
      refine ⟨primary, rfl,
        fun p hp => ⟨?_, fun other => (words p hp).2 fun h => other (Or.inl h)⟩⟩
      rintro (dirty | ⟨visible, -⟩)
      · rw [overlaidWord, shown]
        exact (words p hp).1 dirty
      · rw [shown] at visible
        cases visible
  | some cursorBuffer =>
      obtain ⟨mem', drawn, overlay⟩ := copyCursorPixels_of_some getBpp writable backed fits
        mode aligned counted mapped shown (writes _ Set.inter_subset_left) primary
      rw [drawn]
      refine ⟨mem', rfl, fun p hp => ?_⟩
      have right : 4 * p.1 + 4 ≤ stride := by
        have := fits.row
        omega
      obtain ⟨covering, beside⟩ :=
        overlay.words (p := p) rfl (wordAt_spelled _ hp.1 right) fits.row
        (fun q hq => hq.1.1) hp
      have word : ∀ q, overlaidWord enableCursorBlending getBpp cursor efb vmapping q =
          if q ∈ cursor.area then composedWord cursor cursorBuffer efb vmapping q
          else scanoutWord efb vmapping q := fun q => by rw [overlaidWord, shown]
      rw [word]
      constructor
      · intro hmem
        have framed : p ∈ efb.frame := hmem.elim (fun h => inFrame h) fun h => h.2.1
        by_cases covered : p ∈ cursor.area
        · rw [if_pos covered]
          exact covering ⟨framed, covered⟩
        · rw [if_neg covered, beside fun h => covered h.2]
          exact (words p hp).1 (hmem.resolve_right fun h => covered h.2.2)
      · intro other
        rw [beside fun h => other (Or.inr ⟨by rw [shown]; rfl, h.1, h.2⟩)]
        exact (words p hp).2 fun h => other (Or.inl h)

/-- A cursor of 2x2 pixels, half of it over a frame of 2x1. -/
theorem copyPixels_spec_corner :
    let efb : EvdiFramebuffer := ⟨1, 2, 1, 8, 32, 0⟩
    let cursor : EvdiCursor :=
      ⟨true, 1, 0, 2, 2, 0, 0, 0, 8, some ⟨16, some (List.replicate 16 255)⟩⟩
    ∃ mem', copyPixels true (fun _ => 32) (fun _ => true) efb (List.replicate 8 7) 8 cursor
        [⟨0, 0, 1, 1⟩] (fun _ => 0) = some (0, mem') ∧
      wordAt mem' (address 8 (1, 0)) =
        overlaidWord true (fun _ => 32) cursor efb (List.replicate 8 7) (1, 0) := by
  intro efb cursor
  have counted : cursor.Counted := ⟨by decide, by decide, by decide⟩
  have mapped : cursor.Mapped := by
    rintro obj cursorBuffer ⟨⟩ ⟨⟩
    rfl
  have within : ∀ r ∈ [(⟨0, 0, 1, 1⟩ : DrmClipRect)], r.Within 2 1 :=
    List.forall_mem_singleton.mpr ⟨by decide, by decide, by decide, by decide⟩
  have visible : (shownCursor true (fun _ => 32) cursor).isSome = true := by
    simp [shownCursor, EvdiCursor.shown, cursor]
  obtain ⟨mem', copied, words⟩ := copyPixels_spec (fun _ => 32) (fun _ => true) true
    (show efb.Backed (List.replicate 8 7) from ⟨by decide, by decide, by decide⟩)
    (show efb.FitsInto 8 from ⟨by decide, by decide⟩) ⟨by decide, by decide⟩
      (by decide) counted
    mapped within (fun _ _ _ => rfl) fun _ => 0
  refine ⟨mem', copied, (words (1, 0) (by decide)).1 (Or.inr ⟨visible, ?_, ?_⟩)⟩
  · exact ⟨⟨by decide, by decide⟩, by decide, by decide⟩
  · exact ⟨⟨by decide, by decide⟩, by decide, by decide⟩

end Grabbing

end Kernelflut.Driver
