import Kernelflut.Foundations.LittleEndian
import Kernelflut.Foundations.Overwrites
import Mathlib.Data.BitVec
import Mathlib.Data.List.TakeWhile

/-!
# Memory of another process

A kernel writes to a buffer of a process with `copy_to_user`, which may meet an
address that cannot be written: it copies the bytes before it, and returns how many
are missing.  The memory is a map from addresses, and `writesAt` are the writes of some
bytes from an address on, to be applied by `Overwrites.overwrite`.

A transfer makes a part of the memory agree with a target, copy by copy; if it is
broken off, then in some places and not in others (`Transfers`, `Agrees`).

`wordAt` is a word of four bytes, least significant first.
-/

namespace ByteMemory

open LittleEndian Overwrites

abbrev Memory := ℤ → UInt8

/-- The writes of bytes to consecutive addresses. -/
def writesAt : ℤ → List UInt8 → List (ℤ × UInt8)
  | _, [] => []
  | a, byte :: bytes => (a, byte) :: writesAt (a + 1) bytes

/-- `copy_to_user`: the memory it leaves, and the number of bytes it did not copy. -/
def copyToUser (writable : ℤ → Bool) (mem : Memory) (dst : ℤ) (bytes : List UInt8) :
    Memory × ℕ :=
  let copied := (writesAt dst bytes).takeWhile fun w => writable w.1
  (overwrite mem copied, bytes.length - copied.length)

/-- The word at an address. -/
def wordAt (mem : Memory) (a : ℤ) : BitVec 32 :=
  .ofNat 32 (natOf [mem a, mem (a + 1), mem (a + 2), mem (a + 3)])

theorem length_writesAt (a : ℤ) (bytes : List UInt8) :
    (writesAt a bytes).length = bytes.length := by
  induction bytes generalizing a with
  | nil => rfl
  | cons byte bytes ih => rw [writesAt, List.length_cons, List.length_cons, ih]

theorem mem_writesAt {a : ℤ} {bytes : List UInt8} {w : ℤ × UInt8} :
    w ∈ writesAt a bytes ↔ a ≤ w.1 ∧ bytes[(w.1 - a).toNat]? = some w.2 := by
  induction bytes generalizing a with
  | nil => simp [writesAt]
  | cons byte bytes ih =>
      rw [writesAt, List.mem_cons, ih]
      constructor
      · rintro (rfl | ⟨beyond, there⟩)
        · simp
        · have next : (w.1 - a).toNat = (w.1 - (a + 1)).toNat + 1 := by omega
          exact ⟨by omega, by rw [next, List.getElem?_cons_succ, there]⟩
      · rintro ⟨from_a, there⟩
        rcases eq_or_lt_of_le from_a with first | beyond
        · left
          rw [← first, Int.sub_self] at there
          exact Prod.ext first.symm (Option.some.inj there).symm
        · right
          have next : (w.1 - a).toNat = (w.1 - (a + 1)).toNat + 1 := by omega
          rw [next, List.getElem?_cons_succ] at there
          exact ⟨by omega, there⟩

theorem mem_keys_writesAt {a k : ℤ} {bytes : List UInt8} :
    k ∈ (writesAt a bytes).map Prod.fst ↔ a ≤ k ∧ k < a + bytes.length := by
  rw [List.mem_map]
  constructor
  · rintro ⟨w, hw, rfl⟩
    obtain ⟨from_a, there⟩ := mem_writesAt.mp hw
    obtain ⟨inside, -⟩ := List.getElem?_eq_some_iff.mp there
    omega
  · rintro ⟨from_a, inside⟩
    have inside' : (k - a).toNat < bytes.length := by omega
    exact ⟨(k, bytes[(k - a).toNat]),
      mem_writesAt.mpr ⟨from_a, List.getElem?_eq_getElem inside'⟩, rfl⟩

/-! ## Transfers -/

/-- Inside `S` some addresses were made to agree with `target`; all else is as it was. -/
def Transfers (target : Memory) (S : Set ℤ) (mem mem' : Memory) : Prop :=
  ∀ k, mem' k = mem k ∨ k ∈ S ∧ mem' k = target k

/-- Inside `S` the memory agrees with `target`. -/
def Agrees (target : Memory) (S : Set ℤ) (mem : Memory) : Prop := ∀ k ∈ S, mem k = target k

section Transfers

variable {target mem mem' mem'' : Memory} {S S' : Set ℤ}

theorem Transfers.refl (target mem : Memory) (S : Set ℤ) : Transfers target S mem mem :=
  fun _ => Or.inl rfl

theorem Transfers.mono (subset : S ⊆ S') (h : Transfers target S mem mem') :
    Transfers target S' mem mem' :=
  fun k => (h k).imp id fun ⟨inside, agrees⟩ => ⟨subset inside, agrees⟩

theorem Transfers.trans (h : Transfers target S mem mem')
    (h' : Transfers target S mem' mem'') :
    Transfers target S mem mem'' := by
  intro k
  rcases h' k with same | transferred
  · rw [same]
    exact h k
  · exact Or.inr transferred

/-- What agrees already is not spoiled. -/
theorem Agrees.transfer (agrees : Agrees target S mem) (h : Transfers target S' mem mem') :
    Agrees target S mem' := by
  intro k hk
  rcases h k with same | transferred
  · rw [same]
    exact agrees k hk
  · exact transferred.2

theorem Agrees.union (h : Agrees target S mem) (h' : Agrees target S' mem) :
    Agrees target (S ∪ S') mem := fun k hk => hk.elim (h k) (h' k)

theorem Transfers.of_notMem (h : Transfers target S mem mem') {k : ℤ} (hk : k ∉ S) :
    mem' k = mem k := (h k).resolve_right fun inside => hk inside.1

/-- **One copy**, of bytes that are the target's: what it leaves out it reports, and
without a fault it leaves nothing out. -/
theorem copyToUser_spec (writable : ℤ → Bool) {dst : ℤ} {bytes : List UInt8}
    (carries : ∀ k : ℕ, ∀ byte, bytes[k]? = some byte → byte = target (dst + k))
    (mem : Memory) :
    let S := {k | dst ≤ k ∧ k < dst + bytes.length}
    let result := copyToUser writable mem dst bytes
    Transfers target S mem result.1 ∧ (result.2 = 0 → Agrees target S result.1) ∧
      ((∀ k ∈ S, writable k = true) → result.2 = 0) := by
  intro S result
  have carry : Carry target (writesAt dst bytes) := by
    intro w hw
    obtain ⟨from_dst, there⟩ := mem_writesAt.mp hw
    rw [carries _ _ there]
    congr 1
    omega
  have copied : ∀ w ∈ (writesAt dst bytes).takeWhile (fun w => writable w.1),
      w ∈ writesAt dst bytes := fun w hw => (List.takeWhile_prefix _).subset hw
  have outcome : ∀ k, result.1 k = if k ∈ ((writesAt dst bytes).takeWhile
      fun w => writable w.1).map Prod.fst then target k else mem k :=
    overwrite_of_carry fun w hw => carry w (copied w hw)
  refine ⟨fun k => ?_, fun all k hk => ?_, fun fine => ?_⟩
  · rw [outcome]
    split
    · next written =>
        obtain ⟨w, hw, rfl⟩ := List.mem_map.mp written
        exact Or.inr ⟨mem_keys_writesAt.mp (List.mem_map_of_mem (copied w hw)), rfl⟩
    · exact Or.inl rfl
  · have whole :
        (writesAt dst bytes).takeWhile (fun w => writable w.1) = writesAt dst bytes := by
      apply (List.takeWhile_prefix _).eq_of_length_le
      have missing : bytes.length - ((writesAt dst bytes).takeWhile
        fun w => writable w.1).length = 0 := all
      rw [length_writesAt]
      omega
    rw [outcome, whole, if_pos (mem_keys_writesAt.mpr hk)]
  · have whole :
        (writesAt dst bytes).takeWhile (fun w => writable w.1) = writesAt dst bytes := by
      rw [List.takeWhile_eq_self_iff]
      exact fun w hw => fine w.1 (mem_keys_writesAt.mp (List.mem_map_of_mem hw))
    show bytes.length - ((writesAt dst bytes).takeWhile fun w => writable w.1).length = 0
    rw [whole, length_writesAt, Nat.sub_self]

end Transfers

/-! ## Words -/

theorem wordAt_congr {mem mem' : Memory} {a : ℤ}
    (h : ∀ k, a ≤ k → k < a + 4 → mem k = mem' k) : wordAt mem a = wordAt mem' a := by
  rw [wordAt, wordAt, h a (by omega) (by omega), h (a + 1) (by omega) (by omega),
    h (a + 2) (by omega) (by omega), h (a + 3) (by omega) (by omega)]

/-- The bytes of an object as a memory. -/
def load (bytes : List UInt8) : Memory := fun k => bytes.getD k.toNat 0

/-- Reading a word of an object. -/
theorem natAt_eq_wordAt {bytes : List UInt8} {a : ℤ} (nonneg : 0 ≤ a)
    (inside : a + 4 ≤ bytes.length) :
    ∃ value,
      natAt 4 bytes a = some value ∧ BitVec.ofNat 32 value = wordAt (load bytes) a := by
  obtain ⟨n, rfl⟩ := Int.eq_ofNat_of_zero_le nonneg
  have byte : ∀ j : ℕ, j < 4 → load bytes (n + j) = ((bytes.drop n).take 4).getD j 0 := by
    intro j small
    rw [load, show ((n : ℤ) + j).toNat = n + j by omega, List.getD_eq_getElem?_getD,
      List.getD_eq_getElem?_getD, List.getElem?_take_of_lt small, List.getElem?_drop]
  have b₀ := byte 0 (by omega)
  have b₁ := byte 1 (by omega)
  have b₂ := byte 2 (by omega)
  have b₃ := byte 3 (by omega)
  rw [Nat.cast_zero, add_zero] at b₀
  rw [Nat.cast_one] at b₁
  rw [Nat.cast_ofNat] at b₂ b₃
  obtain ⟨w, x, y, z, four⟩ : ∃ w x y z, (bytes.drop n).take 4 = [w, x, y, z] := by
    refine List.length_eq_four.mp ?_
    rw [List.length_take, List.length_drop]
    omega
  refine ⟨natOf [w, x, y, z], ?_, ?_⟩
  · rw [natAt, slice, if_pos ⟨nonneg, inside⟩, Int.toNat_natCast, four]
    rfl
  · rw [four] at b₀ b₁ b₂ b₃
    rw [wordAt, b₀, b₁, b₂, b₃]
    rfl

/-- The bytes of a word, in memory. -/
def wordBytes (word : BitVec 32) : List UInt8 := natBytes 4 word.toNat

theorem length_wordBytes (word : BitVec 32) : (wordBytes word).length = 4 :=
  length_natBytes 4 _

/-- **A word that is stored** is there. -/
theorem wordAt_overwrite_self (mem : Memory) (a : ℤ) (word : BitVec 32) :
    wordAt (overwrite mem (writesAt a (wordBytes word))) a = word := by
  have stored : ∀ k : ℕ, ∀ hk : k < (wordBytes word).length,
      overwrite mem (writesAt a (wordBytes word)) (a + k) = (wordBytes word)[k] := by
    intro k hk
    refine overwrite_of_forall (mem_keys_writesAt.mpr ⟨by omega, by omega⟩)
      fun w hw here => ?_
    have there := (mem_writesAt.mp hw).2
    rw [here, show (a + k - a).toNat = k by omega, List.getElem?_eq_getElem hk] at there
    exact (Option.some.inj there).symm
  have b₀ := stored 0 (by rw [length_wordBytes]; omega)
  have b₁ := stored 1 (by rw [length_wordBytes]; omega)
  have b₂ := stored 2 (by rw [length_wordBytes]; omega)
  have b₃ := stored 3 (by rw [length_wordBytes]; omega)
  rw [Nat.cast_zero, add_zero] at b₀
  rw [Nat.cast_one] at b₁
  rw [Nat.cast_ofNat] at b₂ b₃
  have value : natOf (wordBytes word) = word.toNat := natOf_natBytes word.isLt
  calc wordAt (overwrite mem (writesAt a (wordBytes word))) a
      = .ofNat 32 (natOf (wordBytes word)) := by
        rw [wordAt, b₀, b₁, b₂, b₃]
        rfl
    _ = word := by rw [value, BitVec.ofNat_toNat, BitVec.setWidth_eq]

end ByteMemory
