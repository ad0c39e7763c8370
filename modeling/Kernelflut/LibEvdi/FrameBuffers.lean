import Kernelflut.Driver.Painter
import Kernelflut.Foundations.LinkedLists

/-!
# The frame buffers of libevdi

A handle has a linked list of the buffers that are registered with it.  The functions
below are those of `evdi_lib.c` that walk it, node by node and pointer by pointer, as a
`LinkedLists.Store`.  What dereferences a node that is not allocated, and an `assert` that
fails, is `none`.

To the client the list is a `Registry`: the buffers in the order of their registration, no
two with one id.  `library_refines` says that the two agree in every run.  So no node is
used after it was freed, none is freed twice and none is lost, and the only calls that
fail are those the client must not make.

`fuel` bounds the loops.  A list is no longer than the calls before it, so the runs have
enough of it.
-/

namespace Kernelflut.LibEvdi

open Kernelflut.Pixelflut Kernelflut.Driver LinkedLists PartialStep

/-- `struct evdi_buffer`, without the rectangles, which the library does not use. -/
structure EvdiBuffer where
  id : ℤ
  /-- An address. -/
  buffer : ℤ
  width : ℤ
  height : ℤ
  stride : ℤ
  deriving DecidableEq, Repr

/-- `struct evdi_device_context` -/
structure EvdiDeviceContext where
  bufferToUpdate : ℤ
  /-- `frameBuffersListHead`, and the nodes. -/
  frameBuffers : Store EvdiBuffer

/-- `findBuffer(context, id)`, from a node on. -/
def findBufferFrom (id : ℤ) (s : Store EvdiBuffer) : ℕ → Option Addr → Option (Option Addr)
  | 0, _ => none
  | _ + 1, none => some none
  | fuel + 1, some a =>
      (s.nodes a).bind fun node =>
        if node.value.id = id then some (some a) else findBufferFrom id s fuel node.next

def findBuffer (fuel : ℕ) (s : Store EvdiBuffer) (id : ℤ) : Option (Option Addr) :=
  findBufferFrom id s fuel s.head

/-- `addFrameBuffer(context, frame_buffer)`, from a pointer on.  `assert(node)` is about
the pointer to the new node and not the node, so without memory it is NULL that is copied
to. -/
def addFrameBufferFrom (calloc : Store EvdiBuffer → Option Addr) (frameBuffer : EvdiBuffer)
    (s : Store EvdiBuffer) : ℕ → Slot → Option (Store EvdiBuffer)
  | 0, _ => none
  | fuel + 1, node =>
      (s.load node).bind fun
        | some a => addFrameBufferFrom calloc frameBuffer s fuel (.next a)
        | none =>
            (calloc s).bind fun a =>
              ({ s with nodes := Function.update s.nodes a (some ⟨frameBuffer, none⟩) } :
                Store EvdiBuffer).store node (some a)

def addFrameBuffer (calloc : Store EvdiBuffer → Option Addr) (fuel : ℕ)
    (s : Store EvdiBuffer) (frameBuffer : EvdiBuffer) : Option (Store EvdiBuffer) :=
  addFrameBufferFrom calloc frameBuffer s fuel .head

/-- "NULL matches every buffer" -/
def matchesId (id : Option ℤ) (frameBuffer : EvdiBuffer) : Bool :=
  match id with
  | none => true
  | some id => frameBuffer.id = id

/-- The loop of `removeFrameBuffer(context, id)`. -/
def removeFrameBufferFrom (id : Option ℤ) :
    ℕ → Store EvdiBuffer → Option Addr → Slot → ℕ → Option (Store EvdiBuffer × ℕ)
  | 0, _, _, _, _ => none
  | _ + 1, s, none, _, removedCount => some (s, removedCount)
  | fuel + 1, s, some current, prev, removedCount =>
      (s.nodes current).bind fun node =>
        if matchesId id node.value then
          (s.free current).bind fun s =>
            (s.store prev node.next).bind fun s =>
              removeFrameBufferFrom id fuel s node.next prev (removedCount + 1)
        else removeFrameBufferFrom id fuel s node.next (.next current) removedCount

def removeFrameBuffer (fuel : ℕ) (s : Store EvdiBuffer) (id : Option ℤ) :
    Option (Store EvdiBuffer × ℕ) :=
  removeFrameBufferFrom id fuel s s.head .head 0

/-- `evdi_register_buffer(handle, buffer)` -/
def evdiRegisterBuffer (calloc : Store EvdiBuffer → Option Addr) (fuel : ℕ)
    (handle : EvdiDeviceContext) (buffer : EvdiBuffer) : Option EvdiDeviceContext :=
  (findBuffer fuel handle.frameBuffers buffer.id).bind fun found =>
    if found = none then
      (addFrameBuffer calloc fuel handle.frameBuffers buffer).map fun frameBuffers =>
        { handle with frameBuffers }
    else none

/-- `evdi_unregister_buffer(handle, bufferId)`.  A buffer is the first member of its node,
so the address of none is NULL. -/
def evdiUnregisterBuffer (fuel : ℕ) (handle : EvdiDeviceContext) (bufferId : ℤ) :
    Option EvdiDeviceContext :=
  (findBuffer fuel handle.frameBuffers bufferId).bind fun found =>
    if found = none then none
    else (removeFrameBuffer fuel handle.frameBuffers (some bufferId)).map fun removed =>
      { handle with frameBuffers := removed.1 }

/-- `evdi_request_update(handle, bufferId)`, given the result of the ioctl. -/
def evdiRequestUpdate (handle : EvdiDeviceContext) (bufferId requestResult : ℤ) :
    EvdiDeviceContext × Bool :=
  ({ handle with bufferToUpdate := bufferId }, requestResult = 1)

/-- `struct drm_evdi_grabpix`, but for the rectangles it points to. -/
structure DrmEvdiGrabpix extends EvdiDevice.Grabpix where
  bufByteStride : ℤ
  buffer : ℤ
  deriving DecidableEq, Repr

/-- `MAX_DIRTS` of the library. -/
def maxKernelDirts : ℤ := 16

/-- The ioctl for a buffer, and the rectangles.  `ioctl` has the result, and the first
`num_rects` of `kernelDirts`. -/
def grabInto (ioctl : DrmEvdiGrabpix → ℤ × List DrmClipRect)
    (destinationBuffer : EvdiBuffer) :
    List EvdiRect :=
  let (err, kernelDirts) := ioctl
    { mode := EvdiDevice.grabpixModeDirty
      bufWidth := destinationBuffer.width
      bufHeight := destinationBuffer.height
      bufByteStride := destinationBuffer.stride
      buffer := destinationBuffer.buffer
      numRects := maxKernelDirts }
  if err = 0 then kernelDirts.map DrmClipRect.toEvdiRect else []

/-- `evdi_grab_pixels(handle, rects, num_rects)`: the rectangles. -/
def evdiGrabPixels (ioctl : DrmEvdiGrabpix → ℤ × List DrmClipRect) (fuel : ℕ)
    (handle : EvdiDeviceContext) : Option (List EvdiRect) :=
  (findBuffer fuel handle.frameBuffers handle.bufferToUpdate).bind fun
    | none => some []
    | some a => (handle.frameBuffers.nodes a).map fun node => grabInto ioctl node.value

/-! ## Walking the list -/

section Walks

variable {s : Store EvdiBuffer} {entries rest : List (Addr × EvdiBuffer)}
  {current : Option Addr} {fuel : ℕ}

/-- **Searching** from a node on finds the first entry with that id. -/
theorem findBufferFrom_eq (id : ℤ) (chain : Chain s.nodes current rest none)
    (enough : rest.length < fuel) :
    findBufferFrom id s fuel current =
      some ((rest.find? fun e => e.2.id = id).map Prod.fst) := by
  obtain ⟨fuel, rfl⟩ : ∃ n, fuel = n + 1 := Nat.exists_eq_succ_of_ne_zero (by omega)
  induction rest generalizing current fuel with
  | nil =>
      obtain rfl : current = none := chain
      rfl
  | cons e rest ih =>
      obtain ⟨rfl, next, node, chain⟩ := chain
      rw [findBufferFrom, node, Option.bind_some, List.find?_cons]
      dsimp only
      by_cases here : e.2.id = id
      · simp [here]
      · rw [if_neg here, decide_eq_false here]
        rw [List.length_cons] at enough
        obtain ⟨fuel, rfl⟩ : ∃ n, fuel = n + 1 := Nat.exists_eq_succ_of_ne_zero (by omega)
        exact ih chain fuel (by omega)

/-- From the head it is the first of all. -/
theorem findBuffer_eq (holds : Holds s entries) (enough : entries.length < fuel) (id : ℤ) :
    findBuffer fuel s id = some ((entries.find? fun e => e.2.id = id).map Prod.fst) :=
  findBufferFrom_eq id holds.chain enough

/-- **Adding**: the loop walks to the last slot and puts the new node there. -/
theorem addFrameBufferFrom_spec (before : List (Addr × EvdiBuffer))
    {calloc : Store EvdiBuffer → Option Addr} {a : Addr} (allocated : calloc s = some a)
    (fresh : s.nodes a = none) (frameBuffer : EvdiBuffer) (holds : Holds s (before ++ rest))
    (first : Chain s.nodes s.head before current)
    (chain : Chain s.nodes current rest none) (enough : rest.length < fuel) :
    ∃ s', addFrameBufferFrom calloc frameBuffer s fuel (lastSlot before) = some s' ∧
      Holds s' (before ++ rest ++ [(a, frameBuffer)]) := by
  obtain ⟨fuel, rfl⟩ : ∃ n, fuel = n + 1 := Nat.exists_eq_succ_of_ne_zero (by omega)
  induction rest generalizing before current fuel with
  | nil =>
      obtain rfl : current = none := chain
      rw [List.append_nil] at holds ⊢
      obtain ⟨s', stored, holds'⟩ := holds.exists_append fresh frameBuffer
      refine ⟨s', ?_, holds'⟩
      rw [addFrameBufferFrom, load_lastSlot first, Option.bind_some]
      simp only [allocated, Option.bind_some, stored]
  | cons e rest ih =>
      obtain ⟨rfl, next, node, chain⟩ := chain
      rw [addFrameBufferFrom, load_lastSlot first, Option.bind_some]
      rw [List.length_cons] at enough
      obtain ⟨fuel, rfl⟩ : ∃ n, fuel = n + 1 := Nat.exists_eq_succ_of_ne_zero (by omega)
      have walked : Chain s.nodes s.head (before ++ [e]) next :=
        chain_append.mpr ⟨_, first, rfl, next, node, rfl⟩
      have same : before ++ e :: rest = before ++ [e] ++ rest := by simp
      rw [same] at holds ⊢
      have := ih _ holds walked chain fuel (by omega)
      rwa [lastSlot_concat] at this

/-- **A buffer is added behind the others.** -/
theorem addFrameBuffer_spec {calloc : Store EvdiBuffer → Option Addr} {a : Addr}
    (allocated : calloc s = some a) (fresh : s.nodes a = none) (frameBuffer : EvdiBuffer)
    (holds : Holds s entries) (enough : entries.length < fuel) :
    ∃ s', addFrameBuffer calloc fuel s frameBuffer = some s' ∧
      Holds s' (entries ++ [(a, frameBuffer)]) :=
  addFrameBufferFrom_spec [] allocated fresh frameBuffer holds rfl holds.chain enough

/-- Without memory it fails at the end of the list. -/
theorem addFrameBufferFrom_of_full {calloc : Store EvdiBuffer → Option Addr}
    (full : calloc s = none) (frameBuffer : EvdiBuffer) (fuel : ℕ) (node : Slot) :
    addFrameBufferFrom calloc frameBuffer s fuel node = none := by
  induction fuel generalizing node with
  | zero => rfl
  | succ fuel ih =>
      rw [addFrameBufferFrom]
      rcases s.load node with _ | _ | a
      · rfl
      · simp [full]
      · exact ih (.next a)

/-- The loop keeps what does not match, and frees what does. -/
theorem removeFrameBufferFrom_spec (before : List (Addr × EvdiBuffer)) (id : Option ℤ)
    (removedCount : ℕ) (holds : Holds s (before ++ rest))
    (first : Chain s.nodes s.head before current)
    (chain : Chain s.nodes current rest none) (enough : rest.length < fuel) :
    ∃ s', removeFrameBufferFrom id fuel s current (lastSlot before) removedCount =
        some (s', removedCount + (rest.filter fun e => matchesId id e.2).length) ∧
      Holds s' (before ++ rest.filter fun e => !matchesId id e.2) := by
  obtain ⟨fuel, rfl⟩ : ∃ n, fuel = n + 1 := Nat.exists_eq_succ_of_ne_zero (by omega)
  induction rest generalizing s before current removedCount fuel with
  | nil =>
      obtain rfl : current = none := chain
      exact ⟨s, rfl, holds⟩
  | cons e rest ih =>
      obtain ⟨a, x⟩ := e
      obtain ⟨rfl, next, node, chain⟩ := chain
      rw [removeFrameBufferFrom, node, Option.bind_some]
      rw [List.length_cons] at enough
      obtain ⟨fuel, rfl⟩ : ∃ n, fuel = n + 1 := Nat.exists_eq_succ_of_ne_zero (by omega)
      cases matching : matchesId id x with
      | true =>
          have filtered : ((a, x) :: rest).filter (fun e => matchesId id e.2) =
                (a, x) :: rest.filter (fun e => matchesId id e.2) ∧
              ((a, x) :: rest).filter (fun e => !matchesId id e.2) =
                rest.filter fun e => !matchesId id e.2 := by
            simp [matching]
          obtain ⟨s₁, s₂, freed, stored, holds₂, first₂, chain₂⟩ :=
            holds.exists_remove first chain
          obtain ⟨s', looped, holds'⟩ :=
            ih before (removedCount + 1) holds₂ first₂ chain₂ fuel (by omega)
          refine ⟨s', ?_, ?_⟩
          · rw [if_pos rfl, freed, Option.bind_some, stored, Option.bind_some,
              looped, filtered.1, List.length_cons, Nat.add_assoc, Nat.add_comm 1]
          · rwa [filtered.2]
      | false =>
          have filtered : ((a, x) :: rest).filter (fun e => matchesId id e.2) =
                rest.filter (fun e => matchesId id e.2) ∧
              ((a, x) :: rest).filter (fun e => !matchesId id e.2) =
                (a, x) :: rest.filter fun e => !matchesId id e.2 := by
            simp [matching]
          have walked : Chain s.nodes s.head (before ++ [(a, x)]) next :=
            chain_append.mpr ⟨_, first, rfl, next, node, rfl⟩
          have same : before ++ (a, x) :: rest = before ++ [(a, x)] ++ rest := by simp
          rw [same] at holds
          obtain ⟨s', looped, holds'⟩ :=
            ih _ removedCount holds walked chain fuel (by omega)
          rw [lastSlot_concat] at looped
          refine ⟨s', ?_, ?_⟩
          · rw [if_neg Bool.false_ne_true, looped, filtered.1]
          · rw [filtered.2]
            simpa using holds'

/-- **Exactly the buffers that match are removed**, each once. -/
theorem removeFrameBuffer_spec (id : Option ℤ) (holds : Holds s entries)
    (enough : entries.length < fuel) :
    ∃ s', removeFrameBuffer fuel s id =
        some (s', (entries.filter fun e => matchesId id e.2).length) ∧
      Holds s' (entries.filter fun e => !matchesId id e.2) := by
  have := removeFrameBufferFrom_spec [] id 0 holds rfl holds.chain enough
  rwa [Nat.zero_add] at this

end Walks

/-! ## What the client sees -/

structure Registry where
  bufferToUpdate : ℤ
  buffers : List EvdiBuffer

def Registry.start : Registry := ⟨0, []⟩

/-- `evdi_open` -/
def EvdiDeviceContext.start : EvdiDeviceContext := ⟨0, .empty⟩

inductive BufferCall where
  | register (buffer : EvdiBuffer)
  | unregister (bufferId : ℤ)
  | requestUpdate (bufferId : ℤ)

/-- What the calls are for. -/
def registryStep (r : Registry) : BufferCall → Option Registry
  | .register buffer =>
      if buffer.id ∈ r.buffers.map EvdiBuffer.id then none
      else some { r with buffers := r.buffers ++ [buffer] }
  | .unregister bufferId =>
      if bufferId ∈ r.buffers.map EvdiBuffer.id then
        some { r with buffers := r.buffers.filter fun buffer => buffer.id ≠ bufferId }
      else none
  | .requestUpdate bufferId => some { r with bufferToUpdate := bufferId }

def libraryStep (calloc : Store EvdiBuffer → Option Addr) (fuel : ℕ)
    (handle : EvdiDeviceContext) : BufferCall → Option EvdiDeviceContext
  | .register buffer => evdiRegisterBuffer calloc fuel handle buffer
  | .unregister bufferId => evdiUnregisterBuffer fuel handle bufferId
  | .requestUpdate bufferId => some (evdiRequestUpdate handle bufferId 0).1

/-- The list holds the buffers of the registry, and nothing else is allocated. -/
structure Represents (handle : EvdiDeviceContext) (r : Registry) : Prop where
  bufferToUpdate : handle.bufferToUpdate = r.bufferToUpdate
  held : ∃ entries, Holds handle.frameBuffers entries ∧ entries.map Prod.snd = r.buffers
  distinct : (r.buffers.map EvdiBuffer.id).Nodup

section Refinement

variable {calloc : Store EvdiBuffer → Option Addr} {fuel : ℕ}
  {handle handle' : EvdiDeviceContext} {r : Registry} {calls : List BufferCall}

/-- An empty list holds no buffers. -/
theorem represents_start : Represents .start .start :=
  ⟨rfl, ⟨[], holds_empty, rfl⟩, List.nodup_nil⟩

/-- Whether a buffer is found. -/
theorem findBuffer_eq_none_iff (represents : Represents handle r)
    (enough : r.buffers.length < fuel) (id : ℤ) :
    ∃ found, findBuffer fuel handle.frameBuffers id = some found ∧
      (found = none ↔ id ∉ r.buffers.map EvdiBuffer.id) := by
  obtain ⟨entries, holds, buffers⟩ := represents.held
  rw [← buffers, List.length_map] at enough
  refine ⟨_, findBuffer_eq holds enough id, ?_⟩
  rw [Option.map_eq_none_iff, List.find?_eq_none, ← buffers]
  simp [eq_comm]

/-- One step of both, or of neither. -/
def Matching (calloc : Store EvdiBuffer → Option Addr) (fuel : ℕ)
    (handle : EvdiDeviceContext) (r : Registry) (call : BufferCall) : Prop :=
  (∃ handle' r', libraryStep calloc fuel handle call = some handle' ∧
      registryStep r call = some r' ∧ Represents handle' r' ∧
      r'.buffers.length ≤ r.buffers.length + 1) ∨
    libraryStep calloc fuel handle call = none ∧
      (registryStep r call = none ∨
        ∃ buffer, call = .register buffer ∧ calloc handle.frameBuffers = none)

/-- A buffer that is registered is the last one of the list. -/
theorem Represents.register (represents : Represents handle r)
    (fresh : ∀ s a, calloc s = some a → s.nodes a = none) (enough : r.buffers.length < fuel)
    (buffer : EvdiBuffer) : Matching calloc fuel handle r (.register buffer) := by
  obtain ⟨found, searched, absent⟩ := findBuffer_eq_none_iff represents enough buffer.id
  obtain ⟨entries, holds, buffers⟩ := represents.held
  rw [Matching, libraryStep, evdiRegisterBuffer, searched, Option.bind_some, registryStep]
  by_cases known : buffer.id ∈ r.buffers.map EvdiBuffer.id
  · rw [if_neg (fun h => absent.mp h known), if_pos known]
    exact Or.inr ⟨rfl, Or.inl rfl⟩
  · rw [if_pos (absent.mpr known), if_neg known]
    cases allocated : calloc handle.frameBuffers with
    | none =>
        rw [addFrameBuffer, addFrameBufferFrom_of_full allocated]
        exact Or.inr ⟨rfl, Or.inr ⟨buffer, rfl, rfl⟩⟩
    | some a =>
        rw [← buffers, List.length_map] at enough
        obtain ⟨s', added, holds'⟩ :=
          addFrameBuffer_spec allocated (fresh _ _ allocated) buffer holds enough
        rw [added]
        refine Or.inl ⟨{ handle with frameBuffers := s' }, _, rfl, rfl,
          ⟨represents.bufferToUpdate, ?_, ?_⟩, ?_⟩
        · exact ⟨_, holds', by rw [List.map_append, buffers]; rfl⟩
        · rw [List.map_append, List.nodup_append]
          refine ⟨represents.distinct, List.nodup_singleton _, ?_⟩
          rintro id hid id' hid' rfl
          obtain rfl : id = buffer.id := by simpa using hid'
          exact known hid
        · exact List.length_append.le

/-- One that is unregistered leaves the others as they were. -/
theorem Represents.unregister (represents : Represents handle r)
    (enough : r.buffers.length < fuel) (bufferId : ℤ) :
    Matching calloc fuel handle r (.unregister bufferId) := by
  obtain ⟨found, searched, absent⟩ := findBuffer_eq_none_iff represents enough bufferId
  obtain ⟨entries, holds, buffers⟩ := represents.held
  rw [Matching, libraryStep, evdiUnregisterBuffer, searched, Option.bind_some, registryStep]
  by_cases known : bufferId ∈ r.buffers.map EvdiBuffer.id
  · rw [if_neg (fun h => absent.mp h known), if_pos known]
    rw [← buffers, List.length_map] at enough
    obtain ⟨s', removed, holds'⟩ := removeFrameBuffer_spec (some bufferId) holds enough
    rw [removed]
    refine Or.inl ⟨{ handle with frameBuffers := s' }, _, rfl, rfl,
      ⟨represents.bufferToUpdate, ?_, ?_⟩, ?_⟩
    · refine ⟨_, holds', ?_⟩
      rw [← buffers, List.filter_map]
      congr 1
      refine List.filter_congr fun e _ => ?_
      simp [matchesId]
    · exact represents.distinct.sublist (List.Sublist.map _ List.filter_sublist)
    · exact (List.length_filter_le _ _).trans (Nat.le_succ _)
  · rw [if_pos (absent.mpr known), if_neg known]
    exact Or.inr ⟨rfl, Or.inl rfl⟩

/-- One case per function of the library. -/
theorem Represents.step (represents : Represents handle r)
    (fresh : ∀ s a, calloc s = some a → s.nodes a = none) (enough : r.buffers.length < fuel)
    (call : BufferCall) : Matching calloc fuel handle r call := by
  cases call with
  | register buffer => exact represents.register fresh enough buffer
  | unregister bufferId => exact represents.unregister enough bufferId
  | requestUpdate bufferId =>
      exact Or.inl
        ⟨_, _, rfl, rfl, ⟨rfl, represents.held, represents.distinct⟩, Nat.le_succ _⟩

/-- As long as there is fuel for lists as long as the calls. -/
theorem Represents.run (represents : Represents handle r)
    (fresh : ∀ s a, calloc s = some a → s.nodes a = none)
    (enough : r.buffers.length + calls.length < fuel) :
    (∀ handle', PartialStep.run (libraryStep calloc fuel) handle calls = some handle' →
        ∃ r', PartialStep.run registryStep r calls = some r' ∧ Represents handle' r' ∧
          r'.buffers.length < fuel) ∧
      (PartialStep.run (libraryStep calloc fuel) handle calls = none →
        PartialStep.run registryStep r calls = none ∨
          ∃ before buffer after handle', calls = before ++ .register buffer :: after ∧
            PartialStep.run (libraryStep calloc fuel) handle before = some handle' ∧
            calloc handle'.frameBuffers = none) := by
  induction calls generalizing handle r with
  | nil =>
      refine ⟨?_, nofun⟩
      rintro _ ⟨⟩
      exact ⟨r, rfl, represents, by simpa using enough⟩
  | cons call calls ih =>
      rw [List.length_cons] at enough
      rcases represents.step fresh (show r.buffers.length < fuel by omega) call with
        ⟨handle₁, r₁, step, step', represents₁, longer⟩ | ⟨failed, why⟩
      · obtain ⟨ends, stops⟩ := ih represents₁ (by omega)
        rw [run_cons, run_cons, step, step', Option.bind_some, Option.bind_some]
        refine ⟨ends, fun stopped => (stops stopped).imp id ?_⟩
        rintro ⟨before, buffer, after, handle', rfl, ran, full⟩
        exact ⟨call :: before, buffer, after, handle', rfl,
          by rw [run_cons, step]; exact ran, full⟩
      · rw [run_cons, run_cons, failed]
        refine ⟨nofun, fun _ => why.imp (fun refused => by rw [refused]; rfl) ?_⟩
        rintro ⟨buffer, rfl, full⟩
        exact ⟨[], buffer, calls, handle, rfl, rfl, full⟩

/-- Memory for two nodes. -/
def twoNodes (s : Store EvdiBuffer) : Option Addr :=
  if (s.nodes 1).isNone then some 1 else if (s.nodes 2).isNone then some 2 else none

/-- It never gives out memory that is in use. -/
theorem twoNodes_fresh (s : Store EvdiBuffer) (a : Addr) (allocated : twoNodes s = some a) :
    s.nodes a = none := by
  rw [twoNodes] at allocated
  split at allocated
  · next free => cases allocated; simpa using free
  split at allocated
  · next free => cases allocated; simpa using free
  · cases allocated

def swapBuffers : List BufferCall :=
  [.register ⟨0, 1000, 4, 2, 16⟩, .register ⟨1, 2000, 4, 2, 16⟩, .unregister 0,
    .register ⟨0, 3000, 4, 2, 16⟩, .requestUpdate 0]

/-- **The list is the registry**: in every run the library does what the client asks, or
fails.  It fails only where the client registers an id twice or unregisters one that is
not registered, or where there is no memory. -/
theorem library_refines (fresh : ∀ s a, calloc s = some a → s.nodes a = none)
    (enough : calls.length < fuel) :
    (∀ handle, run (libraryStep calloc fuel) .start calls = some handle →
        ∃ r, run registryStep .start calls = some r ∧ Represents handle r) ∧
      (run (libraryStep calloc fuel) .start calls = none →
        run registryStep .start calls = none ∨
          ∃ before buffer after handle, calls = before ++ .register buffer :: after ∧
            run (libraryStep calloc fuel) .start before = some handle ∧
            calloc handle.frameBuffers = none) := by
  obtain ⟨ends, stops⟩ := represents_start.run fresh
    (show Registry.start.buffers.length + calls.length < fuel by
      simpa [Registry.start] using enough)
  refine ⟨fun handle ran => ?_, stops⟩
  obtain ⟨r, same, represents, -⟩ := ends handle ran
  exact ⟨r, same, represents⟩

/-- Two buffers, one of which is exchanged for another. -/
theorem library_refines_swapBuffers : ∃ handle r,
    run (libraryStep twoNodes 6) .start swapBuffers = some handle ∧
      run registryStep .start swapBuffers = some r ∧ Represents handle r := by
  obtain ⟨handle, h⟩ :
      ∃ handle, run (libraryStep twoNodes 6) .start swapBuffers = some handle :=
    ⟨_, rfl⟩
  obtain ⟨r, same, represents⟩ := (library_refines twoNodes_fresh (by decide)).1 handle h
  exact ⟨handle, r, h, same, represents⟩

/-- One call, on a list that represents the registry. -/
theorem evdiGrabPixels_eq (represents : Represents handle r)
    (enough : r.buffers.length < fuel) (ioctl : DrmEvdiGrabpix → ℤ × List DrmClipRect) :
    evdiGrabPixels ioctl fuel handle =
      some (((r.buffers.find? fun b => b.id = r.bufferToUpdate).map
        (grabInto ioctl)).getD []) := by
  obtain ⟨entries, holds, buffers⟩ := represents.held
  rw [← buffers, List.length_map] at enough
  have ids : ((fun b : EvdiBuffer => decide (b.id = r.bufferToUpdate)) ∘ Prod.snd) =
      fun e : Addr × EvdiBuffer => decide (e.2.id = r.bufferToUpdate) := rfl
  rw [evdiGrabPixels, findBuffer_eq holds enough, Option.bind_some,
    represents.bufferToUpdate, ← buffers, List.find?_map, ids]
  cases found : entries.find? fun e => e.2.id = r.bufferToUpdate with
  | none => rfl
  | some e =>
      obtain ⟨next, node⟩ := holds.chain.exists_node (List.mem_of_find?_eq_some found)
      simp [node]

/-- **A grab goes into the buffer it was requested for**: of those registered the one with
the id of the last request, whatever was registered or unregistered since.  When this is
gone nothing is grabbed. -/
theorem evdiGrabPixels_of_run (fresh : ∀ s a, calloc s = some a → s.nodes a = none)
    (enough : calls.length < fuel)
    (h : run (libraryStep calloc fuel) .start calls = some handle)
    (ioctl : DrmEvdiGrabpix → ℤ × List DrmClipRect) :
    ∃ r, run registryStep .start calls = some r ∧
      evdiGrabPixels ioctl fuel handle =
        some (((r.buffers.find? fun b => b.id = r.bufferToUpdate).map
          (grabInto ioctl)).getD []) := by
  obtain ⟨ends, -⟩ := represents_start.run fresh
    (show Registry.start.buffers.length + calls.length < fuel by
      simpa [Registry.start] using enough)
  obtain ⟨r, same, represents, few⟩ := ends handle h
  exact ⟨r, same, evdiGrabPixels_eq represents few ioctl⟩

/-- The buffer that took the place of the one requested is grabbed into. -/
theorem evdiGrabPixels_of_run_swapBuffers : ∃ handle,
    run (libraryStep twoNodes 6) .start swapBuffers = some handle ∧
      evdiGrabPixels
        (fun cmd => if cmd.buffer = 3000 then (0, [⟨1, 0, 2, 1⟩]) else (-1, [])) 6
        handle = some [⟨1, 0, 2, 1⟩] := by
  obtain ⟨handle, h⟩ :
      ∃ handle, run (libraryStep twoNodes 6) .start swapBuffers = some handle :=
    ⟨_, rfl⟩
  obtain ⟨r, same, grabbed⟩ := evdiGrabPixels_of_run twoNodes_fresh (by decide) h
    fun cmd => if cmd.buffer = 3000 then (0, [⟨1, 0, 2, 1⟩]) else (-1, [])
  refine ⟨handle, h, grabbed.trans ?_⟩
  cases same
  rfl

end Refinement

end Kernelflut.LibEvdi
