import Kernelflut.Evdi.Framebuffers
import Kernelflut.Foundations.Runs
import Mathlib.Data.Finset.Insert

/-!
# Setting up and cleaning up

`evdi_setup` finds a device, opens and connects it, allocates and registers two
framebuffers, and prepares epoll; it can fail at every one of these points, in
some of them leaving through `evdi_cleanup`.  `evdi_cleanup` finds in the statics
what there is to undo.

The calls to libevdi and to the allocator go to a `Library`, which keeps what
is open, connected, registered and allocated.  It knows what each call requires
(`Library.Allows`); one that comes without is recorded in `misused` and has no
effect.  `lifecycle_balanced` says that this never happens, that everything is there
while a setup is outstanding, and that nothing remains after a cleanup or a failed
setup.

The invariant `Tracks` holds at every point of a call: the statics and the
library agree on what there is.  Every operation has its rule, so the exits of
`evdi_setup` need no case of their own in the cleanup.

Of the epoll descriptor only the static is modelled.
-/

namespace Kernelflut.Evdi

open PartialStep

universe u v

/-- The calls `evdi.c` makes that acquire something or need something acquired.
`H` are the valid handles, `P` the addresses of framebuffers. -/
inductive LibCall (H : Type u) (P : Type v) where
  | openDevice (card : ℕ) (handle : H)
  | connect (handle : H)
  | calloc (buffer : P)
  | registerBuffer (handle : H) (fbid : FbId) (buffer : P)
  | requestUpdate (handle : Option H) (fbid : FbId)
  | grabPixels (handle : Option H)
  | unregisterBuffer (handle : H) (fbid : FbId)
  | free (buffer : P)
  | disconnect (handle : H)
  | close (handle : H)

/-- What libevdi and the allocator have given out. -/
structure Library (H : Type u) (P : Type v) where
  handle : Option H
  connected : Bool
  /-- The framebuffer registered under an id. -/
  registered : FbId → Option P
  allocated : Finset P
  misused : List (LibCall H P)

variable {H : Type u} {P : Type v}

namespace Library

def empty : Library H P where
  handle := none
  connected := false
  registered := fun _ => none
  allocated := ∅
  misused := []

variable [DecidableEq H] [DecidableEq P]

/-- What a call requires. -/
def Allows (w : Library H P) : LibCall H P → Prop
  | .openDevice _ _ => w.handle = none
  | .connect h => w.handle = some h ∧ w.connected = false
  | .calloc p => p ∉ w.allocated
  | .registerBuffer h fbid p =>
      w.handle = some h ∧ p ∈ w.allocated ∧ w.registered fbid = none
  | .requestUpdate h _ => w.handle.isSome ∧ h = w.handle
  | .grabPixels h => w.handle.isSome ∧ h = w.handle
  | .unregisterBuffer h fbid => w.handle = some h ∧ (w.registered fbid).isSome
  | .free p => p ∈ w.allocated ∧ ∀ fbid, w.registered fbid ≠ some p
  | .disconnect h => w.handle = some h ∧ w.connected = true
  | .close h =>
      w.handle = some h ∧ w.connected = false ∧ ∀ fbid, w.registered fbid = none

instance (w : Library H P) (call : LibCall H P) : Decidable (w.Allows call) := by
  cases call <;> unfold Allows <;> infer_instance

/-- What it does then. -/
def effect (w : Library H P) : LibCall H P → Library H P
  | .openDevice _ h => { w with handle := some h }
  | .connect _ => { w with connected := true }
  | .calloc p => { w with allocated := insert p w.allocated }
  | .registerBuffer _ fbid p =>
      { w with registered := Function.update w.registered fbid (some p) }
  | .requestUpdate _ _ => w
  | .grabPixels _ => w
  | .unregisterBuffer _ fbid =>
      { w with registered := Function.update w.registered fbid none }
  | .free p => { w with allocated := w.allocated.erase p }
  | .disconnect _ => { w with connected := false }
  | .close _ => { w with handle := none }

/-- One call.  The allocator never gives out memory that is in use; anything else
is the caller's responsibility. -/
def perform (w : Library H P) (call : LibCall H P) : Option (Library H P) :=
  if w.Allows call then some (w.effect call)
  else
    match call with
    | .calloc _ => none
    | call => some { w with misused := w.misused ++ [call] }

/-- A buffer is registered only while the handle is open and its memory is
allocated. -/
def Sound (w : Library H P) : Prop :=
  ∀ fbid p, w.registered fbid = some p → w.handle.isSome ∧ p ∈ w.allocated

end Library

/-! ## The functions of `evdi.c` -/

/-- `ERR_ALLOC`, `ERR_IRRECOVERABLE` and the errors of evdi, from `error.h`. -/
def errAlloc : ℕ := 2
def errIrrecoverable : ℕ := 3
def errEvdiAdd : ℕ := 10
def errEvdiFind : ℕ := 11
def errEvdiOpen : ℕ := 12

/-- The statics of `evdi.c` that say what there is to clean up, and the `fbid` of
`evdi_get`. -/
structure Statics (H : Type u) (P : Type v) where
  ehandle : Option H
  connected : Bool
  /-- `ebufs[fbid].buffer` -/
  buffers : FbId → Option P
  registered : FbId → Bool
  epollFd : ℕ
  fbid : FbId

def Statics.start : Statics H P where
  ehandle := none
  connected := false
  buffers := fun _ => none
  registered := fun _ => false
  epollFd := 0
  fbid := Buffers.start.fbid

/-- What the functions `evdi_setup` calls return. -/
structure SetupOutcome (H : Type u) (P : Type v) where
  firstDevice : Option ℕ
  addDevice : Bool
  /-- `get_first_device` after a device was added. -/
  newDevice : Option ℕ
  opened : Option H
  buffer : FbId → Option P
  epollCreate : Option ℕ
  epollCtl : Bool

/-- What a call leaves: the statics, the calls made and the code returned. -/
structure Called (H : Type u) (P : Type v) where
  statics : Statics H P
  calls : List (LibCall H P)
  ret : ℕ

/-- The body of the loop of `evdi_cleanup`. -/
def releaseBuffer (eh : H) (fbid : FbId) (e : Statics H P) :
    Statics H P × List (LibCall H P) :=
  let (e, unregister) :=
    if e.registered fbid then
      ({ e with registered := Function.update e.registered fbid false },
       [.unregisterBuffer eh fbid])
    else (e, [])
  match e.buffers fbid with
  | none => (e, unregister)
  | some p =>
      ({ e with buffers := Function.update e.buffers fbid none }, unregister ++ [.free p])

def releaseBuffers (eh : H) : List FbId → Statics H P → Statics H P × List (LibCall H P)
  | [], e => (e, [])
  | fbid :: fbids, e =>
      let (e, calls) := releaseBuffer eh fbid e
      let (e, more) := releaseBuffers eh fbids e
      (e, calls ++ more)

/-- `for (int fbid = 0; fbid < FRAMEBUFFERS; fbid++)` -/
def framebuffers : List FbId := List.finRange 2

/-- `evdi_cleanup()` -/
def evdiCleanup (e : Statics H P) : Statics H P × List (LibCall H P) :=
  let e := { e with epollFd := 0 }
  match e.ehandle with
  | none => (e, [])
  | some eh =>
      let (e, release) := releaseBuffers eh framebuffers e
      let (e, disconnect) :=
        if e.connected then ({ e with connected := false }, [.disconnect eh]) else (e, [])
      ({ e with ehandle := none }, release ++ disconnect ++ [.close eh])

/-- The loop of `evdi_setup`, and whether it came to its end. -/
def setupBuffers (buffer : FbId → Option P) (eh : H) :
    List FbId → Statics H P → Statics H P × List (LibCall H P) × Bool
  | [], e => (e, [], true)
  | fbid :: fbids, e =>
      match buffer fbid with
      | none => (e, [], false)
      | some p =>
          let e := { e with
            buffers := Function.update e.buffers fbid (some p)
            registered := Function.update e.registered fbid true }
          let (e, calls, done) := setupBuffers buffer eh fbids e
          (e, .calloc p :: .registerBuffer eh fbid p :: calls, done)

/-- `setup_epoll()` -/
def setupEpoll (e : Statics H P) (o : SetupOutcome H P) : Statics H P × ℕ :=
  match o.epollCreate with
  | none => (e, errIrrecoverable)
  | some fd => ({ e with epollFd := fd }, if o.epollCtl then 0 else errIrrecoverable)

/-- The card to open, or the error. -/
def findCard (o : SetupOutcome H P) : Except ℕ ℕ :=
  match o.firstDevice with
  | some card => .ok card
  | none =>
      if o.addDevice then
        match o.newDevice with
        | some card => .ok card
        | none => .error errEvdiFind
      else .error errEvdiAdd

/-- `evdi_setup()` -/
def evdiSetup (e : Statics H P) (o : SetupOutcome H P) : Called H P :=
  match findCard o with
  | .error err => ⟨e, [], err⟩
  | .ok card =>
      match o.opened with
      | none => ⟨e, [], errEvdiOpen⟩
      | some eh =>
          let e := { e with ehandle := some eh, connected := true }
          let (e, buffers, done) := setupBuffers o.buffer eh framebuffers e
          let calls := [.openDevice card eh, .connect eh] ++ buffers
          if done then
            let (e, ret) := setupEpoll e o
            if ret = 0 then ⟨e, calls, 0⟩
            else
              let (e, cleanup) := evdiCleanup e
              ⟨e, calls ++ cleanup, ret⟩
          else
            let (e, cleanup) := evdiCleanup e
            ⟨e, calls ++ cleanup, errAlloc⟩

/-- The library calls of `evdi_get`, `err` being what became of the wait for the
buffer. -/
def evdiGetCalls (e : Statics H P) (err : ℕ) : Called H P :=
  let e := { e with fbid := toggle e.fbid }
  if err = 0 then
    ⟨e, [.requestUpdate e.ehandle e.fbid, .grabPixels e.ehandle], 0⟩
  else ⟨e, [.requestUpdate e.ehandle e.fbid], err⟩

/-! ## The program -/

inductive EvdiCall (H : Type u) (P : Type v) where
  | setup (outcome : SetupOutcome H P)
  | get (err : ℕ)
  | cleanup

/-- What the function called does. -/
def EvdiCall.made (e : Statics H P) : EvdiCall H P → Called H P
  | .setup o => evdiSetup e o
  | .get err => evdiGetCalls e err
  | .cleanup =>
      let (e, calls) := evdiCleanup e
      ⟨e, calls, 0⟩

/-- The module, the library it uses, and whether a successful setup is
outstanding. -/
structure Program (H : Type u) (P : Type v) where
  statics : Statics H P
  library : Library H P
  outstanding : Bool

def Program.start : Program H P where
  statics := Statics.start
  library := Library.empty
  outstanding := false

/-- `evdi_setup` is called only when no setup is outstanding, `evdi_get` only when
one is. -/
def EvdiCall.mayCome (outstanding : Bool) : EvdiCall H P → Bool
  | .setup _ => !outstanding
  | .get _ => outstanding
  | .cleanup => true

/-- One call. -/
def evdiStep [DecidableEq H] [DecidableEq P] (s : Program H P) (call : EvdiCall H P) :
    Option (Program H P) :=
  if call.mayCome s.outstanding then
    let r := call.made s.statics
    (run Library.perform s.library r.calls).map fun library =>
      { statics := r.statics
        library
        outstanding :=
          match call with
          | .setup _ => r.ret = 0
          | .get _ => s.outstanding
          | .cleanup => false }
  else none

/-! ## The library -/

section Library

variable [DecidableEq H] [DecidableEq P] {w w' : Library H P} {call : LibCall H P}

theorem run_perform_of_allows (allowed : w.Allows call) :
    run Library.perform w [call] = some (w.effect call) := by
  have performed : w.perform call = some (w.effect call) := if_pos allowed
  rw [run_cons, performed]
  rfl

/-- Whatever is called, in the right order or not. -/
theorem Library.Sound.perform (sound : w.Sound) (h : w.perform call = some w') :
    w'.Sound := by
  unfold Library.perform at h
  split at h
  · next allowed =>
      cases h
      intro f p registered
      cases call with
      | openDevice card eh => exact ⟨rfl, (sound f p registered).2⟩
      | calloc q =>
          exact (sound f p registered).imp_right fun h => Finset.mem_insert_of_mem h
      | registerBuffer eh g q =>
          obtain ⟨opened, full, -⟩ := allowed
          rcases eq_or_ne f g with rfl | other
          · obtain rfl : q = p := by simpa [Library.effect] using registered
            exact ⟨by simp [Library.effect, opened], full⟩
          · exact sound f p (by simpa [Library.effect, other] using registered)
      | unregisterBuffer eh g =>
          rcases eq_or_ne f g with rfl | other
          · simp [Library.effect] at registered
          · exact sound f p (by simpa [Library.effect, other] using registered)
      | free q =>
          have different : p ≠ q := by
            rintro rfl
            exact allowed.2 f registered
          exact (sound f p registered).imp_right fun h =>
            Finset.mem_erase_of_ne_of_mem different h
      | close eh =>
          have none : w.registered f = none := allowed.2.2 f
          rw [show w.registered f = some p from registered] at none
          cases none
      | connect | requestUpdate | grabPixels | disconnect => exact sound f p registered
  · cases call with
    | calloc q => cases h
    | openDevice | connect | registerBuffer | requestUpdate | grabPixels | unregisterBuffer
    | free | disconnect | close =>
        cases h
        exact sound

end Library

/-! ## The invariant -/

/-- The statics and the library agree on what there is, and nothing has gone
wrong. -/
structure Tracks (e : Statics H P) (w : Library H P) : Prop where
  misused : w.misused = []
  handle : w.handle = e.ehandle
  connected : w.connected = e.connected
  registered : ∀ f, w.registered f = if e.registered f then e.buffers f else none
  held : ∀ f, e.registered f = true → (e.buffers f).isSome
  allocated : ∀ p, p ∈ w.allocated ↔ ∃ f, e.buffers f = some p
  distinct : ∀ f g p, e.buffers f = some p → e.buffers g = some p → f = g
  /-- Without a handle there is nothing else. -/
  closed : e.ehandle = none →
    e.connected = false ∧ (∀ f, e.registered f = false) ∧ ∀ f, e.buffers f = none

theorem tracks_start : Tracks (Statics.start : Statics H P) Library.empty where
  misused := rfl
  handle := rfl
  connected := rfl
  registered := fun _ => rfl
  held := by simp [Statics.start]
  allocated := by simp [Statics.start, Library.empty]
  distinct := by simp [Statics.start]
  closed := fun _ => ⟨rfl, fun _ => rfl, fun _ => rfl⟩

theorem closed_of_open {e : Statics H P} {eh : H} {goal : Prop}
    (opened : e.ehandle = some eh) (h : e.ehandle = none) : goal := by
  rw [opened] at h
  cases h

section Rules

variable [DecidableEq P] {e : Statics H P} {w : Library H P} {eh : H} {f : FbId} {p : P}

/-- `evdi_open` -/
theorem Tracks.openDevice (tracks : Tracks e w) (none : e.ehandle = none) (card : ℕ)
    (eh : H) :
    w.Allows (.openDevice card eh) ∧
      Tracks { e with ehandle := some eh } (w.effect (.openDevice card eh)) := by
  refine ⟨tracks.handle.trans none, { tracks with handle := rfl, closed := ?_ }⟩
  intro h
  cases h

/-- `evdi_connect` -/
theorem Tracks.connect (tracks : Tracks e w) (opened : e.ehandle = some eh)
    (off : e.connected = false) :
    w.Allows (.connect eh) ∧ Tracks { e with connected := true }
      (w.effect (.connect eh)) := by
  refine ⟨⟨tracks.handle.trans opened, tracks.connected.trans off⟩,
    { tracks with connected := rfl, closed := closed_of_open opened }⟩

omit [DecidableEq P] in
theorem Tracks.unregistered (tracks : Tracks e w) (empty : e.buffers f = none) :
    e.registered f = false := by
  rw [Bool.eq_false_iff]
  intro registered
  have held := tracks.held f registered
  rw [empty] at held
  cases held

omit [DecidableEq P] in
/-- The library does not know the buffer of an unregistered framebuffer. -/
theorem Tracks.registered_update (tracks : Tracks e w)
    (unregistered : e.registered f = false) (buffer : Option P) (g : FbId) :
    w.registered g =
      if e.registered g then Function.update e.buffers f buffer g else none := by
  rcases eq_or_ne g f with rfl | other
  · simp [tracks.registered, unregistered]
  · simp [tracks.registered, Function.update_of_ne other]

/-- `calloc` -/
theorem Tracks.calloc (tracks : Tracks e w) (opened : e.ehandle = some eh)
    (empty : e.buffers f = none) (fresh : p ∉ w.allocated) :
    Tracks { e with buffers := Function.update e.buffers f (some p) }
      (w.effect (.calloc p)) := by
  have unregistered := tracks.unregistered empty
  have elsewhere : ∀ g, e.buffers g ≠ some p := fun g hg =>
    fresh ((tracks.allocated p).mpr ⟨g, hg⟩)
  refine { tracks with
    registered := tracks.registered_update unregistered _
    held := ?_, allocated := ?_, distinct := ?_
    closed := closed_of_open opened }
  · intro g registered
    rcases eq_or_ne g f with rfl | other
    · simp
    · simpa [Function.update_of_ne other] using tracks.held g registered
  · intro q
    simp only [Library.effect, Finset.mem_insert, tracks.allocated]
    constructor
    · rintro (rfl | ⟨g, hg⟩)
      · exact ⟨f, by simp⟩
      · have other : g ≠ f := by
          rintro rfl
          rw [empty] at hg
          cases hg
        exact ⟨g, by simp [Function.update_of_ne other, hg]⟩
    · rintro ⟨g, hg⟩
      rcases eq_or_ne g f with rfl | other
      · exact Or.inl (by simpa [eq_comm] using hg)
      · exact Or.inr ⟨g, by simpa [Function.update_of_ne other] using hg⟩
  · intro g g' q hg hg'
    by_cases here : g = f <;> by_cases here' : g' = f
    · exact here.trans here'.symm
    · obtain rfl : p = q := by simpa [here] using hg
      exact absurd (by simpa [here'] using hg') (elsewhere g')
    · obtain rfl : p = q := by simpa [here'] using hg'
      exact absurd (by simpa [here] using hg) (elsewhere g)
    · exact tracks.distinct g g' q (by simpa [here] using hg) (by simpa [here'] using hg')

/-- `evdi_register_buffer` -/
theorem Tracks.registerBuffer (tracks : Tracks e w) (opened : e.ehandle = some eh)
    (full : e.buffers f = some p) (unregistered : e.registered f = false) :
    w.Allows (.registerBuffer eh f p) ∧
      Tracks { e with registered := Function.update e.registered f true }
        (w.effect (.registerBuffer eh f p)) := by
  refine ⟨⟨tracks.handle.trans opened, (tracks.allocated p).mpr ⟨f, full⟩, ?_⟩,
    { tracks with
      registered := ?_, held := ?_
      closed := closed_of_open opened }⟩
  · simp [tracks.registered, unregistered]
  · intro g
    rcases eq_or_ne g f with rfl | other
    · simp [Library.effect, full]
    · simp [Library.effect, tracks.registered, Function.update_of_ne other]
  · intro g registered
    rcases eq_or_ne g f with rfl | other
    · simp [full]
    · exact tracks.held g (by simpa [Function.update_of_ne other] using registered)

/-- `evdi_unregister_buffer` -/
theorem Tracks.unregisterBuffer (tracks : Tracks e w) (opened : e.ehandle = some eh)
    (registered : e.registered f = true) :
    w.Allows (.unregisterBuffer eh f) ∧
      Tracks { e with registered := Function.update e.registered f false }
        (w.effect (.unregisterBuffer eh f)) := by
  refine ⟨⟨tracks.handle.trans opened, ?_⟩,
    { tracks with
      registered := ?_, held := ?_
      closed := closed_of_open opened }⟩
  · simpa [tracks.registered, registered] using tracks.held f registered
  · intro g
    rcases eq_or_ne g f with rfl | other
    · simp [Library.effect]
    · simp [Library.effect, tracks.registered, Function.update_of_ne other]
  · intro g still
    rcases eq_or_ne g f with rfl | other
    · simp at still
    · exact tracks.held g (by simpa [Function.update_of_ne other] using still)

/-- `free` -/
theorem Tracks.free (tracks : Tracks e w) (unregistered : e.registered f = false)
    (full : e.buffers f = some p) :
    w.Allows (.free p) ∧
      Tracks { e with buffers := Function.update e.buffers f none }
        (w.effect (.free p)) := by
  have elsewhere : ∀ g, g ≠ f → e.buffers g ≠ some p := fun g other hg =>
    other (tracks.distinct g f p hg full)
  refine ⟨⟨(tracks.allocated p).mpr ⟨f, full⟩, fun g => ?_⟩,
    { tracks with
      registered := tracks.registered_update unregistered _
      held := ?_, allocated := ?_, distinct := ?_, closed := ?_ }⟩
  · rw [tracks.registered]
    rcases eq_or_ne g f with rfl | other
    · simp [unregistered]
    · split
      · exact elsewhere g other
      · simp
  · intro g registered
    rcases eq_or_ne g f with rfl | other
    · rw [show e.registered g = true from registered] at unregistered
      cases unregistered
    · simpa [Function.update_of_ne other] using tracks.held g registered
  · intro q
    simp only [Library.effect, Finset.mem_erase, tracks.allocated]
    constructor
    · rintro ⟨different, g, hg⟩
      have other : g ≠ f := by
        rintro rfl
        exact different (Option.some.inj (hg.symm.trans full))
      exact ⟨g, by simpa [Function.update_of_ne other] using hg⟩
    · rintro ⟨g, hg⟩
      rcases eq_or_ne g f with rfl | other
      · simp at hg
      · have kept : e.buffers g = some q := by simpa [Function.update_of_ne other] using hg
        exact ⟨fun same => elsewhere g other (same ▸ kept), g, kept⟩
  · intro g g' q hg hg'
    rcases eq_or_ne g f with rfl | other
    · simp at hg
    · rcases eq_or_ne g' f with rfl | other'
      · simp at hg'
      · exact tracks.distinct g g' q (by simpa [Function.update_of_ne other] using hg)
          (by simpa [Function.update_of_ne other'] using hg')
  · intro h
    rw [(tracks.closed h).2.2 f] at full
    cases full

/-- `evdi_disconnect` -/
theorem Tracks.disconnect (tracks : Tracks e w) (opened : e.ehandle = some eh)
    (on : e.connected = true) :
    w.Allows (.disconnect eh) ∧
      Tracks { e with connected := false } (w.effect (.disconnect eh)) := by
  refine ⟨⟨tracks.handle.trans opened, tracks.connected.trans on⟩,
    { tracks with connected := rfl, closed := fun h => ?_ }⟩
  exact ⟨rfl, (tracks.closed h).2⟩

/-- `evdi_close`, once everything else is gone. -/
theorem Tracks.close (tracks : Tracks e w) (opened : e.ehandle = some eh)
    (off : e.connected = false) (unregistered : ∀ f, e.registered f = false)
    (empty : ∀ f, e.buffers f = none) :
    w.Allows (.close eh) ∧ Tracks { e with ehandle := none } (w.effect (.close eh)) := by
  refine ⟨⟨tracks.handle.trans opened, tracks.connected.trans off, fun f => ?_⟩,
    { tracks with handle := rfl, closed := fun _ => ⟨off, unregistered, empty⟩ }⟩
  simp [tracks.registered, unregistered]

end Rules

/-- All that a successful setup acquires. -/
structure Statics.SetUp (e : Statics H P) : Prop where
  opened : ∃ eh, e.ehandle = some eh
  connected : e.connected = true
  registered : ∀ f, e.registered f = true

/-- The library has it too. -/
theorem Statics.SetUp.library {e : Statics H P} {w : Library H P} (up : e.SetUp)
    (tracks : Tracks e w) :
    w.handle.isSome ∧ w.connected = true ∧ ∀ f, (w.registered f).isSome := by
  obtain ⟨eh, opened⟩ := up.opened
  refine ⟨?_, tracks.connected.trans up.connected, fun f => ?_⟩
  · rw [tracks.handle, opened]
    rfl
  · rw [tracks.registered, if_pos (up.registered f)]
    exact tracks.held f (up.registered f)

/-! ## The functions keep it -/

/-- One turn of the loop of `evdi_cleanup`. -/
theorem releaseBuffer_eq (eh : H) (f : FbId) (e : Statics H P) :
    releaseBuffer eh f e =
      ({ e with
          registered := Function.update e.registered f false
          buffers := Function.update e.buffers f none },
       (if e.registered f then [.unregisterBuffer eh f] else []) ++
         (e.buffers f).toList.map .free) := by
  have unregistered : e.registered f = false →
      Function.update e.registered f false = e.registered := fun h =>
    Function.update_eq_self_iff.mpr h.symm
  have empty : e.buffers f = none → Function.update e.buffers f none = e.buffers := fun h =>
    Function.update_eq_self_iff.mpr h.symm
  cases hreg : e.registered f <;> cases hbuf : e.buffers f
  · simp [releaseBuffer, hreg, hbuf, unregistered hreg, empty hbuf]
  · simp [releaseBuffer, hreg, hbuf, unregistered hreg]
  · simp [releaseBuffer, hreg, hbuf, empty hbuf]
  · simp [releaseBuffer, hreg, hbuf]

/-- Setting the value at `g`, and then at `fs`. -/
theorem ite_mem_update {α : Type*} (value : FbId → α) (new : α) (g : FbId)
    (fs : List FbId) :
    (fun f => if f ∈ fs then new else Function.update value g new f) =
      fun f => if f ∈ g :: fs then new else value f := by
  funext f
  rcases eq_or_ne f g with rfl | other
  · simp
  · simp [other]

/-- The whole loop. -/
theorem releaseBuffers_fst (eh : H) (fs : List FbId) (e : Statics H P) :
    (releaseBuffers eh fs e).1 =
      { e with
        registered := fun f => if f ∈ fs then false else e.registered f
        buffers := fun f => if f ∈ fs then none else e.buffers f } := by
  induction fs generalizing e with
  | nil => simp [releaseBuffers]
  | cons g fs ih =>
      simp only [releaseBuffers, releaseBuffer_eq, ih, ite_mem_update]

section Runs

variable [DecidableEq H] [DecidableEq P] {e : Statics H P} {w w' : Library H P} {eh : H}

/-- A turn of the loop of `evdi_cleanup`. -/
theorem Tracks.releaseBuffer (tracks : Tracks e w) (opened : e.ehandle = some eh)
    (f : FbId) :
    ∃ w', run Library.perform w (releaseBuffer eh f e).2 = some w' ∧
      Tracks (releaseBuffer eh f e).1 w' := by
  rw [releaseBuffer_eq]
  obtain ⟨w₁, hrun₁, tracks₁⟩ : ∃ w₁, run Library.perform w
      (if e.registered f then [.unregisterBuffer eh f] else []) = some w₁ ∧
        Tracks { e with registered := Function.update e.registered f false } w₁ := by
    cases hreg : e.registered f with
    | false =>
        rw [← hreg, Function.update_eq_self]
        exact ⟨w, by simp [hreg], tracks⟩
    | true =>
        obtain ⟨allowed, tracks'⟩ := tracks.unregisterBuffer opened hreg
        exact ⟨_, run_perform_of_allows allowed, tracks'⟩
  obtain ⟨w₂, hrun₂, tracks₂⟩ : ∃ w₂, run Library.perform w₁
      ((e.buffers f).toList.map .free) = some w₂ ∧
        Tracks { e with
          registered := Function.update e.registered f false
          buffers := Function.update e.buffers f none } w₂ := by
    cases hbuf : e.buffers f with
    | none =>
        rw [← hbuf, Function.update_eq_self]
        exact ⟨w₁, by simp [hbuf], tracks₁⟩
    | some p =>
        obtain ⟨allowed, tracks'⟩ := tracks₁.free (by simp) hbuf
        exact ⟨_, run_perform_of_allows allowed, tracks'⟩
  exact ⟨w₂, by rw [run_append, hrun₁]; exact hrun₂, tracks₂⟩

theorem Tracks.releaseBuffers (tracks : Tracks e w) (opened : e.ehandle = some eh)
    (fs : List FbId) :
    ∃ w', run Library.perform w (releaseBuffers eh fs e).2 = some w' ∧
      Tracks (releaseBuffers eh fs e).1 w' := by
  induction fs generalizing e w with
  | nil => exact ⟨w, rfl, tracks⟩
  | cons f fs ih =>
      obtain ⟨w₁, hrun₁, tracks₁⟩ := tracks.releaseBuffer opened f
      have opened₁ : (Evdi.releaseBuffer eh f e).1.ehandle = some eh := by
        rw [releaseBuffer_eq]
        exact opened
      obtain ⟨w₂, hrun₂, tracks₂⟩ := ih tracks₁ opened₁
      refine ⟨w₂, ?_, tracks₂⟩
      show run Library.perform w
        ((Evdi.releaseBuffer eh f e).2 ++ (Evdi.releaseBuffers eh fs _).2) = _
      rw [run_append, hrun₁]
      exact hrun₂

/-- **`evdi_cleanup`**, whatever there is to clean up. -/
theorem Tracks.cleanup (tracks : Tracks e w) :
    ∃ w', run Library.perform w (evdiCleanup e).2 = some w' ∧ Tracks (evdiCleanup e).1 w' ∧
      (evdiCleanup e).1.ehandle = none ∧ (evdiCleanup e).1.epollFd = 0 := by
  have tracks₀ : Tracks { e with epollFd := 0 } w := { tracks with }
  cases opened : e.ehandle with
  | none =>
      have nothing : evdiCleanup e = ({ e with epollFd := 0 }, []) := by
        simp [evdiCleanup, opened]
      rw [nothing]
      exact ⟨w, rfl, tracks₀, opened, rfl⟩
  | some eh =>
      obtain ⟨w₁, hrun₁, tracks₁⟩ := tracks₀.releaseBuffers opened framebuffers
      have everyone : ∀ f : FbId, f ∈ framebuffers := by decide
      rw [releaseBuffers_fst] at tracks₁
      simp only [everyone, if_true] at tracks₁
      obtain ⟨w₂, hrun₂, tracks₂⟩ : ∃ w₂, run Library.perform w₁
          (if e.connected then [.disconnect eh] else []) = some w₂ ∧
            Tracks { e with
              connected := false, epollFd := 0
              registered := fun _ => false, buffers := fun _ => none } w₂ := by
        cases hconn : e.connected with
        | false => exact ⟨w₁, rfl, by simpa [hconn] using tracks₁⟩
        | true =>
            obtain ⟨allowed, tracks'⟩ := tracks₁.disconnect opened hconn
            exact ⟨_, run_perform_of_allows allowed, tracks'⟩
      obtain ⟨allowed, tracks₃⟩ := tracks₂.close opened rfl (fun _ => rfl) (fun _ => rfl)
      have everything : evdiCleanup e =
          ({ e with
              ehandle := none, connected := false, epollFd := 0
              registered := fun _ => false, buffers := fun _ => none },
            (Evdi.releaseBuffers eh framebuffers { e with epollFd := 0 }).2 ++
              (if e.connected then [.disconnect eh] else []) ++ [.close eh]) := by
        simp only [evdiCleanup, opened, releaseBuffers_fst, everyone, if_true]
        cases hconn : e.connected <;> simp
      rw [everything]
      refine ⟨_, ?_, tracks₃, rfl, rfl⟩
      rw [run_append, run_append, hrun₁, Option.bind_some, hrun₂]
      exact run_perform_of_allows allowed

theorem Tracks.cleanup_of_run (tracks : Tracks e w)
    (h : run Library.perform w (evdiCleanup e).2 = some w') :
    Tracks (evdiCleanup e).1 w' ∧ (evdiCleanup e).1.ehandle = none ∧
      (evdiCleanup e).1.epollFd = 0 := by
  obtain ⟨w₁, hrun, tracks', rest⟩ := tracks.cleanup
  rw [hrun, Option.some.injEq] at h
  exact h ▸ ⟨tracks', rest⟩

omit [DecidableEq H] [DecidableEq P] in
theorem Tracks.setupEpoll (tracks : Tracks e w) (o : SetupOutcome H P) :
    Tracks (setupEpoll e o).1 w := by
  unfold Evdi.setupEpoll
  cases o.epollCreate with
  | none => exact tracks
  | some fd => exact { tracks with }

omit [DecidableEq H] [DecidableEq P] in
theorem Statics.SetUp.setupEpoll {e : Statics H P} (up : e.SetUp) (o : SetupOutcome H P) :
    (setupEpoll e o).1.SetUp := by
  unfold Evdi.setupEpoll
  cases o.epollCreate with
  | none => exact up
  | some fd => exact { up with }

omit [DecidableEq H] [DecidableEq P] in
/-- The loop of `evdi_setup`, when it comes to its end. -/
theorem registered_setupBuffers {buffer : FbId → Option P} {fs : List FbId}
    (done : (setupBuffers buffer eh fs e).2.2 = true) {f : FbId}
    (hf : f ∈ fs ∨ e.registered f = true) :
    (setupBuffers buffer eh fs e).1.registered f = true := by
  induction fs generalizing e with
  | nil => exact hf.resolve_left List.not_mem_nil
  | cons g fs ih =>
      cases hbuf : buffer g with
      | none => simp [setupBuffers, hbuf] at done
      | some p =>
          simp only [setupBuffers, hbuf] at done ⊢
          refine ih done ?_
          rcases eq_or_ne f g with rfl | other
          · exact Or.inr (Function.update_self ..)
          · refine hf.imp (fun h => (List.mem_cons.mp h).resolve_left other) fun h => ?_
            exact (Function.update_of_ne other ..).trans h

omit [DecidableEq H] [DecidableEq P] in
theorem connected_setupBuffers (buffer : FbId → Option P) (eh : H) (fs : List FbId)
    (e : Statics H P) : (setupBuffers buffer eh fs e).1.connected = e.connected := by
  induction fs generalizing e with
  | nil => rfl
  | cons g fs ih =>
      cases hbuf : buffer g with
      | none => simp [setupBuffers, hbuf]
      | some p =>
          simp only [setupBuffers, hbuf]
          exact ih _

/-- The loop of `evdi_setup`, as far as it gets. -/
theorem Tracks.setupBuffers {buffer : FbId → Option P} {fs : List FbId} (nodup : fs.Nodup)
    (tracks : Tracks e w) (opened : e.ehandle = some eh)
    (empty : ∀ f ∈ fs, e.buffers f = none)
    (h : run Library.perform w (setupBuffers buffer eh fs e).2.1 = some w') :
    Tracks (setupBuffers buffer eh fs e).1 w' ∧
      (setupBuffers buffer eh fs e).1.ehandle = some eh := by
  induction fs generalizing e w with
  | nil =>
      cases h
      exact ⟨tracks, opened⟩
  | cons f fs ih =>
      obtain ⟨absent, nodup⟩ := List.nodup_cons.mp nodup
      cases hbuf : buffer f with
      | none =>
          simp only [Evdi.setupBuffers, hbuf, run_nil, Option.some.injEq] at h ⊢
          exact h ▸ ⟨tracks, opened⟩
      | some p =>
          simp only [Evdi.setupBuffers, hbuf] at h ⊢
          rw [run_cons, Option.bind_eq_some_iff] at h
          obtain ⟨w₁, hcalloc, h⟩ := h
          unfold Library.perform at hcalloc
          split at hcalloc
          · next fresh =>
              cases hcalloc
              have full := empty f List.mem_cons_self
              have unregistered : e.registered f = false := tracks.unregistered full
              obtain ⟨allowed, tracks'⟩ := (tracks.calloc opened full fresh).registerBuffer
                opened (Function.update_self f (some p) e.buffers) unregistered
              rw [← List.singleton_append, run_append, run_perform_of_allows allowed] at h
              refine ih nodup tracks' opened (fun g hg => ?_) h
              have other : g ≠ f := fun same => absent (same ▸ hg)
              show Function.update e.buffers f (some p) g = none
              rw [Function.update_of_ne other]
              exact empty g (List.mem_cons_of_mem _ hg)
          · cases hcalloc

omit [DecidableEq H] [DecidableEq P] in
theorem findCard_ne_zero {o : SetupOutcome H P} {err : ℕ} (h : findCard o = .error err) :
    err ≠ 0 := by
  unfold findCard at h
  split at h
  · cases h
  · split at h
    · split at h
      · cases h
      · cases h
        decide
    · cases h
      decide

omit [DecidableEq H] [DecidableEq P] in
/-- **The exits of `evdi_setup`**: before anything is acquired, with success, and
through `evdi_cleanup`, before or after epoll. -/
theorem evdiSetup_cases (e : Statics H P) (o : SetupOutcome H P) :
    (∃ err, err ≠ 0 ∧ evdiSetup e o = ⟨e, [], err⟩) ∨
      ∃ card eh,
        let fill := setupBuffers o.buffer eh framebuffers
          { e with ehandle := some eh, connected := true }
        let calls := [.openDevice card eh] ++ [.connect eh] ++ fill.2.1
        (evdiSetup e o = ⟨(setupEpoll fill.1 o).1, calls, 0⟩ ∧ fill.2.2 = true) ∨
          ∃ e₁ err, (e₁ = fill.1 ∨ e₁ = (setupEpoll fill.1 o).1) ∧ err ≠ 0 ∧
            evdiSetup e o = ⟨(evdiCleanup e₁).1, calls ++ (evdiCleanup e₁).2, err⟩ := by
  unfold evdiSetup
  cases hcard : findCard o with
  | error err => exact Or.inl ⟨err, findCard_ne_zero hcard, rfl⟩
  | ok card =>
      cases o.opened with
      | none => exact Or.inl ⟨errEvdiOpen, by decide, rfl⟩
      | some eh =>
          refine Or.inr ⟨card, eh, ?_⟩
          simp only
          split
          · next done =>
            split
            · exact Or.inl ⟨rfl, done⟩
            · next failed => exact Or.inr ⟨_, _, Or.inr rfl, failed, rfl⟩
          · exact Or.inr ⟨_, errAlloc, Or.inl rfl, by decide, rfl⟩

/-- **`evdi_setup`**, whatever fails: a success leaves all there is to acquire, a failure
nothing. -/
theorem Tracks.setup (tracks : Tracks e w) (closed : e.ehandle = none)
    (noEpoll : e.epollFd = 0) {o : SetupOutcome H P}
    (h : run Library.perform w (evdiSetup e o).calls = some w') :
    Tracks (evdiSetup e o).statics w' ∧
      ((evdiSetup e o).ret = 0 → (evdiSetup e o).statics.SetUp) ∧
      ((evdiSetup e o).ret ≠ 0 →
        (evdiSetup e o).statics.ehandle = none ∧ (evdiSetup e o).statics.epollFd = 0) := by
  rcases evdiSetup_cases e o with ⟨err, failed, exit⟩ | ⟨card, eh, exits⟩
  · rw [exit] at h ⊢
    cases h
    exact ⟨tracks, fun success => absurd success failed, fun _ => ⟨closed, noEpoll⟩⟩
  · -- The other exits come after the same calls: open, connect, and some buffers.
    obtain ⟨allowed₁, tracks₁⟩ := tracks.openDevice closed card eh
    obtain ⟨allowed₂, tracks₂⟩ := tracks₁.connect rfl (tracks.closed closed).1
    have filled : ∀ {w₁}, run Library.perform w ([.openDevice card eh] ++ [.connect eh] ++
        (Evdi.setupBuffers o.buffer eh framebuffers
          { e with ehandle := some eh, connected := true }).2.1) = some w₁ →
        Tracks (Evdi.setupBuffers o.buffer eh framebuffers
          { e with ehandle := some eh, connected := true }).1 w₁ ∧
        (Evdi.setupBuffers o.buffer eh framebuffers
          { e with ehandle := some eh, connected := true }).1.ehandle = some eh := by
      intro w₁ hrun
      rw [run_append, run_append, run_perform_of_allows allowed₁, Option.bind_some,
        run_perform_of_allows allowed₂, Option.bind_some] at hrun
      exact tracks₂.setupBuffers (by decide) rfl
        (fun f _ => (tracks.closed closed).2.2 f) hrun
    rcases exits with ⟨success, done⟩ | ⟨e₁, err, which, failed, exit⟩
    · rw [success] at h ⊢
      obtain ⟨tracks', opened⟩ := filled h
      have everyone : ∀ f : FbId, f ∈ framebuffers := by decide
      have up : (Evdi.setupBuffers o.buffer eh framebuffers
          { e with ehandle := some eh, connected := true }).1.SetUp :=
        ⟨⟨eh, opened⟩, connected_setupBuffers ..,
          fun f => registered_setupBuffers done (Or.inl (everyone f))⟩
      exact ⟨tracks'.setupEpoll o, fun _ => up.setupEpoll o,
        fun failed => absurd rfl failed⟩
    · rw [exit] at h ⊢
      obtain ⟨w₁, hrun, hclean⟩ :=
        Option.bind_eq_some_iff.mp ((run_append _ _ _).symm.trans h)
      obtain ⟨tracks', -⟩ := filled hrun
      have tracks₁ : Tracks e₁ w₁ := by
        rcases which with rfl | rfl
        · exact tracks'
        · exact tracks'.setupEpoll o
      obtain ⟨tracks'', rest⟩ := tracks₁.cleanup_of_run hclean
      exact ⟨tracks'', fun success => absurd success failed, fun _ => rest⟩

/-- `evdi_get` only uses the handle. -/
theorem Tracks.get (tracks : Tracks e w) (up : e.SetUp) (err : ℕ) :
    ∃ w', run Library.perform w (evdiGetCalls e err).calls = some w' ∧
      Tracks (evdiGetCalls e err).statics w' ∧ (evdiGetCalls e err).statics.SetUp := by
  obtain ⟨eh, opened⟩ := up.opened
  have handle : w.handle = some eh := tracks.handle.trans opened
  have request : w.Allows (.requestUpdate e.ehandle (toggle e.fbid)) :=
    ⟨by rw [handle]; rfl, tracks.handle.symm⟩
  have grab : w.Allows (.grabPixels e.ehandle) := ⟨by rw [handle]; rfl, tracks.handle.symm⟩
  refine ⟨w, ?_, ?_, ?_⟩
  · unfold evdiGetCalls
    simp only
    split
    · rw [← List.singleton_append, run_append, run_perform_of_allows request]
      exact run_perform_of_allows grab
    · exact run_perform_of_allows request
  · unfold evdiGetCalls
    simp only
    split <;> exact { tracks with }
  · unfold evdiGetCalls
    simp only
    split <;> exact { up with }

omit [DecidableEq H] [DecidableEq P] in
/-- Without a handle the library is empty and the statics are those of the start. -/
theorem Tracks.at_rest (tracks : Tracks e w) (closed : e.ehandle = none)
    (noEpoll : e.epollFd = 0) :
    w = Library.empty ∧ e = { (Statics.start : Statics H P) with fbid := e.fbid } := by
  obtain ⟨off, unregistered, empty⟩ := tracks.closed closed
  constructor
  · have registered : w.registered = fun _ => none := by
      funext f
      rw [tracks.registered, unregistered]
      rfl
    have allocated : w.allocated = ∅ := by
      rw [Finset.eq_empty_iff_forall_notMem]
      intro p hp
      obtain ⟨f, hf⟩ := (tracks.allocated p).mp hp
      rw [empty] at hf
      cases hf
    obtain ⟨handle, connected, _, _, misused⟩ := w
    obtain rfl : handle = none := tracks.handle.trans closed
    obtain rfl : connected = false := tracks.connected.trans off
    obtain rfl : misused = [] := tracks.misused
    subst registered allocated
    rfl
  · obtain ⟨_, _, buffers, registered, _, _⟩ := e
    obtain rfl : buffers = fun _ => none := funext empty
    obtain rfl : registered = fun _ => false := funext unregistered
    subst closed noEpoll off
    rfl

end Runs

/-! ## Runs -/

variable [DecidableEq H] [DecidableEq P]

/-- Between two calls: the statics track the library, and everything is set up exactly
when a setup is outstanding. -/
structure Program.Balanced (s : Program H P) : Prop where
  tracks : Tracks s.statics s.library
  sound : s.library.Sound
  up : s.outstanding = true → s.statics.SetUp
  closed : s.outstanding = false → s.statics.ehandle = none ∧ s.statics.epollFd = 0

omit [DecidableEq H] [DecidableEq P] in
theorem balanced_start : (Program.start : Program H P).Balanced where
  tracks := tracks_start
  sound := by simp [Library.Sound, Program.start, Library.empty]
  up := by simp [Program.start]
  closed := fun _ => ⟨rfl, rfl⟩

/-- **One call** keeps the balance. -/
theorem Program.Balanced.step {s s' : Program H P} {call : EvdiCall H P}
    (balanced : s.Balanced) (h : evdiStep s call = some s') : s'.Balanced := by
  unfold evdiStep at h
  split at h
  · next comes =>
      obtain ⟨library, hrun, rfl⟩ := Option.map_eq_some_iff.mp h
      have sound : library.Sound := invariant_of_run (P := Library.Sound)
        (fun sound h => sound.perform h) balanced.sound hrun
      cases call with
      | setup o =>
          obtain ⟨closed, noEpoll⟩ :=
            balanced.closed (by simpa [EvdiCall.mayCome] using comes)
          obtain ⟨tracks, success, failure⟩ := balanced.tracks.setup closed noEpoll hrun
          refine ⟨tracks, sound, fun h => success ?_, fun h => failure ?_⟩
          · exact of_decide_eq_true h
          · exact of_decide_eq_false h
      | get err =>
          obtain ⟨w', hrun', tracks, up⟩ := balanced.tracks.get (balanced.up comes) err
          obtain rfl : w' = library := Option.some.inj (hrun'.symm.trans hrun)
          refine ⟨tracks, sound, fun _ => up, fun h => ?_⟩
          rw [show s.outstanding = true from comes] at h
          cases h
      | cleanup =>
          obtain ⟨tracks, rest⟩ := balanced.tracks.cleanup_of_run hrun
          exact ⟨tracks, sound, fun h => absurd h (by simp), fun _ => rest⟩
  · cases h

/-- **Everything acquired is released, once.**  In every run of `evdi_setup`,
`evdi_get` and `evdi_cleanup` calls and whatever fails in them, no call of the
library comes without what it requires: no framebuffer is registered but on the open
handle, freed while registered, or freed twice, the display is disconnected before
the handle is closed, and neither of them twice.  While a setup is outstanding the
handle is open, the display connected and every framebuffer registered.  After a
cleanup or a failed setup nothing remains, so another cleanup does nothing and a setup
begins anew. -/
theorem lifecycle_balanced (calls : List (EvdiCall H P)) :
    EachStep evdiStep
      (fun _ s call s' =>
        (∀ before after library, (call.made s.statics).calls = before ++ after →
          run Library.perform s.library before = some library → library.Sound) ∧
        s'.library.misused = [] ∧
        (s'.outstanding = true → s'.library.handle.isSome ∧ s'.library.connected = true ∧
          ∀ fbid, (s'.library.registered fbid).isSome) ∧
        (s'.outstanding = false → s'.library = Library.empty ∧
          s'.statics = { (Statics.start : Statics H P) with fbid := s'.statics.fbid } ∧
          evdiCleanup s'.statics = (s'.statics, [])))
      Program.start calls := by
  intro before call after s s' split hrun hstep
  have balanced : s.Balanced := invariant_of_run (P := Program.Balanced)
    (fun balanced hstep => balanced.step hstep) balanced_start hrun
  have balanced' := balanced.step hstep
  refine ⟨fun made rest library _ hmade => ?_, balanced'.tracks.misused,
    fun lasts => (balanced'.up lasts).library balanced'.tracks, fun ended => ?_⟩
  · exact invariant_of_run (P := Library.Sound)
      (fun sound h => sound.perform h) balanced.sound hmade
  · obtain ⟨closed, noEpoll⟩ := balanced'.closed ended
    obtain ⟨empty, rest⟩ := balanced'.tracks.at_rest closed noEpoll
    refine ⟨empty, rest, ?_⟩
    rw [rest]
    rfl

/-- Two setups, the first one without memory for the second framebuffer: it leaves
through the cleanup, and the second one succeeds. -/
def twoSetups : List (EvdiCall ℕ ℕ) :=
  let outcome : SetupOutcome ℕ ℕ :=
    { firstDevice := some 0, addDevice := false, newDevice := none, opened := some 7
      buffer := fun f => if f.val = 0 then some 100 else none
      epollCreate := some 5, epollCtl := true }
  [.setup outcome, .cleanup, .setup { outcome with buffer := fun f => some (100 + f) }]

theorem lifecycle_balanced_twoSetups :
    ∃ s : Program ℕ ℕ, run evdiStep Program.start (twoSetups ++ [.get 0]) = some s ∧
      s.outstanding = true ∧ s.library.misused = [] ∧ s.library.handle.isSome ∧
      s.library.connected = true ∧ ∀ fbid, (s.library.registered fbid).isSome := by
  obtain ⟨s, hrun, lasts⟩ : ∃ s : Program ℕ ℕ,
      run evdiStep Program.start (twoSetups ++ [.get 0]) = some s ∧ s.outstanding = true :=
    ⟨_, rfl, rfl⟩
  obtain ⟨s₁, -, -, -, misused, up, -⟩ :=
    EachStep.last twoSetups (lifecycle_balanced (twoSetups ++ [.get 0])) hrun
  exact ⟨s, hrun, lasts, misused, up lasts⟩

end Kernelflut.Evdi
