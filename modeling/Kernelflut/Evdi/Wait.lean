import Kernelflut.Evdi.Framebuffers
import Kernelflut.Foundations.Runs
import Kernelflut.Pixelflut.Client

/-!
# The wait protocol of `evdi_get`

`evdi_get` asks libevdi to update the next framebuffer.  Either the answer is
that pixels can be grabbed at once, or an update-ready event will be queued some
time later; then `evdi_get` polls until `update_ready_handler`, called from
`evdi_handle_events`, has put the buffer's id into `ebuf_ready_fbid`.

`waitStep` is one step of the program or of its environment, in any interleaving:
the kernel queues the events it owes, and events of other kinds, whenever it
likes; `epoll_wait` may time out; a batch may contain any number of events.  The
program's steps follow the source from one point where it waits or returns to
the next (`Phase`).  Requests are numbered by the calls that make them, and each
call keeps a `log`.

The invariant is a balance (`Waiting`): while a call waits, its own event is
the only update-ready event there is, either still owed by the kernel or queued.
`wait_protocol` reads off what every completed call did, and
`returns_evdiGet` that the calls together did what `evdiGet` says.
-/

namespace Kernelflut.Evdi

open Kernelflut.Pixelflut PartialStep

/-- `#define ERR_EVDI_EPOLL 13` -/
def errEvdiEpoll : ℕ := 13

/-- `DRM_EVDI_EVENT_UPDATE_READY`, with the number of the request it answers, or
any other event. -/
inductive DrmEvent where
  | updateReady (request : ℕ)
  | other
  deriving DecidableEq, Repr

/-- What a call of `evdi_get` does that the protocol is about: ask for a buffer,
have `update_ready_handler` called for the event of a request, grab pixels into
a buffer. -/
inductive LogEntry where
  | requested (fbid : FbId) (immediately : Bool)
  | ready (request : ℕ)
  | grabbed (fbid : FbId)
  deriving DecidableEq, Repr

/-- A call of `evdi_get` that returned 0. -/
structure GetCall where
  log : List LogEntry
  grab : Grab
  update : EvdiUpdate

/-- Where the program is. -/
inductive Phase where
  /-- Not in `evdi_get`. -/
  | idle
  /-- At `while (ebuf_ready_fbid != fbid)`. -/
  | check
  /-- At `epoll_wait`. -/
  | poll
  /-- `evdi_wait` has returned this code. -/
  | waited (err : ℕ)
  /-- At `evdi_grab_pixels`. -/
  | grab
  /-- `evdi_get` has returned this nonzero code. -/
  | returned (err : ℕ)
  deriving DecidableEq, Repr

structure WaitState where
  /-- The static of `evdi_get`. -/
  fbid : FbId
  /-- `ebuf_ready_fbid` -/
  readyFbid : ℤ
  /-- `handle->bufferToUpdate` -/
  bufferToUpdate : FbId
  bufs : FbId → ℤ → Word
  doomed : Bool
  phase : Phase
  /-- The requests the kernel has yet to queue an event for. -/
  owed : List ℕ
  queue : List DrmEvent
  /-- The update-ready events queued so far. -/
  arrived : List ℕ
  /-- The log of the call in progress. -/
  log : List LogEntry
  calls : List GetCall

/-- After `evdi_setup`.  The static `fbid` is what an earlier session left. -/
def WaitState.start (e : Buffers) (bufferToUpdate : FbId) : WaitState where
  fbid := e.fbid
  readyFbid := -1
  bufferToUpdate := bufferToUpdate
  bufs := e.bufs
  doomed := false
  phase := .idle
  owed := []
  queue := []
  arrived := []
  log := []
  calls := []

/-- What `epoll_wait` reports; if it is readiness, then with the number of
events that `evdi_handle_events` will read. -/
inductive EpollResult where
  | timeout
  | error
  | readable (events : ℕ)

inductive WaitInput where
  /-- `evdi_get` is called, and makes its request. -/
  | get (immediately : Bool)
  | check
  | poll (result : EpollResult)
  | resume
  | grab (grab : Grab)
  /-- The kernel queues the update-ready event it owes for a request. -/
  | arrive (request : ℕ)
  | otherEvent
  /-- SIGINT. -/
  | interrupt

/-- `evdi_handle_event` with the handlers `evdi_setup` registers. -/
def handleEvent (s : WaitState) : DrmEvent → WaitState
  | .updateReady request =>
      { s with readyFbid := s.bufferToUpdate.val, log := s.log ++ [.ready request] }
  | .other => s

/-- `evdi_handle_events`: the events that one `read` returns. -/
def handleEvents (s : WaitState) (events : ℕ) : WaitState :=
  (s.queue.take events).foldl handleEvent { s with queue := s.queue.drop events }

def waitStep (s : WaitState) : WaitInput → Option WaitState
  | .get immediately =>
      match s.phase with
      | .idle =>
          let fbid := toggle s.fbid
          some { s with
            fbid
            bufferToUpdate := fbid
            owed := if immediately then s.owed else s.owed ++ [s.calls.length]
            log := [.requested fbid immediately]
            phase := if immediately then .grab else .check }
      | _ => none
  | .check =>
      match s.phase with
      | .check =>
          if s.readyFbid ≠ s.fbid.val then some { s with phase := .poll }
          else some { s with readyFbid := -1, phase := .grab }
      | _ => none
  | .poll result =>
      match s.phase with
      | .poll =>
          -- SIGINT comes first, whatever `epoll_wait` reports.
          if s.doomed then some { s with phase := .waited exceptionInt }
          else
            match result with
            | .timeout => some s
            | .error => some { s with phase := .waited errEvdiEpoll }
            | .readable events => some { handleEvents s events with phase := .waited 0 }
      | _ => none
  | .resume =>
      match s.phase with
      | .waited err =>
          -- `evdi_get` looks at `doomed` before it looks at the code.
          if s.doomed then some { s with phase := .returned exceptionInt }
          else if err ≠ 0 then some { s with phase := .returned err }
          else some { s with phase := .check }
      | _ => none
  | .grab grab =>
      match s.phase with
      | .grab =>
          some { s with
            bufs := Function.update s.bufs s.bufferToUpdate
              (grab.write (s.bufs s.bufferToUpdate))
            phase := .idle
            log := []
            calls := s.calls ++ [{ log := s.log ++ [.grabbed s.bufferToUpdate]
                                   grab
                                   update := { fb := s.fbid, rects := grab.rects } }] }
      | _ => none
  | .arrive request =>
      if request ∈ s.owed then
        some { s with
          owed := s.owed.erase request
          queue := s.queue ++ [.updateReady request]
          arrived := s.arrived ++ [request] }
      else none
  | .otherEvent => some { s with queue := s.queue ++ [.other] }
  | .interrupt => some { s with doomed := true }

/-! ## Events -/

/-- The update-ready events in a queue. -/
def readies (queue : List DrmEvent) : List ℕ :=
  queue.filterMap fun
    | .updateReady request => some request
    | .other => none

/-- The update-ready events a call has consumed. -/
def consumed (log : List LogEntry) : List ℕ :=
  log.filterMap fun
    | .ready request => some request
    | _ => none

@[simp] theorem readies_append (queue queue' : List DrmEvent) :
    readies (queue ++ queue') = readies queue ++ readies queue' :=
  List.filterMap_append

@[simp] theorem consumed_append (log log' : List LogEntry) :
    consumed (log ++ log') = consumed log ++ consumed log' :=
  List.filterMap_append

@[simp] theorem consumed_map_ready (requests : List ℕ) :
    consumed (requests.map .ready) = requests := by
  simp [consumed, List.filterMap_map]

/-- The handler leaves the buffer that was requested last
in `ebuf_ready_fbid`, if there was an update-ready event among them. -/
theorem foldl_handleEvent (s : WaitState) (batch : List DrmEvent) :
    batch.foldl handleEvent s =
      { s with
        readyFbid := if readies batch = [] then s.readyFbid else s.bufferToUpdate.val
        log := s.log ++ (readies batch).map .ready } := by
  induction batch generalizing s with
  | nil => simp [readies]
  | cons event batch ih =>
      rw [List.foldl_cons, ih]
      cases event with
      | other => rfl
      | updateReady request =>
          have head : readies (.updateReady request :: batch) =
              request :: readies batch := rfl
          rw [head]
          simp [handleEvent]

/-- **What `evdi_handle_events` does** with the first events of the queue. -/
theorem handleEvents_eq (s : WaitState) (events : ℕ) :
    handleEvents s events =
      { s with
        queue := s.queue.drop events
        readyFbid :=
          if readies (s.queue.take events) = [] then s.readyFbid else s.bufferToUpdate.val
        log := s.log ++ (readies (s.queue.take events)).map .ready } :=
  foldl_handleEvent _ _

theorem readies_take_append_drop (queue : List DrmEvent) (events : ℕ) :
    readies (queue.take events) ++ readies (queue.drop events) = readies queue := by
  rw [← readies_append, List.take_append_drop]

theorem forall_getElem?_concat {α : Type*} {xs : List α} {y : α} {P : ℕ → α → Prop} :
    (∀ (i : ℕ) (x : α), (xs ++ [y])[i]? = some x → P i x) ↔
      (∀ (i : ℕ) (x : α), xs[i]? = some x → P i x) ∧ P xs.length y := by
  constructor
  · intro all
    refine ⟨fun i x hx => all i x ?_, all _ y (by simp)⟩
    rw [List.getElem?_append_left (List.getElem?_eq_some_iff.mp hx).1, hx]
  · rintro ⟨old, new⟩ i x hx
    rcases lt_or_ge i xs.length with below | beyond
    · rw [List.getElem?_append_left below] at hx
      exact old i x hx
    · rw [List.getElem?_append_right beyond, List.getElem?_singleton] at hx
      split at hx
      · next zero =>
          obtain rfl : i = xs.length := by omega
          exact Option.some.inj hx ▸ new
      · cases hx

/-! ## The invariant -/

/-- The buffers after some calls, each of which did what `evdiGet` says. -/
def afterCalls (e : Buffers) (calls : List GetCall) : Buffers :=
  calls.foldl (fun e call => (evdiGet e call.grab).1) e

theorem afterCalls_concat (e : Buffers) (calls : List GetCall) (call : GetCall) :
    afterCalls e (calls ++ [call]) = (evdiGet (afterCalls e calls) call.grab).1 := by
  simp [afterCalls, List.foldl_append]

/-- The `i`-th call did it right: one grab, into the buffer it requested and
returns, and only when that could be grabbed at once or after its own event. -/
def GetCall.Right (call : GetCall) (i : ℕ) : Prop :=
  call.log = [.requested call.update.fb true, .grabbed call.update.fb] ∨
    call.log = [.requested call.update.fb false, .ready i, .grabbed call.update.fb]

namespace WaitState

/-- No update-ready event is owed or queued. -/
def Settled (s : WaitState) : Prop := s.owed ++ readies s.queue = []

/-- A call is in progress: it has toggled `fbid` and requested that buffer. -/
structure InCall (e : Buffers) (s : WaitState) : Prop where
  fbid : s.fbid = toggle (afterCalls e s.calls).fbid
  bufs : s.bufs = (afterCalls e s.calls).bufs
  requested : s.bufferToUpdate = s.fbid

/-- **The balance**: its event is owed or queued, and there is no other. -/
structure Waiting (s : WaitState) : Prop where
  flag : s.readyFbid = -1
  log : s.log = [.requested s.fbid false]
  event : s.owed ++ readies s.queue = [s.calls.length]

/-- Its event has been handled. -/
structure Ready (s : WaitState) : Prop where
  flag : s.readyFbid = s.fbid.val
  log : s.log = [.requested s.fbid false, .ready s.calls.length]
  settled : s.Settled

/-- It may grab. -/
structure Granted (s : WaitState) : Prop where
  flag : s.readyFbid = -1
  log : s.log = [.requested s.fbid true] ∨
    s.log = [.requested s.fbid false, .ready s.calls.length]
  settled : s.Settled

/-- Between calls. -/
structure AtRest (e : Buffers) (s : WaitState) : Prop where
  flag : s.readyFbid = -1
  log : s.log = []
  settled : s.Settled
  buffers : Buffers.mk s.fbid s.bufs = afterCalls e s.calls

/-- What holds at each point of the program. -/
def Stage (e : Buffers) (s : WaitState) : Prop :=
  match s.phase with
  | .idle => s.AtRest e
  | .check | .waited _ => s.InCall e ∧ (s.Waiting ∨ s.Ready)
  | .poll => s.InCall e ∧ s.Waiting
  | .grab => s.InCall e ∧ s.Granted
  | .returned _ => True

structure Inv (e : Buffers) (s : WaitState) : Prop where
  right : ∀ (i : ℕ) (call : GetCall), s.calls[i]? = some call → call.Right i
  returns : ∀ (i : ℕ) (call : GetCall), s.calls[i]? = some call →
    call.update = (evdiGet (afterCalls e (s.calls.take i)) call.grab).2
  /-- Every event that arrived was consumed by one call, or is in the queue. -/
  balance : s.arrived =
    s.calls.flatMap (fun call => consumed call.log) ++ consumed s.log ++ readies s.queue
  stage : s.Stage e

/-! Where the program is does not matter to the first three. -/

theorem InCall.at {e : Buffers} {s : WaitState} (h : s.InCall e) (phase : Phase) :
    ({ s with phase } : WaitState).InCall e := ⟨h.1, h.2, h.3⟩

theorem Waiting.at {s : WaitState} (h : s.Waiting) (phase : Phase) :
    ({ s with phase } : WaitState).Waiting := ⟨h.1, h.2, h.3⟩

theorem Ready.at {s : WaitState} (h : s.Ready) (phase : Phase) :
    ({ s with phase } : WaitState).Ready := ⟨h.1, h.2, h.3⟩

theorem inv_start (e : Buffers) (bufferToUpdate : FbId) :
    (start e bufferToUpdate).Inv e where
  right := by simp [start]
  returns := by simp [start]
  balance := rfl
  stage := ⟨rfl, rfl, rfl, rfl⟩

/-! ## One step -/

section Step

variable {e : Buffers} {s s' : WaitState}

/-- `evdi_get` makes its request. -/
theorem Inv.get {immediately : Bool} (inv : s.Inv e)
    (h : waitStep s (.get immediately) = some s') : s'.Inv e := by
  simp only [waitStep] at h
  split at h
  · next idle =>
      have rest : s.AtRest e := by simpa only [Stage, idle] using inv.stage
      have fbid : s.fbid = (afterCalls e s.calls).fbid := congrArg Buffers.fbid rest.buffers
      have bufs : s.bufs = (afterCalls e s.calls).bufs := congrArg Buffers.bufs rest.buffers
      cases h
      refine ⟨inv.right, inv.returns, ?_, ?_⟩
      · simpa [rest.log, consumed] using inv.balance
      · cases immediately with
        | true =>
            exact ⟨⟨congrArg toggle fbid, bufs, rfl⟩, rest.flag, Or.inl rfl, rest.settled⟩
        | false =>
            refine ⟨⟨congrArg toggle fbid, bufs, rfl⟩, Or.inl ⟨rest.flag, rfl, ?_⟩⟩
            obtain ⟨owed, queue⟩ := List.append_eq_nil_iff.mp rest.settled
            simp [owed, queue]
  · cases h

/-- The loop test. -/
theorem Inv.check (inv : s.Inv e) (h : waitStep s .check = some s') : s'.Inv e := by
  simp only [waitStep] at h
  split at h
  · next atCheck =>
      have stage : s.InCall e ∧ (s.Waiting ∨ s.Ready) := by
        simpa only [Stage, atCheck] using inv.stage
      obtain ⟨inCall, waiting | ready⟩ := stage
      · have differs : s.readyFbid ≠ s.fbid.val := by
          rw [waiting.flag]
          omega
        rw [if_pos differs] at h
        cases h
        exact ⟨inv.right, inv.returns, inv.balance, inCall.at _, waiting.at _⟩
      · rw [if_neg (not_not.mpr ready.flag)] at h
        cases h
        exact ⟨inv.right, inv.returns, inv.balance,
          ⟨inCall.1, inCall.2, inCall.3⟩, rfl, Or.inr ready.log, ready.settled⟩
  · cases h

/-- **A batch of events** while a call waits: either its event is among them, or
it is still to come. -/
theorem waiting_handleEvents (waiting : s.Waiting) (inCall : s.InCall e) (events : ℕ) :
    (handleEvents s events).Waiting ∨ (handleEvents s events).Ready := by
  have event := waiting.event
  rw [← readies_take_append_drop s.queue events] at event
  rw [handleEvents_eq]
  cases hbatch : readies (s.queue.take events) with
  | nil =>
      rw [hbatch] at event
      exact Or.inl ⟨waiting.flag, by simp [waiting.log], by simpa using event⟩
  | cons request requests =>
      rw [hbatch] at event
      have sole : s.owed = [] ∧ request = s.calls.length ∧ requests = [] ∧
          readies (s.queue.drop events) = [] := by
        cases howed : s.owed with
        | nil => simpa [howed] using event
        | cons => simp [howed] at event
      obtain ⟨owed, rfl, rfl, rest⟩ := sole
      refine Or.inr ⟨?_, by simp [waiting.log], by simp [Settled, owed, rest]⟩
      show (if [s.calls.length] = [] then s.readyFbid else s.bufferToUpdate.val) =
        (s.fbid.val : ℤ)
      rw [if_neg (List.cons_ne_nil _ _), inCall.requested]

theorem Inv.handleEvents (inv : s.Inv e) (inCall : s.InCall e) (waiting : s.Waiting)
    (events : ℕ) :
    ({ handleEvents s events with phase := .waited 0 } : WaitState).Inv e := by
  have balance := inv.balance
  rw [← readies_take_append_drop s.queue events] at balance
  have handled := waiting_handleEvents waiting inCall events
  rw [handleEvents_eq] at handled ⊢
  refine ⟨inv.right, inv.returns, ?_, ⟨inCall.1, inCall.2, inCall.3⟩, ?_⟩
  · simpa using balance
  · exact handled.imp (fun waiting => waiting.at _) fun ready => ready.at _

/-- `epoll_wait`, and `evdi_handle_events` if there is something to read. -/
theorem Inv.poll {result : EpollResult} (inv : s.Inv e)
    (h : waitStep s (.poll result) = some s') : s'.Inv e := by
  simp only [waitStep] at h
  split at h
  · next atPoll =>
      have stage : s.InCall e ∧ s.Waiting := by simpa only [Stage, atPoll] using inv.stage
      obtain ⟨inCall, waiting⟩ := stage
      have returns : ∀ err, ({ s with phase := .waited err } : WaitState).Inv e := fun err =>
        ⟨inv.right, inv.returns, inv.balance, inCall.at _, Or.inl (waiting.at _)⟩
      split at h
      · cases h
        exact returns _
      · cases result with
        | timeout =>
            cases h
            exact inv
        | error =>
            cases h
            exact returns _
        | readable events =>
            cases h
            exact inv.handleEvents inCall waiting events
  · cases h

/-- `evdi_wait` has returned to the loop. -/
theorem Inv.resume (inv : s.Inv e) (h : waitStep s .resume = some s') : s'.Inv e := by
  simp only [waitStep] at h
  split at h
  · next err waited =>
      have stage : s.InCall e ∧ (s.Waiting ∨ s.Ready) := by
        simpa only [Stage, waited] using inv.stage
      have ends : ∀ err, ({ s with phase := .returned err } : WaitState).Inv e := fun err =>
        ⟨inv.right, inv.returns, inv.balance, trivial⟩
      split at h
      · cases h
        exact ends _
      · split at h
        · cases h
          exact ends _
        · cases h
          exact ⟨inv.right, inv.returns, inv.balance, stage.1.at _,
            stage.2.imp (fun waiting => waiting.at _) fun ready => ready.at _⟩
  · cases h

/-- `evdi_grab_pixels`, and the return of `evdi_get`. -/
theorem Inv.grab {grab : Grab} (inv : s.Inv e) (h : waitStep s (.grab grab) = some s') :
    s'.Inv e := by
  simp only [waitStep] at h
  split at h
  · next atGrab =>
      have stage : s.InCall e ∧ s.Granted := by simpa only [Stage, atGrab] using inv.stage
      obtain ⟨inCall, granted⟩ := stage
      cases h
      refine ⟨forall_getElem?_concat.mpr ⟨inv.right, ?_⟩,
        forall_getElem?_concat.mpr ⟨?_, ?_⟩, ?_, ?_⟩
      · rw [GetCall.Right, inCall.requested]
        rcases granted.log with immediate | waited
        · exact Or.inl (by rw [immediate]; rfl)
        · exact Or.inr (by rw [waited]; rfl)
      · intro i call hcall
        have bound := (List.getElem?_eq_some_iff.mp hcall).1
        rw [List.take_append_of_le_length bound.le]
        exact inv.returns i call hcall
      · rw [List.take_append_of_le_length (le_refl _), List.take_length, inCall.fbid]
        rfl
      · simp [inv.balance, consumed]
      · refine ⟨granted.flag, rfl, granted.settled, ?_⟩
        rw [afterCalls_concat, evdiGet, inCall.requested, inCall.bufs, inCall.fbid]
  · cases h

/-- The environment moves the one event there may be from the kernel's debts to
the queue, but adds none. -/
theorem Stage.environment (h : s.Stage e) (doomed : Bool) {owed : List ℕ}
    {queue : List DrmEvent} (arrived : List ℕ)
    (same : ∀ events : List ℕ, events.length ≤ 1 →
      s.owed ++ readies s.queue = events → owed ++ readies queue = events) :
    ({ s with doomed, owed, queue, arrived } : WaitState).Stage e := by
  have settled : s.Settled → owed ++ readies queue = [] := same [] (Nat.zero_le 1)
  unfold Stage at h ⊢
  show match s.phase with | _ => _
  cases phase : s.phase with
  | idle =>
      rw [phase] at h
      exact ⟨h.flag, h.log, settled h.settled, h.buffers⟩
  | check | waited err =>
      rw [phase] at h
      obtain ⟨inCall, waiting | ready⟩ := h
      · exact ⟨⟨inCall.1, inCall.2, inCall.3⟩,
          Or.inl ⟨waiting.flag, waiting.log, same _ (le_refl 1) waiting.event⟩⟩
      · exact ⟨⟨inCall.1, inCall.2, inCall.3⟩,
          Or.inr ⟨ready.flag, ready.log, settled ready.settled⟩⟩
  | poll =>
      rw [phase] at h
      exact ⟨⟨h.1.1, h.1.2, h.1.3⟩,
        ⟨h.2.flag, h.2.log, same _ (le_refl 1) h.2.event⟩⟩
  | grab =>
      rw [phase] at h
      exact ⟨⟨h.1.1, h.1.2, h.1.3⟩, ⟨h.2.flag, h.2.log, settled h.2.settled⟩⟩
  | returned err => trivial

theorem Inv.arrive {request : ℕ} (inv : s.Inv e)
    (h : waitStep s (.arrive request) = some s') : s'.Inv e := by
  simp only [waitStep] at h
  split at h
  · next owed =>
      cases h
      refine ⟨inv.right, inv.returns, ?_, inv.stage.environment _ _ ?_⟩
      · simp [inv.balance, readies]
      · intro events atMostOne sole
        -- With at most one event about, this is the one.
        obtain ⟨before, after, split⟩ := List.append_of_mem owed
        have length : (s.owed ++ readies s.queue).length ≤ 1 := sole ▸ atMostOne
        simp only [split, List.length_append, List.length_cons] at length
        obtain rfl : before = [] := List.length_eq_zero_iff.mp (by omega)
        obtain rfl : after = [] := List.length_eq_zero_iff.mp (by omega)
        have queue : readies s.queue = [] := List.length_eq_zero_iff.mp (by simp_all)
        rw [← sole, split, readies_append, queue]
        simp [readies]
  · cases h

theorem Inv.otherEvent (inv : s.Inv e) (h : waitStep s .otherEvent = some s') : s'.Inv e := by
  cases h
  have queue : readies (s.queue ++ [.other]) = readies s.queue := by simp [readies]
  refine ⟨inv.right, inv.returns, ?_, inv.stage.environment _ _ fun events _ sole => ?_⟩
  · rw [queue]
    exact inv.balance
  · rw [queue]
    exact sole

theorem Inv.interrupt (inv : s.Inv e) (h : waitStep s .interrupt = some s') : s'.Inv e := by
  cases h
  exact ⟨inv.right, inv.returns, inv.balance,
    inv.stage.environment _ _ fun _ _ sole => sole⟩

/-- **One step**, of the program or of its environment. -/
theorem Inv.step {input : WaitInput} (inv : s.Inv e) (h : waitStep s input = some s') :
    s'.Inv e := by
  cases input with
  | get immediately => exact inv.get h
  | check => exact inv.check h
  | poll result => exact inv.poll h
  | resume => exact inv.resume h
  | grab grab => exact inv.grab h
  | arrive request => exact inv.arrive h
  | otherEvent => exact inv.otherEvent h
  | interrupt => exact inv.interrupt h

end Step

end WaitState

/-! ## Runs -/

section Runs

variable {e : Buffers} {bufferToUpdate : FbId} {inputs : List WaitInput} {s : WaitState}

theorem inv_of_run (h : run waitStep (.start e bufferToUpdate) inputs = some s) :
    s.Inv e :=
  invariant_of_run (fun inv h => inv.step h) (WaitState.inv_start e bufferToUpdate) h

/-- **The wait is invisible**: the completed calls returned and grabbed what
`evdiGet` says, one after the other. -/
theorem returns_evdiGet (h : run waitStep (.start e bufferToUpdate) inputs = some s) :
    (∀ (i : ℕ) (call : GetCall), s.calls[i]? = some call →
      call.update = (evdiGet (afterCalls e (s.calls.take i)) call.grab).2) ∧
    (s.phase = .idle → Buffers.mk s.fbid s.bufs = afterCalls e s.calls) := by
  have inv := inv_of_run h
  refine ⟨inv.returns, fun idle => ?_⟩
  have rest : s.AtRest e := by simpa only [WaitState.Stage, idle] using inv.stage
  exact rest.buffers

/-- Consecutive calls return different buffers. -/
theorem update_fb_ne (h : run waitStep (.start e bufferToUpdate) inputs = some s) {i : ℕ}
    {call call' : GetCall} (hcall : s.calls[i]? = some call)
    (hcall' : s.calls[i + 1]? = some call') : call.update.fb ≠ call'.update.fb := by
  have inv := inv_of_run h
  have bound := (List.getElem?_eq_some_iff.mp hcall').1
  have taken : s.calls.take (i + 1) = s.calls.take i ++ [call] := by
    rw [List.take_add_one, hcall]
    rfl
  rw [inv.returns _ _ hcall, inv.returns _ _ hcall', taken, afterCalls_concat]
  simp only [evdiGet_fb, evdiGet_fbid]
  exact (toggle_ne _).symm

/-- **The wait protocol**, over any run of consecutive calls of `evdi_get`, with
events arriving and polls timing out in any way.  Every completed call grabbed
once, into the buffer it had requested and returns, and only when this could be
grabbed at once or after the event of its own request.  Consecutive calls use
different buffers.  Between calls `ebuf_ready_fbid` is -1, no event is owed or
queued, and the events that arrived are those the calls consumed. -/
theorem wait_protocol (e : Buffers) (bufferToUpdate : FbId) (inputs : List WaitInput)
    (s : WaitState)
    (h : run waitStep (.start e bufferToUpdate) inputs = some s) :
    (∀ (i : ℕ) (call : GetCall), s.calls[i]? = some call → call.Right i) ∧
    (∀ (i : ℕ) (call call' : GetCall), s.calls[i]? = some call →
      s.calls[i + 1]? = some call' → call.update.fb ≠ call'.update.fb) ∧
    (s.phase = .idle → s.readyFbid = -1 ∧ s.owed = [] ∧ readies s.queue = [] ∧
      s.arrived = s.calls.flatMap fun call => consumed call.log) := by
  have inv := inv_of_run h
  refine ⟨inv.right, fun i call call' => update_fb_ne h, fun idle => ?_⟩
  have rest : s.AtRest e := by simpa only [WaitState.Stage, idle] using inv.stage
  obtain ⟨owed, queue⟩ := List.append_eq_nil_iff.mp rest.settled
  refine ⟨rest.flag, owed, queue, ?_⟩
  rw [inv.balance, rest.log, queue]
  simp [consumed]

/-- A call that may grab at once, and one that waits through a timeout and an
event of another kind. -/
def immediateThenWait : List WaitInput :=
  [.get true, .grab (failedGrab fun _ => none), .get false, .check, .poll .timeout,
    .otherEvent, .poll (.readable 1), .resume, .check, .arrive 1, .otherEvent,
    .poll (.readable 2), .resume, .check, .grab (failedGrab fun _ => none)]

theorem wait_protocol_immediateThenWait :
    ∃ s, run waitStep (.start Buffers.start 0) immediateThenWait = some s ∧
      s.calls.length = 2 ∧ s.readyFbid = -1 ∧ s.owed = [] ∧ readies s.queue = [] ∧
      s.arrived = s.calls.flatMap fun call => consumed call.log := by
  obtain ⟨s, hrun⟩ : ∃ s, run waitStep (.start Buffers.start 0) immediateThenWait =
    some s := ⟨_, rfl⟩
  have ended : s.phase = .idle ∧ s.calls.length = 2 := by
    have := congrArg (Option.map fun s => (s.phase, s.calls.length)) hrun
    exact Prod.ext_iff.mp (Option.some.inj this.symm)
  obtain ⟨-, -, rest⟩ := wait_protocol Buffers.start 0 immediateThenWait s hrun
  exact ⟨s, hrun, ended.2, rest ended.1⟩

end Runs

end Kernelflut.Evdi
