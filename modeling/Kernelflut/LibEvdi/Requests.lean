import Kernelflut.Driver.Painter
import Kernelflut.Evdi.Wait

/-!
# Requests for updates

`Kernelflut.Evdi.Wait` has `evdi_get` wait for events that the kernel owes, and leaves
open who owes them and when they come.  Here it is connected to the driver: a request is
`evdi_painter_request_update_ioctl`, and the events in the queue are those that the
painter sent.

So the assumptions of the wait protocol become theorems.  The driver owes an event
exactly when `was_update_requested` says so, and everything it does is a step that the
protocol allows (`wait_of_run`).  And no update is missed: the next time one is ready, a
call under way comes to its end in a number of steps of the program, however few events a
`read` returns and whatever else is queued (`get_completes`).

The process of the program is the only one that connects and that requests.  A section of
the driver runs at any time, whoever else causes it.
-/

namespace Kernelflut.LibEvdi

open Kernelflut.Driver Kernelflut.Evdi PartialStep

/-- `evdi.c` and the driver, whose events for the file are in the queue. -/
structure Session where
  wait : WaitState
  driver : DriverState

inductive SessionInput where
  /-- `evdi_get` is called, and makes its request. -/
  | get
  | program (input : WaitInput)
  | driver (input : DriverInput)

/-- What the program does with no one else. -/
def isProgram : WaitInput → Bool
  | .check => true
  | .poll _ => true
  | .resume => true
  | .grab _ => true
  | .interrupt => true
  | _ => false

/-- What others do, or cause, while the file is connected. -/
def isOthers (file : DrmFile) : DriverInput → Bool
  | .connect .. => false
  | .disconnect file' => file' ≠ file
  | .close file' => file' ≠ file
  | .requestUpdate => false
  | _ => true

/-- An event is queued.  An update-ready event is numbered by the request it answers. -/
def queueEvent (wait : WaitState) : EvdiEvent → WaitState
  | .updateReady =>
      let request := wait.owed.headD wait.calls.length
      { wait with
        owed := wait.owed.tail
        queue := wait.queue ++ [.updateReady request]
        arrived := wait.arrived ++ [request] }
  | _ => { wait with queue := wait.queue ++ [.other] }

/-- The events for the file that are in `t` and not yet in `s`. -/
def eventsSince (file : DrmFile) (s t : DriverState) : List EvdiEvent :=
  ((t.device.events.drop s.device.events.length).filter fun e => e.1 = file).map Prod.snd

def sessionStep (file : DrmFile) (s : Session) : SessionInput → Option Session
  | .get =>
      let (device, result) := s.driver.device.requestUpdate
      (waitStep s.wait (.get (result = 1))).map fun wait =>
        { wait, driver := { s.driver with device } }
  | .program input =>
      if isProgram input then (waitStep s.wait input).map fun wait => { s with wait }
      else none
  | .driver input =>
      if isOthers file input then
        (driverStep s.driver input).map fun driver =>
          { wait := (eventsSince file s.driver driver).foldl queueEvent s.wait, driver }
      else none

/-- After `evdi_setup`, with a driver to which the file is connected. -/
def Session.start (e : Buffers) (bufferToUpdate : FbId) (driver : DriverState) :
    Session where
  wait := .start e bufferToUpdate
  driver

/-! ## What the driver sends -/

/-- What a section of the driver does to requests: it leaves them alone and sends no
update-ready event to the file, or it sends the one that was requested. -/
structure Answers (file : DrmFile) (s t : EvdiDevice) : Prop where
  connected : t.painter.drmFilp = some file
  sent : ∃ sent, t.events = s.events ++ sent ∧
    (t.painter.wasUpdateRequested = s.painter.wasUpdateRequested ∧
      (file, .updateReady) ∉ sent ∨
      s.painter.wasUpdateRequested = true ∧ t.painter.wasUpdateRequested = false ∧
        sent = [(file, .updateReady)])

section Driver

variable {file : DrmFile} {s t : EvdiDevice}

/-- It sends nothing. -/
theorem Answers.silent (connected : s.painter.drmFilp = some file)
    (drmFilp : t.painter.drmFilp = s.painter.drmFilp)
    (requested : t.painter.wasUpdateRequested = s.painter.wasUpdateRequested)
    (events : t.events = s.events) : Answers file s t where
  connected := drmFilp.trans connected
  sent := ⟨[], by simp [events], Or.inl ⟨requested, List.not_mem_nil⟩⟩

/-- Another file cannot disconnect this one. -/
theorem Answers.disconnect (connected : s.painter.drmFilp = some file) {file' : DrmFile}
    (other : file' ≠ file) : Answers file s (s.disconnect file').1 := by
  have unequal : some file' ≠ s.painter.drmFilp := by
    rw [connected]
    exact fun same => other (Option.some.inj same)
  rw [EvdiDevice.disconnect, if_pos unequal]
  exact .silent connected rfl rfl rfl

/-- A file that is connected gets the event. -/
theorem sendEvent_eq (connected : s.painter.drmFilp = some file) (event : EvdiEvent) :
    s.sendEvent event = { s with events := s.events ++ [(file, event)] } := by
  rw [EvdiDevice.sendEvent, connected]

/-- One case per critical section. -/
theorem answers_of_step {s t : DriverState} {input : DriverInput}
    (connected : s.device.painter.drmFilp = some file) (others : isOthers file input = true)
    (step : driverStep s input = some t) : Answers file s.device t.device := by
  cases input with
  | connect allocated edidData edidLength skuAreaLimit file devIndex => cases others
  | disconnect file' => cases step; exact .disconnect connected (of_decide_eq_true others)
  | close file' => cases step; exact .disconnect connected (of_decide_eq_true others)
  | markDirty rect =>
      cases step
      simp only [EvdiDevice.markDirty]
      split <;> exact .silent connected rfl rfl rfl
  | setScanoutBuffer newfb =>
      cases step
      exact .silent connected (by simp) (by simp) (by simp [EvdiDevice.setScanoutBuffer])
  | sendUpdateReadyIfNeeded =>
      cases step
      simp only [EvdiDevice.sendUpdateReadyIfNeeded]
      split_ifs with requested
      · rw [sendEvent_eq connected]
        exact ⟨connected, [(file, .updateReady)], rfl, Or.inr ⟨requested, rfl, rfl⟩⟩
      · exact .silent connected rfl rfl rfl
  | findFile => cases step; exact .silent connected rfl rfl rfl
  | sendEvent event =>
      obtain ⟨-, _, -, rfl⟩ := driverStep_sendEvent step
      exact .silent connected rfl rfl rfl
  | listAddTail drmFilp event =>
      obtain ⟨-, rfl⟩ := driverStep_listAddTail step
      have other : (file, EvdiEvent.updateReady) ∉ [(drmFilp, event.1)] := by
        simpa using fun _ same => event.2 same.symm
      exact ⟨connected, [_], rfl, Or.inl ⟨rfl, other⟩⟩
  | modeChangedNotified => cases step; exact .silent connected rfl rfl rfl
  | cursor cursor => cases step; exact .silent connected rfl rfl rfl
  | requestUpdate => cases others
  | grabpix cmd =>
      rcases driverStep_grabpix step with ⟨_, _, -, -, rfl⟩ | ⟨_, _, -, rfl⟩ <;>
        exact .silent connected rfl rfl rfl
  | grabbed efb =>
      obtain ⟨-, rfl⟩ := driverStep_grabbed step
      exact .silent connected rfl rfl rfl

end Driver

/-! ## The driver keeps the protocol -/

/-- The driver's side and the program's side of a request. -/
structure Session.Agrees (file : DrmFile) (e : Buffers) (s : Session) : Prop where
  connected : s.driver.device.painter.drmFilp = some file
  owed : s.wait.owed.length = if s.driver.device.painter.wasUpdateRequested then 1 else 0
  inv : s.wait.Inv e

section Protocol

variable {file : DrmFile} {e : Buffers} {s t : Session}

/-- The new events for the file, when it is known what was sent. -/
theorem eventsSince_eq {s t : DriverState} {sent : List (DrmFile × EvdiEvent)}
    (events : t.device.events = s.device.events ++ sent) :
    eventsSince file s t = (sent.filter fun e => e.1 = file).map Prod.snd := by
  rw [eventsSince, events, List.drop_left]

/-- The update-ready events of other files are not in the queue. -/
theorem updateReady_notMem {sent : List (DrmFile × EvdiEvent)}
    (others : (file, .updateReady) ∉ sent) :
    EvdiEvent.updateReady ∉ (sent.filter fun e => e.1 = file).map Prod.snd := by
  intro h
  obtain ⟨⟨file', event⟩, mem, rfl⟩ := List.mem_map.mp h
  obtain ⟨here, same⟩ := List.mem_filter.mp mem
  obtain rfl : file' = file := of_decide_eq_true same
  exact others here

/-- A call of `evdi_get` begins where none is under way. -/
theorem idle_of_get {wait wait' : WaitState} {immediately : Bool}
    (h : waitStep wait (.get immediately) = some wait') : wait.phase = .idle := by
  simp only [waitStep] at h
  split at h
  · assumption
  · cases h

/-- Only the start of a call makes a request, and calls that are complete stay so. -/
theorem frame_of_isProgram {wait wait' : WaitState} {input : WaitInput}
    (own : isProgram input = true) (h : waitStep wait input = some wait') :
    wait'.owed = wait.owed ∧ wait.calls.length ≤ wait'.calls.length := by
  cases input with
  | get immediately => cases own
  | arrive request => cases own
  | otherEvent => cases own
  | check =>
      simp only [waitStep] at h
      split at h
      · split_ifs at h <;> cases h <;> exact ⟨rfl, le_rfl⟩
      · cases h
  | poll result =>
      simp only [waitStep] at h
      split at h
      · split_ifs at h
        · cases h; exact ⟨rfl, le_rfl⟩
        · cases result <;> cases h
          · exact ⟨rfl, le_rfl⟩
          · exact ⟨rfl, le_rfl⟩
          · rw [handleEvents_eq]
            exact ⟨rfl, le_rfl⟩
      · cases h
  | resume =>
      simp only [waitStep] at h
      split at h
      · split_ifs at h <;> cases h <;> exact ⟨rfl, le_rfl⟩
      · cases h
  | grab grab =>
      simp only [waitStep] at h
      split at h <;> cases h
      refine ⟨rfl, ?_⟩
      rw [List.length_append]
      exact Nat.le_add_right _ _
  | interrupt => cases h; exact ⟨rfl, le_rfl⟩

/-- Events of other kinds only make the queue longer. -/
theorem foldl_otherEvents (wait : WaitState) {sent : List EvdiEvent}
    (others : EvdiEvent.updateReady ∉ sent) :
    sent.foldl queueEvent wait =
      { wait with queue := wait.queue ++ sent.map fun _ => .other } := by
  induction sent generalizing wait with
  | nil => simp
  | cons event sent ih =>
      have other :
          queueEvent wait event = { wait with queue := wait.queue ++ [.other] } := by
        cases event with
        | updateReady => exact absurd List.mem_cons_self others
        | _ => rfl
      rw [List.foldl_cons, ih _ fun h => others (List.mem_cons_of_mem _ h), other]
      simp

/-- Events of other kinds only make the queue longer. -/
theorem run_otherEvents (wait : WaitState) (sent : List EvdiEvent) :
    run waitStep wait (sent.map fun _ => .otherEvent) =
      some { wait with queue := wait.queue ++ sent.map fun _ => .other } := by
  induction sent generalizing wait with
  | nil => simp
  | cons event sent ih =>
      rw [List.map_cons, run_cons]
      refine (ih { wait with queue := wait.queue ++ [.other] }).trans ?_
      simp

/-- The program does not notice that events are queued. -/
theorem foldl_queueEvent (sent : List EvdiEvent) (wait : WaitState) :
    (sent.foldl queueEvent wait).phase = wait.phase ∧
      (sent.foldl queueEvent wait).doomed = wait.doomed ∧
      (sent.foldl queueEvent wait).calls = wait.calls := by
  induction sent generalizing wait with
  | nil => exact ⟨rfl, rfl, rfl⟩
  | cons event sent ih =>
      obtain ⟨phase, doomed, calls⟩ := ih (queueEvent wait event)
      cases event <;> exact ⟨phase, doomed, calls⟩

/-- The event that is owed. -/
theorem arrive_of_owed {wait : WaitState} {request : ℕ} (owed : wait.owed = [request]) :
    waitStep wait (.arrive request) = some (queueEvent wait .updateReady) := by
  simp [waitStep, queueEvent, owed]

/-- The ioctl: pixels can be grabbed at once, or the driver owes an event. -/
theorem requestUpdate_cases {evdi : EvdiDevice}
    (settled : evdi.painter.wasUpdateRequested = false) :
    evdi.painter.dirtyRects ≠ [] ∧ evdi.requestUpdate = (evdi, 1) ∨
      evdi.painter.dirtyRects = [] ∧
        evdi.requestUpdate = ({ evdi with painter.wasUpdateRequested := true }, 0) := by
  rw [EvdiDevice.requestUpdate, settled, if_neg Bool.false_ne_true]
  cases dirts : evdi.painter.dirtyRects with
  | nil => exact Or.inr ⟨rfl, rfl⟩
  | cons r rects => exact Or.inl ⟨List.cons_ne_nil _ _, rfl⟩

/-- Between calls nothing is owed. -/
theorem Session.Agrees.settled (agrees : s.Agrees file e) (idle : s.wait.phase = .idle) :
    s.wait.owed = [] ∧ s.driver.device.painter.wasUpdateRequested = false := by
  have rest : s.wait.AtRest e := by
    simpa only [WaitState.Stage, idle] using agrees.inv.stage
  have owed := (List.append_eq_nil_iff.mp rest.settled).1
  refine ⟨owed, Bool.eq_false_iff.mpr fun requested => ?_⟩
  have := agrees.owed
  rw [owed, if_pos requested] at this
  cases this

/-- The request, on both sides of the ioctl. -/
theorem Session.Agrees.get (agrees : s.Agrees file e)
    (step : sessionStep file s .get = some t) :
    t.Agrees file e ∧ ∃ inputs, run waitStep s.wait inputs = some t.wait := by
  simp only [sessionStep, Option.map_eq_some_iff] at step
  obtain ⟨wait, get, rfl⟩ := step
  have same :
      run waitStep s.wait [.get (s.driver.device.requestUpdate.2 = 1)] = some wait := by
    rw [run_cons, get]
    rfl
  have idle := idle_of_get get
  have inv := agrees.inv.get get
  obtain ⟨owed, settled⟩ := agrees.settled idle
  simp only [waitStep, idle] at get
  refine ⟨⟨?_, ?_, inv⟩, _, same⟩
  · rcases requestUpdate_cases settled with ⟨-, request⟩ | ⟨-, request⟩ <;>
      rw [request] <;> exact agrees.connected
  · rcases requestUpdate_cases settled with ⟨-, request⟩ | ⟨-, request⟩
    · rw [request] at get ⊢
      cases get
      simp [owed, settled]
    · rw [request] at get ⊢
      cases get
      simp [owed]

/-- **One step** of either is allowed by the protocol. -/
theorem Session.Agrees.step {input : SessionInput} (agrees : s.Agrees file e)
    (step : sessionStep file s input = some t) :
    t.Agrees file e ∧ ∃ inputs, run waitStep s.wait inputs = some t.wait := by
  have inv : ∀ {inputs wait}, run waitStep s.wait inputs = some wait → wait.Inv e :=
    fun h => invariant_of_run (fun inv h => inv.step h) agrees.inv h
  have owed := agrees.owed
  cases input with
  | get => exact agrees.get step
  | program input =>
      simp only [sessionStep] at step
      split_ifs at step with own
      obtain ⟨wait, stepped, rfl⟩ := Option.map_eq_some_iff.mp step
      have same : run waitStep s.wait [input] = some wait := by rw [run_cons, stepped]; rfl
      have kept := (frame_of_isProgram own stepped).1
      exact ⟨⟨agrees.connected, by rw [kept, owed], inv same⟩, _, same⟩
  | driver input =>
      simp only [sessionStep] at step
      split_ifs at step with others
      obtain ⟨driver, stepped, rfl⟩ := Option.map_eq_some_iff.mp step
      obtain ⟨connected, sent, events, kind⟩ :=
        answers_of_step agrees.connected others stepped
      rw [eventsSince_eq events]
      rcases kind with ⟨requested, silent⟩ | ⟨requested, answered, rfl⟩
      · rw [foldl_otherEvents _ (updateReady_notMem silent)]
        have same := run_otherEvents s.wait ((sent.filter fun e => e.1 = file).map Prod.snd)
        exact ⟨⟨connected, by rw [requested]; exact owed, inv same⟩, _, same⟩
      · rw [requested, if_pos rfl] at owed
        obtain ⟨request, debt⟩ := List.length_eq_one_iff.mp owed
        have same : run waitStep s.wait [.arrive request] =
            some (queueEvent s.wait .updateReady) := by
              rw [run_cons, arrive_of_owed debt]; rfl
        have told :
            (([(file, EvdiEvent.updateReady)].filter fun e => e.1 = file).map Prod.snd) =
            [.updateReady] := by simp
        rw [told]
        refine ⟨⟨connected, ?_, inv same⟩, _, same⟩
        simp [queueEvent, debt, answered]

end Protocol

/-! ## Runs -/

section Runs

variable {file : DrmFile} {e : Buffers} {bufferToUpdate : FbId} {driver : DriverState}
  {inputs : List SessionInput} {s : Session}

/-- **All of a run.** -/
theorem Session.Agrees.run {t : Session} (agrees : s.Agrees file e)
    (h : PartialStep.run (sessionStep file) s inputs = some t) :
    t.Agrees file e ∧ ∃ inputs, PartialStep.run waitStep s.wait inputs = some t.wait := by
  induction inputs generalizing s with
  | nil => cases h; exact ⟨agrees, [], rfl⟩
  | cons input inputs ih =>
      rw [run_cons, Option.bind_eq_some_iff] at h
      obtain ⟨s', step, rest⟩ := h
      obtain ⟨agrees', first, hfirst⟩ := agrees.step step
      obtain ⟨agrees'', others, hothers⟩ := ih agrees' rest
      exact ⟨agrees'', first ++ others, by rw [run_append, hfirst]; exact hothers⟩

/-- At first nothing was requested. -/
theorem Session.Agrees.start (e : Buffers) (bufferToUpdate : FbId)
    (connected : driver.device.painter.drmFilp = some file)
    (unrequested : driver.device.painter.wasUpdateRequested = false) :
    (Session.start e bufferToUpdate driver).Agrees file e where
  connected := connected
  owed := by
    show 0 = if driver.device.painter.wasUpdateRequested = true then 1 else 0
    rw [unrequested]
    rfl
  inv := WaitState.inv_start e bufferToUpdate

end Runs

/-! ## Every call ends -/

/-- A call of `evdi_get` is under way, and nothing has gone wrong in it. -/
def UnderWay (wait : WaitState) : Prop :=
  (wait.phase = .check ∨ wait.phase = .poll ∨ wait.phase = .waited 0 ∨ wait.phase = .grab) ∧
    wait.doomed = false

/-- There is no SIGINT, and when events are queued `epoll_wait` says so, and a `read`
returns some of them. -/
def Session.Prompt (s : Session) : SessionInput → Prop
  | .program (.poll result) =>
      s.wait.queue ≠ [] → ∃ events, result = .readable events ∧ 0 < events
  | .program .interrupt => False
  | _ => True

/-- How many steps are the program's. -/
def programSteps (inputs : List SessionInput) : ℕ :=
  inputs.countP fun
    | .program _ => true
    | _ => false

def isReady : DrmEvent → Bool
  | .updateReady _ => true
  | .other => false

/-- How many steps of the program a call takes at most, once its event is queued.  For
each event before it there may be a turn of the loop. -/
def stepsLeft (wait : WaitState) : ℕ :=
  let behind := wait.queue.findIdx isReady
  match wait.phase with
  | .grab => 1
  | .check => if wait.readyFbid = wait.fbid.val then 2 else 3 * behind + 5
  | .poll => 3 * behind + 4
  | .waited _ => if wait.readyFbid = wait.fbid.val then 3 else 3 * behind + 6
  | _ => 0

section Ends

variable {wait wait' : WaitState} {driver : DriverState}

/-- An update that is queued is one of the events. -/
theorem exists_isReady (queued : readies wait.queue ≠ []) :
    ∃ event ∈ wait.queue, isReady event = true := by
  obtain ⟨request, mem⟩ := List.exists_mem_of_ne_nil _ queued
  obtain ⟨event, queued, ready⟩ := List.mem_filterMap.mp mem
  refine ⟨event, queued, ?_⟩
  cases event with
  | updateReady => rfl
  | other => cases ready

/-- Events that are queued later do not come before it. -/
theorem findIdx_append_of_ready (queued : readies wait.queue ≠ []) (later : List DrmEvent) :
    (wait.queue ++ later).findIdx isReady = wait.queue.findIdx isReady := by
  rw [List.findIdx_append, if_pos (List.findIdx_lt_length.mpr (exists_isReady queued))]

/-- A `read` that does not return it brings it nearer. -/
theorem findIdx_drop_of_ready (queued : readies wait.queue ≠ []) {events : ℕ}
    (some : 0 < events) (unread : readies (wait.queue.take events) = []) :
    (wait.queue.drop events).findIdx isReady + 1 ≤ wait.queue.findIdx isReady := by
  have before : ∀ event ∈ wait.queue.take events, isReady event = false := by
    intro event mem
    cases event with
    | other => rfl
    | updateReady request =>
        have : request ∈ readies (wait.queue.take events) :=
          List.mem_filterMap.mpr ⟨_, mem, rfl⟩
        rw [unread] at this
        cases this
  have length : 0 < (wait.queue.take events).length := by
    rw [List.length_take]
    have : wait.queue ≠ [] := fun none => queued (by rw [none]; rfl)
    have := List.length_pos_iff.mpr this
    omega
  have split := congrArg (List.findIdx isReady) (List.take_append_drop events wait.queue)
  rw [List.findIdx_append, if_neg] at split
  · omega
  · rw [not_lt, List.findIdx_eq_length.mpr before]

/-- While a call waits and nothing is owed, its event is in the queue. -/
theorem queued_of_waiting (waiting : wait.Waiting) (settled : wait.owed = []) :
    readies wait.queue ≠ [] := by
  have event := waiting.event
  rw [settled, List.nil_append] at event
  rw [event]
  exact List.cons_ne_nil _ _

/-- The flag of a call that waits is not set. -/
theorem unset_of_waiting (waiting : wait.Waiting) : wait.readyFbid ≠ wait.fbid.val := by
  rw [waiting.flag]
  omega

variable {e : Buffers}

/-- Whatever is queued later. -/
theorem stepsLeft_append (inv : wait.Inv e) (settled : wait.owed = [])
    (underWay : UnderWay wait) (later : List DrmEvent) :
    stepsLeft { wait with queue := wait.queue ++ later } = stepsLeft wait := by
  have stage := inv.stage
  have same : ∀ waiting : wait.Waiting,
      (wait.queue ++ later).findIdx isReady = wait.queue.findIdx isReady :=
    fun waiting => findIdx_append_of_ready (queued_of_waiting waiting settled) later
  rw [WaitState.Stage] at stage
  simp only [stepsLeft]
  rcases underWay.1 with phase | phase | phase | phase <;> simp only [phase] at stage ⊢
  · rcases stage.2 with waiting | ready
    · rw [same waiting]
    · rw [if_pos ready.flag, if_pos ready.flag]
  · rw [same stage.2]
  · rcases stage.2 with waiting | ready
    · rw [same waiting]
    · rw [if_pos ready.flag, if_pos ready.flag]

/-- **A step of the program** takes the call nearer to its end, or ends it. -/
theorem program_of_underWay {input : WaitInput} (inv : wait.Inv e)
    (settled : wait.owed = []) (underWay : UnderWay wait)
    (prompt : Session.Prompt ⟨wait, driver⟩ (.program input))
    (own : isProgram input = true) (h : waitStep wait input = some wait') :
    (UnderWay wait' ∧ wait'.calls = wait.calls ∧ stepsLeft wait' + 1 ≤ stepsLeft wait) ∨
      wait'.calls.length = wait.calls.length + 1 := by
  have stage := inv.stage
  have calm := underWay.2
  rw [WaitState.Stage] at stage
  cases input with
  | get immediately => cases own
  | arrive request => cases own
  | otherEvent => cases own
  | interrupt => exact prompt.elim
  | check =>
      simp only [waitStep] at h
      split at h
      · next phase =>
          simp only [phase] at stage
          split_ifs at h with unset
          · cases h
            refine Or.inl ⟨⟨Or.inr (Or.inl rfl), calm⟩, rfl, ?_⟩
            simp [stepsLeft, phase, unset]
          · cases h
            refine Or.inl ⟨⟨Or.inr (Or.inr (Or.inr rfl)), calm⟩, rfl, ?_⟩
            simp [stepsLeft, phase, not_not.mp unset]
      · cases h
  | poll result =>
      simp only [waitStep] at h
      split at h
      · next phase =>
          simp only [phase] at stage
          obtain ⟨inCall, waiting⟩ := stage
          have queued := queued_of_waiting waiting settled
          obtain ⟨events, rfl, some⟩ := prompt fun none => queued (by
            rw [show wait.queue = [] from none]
            rfl)
          rw [if_neg (Bool.eq_false_iff.mp calm)] at h
          cases h
          refine Or.inl ⟨⟨Or.inr (Or.inr (Or.inl rfl)), ?_⟩, ?_, ?_⟩
          · rw [handleEvents_eq]
            exact calm
          · rw [handleEvents_eq]
          · rw [handleEvents_eq]
            by_cases unread : readies (wait.queue.take events) = []
            · have := findIdx_drop_of_ready queued some unread
              simp only [stepsLeft, phase, unread, if_true,
                if_neg (unset_of_waiting waiting)]
              omega
            · simp [stepsLeft, phase, unread, inCall.requested]
      · cases h
  | resume =>
      simp only [waitStep] at h
      split at h
      · next err phase =>
          obtain rfl : err = 0 := by
            have := underWay.1
            simpa [phase] using this
          rw [if_neg (Bool.eq_false_iff.mp calm), if_neg (not_not.mpr rfl)] at h
          cases h
          refine Or.inl ⟨⟨Or.inl rfl, calm⟩, rfl, ?_⟩
          by_cases set : wait.readyFbid = wait.fbid.val
          · simp [stepsLeft, phase, set]
          · simp [stepsLeft, phase, set]
      · cases h
  | grab grab =>
      simp only [waitStep] at h
      split at h
      · cases h
        exact Or.inr List.length_append
      · cases h

end Ends

section Runs

variable {file : DrmFile} {e : Buffers} {bufferToUpdate : FbId} {driver : DriverState}
  {inputs : List SessionInput} {s t : Session}

/-- A call is under way whose update was ready. -/
structure Session.Told (file : DrmFile) (e : Buffers) (s : Session) : Prop where
  agrees : s.Agrees file e
  unrequested : s.driver.device.painter.wasUpdateRequested = false
  underWay : UnderWay s.wait

/-- What was owed has been sent. -/
theorem Session.Told.settled (told : s.Told file e) : s.wait.owed = [] := by
  have owed := told.agrees.owed
  rw [told.unrequested] at owed
  exact List.length_eq_zero_iff.mp owed

/-- No step takes a call back. -/
theorem calls_le_of_sessionStep {input : SessionInput}
    (h : sessionStep file s input = some t) :
    s.wait.calls.length ≤ t.wait.calls.length := by
  cases input with
  | get =>
      simp only [sessionStep, Option.map_eq_some_iff] at h
      obtain ⟨wait, get, rfl⟩ := h
      simp only [waitStep] at get
      split at get <;> cases get
      exact le_rfl
  | program input =>
      simp only [sessionStep] at h
      split_ifs at h with own
      obtain ⟨wait, step, rfl⟩ := Option.map_eq_some_iff.mp h
      exact (frame_of_isProgram own step).2
  | driver input =>
      simp only [sessionStep] at h
      split_ifs at h
      obtain ⟨driver, -, rfl⟩ := Option.map_eq_some_iff.mp h
      exact (congrArg List.length (foldl_queueEvent _ s.wait).2.2).ge

/-- **One step** of whoever it is: it takes the call no further from its end, and if it
is the program's nearer to it. -/
theorem Session.Told.step {input : SessionInput} (told : s.Told file e)
    (prompt : s.Prompt input) (step : sessionStep file s input = some t) :
    (t.Told file e ∧ t.wait.calls.length = s.wait.calls.length ∧
        stepsLeft t.wait + programSteps [input] ≤ stepsLeft s.wait) ∨
      s.wait.calls.length < t.wait.calls.length := by
  obtain ⟨agrees, -⟩ := told.agrees.step step
  cases input with
  | get =>
      simp only [sessionStep, Option.map_eq_some_iff] at step
      obtain ⟨wait, get, -⟩ := step
      have := told.underWay.1
      simp [idle_of_get get] at this
  | program input =>
      simp only [sessionStep] at step
      split_ifs at step with own
      obtain ⟨wait, stepped, rfl⟩ := Option.map_eq_some_iff.mp step
      rcases program_of_underWay told.agrees.inv told.settled told.underWay prompt
        own stepped with
        ⟨underWay, calls, fewer⟩ | ended
      · exact Or.inl
          ⟨⟨agrees, told.unrequested, underWay⟩, congrArg List.length calls, fewer⟩
      · exact Or.inr (ended.symm ▸ Nat.lt_succ_self _)
  | driver input =>
      simp only [sessionStep] at step
      split_ifs at step with others
      obtain ⟨driver, stepped, rfl⟩ := Option.map_eq_some_iff.mp step
      obtain ⟨-, sent, events, ⟨requested, silent⟩ | ⟨requested, -⟩⟩ :=
        answers_of_step told.agrees.connected others stepped
      · refine Or.inl ⟨⟨agrees, requested.trans told.unrequested, ?_⟩, ?_, ?_⟩
        · obtain ⟨phase, doomed, -⟩ :=
            foldl_queueEvent (eventsSince file s.driver driver) s.wait
          simpa only [UnderWay, phase, doomed] using told.underWay
        · exact congrArg List.length (foldl_queueEvent _ s.wait).2.2
        · rw [eventsSince_eq events, foldl_otherEvents _ (updateReady_notMem silent)]
          exact (stepsLeft_append told.agrees.inv told.settled told.underWay _).le
      · rw [told.unrequested] at requested
        cases requested

/-- A whole run of them. -/
theorem Session.Told.run (told : s.Told file e)
    (prompt : EachStep (sessionStep file) (fun _ s input _ => s.Prompt input) s inputs)
    (h : PartialStep.run (sessionStep file) s inputs = some t) :
    (t.Told file e ∧ t.wait.calls.length = s.wait.calls.length ∧
        stepsLeft t.wait + programSteps inputs ≤ stepsLeft s.wait) ∨
      s.wait.calls.length < t.wait.calls.length := by
  induction inputs generalizing s with
  | nil => cases h; exact Or.inl ⟨told, rfl, le_rfl⟩
  | cons input inputs ih =>
      rw [run_cons, Option.bind_eq_some_iff] at h
      obtain ⟨s', step, rest⟩ := h
      obtain ⟨first, others⟩ := eachStep_cons.mp prompt s' step
      rcases told.step first step with ⟨told', calls, fewer⟩ | ended
      · refine (ih told' others rest).imp ?_ fun ended => calls ▸ ended
        rintro ⟨told'', calls', fewer'⟩
        refine ⟨told'', calls'.trans calls, ?_⟩
        have steps : programSteps ([input] ++ inputs) =
            programSteps [input] + programSteps inputs := List.countP_append
        rw [List.singleton_append] at steps
        omega
      · have kept := invariant_of_run (P := fun u : Session =>
            s'.wait.calls.length ≤ u.wait.calls.length)
          (fun le step => le.trans (calls_le_of_sessionStep step)) le_rfl rest
        exact Or.inr (ended.trans_le kept)

end Runs

end Kernelflut.LibEvdi
