import Kernelflut.Foundations.Runs
import Kernelflut.Pixelflut.Contract
import Kernelflut.Pixelflut.Pool

/-!
# Accesses to the pool over several sessions

`pf_set`, `pf_size` and `pf_set_buf` read `conns[active_conn_i]` and move the
index on modulo `num_conns`.  The index is a static that neither `pf_connect`
nor `pf_close` resets, so a session starts where the last one stopped, which may
be beyond the end of a smaller pool.

`accesses_inRange` is the safety theorem for the whole life of the module: as
long as no `pf_connect` asks for a pool that is too small for the index, every
access is inside the table.  `connect_then_set_inRange_iff` shows that the
condition is needed at the very next access.
-/

namespace Kernelflut.Pixelflut

open PartialStep

universe u v

variable {A : Type u} {B : Type v}

/-- A call into the module, with what the environment contributes to it. -/
inductive PoolCall (A : Type u) (B : Type v) where
  | connect (poolSize : ℕ) (resolved : Option (ℕ → List (A × Attempt)))
  | close
  | set (x y : ℤ) (r g b : BitVec 8) (written : Bool)
  | size (reply : SizeReply)
  | setBuf (mem : B → ℤ → Word) (fb : B) (width : ℤ) (rect : EvdiRect) (bgcolor : Word)

/-- The module over its life: its statics, whether it is connected (a
`pf_connect` returned 0, and no `pf_close` came after it), and the accesses to
the pool so far. -/
structure Session (B : Type v) where
  client : Client B
  connected : Bool
  accesses : List Access

def Session.start : Session B where
  client := Client.start
  connected := false
  accesses := []

/-- One call.  Pools have at least one connection, and `pf_set`, `pf_size` and
`pf_set_buf` are called only while connected. -/
def sessionStep (s : Session B) : PoolCall A B → Option (Session B)
  | .connect poolSize resolved =>
      if poolSize = 0 then none
      else
        let r := pfConnect s.client poolSize resolved
        some { s with
          client := r.client
          connected :=
            -- A failure to connect goes through `pf_close`; one to resolve does not.
            if r.ret = 0 then true else if r.ret = errPfConnect then false
            else s.connected }
  | .close => some { s with client := (pfClose (A := A) s.client).1, connected := false }
  | .set x y r g b written =>
      if s.connected then
        let (client, access, _) := pfSet s.client x y r g b written
        some { s with client, accesses := s.accesses ++ [access] }
      else none
  | .size reply =>
      if s.connected then
        let (client, access, _) := pfSize s.client reply
        some { s with client, accesses := s.accesses ++ [access] }
      else none
  | .setBuf mem fb width rect bgcolor =>
      if s.connected then
        let blit := pfSetBuf mem s.client fb width rect bgcolor
        some { s with
          client := blit.client
          accesses := s.accesses ++ blit.turns.map Turn.access }
      else none

/-- The read is inside the pool and inside the table. -/
def Access.Safe (access : Access) : Prop := access.InRange ∧ access.fd.isSome

instance (access : Access) : Decidable access.Safe :=
  inferInstanceAs (Decidable (access.InRange ∧ access.fd.isSome))

/-- The pool can be used, and `num_conns` is the length of the table. -/
structure Client.Usable (c : Client B) : Prop where
  ready : c.Ready
  table : ∃ conns, c.conns = some conns ∧ conns.length = c.numConns

namespace Client.Usable

variable {c : Client B}

/-- Any index below `num_conns` can be read. -/
theorem isSome_conns (usable : c.Usable) {i : ℕ} (h : i < c.numConns) :
    (c.conns.bind (·[i]?)).isSome := by
  obtain ⟨conns, hconns, length⟩ := usable.table
  rw [hconns, Option.bind_some, List.getElem?_eq_getElem (length.symm ▸ h)]
  rfl

theorem nextConn_safe (usable : c.Usable) : c.nextConn.1.Safe :=
  ⟨usable.ready, usable.isSome_conns usable.ready⟩

theorem nextConn (usable : c.Usable) : c.nextConn.2.Usable :=
  ⟨usable.ready.nextConn, usable.table⟩

theorem pfSetBuf (usable : c.Usable) (mem : B → ℤ → Word) (fb : B) (width : ℤ)
    (rect : EvdiRect) (bgcolor : Word) :
    (pfSetBuf mem c fb width rect bgcolor).client.Usable := by
  obtain ⟨conns, size, -⟩ := pfSetBuf_counters mem fb width rect bgcolor usable.ready
  exact ⟨pfSetBuf_ready mem fb width rect bgcolor usable.ready,
    by rw [conns, size]; exact usable.table⟩

theorem turns_safe (usable : c.Usable) {mem : B → ℤ → Word} {fb : B} {width : ℤ}
    {rect : EvdiRect} {bgcolor : Word} {turn : Turn}
    (h : turn ∈ (Pixelflut.pfSetBuf mem c fb width rect bgcolor).turns) :
    turn.access.Safe := by
  rw [pfSetBuf_turns, blitPixels_turns usable.ready] at h
  obtain ⟨k, -, rfl⟩ := List.mem_mapIdx.mp h
  have inRange : (c.activeConn + k) % c.numConns < c.numConns :=
    Nat.mod_lt _ usable.ready.numConns_pos
  exact ⟨inRange, usable.isSome_conns inRange⟩

end Client.Usable

/-! ## Runs -/

/-- **The condition**: a new pool is larger than the index it starts with. -/
def FitsIndex (s : Session B) : PoolCall A B → Prop
  | .connect poolSize _ => s.client.activeConn < poolSize
  | _ => True

instance (s : Session B) : (call : PoolCall A B) → Decidable (FitsIndex s call)
  | .connect poolSize _ => inferInstanceAs (Decidable (s.client.activeConn < poolSize))
  | .close | .set .. | .size .. | .setBuf .. => instDecidableTrue

/-- Every access so far was safe, and while connected the next one will be. -/
structure Session.Sound (s : Session B) : Prop where
  safe : ∀ access ∈ s.accesses, access.Safe
  usable : s.connected = true → s.client.Usable

theorem sound_start : (Session.start : Session B).Sound where
  safe := by simp [Session.start]
  usable := by simp [Session.start]

/-- After `pf_connect` the pool can be used unless it was closed. -/
theorem usable_pfConnect {c : Client B} {poolSize : ℕ}
    {resolved : Option (ℕ → List (A × Attempt))} (fits : c.activeConn < poolSize)
    (notClosed : (pfConnect c poolSize resolved).ret ≠ errPfConnect) :
    (pfConnect c poolSize resolved).client.Usable := by
  obtain ⟨index, ⟨failed, -⟩ | ⟨-, size, table, conns, length⟩⟩ :=
    pfConnect_client c poolSize resolved
  · exact absurd failed notClosed
  · exact ⟨by rw [Client.Ready, index, size]; exact fits,
      table, conns, length.trans size.symm⟩

/-- Taking the next connection of a usable pool. -/
theorem Session.Sound.takes {s : Session B} (inv : s.Sound) (usable : s.client.Usable) :
    ({ s with
        client := s.client.nextConn.2
        accesses := s.accesses ++ [s.client.nextConn.1] } : Session B).Sound where
  safe := fun access h => (List.mem_append.mp h).elim (inv.safe access)
    fun new => List.mem_singleton.mp new ▸ usable.nextConn_safe
  usable := fun _ => usable.nextConn

/-- **One call** keeps the session sound, if a new pool fits the index. -/
theorem Session.Sound.step {s s' : Session B} {call : PoolCall A B} (inv : s.Sound)
    (fits : FitsIndex s call) (h : sessionStep s call = some s') : s'.Sound := by
  cases call with
  | connect poolSize resolved =>
      simp only [sessionStep] at h
      split at h
      · cases h
      · cases h
        refine ⟨inv.safe, fun connected => usable_pfConnect fits fun failed => ?_⟩
        simp [failed, errPfConnect] at connected
  | close =>
      cases h
      exact ⟨inv.safe, by simp⟩
  | set x y r g b written =>
      simp only [sessionStep] at h
      split at h
      · next connected =>
          cases h
          exact inv.takes (inv.usable connected)
      · cases h
  | size reply =>
      simp only [sessionStep] at h
      split at h
      · next connected =>
          obtain ⟨client, access⟩ := pfSize_nextConn s.client reply
          rw [client, access] at h
          cases h
          exact inv.takes (inv.usable connected)
      · cases h
  | setBuf mem fb width rect bgcolor =>
      simp only [sessionStep] at h
      split at h
      · next connected =>
          cases h
          have usable := inv.usable connected
          refine ⟨fun access hmem => (List.mem_append.mp hmem).elim (inv.safe access)
            fun new => ?_, fun _ => usable.pfSetBuf mem fb width rect bgcolor⟩
          obtain ⟨turn, hturn, rfl⟩ := List.mem_map.mp new
          exact usable.turns_safe hturn
      · cases h

/-- **Accesses over the life of the module.**  In every run in which each
`pf_connect` asks for more connections than the index says, all accesses to the
pool are inside it. -/
theorem accesses_inRange (calls : List (PoolCall A B))
    (fits : EachStep sessionStep (fun _ s call _ => FitsIndex s call) Session.start
      calls) :
    EachStep sessionStep (fun _ _ _ s' => ∀ access ∈ s'.accesses, access.Safe)
      Session.start calls := by
  intro before call after s s' split hrun hstep
  have inv : s.Sound := inv_of_eachStep (fun _ s => s.Sound) sound_start
    (fun _ inv hstep fits => inv.step fits hstep) fits split hrun
  exact (inv.step (fits before call after s s' split hrun hstep) hstep).safe

/-- The condition is needed: the access of a `pf_set` right after a successful
`pf_connect` is inside the pool exactly when the pool is larger than the index. -/
theorem connect_then_set_inRange_iff {c : Client B} {poolSize : ℕ}
    {resolved : Option (ℕ → List (A × Attempt))} (x y : ℤ) (r g b : BitVec 8)
    (written : Bool) (success : (pfConnect c poolSize resolved).ret = 0) :
    (pfSet (pfConnect c poolSize resolved).client x y r g b written).2.1.InRange ↔
      c.activeConn < poolSize := by
  show (pfConnect c poolSize resolved).client.Ready ↔ _
  obtain ⟨index, ⟨failed, -⟩ | ⟨-, size, -⟩⟩ := pfConnect_client c poolSize resolved
  · rw [success] at failed
    cases failed
  · rw [Client.Ready, index, size]

/-- One address that accepts every slot, with descriptors from 3 on. -/
def acceptsAll : Option (ℕ → List (Unit × Attempt)) :=
  some fun i => [((), .connects (3 + i))]

/-- Two sessions, the second with the larger pool. -/
theorem accesses_inRange_growing_pool :
    EachStep sessionStep (fun _ _ _ s' => ∀ access ∈ s'.accesses, access.Safe)
      (Session.start : Session Unit)
      [.connect 1 acceptsAll, .set 0 0 0 0 0 true, .close, .connect 2 acceptsAll,
        .set 0 0 0 0 0 true] := by
  refine accesses_inRange _ (eachStep_cons.mpr fun s h => ?_)
  cases h
  refine ⟨by decide, eachStep_cons.mpr fun s h => ?_⟩
  cases h
  refine ⟨trivial, eachStep_cons.mpr fun s h => ?_⟩
  cases h
  refine ⟨trivial, eachStep_cons.mpr fun s h => ?_⟩
  cases h
  refine ⟨by decide, eachStep_cons.mpr fun s h => ?_⟩
  exact ⟨trivial, eachStep_nil s⟩

/-- Eight connections, seven pixels, and a new session with two connections: the
eighth pixel is sent to `conns[7]`. -/
def shrinkingPool : List (PoolCall Unit Unit) :=
  .connect 8 acceptsAll :: List.replicate 7 (.set 0 0 0 0 0 true) ++
    [.close, .connect 2 acceptsAll, .set 0 0 0 0 0 true]

theorem access_outOfRange_shrinkingPool :
    ¬ ∀ calls : List (PoolCall Unit Unit),
      EachStep sessionStep (fun _ _ _ s' => ∀ access ∈ s'.accesses, access.Safe)
        Session.start calls := by
  intro claim
  have last : (run sessionStep (Session.start : Session Unit) shrinkingPool).map
      (fun s => s.accesses.getLast?) = some (some ⟨7, 2, none⟩) := by decide
  obtain ⟨s, hrun, hlast⟩ := Option.map_eq_some_iff.mp last
  obtain ⟨-, -, -, safe⟩ := EachStep.last shrinkingPool.dropLast
    (claim shrinkingPool) hrun
  exact absurd (safe _ (List.mem_of_getLast? hlast)) (by decide)

end Kernelflut.Pixelflut
