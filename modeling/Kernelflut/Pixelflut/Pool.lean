import Kernelflut.Pixelflut.SetBuf

/-!
# Opening, using and closing the pool

`pf_connect` allocates the descriptor table, resolves the host and fills the
table slot by slot; `pf_connect1` tries the resolved addresses in turn until one
of them accepts.  When a slot finds none, `pf_connect` gives up through
`pf_close`, which closes whatever the table holds, taking the value 0 for a slot
that was never filled.

What the operating system answers is an input: an `Attempt` for every address of
every slot.  The calls it is asked for are recorded as `Syscall`s, for the
module that follows the sockets.  Allocation is taken to succeed.
-/

namespace Kernelflut.Pixelflut

universe u v

variable {A : Type u} {B : Type v}

/-- What becomes of `socket()` and `connect()` for one address. -/
inductive Attempt where
  | socketFails
  | connectFails (fd : ℕ)
  | connects (fd : ℕ)
  deriving DecidableEq, Repr

/-- The calls `pf_connect1` and `pf_close` make: `socket` returns -1 (`none`) or
a descriptor, `connect` succeeds or not. -/
inductive Syscall (A : Type u) where
  | socket (fd : Option ℕ)
  | connect (fd : ℕ) (address : A) (ok : Bool)
  | close (fd : ℕ)
  deriving DecidableEq, Repr

/-- `pf_connect1(server)`, over the addresses and what happens at each of them.
Returns a descriptor, or `-ERR_PF_CONNECT`. -/
def pfConnect1 : List (A × Attempt) → List (Syscall A) × ℤ
  | [] => ([], -errPfConnect)
  | (_, .socketFails) :: rest =>
      let (calls, fp) := pfConnect1 rest
      (.socket none :: calls, fp)
  | (address, .connectFails fd) :: rest =>
      let (calls, fp) := pfConnect1 rest
      (.socket (some fd) :: .connect fd address false :: .close fd :: calls, fp)
  | (address, .connects fd) :: _ =>
      ([.socket (some fd), .connect fd address true], fd)

/-- What the loop of `pf_connect` leaves: the calls made, the table, and the
negative result of `pf_connect1` that ended it (0 if none did). -/
structure Fill (A : Type u) where
  calls : List (Syscall A)
  conns : List ℕ
  fp : ℤ

/-- The loop of `pf_connect`, from slot `i` on, with `todo` slots to go. -/
def fillSlots (slots : ℕ → List (A × Attempt)) : (todo i : ℕ) → List ℕ → Fill A
  | 0, _, conns => ⟨[], conns, 0⟩
  | todo + 1, i, conns =>
      let (calls, fp) := pfConnect1 (slots i)
      if fp < 0 then ⟨calls, conns, fp⟩
      else
        let rest := fillSlots slots todo (i + 1) (conns.set i fp.toNat)
        ⟨calls ++ rest.calls, rest.conns, rest.fp⟩

/-- `pf_close()`: the statics afterwards and the calls made. -/
def pfClose (c : Client B) : Client B × List (Syscall A) :=
  let table := c.conns.getD []
  -- `if (conns[i])` is the only test for a slot in use.
  ({ c with numConns := 0, conns := none },
   ((table.take c.numConns).filter (· ≠ 0)).map .close)

/-- What a call of `pf_connect` leaves behind. -/
structure Connected (A : Type u) (B : Type v) where
  client : Client B
  calls : List (Syscall A)
  ret : ℕ

/-- `pf_connect(pool_size, host, port)`.  `resolved` is the outcome of
`getaddrinfo`: an error, or the attempts that will be made for every slot. -/
def pfConnect (c : Client B) (poolSize : ℕ)
    (resolved : Option (ℕ → List (A × Attempt))) : Connected A B :=
  let table := List.replicate poolSize 0
  let c := { c with numConns := poolSize, conns := some table }
  match resolved with
  | none =>
      -- This exit does not go through `pf_close`.
      { client := c, calls := [], ret := errPfGethost }
  | some slots =>
      let fill := fillSlots slots poolSize 0 table
      let c := { c with conns := some fill.conns }
      if fill.fp < 0 then
        let (c, closes) := pfClose c
        { client := c, calls := fill.calls ++ closes, ret := (-fill.fp).toNat }
      else { client := c, calls := fill.calls, ret := 0 }

/-- How the exchange of `pf_size` with the server goes. -/
inductive SizeReply where
  | writeFails
  | readFails
  | malformed
  | size (w h : ℤ)
  deriving DecidableEq, Repr

/-- `pf_size(ret)`: the access, the return code and what is stored in `ret`. -/
def pfSize (c : Client B) (reply : SizeReply) :
    Client B × Access × ℕ × Option (ℤ × ℤ) :=
  let (access, c) := c.nextConn
  match reply with
  | .writeFails => (c, access, errPfSend, none)
  | .readFails | .malformed => (c, access, errPfRecv, none)
  | .size w h => (c, access, 0, some (w, h))

/-- `pf_size` takes the next connection, whatever becomes of the exchange. -/
theorem pfSize_nextConn (c : Client B) (reply : SizeReply) :
    (pfSize c reply).1 = c.nextConn.2 ∧ (pfSize c reply).2.1 = c.nextConn.1 := by
  cases reply <;> exact ⟨rfl, rfl⟩

/-! ## The statics after `pf_connect` and `pf_close` -/

theorem length_conns_fillSlots (slots : ℕ → List (A × Attempt)) (todo i : ℕ)
    (conns : List ℕ) : (fillSlots slots todo i conns).conns.length = conns.length := by
  induction todo generalizing i conns with
  | zero => rfl
  | succ todo ih =>
      simp only [fillSlots]
      split
      · rfl
      · rw [ih, List.length_set]

/-- A slot ends with a descriptor or with `-ERR_PF_CONNECT`. -/
theorem pfConnect1_result (attempts : List (A × Attempt)) :
    0 ≤ (pfConnect1 attempts).2 ∨ (pfConnect1 attempts).2 = -errPfConnect := by
  induction attempts with
  | nil => exact Or.inr rfl
  | cons attempt attempts ih =>
      obtain ⟨address, outcome⟩ := attempt
      cases outcome with
      | socketFails => exact ih
      | connectFails fd => exact ih
      | connects fd => exact Or.inl (Int.natCast_nonneg fd)

theorem fillSlots_result (slots : ℕ → List (A × Attempt)) (todo i : ℕ)
    (conns : List ℕ) :
    (fillSlots slots todo i conns).fp = 0 ∨
      (fillSlots slots todo i conns).fp = -errPfConnect := by
  induction todo generalizing i conns with
  | zero => exact Or.inl rfl
  | succ todo ih =>
      simp only [fillSlots]
      split
      · next negative =>
          rcases pfConnect1_result (slots i) with nonneg | err
          · exact absurd negative (not_lt.mpr nonneg)
          · exact Or.inr err
      · exact ih _ _

/-- **The statics after `pf_connect`.**  The round-robin index is where it was.
A call that fails to connect has closed the pool; any other leaves a table of
`pool_size` descriptors, unused ones (0) if the name could not be resolved. -/
theorem pfConnect_client (c : Client B) (poolSize : ℕ)
    (resolved : Option (ℕ → List (A × Attempt))) :
    let r := pfConnect c poolSize resolved
    r.client.activeConn = c.activeConn ∧
      (r.ret = errPfConnect ∧ r.client.numConns = 0 ∧ r.client.conns = none ∨
       r.ret ∈ [0, errPfGethost] ∧ r.client.numConns = poolSize ∧
        ∃ table, r.client.conns = some table ∧ table.length = poolSize) := by
  cases resolved with
  | none =>
      refine ⟨rfl, Or.inr ⟨by simp [pfConnect], rfl, _, rfl, List.length_replicate⟩⟩
  | some slots =>
      simp only [pfConnect]
      split
      · next negative =>
          refine ⟨rfl, Or.inl ⟨?_, rfl, rfl⟩⟩
          rcases fillSlots_result slots poolSize 0 (List.replicate poolSize 0) with zero | err
          · rw [zero] at negative
            exact absurd negative (lt_irrefl 0)
          · simp [err]
      · refine ⟨rfl, Or.inr ⟨by simp, rfl, _, rfl, ?_⟩⟩
        rw [length_conns_fillSlots, List.length_replicate]

/-! ## A failed `pf_connect` -/

/-- The pool as `pf_close` leaves it: it has no connections and holds no table, so
the next access finds no descriptor. -/
structure Client.Closed (c : Client B) : Prop where
  numConns : c.numConns = 0
  conns : c.conns = none
  noSlot : c.nextConn.1.fd = none

theorem closed_pfClose (c : Client B) : (pfClose (A := A) c).1.Closed := ⟨rfl, rfl, rfl⟩

theorem closed_start : (Client.start : Client B).Closed := ⟨rfl, rfl, rfl⟩

/-- **When a failed `pf_connect` undoes its work.**  A failure to connect goes through
`pf_close`, after however many slots; a failure to resolve the host does not, and
leaves a table of unused slots that later calls take for connections. -/
theorem pfConnect_closed_iff (c : Client B) (poolSize : ℕ)
    (resolved : Option (ℕ → List (A × Attempt))) :
    ((pfConnect c poolSize resolved).ret ≠ 0 → (pfConnect c poolSize resolved).client.Closed) ↔
      resolved ≠ none := by
  cases resolved with
  | none =>
      refine iff_of_false (fun claim => ?_) (fun h => h rfl)
      have closed := claim (show errPfGethost ≠ 0 by decide)
      cases closed.conns
  | some slots =>
      refine iff_of_true (fun failed => ?_) (Option.some_ne_none slots)
      simp only [pfConnect] at failed ⊢
      split at failed
      · next negative =>
          rw [if_pos negative]
          exact closed_pfClose (A := A) _
      · exact absurd rfl failed

/-- The host is not found: the pool of one connection is still there. -/
theorem pfConnect_unresolved_not_closed :
    ¬ ∀ (c : Client Unit) (poolSize : ℕ) (resolved : Option (ℕ → List (Unit × Attempt))),
      c.Closed → 1 ≤ poolSize → (pfConnect c poolSize resolved).ret ≠ 0 →
        (pfConnect c poolSize resolved).client.Closed := by
  intro claim
  have closed := claim Client.start 1 none closed_start le_rfl (by decide)
  cases closed.numConns

end Kernelflut.Pixelflut
