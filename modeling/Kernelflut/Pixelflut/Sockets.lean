import Kernelflut.Foundations.Handles
import Kernelflut.Pixelflut.Pool

/-!
# Who owns the sockets

The sockets the module has opened and not yet closed are a table of handles,
and the system calls of `pf_connect` and `pf_close` are steps on it.  The
operating system may hand out any descriptor that is not open.

`pf_close` takes the value 0 in `conns` for an unused slot, but 0 is a
descriptor like any other once standard input is closed.
`socket_ownership_iff` shows that this is the only flaw: over any sequence of
`pf_connect` and `pf_close`, the pool owns its sockets exactly as it should if
and only if no table that is torn down holds descriptor 0.
-/

namespace Kernelflut.Pixelflut

open PartialStep Handles

universe u

variable {A : Type u}

/-- What a call means for the sockets of the module.  What is known of a socket
is its peer. -/
def Syscall.events : Syscall A → List (Event ℕ (Option A))
  | .socket none => []
  | .socket (some fd) => [.acquire fd none]
  | .connect fd address true => [.update fd (some address)]
  | .connect _ _ false => []
  | .close fd => [.release fd]

/-- The sockets after the calls, unless the operating system handed out a
descriptor that was open. -/
def sockets (t : Table ℕ (Option A)) (calls : List (Syscall A)) :
    Option (Table ℕ (Option A)) :=
  run Handles.step t (calls.flatMap Syscall.events)

theorem sockets_append_eq_some {t t' : Table ℕ (Option A)}
    {calls calls' : List (Syscall A)} :
    sockets t (calls ++ calls') = some t' ↔
      ∃ t₁, sockets t calls = some t₁ ∧ sockets t₁ calls' = some t' := by
  rw [sockets, List.flatMap_append, run_append, Option.bind_eq_some_iff]
  rfl

/-- The sockets `socks`, each connected to its address, are all that is open. -/
abbrev OwnsSockets (t : Table ℕ (Option A)) (socks : List (ℕ × A)) : Prop :=
  Owns t (socks.map fun sock => (sock.1, some sock.2))

/-! ## One slot -/

/-- The first address for which `socket` and `connect` succeed, with the
descriptor. -/
def firstSuccess (attempts : List (A × Attempt)) : Option (ℕ × A) :=
  attempts.findSome? fun (address, outcome) =>
    match outcome with
    | .connects fd => some (fd, address)
    | _ => none

/-- **`pf_connect1`** opens the socket of the first address that accepts, and
leaves nothing open if there is none. -/
theorem sockets_pfConnect1 {t t' : Table ℕ (Option A)} {socks : List (ℕ × A)}
    (owns : OwnsSockets t socks) {attempts : List (A × Attempt)}
    (h : sockets t (pfConnect1 attempts).1 = some t') :
    firstSuccess attempts = none ∧ (pfConnect1 attempts).2 = -errPfConnect ∧ t' = t ∨
      ∃ sock, firstSuccess attempts = some sock ∧ (pfConnect1 attempts).2 = sock.1 ∧
        t'.stray = t.stray ∧ OwnsSockets t' (socks ++ [sock]) := by
  induction attempts with
  | nil => exact Or.inl ⟨rfl, rfl, (Option.some.inj h).symm⟩
  | cons attempt attempts ih =>
      obtain ⟨address, outcome⟩ := attempt
      cases outcome with
      | socketFails => exact ih h
      | connectFails fd =>
          have split : sockets t ([.socket (some fd), .connect fd address false,
              .close fd] ++ (pfConnect1 attempts).1) = some t' := h
          obtain ⟨t₁, hfirst, hrest⟩ := sockets_append_eq_some.mp split
          have same : t₁ = t := run_transient hfirst
          exact ih (same ▸ hrest)
      | connects fd =>
          have acquired : run Handles.step t
              [.acquire fd none, .update fd (some address)] = some t' := h
          obtain ⟨stray, owns'⟩ := owns.acquire acquired
          refine Or.inr ⟨(fd, address), rfl, rfl, stray, ?_⟩
          rw [OwnsSockets, List.map_append]
          exact owns'

/-! ## The table -/

/-- The sockets of the slots from `i` on, up to the first slot that finds no
address. -/
def opened (slots : ℕ → List (A × Attempt)) : (todo i : ℕ) → List (ℕ × A)
  | 0, _ => []
  | todo + 1, i =>
      match firstSuccess (slots i) with
      | none => []
      | some sock => sock :: opened slots todo (i + 1)

theorem length_opened_le (slots : ℕ → List (A × Attempt)) (todo i : ℕ) :
    (opened slots todo i).length ≤ todo := by
  induction todo generalizing i with
  | zero => exact le_refl 0
  | succ todo ih =>
      rw [opened]
      split
      · exact Nat.zero_le _
      · exact Nat.succ_le_succ (ih (i + 1))

/-- Each of them is the first success of its slot. -/
theorem firstSuccess_of_opened {slots : ℕ → List (A × Attempt)} {todo i j : ℕ}
    {sock : ℕ × A} (h : (opened slots todo i)[j]? = some sock) :
    firstSuccess (slots (i + j)) = some sock := by
  induction todo generalizing i j with
  | zero => simp [opened] at h
  | succ todo ih =>
      rw [opened] at h
      split at h
      · simp at h
      · next first found =>
          cases j with
          | zero => exact found.trans h
          | succ j =>
              rw [← Nat.add_assoc, Nat.add_right_comm]
              exact ih h

/-- **The loop of `pf_connect`** opens them one after the other and writes them
into the table; the slots it does not reach stay 0. -/
theorem sockets_fillSlots {slots : ℕ → List (A × Attempt)} {todo : ℕ}
    {t t' : Table ℕ (Option A)} {socks : List (ℕ × A)} (owns : OwnsSockets t socks)
    (h : sockets t (fillSlots slots todo socks.length
      (socks.map Prod.fst ++ List.replicate todo 0)).calls = some t') :
    let fill := fillSlots slots todo socks.length
      (socks.map Prod.fst ++ List.replicate todo 0)
    let more := opened slots todo socks.length
    t'.stray = t.stray ∧ OwnsSockets t' (socks ++ more) ∧
      fill.conns = (socks ++ more).map Prod.fst ++
        List.replicate (todo - more.length) 0 ∧
      (fill.fp < 0 ↔ more.length < todo) := by
  induction todo generalizing socks t with
  | zero =>
      cases h
      simpa [fillSlots, opened] using owns
  | succ todo ih =>
      simp only [fillSlots] at h ⊢
      split at h
      · next negative =>
          rcases sockets_pfConnect1 owns h with ⟨none, err, rfl⟩ | ⟨sock, -, fp, -⟩
          · simpa [opened, none, negative] using owns
          · rw [fp] at negative
            exact absurd negative (by simp)
      · next nonneg =>
          obtain ⟨t₁, hfirst, hrest⟩ := sockets_append_eq_some.mp h
          rcases sockets_pfConnect1 owns hfirst with
            ⟨-, err, -⟩ | ⟨sock, found, fp, stray, owns₁⟩
          · rw [err] at nonneg
            exact absurd (by decide) nonneg
          · -- Slot `i` is the first of the slots that are still 0.
            have table : (socks.map Prod.fst ++ List.replicate (todo + 1) 0).set
                socks.length (pfConnect1 (slots socks.length)).2.toNat =
                (socks ++ [sock]).map Prod.fst ++ List.replicate todo 0 := by
              rw [fp, List.set_append_right _ _ (by simp)]
              simp [List.replicate_succ]
            have length : socks.length + 1 = (socks ++ [sock]).length := by simp
            rw [table, length] at hrest ⊢
            obtain ⟨stray', owns', conns, result⟩ := ih owns₁ hrest
            rw [List.append_assoc] at owns' conns
            simp only [opened, found, if_neg nonneg, ← length] at *
            refine ⟨stray'.trans stray, owns', ?_, ?_⟩
            · rw [conns]
              simp
            · rw [result, List.length_cons]
              omega

/-- **`pf_close`** closes the sockets of the table, except descriptor 0. -/
theorem sockets_pfClose {B : Type*} {c : Client B} {t t' : Table ℕ (Option A)}
    {socks : List (ℕ × A)} (owns : OwnsSockets t socks) (unused : ℕ)
    (table : c.conns = some (socks.map Prod.fst ++ List.replicate unused 0))
    (size : c.numConns = socks.length + unused)
    (h : sockets t (pfClose c).2 = some t') :
    t'.stray = t.stray ∧ OwnsSockets t' (socks.filter fun sock => sock.1 = 0) := by
  have closes : (pfClose (A := A) c).2 =
      ((socks.map Prod.fst).filter (· ≠ 0)).map .close := by
    simp only [pfClose, table, Option.getD_some, size]
    rw [List.take_of_length_le (by simp), List.filter_append]
    simp
  have events : ∀ fds : List ℕ, (fds.map (Syscall.close (A := A))).flatMap Syscall.events =
      fds.map .release := by
    intro fds
    rw [List.flatMap_map]
    exact (List.map_eq_flatMap).symm
  rw [sockets, closes, events] at h
  have keys : (socks.map fun sock => (sock.1, some sock.2)).map Prod.fst =
      socks.map Prod.fst := by simp [Function.comp_def]
  rw [← keys] at h
  obtain ⟨stray, owns'⟩ := owns.release_filter (fun fd => fd ≠ 0) h
  refine ⟨stray, ?_⟩
  rw [List.filter_map] at owns'
  simpa [Function.comp_def] using owns'

/-- So nothing stays open exactly when the table did not hold it. -/
theorem none_held_iff {t : Table ℕ (Option A)} {socks : List (ℕ × A)}
    (owns : OwnsSockets t (socks.filter fun sock => sock.1 = 0)) :
    (∀ fd, t.held fd = none) ↔ 0 ∉ socks.map Prod.fst := by
  rw [owns.eq_nil_iff, List.map_eq_nil_iff, List.filter_eq_nil_iff, List.mem_map]
  constructor
  · rintro others ⟨sock, hsock, zero⟩
    exact others sock hsock (decide_eq_true zero)
  · exact fun absent sock hsock zero => absent ⟨sock, hsock, of_decide_eq_true zero⟩

/-- **`pf_connect`** on a closed pool opens a socket for every slot, or closes
what it has opened except descriptor 0. -/
theorem sockets_pfConnect {B : Type*} {c : Client B} {poolSize : ℕ}
    {slots : ℕ → List (A × Attempt)} {t t' : Table ℕ (Option A)}
    (owns : OwnsSockets t [])
    (h : sockets t (pfConnect c poolSize (some slots)).calls = some t') :
    let r := pfConnect c poolSize (some slots)
    let socks := opened slots poolSize 0
    t'.stray = t.stray ∧
      (r.ret = 0 ∧ socks.length = poolSize ∧ OwnsSockets t' socks ∧
          r.client.conns = some (socks.map Prod.fst) ∧ r.client.numConns = poolSize ∨
        r.ret ≠ 0 ∧ socks.length < poolSize ∧ r.client.conns = none ∧
          OwnsSockets t' (socks.filter fun sock => sock.1 = 0)) := by
  simp only [pfConnect] at h ⊢
  split at h
  · next negative =>
      obtain ⟨t₁, hfill, hclose⟩ := sockets_append_eq_some.mp h
      obtain ⟨stray, owns₁, conns, result⟩ := sockets_fillSlots owns hfill
      have short := result.mp negative
      obtain ⟨stray', owns'⟩ := sockets_pfClose owns₁ _ (congrArg some conns)
        (Nat.add_sub_cancel' short.le).symm hclose
      rw [if_pos negative]
      refine ⟨stray'.trans stray, Or.inr ⟨?_, short, rfl, owns'⟩⟩
      show (-(fillSlots slots poolSize 0 (List.replicate poolSize 0)).fp).toNat ≠ 0
      omega
  · next nonneg =>
      obtain ⟨stray, owns', conns, result⟩ := sockets_fillSlots owns h
      have all : (opened slots poolSize 0).length = poolSize :=
        le_antisymm (length_opened_le slots poolSize 0)
          (not_lt.mp fun short => nonneg (result.mpr short))
      rw [if_neg nonneg]
      refine ⟨stray, Or.inl ⟨rfl, all, owns', ?_, rfl⟩⟩
      refine congrArg some (conns.trans ?_)
      show (opened slots poolSize 0).map Prod.fst ++
        List.replicate (poolSize - (opened slots poolSize 0).length) 0 = _
      rw [all, Nat.sub_self, List.replicate_zero, List.append_nil]

/-! ## Runs -/

section Runs

universe v

variable {B : Type v}

/-- The module and its sockets. -/
structure PoolSockets (A : Type u) (B : Type v) where
  client : Client B
  table : Table ℕ (Option A)

def PoolSockets.start : PoolSockets A B where
  client := Client.start
  table := Table.empty

/-- `pf_connect`, with what happens at the addresses of each slot, or
`pf_close`. -/
inductive LifeCall (A : Type u) where
  | connect (poolSize : ℕ) (slots : ℕ → List (A × Attempt))
  | close

/-- One call.  `pf_connect` is only called on a closed pool, and for at least
one connection. -/
def lifeStep (s : PoolSockets A B) : LifeCall A → Option (PoolSockets A B)
  | .connect poolSize slots =>
      if s.client.conns.isSome ∨ poolSize = 0 then none
      else
        let r := pfConnect s.client poolSize (some slots)
        (sockets s.table r.calls).map fun table => ⟨r.client, table⟩
  | .close =>
      let (client, calls) := pfClose s.client
      (sockets s.table calls).map fun table => ⟨client, table⟩

/-- What the pool should own after a call: no stray `close` so far; after a
successful `pf_connect` one socket per entry of `conns`, all distinct, each
connected to the first address that accepted its slot, and no others; after a
failed one, and after `pf_close`, none. -/
def OwnsExactly (s : PoolSockets A B) (call : LifeCall A) (s' : PoolSockets A B) : Prop :=
  s'.table.stray = [] ∧
    match call with
    | .connect poolSize slots =>
        if (pfConnect s.client poolSize (some slots)).ret = 0 then
          ∃ socks : List (ℕ × A), s'.client.conns = some (socks.map Prod.fst) ∧
            s'.client.numConns = poolSize ∧ socks.length = poolSize ∧
            OwnsSockets s'.table socks ∧
            ∀ i < poolSize, firstSuccess (slots i) = socks[i]?
        else ∀ fd, s'.table.held fd = none
    | .close => ∀ fd, s'.table.held fd = none

/-- **The condition**: a table that is torn down does not hold descriptor 0,
neither the one of a pool being closed nor the one of a `pf_connect` that gives
up at a later slot. -/
def NoZeroTornDown (s : PoolSockets A B) : LifeCall A → Prop
  | .connect poolSize slots =>
      (opened slots poolSize 0).length < poolSize →
        0 ∉ (opened slots poolSize 0).map Prod.fst
  | .close => ∀ conns, s.client.conns = some conns → 0 ∉ conns

/-- What a run keeps: a closed pool has no sockets, an open one those of its
table. -/
structure PoolOwns (s : PoolSockets A B) (socks : List (ℕ × A)) : Prop where
  stray : s.table.stray = []
  owns : OwnsSockets s.table socks
  pool : s.client.conns = none ∧ socks = [] ∨
    s.client.conns = some (socks.map Prod.fst) ∧ s.client.numConns = socks.length

theorem poolOwns_start : PoolOwns (PoolSockets.start : PoolSockets A B) [] where
  stray := rfl
  owns := owns_empty
  pool := Or.inl ⟨rfl, rfl⟩

/-- **`pf_connect`**: it owns exactly what it should under the condition, and the
run goes on. -/
theorem ownsExactly_connect {s s' : PoolSockets A B} {poolSize : ℕ}
    {slots : ℕ → List (A × Attempt)} {socks : List (ℕ × A)} (inv : PoolOwns s socks)
    (h : lifeStep s (.connect poolSize slots) = some s') :
    (OwnsExactly s (.connect poolSize slots) s' ↔
        NoZeroTornDown s (.connect poolSize slots)) ∧
      (NoZeroTornDown s (.connect poolSize slots) → ∃ socks', PoolOwns s' socks') := by
  simp only [lifeStep] at h
  split at h
  · cases h
  · next allowed =>
      have closed : socks = [] := by
        rcases inv.pool with ⟨-, empty⟩ | ⟨conns, -⟩
        · exact empty
        · simp [conns] at allowed
      obtain ⟨t', hsockets, rfl⟩ := Option.map_eq_some_iff.mp h
      obtain ⟨stray, done | gaveUp⟩ := sockets_pfConnect (closed ▸ inv.owns) hsockets
      · obtain ⟨ret, all, owns', conns, size⟩ := done
        have noneShort : NoZeroTornDown s (.connect poolSize slots) :=
          fun short => absurd all short.ne
        refine ⟨iff_of_true ?_ noneShort, fun _ =>
          ⟨_, stray.trans inv.stray, owns', Or.inr ⟨conns, size.trans all.symm⟩⟩⟩
        simp only [OwnsExactly, if_pos ret]
        refine ⟨stray.trans inv.stray, _, conns, size, all, owns', fun i hi => ?_⟩
        rw [List.getElem?_eq_getElem (all.symm ▸ hi)]
        have := firstSuccess_of_opened (List.getElem?_eq_getElem (all.symm ▸ hi))
        rwa [Nat.zero_add] at this
      · obtain ⟨ret, short, conns, owns'⟩ := gaveUp
        have zero := none_held_iff owns'
        constructor
        · unfold OwnsExactly NoZeroTornDown
          simp only [if_neg ret, zero, stray.trans inv.stray, true_and]
          exact ⟨fun absent _ => absent, fun absent => absent short⟩
        · intro ok
          exact ⟨[], stray.trans inv.stray,
            owns'.nil_of_none_held (zero.mpr (ok short)), Or.inl ⟨conns, rfl⟩⟩

/-- **`pf_close`**: likewise, also when there is nothing to close. -/
theorem ownsExactly_close {s s' : PoolSockets A B} {socks : List (ℕ × A)}
    (inv : PoolOwns s socks) (h : lifeStep s .close = some s') :
    (OwnsExactly s .close s' ↔ NoZeroTornDown s .close) ∧
      (NoZeroTornDown s .close → ∃ socks', PoolOwns s' socks') := by
  obtain ⟨t', hsockets, rfl⟩ := Option.map_eq_some_iff.mp h
  rcases inv.pool with ⟨closed, rfl⟩ | ⟨conns, size⟩
  · have unchanged : t' = s.table := by
      simp only [closed, Option.getD_none, List.take_nil, List.filter_nil,
        List.map_nil] at hsockets
      exact (Option.some.inj hsockets).symm
    subst unchanged
    have noTable : NoZeroTornDown s .close := by
      intro conns hconns
      rw [closed] at hconns
      cases hconns
    refine ⟨iff_of_true ⟨inv.stray, inv.owns.eq_nil_iff.mpr rfl⟩ noTable, fun _ => ?_⟩
    exact ⟨[], inv.stray, inv.owns, Or.inl ⟨rfl, rfl⟩⟩
  · obtain ⟨stray, owns'⟩ := sockets_pfClose inv.owns 0
      (by rw [List.replicate_zero, List.append_nil]; exact conns) size hsockets
    have zero := none_held_iff owns'
    have absent : NoZeroTornDown s .close ↔ 0 ∉ socks.map Prod.fst := by
      simp [NoZeroTornDown, conns]
    constructor
    · rw [absent, ← zero, OwnsExactly]
      exact and_iff_right (stray.trans inv.stray)
    · intro ok
      exact ⟨[], stray.trans inv.stray,
        owns'.nil_of_none_held (zero.mpr (absent.mp ok)), Or.inl ⟨rfl, rfl⟩⟩

/-- **Ownership of the sockets** over any sequence of `pf_connect` and
`pf_close`, for any addresses, any failures and any free descriptors: after
every call the module owns exactly what it should, if and only if no table torn
down holds descriptor 0. -/
theorem socket_ownership_iff (calls : List (LifeCall A)) :
    EachStep lifeStep (fun _ s call s' => OwnsExactly s call s')
        (PoolSockets.start : PoolSockets A B) calls ↔
      EachStep lifeStep (fun _ s call _ => NoZeroTornDown s call)
        (PoolSockets.start : PoolSockets A B) calls := by
  refine eachStep_iff_of_decided (fun _ s => ∃ socks, PoolOwns s socks)
    ⟨[], poolOwns_start⟩ ?_ ?_
  · rintro before s call s' - ⟨socks, inv⟩ h
    cases call with
    | connect poolSize slots => exact (ownsExactly_connect inv h).1
    | close => exact (ownsExactly_close inv h).1
  · rintro before s call s' - ⟨socks, inv⟩ h ok
    cases call with
    | connect poolSize slots => exact (ownsExactly_connect inv h).2 ok
    | close => exact (ownsExactly_close inv h).2 ok

/-- Two connections on descriptors 0 and 3, opened and closed. -/
def onDescriptorZero : List (LifeCall Unit) :=
  [.connect 2 fun i => [((), .connects (3 * i))], .close]

/-- Descriptor 0 stays open for ever. -/
theorem leak_onDescriptorZero :
    ¬ ∀ calls : List (LifeCall Unit),
      EachStep lifeStep (fun _ s call s' => OwnsExactly s call s')
        (PoolSockets.start : PoolSockets Unit Unit) calls := by
  intro claim
  have leaked : (run lifeStep (PoolSockets.start : PoolSockets Unit Unit)
      onDescriptorZero).map (fun s => s.table.held 0) = some (some (some ())) := by decide
  obtain ⟨s, hrun, held⟩ := Option.map_eq_some_iff.mp leaked
  obtain ⟨_, -, -, owned⟩ := EachStep.last onDescriptorZero.dropLast
    (claim onDescriptorZero) hrun
  exact Option.some_ne_none _ (held.symm.trans (owned.2 0))

end Runs

end Kernelflut.Pixelflut
