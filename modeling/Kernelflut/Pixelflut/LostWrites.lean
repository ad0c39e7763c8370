import Kernelflut.Pixelflut.Contract

/-!
# Commands that are not written

`pf_set` checks what `dprintf` returns and reports `ERR_PF_SEND`; `pf_set_buf`
does not look at it.  `written k` says whether the write of the `k`-th turn
succeeds.  A lost command is neither reported, since the return code does not
depend on `written`, nor remembered, since `last_buf` moves on to the framebuffer
as if the server had got it.

`lost_writes_iff` has the exact extent: a call does what one would like, report
and repeat, only if nothing was lost — or if it is the call that ends the
performance test, which returns nonzero, and lost only pixels that it repainted
though they had not changed.  There may be calls in between that do not cover the
pixel, but they make some buffer the last one all the same.
-/

namespace Kernelflut.Pixelflut

universe u

variable {B : Type u} {mem : B → ℤ → Word} {c : Client B} {fb : B} {width : ℤ}
  {rect : EvdiRect} {bgcolor : Word} {written : ℕ → Bool}

/-- The pixel is not known to be shown: no buffer was blitted before, or the last
one had another word there. -/
def Changed (mem : B → ℤ → Word) (c : Client B) (fb : B) (v : Visit) : Prop :=
  ∀ last, c.lastBuf = some last → mem last v.i ≠ mem fb v.i

/-- The call returns 0 only if every command it had to send was written. -/
def LossReported (mem : B → ℤ → Word) (c : Client B) (fb : B) (width : ℤ) (rect : EvdiRect)
    (bgcolor : Word) (written : ℕ → Bool) : Prop :=
  let blit := pfSetBuf mem c fb width rect bgcolor
  blit.ret = 0 → ∀ k turn, blit.turns[k]? = some turn → turn.cmd.isSome → written k = true

/-- A call: what the framebuffers hold by then, and its arguments. -/
structure BufCall (B : Type u) where
  mem : B → ℤ → Word
  fb : B
  rect : EvdiRect
  bgcolor : Word

/-- Make the call. -/
def BufCall.blit (width : ℤ) (c : Client B) (call : BufCall B) : Blit B :=
  pfSetBuf call.mem c call.fb width call.rect call.bgcolor

/-- The statics after some calls. -/
def afterBlits (width : ℤ) (c : Client B) (calls : List (BufCall B)) : Client B :=
  calls.foldl (fun c call => (call.blit width c).client) c

/-- A changed pixel whose command was not written is sent by the next call that
visits it, whatever calls come in between and whatever the framebuffers hold by
then. -/
def LossRepaired (mem : B → ℤ → Word) (c : Client B) (fb : B) (width : ℤ) (rect : EvdiRect)
    (bgcolor : Word) (written : ℕ → Bool) : Prop :=
  ∀ k v, (pfVisits width rect)[k]? = some v → Changed mem c fb v → written k = false →
    ∀ (between : List (BufCall B)) (next : BufCall B),
      (∀ call ∈ between, v ∉ pfVisits width call.rect) → v ∈ pfVisits width next.rect →
        let c' := afterBlits width (pfSetBuf mem c fb width rect bgcolor).client between
        v.pos ∈ (commands (next.blit width c').turns).map Px.pos

/-- Every command of the call was written. -/
def AllWritten (mem : B → ℤ → Word) (c : Client B) (fb : B) (width : ℤ) (rect : EvdiRect)
    (bgcolor : Word) (written : ℕ → Bool) : Prop :=
  ∀ k v, (pfVisits width rect)[k]? = some v → ¬ SkippedAt mem c fb bgcolor k v →
    written k = true

theorem isSome_cmd_turnAt {k : ℕ} {v : Visit} :
    (turnAt mem fb bgcolor c k v).cmd.isSome = true ↔ ¬ SkippedAt mem c fb bgcolor k v := by
  rw [turnAt, SkippedAt]
  split
  · next skipped => simp [skipped]
  · next sent => simp [sent]

/-- A changed pixel is not skipped. -/
theorem Changed.not_skippedAt {v : Visit} (changed : Changed mem c fb v) (k : ℕ) :
    ¬ SkippedAt mem c fb bgcolor k v := by
  intro skipped
  obtain ⟨last, hlast, same⟩ := exists_last_of_redundant skipped
  exact changed last hlast same

/-- The buffer blitted last, blitted again: nothing is sent. -/
theorem commands_eq_nil_of_lastBuf (ready : c.Ready) (last : c.lastBuf = some fb) :
    commands (pfSetBuf mem c fb width rect pfNoBgcolor).turns = [] := by
  rw [List.eq_nil_iff_forall_not_mem]
  intro px hpx
  obtain ⟨k, v, -, sent, -⟩ := (mem_commands_pfSetBuf ready).mp hpx
  exact sent (redundant_pfNoBgcolor.mpr ⟨fb, last, rfl⟩)

/-- **Reporting**: outside the last trial, a call that loses a command returns 0 all
the same. -/
theorem lossReported_iff (ready : c.Ready) :
    LossReported mem c fb width rect bgcolor written ↔
      AllWritten mem c fb width rect bgcolor written ∨ LastTrial c := by
  obtain ⟨ret, -⟩ := pfSetBuf_end mem fb width rect bgcolor ready
  have commandsWritten : (∀ k turn, (pfSetBuf mem c fb width rect bgcolor).turns[k]? =
      some turn → turn.cmd.isSome → written k = true) ↔
        AllWritten mem c fb width rect bgcolor written := by
    simp only [getElem?_turns_pfSetBuf ready, Option.map_eq_some_iff]
    constructor
    · intro all k v hv sent
      exact all k _ ⟨v, hv, rfl⟩ (isSome_cmd_turnAt.mpr sent)
    · rintro all k _ ⟨v, hv, rfl⟩ sent
      exact all k v hv (isSome_cmd_turnAt.mp sent)
  rw [LossReported]
  simp only [ret, commandsWritten]
  by_cases last : LastTrial c
  · simp [last, exceptionPtFinished]
  · simp [last]

/-- A rectangle without pixels. -/
theorem notMem_pfVisits_empty (v : Visit) : v ∉ pfVisits width ⟨0, 0, 0, 0⟩ := by
  intro hv
  obtain ⟨⟨⟨left, right⟩, -⟩, -⟩ := (mem_pfVisits le_rfl).mp hv
  exact absurd (lt_of_le_of_lt left right) (lt_irrefl 0)

/-- Some buffer will be the last one, if not by this call then by the next. -/
theorem exists_lastBuf (mem : B → ℤ → Word) (fb : B) (rect : EvdiRect) (bgcolor : Word)
    (ready : c.Ready) :
    ∃ between : List (BufCall B), (∀ call ∈ between, ∀ v, v ∉ pfVisits width call.rect) ∧
      let c' := afterBlits width (pfSetBuf mem c fb width rect bgcolor).client between
      c'.Ready ∧ ∃ last, c'.lastBuf = some last := by
  have ready' := pfSetBuf_ready mem fb width rect bgcolor ready
  obtain ⟨-, lastBuf, ptTrial, -⟩ := pfSetBuf_end mem fb width rect bgcolor ready
  cases known : (pfSetBuf mem c fb width rect bgcolor).client.lastBuf with
  | some last => exact ⟨[], by simp, ready', last, known⟩
  | none =>
      -- This was the last trial, so the next call is not.
      have wasLast : LastTrial c := by
        by_contra other
        rw [known, if_neg other] at lastBuf
        cases lastBuf
      have later : ¬ LastTrial (pfSetBuf mem c fb width rect bgcolor).client := by
        rintro ⟨-, again⟩
        rw [ptTrial, if_pos wasLast.1, wasLast.2] at again
        cases again
      refine ⟨[⟨mem, fb, ⟨0, 0, 0, 0⟩, pfNoBgcolor⟩], ?_, ?_, fb, ?_⟩
      · simpa using notMem_pfVisits_empty
      · exact pfSetBuf_ready _ _ _ _ _ ready'
      · obtain ⟨-, next, -⟩ := pfSetBuf_end mem fb width ⟨0, 0, 0, 0⟩ pfNoBgcolor ready'
        rw [if_neg later] at next
        exact next

/-- **Repairing**: a changed pixel that is lost may never be sent again. -/
theorem lossRepaired_iff (ready : c.Ready) :
    LossRepaired mem c fb width rect bgcolor written ↔
      ∀ k v, (pfVisits width rect)[k]? = some v → Changed mem c fb v → written k = true := by
  constructor
  · intro repaired k v hv changed
    by_contra lost
    obtain ⟨between, empty, ready', last, hlast⟩ :=
      exists_lastBuf mem fb rect bgcolor ready
    -- The next call happens to blit the last buffer.
    have sent := repaired k v hv changed (by simpa using lost) between
      ⟨mem, last, rect, pfNoBgcolor⟩ (fun call hcall => empty call hcall v)
      (List.mem_of_getElem? hv)
    simp only [BufCall.blit, commands_eq_nil_of_lastBuf ready' hlast] at sent
    cases sent
  · intro all k v hv changed lost
    rw [all k v hv changed] at lost
    cases lost

/-- **When lost writes are reported and not forgotten**: every command was written,
or the call ended the performance test, and the changed pixels got through. -/
theorem lost_writes_iff (mem : B → ℤ → Word) (c : Client B) (ready : c.Ready) (fb : B)
    (width : ℤ) (rect : EvdiRect) (bgcolor : Word) (written : ℕ → Bool) :
    LossReported mem c fb width rect bgcolor written ∧
        LossRepaired mem c fb width rect bgcolor written ↔
      AllWritten mem c fb width rect bgcolor written ∨
        (LastTrial c ∧
          ∀ k v, (pfVisits width rect)[k]? = some v → Changed mem c fb v →
            written k = true) := by
  rw [lossReported_iff ready, lossRepaired_iff ready]
  constructor
  · rintro ⟨all | last, changed⟩
    · exact Or.inl all
    · exact Or.inr ⟨last, changed⟩
  · rintro (all | ⟨last, changed⟩)
    · exact ⟨Or.inl all, fun k v hv changed => all k v hv (changed.not_skippedAt k)⟩
    · exact ⟨Or.inr last, changed⟩

/-- Four calls of a performance test, the first of them of a row of 22 pixels, so that
the next pixel is repainted. -/
def fourTrials : List (BufCall Unit) :=
  ⟨fun _ _ => 0xff, (), ⟨0, 0, 22, 1⟩, 0⟩ ::
    List.replicate 3 ⟨fun _ _ => 0xff, (), ⟨0, 0, 0, 0⟩, 0⟩

/-- The fifth call repaints a pixel that has not changed, and its one command is lost:
the call does not return 0, and nothing is forgotten. -/
theorem lost_writes_last_trial :
    let c : Client Unit :=
      afterBlits 22 { (Client.connected [3] : Client Unit) with ptActive := true } fourTrials
    LossReported (fun _ _ => 0xff) c () 22 ⟨0, 0, 1, 1⟩ 0 (fun _ => false) ∧
      LossRepaired (fun _ _ => 0xff) c () 22 ⟨0, 0, 1, 1⟩ 0 (fun _ => false) := by
  intro c
  have state : c = ⟨some [3], 0, 1, some (), 22, true, 4⟩ := by decide
  rw [state]
  refine (lost_writes_iff _ _ (by decide) () 22 _ _ _).mpr (Or.inr ⟨by decide, ?_⟩)
  intro k v _ changed
  exact absurd rfl (changed () rfl)

/-- One connection, one pixel, and its command is lost: the call returns 0, and the
next one with the same framebuffer sends nothing. -/
theorem lost_write_forgotten :
    ¬ ∀ (mem : Unit → ℤ → Word) (c : Client Unit) (fb : Unit) (width : ℤ) (rect : EvdiRect)
        (bgcolor : Word) (written : ℕ → Bool), c.Ready →
      LossReported mem c fb width rect bgcolor written ∧
        LossRepaired mem c fb width rect bgcolor written := by
  intro claim
  obtain ⟨-, repaired⟩ := claim (fun _ _ => 0xff) (Client.connected [3]) () 1
    ⟨0, 0, 1, 1⟩ pfNoBgcolor (fun _ => false) (by decide)
  have sentAgain := repaired 0 ⟨0, 0, 0⟩ (by decide) (by rintro _ ⟨⟩) rfl []
    ⟨fun _ _ => 0xff, (), ⟨0, 0, 1, 1⟩, pfNoBgcolor⟩ (by simp) (by decide)
  exact absurd sentAgain (by decide)

end Kernelflut.Pixelflut
