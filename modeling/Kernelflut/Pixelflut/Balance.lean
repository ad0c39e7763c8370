import Kernelflut.Foundations.CyclicTurns
import Kernelflut.Pixelflut.Contract

/-!
# How evenly the pool is used

`pf_set_buf` takes the next connection for every pixel it visits, before it knows
whether the pixel will be sent.  So it is the turns that go around evenly, and
not the commands: a connection whose turns fall on unchanged pixels sends
nothing.

`turns_balanced` is what the round robin guarantees.  Sent and skipped pixels
together, any two connections have the same share up to one; a call that skips
nothing spreads its commands like that.
-/

namespace Kernelflut.Pixelflut

universe u

variable {B : Type u} {mem : B → ℤ → Word} {c : Client B} {fb : B} {width : ℤ}
  {rect : EvdiRect} {bgcolor : Word}

/-- The number of commands written on connection `i`. -/
def sentOn (turns : List Turn) (i : ℕ) : ℕ := (sends turns).countP fun w => w.1 = i

/-- The number of turns of connection `i` that skipped their pixel. -/
def skippedOn (turns : List Turn) (i : ℕ) : ℕ :=
  turns.countP fun turn => turn.access.index = i ∧ turn.cmd = none

/-- Every turn sends its pixel or skips it. -/
theorem sentOn_add_skippedOn (turns : List Turn) (i : ℕ) :
    sentOn turns i + skippedOn turns i =
      (turns.map fun turn => turn.access.index).count i := by
  induction turns with
  | nil => rfl
  | cons turn turns ih =>
      rw [List.map_cons, List.count_cons, ← ih, skippedOn, List.countP_cons, ← skippedOn,
        sentOn, sends, List.filterMap_cons, ← sends]
      cases hcmd : turn.cmd with
      | none => simp [sentOn, Nat.add_assoc]
      | some px => simp [sentOn, List.countP_cons, Nat.add_right_comm]

/-- The connections of the turns, in order: around the pool from the active one. -/
theorem map_index_turns (ready : c.Ready) :
    ((pfSetBuf mem c fb width rect bgcolor).turns.map fun turn => turn.access.index) =
      (List.range (pfVisits width rect).length).map fun k =>
        (c.activeConn + k) % c.numConns := by
  apply List.ext_getElem?
  intro k
  rw [List.getElem?_map, getElem?_turns_pfSetBuf ready, Option.map_map, List.getElem?_map]
  by_cases bound : k < (pfVisits width rect).length
  · rw [List.getElem?_eq_getElem bound, List.getElem?_range bound]
    rfl
  · rw [List.getElem?_eq_none (Nat.le_of_not_lt bound), List.getElem?_eq_none]
    · rfl
    · rw [List.length_range]
      exact Nat.le_of_not_lt bound

/-- **The share of a connection**: of `m` pixels visited, `m` over the size of the
pool, or one more. -/
theorem share_bounds (mem : B → ℤ → Word) (fb : B) (width : ℤ) (rect : EvdiRect)
    (bgcolor : Word) (ready : c.Ready) {i : ℕ} (hi : i < c.numConns) :
    let turns := (pfSetBuf mem c fb width rect bgcolor).turns
    let share := (pfVisits width rect).length / c.numConns
    share ≤ sentOn turns i + skippedOn turns i ∧
      sentOn turns i + skippedOn turns i ≤ share + 1 := by
  intro turns share
  rw [sentOn_add_skippedOn, map_index_turns ready]
  exact CyclicTurns.count_turns hi c.activeConn _

/-- **The turns are balanced**: of the pixels of a call, sent and skipped ones taken
together, any two connections of the pool have the same number, up to one.  So
have they of the commands, if nothing is skipped. -/
theorem turns_balanced (mem : B → ℤ → Word) (c : Client B) (ready : c.Ready) (fb : B)
    (width : ℤ) (rect : EvdiRect) (bgcolor : Word) {i j : ℕ} (hi : i < c.numConns)
    (hj : j < c.numConns) :
    let turns := (pfSetBuf mem c fb width rect bgcolor).turns
    sentOn turns i + skippedOn turns i ≤ sentOn turns j + skippedOn turns j + 1 ∧
      ((∀ turn ∈ turns, turn.cmd ≠ none) → sentOn turns i ≤ sentOn turns j + 1) := by
  intro turns
  obtain ⟨-, upper⟩ := share_bounds mem fb width rect bgcolor ready hi
  obtain ⟨lower, -⟩ := share_bounds mem fb width rect bgcolor ready hj
  have balanced : sentOn turns i + skippedOn turns i ≤
      sentOn turns j + skippedOn turns j + 1 :=
    upper.trans (Nat.succ_le_succ lower)
  refine ⟨balanced, fun allSent => ?_⟩
  have noneSkipped : skippedOn turns j = 0 := by
    refine List.countP_eq_zero.mpr fun turn hturn skipped => ?_
    exact allSent turn hturn (of_decide_eq_true skipped).2
  rw [noneSkipped] at balanced
  exact (Nat.le_add_right _ _).trans balanced

/-- Two connections and three pixels, two of them changed: the turns are two and
one.  The first frame is sent whole. -/
theorem turns_balanced_two_connections :
    let mem : Bool → ℤ → Word := fun b i => if b && i != 2 then 0xff0000 else 0
    let first := pfSetBuf mem (Client.connected [3, 4]) false 800 ⟨0, 0, 3, 1⟩ pfNoBgcolor
    let second := pfSetBuf mem first.client true 800 ⟨0, 0, 3, 1⟩ pfNoBgcolor
    sentOn first.turns 0 ≤ sentOn first.turns 1 + 1 ∧
      sentOn second.turns 0 + skippedOn second.turns 0 ≤
        sentOn second.turns 1 + skippedOn second.turns 1 + 1 := by
  intro mem first second
  have whole : ∀ turn ∈ first.turns, turn.cmd ≠ none := by decide
  exact ⟨(turns_balanced mem (Client.connected [3, 4]) (by decide) false 800 ⟨0, 0, 3, 1⟩
      pfNoBgcolor (i := 0) (j := 1) (by decide) (by decide)).2 whole,
    (turns_balanced mem first.client (by decide) true 800 ⟨0, 0, 3, 1⟩ pfNoBgcolor
      (i := 0) (j := 1) (by decide) (by decide)).1⟩

/-- The changed pixels are the first and the last one visited, so both commands go
to the first connection. -/
theorem sends_unbalanced :
    ¬ ∀ (mem : Bool → ℤ → Word) (c : Client Bool) (fb : Bool) (width : ℤ) (rect : EvdiRect)
        (bgcolor : Word) (i j : ℕ), c.Ready → i < c.numConns → j < c.numConns →
      sentOn (pfSetBuf mem c fb width rect bgcolor).turns i ≤
        sentOn (pfSetBuf mem c fb width rect bgcolor).turns j + 1 := by
  intro balanced
  have both := balanced (fun b i => if b && i != 2 then 0xff0000 else 0)
    { (Client.connected [3, 4] : Client Bool) with lastBuf := some false } true 800
    ⟨0, 0, 3, 1⟩ pfNoBgcolor 0 1 (by decide) (by decide) (by decide)
  exact absurd both (by decide)

end Kernelflut.Pixelflut
