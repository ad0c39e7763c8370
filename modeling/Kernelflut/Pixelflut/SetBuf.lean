import Kernelflut.Pixelflut.Client

/-!
# `pf_set_buf`

One call walks the visiting order of its rectangle.  At every pixel it
advances the repaint counter and the round-robin index, *then* decides whether
the pixel is redundant, so a skipped pixel takes its turn like a sent one.
`blitPixel` is the innermost loop body, `blitPixels` the three loops, and
`pfSetBuf` adds the performance-test bookkeeping and the update of `last_buf`.

`blitPixels_turns` is the specification of the loops: the turn of the `k`-th
visit is a function of `k`, the visit and the state before the call.
Everything later about which commands a call sends is read off it.

The return value of the `dprintf` is ignored by the source, so whether a write
succeeds does not influence the call; a call is described by the commands it
attempts, in order.
-/

namespace Kernelflut.Pixelflut

universe u

variable {B : Type u}

/-- `#define REBLIT_FREQUENCY 23` -/
def reblitFrequency : ℕ := 23

/-- `#define PT_TRIALS 5` -/
def ptTrials : ℕ := 5

/-- What one turn of the innermost loop did: the connection it took from the
pool, and the command it wrote there, if any. -/
structure Turn where
  access : Access
  cmd : Option Px
  deriving DecidableEq, Repr

/-- The condition under which a pixel is skipped: "skip redundant pixels.
sometimes reblit anyway if skip_reblit reaches zero". -/
def redundant (mem : B → ℤ → Word) (lastBuf : Option B) (bgcolor : Word)
    (i : ℤ) (color : Word) (skipReblit : ℕ) : Bool :=
  match lastBuf with
  | none => false
  | some last =>
      mem last i == color &&
        (bgcolor == pfNoBgcolor || visible color == bgcolor ||
          skipReblit != 0)

/-- The body of the innermost loop. -/
def blitPixel (mem : B → ℤ → Word) (fb : B) (bgcolor : Word) (c : Client B)
    (v : Visit) : Client B × Turn :=
  -- Both counters move before the test, so they count skipped pixels as well.
  let c := { c with skipReblit := (c.skipReblit + 1) % reblitFrequency }
  let (access, c) := c.nextConn
  let color := mem fb v.i
  if redundant mem c.lastBuf bgcolor v.i color c.skipReblit then
    (c, ⟨access, none⟩)
  else
    (c, ⟨access, some (Px.ofWord v.x v.y color)⟩)

/-- The loops, as the body run over the visits. -/
def blitPixels (mem : B → ℤ → Word) (fb : B) (bgcolor : Word) :
    Client B → List Visit → Client B × List Turn
  | c, [] => (c, [])
  | c, v :: vs =>
      let (c, turn) := blitPixel mem fb bgcolor c v
      let (c, turns) := blitPixels mem fb bgcolor c vs
      (c, turn :: turns)

/-- What a call of `pf_set_buf` leaves behind: the statics, the turns of its
loops, the entry of `pt_trials` it wrote, and the return code. -/
structure Blit (B : Type u) where
  client : Client B
  turns : List Turn
  trial : Option ℕ
  ret : ℕ

/-- `pf_set_buf(fb, width, x1, x2, y1, y2, bgcolor)`. -/
def pfSetBuf (mem : B → ℤ → Word) (c : Client B) (fb : B) (width : ℤ)
    (rect : EvdiRect) (bgcolor : Word) : Blit B :=
  let (c, turns) := blitPixels mem fb bgcolor c (pfVisits width rect)
  if c.ptActive then
    let trial := c.ptTrial
    let c := { c with ptTrial := c.ptTrial + 1 }
    if c.ptTrial = ptTrials then
      -- The loop that prints the trials counts `pt_trial` up to `PT_TRIALS` again.
      { client := c, turns, trial := some trial, ret := exceptionPtFinished }
    else
      { client := { c with lastBuf := some fb }, turns, trial := some trial, ret := 0 }
  else
    { client := { c with lastBuf := some fb }, turns, trial := none, ret := 0 }

/-- The commands of a list of turns, in the order they are written. -/
def commands (turns : List Turn) : List Px :=
  turns.filterMap Turn.cmd

/-- The commands together with the connection each is written on. -/
def sends (turns : List Turn) : List (ℕ × Px) :=
  turns.filterMap fun turn => turn.cmd.map (turn.access.index, ·)

theorem map_snd_sends (turns : List Turn) :
    (sends turns).map Prod.snd = commands turns := by
  induction turns with
  | nil => rfl
  | cons turn turns ih =>
      cases h : turn.cmd <;> simp_all [sends, commands]

/-- The commands of a list of calls. -/
def commandsOf (calls : List (Blit B)) : List Px :=
  calls.flatMap fun blit => commands blit.turns

/-- The commands of a list of calls, with the connection of each. -/
def sendsOf (calls : List (Blit B)) : List (ℕ × Px) :=
  calls.flatMap fun blit => sends blit.turns

theorem commandsOf_append (calls calls' : List (Blit B)) :
    commandsOf (calls ++ calls') = commandsOf calls ++ commandsOf calls' :=
  List.flatMap_append

theorem sendsOf_append (calls calls' : List (Blit B)) :
    sendsOf (calls ++ calls') = sendsOf calls ++ sendsOf calls' :=
  List.flatMap_append

theorem map_snd_sendsOf (calls : List (Blit B)) :
    (sendsOf calls).map Prod.snd = commandsOf calls := by
  simp only [sendsOf, commandsOf, List.map_flatMap, map_snd_sends]

/-! ## The skip condition -/

section Redundant

variable {mem : B → ℤ → Word} {lastBuf : Option B} {bgcolor color : Word}
  {i : ℤ} {skipReblit : ℕ}

/-- A skipped pixel holds the same word in the last blitted buffer. -/
theorem exists_last_of_redundant
    (h : redundant mem lastBuf bgcolor i color skipReblit = true) :
    ∃ last, lastBuf = some last ∧ mem last i = color := by
  cases lastBuf with
  | none => simp [redundant] at h
  | some last =>
      simp only [redundant, Bool.and_eq_true, beq_iff_eq] at h
      exact ⟨last, rfl, h.1⟩

/-- Without a background colour the comparison alone decides. -/
theorem redundant_pfNoBgcolor :
    redundant mem lastBuf pfNoBgcolor i color skipReblit = true ↔
      ∃ last, lastBuf = some last ∧ mem last i = color := by
  cases lastBuf <;> simp [redundant]

/-- A background pixel is redundant as soon as it has not changed. -/
theorem redundant_background (bg : visible color = bgcolor) :
    redundant mem lastBuf bgcolor i color skipReblit = true ↔
      ∃ last, lastBuf = some last ∧ mem last i = color := by
  cases lastBuf <;> simp [redundant, bg]

/-- In background mode an unchanged pixel of another colour is redundant except
when the repaint counter is at zero. -/
theorem redundant_repaint (mode : bgcolor ≠ pfNoBgcolor)
    (other : visible color ≠ bgcolor) {last : B}
    (hlast : lastBuf = some last) (same : mem last i = color) :
    redundant mem lastBuf bgcolor i color skipReblit = true ↔ skipReblit ≠ 0 := by
  simp [redundant, hlast, same, mode, other]

end Redundant

/-! ## What the loops do -/

section Loops

variable {mem : B → ℤ → Word} {fb : B} {bgcolor : Word}

/-- The turn of the `k`-th visit of a call that starts in the state `c`. -/
def turnAt (mem : B → ℤ → Word) (fb : B) (bgcolor : Word) (c : Client B) (k : ℕ)
    (v : Visit) : Turn where
  access :=
    { index := (c.activeConn + k) % c.numConns
      size := c.numConns
      fd := c.conns.bind (·[(c.activeConn + k) % c.numConns]?) }
  cmd :=
    if redundant mem c.lastBuf bgcolor v.i (mem fb v.i)
        ((c.skipReblit + k + 1) % reblitFrequency) then none
    else some (Px.ofWord v.x v.y (mem fb v.i))

/-- The statics after `k` turns. -/
def after (c : Client B) (k : ℕ) : Client B :=
  { c with
    activeConn := (c.activeConn + k) % c.numConns
    skipReblit := if k = 0 then c.skipReblit else (c.skipReblit + k) % reblitFrequency }

theorem blitPixel_fst (c : Client B) (v : Visit) :
    (blitPixel mem fb bgcolor c v).1 =
      { c with
        activeConn := (c.activeConn + 1) % c.numConns
        skipReblit := (c.skipReblit + 1) % reblitFrequency } := by
  simp only [blitPixel, Client.nextConn]
  split <;> rfl

theorem blitPixel_snd {c : Client B} (ready : c.Ready) (v : Visit) :
    (blitPixel mem fb bgcolor c v).2 = turnAt mem fb bgcolor c 0 v := by
  have index : c.activeConn % c.numConns = c.activeConn :=
    Nat.mod_eq_of_lt ready
  simp only [blitPixel, Client.nextConn, turnAt, Nat.add_zero, index]
  split <;> rfl

/-- A turn of the rest of the loop is a later turn of the whole loop. -/
theorem turnAt_blitPixel (c : Client B) (v w : Visit) (k : ℕ) :
    turnAt mem fb bgcolor (blitPixel mem fb bgcolor c v).1 k w =
      turnAt mem fb bgcolor c (k + 1) w := by
  have index : ((c.activeConn + 1) % c.numConns + k) % c.numConns =
      (c.activeConn + (k + 1)) % c.numConns := by
    rw [Nat.mod_add_mod]; congr 1; omega
  have skip : ((c.skipReblit + 1) % reblitFrequency + k + 1) % reblitFrequency =
      (c.skipReblit + (k + 1) + 1) % reblitFrequency := by
    simp only [reblitFrequency]; omega
  simp only [turnAt, blitPixel_fst, index, skip]

/-- **The loops, turn by turn.** -/
theorem blitPixels_turns {c : Client B} (ready : c.Ready) (vs : List Visit) :
    (blitPixels mem fb bgcolor c vs).2 =
      vs.mapIdx fun k v => turnAt mem fb bgcolor c k v := by
  induction vs generalizing c with
  | nil => rfl
  | cons v vs ih =>
      have ready' : (blitPixel mem fb bgcolor c v).1.Ready := by
        rw [blitPixel_fst]
        exact Nat.mod_lt _ ready.numConns_pos
      rw [blitPixels, List.mapIdx_cons]
      simp only [ih ready', blitPixel_snd ready, turnAt_blitPixel]

/-- **The loops' statics**: both counters have advanced once per visit, and
nothing else has changed. -/
theorem blitPixels_client {c : Client B} (ready : c.Ready) (vs : List Visit) :
    (blitPixels mem fb bgcolor c vs).1 = after c vs.length := by
  induction vs generalizing c with
  | nil => simp [blitPixels, after, Nat.mod_eq_of_lt (show c.activeConn < c.numConns from ready)]
  | cons v vs ih =>
      have ready' : (blitPixel mem fb bgcolor c v).1.Ready := by
        rw [blitPixel_fst]
        exact Nat.mod_lt _ ready.numConns_pos
      have index : ((c.activeConn + 1) % c.numConns + vs.length) % c.numConns =
          (c.activeConn + (vs.length + 1)) % c.numConns := by
        rw [Nat.mod_add_mod]; congr 1; omega
      have skip : (if vs.length = 0 then (c.skipReblit + 1) % reblitFrequency
            else ((c.skipReblit + 1) % reblitFrequency + vs.length) % reblitFrequency) =
          (c.skipReblit + (vs.length + 1)) % reblitFrequency := by
        simp only [reblitFrequency]; split <;> omega
      change (blitPixels mem fb bgcolor (blitPixel mem fb bgcolor c v).1 vs).1 = _
      rw [ih ready', blitPixel_fst]
      simp only [after, index, skip, List.length_cons, Nat.add_eq_zero_iff,
        one_ne_zero, and_false, if_false]

end Loops

end Kernelflut.Pixelflut
