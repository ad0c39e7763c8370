import Kernelflut.Foundations.Runs
import Kernelflut.Pixelflut.Streams

/-!
# The padding byte

The top byte of an RGB32 word means nothing.  `pf_set_buf` drops it from the
command, and masks it off before it compares with the background colour; but the
comparison with `last_buf` is of whole words, so there it counts.

The subject is a pair of runs whose framebuffers look the same: the same calls,
from the same statics, over memories that agree wherever it is visible
(`PaddedCall`).  `padding_iff` says when no connection can tell the two runs
apart: exactly when, at every pixel whose fate the comparison decides, the words
are equal in both runs or in neither.
-/

namespace Kernelflut.Pixelflut

open FifoDelivery PartialStep

universe u

variable {B : Type u}

/-! ## What a command keeps of a word -/

/-- The channels are cut out of the visible part. -/
theorem ofWord_visible (x y : ℤ) (color : Word) :
    Px.ofWord x y (visible color) = Px.ofWord x y color := by
  have mask : (0x00ffffff : Word) = (BitVec.allOnes 24).setWidth 32 := by decide
  have channel : ∀ s : ℕ, s ≤ 16 →
      (visible color >>> s).setWidth 8 = (color >>> s).setWidth 8 := by
    intro s hs
    ext i hi
    simp only [visible, mask, BitVec.getElem_setWidth, BitVec.getLsbD_ushiftRight,
      BitVec.getLsbD_and, BitVec.getLsbD_setWidth, BitVec.getLsbD_allOnes]
    have inside : s + i < 24 := by omega
    have within : s + i < 32 := by omega
    simp [inside, within]
  simp only [Px.ofWord, Px.setWidth_and_ff, channel 0 (by decide), channel 8 (by decide),
    channel 16 (by decide)]

theorem ofWord_congr {color color' : Word} (same : visible color = visible color')
    (x y : ℤ) : Px.ofWord x y color = Px.ofWord x y color' := by
  rw [← ofWord_visible, same, ofWord_visible]

/-! ## Two runs -/

/-- A call of `pf_set_buf` in both runs, over memories with the same visible
pixels. -/
structure PaddedCall (B : Type u) where
  mem₁ : B → ℤ → Word
  mem₂ : B → ℤ → Word
  fb : B
  width : ℤ
  rect : EvdiRect
  bgcolor : Word
  same_visible : ∀ b i, visible (mem₁ b i) = visible (mem₂ b i)

/-- The call as the first run makes it, and as the second one does. -/
def PaddedCall.first (call : PaddedCall B) : Call B :=
  .setBuf call.mem₁ call.fb call.width call.rect call.bgcolor

def PaddedCall.second (call : PaddedCall B) : Call B :=
  .setBuf call.mem₂ call.fb call.width call.rect call.bgcolor

/-- The two runs side by side: statics and writes. -/
structure TwoRuns (B : Type u) where
  client₁ : Client B
  writes₁ : List (ℕ × List Char)
  client₂ : Client B
  writes₂ : List (ℕ × List Char)

namespace TwoRuns

/-- Both runs start from the same statics. -/
def start (c : Client B) : TwoRuns B where
  client₁ := c
  writes₁ := []
  client₂ := c
  writes₂ := []

def step (s : TwoRuns B) (call : PaddedCall B) : TwoRuns B where
  client₁ := (call.first.transmit s.client₁).1
  writes₁ := s.writes₁ ++ (call.first.transmit s.client₁).2
  client₂ := (call.second.transmit s.client₂).1
  writes₂ := s.writes₂ ++ (call.second.transmit s.client₂).2

/-- No connection can tell the runs apart. -/
def SameStreams (s : TwoRuns B) : Prop :=
  ∀ i, (onChannel s.writes₁ i).flatten = (onChannel s.writes₂ i).flatten

end TwoRuns

/-- **The condition.**  Where the comparison with the last buffer decides whether the
`k`-th pixel is skipped, it comes out the same in both runs. -/
def PaddingAgrees (c : Client B) (call : PaddedCall B) : Prop :=
  ∀ k v last, (pfVisits call.width call.rect)[k]? = some v → c.lastBuf = some last →
    (call.bgcolor = pfNoBgcolor ∨ visible (call.mem₁ call.fb v.i) = call.bgcolor ∨
      (c.skipReblit + k + 1) % reblitFrequency ≠ 0) →
    (call.mem₁ last v.i = call.mem₁ call.fb v.i ↔
      call.mem₂ last v.i = call.mem₂ call.fb v.i)

/-! ## One call in both runs -/

section Call

variable {c : Client B} {call : PaddedCall B}

/-- The skip condition, the comparison apart from the rest. -/
theorem skippedAt_iff {mem : B → ℤ → Word} {fb : B} {bgcolor : Word} {k : ℕ} {v : Visit} :
    SkippedAt mem c fb bgcolor k v ↔
      ∃ last, c.lastBuf = some last ∧ mem last v.i = mem fb v.i ∧
        (bgcolor = pfNoBgcolor ∨ visible (mem fb v.i) = bgcolor ∨
          (c.skipReblit + k + 1) % reblitFrequency ≠ 0) := by
  rw [SkippedAt]
  cases c.lastBuf with
  | none => simp [redundant]
  | some last => simp [redundant, or_assoc]

/-- The condition is that both runs skip the same pixels. -/
theorem paddingAgrees_iff :
    PaddingAgrees c call ↔ ∀ k v, (pfVisits call.width call.rect)[k]? = some v →
      (SkippedAt call.mem₁ c call.fb call.bgcolor k v ↔
        SkippedAt call.mem₂ c call.fb call.bgcolor k v) := by
  simp only [skippedAt_iff, ← call.same_visible]
  constructor
  · intro agrees k v hv
    refine exists_congr fun last => and_congr_right fun hlast => ?_
    exact and_congr_left fun decides => agrees k v last hv hlast decides
  · intro skips k v last hv hlast decides
    have both := skips k v hv
    simpa [hlast, decides] using both

/-- The statics do not depend on what the framebuffers hold. -/
theorem client_congr (ready : c.Ready) :
    (call.first.transmit c).1 = (call.second.transmit c).1 := by
  show (pfSetBuf call.mem₁ c call.fb call.width call.rect call.bgcolor).client =
    (pfSetBuf call.mem₂ c call.fb call.width call.rect call.bgcolor).client
  simp only [pfSetBuf, blitPixels_client ready]
  split
  · split <;> rfl
  · rfl

/-- The requests of a call of `pf_set_buf`. -/
theorem mem_requests_setBuf {mem : B → ℤ → Word} {fb : B} {width : ℤ} {rect : EvdiRect}
    {bgcolor : Word} {w : ℕ × Request} :
    w ∈ (Call.setBuf mem fb width rect bgcolor).requests c ↔
      ∃ k v, (pfVisits width rect)[k]? = some v ∧ ¬ SkippedAt mem c fb bgcolor k v ∧
        w = ((c.activeConn + k) % c.numConns, .px v.x v.y (colourOf (mem fb v.i))) := by
  simp only [Call.requests, List.mem_filterMap, Prod.exists, List.mem_zipIdx_iff_getElem?]
  constructor
  · rintro ⟨v, k, hv, sent⟩
    refine ⟨k, v, hv, ?_⟩
    split at sent
    · cases sent
    · next notSkipped => exact ⟨notSkipped, (Option.some.inj sent).symm⟩
  · rintro ⟨k, v, hv, sent, rfl⟩
    exact ⟨v, k, hv, if_neg sent⟩

/-- Both runs write the same when they skip the same pixels. -/
theorem writes_eq_of_paddingAgrees (ready : c.Ready) (agrees : PaddingAgrees c call) :
    (call.first.transmit c).2 = (call.second.transmit c).2 := by
  have turns : (pfSetBuf call.mem₁ c call.fb call.width call.rect call.bgcolor).turns =
      (pfSetBuf call.mem₂ c call.fb call.width call.rect call.bgcolor).turns := by
    apply List.ext_getElem?
    intro k
    rw [getElem?_turns_pfSetBuf ready, getElem?_turns_pfSetBuf ready]
    refine Option.map_congr fun v hv => ?_
    have skips := paddingAgrees_iff.mp agrees k v hv
    simp only [SkippedAt] at skips
    simp only [turnAt, skips, ofWord_congr (call.same_visible call.fb v.i)]
  show ((sends _).map _ : List (ℕ × List Char)) = (sends _).map _
  rw [turns]

/-- Conversely the streams tell which pixels were sent. -/
theorem paddingAgrees_of_streams (ready : c.Ready)
    (same : ∀ i, (onChannel (call.first.transmit c).2 i).flatten =
      (onChannel (call.second.transmit c).2 i).flatten) : PaddingAgrees c call := by
  have requests : ∀ w, w ∈ call.first.requests c ↔ w ∈ call.second.requests c := by
    rintro ⟨i, request⟩
    have first := decode_of_spells (call.first.spells ready) i
    have second := decode_of_spells (call.second.spells ready) i
    rw [same i, second, Option.some.injEq] at first
    rw [← mem_onChannel, ← mem_onChannel, first]
  rw [paddingAgrees_iff]
  intro k v hv
  -- A pixel sent by one run was sent by the other, and has no second turn.
  have carry : ∀ {mem mem' : B → ℤ → Word},
      ((Call.setBuf mem call.fb call.width call.rect call.bgcolor).requests c ⊆
        (Call.setBuf mem' call.fb call.width call.rect call.bgcolor).requests c) →
      ¬ SkippedAt mem c call.fb call.bgcolor k v →
        ¬ SkippedAt mem' c call.fb call.bgcolor k v := by
    intro mem mem' subset sent
    obtain ⟨j, u, hu, sent', same⟩ :=
      mem_requests_setBuf.mp (subset (mem_requests_setBuf.mpr ⟨k, v, hv, sent, rfl⟩))
    simp only [Prod.mk.injEq, Request.px.injEq] at same
    obtain rfl := turn_unique hv hu (Prod.ext same.2.1 same.2.2.1)
    obtain rfl := Option.some.inj (hv.symm.trans hu)
    exact sent'
  exact not_iff_not.mp ⟨carry fun w => (requests w).mp, carry fun w => (requests w).mpr⟩

end Call

/-! ## Runs -/

/-- The runs have the same statics, and the same streams so far. -/
structure TwoRuns.Alike (s : TwoRuns B) : Prop where
  ready : s.client₁.Ready
  clients : s.client₁ = s.client₂
  streams : s.SameStreams

theorem TwoRuns.alike_start {c : Client B} (ready : c.Ready) : (TwoRuns.start c).Alike :=
  ⟨ready, rfl, fun _ => rfl⟩

section Step

variable {s : TwoRuns B} {call : PaddedCall B}

/-- What a call adds to the streams decides whether they stay the same. -/
theorem TwoRuns.Alike.sameStreams_step_iff (alike : s.Alike) :
    (s.step call).SameStreams ↔ PaddingAgrees s.client₁ call := by
  have added : (s.step call).SameStreams ↔
      ∀ i, (onChannel (call.first.transmit s.client₁).2 i).flatten =
        (onChannel (call.second.transmit s.client₁).2 i).flatten := by
    refine forall_congr' fun i => ?_
    simp only [TwoRuns.step, onChannel_append, List.flatten_append, ← alike.clients,
      alike.streams i, List.append_cancel_left_eq]
  rw [added]
  constructor
  · exact paddingAgrees_of_streams alike.ready
  · intro agrees i
    rw [writes_eq_of_paddingAgrees alike.ready agrees]

theorem TwoRuns.Alike.step (alike : s.Alike) (agrees : PaddingAgrees s.client₁ call) :
    (s.step call).Alike where
  ready := call.first.ready_transmit alike.ready
  clients := by
    show (call.first.transmit s.client₁).1 = (call.second.transmit s.client₂).1
    rw [← alike.clients, client_congr alike.ready]
  streams := alike.sameStreams_step_iff.mpr agrees

end Step

/-- **When the padding stays invisible.**  The streams of the two runs are the same
on every connection after every call exactly when at every call the padding bytes do
not decide a comparison with the last buffer. -/
theorem padding_iff (c : Client B) (ready : c.Ready) (calls : List (PaddedCall B)) :
    EachStep (fun s call => some (TwoRuns.step s call)) (fun _ _ _ s' => s'.SameStreams)
        (TwoRuns.start c) calls ↔
      EachStep (fun s call => some (TwoRuns.step s call))
        (fun _ s call _ => PaddingAgrees s.client₁ call) (TwoRuns.start c) calls := by
  refine eachStep_iff_of_decided (fun _ s => s.Alike) (TwoRuns.alike_start ready) ?_ ?_
  · intro before s call s' _ alike hstep
    obtain rfl := Option.some.inj hstep
    exact alike.sameStreams_step_iff
  · intro before s call s' _ alike hstep agrees
    obtain rfl := Option.some.inj hstep
    exact alike.step agrees

/-- A black frame, blitted over and over: in the second run its padding is `0xff`. -/
def blackFrame (fb : Bool) : PaddedCall Bool where
  mem₁ := fun _ _ => 0
  mem₂ := fun _ _ => 0xff000000
  fb := fb
  width := 1
  rect := ⟨0, 0, 1, 1⟩
  bgcolor := pfNoBgcolor
  same_visible := fun _ _ => by decide

/-- The padding is another one, but the same all over: the runs are the same. -/
theorem padding_blackFrame :
    EachStep (fun s call => some (TwoRuns.step s call)) (fun _ _ _ s' => s'.SameStreams)
      (TwoRuns.start (Client.connected [3])) [blackFrame false, blackFrame true] := by
  refine (padding_iff _ (by decide) _).mpr (eachStep_cons.mpr fun s h => ?_)
  cases h
  refine ⟨?_, eachStep_cons.mpr fun s h => ?_⟩
  · intro k v last _ hlast
    cases hlast
  · cases h
    refine ⟨fun k v last _ _ _ => ?_, eachStep_nil _⟩
    exact iff_of_true rfl rfl

/-- Two frames that look the same, in two buffers: in the second run only the padding
of the second differs. -/
def repadded (fb : Bool) : PaddedCall Bool where
  mem₁ := fun _ _ => 0
  mem₂ := fun b _ => if b then 0xff000000 else 0
  fb := fb
  width := 1
  rect := ⟨0, 0, 1, 1⟩
  bgcolor := pfNoBgcolor
  same_visible := fun b _ => by cases b <;> decide

/-- The second frame is skipped in the first run, and sent in the second one. -/
theorem padding_shows :
    ¬ ∀ (c : Client Bool) (calls : List (PaddedCall Bool)), c.Ready →
      EachStep (fun s call => some (TwoRuns.step s call)) (fun _ _ _ s' => s'.SameStreams)
        (TwoRuns.start c) calls := by
  intro claim
  obtain ⟨_, -, -, same⟩ := EachStep.last [repadded false]
    (claim (Client.connected [3]) [repadded false, repadded true] (by decide)) rfl
  exact absurd (same 0) (by decide)

end Kernelflut.Pixelflut
