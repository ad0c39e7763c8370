import Kernelflut.Foundations.CyclicTurns
import Kernelflut.Pixelflut.Contract
import Mathlib.RingTheory.Coprime.Lemmas
import Mathlib.Tactic.NormNum.Prime

/-!
# The periodic repaint

In background mode an unchanged pixel is sent all the same when the counter
`skip_reblit`, which every turn advances, comes to zero modulo
`REBLIT_FREQUENCY`.  While the picture stands still that is the only thing sent,
and the counter alone decides which pixels: the `k`-th pixel of call `t` is sent
when `skip_reblit + k + 1 + t * area` is a multiple of 23.

`repaint_law` draws the consequences.  Background pixels are never sent.  When
23 does not divide the area the counter comes around, and 23 calls repaint
every other pixel exactly once; when it does, every call sends the same pixels
and the rest is never repaired.
-/

namespace Kernelflut.Pixelflut

open CyclicTurns Overwrites

universe u

variable {B : Type u} {mem : B → ℤ → Word} {fb last : B} {w : ℤ → Word} {width : ℤ}
  {rect : EvdiRect} {bgcolor : Word} {c : Client B}

/-- The pixels a call sends. -/
def Blit.sent (blit : Blit B) : List Pos := (commands blit.turns).map Px.pos

/-- One call of a run: the buffer it blits, and what the buffers hold
meanwhile. -/
structure BlitCall (B : Type u) where
  mem : B → ℤ → Word
  fb : B

/-- Consecutive calls on one rectangle. -/
def blitRun (width : ℤ) (rect : EvdiRect) (bgcolor : Word) :
    Client B → List (BlitCall B) → List (Blit B)
  | _, [] => []
  | c, call :: calls =>
      let blit := pfSetBuf call.mem c call.fb width rect bgcolor
      blit :: blitRun width rect bgcolor blit.client calls

/-- The buffer holds the words `w` on the rectangle. -/
def Holds (w : ℤ → Word) (width : ℤ) (rect : EvdiRect) (buf : ℤ → Word) : Prop :=
  ∀ p ∈ rect.pixels, buf (p.2 * width + p.1) = w (p.2 * width + p.1)

/-- During all the calls, the buffers they blit and the one blitted before them
hold the words `w` on the rectangle. -/
def StandsStill (w : ℤ → Word) (width : ℤ) (rect : EvdiRect) (last : B)
    (calls : List (BlitCall B)) : Prop :=
  ∀ call ∈ calls, ∀ b ∈ last :: calls.map BlitCall.fb, Holds w width rect (call.mem b)

/-! ## One call -/

/-- **A call that repeats the picture** sends the pixels that are not background
and have the counter at zero. -/
theorem mem_sent_iff_counter (ready : c.Ready) (hy1 : 0 ≤ rect.y1)
    (mode : bgcolor ≠ pfNoBgcolor) (hlast : c.lastBuf = some last)
    (old : Holds w width rect (mem last)) (new : Holds w width rect (mem fb))
    {k : ℕ} {v : Visit} (hv : (pfVisits width rect)[k]? = some v) :
    v.pos ∈ (pfSetBuf mem c fb width rect bgcolor).sent ↔
      visible (w v.i) ≠ bgcolor ∧ (c.skipReblit + k + 1) % reblitFrequency = 0 := by
  obtain ⟨inside, index⟩ := pixel_of_turn hy1 hv
  have oldWord : mem last v.i = w v.i := by rw [index]; exact old v.pos inside
  have newWord : mem fb v.i = w v.i := by rw [index]; exact new v.pos inside
  have own : v.pos ∈ (pfSetBuf mem c fb width rect bgcolor).sent ↔
      ¬ SkippedAt mem c fb bgcolor k v := by
    rw [Blit.sent, mem_map_pos_commands_pfSetBuf ready]
    constructor
    · rintro ⟨j, u, hu, same, sent⟩
      obtain rfl := turn_unique hu hv same
      obtain rfl := Option.some.inj (hu.symm.trans hv)
      exact sent
    · exact fun sent => ⟨k, v, hv, rfl, sent⟩
  rw [own, SkippedAt, newWord]
  rcases eq_or_ne (visible (w v.i)) bgcolor with bg | other
  · have kept : ∃ b, c.lastBuf = some b ∧ mem b v.i = w v.i := ⟨last, hlast, oldWord⟩
    simp [redundant_background bg, kept, bg]
  · rw [redundant_repaint mode other hlast oldWord, not_not]
    exact ⟨fun turn => ⟨other, turn⟩, And.right⟩

/-- Whatever a call sends for a pixel, it is the picture. -/
theorem colour_of_mem_commands (ready : c.Ready) (hy1 : 0 ≤ rect.y1)
    (new : Holds w width rect (mem fb)) {px : Px}
    (hpx : px ∈ commands (pfSetBuf mem c fb width rect bgcolor).turns) :
    px.colour = picture w width px.pos := by
  rw [picture, ← new px.pos (pos_mem_pixels_of_mem_commands ready hy1 hpx)]
  exact carry_commands_pfSetBuf ready hy1 px.write (List.mem_map_of_mem hpx)

/-! ## Runs -/

/-- **The `t`-th call of a run** starts with a usable pool, the counter `t` areas
further on, and one of the buffers of the run as the last. -/
theorem exists_call_of_blitRun (ready : c.Ready) (hy1 : 0 ≤ rect.y1)
    (hlast : c.lastBuf = some last) {calls : List (BlitCall B)} {t : ℕ} {blit : Blit B}
    (h : (blitRun width rect bgcolor c calls)[t]? = some blit) :
    ∃ call ∈ calls, ∃ c' : Client B, ∃ b ∈ last :: calls.map BlitCall.fb,
      c'.Ready ∧ c'.lastBuf = some b ∧
        c'.skipReblit % reblitFrequency =
          (c.skipReblit + t * rect.area) % reblitFrequency ∧
        blit = pfSetBuf call.mem c' call.fb width rect bgcolor := by
  induction calls generalizing c last t with
  | nil => simp [blitRun] at h
  | cons call calls ih =>
      cases t with
      | zero =>
          refine ⟨call, List.mem_cons_self, c, last, List.mem_cons_self, ready, hlast, ?_,
            (Option.some.inj h).symm⟩
          rw [Nat.zero_mul, Nat.add_zero]
      | succ t =>
          have ready' := pfSetBuf_ready call.mem call.fb width rect bgcolor ready
          obtain ⟨-, -, -, -, skip⟩ :=
            pfSetBuf_counters call.mem call.fb width rect bgcolor ready
          rw [length_pfVisits hy1] at skip
          -- The call that ends the performance test leaves `last_buf` alone.
          have later : ∃ b ∈ [last, call.fb],
              (pfSetBuf call.mem c call.fb width rect bgcolor).client.lastBuf = some b := by
            rcases pfSetBuf_lastBuf_or _ _ _ _ _ ready with new | old
            · exact ⟨call.fb, by simp, new⟩
            · exact ⟨last, by simp, old.trans hlast⟩
          obtain ⟨b, hb, hlast'⟩ := later
          obtain ⟨call', hcall', c', b', hb', ready'', last'', skip', rfl⟩ :=
            ih ready' hlast' h
          refine ⟨call', List.mem_cons_of_mem _ hcall', c', b', ?_, ready'', last'', ?_, rfl⟩
          · simp only [List.mem_cons, List.not_mem_nil, or_false, List.map_cons] at hb hb' ⊢
            rcases hb' with rfl | hb'
            · exact hb.imp_right Or.inl
            · exact Or.inr (Or.inr hb')
          · rw [skip', skip, Nat.succ_mul]
            split
            · next empty => rw [empty]; simp
            · rw [Nat.mod_add_mod]; congr 1; omega

section Run

variable {calls : List (BlitCall B)}

/-- **Who is sent when**: what is due, and no background. -/
theorem mem_sent_iff_due (ready : c.Ready) (hy1 : 0 ≤ rect.y1)
    (mode : bgcolor ≠ pfNoBgcolor) (hlast : c.lastBuf = some last)
    (still : StandsStill w width rect last calls) {t : ℕ} {blit : Blit B}
    (h : (blitRun width rect bgcolor c calls)[t]? = some blit) {k : ℕ} {v : Visit}
    (hv : (pfVisits width rect)[k]? = some v) :
    v.pos ∈ blit.sent ↔ visible (w v.i) ≠ bgcolor ∧
      Due reblitFrequency rect.area (c.skipReblit + k + 1) t := by
  obtain ⟨call, hcall, c', b, hb, ready', last', skip, rfl⟩ :=
    exists_call_of_blitRun ready hy1 hlast h
  have known : call.fb ∈ last :: calls.map BlitCall.fb :=
    List.mem_cons_of_mem _ (List.mem_map_of_mem hcall)
  rw [mem_sent_iff_counter ready' hy1 mode last' (still call hcall b hb)
    (still call hcall _ known) hv, Due, Nat.add_assoc, Nat.add_mod, skip,
    ← Nat.add_mod]
  refine and_congr_right fun _ => ?_
  rw [show c.skipReblit + t * rect.area + (k + 1) =
    c.skipReblit + k + 1 + t * rect.area by omega]

/-- What is sent in a run is the picture. -/
theorem colour_of_mem_commandsOf (ready : c.Ready) (hy1 : 0 ≤ rect.y1)
    (hlast : c.lastBuf = some last) (still : StandsStill w width rect last calls)
    {px : Px} (hpx : px ∈ commandsOf (blitRun width rect bgcolor c calls)) :
    px.colour = picture w width px.pos := by
  obtain ⟨blit, hblit, hpx⟩ := List.mem_flatMap.mp hpx
  obtain ⟨t, ht⟩ := List.getElem?_of_mem hblit
  obtain ⟨call, hcall, c', b, hb, ready', last', skip, rfl⟩ :=
    exists_call_of_blitRun ready hy1 hlast ht
  exact colour_of_mem_commands ready' hy1 (still call hcall _
    (List.mem_cons_of_mem _ (List.mem_map_of_mem hcall))) hpx

theorem sent_nodup_of_blitRun (ready : c.Ready) (hy1 : 0 ≤ rect.y1)
    (hlast : c.lastBuf = some last) {blit : Blit B}
    (h : blit ∈ blitRun width rect bgcolor c calls) : blit.sent.Nodup := by
  obtain ⟨t, ht⟩ := List.getElem?_of_mem h
  obtain ⟨_, -, _, _, -, -, -, -, rfl⟩ := exists_call_of_blitRun ready hy1 hlast ht
  exact commands_pfSetBuf_nodup

theorem isCoprime_reblitFrequency {n : ℕ} (indivisible : ¬ reblitFrequency ∣ n) :
    IsCoprime (n : ℤ) reblitFrequency := by
  have prime : Nat.Prime reblitFrequency := by norm_num [reblitFrequency]
  exact Nat.isCoprime_iff_coprime.mpr
    (Nat.coprime_comm.mp ((Nat.Prime.coprime_iff_not_dvd prime).mpr indivisible))

/-- **Once in 23 calls**, when the counter comes around. -/
theorem count_sent_window (ready : c.Ready) (hy1 : 0 ≤ rect.y1)
    (mode : bgcolor ≠ pfNoBgcolor) (hlast : c.lastBuf = some last)
    (still : StandsStill w width rect last calls)
    (indivisible : ¬ reblitFrequency ∣ rect.area) {before window after : List (Blit B)}
    (split : blitRun width rect bgcolor c calls = before ++ window ++ after)
    (length : window.length = reblitFrequency) {p : Pos} (hp : p ∈ rect.pixels)
    (other : visible (w (p.2 * width + p.1)) ≠ bgcolor) :
    (window.flatMap Blit.sent).count p = 1 := by
  obtain ⟨k, hk⟩ := exists_turn width hy1 hp
  have inRun : ∀ t < reblitFrequency,
      (blitRun width rect bgcolor c calls)[before.length + t]? = window[t]? := by
    intro t ht
    rw [split, List.getElem?_append_left (by rw [List.length_append]; omega),
      List.getElem?_append_right (by omega), Nat.add_sub_cancel_left]
  refine count_flatMap_eq_one (fun blit hblit => ?_) ?_
  · exact sent_nodup_of_blitRun ready hy1 hlast (by rw [split]; simp [hblit])
  · -- The window's calls are counted from its first one.
    refine (existsUnique_congr fun t => ?_).mpr (existsUnique_due (by decide)
      (isCoprime_reblitFrequency indivisible)
      (c.skipReblit + k + 1 + before.length * rect.area))
    rw [← due_add]
    constructor
    · rintro ⟨blit, hblit, sent⟩
      have ht : t < reblitFrequency :=
        length ▸ (List.getElem?_eq_some_iff.mp hblit).1
      rw [← inRun t ht] at hblit
      exact ⟨ht, ((mem_sent_iff_due ready hy1 mode hlast still hblit hk).mp sent).2⟩
    · rintro ⟨ht, due⟩
      have bound : t < window.length := ht.trans_eq length.symm
      have hblit := (inRun t ht).trans (List.getElem?_eq_getElem bound)
      exact ⟨_, List.getElem?_eq_getElem bound,
        (mem_sent_iff_due ready hy1 mode hlast still hblit hk).mpr ⟨other, due⟩⟩

/-- **The same pixels every time**, when the counter stands still. -/
theorem sent_again (ready : c.Ready) (hy1 : 0 ≤ rect.y1) (mode : bgcolor ≠ pfNoBgcolor)
    (hlast : c.lastBuf = some last) (still : StandsStill w width rect last calls)
    (divides : reblitFrequency ∣ rect.area) {blit blit' : Blit B}
    (hblit : blit ∈ blitRun width rect bgcolor c calls)
    (hblit' : blit' ∈ blitRun width rect bgcolor c calls) {p : Pos}
    (sent : p ∈ blit.sent) : p ∈ blit'.sent := by
  obtain ⟨s, hs⟩ := List.getElem?_of_mem hblit
  obtain ⟨t, ht⟩ := List.getElem?_of_mem hblit'
  have hp : p ∈ rect.pixels := by
    obtain ⟨_, -, _, _, -, ready', -, -, rfl⟩ := exists_call_of_blitRun ready hy1 hlast hs
    obtain ⟨px, hpx, rfl⟩ := List.mem_map.mp sent
    exact pos_mem_pixels_of_mem_commands ready' hy1 hpx
  obtain ⟨k, hk⟩ := exists_turn width hy1 hp
  obtain ⟨other, due⟩ := (mem_sent_iff_due ready hy1 mode hlast still hs hk).mp sent
  exact (mem_sent_iff_due ready hy1 mode hlast still ht hk).mpr
    ⟨other, (due_iff_of_dvd divides s t).mp due⟩

end Run

/-- **The law of the periodic repaint**, in background mode and while the picture
stands still.  Background pixels are never sent.  If 23 does not divide the
area, any 23 consecutive calls send every other pixel once, after which the
server shows it whatever it showed before.  If 23 divides the area, all calls
send the same pixels. -/
theorem repaint_law (width : ℤ) (rect : EvdiRect) (bgcolor : Word) (c : Client B)
    (last : B) (w : ℤ → Word) (calls : List (BlitCall B)) (ready : c.Ready)
    (hy1 : 0 ≤ rect.y1) (mode : bgcolor ≠ pfNoBgcolor) (hlast : c.lastBuf = some last)
    (still : StandsStill w width rect last calls) :
    let blits := blitRun width rect bgcolor c calls
    (∀ p ∈ rect.pixels, visible (w (p.2 * width + p.1)) = bgcolor →
      ∀ blit ∈ blits, p ∉ blit.sent) ∧
    (¬ reblitFrequency ∣ rect.area →
      ∀ before window after, blits = before ++ window ++ after →
        window.length = reblitFrequency →
          ∀ p ∈ rect.pixels, visible (w (p.2 * width + p.1)) ≠ bgcolor →
            (window.flatMap Blit.sent).count p = 1 ∧
            ∀ (canvas : Canvas) (order : List Px), order.Perm (commandsOf window) →
              overwrite canvas (writes order) p = picture w width p) ∧
    (reblitFrequency ∣ rect.area →
      ∀ blit ∈ blits, ∀ blit' ∈ blits, ∀ p, p ∈ blit.sent ↔ p ∈ blit'.sent) := by
  intro blits
  refine ⟨?_, ?_, ?_⟩
  · intro p hp bg blit hblit sent
    obtain ⟨t, ht⟩ := List.getElem?_of_mem hblit
    obtain ⟨k, hk⟩ := exists_turn width hy1 hp
    exact ((mem_sent_iff_due ready hy1 mode hlast still ht hk).mp sent).1 bg
  · intro indivisible before window after split length p hp other
    have once := count_sent_window ready hy1 mode hlast still indivisible split length hp
      other
    refine ⟨once, fun canvas order perm => ?_⟩
    refine overwrite_of_forall ?_ fun write hwrite here => ?_
    · rw [map_fst_writes, (perm.map Px.pos).mem_iff, commandsOf, List.map_flatMap]
      exact List.count_pos_iff.mp (once.symm ▸ Nat.one_pos)
    · obtain ⟨px, hpx, rfl⟩ := List.mem_map.mp hwrite
      rw [Px.write_fst] at here
      have inRun : px ∈ commandsOf blits := by
        rw [split, commandsOf_append, commandsOf_append]
        simp [perm.mem_iff.mp hpx]
      rw [Px.write_snd, ← here]
      exact colour_of_mem_commandsOf ready hy1 hlast still inRun
  · intro divides blit hblit blit' hblit' p
    exact ⟨sent_again ready hy1 mode hlast still divides hblit hblit',
      sent_again ready hy1 mode hlast still divides hblit' hblit⟩

/-- A blue pixel on two buffers, blitted 23 times with `-b 004080`: it is sent
once. -/
theorem repaint_law_one_pixel :
    let c : Client Bool :=
      { (Client.connected [3] : Client Bool) with lastBuf := some false }
    let calls := List.replicate 23 (⟨fun _ _ => 0xff, true⟩ : BlitCall Bool)
    ((blitRun 800 ⟨0, 0, 1, 1⟩ 0x004080 c calls).flatMap Blit.sent).count (0, 0) = 1 := by
  intro c calls
  have still : StandsStill (fun _ => 0xff) 800 ⟨0, 0, 1, 1⟩ false calls := by
    intro call hcall b _ p _
    rw [List.eq_of_mem_replicate hcall]
  have law := repaint_law 800 ⟨0, 0, 1, 1⟩ 0x004080 c false (fun _ => 0xff) calls
    (by decide) (by decide) (by decide) rfl still
  exact (law.2.1 (by decide) [] _ [] (List.append_nil _).symm (by decide) (0, 0)
    (by decide) (by decide)).1

end Kernelflut.Pixelflut
