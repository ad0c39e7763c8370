import Mathlib.Data.Set.Lattice
import Mathlib.Logic.Relation

/-!
# Mirrors kept by marking damage

A *source* is redrawn at will, and a *mirror* is kept of it by transferring only the
positions that are known to be damaged.  Whoever draws marks what was drawn, some
time after; a transfer takes all the positions marked so far, copies them one by one
while the drawing goes on, and delivers the copies, or fails.

At each moment some positions may be wrong in the mirror, and the point of such a
protocol is to know which: those drawn and not yet marked, those marked and not yet
taken, those taken and not yet copied, and those that a failed transfer lost.
`Faithful` says that these are all, and `Steps.faithful` that it stays so, in any
interleaving.

A copy need not be of the source as it is: it is enough that the position is marked
again, or will be (`Step.copy`).  A copy that is put together in several passes is one
such step, at the last of them.
-/

namespace Mirroring

universe u v

/-- `staged` are the copies of the transfer under way. -/
@[ext] structure State (P : Type u) (V : Type v) where
  source : P → V
  mirror : P → V
  unmarked : Set P
  dirty : Set P
  taken : Set P
  staged : P → Option V
  lost : Set P

variable {P : Type u} {V : Type v}

namespace State

/-- What a position shows once the copies are delivered. -/
def shown (s : State P V) (p : P) : V := (s.staged p).getD (s.mirror p)

/-- Where the mirror may be wrong, and it is known. -/
def Pending (s : State P V) : Set P := s.unmarked ∪ s.dirty ∪ s.taken ∪ s.lost

def Faithful (s : State P V) : Prop := ∀ p ∉ s.Pending, s.shown p = s.source p

theorem mem_pending {s : State P V} {p : P} :
    p ∈ s.Pending ↔ ((p ∈ s.unmarked ∨ p ∈ s.dirty) ∨ p ∈ s.taken) ∨ p ∈ s.lost := Iff.rfl

end State

/-- One step of the drawing, the marking or the transfer. -/
inductive Step (s : State P V) : State P V → Prop
  | draw (source : P → V) (drawn : Set P) (outside : ∀ p ∉ drawn, source p = s.source p) :
      Step s { s with source, unmarked := s.unmarked ∪ drawn }
  /-- More may be marked than was drawn, and less than was drawn be known to be. -/
  | mark (unmarked dirty : Set P) (more : s.dirty ⊆ dirty)
      (kept : s.unmarked ⊆ unmarked ∪ dirty) :
      Step s { s with unmarked, dirty }
  /-- More may be taken than was marked. -/
  | take (taken : Set P) (all : s.taken ∪ s.dirty ⊆ taken) :
      Step s { s with dirty := ∅, taken }
  /-- What was lost is found again when it is copied. -/
  | copy (copied : Set P) (staged : P → Option V)
      (current : ∀ p ∈ copied, ∃ value, staged p = some value ∧
        (value = s.source p ∨ p ∈ s.unmarked ∪ s.dirty))
      (other : ∀ p ∉ copied, staged p = s.staged p) :
      Step s { s with staged, taken := s.taken \ copied, lost := s.lost \ copied }
  | deliver (complete : s.taken = ∅) :
      Step s { s with mirror := s.shown, staged := fun _ => none }
  /-- The transfer goes on, or ends, without what was to be copied yet. -/
  | fail (staged : P → Option V) (lost : Set P)
      (all : s.lost ∪ s.taken ∪ {p | staged p ≠ s.staged p} ⊆ lost) :
      Step s { s with taken := ∅, staged, lost }

abbrev Steps : State P V → State P V → Prop := Relation.ReflTransGen Step

/-- One case per step: no position stops being pending while it is wrong. -/
theorem Step.faithful {s t : State P V} (h : Step s t) (before : s.Faithful) :
    t.Faithful := by
  intro p hp
  rw [State.mem_pending] at hp
  simp only [not_or] at hp
  obtain ⟨⟨⟨unmarked, dirty⟩, taken⟩, lost⟩ := hp
  have unchanged : p ∉ s.unmarked → p ∉ s.dirty → p ∉ s.taken → p ∉ s.lost →
      s.shown p = s.source p := fun hu hd ht hl =>
    before p (by simp only [State.mem_pending, not_or]; exact ⟨⟨⟨hu, hd⟩, ht⟩, hl⟩)
  cases h with
  | draw source drawn outside =>
      have notDrawn : p ∉ drawn := fun h => unmarked (Or.inr h)
      exact (unchanged (fun h => unmarked (Or.inl h)) dirty taken lost).trans
        (outside p notDrawn).symm
  | mark unmarked' dirty' more kept =>
      exact unchanged (fun h => (kept h).elim unmarked dirty)
        (fun h => dirty (more h)) taken lost
  | take taken' all =>
      exact unchanged unmarked (fun h => taken (all (Or.inr h)))
        (fun h => taken (all (Or.inl h)))
        lost
  | copy copied staged current other =>
      by_cases here : p ∈ copied
      · obtain ⟨value, isStaged, fresh⟩ := current p here
        show (staged p).getD (s.mirror p) = s.source p
        rw [isStaged]
        -- A stale copy would be pending.
        refine fresh.resolve_right ?_
        rintro (h | h)
        · exact unmarked h
        · exact dirty h
      · have := unchanged unmarked dirty (fun h => taken ⟨h, here⟩)
          (fun h => lost ⟨h, here⟩)
        show (staged p).getD (s.mirror p) = s.source p
        rw [other p here]
        exact this
  | deliver complete =>
      exact unchanged unmarked dirty (by rw [complete]; exact Set.notMem_empty p) lost
  | fail staged lost' all =>
      have notTaken : p ∉ s.taken := fun h => lost (all (Or.inl (Or.inr h)))
      have same : staged p = s.staged p := by
        by_contra h
        exact lost (all (Or.inr h))
      have := unchanged unmarked dirty notTaken fun h => lost (all (Or.inl (Or.inl h)))
      show (staged p).getD (s.mirror p) = s.source p
      rw [same]
      exact this

/-- **The mirror is faithful** in every interleaving of drawing, marking and
transfers. -/
theorem Steps.faithful {s t : State P V} (h : Steps s t) (start : s.Faithful) :
    t.Faithful := by
  induction h with
  | refl => exact start
  | tail _ step ih => exact step.faithful ih

end Mirroring
