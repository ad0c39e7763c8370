import Mathlib.Data.List.Basic
import Mathlib.Logic.Function.Basic

/-!
# Overwriting a map by a list of writes

A *write* is a key and a value; `overwrite c ws` applies the writes of `ws` to
the map `c` one after the other.  What a key ends up with is the value of the
last write to it, so everything below is about the writes of one key.

The useful special case is a list whose writes `Carry` a target map: every
write stores, at its key, what the target has there.  Such a list may be
applied in any order and any number of times over; a key shows the target if it
was written at all, and its old value otherwise (`overwrite_of_carry`).
-/

namespace Overwrites

universe u v

variable {κ : Type u} {γ : Type v} [DecidableEq κ]

/-- Apply the writes of `ws` to `c`, first to last. -/
def overwrite (c : κ → γ) (ws : List (κ × γ)) : κ → γ :=
  ws.foldl (fun c w => Function.update c w.1 w.2) c

@[simp] theorem overwrite_cons (c : κ → γ) (w : κ × γ) (ws : List (κ × γ)) :
    overwrite c (w :: ws) = overwrite (Function.update c w.1 w.2) ws := rfl

theorem overwrite_append (c : κ → γ) (ws ws' : List (κ × γ)) :
    overwrite c (ws ++ ws') = overwrite (overwrite c ws) ws' := by
  simp [overwrite, List.foldl_append]

/-- A key nobody writes keeps its value. -/
theorem overwrite_of_notMem {c : κ → γ} {ws : List (κ × γ)} {k : κ}
    (h : k ∉ ws.map Prod.fst) : overwrite c ws k = c k := by
  induction ws generalizing c with
  | nil => rfl
  | cons w ws ih =>
      simp only [List.map_cons, List.mem_cons, not_or] at h
      rw [overwrite_cons, ih h.2, Function.update_of_ne h.1]

/-- A key whose writes all store `v`, and which is written, ends up with `v`. -/
theorem overwrite_of_forall {c : κ → γ} {ws : List (κ × γ)} {k : κ} {v : γ}
    (written : k ∈ ws.map Prod.fst) (h : ∀ w ∈ ws, w.1 = k → w.2 = v) :
    overwrite c ws k = v := by
  induction ws generalizing c with
  | nil => simp at written
  | cons w ws ih =>
      rw [overwrite_cons]
      -- Either a later write decides, or this is the last one.
      by_cases later : k ∈ ws.map Prod.fst
      · exact ih later fun w' hw' => h w' (List.mem_cons_of_mem _ hw')
      · have here : k = w.1 := by simpa [later] using written
        rw [overwrite_of_notMem later, here, Function.update_self]
        exact h w List.mem_cons_self here.symm

/-- A key's outcome depends on the map only through that key. -/
theorem overwrite_congr_at {c d : κ → γ} {k : κ} (ws : List (κ × γ))
    (h : c k = d k) : overwrite c ws k = overwrite d ws k := by
  induction ws generalizing c d with
  | nil => exact h
  | cons w ws ih =>
      refine ih ?_
      by_cases here : k = w.1
      · subst here; simp
      · simp [Function.update_of_ne here, h]

/-- Only the writes of a key matter to it, in their order. -/
theorem overwrite_filter (c : κ → γ) (ws : List (κ × γ)) (k : κ) :
    overwrite c (ws.filter fun w => w.1 = k) k = overwrite c ws k := by
  induction ws generalizing c with
  | nil => rfl
  | cons w ws ih =>
      by_cases here : w.1 = k
      · rw [List.filter_cons_of_pos (by simpa using here), overwrite_cons,
          overwrite_cons, ih]
      · rw [List.filter_cons_of_neg (by simpa using here), ih, overwrite_cons]
        exact overwrite_congr_at ws
          (Function.update_of_ne (Ne.symm here) _ _).symm

theorem overwrite_congr_filter {c : κ → γ} {ws ws' : List (κ × γ)} {k : κ}
    (h : (ws.filter fun w => w.1 = k) = ws'.filter fun w => w.1 = k) :
    overwrite c ws k = overwrite c ws' k := by
  rw [← overwrite_filter c ws, h, overwrite_filter]

/-! ## Lists of writes that carry a target -/

/-- Every write stores what `target` has at its key. -/
def Carry (target : κ → γ) (ws : List (κ × γ)) : Prop :=
  ∀ w ∈ ws, w.2 = target w.1

omit [DecidableEq κ] in
theorem Carry.perm {target : κ → γ} {ws ws' : List (κ × γ)}
    (h : Carry target ws) (perm : ws'.Perm ws) : Carry target ws' :=
  fun w hw => h w (perm.mem_iff.mp hw)

/-- **Writes that carry a target**: a written key shows the target, any other
key keeps its value. -/
theorem overwrite_of_carry {c target : κ → γ} {ws : List (κ × γ)}
    (h : Carry target ws) (k : κ) :
    overwrite c ws k = if k ∈ ws.map Prod.fst then target k else c k := by
  split
  · next written =>
      refine overwrite_of_forall written fun w hw hk => ?_
      rw [h w hw, hk]
  · next unwritten => exact overwrite_of_notMem unwritten

/-- **A patch.**  When the writes carry `target`, stay inside `S`, and leave
unwritten only those keys of `S` where the map already agrees with `target`,
the map agrees with `target` on `S` afterwards and is unchanged off `S`, in
whatever order they are applied. -/
theorem overwrite_patch {c target : κ → γ} {ws order : List (κ × γ)} {S : Set κ}
    (carry : Carry target ws) (inside : ∀ w ∈ ws, w.1 ∈ S)
    (skipped : ∀ k ∈ S, k ∉ ws.map Prod.fst → c k = target k)
    (perm : order.Perm ws) :
    (∀ k ∈ S, overwrite c order k = target k) ∧
      ∀ k ∉ S, overwrite c order k = c k := by
  have keys : ∀ k, k ∈ order.map Prod.fst ↔ k ∈ ws.map Prod.fst :=
    fun k => (perm.map Prod.fst).mem_iff
  constructor
  · intro k hk
    rw [overwrite_of_carry (carry.perm perm)]
    split
    · rfl
    · next unwritten => exact skipped k hk (by rwa [keys] at unwritten)
  · intro k hk
    refine overwrite_of_notMem fun written => hk ?_
    obtain ⟨w, hw, rfl⟩ := List.mem_map.mp ((keys k).mp written)
    exact inside w hw

end Overwrites
