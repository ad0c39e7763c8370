import Mathlib.Algebra.BigOperators.Group.List.Basic
import Mathlib.Algebra.Order.Ring.Int
import Mathlib.Data.List.Perm.Basic
import Mathlib.Data.Set.Lattice

/-!
# Lists that shrink by merging

A bounded table of items makes room by replacing two of them with a single one
that stands for both, their `join`.  The order of the items does not matter.
`Merges join ok xs ys` says that `ys` is what some number of such replacements
leave of `xs`, each of them for a pair that was `ok` to replace.

An algorithm that merges in whatever order it likes is shown to be a `Merges`
once.  The rules then give what all of them share: nothing is lost
(`Merges.subset_cover`), the table does not grow, and a measure that no `ok`
replacement increases is not increased.

`swapRemove` is the usual way to take an item out of an unordered array.
-/

namespace Merging

open scoped List

universe u v

variable {R : Type u}

/-- What merging makes of a list. -/
inductive Merges (join : R → R → R) (ok : R → R → Prop) : List R → List R → Prop
  | perm {xs ys : List R} : xs.Perm ys → Merges join ok xs ys
  | merge {xs ys rest : List R} {a b : R} : xs.Perm (a :: b :: rest) → ok a b →
      Merges join ok (join a b :: rest) ys → Merges join ok xs ys

section Rules

variable {join : R → R → R} {ok : R → R → Prop} {xs ys zs : List R}

theorem Merges.refl (xs : List R) : Merges join ok xs xs := .perm (.refl xs)

theorem Merges.of_perm_left (perm : xs.Perm ys) (h : Merges join ok ys zs) :
    Merges join ok xs zs := by
  cases h with
  | perm perm' => exact .perm (perm.trans perm')
  | merge perm' isOk rest => exact .merge (perm.trans perm') isOk rest

theorem Merges.trans (h : Merges join ok xs ys) (h' : Merges join ok ys zs) :
    Merges join ok xs zs := by
  induction h with
  | perm perm => exact h'.of_perm_left perm
  | merge perm isOk _ ih => exact .merge perm isOk (ih h')

theorem Merges.mono {ok' : R → R → Prop} (imp : ∀ a b, ok a b → ok' a b)
    (h : Merges join ok xs ys) : Merges join ok' xs ys := by
  induction h with
  | perm perm => exact .perm perm
  | merge perm isOk _ ih => exact .merge perm (imp _ _ isOk) ih

theorem Merges.length_le (h : Merges join ok xs ys) : ys.length ≤ xs.length := by
  induction h with
  | perm perm => exact perm.length_eq.ge
  | merge perm _ _ ih =>
      rw [perm.length_eq]
      exact ih.trans (Nat.le_succ _)

/-- What joins keep, merging keeps. -/
theorem Merges.forall_mem {P : R → Prop} (closed : ∀ a b, P a → P b → P (join a b))
    (h : Merges join ok xs ys) (all : ∀ x ∈ xs, P x) : ∀ y ∈ ys, P y := by
  induction h with
  | perm perm => exact fun y hy => all y (perm.mem_iff.mpr hy)
  | @merge xs ys rest a b perm _ _ ih =>
      have all' : ∀ x ∈ a :: b :: rest, P x := fun x hx => all x (perm.mem_iff.mpr hx)
      refine ih fun x hx => ?_
      rcases List.mem_cons.mp hx with rfl | hx
      · exact closed a b (all' a List.mem_cons_self)
          (all' b (List.mem_cons_of_mem _ List.mem_cons_self))
      · exact all' x (List.mem_cons_of_mem _ (List.mem_cons_of_mem _ hx))

/-- **The measure** does not grow. -/
theorem Merges.sum_le {cost : R → ℤ}
    (cheaper : ∀ a b, ok a b → cost (join a b) ≤ cost a + cost b)
    (h : Merges join ok xs ys) : (ys.map cost).sum ≤ (xs.map cost).sum := by
  induction h with
  | perm perm => exact (perm.map cost).sum_eq.ge
  | @merge xs ys rest a b perm isOk _ ih =>
      calc (ys.map cost).sum
          ≤ ((join a b :: rest).map cost).sum := ih
        _ = cost (join a b) + (rest.map cost).sum := by rw [List.map_cons, List.sum_cons]
        _ ≤ cost a + cost b + (rest.map cost).sum := by
            have := cheaper a b isOk
            omega
        _ = ((a :: b :: rest).map cost).sum := by
            rw [List.map_cons, List.map_cons, List.sum_cons, List.sum_cons, Int.add_assoc]
        _ = (xs.map cost).sum := (perm.map cost).sum_eq.symm

end Rules

/-! ## What the items stand for -/

section Cover

variable {α : Type v} (extent : R → Set α)

/-- All that the items stand for together. -/
def cover (xs : List R) : Set α := {p | ∃ x ∈ xs, p ∈ extent x}

variable {extent}

theorem cover_nil : cover extent [] = ∅ := by
  ext p
  simp [cover]

theorem cover_append (xs ys : List R) :
    cover extent (xs ++ ys) = cover extent xs ∪ cover extent ys := by
  ext p
  simp [cover, or_and_right, exists_or]

/-- **Nothing is lost.** -/
theorem Merges.subset_cover {join : R → R → R} {ok : R → R → Prop} {xs ys : List R}
    (left : ∀ a b, extent a ⊆ extent (join a b))
    (right : ∀ a b, extent b ⊆ extent (join a b)) (h : Merges join ok xs ys) :
    cover extent xs ⊆ cover extent ys := by
  induction h with
  | perm perm => exact fun p ⟨x, hx, hp⟩ => ⟨x, perm.mem_iff.mp hx, hp⟩
  | @merge xs ys rest a b perm _ _ ih =>
      rintro p ⟨x, hx, hp⟩
      apply ih
      rcases List.mem_cons.mp (perm.mem_iff.mp hx) with rfl | hx
      · exact ⟨_, List.mem_cons_self, left _ _ hp⟩
      · rcases List.mem_cons.mp hx with rfl | hx
        · exact ⟨_, List.mem_cons_self, right _ _ hp⟩
        · exact ⟨x, List.mem_cons_of_mem _ hx, hp⟩

end Cover

/-! ## Taking an item out -/

/-- Put the last item into the place of item `i`, and shorten the list. -/
def swapRemove (xs : List R) (i : ℕ) : List R :=
  match xs.getLast? with
  | none => []
  | some last => (xs.set i last).dropLast

theorem swapRemove_concat (front : List R) (last : R) (i : ℕ) :
    swapRemove (front ++ [last]) i = front.set i last := by
  rw [swapRemove, List.getLast?_concat]
  show ((front ++ [last]).set i last).dropLast = front.set i last
  rcases lt_or_ge i front.length with inside | atEnd
  · rw [List.set_append_left i last inside]
    exact List.dropLast_concat
  · -- The last item replaces itself, or nothing.
    rw [List.set_append_right i last atEnd, List.set_eq_of_length_le atEnd]
    cases i - front.length with
    | zero => exact List.dropLast_concat
    | succ k => exact List.dropLast_concat

theorem length_swapRemove (xs : List R) (i : ℕ) :
    (swapRemove xs i).length = xs.length - 1 := by
  rcases List.eq_nil_or_concat xs with rfl | ⟨front, last, rfl⟩
  · rfl
  · rw [List.concat_eq_append, swapRemove_concat, List.length_set, List.length_append,
      List.length_singleton, Nat.add_sub_cancel]

/-- The other items are still there. -/
theorem perm_swapRemove {xs : List R} {i : ℕ} (h : i < xs.length) :
    xs ~ xs[i] :: swapRemove xs i := by
  obtain ⟨front, last, rfl⟩ : ∃ front last, xs = front ++ [last] :=
    ⟨_, _, (List.dropLast_append_getLast
      (List.ne_nil_of_length_pos (Nat.zero_lt_of_lt h))).symm⟩
  rw [swapRemove_concat]
  rcases lt_or_ge i front.length with inside | atEnd
  · rw [List.getElem_append_left inside]
    calc front ++ [last]
        ~ last :: front := List.perm_append_singleton last front
      _ ~ last :: front[i] :: front.eraseIdx i :=
          (List.getElem_cons_eraseIdx_perm inside).symm.cons last
      _ ~ front[i] :: last :: front.eraseIdx i := List.Perm.swap _ _ _
      _ ~ front[i] :: front.set i last :=
        (List.set_perm_cons_eraseIdx inside last).symm.cons _
  · obtain rfl : i = front.length := by
      rw [List.length_append, List.length_singleton] at h
      omega
    rw [List.getElem_concat_length rfl, List.set_eq_of_length_le le_rfl]
    exact List.perm_append_singleton last front

/-- What is in another place stays. -/
theorem mem_swapRemove {xs : List R} {i k : ℕ} {x : R} (h : i < xs.length) (other : k ≠ i)
    (there : xs[k]? = some x) : x ∈ swapRemove xs i := by
  obtain ⟨front, last, rfl⟩ : ∃ front last, xs = front ++ [last] :=
    ⟨_, _, (List.dropLast_append_getLast
      (List.ne_nil_of_length_pos (Nat.zero_lt_of_lt h))).symm⟩
  rw [List.length_append, List.length_singleton] at h
  rw [swapRemove_concat]
  rcases lt_or_ge k front.length with inside | atEnd
  · rw [List.getElem?_append_left inside] at there
    rw [← List.getElem?_set_ne other.symm (a := last)] at there
    exact List.mem_of_getElem? there
  · -- The last item has taken the place.
    rw [List.getElem?_append_right atEnd, List.getElem?_singleton] at there
    split at there
    · cases there
      exact List.mem_set (by omega) _
    · cases there

/-- **A merge in an array**: the join takes the place of the first item, and the
last item that of the second. -/
theorem merges_swapRemove {join : R → R → R} {ok : R → R → Prop} {xs : List R} {a b : ℕ}
    (hab : a < b) (hb : b < xs.length) (isOk : ok xs[a] xs[b]) :
    Merges join ok xs (swapRemove (xs.set a (join xs[a] xs[b])) b) := by
  obtain ⟨front, last, rfl⟩ : ∃ front last, xs = front ++ [last] :=
    ⟨_, _, (List.dropLast_append_getLast
      (List.ne_nil_of_length_pos (Nat.zero_lt_of_lt hb))).symm⟩
  have ha : a < front.length := by
    rw [List.length_append, List.length_singleton] at hb
    omega
  have others := perm_swapRemove hb
  rw [swapRemove_concat] at others
  have ha' : a < (front.set b last).length := by rwa [List.length_set]
  have first : (front.set b last)[a] = front[a] := List.getElem_set_ne hab.ne' _
  rw [List.set_append_left a _ ha, swapRemove_concat, List.set_comm _ _ hab.ne]
  rw [List.getElem_append_left ha] at isOk ⊢
  refine .merge (a := front[a]) ?_ isOk (.perm (List.set_perm_cons_eraseIdx ha' _).symm)
  calc front ++ [last]
      ~ (front ++ [last])[b] :: front.set b last := others
    _ ~ (front ++ [last])[b] :: front[a] :: (front.set b last).eraseIdx a := by
        rw [← first]
        exact (List.getElem_cons_eraseIdx_perm ha').symm.cons _
    _ ~ front[a] :: (front ++ [last])[b] :: (front.set b last).eraseIdx a :=
      List.Perm.swap _ _ _

end Merging
