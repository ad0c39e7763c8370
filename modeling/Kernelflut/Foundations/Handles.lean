import Kernelflut.Foundations.Runs
import Mathlib.Data.List.Nodup
import Mathlib.Logic.Function.Basic

/-!
# Handles that are acquired and released

A component acquires handles (descriptors, addresses, registrations), may change
what is known of one it holds, and releases them.  `Table` is what it holds; the
environment never hands out a handle that is held, so acquiring one is not a
step.  Releasing a handle that is not held is a step, and is recorded as
`stray`.

`Owns t entries` says that the entries are all that is held, each once.  The
rules give its effect for acquiring, for acquiring and releasing in between
(`run_transient`), and for releasing a selection (`Owns.release_filter`).
-/

namespace Handles

open PartialStep

universe u v

variable {κ : Type u} {ν : Type v} [DecidableEq κ]

inductive Event (κ : Type u) (ν : Type v) where
  | acquire (k : κ) (v : ν)
  | update (k : κ) (v : ν)
  | release (k : κ)

structure Table (κ : Type u) (ν : Type v) where
  held : κ → Option ν
  /-- The releases of handles that were not held. -/
  stray : List κ

def Table.empty : Table κ ν where
  held := fun _ => none
  stray := []

def step (t : Table κ ν) : Event κ ν → Option (Table κ ν)
  | .acquire k v =>
      if (t.held k).isSome then none
      else some { t with held := Function.update t.held k (some v) }
  | .update k v =>
      if (t.held k).isSome then
        some { t with held := Function.update t.held k (some v) }
      else none
  | .release k =>
      if (t.held k).isSome then some { t with held := Function.update t.held k none }
      else some { t with stray := k :: t.stray }

/-- The entries are what is held, each handle once. -/
structure Owns (t : Table κ ν) (entries : List (κ × ν)) : Prop where
  nodup : (entries.map Prod.fst).Nodup
  held_iff : ∀ k v, t.held k = some v ↔ (k, v) ∈ entries

omit [DecidableEq κ] in
theorem owns_empty : Owns (Table.empty : Table κ ν) [] :=
  ⟨List.nodup_nil, by simp [Table.empty]⟩

section Rules

variable {t t' : Table κ ν} {entries : List (κ × ν)} {k : κ} {v w : ν}

omit [DecidableEq κ] in
theorem Owns.held_eq_none_iff (owns : Owns t entries) (k : κ) :
    t.held k = none ↔ k ∉ entries.map Prod.fst := by
  rw [Option.eq_none_iff_forall_ne_some]
  simp only [ne_eq, owns.held_iff, List.mem_map, Prod.exists, exists_and_right,
    exists_eq_right, not_exists]

omit [DecidableEq κ] in
/-- Nothing is held exactly when there are no entries. -/
theorem Owns.eq_nil_iff (owns : Owns t entries) :
    (∀ k, t.held k = none) ↔ entries = [] := by
  simp only [owns.held_eq_none_iff]
  constructor
  · intro none
    rw [List.eq_nil_iff_forall_not_mem]
    exact fun e he => none e.1 (List.mem_map_of_mem he)
  · rintro rfl k
    exact List.not_mem_nil

omit [DecidableEq κ] in
theorem Owns.nil_of_none_held (owns : Owns t entries) (none : ∀ k, t.held k = none) :
    Owns t [] := by
  rw [owns.eq_nil_iff] at none
  exact none ▸ owns

/-- **Acquiring**, with what becomes known of the handle afterwards. -/
theorem Owns.acquire (owns : Owns t entries)
    (h : run step t [.acquire k v, .update k w] = some t') :
    t'.stray = t.stray ∧ Owns t' (entries ++ [(k, w)]) := by
  rw [run_cons, Option.bind_eq_some_iff] at h
  obtain ⟨t₁, hacquire, h⟩ := h
  simp only [step] at hacquire
  split at hacquire
  · cases hacquire
  · next free =>
      rw [Option.not_isSome_iff_eq_none, owns.held_eq_none_iff] at free
      cases hacquire
      simp only [run_cons, run_nil, step, Function.update_self, Option.isSome_some,
        if_true, Option.bind_some, Option.some.injEq] at h
      cases h
      refine ⟨rfl, ⟨?_, fun j x => ?_⟩⟩
      · rw [List.map_append, List.nodup_append]
        refine ⟨owns.nodup, List.nodup_singleton _, ?_⟩
        rintro a ha b hb rfl
        obtain rfl : a = k := by simpa using hb
        exact free ha
      · rw [Function.update_idem, List.mem_append, List.mem_singleton]
        show Function.update t.held k (some w) j = some x ↔ _
        rcases eq_or_ne j k with rfl | other
        · have absent : (j, x) ∉ entries := fun h => free (List.mem_map_of_mem h)
          rw [Function.update_self]
          simp [absent, eq_comm]
        · rw [Function.update_of_ne other, owns.held_iff]
          simp [other]

/-- A handle acquired and released again leaves nothing behind. -/
theorem run_transient (h : run step t [.acquire k v, .release k] = some t') : t' = t := by
  rw [run_cons, Option.bind_eq_some_iff] at h
  obtain ⟨t₁, hacquire, h⟩ := h
  simp only [step] at hacquire
  split at hacquire
  · cases hacquire
  · next free =>
      rw [Option.not_isSome_iff_eq_none] at free
      cases hacquire
      simp only [run_cons, run_nil, step, Function.update_self, Option.isSome_some,
        if_true, Option.bind_some, Option.some.injEq, Function.update_idem] at h
      rw [← h, ← free, Function.update_eq_self]

/-- Releasing distinct held handles. -/
theorem run_release {ks : List κ} (nodup : ks.Nodup)
    (held : ∀ k ∈ ks, (t.held k).isSome) :
    run step t (ks.map .release) =
      some { t with held := fun k => if k ∈ ks then none else t.held k } := by
  induction ks generalizing t with
  | nil => simp
  | cons k ks ih =>
      obtain ⟨fresh, nodup⟩ := List.nodup_cons.mp nodup
      rw [List.map_cons, run_cons, step, if_pos (held k List.mem_cons_self),
        Option.bind_some, ih nodup]
      · congr 2
        funext j
        rcases eq_or_ne j k with rfl | other
        · simp [fresh]
        · simp [other]
      · intro j hj
        have other : j ≠ k := fun same => fresh (same ▸ hj)
        show (Function.update t.held k none j).isSome
        rw [Function.update_of_ne other]
        exact held j (List.mem_cons_of_mem _ hj)

/-- **Releasing a selection** of the handles keeps the others. -/
theorem Owns.release_filter (owns : Owns t entries) (p : κ → Bool)
    (h : run step t (((entries.map Prod.fst).filter p).map .release) = some t') :
    t'.stray = t.stray ∧ Owns t' (entries.filter fun e => !p e.1) := by
  have held : ∀ k ∈ (entries.map Prod.fst).filter p, (t.held k).isSome := by
    intro k hk
    obtain ⟨e, he, rfl⟩ := List.mem_map.mp (List.mem_of_mem_filter hk)
    rw [(owns.held_iff e.1 e.2).mpr he]
    rfl
  rw [run_release (owns.nodup.filter p) held, Option.some.injEq] at h
  cases h
  refine ⟨rfl, ⟨owns.nodup.sublist ((List.filter_sublist).map _), fun k v => ?_⟩⟩
  rw [List.mem_filter, Bool.not_eq_true', ← owns.held_iff]
  show (if k ∈ (entries.map Prod.fst).filter p then none else t.held k) = some v ↔ _
  split
  · next released =>
      have selected := (List.mem_filter.mp released).2
      simp [selected]
  · next kept =>
      refine ⟨fun h => ⟨h, ?_⟩, And.left⟩
      by_contra selected
      have mem : k ∈ entries.map Prod.fst :=
        List.mem_map_of_mem ((owns.held_iff k v).mp h)
      exact kept (List.mem_filter.mpr ⟨mem, by simpa using selected⟩)

end Rules

end Handles
