import Mathlib.Data.List.Nodup
import Mathlib.Logic.Function.Basic

/-!
# Singly linked lists in memory

A list of nodes that are allocated one by one, with a pointer to the first of them.
Code that adds and removes nodes keeps a pointer to the pointer it will change, which is
the head or the `next` of a node: a `Slot`.

Every access is checked.  To read or to change a node that is not allocated, or to free
it, is `none`.

`Chain` follows pointers from one to another, and `Holds` says that from the head they
lead through the given nodes to the end, and that these are all there are: no node is
there twice, and none is lost.
-/

namespace LinkedLists

universe u

abbrev Addr := ℕ

structure Node (α : Type u) where
  value : α
  next : Option Addr

structure Store (α : Type u) where
  head : Option Addr
  nodes : Addr → Option (Node α)

inductive Slot where
  | head
  | next (a : Addr)
  deriving DecidableEq

variable {α : Type u}

namespace Store

def empty : Store α where
  head := none
  nodes := fun _ => none

def load (s : Store α) : Slot → Option (Option Addr)
  | .head => some s.head
  | .next a => (s.nodes a).map Node.next

def store (s : Store α) (slot : Slot) (p : Option Addr) : Option (Store α) :=
  match slot with
  | .head => some { s with head := p }
  | .next a => (s.nodes a).map fun node =>
      { s with nodes := Function.update s.nodes a (some { node with next := p }) }

def free (s : Store α) (a : Addr) : Option (Store α) :=
  (s.nodes a).map fun _ => { s with nodes := Function.update s.nodes a none }

end Store

/-- From `p` the entries lead to `q`. -/
def Chain (nodes : Addr → Option (Node α)) :
    Option Addr → List (Addr × α) → Option Addr → Prop
  | p, [], q => p = q
  | p, (a, x) :: entries, q =>
      p = some a ∧ ∃ next, nodes a = some ⟨x, next⟩ ∧ Chain nodes next entries q

/-- The addresses of the entries. -/
def addrs (entries : List (Addr × α)) : List Addr := entries.map Prod.fst

@[simp] theorem addrs_nil : addrs ([] : List (Addr × α)) = [] := rfl

@[simp] theorem addrs_cons (e : Addr × α) (entries : List (Addr × α)) :
    addrs (e :: entries) = e.1 :: addrs entries := rfl

@[simp] theorem addrs_append (xs ys : List (Addr × α)) :
    addrs (xs ++ ys) = addrs xs ++ addrs ys := List.map_append

structure Holds (s : Store α) (entries : List (Addr × α)) : Prop where
  chain : Chain s.nodes s.head entries none
  nodup : (addrs entries).Nodup
  /-- What is allocated is in the list. -/
  only : ∀ a, s.nodes a ≠ none → a ∈ addrs entries

theorem holds_empty : Holds (Store.empty : Store α) [] :=
  ⟨rfl, List.nodup_nil, fun _ h => absurd rfl h⟩

section Rules

variable {nodes : Addr → Option (Node α)} {p q m : Option Addr} {xs ys : List (Addr × α)}

theorem chain_append :
    Chain nodes p (xs ++ ys) q ↔ ∃ m, Chain nodes p xs m ∧ Chain nodes m ys q := by
  induction xs generalizing p with
  | nil => simp [Chain]
  | cons e xs ih =>
      simp only [List.cons_append, Chain, ih]
      constructor
      · rintro ⟨here, next, node, m, first, second⟩
        exact ⟨m, ⟨here, next, node, first⟩, second⟩
      · rintro ⟨m, ⟨here, next, node, first⟩, second⟩
        exact ⟨here, next, node, m, first, second⟩

/-- Nodes that are not in the chain do not matter. -/
theorem Chain.congr {nodes' : Addr → Option (Node α)} (h : Chain nodes p xs q)
    (same : ∀ a ∈ addrs xs, nodes' a = nodes a) : Chain nodes' p xs q := by
  induction xs generalizing p with
  | nil => exact h
  | cons e xs ih =>
      obtain ⟨here, next, node, rest⟩ := h
      refine ⟨here, next, (same e.1 List.mem_cons_self).trans node, ih rest fun a ha => ?_⟩
      exact same a (List.mem_cons_of_mem _ ha)

/-- The pointer behind the entries. -/
def lastSlot : List (Addr × α) → Slot
  | [] => .head
  | [(a, _)] => .next a
  | _ :: e :: entries => lastSlot (e :: entries)

theorem lastSlot_concat (xs : List (Addr × α)) (a : Addr) (x : α) :
    lastSlot (xs ++ [(a, x)]) = .next a := by
  induction xs with
  | nil => rfl
  | cons e xs ih =>
      cases xs with
      | nil => rfl
      | cons e' xs => exact ih

variable {s : Store α}

theorem load_lastSlot (h : Chain s.nodes s.head xs m) : s.load (lastSlot xs) = some m := by
  rcases List.eq_nil_or_concat xs with rfl | ⟨before, ⟨a, x⟩, rfl⟩
  · exact congrArg some h
  · rw [List.concat_eq_append] at h ⊢
    obtain ⟨n, -, rfl, next, node, rfl⟩ := chain_append.mp h
    rw [lastSlot_concat, Store.load, node]
    rfl

/-- **Changing the pointer behind some entries** redirects them. -/
theorem exists_store_lastSlot (h : Chain s.nodes s.head xs m) (nodup : (addrs xs).Nodup)
    (p : Option Addr) :
    ∃ s', s.store (lastSlot xs) p = some s' ∧ Chain s'.nodes s'.head xs p ∧
      (∀ a ∉ addrs xs, s'.nodes a = s.nodes a) ∧
      ∀ a, s'.nodes a = none ↔ s.nodes a = none := by
  rcases List.eq_nil_or_concat xs with rfl | ⟨before, ⟨a, x⟩, rfl⟩
  · exact ⟨{ s with head := p }, rfl, rfl, fun _ _ => rfl, fun _ => Iff.rfl⟩
  · rw [List.concat_eq_append] at h nodup ⊢
    obtain ⟨n, first, rfl, next, node, -⟩ := chain_append.mp h
    have new : a ∉ addrs before := by
      rw [addrs_append, List.nodup_append] at nodup
      exact fun ha => nodup.2.2 a ha a (List.mem_singleton_self a) rfl
    refine ⟨_, by rw [lastSlot_concat, Store.store, node]; rfl, ?_, fun b hb => ?_,
      fun b => ?_⟩
    · refine chain_append.mpr ⟨some a, first.congr fun b hb => ?_, rfl, p, ?_, rfl⟩
      · exact Function.update_of_ne (fun same : b = a => new (same ▸ hb)) _ _
      · exact Function.update_self _ _ _
    · refine Function.update_of_ne (fun same => hb ?_) _ _
      simp [same]
    · by_cases same : b = a
      · subst same
        simp [node]
      · exact iff_of_eq (congrArg (· = none) (Function.update_of_ne same _ _))

theorem Chain.exists_node (h : Chain nodes p xs q) {e : Addr × α} (he : e ∈ xs) :
    ∃ next, nodes e.1 = some ⟨e.2, next⟩ := by
  induction xs generalizing p with
  | nil => cases he
  | cons e' xs ih =>
      obtain ⟨-, next, node, rest⟩ := h
      rcases List.mem_cons.mp he with rfl | he
      · exact ⟨next, node⟩
      · exact ih rest he

theorem Chain.allocated (h : Chain nodes p xs q) {a : Addr} (ha : a ∈ addrs xs) :
    nodes a ≠ none := by
  obtain ⟨e, he, rfl⟩ := List.mem_map.mp ha
  obtain ⟨next, node⟩ := h.exists_node he
  rw [node]
  exact Option.some_ne_none _

/-- **A new node behind the others.** -/
theorem Holds.exists_append (holds : Holds s xs) {a : Addr} (fresh : s.nodes a = none)
    (x : α) :
    ∃ s', ({ s with nodes := Function.update s.nodes a (some ⟨x, none⟩) } : Store α).store
        (lastSlot xs) (some a) = some s' ∧ Holds s' (xs ++ [(a, x)]) := by
  have new : a ∉ addrs xs := fun ha => holds.chain.allocated ha fresh
  have chain : Chain (Function.update s.nodes a (some ⟨x, none⟩)) s.head xs none :=
    holds.chain.congr fun b hb =>
      Function.update_of_ne (fun same : b = a => new (same ▸ hb)) _ _
  obtain ⟨s', stored, linked, others, allocated⟩ := exists_store_lastSlot
    (s := { s with nodes := Function.update s.nodes a (some ⟨x, none⟩) }) chain
      holds.nodup (some a)
  refine ⟨s', stored, ?_, ?_, fun b hb => ?_⟩
  · refine chain_append.mpr ⟨_, linked, rfl, none, ?_, rfl⟩
    rw [others a new]
    exact Function.update_self _ _ _
  · rw [addrs_append, List.nodup_append]
    refine ⟨holds.nodup, List.nodup_singleton a, ?_⟩
    rintro b hb c hc rfl
    obtain rfl : b = a := by simpa using hc
    exact new hb
  · rw [addrs_append, List.mem_append]
    by_cases same : b = a
    · exact Or.inr (by simp [same])
    · refine Or.inl (holds.only b fun none => hb ((allocated b).mpr ?_))
      exact (Function.update_of_ne same _ _).trans none

/-- **A node is taken out and freed.** -/
theorem Holds.exists_remove {a : Addr} {x : α} (holds : Holds s (xs ++ (a, x) :: ys))
    (first : Chain s.nodes s.head xs (some a)) {next : Option Addr}
    (chain : Chain s.nodes next ys none) :
    ∃ s₁ s₂, s.free a = some s₁ ∧ s₁.store (lastSlot xs) next = some s₂ ∧
      Holds s₂ (xs ++ ys) ∧ Chain s₂.nodes s₂.head xs next ∧
      Chain s₂.nodes next ys none := by
  obtain ⟨_, _, _, _, node, _⟩ := chain_append.mp holds.chain
  have nodup := holds.nodup
  rw [addrs_append, addrs_cons, List.nodup_append, List.nodup_cons] at nodup
  obtain ⟨nodupFirst, ⟨notRest, nodupRest⟩, apart⟩ := nodup
  have notFirst : a ∉ addrs xs := fun ha => apart a ha a List.mem_cons_self rfl
  let s₁ : Store α := { s with nodes := Function.update s.nodes a none }
  have freed : s.free a = some s₁ := by rw [Store.free, node]; rfl
  have keep : ∀ zs : List (Addr × α),
      a ∉ addrs zs → ∀ b ∈ addrs zs, s₁.nodes b = s.nodes b :=
    fun zs hzs b hb => Function.update_of_ne (fun same : b = a => hzs (same ▸ hb)) _ _
  obtain ⟨s₂, stored, linked, others, allocated⟩ :=
    exists_store_lastSlot (s := s₁) (first.congr (keep xs notFirst)) nodupFirst next
  have chain₂ : Chain s₂.nodes next ys none := by
    refine (chain.congr (keep ys notRest)).congr fun b hb => others b fun hb' => ?_
    exact apart b hb' b (List.mem_cons_of_mem _ hb) rfl
  refine ⟨s₁, s₂, freed, stored, ⟨chain_append.mpr ⟨_, linked, chain₂⟩, ?_, ?_⟩,
    linked, chain₂⟩
  · rw [addrs_append, List.nodup_append]
    exact ⟨nodupFirst, nodupRest, fun b hb c hc => apart b hb c (List.mem_cons_of_mem _ hc)⟩
  · intro b hb
    have notFreed : b ≠ a := by
      rintro rfl
      exact hb ((allocated b).mpr (Function.update_self _ _ _))
    have := holds.only b fun none => hb ((allocated b).mpr
      ((Function.update_of_ne notFreed _ _).trans none))
    simpa [notFreed] using this

end Rules

end LinkedLists
