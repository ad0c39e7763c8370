import Mathlib.Data.List.Basic
import Mathlib.Logic.Function.Basic

/-!
# Delivery over independent first-in first-out channels

Messages are sent on channels indexed by `ι`; each channel keeps its own order
and nothing relates two channels.  A list of `(channel, message)` pairs is the
global sending order, another one the order in which a receiver consumes them.

`Drains` is the operational account: the receiver repeatedly takes the head of
some channel's queue.  `drains_empty_iff` identifies the complete consumption
orders with the lists that agree with the sent one *channel by channel*, which
is the form (`Delivers`) the results use.

* `Delivers.filter_eq` — messages that all travel on one channel are received
  in the order they were sent.
* `delivers_postpone` — any one channel can be delayed until all others are
  drained.
-/

namespace FifoDelivery

universe u v

variable {ι : Type u} {α : Type v} [DecidableEq ι]

/-- The messages of one channel, in order. -/
def onChannel (ws : List (ι × α)) (i : ι) : List α :=
  (ws.filter fun w => w.1 = i).map Prod.snd

@[simp] theorem onChannel_nil (i : ι) : onChannel ([] : List (ι × α)) i = [] := rfl

theorem onChannel_cons (w : ι × α) (ws : List (ι × α)) (i : ι) :
    onChannel (w :: ws) i =
      if w.1 = i then w.2 :: onChannel ws i else onChannel ws i := by
  by_cases h : w.1 = i <;> simp [onChannel, h]

theorem onChannel_append (ws ws' : List (ι × α)) (i : ι) :
    onChannel (ws ++ ws') i = onChannel ws i ++ onChannel ws' i := by
  simp [onChannel]

theorem mem_onChannel {ws : List (ι × α)} {i : ι} {a : α} :
    a ∈ onChannel ws i ↔ (i, a) ∈ ws := by
  simp [onChannel, List.mem_map, List.mem_filter]

/-! ## Draining queues -/

/-- `Drains q out q'`: from the queues `q`, the receiver takes the messages
`out` one after the other, each from the head of its channel's queue, and
leaves `q'`. -/
inductive Drains : (ι → List α) → List (ι × α) → (ι → List α) → Prop
  | nil (q : ι → List α) : Drains q [] q
  | cons {q q' : ι → List α} {i : ι} {a : α} {rest : List α}
      {out : List (ι × α)} :
      q i = a :: rest → Drains (Function.update q i rest) out q' →
      Drains q ((i, a) :: out) q'

/-- Taking messages conserves each channel: what was queued is what was taken
from it followed by what is left. -/
theorem Drains.conserves {q q' : ι → List α} {out : List (ι × α)}
    (h : Drains q out q') (i : ι) : q i = onChannel out i ++ q' i := by
  induction h with
  | nil q => simp
  | @cons q q' j a rest out head _ ih =>
      rw [onChannel_cons]
      by_cases same : j = i
      · subst same
        rw [if_pos rfl, head, List.cons_append]
        simpa using ih
      · rw [if_neg same]
        simpa [Function.update_of_ne (Ne.symm same)] using ih

/-- **Complete consumption orders.**  The queues can be drained completely in
the order `out` exactly when `out` has, on every channel, that channel's queue. -/
theorem drains_empty_iff {q : ι → List α} {out : List (ι × α)} :
    Drains q out (fun _ => []) ↔ ∀ i, onChannel out i = q i := by
  constructor
  · intro h i
    simpa using (h.conserves i).symm
  · intro h
    induction out generalizing q with
    | nil =>
        have empty : q = fun _ => [] := funext fun i => (h i).symm
        rw [empty]
        exact .nil _
    | cons w out ih =>
        obtain ⟨i, a⟩ := w
        have head : q i = a :: onChannel out i := by
          rw [← h i, onChannel_cons, if_pos rfl]
        refine .cons head (ih fun j => ?_)
        by_cases same : j = i
        · subst same; simp
        · rw [Function.update_of_ne same, ← h j, onChannel_cons,
            if_neg (Ne.symm same)]

/-! ## Delivered lists -/

/-- `received` is an order in which everything in `sent` can be consumed. -/
def Delivers (sent received : List (ι × α)) : Prop :=
  ∀ i, onChannel received i = onChannel sent i

/-- `Delivers` is what draining the queues that `sent` filled amounts to. -/
theorem delivers_iff_drains {sent received : List (ι × α)} :
    Delivers sent received ↔ Drains (onChannel sent) received (fun _ => []) :=
  drains_empty_iff.symm

@[refl] theorem Delivers.refl (sent : List (ι × α)) : Delivers sent sent :=
  fun _ => rfl

theorem Delivers.mem_iff {sent received : List (ι × α)}
    (h : Delivers sent received) (w : ι × α) : w ∈ received ↔ w ∈ sent := by
  rw [← mem_onChannel (i := w.1), h, mem_onChannel]

theorem map_snd_filter_onChannel (ws : List (ι × α)) (i : ι) (p : α → Bool)
    (only : ∀ w ∈ ws, p w.2 = true → w.1 = i) :
    (ws.map Prod.snd).filter p = (onChannel ws i).filter p := by
  induction ws with
  | nil => rfl
  | cons w ws ih =>
      have ih' := ih fun w' hw' => only w' (List.mem_cons_of_mem _ hw')
      have head := only w List.mem_cons_self
      rw [onChannel_cons, List.map_cons, List.filter_cons]
      by_cases hp : p w.2 = true
      · simp [hp, head hp, ih']
      · by_cases hi : w.1 = i <;> simp [hp, hi, ih']

/-- **One channel keeps its order.**  The messages satisfying `p`, when all of
them travel on one channel, are received in the order they were sent. -/
theorem Delivers.filter_eq {sent received : List (ι × α)}
    (h : Delivers sent received) {i : ι} {p : α → Bool}
    (only : ∀ w ∈ sent, p w.2 = true → w.1 = i) :
    (received.map Prod.snd).filter p = (sent.map Prod.snd).filter p := by
  rw [map_snd_filter_onChannel sent i p only,
    map_snd_filter_onChannel received i p
      (fun w hw => only w ((h.mem_iff w).mp hw)), h i]

/-- A single channel leaves one order only. -/
theorem Delivers.eq_of_forall_channel {sent received : List (ι × α)}
    (h : Delivers sent received) {i : ι} (only : ∀ w ∈ sent, w.1 = i) :
    received.map Prod.snd = sent.map Prod.snd := by
  simpa using h.filter_eq (p := fun _ => true) fun w hw _ => only w hw

/-- **Channels are independent**: one of them can be made to wait for all the
others. -/
theorem delivers_postpone (sent : List (ι × α)) (i : ι) :
    Delivers sent
      ((sent.filter fun w => w.1 ≠ i) ++ sent.filter fun w => w.1 = i) := by
  intro j
  rw [onChannel, List.filter_append, List.filter_filter, List.filter_filter,
    onChannel]
  congr 1
  by_cases same : j = i
  · subst same
    rw [List.filter_eq_nil_iff.mpr (by simp), List.nil_append]
    exact List.filter_congr (by simp)
  · have none_late : (sent.filter fun w => decide (w.1 = j) && decide (w.1 = i)) = [] := by
      rw [List.filter_eq_nil_iff]
      intro w _
      by_cases hw : w.1 = j <;> simp [hw, same]
    rw [none_late, List.append_nil]
    refine List.filter_congr fun w _ => ?_
    by_cases hw : w.1 = j <;> simp [hw, same]

end FifoDelivery
