import ROs.Lib.Trace
import Mathlib.Algebra.Order.Ring.Nat

/-!
# Bounded queues and circular windows

`Fifo.Step cap` is the bounded queue of capacity `cap` as a step relation on its contents: a push
is accepted while there is room and dropped when the queue is full, a pop takes the oldest value
or reports an empty queue.  Along every run from the empty queue the popped values followed by
the contents are the accepted values (`Fifo.popped_append`), and the contents never exceed the
capacity (`Fifo.length_le`).

`Circular.window` reads `len` consecutive slots of a circular array.  Writing the slot behind the
window extends it at the end (`Circular.window_succ`), moving the start takes its first value
(`Circular.window_cons`), and a write outside changes nothing (`Circular.window_congr`).
-/

namespace ROs

namespace Fifo

/-- What one step of a queue does, as its users see it. -/
inductive Event (α : Type*) where
  /-- Nothing visible. -/
  | silent
  /-- A push of `v` returned after storing it. -/
  | accepted (v : α)
  /-- A push of `v` returned without storing it. -/
  | dropped (v : α)
  /-- A pop returned `v`. -/
  | popped (v : α)
  /-- A pop returned nothing. -/
  | empty
  deriving Repr, DecidableEq

variable {α : Type*}

/-- The values accepted along a run. -/
def accepted (es : List (Event α)) : List α :=
  es.filterMap fun
    | .accepted v => some v
    | _ => none

/-- The values popped along a run. -/
def popped (es : List (Event α)) : List α :=
  es.filterMap fun
    | .popped v => some v
    | _ => none

/-- The values that pushes were called with. -/
def offered (es : List (Event α)) : List α :=
  es.filterMap fun
    | .accepted v | .dropped v => some v
    | _ => none

theorem popped_concat (es es' : List (Event α)) : popped (es ++ es') = popped es ++ popped es' :=
  List.filterMap_append

theorem accepted_concat (es es' : List (Event α)) :
    accepted (es ++ es') = accepted es ++ accepted es' := List.filterMap_append

theorem offered_concat (es es' : List (Event α)) :
    offered (es ++ es') = offered es ++ offered es' := List.filterMap_append

/-- What is accepted has been offered, in the same order. -/
theorem accepted_sublist (es : List (Event α)) : (accepted es).Sublist (offered es) := by
  induction es with
  | nil => exact .slnil
  | cons e es ih =>
    cases e with
    | accepted v => exact ih.cons_cons v
    | dropped v => exact ih.cons v
    | silent | popped | empty => exact ih

/-- Where nothing is dropped, everything that is offered is accepted. -/
theorem accepted_eq_offered {es : List (Event α)} (h : ∀ v, .dropped v ∉ es) :
    accepted es = offered es := by
  induction es with
  | nil => rfl
  | cons e es ih =>
    have hrest := ih fun v hv => h v (List.mem_cons_of_mem _ hv)
    cases e with
    | accepted v => exact congrArg (v :: ·) hrest
    | dropped v => exact absurd List.mem_cons_self (h v)
    | silent | popped | empty => exact hrest

/-- The bounded queue of capacity `cap`. -/
inductive Step (cap : ℕ) : List α → Event α → List α → Prop
  | silent (q : List α) : Step cap q .silent q
  | accept (q : List α) (v : α) : q.length < cap → Step cap q (.accepted v) (q ++ [v])
  | drop (q : List α) (v : α) : q.length = cap → Step cap q (.dropped v) q
  | pop (v : α) (q : List α) : Step cap (v :: q) (.popped v) q
  | empty : Step cap [] .empty []

variable {cap : ℕ} {q q' : List α} {es : List (Event α)}

theorem Step.length_of_dropped {v : α} (h : Step cap q (.dropped v) q') : q.length = cap := by
  cases h with
  | drop _ _ hfull => exact hfull

theorem Step.length_of_accepted {v : α} (h : Step cap q (.accepted v) q') : q.length < cap := by
  cases h with
  | accept _ _ hlt => exact hlt

theorem Step.eq_concat_of_accepted {v : α} (h : Step cap q (.accepted v) q') : q' = q ++ [v] := by
  cases h with
  | accept => rfl

theorem Step.eq_nil_of_empty (h : Step cap q .empty q') : q = [] := by
  cases h with
  | empty => rfl

/-- A pop that finds nothing leaves nothing. -/
theorem Step.eq_nil_of_empty' (h : Step cap q .empty q') : q' = [] := by
  cases h with
  | empty => rfl

theorem Step.eq_cons_of_popped {v : α} (h : Step cap q (.popped v) q') : q = v :: q' := by
  cases h with
  | pop => rfl

/-- **Conservation**: nothing is lost, duplicated or reordered. -/
theorem popped_append (h : Trace (Step cap) q es q') : popped es ++ q' = q ++ accepted es := by
  induction h with
  | nil => simp [popped, accepted]
  | cons hst _ ih =>
    cases hst <;> simp_all [popped, accepted]

theorem length_le (h : Trace (Step cap) q es q') (hq : q.length ≤ cap) : q'.length ≤ cap := by
  refine h.invariant (I := fun q => q.length ≤ cap) (fun q e q' hq hst => ?_) hq
  cases hst with
  | accept _ v hlt =>
    rw [List.length_append, List.length_singleton]
    exact hlt
  | pop v _ => exact Nat.le_of_succ_le hq
  | silent | drop | empty => exact hq

end Fifo

namespace Circular

variable {α : Type*} {n : ℕ} [NeZero n]

/-- The values of `len` consecutive slots from `start` on, around the end of the array. -/
def window (slots : Fin n → α) (start len : ℕ) : List α :=
  (List.range len).map fun i => slots (Fin.ofNat n (start + i))

@[simp] theorem length_window (slots : Fin n → α) (start len : ℕ) :
    (window slots start len).length = len := by
  simp [window]

theorem window_succ (slots : Fin n → α) (start len : ℕ) :
    window slots start (len + 1) = window slots start len ++ [slots (Fin.ofNat n (start + len))] := by
  simp [window, List.range_succ]

theorem window_cons (slots : Fin n → α) (start len : ℕ) :
    window slots start (len + 1) =
      slots (Fin.ofNat n start) :: window slots ((start + 1) % n) len := by
  simp only [window, List.range_succ_eq_map, List.map_cons, List.map_map, Nat.add_zero,
    List.cons.injEq, true_and]
  refine List.map_congr_left fun i _ => congrArg slots (Fin.ext ?_)
  simp [Fin.ofNat, Nat.add_assoc, Nat.add_comm 1 i]

/-- The window depends on its own slots only. -/
theorem window_congr {slots slots' : Fin n → α} {start len : ℕ}
    (h : ∀ i < len, slots' (Fin.ofNat n (start + i)) = slots (Fin.ofNat n (start + i))) :
    window slots' start len = window slots start len :=
  List.map_congr_left fun i hi => h i (List.mem_range.1 hi)

end Circular

end ROs
