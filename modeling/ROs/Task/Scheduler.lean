import Mathlib.Algebra.Order.Ring.Nat
import ROs.Lib.Cyclic
import ROs.Lib.Align

/-!
# The scheduler

The task list of `task.rs` and the decisions taken on it: `spawn` appends, `run` inserts the idle
task at the front, `yield_now` chooses the next task round robin.  The saved stack pointers
(`context.rsp`) are not here: `switch_context` reads and writes them in memory, where
`ROs.Task.Kernel` keeps them.

* `Scheduler.nextTask_eq_some` : what `yield_now` switches to.
* `Scheduler.nextTask_eq_none` : **when it returns without switching**, every other task sleeps.
-/

namespace ROs

/-- Bytes of a task stack, 64 KiB. -/
def TASK_STACK_SIZE : UInt64 := 64 * 1024

/-- `TaskState`. -/
inductive TaskState
  | Ready
  | Running
  | Sleeping
deriving DecidableEq

/-- A `Task` without its context.  `stack` is the address of the 64 KiB vector, or `none` for the
`Vec::new()` of the idle task, which runs on the stack of the kernel. -/
structure Task where
  id : ℕ
  stack : Option UInt64
  state : TaskState
  windowId : Option ℕ
deriving DecidableEq

/-- The contents of `SCHEDULER`. -/
structure Scheduler where
  tasks : List Task
  current : ℕ
  nextId : ℕ
deriving DecidableEq

namespace Scheduler

/-- `init`. -/
def init : Scheduler := ⟨[], 0, 0⟩

/-- `spawn`, with the stack vector allocated at `stack`: the entry in the task list. -/
def spawn (s : Scheduler) (stack : UInt64) (windowId : Option ℕ) : Scheduler :=
  { s with
    tasks := s.tasks ++ [⟨s.nextId, some stack, .Ready, windowId⟩]
    nextId := s.nextId + 1 }

/-- The first part of `run`: the current execution context becomes the idle task, at index 0. -/
def register (s : Scheduler) : Scheduler :=
  { tasks := ⟨s.nextId, none, .Running, none⟩ :: s.tasks
    current := 0
    nextId := s.nextId + 1 }

/-- `current_window_id`. -/
def currentWindowId (s : Scheduler) : Option ℕ :=
  match s.tasks[s.current]? with
  | some t => t.windowId
  | none => none

/-- The test of the search loop: `Ready` or `Running`. -/
def eligible (s : Scheduler) (i : ℕ) : Bool :=
  match s.tasks[i]? with
  | some t => t.state = .Ready ∨ t.state = .Running
  | none => false

/-- The choice of `yield_now`: the index to switch to, `none` where it returns. -/
def nextTask (s : Scheduler) : Option ℕ :=
  let count := s.tasks.length
  if count ≤ 1 then none
  else
    match Cyclic.search s.eligible count count ((s.current + 1) % count) with
    | none => none
    | some next => if next = s.current then none else some next

/-- Giving the task at `i` the state `st`. -/
def setState (s : Scheduler) (i : ℕ) (st : TaskState) : Scheduler :=
  { s with tasks := s.tasks.modify i fun t => { t with state := st } }

/-- The bookkeeping of a switch to the task at `next`. -/
def dispatch (s : Scheduler) (next : ℕ) : Scheduler :=
  { (s.setState s.current .Ready).setState next .Running with current := next }

/-- The task at `i` exists and sleeps. -/
def Asleep (s : Scheduler) (i : ℕ) : Prop := ∃ t, s.tasks[i]? = some t ∧ t.state = .Sleeping

section Lemmas

variable {s : Scheduler} {i j : ℕ} {t : Task} {st : TaskState}

theorem getElem?_setState (s : Scheduler) (i j : ℕ) (st : TaskState) :
    (s.setState i st).tasks[j]? =
      (s.tasks[j]?).map fun t => if i = j then { t with state := st } else t := by
  simp only [setState, List.getElem?_modify]
  split <;> simp

@[simp] theorem length_setState : (s.setState i st).tasks.length = s.tasks.length := by
  simp [setState]

/-- Setting states changes nothing else of the tasks. -/
theorem map_setState {α : Type*} {f : Task → α} (hf : ∀ t st, f { t with state := st } = f t)
    (s : Scheduler) (i : ℕ) (st : TaskState) :
    (s.setState i st).tasks.map f = s.tasks.map f := by
  refine List.ext_getElem? fun j => ?_
  rw [List.getElem?_map, List.getElem?_map, getElem?_setState, Option.map_map]
  congr 1
  funext t
  rw [Function.comp_apply]
  split
  · exact hf t st
  · rfl

theorem map_dispatch {α : Type*} {f : Task → α} (hf : ∀ t st, f { t with state := st } = f t)
    (s : Scheduler) (next : ℕ) : (s.dispatch next).tasks.map f = s.tasks.map f := by
  rw [← map_setState hf s s.current .Ready,
    ← map_setState hf (s.setState s.current .Ready) next .Running]
  rfl

@[simp] theorem length_dispatch : (s.dispatch i).tasks.length = s.tasks.length := by
  simp [dispatch]

/-- A switch changes the states of two tasks and nothing else of any task. -/
theorem getElem?_dispatch (s : Scheduler) (next j : ℕ) :
    (s.dispatch next).tasks[j]? =
      (s.tasks[j]?).map fun t =>
        { t with state := if next = j then .Running else if s.current = j then .Ready
          else t.state } := by
  simp only [dispatch, getElem?_setState, Option.map_map]
  congr 1
  funext t
  by_cases hn : next = j <;> by_cases hc : s.current = j <;> simp [hn, hc]

theorem eligible_iff (h : s.tasks[i]? = some t) : s.eligible i ↔ t.state ≠ .Sleeping := by
  simp only [eligible, h, decide_eq_true_eq]
  cases t.state <;> simp

theorem eligible_iff_not_asleep (h : i < s.tasks.length) : s.eligible i ↔ ¬ s.Asleep i := by
  obtain ⟨t, ht⟩ : ∃ t, s.tasks[i]? = some t := ⟨_, List.getElem?_eq_getElem h⟩
  rw [eligible_iff ht]
  refine ⟨fun hne ⟨u, hu, hsl⟩ => ?_, fun hna hsl => hna ⟨t, ht, hsl⟩⟩
  cases hu.symm.trans ht
  exact hne hsl

/-- **What `yield_now` switches to**: the next task that does not sleep, and not the caller. -/
theorem nextTask_eq_some (hc : s.current < s.tasks.length) (h : s.nextTask = some j) :
    Cyclic.Next (fun i => ¬ s.Asleep i) s.tasks.length s.current j ∧ j ≠ s.current := by
  simp only [nextTask] at h
  split at h
  · cases h
  · split at h
    · cases h
    · rename_i next hnext
      split at h
      · cases h
      · rename_i hne
        cases h
        obtain ⟨hlt, hel, hskip⟩ := Cyclic.search_some hc hnext
        refine ⟨⟨hlt, (eligible_iff_not_asleep hlt).1 hel, fun i hi hp => ?_⟩, hne⟩
        rw [not_not]
        by_contra hna
        exact hskip i hi hp ((eligible_iff_not_asleep hi).2 hna)

/-- **When `yield_now` returns without switching**, all other tasks sleep. -/
theorem nextTask_eq_none (hc : s.current < s.tasks.length) (h : s.nextTask = none) :
    ∀ i < s.tasks.length, i ≠ s.current → s.Asleep i := by
  intro i hi hne
  by_contra hna
  have hel := (eligible_iff_not_asleep hi).2 hna
  simp only [nextTask] at h
  split at h
  · omega
  · split at h
    · rename_i hnone
      rw [Cyclic.search_none hc hnone i hi] at hel
      cases hel
    · rename_i next hnext
      split at h
      · rename_i heq
        subst heq
        -- the search came all the way round to the caller
        refine (Cyclic.search_some hc hnext).skipped i hi ?_ hel
        unfold Cyclic.Passed
        omega
      · cases h

end Lemmas

end Scheduler

/-- The stack pointer of a task whose stack was allocated at `stack`, before anything is pushed:
the end of the vector, rounded down to 16 bytes. -/
def stackTop (stack : UInt64) : UInt64 := (stack + TASK_STACK_SIZE) &&& ~~~0xF

theorem stackTop_toNat {p : UInt64} (h : p.toNat + 65536 < 2 ^ 64) :
    (stackTop p).toNat = (p.toNat + 65536) / 16 * 16 := by
  have hmask := Align.toNat_and_not (a := p + TASK_STACK_SIZE) (m := 16) (k := 4) rfl
  have hadd : (p + TASK_STACK_SIZE).toNat = p.toNat + 65536 := by
    rw [UInt64.toNat_add]
    exact Nat.mod_eq_of_lt h
  rw [hadd] at hmask
  exact hmask

/-- The top of the stack is a multiple of 16, whatever the allocation. -/
theorem stackTop_mod (p : UInt64) : (stackTop p).toNat % 16 = 0 := by
  have hmask := Align.toNat_and_not (a := p + TASK_STACK_SIZE) (m := 16) (k := 4) rfl
  have : (stackTop p).toNat = (p + TASK_STACK_SIZE).toNat / 2 ^ 4 * 2 ^ 4 := hmask
  omega

end ROs
