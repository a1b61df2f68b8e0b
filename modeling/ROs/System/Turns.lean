import ROs.System.Boot

/-!
# Turns

After the boot there are four tasks, none of which ever sleeps: the idle loop, the shell, the memory
map and the counter (`Scheduler.InTurn`).  So each `yield_now` switches to the next of them
(`System.yieldNow_eq`), and a task that is not executed waits where its last call of `yield_now` left
it, or has not begun (`System.Parked`).
-/

namespace ROs

namespace Scheduler

/-- Where no task sleeps, the next one is chosen. -/
theorem nextTask_of_awake {s : Scheduler} (hlen : 1 < s.tasks.length)
    (hawake : ∀ t ∈ s.tasks, t.state ≠ .Sleeping) (hc : s.current < s.tasks.length) :
    s.nextTask = some ((s.current + 1) % s.tasks.length) := by
  have hlt : (s.current + 1) % s.tasks.length < s.tasks.length := Nat.mod_lt _ (by omega)
  have hel : s.eligible ((s.current + 1) % s.tasks.length) = true := by
    have hget := List.getElem?_eq_getElem hlt
    exact (eligible_iff hget).2 (hawake _ (List.mem_of_getElem? hget))
  have hne : (s.current + 1) % s.tasks.length ≠ s.current := by
    intro heq
    by_cases hlast : s.current + 1 < s.tasks.length
    · rw [Nat.mod_eq_of_lt hlast] at heq
      omega
    · rw [show s.current + 1 = s.tasks.length by omega, Nat.mod_self] at heq
      omega
  obtain ⟨f, hf⟩ : ∃ f, s.tasks.length = f + 1 := ⟨s.tasks.length - 1, by omega⟩
  have hsearch : Cyclic.search s.eligible s.tasks.length s.tasks.length
      ((s.current + 1) % s.tasks.length) = some ((s.current + 1) % s.tasks.length) := by
    generalize (s.current + 1) % s.tasks.length = i at hel ⊢
    rw [hf, Cyclic.search, if_pos hel]
  rw [nextTask, if_neg (by omega), hsearch]
  exact if_neg hne

/-- The four tasks take turns. -/
structure InTurn (s : Scheduler) : Prop where
  tasks_eq : s.tasks.map (fun t => (t.id, t.windowId)) =
    [(3, none), (0, some 0), (1, some 1), (2, some 2)]
  awake : ∀ t ∈ s.tasks, t.state ≠ .Sleeping
  current_lt : s.current < 4

namespace InTurn

variable {s : Scheduler}

theorem length_eq (h : s.InTurn) : s.tasks.length = 4 := by
  have := congrArg List.length h.tasks_eq
  rwa [List.length_map] at this

/-- The next task is executed. -/
theorem nextTask_eq (h : s.InTurn) : s.nextTask = some ((s.current + 1) % 4) := by
  have hlen := h.length_eq
  have hnext := nextTask_of_awake (by omega) h.awake (hlen ▸ h.current_lt)
  rwa [hlen] at hnext

theorem dispatch (h : s.InTurn) {next : ℕ} (hnext : next < 4) : (s.dispatch next).InTurn := by
  refine ⟨?_, fun t ht => ?_, hnext⟩
  · rw [map_dispatch fun _ _ => rfl]
    exact h.tasks_eq
  · obtain ⟨j, hj⟩ := List.mem_iff_getElem?.1 ht
    rw [getElem?_dispatch] at hj
    obtain ⟨t₀, ht₀, rfl⟩ := Option.map_eq_some_iff.1 hj
    have hawake := h.awake t₀ (List.mem_of_getElem? ht₀)
    dsimp only
    split
    · decide
    · split
      · decide
      · exact hawake

end InTurn

/-- The four tasks take turns, and have done so a number of times. -/
structure Turn (yields : ℕ) (s : Scheduler) : Prop extends InTurn s where
  current_eq : s.current = yields % 4

end Scheduler

/-- The flow of control of the task at an index of the task list. -/
def Flow.ofIndex : ℕ → Flow
  | 1 => .shell
  | 2 => .memmap
  | 3 => .counter
  | _ => .idle

/-- The window that belongs to a flow of control; the idle loop has none. -/
def Flow.window : Flow → UInt64
  | .shell | .idle => 0
  | .memmap => 1
  | .counter => 2

namespace System

variable {D : KeyDecoder} {s : System D}

/-- The task that is executed, and its window. -/
theorem flow_eq (h : s.scheduler.InTurn) :
    s.flow = Flow.ofIndex s.scheduler.current ∧ s.currentWindow = s.flow.window := by
  have hlt : s.scheduler.current < s.scheduler.tasks.length := h.length_eq ▸ h.current_lt
  obtain ⟨⟨id, stack, state, windowId⟩, ht⟩ : ∃ t,
      s.scheduler.tasks[s.scheduler.current]? = some t := ⟨_, List.getElem?_eq_getElem hlt⟩
  have hid : [(3, none), (0, some 0), (1, some 1), (2, some 2)][s.scheduler.current]? =
      some (id, windowId) := by
    rw [← h.tasks_eq, List.getElem?_map, ht]
    rfl
  have hc := h.current_lt
  rw [currentWindow, Scheduler.currentWindowId, flow, ht]
  generalize s.scheduler.current = c at hid hc
  interval_cases c
  all_goals
    cases hid
    exact ⟨rfl, rfl⟩

end System

/-! ### Waiting -/

/-- The idle loop has been left. -/
def IdlePc.Parked (pc : IdlePc) : Prop := pc = .halting

/-- The shell has been left, or has not begun. -/
def ShellPc.Parked (pc : ShellPc) : Prop := pc = .entry ∨ ∃ winId line, pc = .polling winId line

theorem ShellPc.Parked.not_reading {pc : ShellPc} (h : pc.Parked) (winId : UInt64) (line : Line) :
    pc ≠ .reading winId line := by
  rcases h with rfl | ⟨winId', line', rfl⟩
  · exact nofun
  · exact nofun

/-- The memory map has been left, or has not begun. -/
def MemmapPc.Parked (pc : MemmapPc) : Prop := pc = .entry ∨ pc = .yielding

/-- The counter has been left, or has not begun. -/
def CounterPc.Parked (pc : CounterPc) : Prop :=
  pc = .entry ∨ ∃ winId lastDisplayed, pc = .polling winId lastDisplayed

namespace System

variable {D : KeyDecoder} {s : System D}

/-- All flows of control but the one that is executed are parked. -/
structure Parked (s : System D) : Prop where
  idle : s.flow ≠ .idle → s.idle.Parked
  shell : s.flow ≠ .shell → s.shell.Parked
  memmap : s.flow ≠ .memmap → s.memmap.Parked
  counter : s.flow ≠ .counter → s.counter.Parked

/-- **`yield_now` switches to the next task**; all flows are parked at that moment. -/
theorem yieldNow_eq {yields : ℕ} (h : s.scheduler.Turn yields) (hidle : s.idle.Parked)
    (hshell : s.shell.Parked) (hmemmap : s.memmap.Parked) (hcounter : s.counter.Parked) :
    ∃ scheduler, scheduler.Turn (yields + 1) ∧ s.yieldNow = { s with scheduler } ∧
      s.yieldNow.Parked := by
  have hyield : s.yieldNow =
      { s with scheduler := s.scheduler.dispatch ((s.scheduler.current + 1) % 4) } := by
    rw [yieldNow, h.nextTask_eq]
  refine ⟨_, ⟨h.dispatch (Nat.mod_lt _ (by decide)), ?_⟩, hyield, ?_⟩
  · calc
      (s.scheduler.current + 1) % 4 = (yields % 4 + 1) % 4 := by rw [h.current_eq]
      _ = (yields + 1) % 4 := Nat.mod_add_mod _ _ _
  · rw [hyield]
    exact ⟨fun _ => hidle, fun _ => hshell, fun _ => hmemmap, fun _ => hcounter⟩

end System

end ROs
