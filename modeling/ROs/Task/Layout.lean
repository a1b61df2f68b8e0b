import ROs.Task.Kernel

/-!
# Stacks and contexts stay apart

`Consistent` is the invariant of the memory layout: the stacks are disjoint, no context lies on a
stack, and the stack pointer is on the stack of the current flow of control.  The words of the
tasks that are not running (`Parked`) are described relative to it.

* `Step.consistent`, `Consistent.of_boot`: the invariant holds in every reached state.
* `Consistent.flow_of_active` : **the stack in use is the one of the current task**.
-/

namespace ROs

variable {L : TaskLayout}

/-! ### Addresses of contexts -/

section ContextAddr

variable {p : UInt64} {n i j : ℕ}

theorem contextAddr_toNat (hp : p.toNat + n * L.size ≤ 2 ^ 64) (hi : i < n) :
    (contextAddr L p i).toNat = p.toNat + i * L.size + L.contextOffset ∧
      i * L.size + L.contextOffset + 8 ≤ n * L.size := by
  have hfits := L.fits
  have hmul : (i + 1) * L.size ≤ n * L.size := Nat.mul_le_mul_right _ hi
  rw [Nat.succ_mul] at hmul
  refine ⟨?_, by omega⟩
  rw [contextAddr, UInt64.toNat_add, UInt64.toNat_ofNat', Nat.add_mod_mod,
    Nat.mod_eq_of_lt (by omega), Nat.add_assoc]

theorem contextAddr_word (hp : p.toNat + n * L.size ≤ 2 ^ 64) (hi : i < n) :
    (tasksRegion L p n).Word (contextAddr L p i) := by
  obtain ⟨h, hle⟩ := contextAddr_toNat hp hi
  unfold Region.Word tasksRegion
  rw [h]
  dsimp only
  omega

/-- Different tasks have different contexts. -/
theorem contextAddr_ne (hp : p.toNat + n * L.size ≤ 2 ^ 64) (hi : i < n) (hj : j < n)
    (hne : i ≠ j) : contextAddr L p i ≠ contextAddr L p j := by
  intro heq
  have hfits := L.fits
  have hi' := (contextAddr_toNat hp hi).1
  have hj' := (contextAddr_toNat hp hj).1
  rw [heq, hj'] at hi'
  have hmul : i * L.size = j * L.size := by omega
  exact hne (Nat.eq_of_mul_eq_mul_right (by omega) hmul)

end ContextAddr

/-! ### The list of stacks -/

/-- The state of a task has nothing to do with its stack. -/
theorem Task.region_setState (r : Region) (t : Task) (st : TaskState) :
    Task.region r { t with state := st } = t.region r := rfl

namespace Kernel

variable {k k' : Kernel} {s : Scheduler} {r : Region}

theorem tasks_of_scheduler (h : k.scheduler = some s) : k.tasks = s.tasks := by
  simp only [tasks, h]

theorem current_of_scheduler (h : k.scheduler = some s) : k.current = s.current := by
  simp only [current, h]

theorem nextId_of_scheduler (h : k.scheduler = some s) : k.nextId = s.nextId := by
  simp only [nextId, h]

/-- After `run`, task `i` is the flow of control number `i`. -/
theorem flowStacks_getElem? (hrun : k.schedulerRunning = true) (i : ℕ) :
    k.flowStacks[i]? = (k.tasks[i]?).map (Task.region k.kernelStack) := by
  rw [flowStacks, if_pos hrun, List.getElem?_map]

theorem region_mem_flowStacks {t : Task} (ht : t ∈ k.tasks) :
    t.region k.kernelStack ∈ k.flowStacks := by
  unfold flowStacks
  split
  · exact List.mem_map_of_mem ht
  · exact List.mem_cons_of_mem _ (List.mem_map_of_mem ht)

theorem leaveSection_eq_some (h : k.leaveSection r = some k') :
    ∃ flag flags, k.remembered r = flag :: flags ∧
      k' = { k with
        interruptFlag := if flag then true else k.interruptFlag
        remembered := fun r' => if r' = r then flags else k.remembered r' } := by
  unfold leaveSection at h
  split at h
  · cases h
  · rename_i flag flags hrem
    cases h
    exact ⟨flag, flags, hrem, rfl⟩

/-- A closure that does not touch the flag leaves everything as it was. -/
theorem leaveSection_enterSection (k : Kernel) (r : Region) :
    (k.enterSection r).leaveSection r = some k := by
  have hrem : (fun r' => if r' = r then k.remembered r
      else if r' = r then k.interruptFlag :: k.remembered r else k.remembered r') =
      k.remembered := by
    funext r'
    split
    · rename_i h; rw [h]
    · rfl
  have hflag : (if k.interruptFlag then true else false) = k.interruptFlag := by
    cases k.interruptFlag <;> rfl
  simp only [leaveSection, enterSection, if_true, hrem, hflag]

section Spawn

variable {p tasksPtr : UInt64} {w : Option ℕ} {mem : Memory}

theorem tasks_spawn (h : k.scheduler = some s) :
    (k.spawn s p w tasksPtr mem).tasks = k.tasks ++ [⟨s.nextId, some p, .Ready, w⟩] := by
  rw [tasks_of_scheduler h]; rfl

theorem flow_spawn (h : k.scheduler = some s) : (k.spawn s p w tasksPtr mem).flow = k.flow := by
  unfold flow
  rw [current_of_scheduler h]; rfl

theorem flowStacks_spawn (h : k.scheduler = some s) :
    (k.spawn s p w tasksPtr mem).flowStacks = k.flowStacks ++ [taskStack p] := by
  unfold flowStacks
  rw [tasks_spawn h, List.map_append]
  by_cases hrun : k.schedulerRunning = true
  · simp [Kernel.spawn, hrun, Task.region]
  · simp [Kernel.spawn, hrun, Task.region]

end Spawn

section Register

variable {tasksPtr : UInt64} {mem : Memory}

theorem tasks_register (h : k.scheduler = some s) :
    (k.register s tasksPtr mem).tasks = ⟨s.nextId, none, .Running, none⟩ :: k.tasks := by
  rw [tasks_of_scheduler h]; rfl

/-- The boot flow becomes the first task. -/
theorem flowStacks_register (h : k.scheduler = some s) (hrun : k.schedulerRunning = false) :
    (k.register s tasksPtr mem).flowStacks = k.flowStacks := by
  have hr : (k.register s tasksPtr mem).schedulerRunning = true := rfl
  rw [flowStacks, flowStacks, if_pos hr, tasks_register h, if_neg (by simp [hrun])]
  rfl

end Register

section Init

theorem flowStacks_init (h : k.scheduler = none) :
    { k with scheduler := some Scheduler.init : Kernel }.flowStacks = k.flowStacks := by
  simp [flowStacks, tasks, h, Scheduler.init]

theorem flow_init (h : k.scheduler = none) :
    { k with scheduler := some Scheduler.init : Kernel }.flow = k.flow := by
  simp [flow, Kernel.current, h, Scheduler.init]

end Init

section Sleep

variable {i : ℕ} {st : TaskState}

theorem flowStacks_setState (h : k.scheduler = some s) :
    { k with scheduler := some (s.setState i st) : Kernel }.flowStacks = k.flowStacks := by
  have ht : { k with scheduler := some (s.setState i st) : Kernel }.tasks =
      (s.setState i st).tasks := rfl
  rw [flowStacks, flowStacks, ht, tasks_of_scheduler h]
  dsimp only
  rw [Scheduler.map_setState (Task.region_setState _)]

theorem flow_setState (h : k.scheduler = some s) :
    { k with scheduler := some (s.setState i st) : Kernel }.flow = k.flow := by
  unfold flow
  rw [current_of_scheduler h]
  rfl

end Sleep

section SwitchTo

variable {next : ℕ}

theorem scheduler_switchTo : (k.switchTo L s next).scheduler = some (s.dispatch next) := rfl

theorem tasks_switchTo : (k.switchTo L s next).tasks = (s.dispatch next).tasks :=
  tasks_of_scheduler scheduler_switchTo

theorem current_switchTo : (k.switchTo L s next).current = next :=
  current_of_scheduler scheduler_switchTo

theorem running_switchTo : (k.switchTo L s next).schedulerRunning = k.schedulerRunning := by
  simp only [switchTo]

theorem kernelStack_switchTo : (k.switchTo L s next).kernelStack = k.kernelStack := by
  simp only [switchTo]

theorem tasksPtr_switchTo : (k.switchTo L s next).tasksPtr = k.tasksPtr := by
  simp only [switchTo]

theorem length_tasks_switchTo (h : k.scheduler = some s) :
    (k.switchTo L s next).tasks.length = k.tasks.length := by
  rw [tasks_switchTo, Scheduler.length_dispatch, tasks_of_scheduler h]

/-- A switch moves no stack. -/
theorem flowStacks_switchTo (h : k.scheduler = some s) :
    (k.switchTo L s next).flowStacks = k.flowStacks := by
  rw [flowStacks, flowStacks, tasks_switchTo, tasks_of_scheduler h, kernelStack_switchTo,
    running_switchTo, Scheduler.map_dispatch (Task.region_setState _)]

end SwitchTo

end Kernel

open Kernel

/-- The stacks and the contexts are apart, and the stack pointer is where it should be. -/
structure Consistent (L : TaskLayout) (k : Kernel) : Prop where
  range : ∀ r ∈ k.flowStacks, r.hi < 2 ^ 64
  /-- No two flows of control share stack memory. -/
  apart : k.flowStacks.Pairwise Region.Disjoint
  /-- The buffer of the tasks does not wrap round. -/
  vecRange : k.tasksPtr.toNat + k.tasks.length * L.size ≤ 2 ^ 64
  /-- No context lies on a stack. -/
  vecApart : ∀ i < k.tasks.length, ∀ r ∈ k.flowStacks, ¬ r.Word (contextAddr L k.tasksPtr i)
  current : k.schedulerRunning = true → k.current < k.tasks.length
  /-- The flow of control that is executed is the current one. -/
  active : ∃ r, k.flowStacks[k.flow]? = some r ∧ r.Holds k.cpu.rsp

namespace Consistent

variable {k k' : Kernel} {s : Scheduler} {r : Region} {i : ℕ} {t : Task}

theorem of_boot (h : Boot k) : Consistent L k := by
  obtain ⟨hs, hr, hst, hrange, -⟩ := h
  have htasks : k.tasks = [] := by simp only [tasks, hs]
  have hstacks : k.flowStacks = [k.kernelStack] := by simp [flowStacks, hr, htasks]
  refine ⟨?_, ?_, ?_, ?_, ?_, ⟨k.kernelStack, ?_, hst⟩⟩
  · rw [hstacks]; simpa using hrange
  · simp [hstacks]
  · rw [htasks, List.length_nil, Nat.zero_mul, Nat.add_zero]
    exact (UInt64.toNat_lt _).le
  · simp [htasks]
  · simp [hr]
  · simp [hstacks, flow, hr]

/-- A step that neither allocates nor switches. -/
theorem congr (h : Consistent L k) (hst : k'.flowStacks = k.flowStacks)
    (hptr : k'.tasksPtr = k.tasksPtr) (hlen : k'.tasks.length = k.tasks.length)
    (hcur : k'.schedulerRunning = true → k'.current < k'.tasks.length)
    (hact : ∃ r, k.flowStacks[k'.flow]? = some r ∧ r.Holds k'.cpu.rsp) : Consistent L k' := by
  refine ⟨?_, ?_, ?_, ?_, hcur, ?_⟩
  · rw [hst]; exact h.range
  · rw [hst]; exact h.apart
  · rw [hptr, hlen]; exact h.vecRange
  · rw [hptr, hlen, hst]; exact h.vecApart
  · rw [hst]; exact hact

/-- **The stack in use is the one of the current flow of control.** -/
theorem flow_of_active (h : Consistent L k) (hr : k.Active r) : k.flowStacks[k.flow]? = some r := by
  obtain ⟨r', hr', hholds⟩ := h.active
  obtain ⟨i, hi, rfl⟩ := List.mem_iff_getElem.1 hr.1
  have := Region.eq_of_holds h.apart (List.getElem?_eq_getElem hi) hr' hr.2 hholds
  rw [← this]
  exact List.getElem?_eq_getElem hi

theorem active_unique (h : Consistent L k) {r' : Region} (hr : k.Active r) (hr' : k.Active r') :
    r = r' :=
  Option.some.inj ((h.flow_of_active hr).symm.trans (h.flow_of_active hr'))

/-- A task other than the one that runs: its stack is not the one in use. -/
theorem not_holds (h : Consistent L k) (ht : k.tasks[i]? = some t)
    (hi : k.schedulerRunning = true → i ≠ k.current) :
    ¬ (t.region k.kernelStack).Holds k.cpu.rsp := by
  obtain ⟨r, hr, hholds⟩ := h.active
  intro hsp
  by_cases hrun : k.schedulerRunning = true
  · have hti : k.flowStacks[i]? = some (t.region k.kernelStack) := by
      rw [flowStacks_getElem? hrun, ht]; rfl
    have := Region.eq_of_holds h.apart hti hr hsp hholds
    rw [flow, if_pos hrun] at this
    exact hi hrun this
  · have hti : k.flowStacks[i + 1]? = some (t.region k.kernelStack) := by
      simp [flowStacks, hrun, ht]
    have := Region.eq_of_holds h.apart hti hr hsp hholds
    rw [flow, if_neg hrun] at this
    omega

theorem compute (h : Consistent L k) (hr : k.Active r) {cpu : Cpu} {mem : Memory}
    (hsp : r.Holds cpu.rsp) : Consistent L { k with cpu := cpu, mem := mem } :=
  h.congr rfl rfl rfl h.current ⟨r, h.flow_of_active hr, hsp⟩

theorem init (h : Consistent L k) (hs : k.scheduler = none) :
    Consistent L { k with scheduler := some Scheduler.init } := by
  have hlen : k.tasks.length = 0 := by simp [tasks, hs]
  refine h.congr (flowStacks_init hs) rfl hlen.symm (fun hrun => ?_) ?_
  · have := h.current hrun
    omega
  · rw [flow_init hs]
    exact h.active

theorem spawn (h : Consistent L k) (hs : k.scheduler = some s) {entry p tasksPtr : UInt64}
    {w : Option ℕ} {mem : Memory} (hsp : Spawned L k entry p tasksPtr mem) :
    Consistent L (k.spawn s p w tasksPtr mem) := by
  have hlen : (k.spawn s p w tasksPtr mem).tasks.length = k.tasks.length + 1 := by
    rw [tasks_spawn hs, List.length_append]; rfl
  have hmem : ∀ r ∈ k.flowStacks ++ [taskStack p], r ∈ taskStack p :: k.flowStacks :=
    fun r hr => by simpa [or_comm] using hr
  refine ⟨?_, ?_, ?_, ?_, fun hrun => ?_, ?_⟩
  · rw [flowStacks_spawn hs]
    intro r hr
    rcases List.mem_append.1 hr with hr | hr
    · exact h.range r hr
    · rw [List.mem_singleton.1 hr]
      exact hsp.range
  · rw [flowStacks_spawn hs, List.pairwise_append]
    refine ⟨h.apart, List.pairwise_singleton _ _, fun r hr r' hr' => ?_⟩
    rw [List.mem_singleton.1 hr']
    exact (hsp.apart r hr).symm
  · rw [hlen]; exact hsp.tasks.range
  · rw [hlen, flowStacks_spawn hs]
    intro i hi r hr
    exact (hsp.tasks.apart r (hmem r hr)).not_word (contextAddr_word hsp.tasks.range hi)
  · have := h.current hrun
    rw [current_of_scheduler hs] at this
    rw [hlen]
    exact Nat.lt_succ_of_lt this
  · obtain ⟨r, hr, hholds⟩ := h.active
    refine ⟨r, ?_, hholds⟩
    rw [flowStacks_spawn hs, flow_spawn hs, List.getElem?_append_left, hr]
    exact (List.getElem?_eq_some_iff.1 hr).1

theorem register (h : Consistent L k) (hs : k.scheduler = some s)
    (hrun : k.schedulerRunning = false) {tasksPtr : UInt64} {mem : Memory}
    (hreg : Registered L k tasksPtr mem) : Consistent L (k.register s tasksPtr mem) := by
  have hlen : (k.register s tasksPtr mem).tasks.length = k.tasks.length + 1 := by
    rw [tasks_register hs]; rfl
  have hst : (k.register s tasksPtr mem).flowStacks = k.flowStacks := flowStacks_register hs hrun
  refine ⟨?_, ?_, ?_, ?_, fun _ => ?_, ?_⟩
  · rw [hst]; exact h.range
  · rw [hst]; exact h.apart
  · rw [hlen]; exact hreg.tasks.range
  · rw [hlen, hst]
    intro i hi r hr
    exact (hreg.tasks.apart r hr).not_word (contextAddr_word hreg.tasks.range hi)
  · rw [hlen]; exact Nat.succ_pos _
  · have := h.active
    rw [flow, if_neg (by simp [hrun])] at this
    rw [hst]
    exact this

theorem sleep (h : Consistent L k) (hs : k.scheduler = some s) (i : ℕ) :
    Consistent L { k with scheduler := some (s.setState i .Sleeping) } := by
  have htasks := tasks_of_scheduler hs
  have hcur := current_of_scheduler hs
  refine h.congr (flowStacks_setState hs) rfl ?_ ?_ ?_
  · rw [htasks]; exact Scheduler.length_setState
  · intro hrun
    have := h.current hrun
    rw [htasks, hcur] at this
    exact this.trans_eq Scheduler.length_setState.symm
  · rw [flow_setState hs]
    exact h.active

end Consistent

/-- **A call of `yield_now` that returns without switching** has found all other tasks asleep. -/
theorem Step.others_asleep {k k' : Kernel} (h : Consistent L k) (hst : Step L k .yieldReturned k')
    (hrun : k.schedulerRunning = true) {i : ℕ} {t : Task} (ht : k.tasks[i]? = some t)
    (hne : i ≠ k.current) : t.state = .Sleeping := by
  cases hst with
  | yieldEarly hoff =>
    rw [hoff] at hrun
    cases hrun
  | yieldReturned _ _ hnone _ =>
    cases hs : k.scheduler with
    | none => simp [tasks, hs] at ht
    | some s =>
      have hcur := h.current hrun
      rw [hs, Option.bind_some] at hnone
      rw [tasks_of_scheduler hs] at ht hcur
      rw [current_of_scheduler hs] at hne hcur
      obtain ⟨u, hu, hsleep⟩ :=
        Scheduler.nextTask_eq_none hcur hnone i (List.getElem?_eq_some_iff.1 ht).1 hne
      cases ht.symm.trans hu
      exact hsleep

end ROs
