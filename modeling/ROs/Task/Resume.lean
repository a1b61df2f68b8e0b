import ROs.Task.Layout

/-!
# Context switching keeps every task's registers

`ResumesAt es id cpu` says, from the events `es` of a run, in which state the task `id` has to
continue: where its last call of `switch_context` was made, or at its entry with the registers
that `spawn` has prepared.  `Resumable` is the invariant: the context and the stack words of every
task that is not running describe that state.

* `Resumable.step` : the invariant survives every step, whichever tasks switch.
* `Kernel.switch_resumes` : **a task that is switched in continues where it was switched out**,
  and a new one starts at its entry.
* `Kernel.entry_misaligned` : **a new task starts with the wrong stack alignment**: at its entry
  `rsp` is a multiple of 16, where a called function finds `rsp + 8` to be one.
-/

namespace ROs

variable {L : TaskLayout}

open Kernel

/-- The state in which `spawn` prepares a task to start. -/
def entryState (entry stack : UInt64) : Cpu := ⟨entry, stackTop stack, Regs.zero⟩

/-! ### The hand-built frame -/

/-- **The frame of `spawn` is the frame of `switch_context`**: it is the one that a call at the
entry, with an empty stack and all registers zero, would have saved. -/
theorem buildFrame_eq (mem : Memory) (entry stack : UInt64) :
    buildFrame mem (stackTop stack) entry =
      (saveFrame mem (entryState entry stack), stackTop stack - 56) := by
  have hsub : ∀ a b c : UInt64, a - b - c = a - (b + c) := by grind
  simp only [buildFrame, saveFrame, entryState, Regs.zero, hsub]
  rfl

/-- The top of a stack and the seven words below it lie in its allocation. -/
theorem stackTop_room {p : UInt64} (h : p.toNat + TASK_STACK_SIZE.toNat < 2 ^ 64) :
    p.toNat + 56 ≤ (stackTop p).toNat ∧
      (stackTop p).toNat ≤ p.toNat + TASK_STACK_SIZE.toNat := by
  have hsize : TASK_STACK_SIZE.toNat = 65536 := rfl
  rw [hsize] at h ⊢
  rw [stackTop_toNat h]
  omega

theorem hasFrame_stackTop {p : UInt64} (h : p.toNat + TASK_STACK_SIZE.toNat < 2 ^ 64) :
    (taskStack p).HasFrame (stackTop p - 56) :=
  Region.hasFrame_sub (stackTop_room h).1 (stackTop_room h).2

/-! ### What a flow of control left behind -/

/-- The flow of control of task `i`, on the stack `r`, continues in the state `cpu` when it is
switched in. -/
structure Parked (L : TaskLayout) (k : Kernel) (i : ℕ) (r : Region) (cpu : Cpu) : Prop where
  load : loadFrame k.mem (k.mem (contextAddr L k.tasksPtr i)) = cpu
  frame : r.HasFrame (k.mem (contextAddr L k.tasksPtr i))

namespace Parked

variable {k k' : Kernel} {i j : ℕ} {r : Region} {cpu : Cpu}

/-- Only the context and the stack of the task matter. -/
theorem congr (h : Parked L k i r cpu) (hr : r.hi < 2 ^ 64)
    (hctx : k'.mem (contextAddr L k'.tasksPtr j) = k.mem (contextAddr L k.tasksPtr i))
    (hmem : ∀ a, r.Word a → k'.mem a = k.mem a) : Parked L k' j r cpu := by
  refine ⟨?_, by rw [hctx]; exact h.frame⟩
  rw [hctx, ← h.load]
  exact loadFrame_congr fun a ha => hmem a (h.frame.word hr ha)

/-- When control comes to a task, its stack pointer is on its stack. -/
theorem holds (h : Parked L k i r cpu) (hr : r.hi < 2 ^ 64) : r.Holds cpu.rsp := by
  rw [← h.load]
  exact h.frame.holds hr

/-- A task that has just been spawned. -/
theorem spawned {entry p tasksPtr : UInt64} {mem : Memory} {s : Scheduler} {w : Option ℕ}
    (h : Spawned L k entry p tasksPtr mem) :
    Parked L (k.spawn s p w tasksPtr mem) k.tasks.length (taskStack p) (entryState entry p) := by
  have hctx : (k.spawn s p w tasksPtr mem).mem (contextAddr L tasksPtr k.tasks.length) =
      stackTop p - 56 := by
    have := h.context
    rwa [buildFrame_eq] at this
  have hframe := hasFrame_stackTop h.range
  refine ⟨?_, ?_⟩
  · change loadFrame mem (mem (contextAddr L tasksPtr k.tasks.length)) = _
    change mem _ = _ at hctx
    rw [hctx, ← loadFrame_saveFrame (zeroed k.mem p) (entryState entry p)]
    refine loadFrame_congr fun a ha => ?_
    rw [h.frame a (hframe.word h.range ha), buildFrame_eq]
  · change (taskStack p).HasFrame (mem (contextAddr L tasksPtr k.tasks.length))
    change mem _ = _ at hctx
    rw [hctx]
    exact hframe

end Parked

/-! ### One switch -/

section Switch

variable {k : Kernel} {s : Scheduler} {r : Region} {next i : ℕ}

/-- The memory after the old flow of control has saved its registers and its stack pointer. -/
def savedMem (L : TaskLayout) (k : Kernel) : Memory :=
  (saveFrame k.mem k.cpu).write (contextAddr L k.tasksPtr k.current) (k.cpu.rsp - 56)

theorem switchTo_eq (hs : k.scheduler = some s) (next : ℕ) :
    k.switchTo L s next =
      { k with
        cpu := loadFrame (savedMem L k) (savedMem L k (contextAddr L k.tasksPtr next))
        mem := savedMem L k
        scheduler := some (s.dispatch next) } := by
  rw [switchTo, Machine.switchContext_eq, savedMem, current_of_scheduler hs]

variable (h : Consistent L k) (hr : k.Active r) (hroom : r.lo + 56 ≤ k.cpu.rsp.toNat)
include h hr hroom

/-- Outside the stack in use and the context of the current task nothing is written. -/
theorem savedMem_of_not_word {a : UInt64} (ha : ¬ r.Word a)
    (hne : a ≠ contextAddr L k.tasksPtr k.current) : savedMem L k a = k.mem a := by
  rw [savedMem, Memory.write_of_ne hne]
  refine saveFrame_of_notMem fun hmem => ha ?_
  exact (Region.hasFrame_sub hroom hr.2.2).word (h.range r hr.1) hmem

/-- The current task, switched out. -/
theorem savedMem_context (hcur : k.current < k.tasks.length) :
    savedMem L k (contextAddr L k.tasksPtr k.current) = k.cpu.rsp - 56 ∧
      loadFrame (savedMem L k) (k.cpu.rsp - 56) = k.cpu ∧ r.HasFrame (k.cpu.rsp - 56) := by
  have hframe := Region.hasFrame_sub hroom hr.2.2
  refine ⟨Memory.write_self _ _ _, ?_, hframe⟩
  refine (loadFrame_congr fun a ha => Memory.write_of_ne ?_ _ _).trans
    (loadFrame_saveFrame k.mem k.cpu)
  rintro rfl
  exact h.vecApart k.current hcur r hr.1 (hframe.word (h.range r hr.1) ha)

/-- The other tasks are untouched. -/
theorem savedMem_other {t : Task} (ht : k.tasks[i]? = some t) (hrun : k.schedulerRunning = true)
    (hne : i ≠ k.current) :
    savedMem L k (contextAddr L k.tasksPtr i) = k.mem (contextAddr L k.tasksPtr i) ∧
      ∀ a, (t.region k.kernelStack).Word a → savedMem L k a = k.mem a := by
  have hi : i < k.tasks.length := (List.getElem?_eq_some_iff.1 ht).1
  have hcur := h.current hrun
  have hti : k.flowStacks[i]? = some (t.region k.kernelStack) := by
    rw [flowStacks_getElem? hrun, ht]; rfl
  have hflow := h.flow_of_active hr
  rw [flow, if_pos hrun] at hflow
  have hdis := Region.disjoint_of_ne h.apart hti hflow hne
  refine ⟨?_, fun a ha => ?_⟩
  · exact savedMem_of_not_word h hr hroom (h.vecApart i hi r hr.1)
      (contextAddr_ne h.vecRange hi hcur hne)
  · refine savedMem_of_not_word h hr hroom (hdis.not_word ha) ?_
    rintro rfl
    exact h.vecApart k.current hcur _ (List.mem_of_getElem? hti) ha

end Switch

/-! ### Where a task has to continue -/

/-- The event switches the task `id` out. -/
def Event.SwitchesOut (id : ℕ) (e : Event) : Prop :=
  ∃ call into arrival, e = .yieldSwitched id call into arrival

/-- The event spawns the task `id`. -/
def Event.Spawns (id : ℕ) (e : Event) : Prop := ∃ entry w p, e = .spawn id entry w p

/-- The event neither switches out nor spawns a task. -/
def Event.Silent (e : Event) : Prop := ∀ id, ¬ e.SwitchesOut id ∧ ¬ e.Spawns id

theorem Event.silent_of_ne {e : Event} (hswitch : ∀ o c i a, e ≠ .yieldSwitched o c i a)
    (hspawn : ∀ i en w p, e ≠ .spawn i en w p) : e.Silent :=
  fun _ => ⟨fun ⟨_, _, _, h⟩ => hswitch _ _ _ _ h, fun ⟨_, _, _, h⟩ => hspawn _ _ _ _ h⟩

/-- After the events `es`, the task `id` has to continue in the state `cpu`. -/
structure ResumesAt (es : List Event) (id : ℕ) (cpu : Cpu) : Prop where
  /-- A task that has run continues where it last called `switch_context`: `rip` is the return
  address of that call, `rsp` and the registers are as they were. -/
  call : ∀ es₁ es₂ call into arrival, es = es₁ ++ .yieldSwitched id call into arrival :: es₂ →
    (∀ e ∈ es₂, ¬ e.SwitchesOut id) → cpu = call
  /-- A task that has never run starts at its entry, with zero registers and the aligned top of
  its stack, the seven words below it lying in the allocation. -/
  entry : ∀ entry w p, .spawn id entry w p ∈ es → (∀ e ∈ es, ¬ e.SwitchesOut id) →
    cpu = ⟨entry, stackTop p, Regs.zero⟩ ∧ p.toNat + 56 ≤ (stackTop p).toNat ∧
      (stackTop p).toNat ≤ p.toNat + TASK_STACK_SIZE.toNat
  /-- One of the two is the case. -/
  known : ∃ e ∈ es, e.SwitchesOut id ∨ e.Spawns id

namespace ResumesAt

variable {es : List Event} {e : Event} {id : ℕ} {cpu : Cpu}

/-- Events that are not about the task do not matter. -/
theorem snoc (h : ResumesAt es id cpu) (hout : ¬ e.SwitchesOut id) (hspawn : ¬ e.Spawns id) :
    ResumesAt (es ++ [e]) id cpu := by
  refine ⟨fun es₁ es₂ call into arrival heq hnone => ?_, fun entry w p hmem hnone => ?_, ?_⟩
  · rcases List.eq_nil_or_concat es₂ with rfl | ⟨es₂, e', rfl⟩
    · obtain ⟨-, hcons⟩ := List.append_inj' heq rfl
      cases hcons
      exact absurd ⟨call, into, arrival, rfl⟩ hout
    · rw [List.concat_eq_append, ← List.cons_append, ← List.append_assoc] at heq
      obtain ⟨rfl, -⟩ := List.append_inj' heq rfl
      refine h.call es₁ es₂ call into arrival rfl fun e₂ he₂ => hnone e₂ ?_
      rw [List.concat_eq_append]
      exact List.mem_append_left _ he₂
  · rcases List.mem_append.1 hmem with hmem | hmem
    · exact h.entry entry w p hmem fun e' he' => hnone e' (List.mem_append_left _ he')
    · rw [List.mem_singleton] at hmem
      exact absurd ⟨entry, w, p, hmem.symm⟩ hspawn
  · obtain ⟨e', he', hk⟩ := h.known
    exact ⟨e', List.mem_append_left _ he', hk⟩

/-- A task that has just been switched out. -/
theorem switchedOut (es : List Event) (id : ℕ) (call : Cpu) (into : ℕ) (arrival : Cpu) :
    ResumesAt (es ++ [.yieldSwitched id call into arrival]) id call := by
  have hlast : Event.SwitchesOut id (.yieldSwitched id call into arrival) :=
    ⟨call, into, arrival, rfl⟩
  have hmem : Event.yieldSwitched id call into arrival ∈
      es ++ [.yieldSwitched id call into arrival] := List.mem_append_right _ (by simp)
  refine ⟨fun es₁ es₂ call' into' arrival' heq hnone => ?_, fun entry w p _ hnone => ?_,
    ⟨_, hmem, .inl hlast⟩⟩
  · rcases List.eq_nil_or_concat es₂ with rfl | ⟨es₂, e', rfl⟩
    · obtain ⟨-, hcons⟩ := List.append_inj' heq rfl
      cases hcons
      rfl
    · rw [List.concat_eq_append, ← List.cons_append, ← List.append_assoc] at heq
      obtain ⟨-, hcons⟩ := List.append_inj' heq rfl
      cases hcons
      exact absurd hlast (hnone _ (by simp))
  · exact absurd hlast (hnone _ hmem)

/-- A task that has just been spawned under a new id. -/
theorem spawned {entry p : UInt64} {w : Option ℕ} (hout : ∀ e ∈ es, ¬ e.SwitchesOut id)
    (hspawn : ∀ e ∈ es, ¬ e.Spawns id) (hp : p.toNat + TASK_STACK_SIZE.toNat < 2 ^ 64) :
    ResumesAt (es ++ [.spawn id entry w p]) id (entryState entry p) := by
  refine ⟨fun es₁ es₂ call into arrival heq _ => ?_, fun entry' w' p' hmem _ => ?_, ?_⟩
  · have hmem : Event.yieldSwitched id call into arrival ∈ es ++ [.spawn id entry w p] := by
      rw [heq]; simp
    rcases List.mem_append.1 hmem with hmem | hmem
    · exact absurd ⟨call, into, arrival, rfl⟩ (hout _ hmem)
    · simp at hmem
  · rcases List.mem_append.1 hmem with hmem | hmem
    · exact absurd ⟨entry', w', p', rfl⟩ (hspawn _ hmem)
    · rw [List.mem_singleton] at hmem
      cases hmem
      exact ⟨rfl, stackTop_room hp⟩
  · exact ⟨_, List.mem_append_right _ (by simp), .inr ⟨entry, w, p, rfl⟩⟩

end ResumesAt

/-! ### The invariant of a run -/

/-- Every task that is not running will continue where it has to. -/
structure Resumable (L : TaskLayout) (es : List Event) (k : Kernel) : Prop where
  consistent : Consistent L k
  /-- Ids are given out in order. -/
  ids : ∀ t ∈ k.tasks, t.id < k.nextId
  idsNodup : (k.tasks.map Task.id).Nodup
  events : ∀ e ∈ es, ∀ id, e.SwitchesOut id ∨ e.Spawns id → id < k.nextId
  parked : ∀ i t, k.tasks[i]? = some t → (k.schedulerRunning = true → i ≠ k.current) →
    ∃ cpu, ResumesAt es t.id cpu ∧ Parked L k i (t.region k.kernelStack) cpu

namespace Resumable

variable {es : List Event} {e : Event} {k k' : Kernel} {s : Scheduler} {r : Region}

theorem of_boot (h : Boot k) : Resumable L [] k := by
  have htasks : k.tasks = [] := by simp only [tasks, h.scheduler]
  refine ⟨.of_boot h, ?_, ?_, ?_, ?_⟩
  · simp [htasks]
  · simp [htasks]
  · simp
  · simp [htasks]

theorem events_snoc (h : Resumable L es k) {n : ℕ} (hn : k.nextId ≤ n)
    (he : ∀ id, e.SwitchesOut id ∨ e.Spawns id → id < n) :
    ∀ e' ∈ es ++ [e], ∀ id, e'.SwitchesOut id ∨ e'.Spawns id → id < n := by
  intro e' he' id hid
  rcases List.mem_append.1 he' with he' | he'
  · exact (h.events e' he' id hid).trans_le hn
  · rw [List.mem_singleton.1 he'] at hid
    exact he id hid

/-- An event that is not about switching or spawning. -/
theorem snoc (h : Resumable L es k) (he : e.Silent) : Resumable L (es ++ [e]) k := by
  refine ⟨h.consistent, h.ids, h.idsNodup,
    h.events_snoc le_rfl fun id hid => absurd hid (not_or.2 (he id)), fun i t ht hi => ?_⟩
  obtain ⟨cpu, hres, hpark⟩ := h.parked i t ht hi
  exact ⟨cpu, hres.snoc (he t.id).1 (he t.id).2, hpark⟩

/-- The flag and what is remembered of it play no role. -/
theorem flags (h : Resumable L es k) (b : Bool) (f : Region → List Bool) :
    Resumable L es { k with interruptFlag := b, remembered := f } := by
  refine ⟨h.consistent.congr rfl rfl rfl h.consistent.current h.consistent.active, h.ids,
    h.idsNodup, h.events, fun i t ht hi => ?_⟩
  obtain ⟨cpu, hres, hload, hframe⟩ := h.parked i t ht hi
  exact ⟨cpu, hres, hload, hframe⟩

/-- The running code works on its own stack and on the heap. -/
theorem compute (h : Resumable L es k) (hr : k.Active r) {cpu : Cpu}
    {mem : Memory} (hsp : r.Holds cpu.rsp) (hmem : k.Untouched mem)
    (hctx : ∀ i < k.tasks.length,
      mem (contextAddr L k.tasksPtr i) = k.mem (contextAddr L k.tasksPtr i)) :
    Resumable L es { k with cpu := cpu, mem := mem } := by
  refine ⟨h.consistent.compute hr hsp, h.ids, h.idsNodup, h.events,
    fun i t ht hi => ?_⟩
  obtain ⟨c, hres, hpark⟩ := h.parked i t ht hi
  have hst : t.region k.kernelStack ∈ k.flowStacks :=
    region_mem_flowStacks (List.mem_of_getElem? ht)
  refine ⟨c, hres, ?_⟩
  exact hpark.congr (h.consistent.range _ hst) (hctx i (List.getElem?_eq_some_iff.1 ht).1)
    (hmem _ hst (h.consistent.not_holds ht hi))

theorem init (h : Resumable L es k) (hs : k.scheduler = none) :
    Resumable L es { k with scheduler := some Scheduler.init } := by
  have hn : k.nextId = 0 := by simp only [nextId, hs]
  refine ⟨h.consistent.init hs, ?_, ?_, ?_, ?_⟩
  · simp [tasks, Scheduler.init]
  · simp [tasks, Scheduler.init]
  · have := h.events
    rwa [hn] at this
  · simp [tasks, Scheduler.init]

theorem spawn (h : Resumable L es k) (hs : k.scheduler = some s) {entry p tasksPtr : UInt64}
    {w : Option ℕ} {mem : Memory} (hsp : Spawned L k entry p tasksPtr mem) :
    Resumable L (es ++ [.spawn s.nextId entry w p]) (k.spawn s p w tasksPtr mem) := by
  have hn := nextId_of_scheduler hs
  have hn' : (k.spawn s p w tasksPtr mem).nextId = k.nextId + 1 := by rw [hn]; rfl
  have hout : ∀ id, ¬ Event.SwitchesOut id (.spawn s.nextId entry w p) := by
    rintro id ⟨_, _, _, h⟩
    cases h
  have hspawn : ∀ id, Event.Spawns id (.spawn s.nextId entry w p) → id = s.nextId := by
    rintro id ⟨_, _, _, h⟩
    cases h
    rfl
  refine ⟨h.consistent.spawn hs hsp, ?_, ?_, h.events_snoc (by omega) fun id hid => ?_,
    fun i t ht hi => ?_⟩
  · rw [tasks_spawn hs, hn']
    intro t ht
    rcases List.mem_append.1 ht with ht | ht
    · have := h.ids t ht
      omega
    · rw [List.mem_singleton.1 ht]
      dsimp only
      omega
  · rw [tasks_spawn hs, List.map_append, List.nodup_append]
    refine ⟨h.idsNodup, by simp, fun a ha b hb hab => ?_⟩
    obtain ⟨t, ht, rfl⟩ := List.mem_map.1 ha
    have hb' : b = s.nextId := by simpa using hb
    have := h.ids t ht
    omega
  · rcases hid with hid | hid
    · exact absurd hid (hout id)
    · rw [hspawn id hid]
      omega
  · rw [tasks_spawn hs] at ht
    by_cases hlt : i < k.tasks.length
    · -- a task that was there before
      rw [List.getElem?_append_left hlt] at ht
      have hi' : k.schedulerRunning = true → i ≠ k.current := by
        rw [current_of_scheduler hs]; exact hi
      obtain ⟨c, hres, hpark⟩ := h.parked i t ht hi'
      have hst : t.region k.kernelStack ∈ k.flowStacks :=
        region_mem_flowStacks (List.mem_of_getElem? ht)
      refine ⟨c, hres.snoc (hout _) fun hid => ?_, ?_⟩
      · have := h.ids t (List.mem_of_getElem? ht)
        rw [hspawn _ hid] at this
        omega
      · exact hpark.congr (h.consistent.range _ hst) (hsp.contexts i hlt)
          (hsp.untouched _ hst (h.consistent.not_holds ht hi'))
    · -- the new task
      rw [List.getElem?_append_right (Nat.le_of_not_lt hlt)] at ht
      obtain ⟨hi0, rfl⟩ : i - k.tasks.length = 0 ∧ _ = t := by
        simpa [List.getElem?_singleton] using ht
      have hin : i = k.tasks.length := by omega
      subst hin
      refine ⟨entryState entry p, ResumesAt.spawned (fun e he hid => ?_) (fun e he hid => ?_)
        hsp.range, Parked.spawned hsp⟩
      · have := h.events e he _ (.inl hid)
        omega
      · have := h.events e he _ (.inr hid)
        omega

theorem register (h : Resumable L es k) (hs : k.scheduler = some s)
    (hrun : k.schedulerRunning = false) {tasksPtr : UInt64} {mem : Memory}
    (hreg : Registered L k tasksPtr mem) :
    Resumable L es (k.register s tasksPtr mem) := by
  have hn := nextId_of_scheduler hs
  have hn' : (k.register s tasksPtr mem).nextId = k.nextId + 1 := by rw [hn]; rfl
  refine ⟨h.consistent.register hs hrun hreg, ?_, ?_, fun e he id hid => ?_,
    fun i t ht hi => ?_⟩
  · rw [tasks_register hs, hn']
    intro t ht
    rcases List.mem_cons.1 ht with rfl | ht
    · dsimp only
      omega
    · have := h.ids t ht
      omega
  · rw [tasks_register hs, List.map_cons, List.nodup_cons]
    refine ⟨fun hmem => ?_, h.idsNodup⟩
    obtain ⟨t, ht, hid⟩ := List.mem_map.1 hmem
    have := h.ids t ht
    dsimp only at hid
    omega
  · have := h.events e he id hid
    omega
  · rw [tasks_register hs] at ht
    -- the idle task runs; every other has moved up by one
    cases i with
    | zero => exact absurd rfl (hi rfl)
    | succ i =>
      rw [List.getElem?_cons_succ] at ht
      have hi' : k.schedulerRunning = true → i ≠ k.current := by simp [hrun]
      obtain ⟨c, hres, hpark⟩ := h.parked i t ht hi'
      have hst : t.region k.kernelStack ∈ k.flowStacks :=
        region_mem_flowStacks (List.mem_of_getElem? ht)
      refine ⟨c, hres, ?_⟩
      exact hpark.congr (h.consistent.range _ hst)
        (hreg.contexts i (List.getElem?_eq_some_iff.1 ht).1)
        (hreg.untouched _ hst (h.consistent.not_holds ht hi'))

theorem sleep (h : Resumable L es k) (hs : k.scheduler = some s) (i : ℕ) :
    Resumable L es { k with scheduler := some (s.setState i .Sleeping) } := by
  have htasks := tasks_of_scheduler hs
  have hn := nextId_of_scheduler hs
  have hids : (s.setState i .Sleeping).tasks.map Task.id = k.tasks.map Task.id := by
    rw [htasks, Scheduler.map_setState fun _ _ => rfl]
  have hidsMem : ∀ t ∈ (s.setState i .Sleeping).tasks, t.id < k.nextId := fun t ht => by
    obtain ⟨u, hu, hid⟩ := List.mem_map.1 (hids ▸ List.mem_map_of_mem ht)
    rw [← hid]
    exact h.ids u hu
  refine ⟨h.consistent.sleep hs i, ?_, ?_, ?_, fun j t ht hj => ?_⟩
  · rw [hn] at hidsMem
    exact hidsMem
  · have := h.idsNodup
    rwa [← hids] at this
  · have := h.events
    rwa [hn] at this
  · have ht' : (s.setState i .Sleeping).tasks[j]? = some t := ht
    rw [Scheduler.getElem?_setState, ← htasks] at ht'
    obtain ⟨u, hu, rfl⟩ := Option.map_eq_some_iff.1 ht'
    obtain ⟨c, hres, hpark⟩ := h.parked j u hu fun hrun => by
      rw [current_of_scheduler hs]
      exact hj hrun
    have hsame : ∀ st, (if i = j then { u with state := st } else u).id = u.id ∧
        (if i = j then { u with state := st } else u).region k.kernelStack =
          u.region k.kernelStack := fun st => by
      split <;> exact ⟨rfl, rfl⟩
    refine ⟨c, ?_, ?_⟩
    · rw [(hsame _).1]
      exact hres
    · dsimp only
      rw [(hsame _).2]
      exact ⟨hpark.load, hpark.frame⟩

/-- A task is known by its id. -/
theorem index_eq (h : Resumable L es k) {i j : ℕ} {t u : Task} (ht : k.tasks[i]? = some t)
    (hu : k.tasks[j]? = some u) (hid : t.id = u.id) : i = j := by
  have hi : i < (k.tasks.map Task.id).length := by
    rw [List.length_map]; exact (List.getElem?_eq_some_iff.1 ht).1
  refine (List.getElem?_inj hi h.idsNodup).1 ?_
  rw [List.getElem?_map, List.getElem?_map, ht, hu, Option.map_some, Option.map_some, hid]

/-- A switch leaves what the other tasks have saved. -/
theorem parked_switchTo (h : Resumable L es k) (hrun : k.schedulerRunning = true) (hr : k.Active r)
    (hroom : r.lo + 56 ≤ k.cpu.rsp.toNat) (hs : k.scheduler = some s) (next : ℕ) {i : ℕ} {t : Task}
    (ht : k.tasks[i]? = some t) (hi : i ≠ k.current) {cpu : Cpu}
    (hp : Parked L k i (t.region k.kernelStack) cpu) :
    Parked L (k.switchTo L s next) i (t.region k.kernelStack) cpu := by
  obtain ⟨hctx, hmem⟩ := savedMem_other h.consistent hr hroom ht hrun hi
  have hst := region_mem_flowStacks (List.mem_of_getElem? ht)
  rw [switchTo_eq hs]
  exact hp.congr (h.consistent.range _ hst) hctx hmem

/-- A switch saves where the current task has to continue. -/
theorem parked_switchedOut (h : Resumable L es k) (hrun : k.schedulerRunning = true)
    (hr : k.Active r) (hroom : r.lo + 56 ≤ k.cpu.rsp.toNat) (hs : k.scheduler = some s) (next : ℕ)
    {old : Task} (hold : k.tasks[k.current]? = some old) :
    Parked L (k.switchTo L s next) k.current (old.region k.kernelStack) k.cpu := by
  obtain ⟨hctx, hload, hframe⟩ :=
    savedMem_context h.consistent hr hroom (h.consistent.current hrun)
  have hreg : r = old.region k.kernelStack := by
    have := h.consistent.flow_of_active hr
    rw [flow, if_pos hrun, flowStacks_getElem? hrun, hold] at this
    exact (Option.some.inj this).symm
  rw [switchTo_eq hs]
  refine ⟨?_, ?_⟩
  · dsimp only
    rw [hctx, hload]
  · dsimp only
    rw [hctx, ← hreg]
    exact hframe

/-- **One switch.**  The task switched in continues where it has to, and from now on the task
switched out has to continue where it made its call. -/
theorem switch (h : Resumable L es k) (hrun : k.schedulerRunning = true) (hr : k.Active r)
    (hroom : r.lo + 56 ≤ k.cpu.rsp.toNat) (hs : k.scheduler = some s) {next : ℕ}
    (hnext : s.nextTask = some next) {old new : Task} (hold : s.tasks[s.current]? = some old)
    (hnew : s.tasks[next]? = some new) :
    ResumesAt es new.id (k.switchTo L s next).cpu ∧
      Resumable L (es ++ [.yieldSwitched old.id k.cpu new.id (k.switchTo L s next).cpu])
        (k.switchTo L s next) := by
  have htasks := tasks_of_scheduler hs
  have hcur := current_of_scheduler hs
  have hn := nextId_of_scheduler hs
  have hclt := h.consistent.current hrun
  have hne : next ≠ s.current :=
    (Scheduler.nextTask_eq_some (by rwa [htasks, hcur] at hclt) hnext).2
  rw [← htasks] at hold hnew
  have hnlt : next < k.tasks.length := (List.getElem?_eq_some_iff.1 hnew).1
  obtain ⟨c, hres, hpark⟩ := h.parked next new hnew fun _ => by rwa [hcur]
  have hnewPark := h.parked_switchTo hrun hr hroom hs next hnew (by rwa [hcur]) hpark
  have hcpu : (k.switchTo L s next).cpu = c := by
    rw [← hnewPark.load, switchTo_eq hs]
  have hids : (k.switchTo L s next).tasks.map Task.id = k.tasks.map Task.id := by
    rw [tasks_switchTo, htasks, Scheduler.map_dispatch fun _ _ => rfl]
  have hnext' : (k.switchTo L s next).nextId = k.nextId := by
    simp only [nextId, scheduler_switchTo, hs, Scheduler.dispatch, Scheduler.setState]
  rw [hcpu]
  refine ⟨hres, ?_, ?_, ?_, ?_, fun i t ht hi => ?_⟩
  · -- the stack pointer is on the stack of the new task
    refine h.consistent.congr (flowStacks_switchTo hs) tasksPtr_switchTo (length_tasks_switchTo hs)
      (fun _ => ?_) ⟨new.region k.kernelStack, ?_, ?_⟩
    · rw [length_tasks_switchTo hs, current_switchTo]
      exact hnlt
    · rw [flow, running_switchTo, if_pos hrun, flowStacks_getElem? hrun, current_switchTo, hnew]
      rfl
    · rw [hcpu]
      exact hpark.holds (h.consistent.range _ (region_mem_flowStacks (List.mem_of_getElem? hnew)))
  · intro t ht
    obtain ⟨u, hu, hid⟩ := List.mem_map.1 (hids ▸ List.mem_map_of_mem ht)
    rw [← hid, hnext']
    exact h.ids u hu
  · rw [hids]; exact h.idsNodup
  · rw [hnext']
    refine h.events_snoc le_rfl fun id hid => ?_
    rcases hid with ⟨_, _, _, heq⟩ | ⟨_, _, _, heq⟩
    · cases heq
      exact h.ids old (List.mem_of_getElem? hold)
    · cases heq
  · rw [tasks_switchTo, Scheduler.getElem?_dispatch, ← htasks] at ht
    obtain ⟨u, hu, rfl⟩ := Option.map_eq_some_iff.1 ht
    rw [kernelStack_switchTo, Task.region_setState]
    by_cases hic : i = k.current
    · -- the task switched out
      subst hic
      obtain rfl : old = u := Option.some.inj (hold.symm.trans (hcur ▸ hu))
      exact ⟨k.cpu, ResumesAt.switchedOut es old.id k.cpu new.id c,
        h.parked_switchedOut hrun hr hroom hs next hu⟩
    · obtain ⟨cpu, hres', hpark'⟩ := h.parked i u hu fun _ => hic
      refine ⟨cpu, hres'.snoc ?_ ?_, h.parked_switchTo hrun hr hroom hs next hu hic hpark'⟩
      · rintro ⟨_, _, _, heq⟩
        have hid : old.id = u.id := by injection heq
        exact hic (h.index_eq hu (by rwa [hcur]) hid.symm)
      · rintro ⟨_, _, _, heq⟩
        cases heq

/-- **The invariant survives every step.** -/
theorem step (h : Resumable L es k) (hst : Step L k e k') : Resumable L (es ++ [e]) k' := by
  cases hst with
  | compute hr hsp hmem hctx =>
    exact (h.compute hr hsp hmem hctx).snoc (Event.silent_of_ne nofun nofun)
  | enable _ _ => exact (h.flags true k.remembered).snoc (Event.silent_of_ne nofun nofun)
  | enter _ => exact (h.flags _ _).snoc (Event.silent_of_ne nofun nofun)
  | leave _ hleave =>
    obtain ⟨flag, rest, -, rfl⟩ := leaveSection_eq_some hleave
    exact (h.flags _ _).snoc (Event.silent_of_ne nofun nofun)
  | hlt _ _ _ => exact h.snoc (Event.silent_of_ne nofun nofun)
  | init hs => exact (h.init hs).snoc (Event.silent_of_ne nofun nofun)
  | spawn hs hsp => exact h.spawn hs hsp
  | run hs hrun _ hreg => exact (h.register hs hrun hreg).snoc (Event.silent_of_ne nofun nofun)
  | sleep hs _ => exact (h.sleep hs _).snoc (Event.silent_of_ne nofun nofun)
  | currentWindowId => exact h.snoc (Event.silent_of_ne nofun nofun)
  | yieldEarly _ => exact h.snoc (Event.silent_of_ne nofun nofun)
  | yieldReturned _ _ _ hleave =>
    rw [leaveSection_enterSection] at hleave
    cases hleave
    exact h.snoc (Event.silent_of_ne nofun nofun)
  | yieldSwitched hrun hr hroom hs hnext hold hnew heq =>
    subst heq
    exact ((h.flags false _).switch (r := _) hrun hr hroom hs hnext hold hnew).2

/-- Control reaches a task that is switched in in the state in which it has to continue. -/
theorem arrives (h : Resumable L es k) {out into : ℕ} {call arrival : Cpu}
    (hst : Step L k (.yieldSwitched out call into arrival) k') :
    k.cpu = call ∧ k'.cpu = arrival ∧ ResumesAt es into arrival := by
  cases hst with
  | yieldSwitched hrun hr hroom hs hnext hold hnew heq =>
    subst heq
    exact ⟨rfl, rfl, ((h.flags false _).switch (r := _) hrun hr hroom hs hnext hold hnew).1⟩

/-- **Every run from boot keeps the invariant.** -/
theorem of_trace {k₀ : Kernel} (h₀ : Boot k₀) (h : Trace (Step L) k₀ es k) :
    Resumable L es k :=
  h.history (fun _ _ _ _ hI hst => hI.step hst) (of_boot h₀)

end Resumable

/-! ### A run with one task -/

namespace OneTask

/-- A task of eight bytes. -/
def layout : TaskLayout := ⟨8, 0, by decide⟩

/-- `kernel_main` with interrupts enabled and six different registers, about to call
`task::init`. -/
def boot : Kernel where
  cpu := ⟨0x100, 0x90000, ⟨1, 2, 3, 4, 5, 6⟩⟩
  mem := fun _ => 0
  interruptFlag := true
  scheduler := none
  schedulerRunning := false
  tasksPtr := 8
  kernelStack := ⟨0x80000, 0x90000⟩
  remembered := fun _ => []

/-- The scheduler when a task has been spawned at `0x1000`, with its stack at `0x20000`. -/
def scheduler : Scheduler := Scheduler.init.spawn 0x20000 none

/-- The memory after the spawn, with the vector of tasks at `0x10000`. -/
def spawnMem : Memory :=
  (buildFrame (zeroed boot.mem 0x20000) (stackTop 0x20000) 0x1000).1.write 0x10000
    (buildFrame (zeroed boot.mem 0x20000) (stackTop 0x20000) 0x1000).2

/-- The state after the spawn. -/
def spawned : Kernel :=
  { boot with scheduler := some Scheduler.init }.spawn Scheduler.init 0x20000 none 0x10000 spawnMem

/-- The memory after `run`, with the vector of tasks moved to `0x11000`. -/
def runMem : Memory := (spawnMem.write 0x11000 0).write 0x11008 (spawnMem 0x10000)

/-- The state after the first part of `run`. -/
def running : Kernel := spawned.register scheduler 0x11000 runMem

/-- The state after the first `yield_now` of the idle task. -/
def switched : Kernel := (running.enterSection running.kernelStack).switchTo layout scheduler.register 1

/-- The events up to the first `yield_now`. -/
def events : List Event := [.init, .spawn 0 0x1000 none 0x20000, .run true]

theorem boot_boot : Boot boot :=
  ⟨rfl, rfl, by decide, by decide, rfl⟩

theorem spawned_spawned : Spawned layout { boot with scheduler := some Scheduler.init } 0x1000
    0x20000 0x10000 spawnMem where
  range := by decide
  apart := by decide
  tasks := ⟨by decide, by decide⟩
  untouched := by
    intro r hr hsp
    have hr' : r = boot.kernelStack := by simpa [flowStacks, tasks, boot, Scheduler.init] using hr
    subst hr'
    exact absurd (by decide) hsp
  frame := fun a ha => Memory.write_of_ne (by rintro rfl; exact absurd ha (by decide)) _ _
  contexts := fun i hi => absurd hi (Nat.not_lt_zero i)
  context := Memory.write_self _ _ _

theorem running_registered : Registered layout spawned 0x11000 runMem where
  tasks := ⟨by decide, by decide⟩
  untouched := by
    intro r hr hsp a ha
    have hr' : r = boot.kernelStack ∨ r = taskStack 0x20000 := by
      simpa [flowStacks, tasks, spawned, Kernel.spawn, boot, Scheduler.spawn, Scheduler.init,
        Task.region] using hr
    rcases hr' with rfl | rfl
    · exact absurd (by decide) hsp
    · have h1 : a ≠ 0x11008 := by rintro rfl; exact absurd ha (by decide)
      have h2 : a ≠ 0x11000 := by rintro rfl; exact absurd ha (by decide)
      rw [runMem, Memory.write_of_ne h1, Memory.write_of_ne h2]
      rfl
  context := by
    rw [runMem, Memory.write_of_ne (by decide)]
    exact Memory.write_self _ _ _
  contexts := by
    intro i hi
    have hi' : i = 0 := by
      have : spawned.tasks.length = 1 := rfl
      omega
    subst hi'
    exact Memory.write_self _ _ _

/-- **The run exists**: `init`, `spawn`, `run`. -/
theorem trace : Trace (Step layout) boot events running := by
  refine .cons (.init rfl) (.cons (.spawn rfl spawned_spawned) (.cons ?_ (.nil _)))
  exact .run (k := spawned) rfl rfl rfl running_registered

/-- The idle task yields to the task that was spawned. -/
theorem step : Step layout running (.yieldSwitched 1 running.cpu 0 switched.cpu) switched :=
  @Step.yieldSwitched layout running switched scheduler.register running.kernelStack 1
    ⟨1, none, .Running, none⟩ ⟨0, some 0x20000, .Ready, none⟩ rfl ⟨by decide, by decide⟩
    (by decide) rfl (by decide) rfl rfl rfl

/-- The scheduler while the task that was spawned runs. -/
def dispatched : Scheduler := scheduler.register.dispatch 1

/-- The state after the first `yield_now` of that task: the idle task is back in its own call. -/
def resumed : Kernel := (switched.enterSection (taskStack 0x20000)).switchTo layout dispatched 0

/-- The task that was spawned yields to the idle task. -/
theorem step_back : Step layout switched (.yieldSwitched 0 switched.cpu 1 resumed.cpu) resumed :=
  @Step.yieldSwitched layout switched resumed dispatched (taskStack 0x20000) 0
    ⟨0, some 0x20000, .Running, none⟩ ⟨1, none, .Ready, none⟩ rfl ⟨by decide, by decide⟩
    (by decide) rfl (by decide) rfl rfl rfl

/-- The state after the first `yield_now` of the idle task has returned. -/
def returned : Kernel :=
  { resumed with
    interruptFlag := true
    remembered := fun r => if r = boot.kernelStack then [] else resumed.remembered r }

theorem step_return : Step layout resumed .leave returned :=
  .leave (r := boot.kernelStack) ⟨by decide, by decide⟩ rfl

/-- The state after the second `yield_now` of the idle task. -/
def again : Kernel :=
  (returned.enterSection boot.kernelStack).switchTo layout (dispatched.dispatch 0) 1

/-- The idle task yields again. -/
theorem step_again : Step layout returned (.yieldSwitched 1 returned.cpu 0 again.cpu) again :=
  @Step.yieldSwitched layout returned again (dispatched.dispatch 0) boot.kernelStack 1
    ⟨1, none, .Running, none⟩ ⟨0, some 0x20000, .Ready, none⟩ rfl ⟨by decide, by decide⟩
    (by decide) rfl (by decide) rfl rfl rfl

end OneTask

/-! ### The theorems -/

/-- **Context switching keeps every task's registers.**  In every run, whatever tasks are spawned
and in whatever order they yield: control reaches the task that is switched in in the state in
which it has to continue. -/
theorem Kernel.switch_resumes {k₀ k k' : Kernel} {es : List Event} {out into : ℕ}
    {call arrival : Cpu} (h₀ : Boot k₀) (h : Trace (Step L) k₀ es k)
    (hst : Step L k (.yieldSwitched out call into arrival) k') :
    k.cpu = call ∧ k'.cpu = arrival ∧ ResumesAt es into arrival :=
  (Resumable.of_trace h₀ h).arrives hst

/-- The idle task finds its six registers, the stack pointer and the return address of its first
`yield_now` again, when the other task, which started with zero registers, yields back to it. -/
theorem Kernel.switch_resumes_oneTask :
    OneTask.resumed.cpu = OneTask.running.cpu ∧
      OneTask.switched.cpu = ⟨0x1000, stackTop 0x20000, Regs.zero⟩ := by
  have hback := Kernel.switch_resumes OneTask.boot_boot (OneTask.trace.append (.single OneTask.step))
    OneTask.step_back
  have hfirst := Kernel.switch_resumes OneTask.boot_boot OneTask.trace OneTask.step
  refine ⟨hback.2.2.call OneTask.events [] _ 0 _ rfl (by simp), ?_⟩
  refine (hfirst.2.2.entry 0x1000 none 0x20000 (by simp [OneTask.events]) ?_).1
  rintro e he ⟨call, into, arrival, rfl⟩
  simp [OneTask.events] at he

/-- **A new task starts with a misaligned stack.**  At the first instruction of its entry function
`rsp` is a multiple of 16, wherever its stack has been allocated, while a function that has been
called finds a multiple of 16 in `rsp + 8`. -/
theorem Kernel.entry_misaligned {k₀ k k' : Kernel} {es : List Event} {out into : ℕ}
    {call arrival : Cpu} {entry p : UInt64} {w : Option ℕ} (h₀ : Boot k₀)
    (h : Trace (Step L) k₀ es k) (hst : Step L k (.yieldSwitched out call into arrival) k')
    (hspawn : .spawn into entry w p ∈ es) (hfirst : ∀ e ∈ es, ¬ e.SwitchesOut into) :
    k'.cpu.rip = entry ∧ (k'.cpu.rsp.toNat + 8) % 16 ≠ 0 := by
  obtain ⟨-, harrival, hres⟩ := (Resumable.of_trace h₀ h).arrives hst
  obtain ⟨rfl, -, -⟩ := hres.entry entry w p hspawn hfirst
  have hmod := stackTop_mod p
  rw [harrival]
  refine ⟨rfl, ?_⟩
  dsimp only
  omega

theorem Kernel.entry_misaligned_oneTask :
    OneTask.switched.cpu.rip = 0x1000 ∧ (OneTask.switched.cpu.rsp.toNat + 8) % 16 ≠ 0 :=
  Kernel.entry_misaligned (w := none) (p := 0x20000) OneTask.boot_boot OneTask.trace OneTask.step
    (List.mem_cons_of_mem _ List.mem_cons_self) (by
      intro e he hout
      obtain ⟨call, into, arrival, rfl⟩ := hout
      simp [OneTask.events] at he)

/-- The stack pointer of the task spawned with its stack at `0x20000`, at its entry: an ABI that
wants `rsp + 8` to be a multiple of 16 is violated. -/
theorem Kernel.entry_misaligned_stack :
    Trace (Step OneTask.layout) OneTask.boot OneTask.events OneTask.running ∧
      Step OneTask.layout OneTask.running
        (.yieldSwitched 1 OneTask.running.cpu 0 OneTask.switched.cpu) OneTask.switched ∧
      OneTask.switched.cpu.rip = 0x1000 ∧ ¬ (OneTask.switched.cpu.rsp.toNat + 8) % 16 = 0 :=
  ⟨OneTask.trace, OneTask.step, by decide, by decide⟩

end ROs
