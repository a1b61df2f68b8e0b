import ROs.Task.Resume

/-!
# The interrupt flag

`switch_context` does not save the interrupt flag: after a switch it is what the task that was
switched out has left, until the task switched in leaves its own call of `without_interrupts`.
`FlagEffect` says what a step can do to the flag and to what is remembered of it.

* `Kernel.yieldNow_restores` : **`yield_now` preserves the flag**, whichever tasks run in between,
  and the idle loop halts only with interrupts enabled.
* `Kernel.unmasked_of_undisturbed` : spawned tasks have interrupts enabled exactly as long as none
  of them runs: **a new task starts with interrupts disabled**, since its first dispatch is inside
  the `without_interrupts` of another task and nothing enables them again.
-/

namespace ROs

variable {L : TaskLayout}

open Kernel

namespace Kernel

/-- The flow of control on the stack `r` is the current one. -/
def OnTop (k : Kernel) (r : Region) : Prop := k.flowStacks[k.flow]? = some r

theorem OnTop.unique {k : Kernel} {r r' : Region} (h : k.OnTop r) (h' : k.OnTop r') : r = r' :=
  Option.some.inj (h.symm.trans h')

theorem OnTop.mem {k : Kernel} {r : Region} (h : k.OnTop r) : r ∈ k.flowStacks :=
  List.mem_of_getElem? h

end Kernel

/-- What a step does to the flag and to the flags remembered. -/
inductive FlagEffect (k : Kernel) (e : Event) (k' : Kernel) : Prop
  /-- Nothing; `run` makes the boot flow the idle task. -/
  | keep (flag : k'.interruptFlag = k.interruptFlag) (remembered : k'.remembered = k.remembered)
      (flows : k'.flowStacks = k.flowStacks) (top : ∀ r, k'.OnTop r ↔ k.OnTop r)
      (running : k'.schedulerRunning = k.schedulerRunning ∨
        e = .run k.interruptFlag ∧ k.OnTop k.kernelStack ∧ k.remembered k.kernelStack = [])
  /-- Interrupts are enabled, outside of any section. -/
  | enable {r : Region} (onTop : k.OnTop r) (outside : k.remembered r = [])
      (flag : k'.interruptFlag = true) (remembered : k'.remembered = k.remembered)
      (flows : k'.flowStacks = k.flowStacks) (top : ∀ r, k'.OnTop r ↔ k.OnTop r)
      (running : k'.schedulerRunning = k.schedulerRunning)
  /-- The current flow of control enters a section; it may then switch to another. -/
  | enter {r : Region} (onTop : k.OnTop r) (flag : k'.interruptFlag = false)
      (here : k'.remembered r = k.interruptFlag :: k.remembered r)
      (elsewhere : ∀ r', r' ≠ r → k'.remembered r' = k.remembered r')
      (flows : k'.flowStacks = k.flowStacks)
      (top : (∀ r, k'.OnTop r ↔ k.OnTop r) ∨
        ∃ out call into arrival, e = .yieldSwitched out call into arrival)
      (running : k'.schedulerRunning = k.schedulerRunning)
  /-- The current flow of control leaves its innermost section. -/
  | leave {r : Region} {flag : Bool} (onTop : k.OnTop r)
      (here : k.remembered r = flag :: k'.remembered r)
      (elsewhere : ∀ r', r' ≠ r → k'.remembered r' = k.remembered r')
      (restored : k'.interruptFlag = if flag then true else k.interruptFlag)
      (flows : k'.flowStacks = k.flowStacks) (top : ∀ r, k'.OnTop r ↔ k.OnTop r)
      (running : k'.schedulerRunning = k.schedulerRunning)
  /-- A new stack, on which nothing is remembered. -/
  | spawn {p : UInt64} (fresh : ∀ r ∈ k.flowStacks, r ≠ taskStack p)
      (flag : k'.interruptFlag = k.interruptFlag) (here : k'.remembered (taskStack p) = [])
      (elsewhere : ∀ r, r ≠ taskStack p → k'.remembered r = k.remembered r)
      (flows : k'.flowStacks = k.flowStacks ++ [taskStack p])
      (top : ∀ r, k'.OnTop r ↔ k.OnTop r) (running : k'.schedulerRunning = k.schedulerRunning)

/-- A stack that is apart from another is a different one. -/
theorem taskStack_ne {p : UInt64} {r : Region} (h : (taskStack p).Disjoint r) :
    r ≠ taskStack p := by
  rintro rfl
  have hsize : TASK_STACK_SIZE.toNat = 65536 := rfl
  unfold Region.Disjoint taskStack at h
  dsimp only at h
  omega

/-- **What a step does to the flag.** -/
theorem Step.flagEffect {k k' : Kernel} {e : Event} (h : Consistent L k) (hst : Step L k e k') :
    FlagEffect k e k' := by
  cases hst with
  | compute _ _ _ _ => exact .keep rfl rfl rfl (fun _ => Iff.rfl) (.inl rfl)
  | enable hr hrem => exact .enable (h.flow_of_active hr) hrem rfl rfl rfl (fun _ => Iff.rfl) rfl
  | enter hr =>
    exact .enter (h.flow_of_active hr) rfl (if_pos rfl) (fun _ hne => if_neg hne) rfl
      (.inl fun _ => Iff.rfl) rfl
  | leave hr hleave =>
    obtain ⟨flag, rest, hrem, rfl⟩ := leaveSection_eq_some hleave
    refine @FlagEffect.leave _ _ _ _ flag (h.flow_of_active hr) ?_ (fun _ hne => if_neg hne) rfl rfl
      (fun _ => Iff.rfl) rfl
    rw [hrem]
    dsimp only
    rw [if_pos rfl]
  | hlt _ _ _ => exact .keep rfl rfl rfl (fun _ => Iff.rfl) (.inl rfl)
  | init hs =>
    refine .keep rfl rfl (flowStacks_init hs) (fun r => ?_) (.inl rfl)
    rw [OnTop, OnTop, flowStacks_init hs, flow_init hs]
  | @spawn s entry p tasksPtr w mem hs hsp =>
    refine .spawn (fun r hr => taskStack_ne (hsp.apart r hr)) rfl (if_pos rfl)
      (fun r hne => if_neg hne) (flowStacks_spawn hs) (fun r => ?_) rfl
    obtain ⟨r₀, hr₀, -⟩ := h.active
    rw [OnTop, OnTop, flowStacks_spawn hs, flow_spawn hs, List.getElem?_append_left]
    exact (List.getElem?_eq_some_iff.1 hr₀).1
  | @run s tasksPtr mem hs hrun hrem hreg =>
    have hst : (k.register s tasksPtr mem).flowStacks = k.flowStacks :=
      flowStacks_register hs hrun
    have htop : k.OnTop k.kernelStack := by simp [OnTop, flowStacks, flow, hrun]
    refine .keep rfl rfl hst (fun r => ?_) (.inr ⟨rfl, htop, hrem⟩)
    have hflow : k.flow = 0 := by simp [flow, hrun]
    rw [OnTop, OnTop, hst, hflow]
    rfl
  | sleep hs _ =>
    refine .keep rfl rfl (flowStacks_setState hs) (fun r => ?_) (.inl rfl)
    rw [OnTop, OnTop, flowStacks_setState hs, flow_setState hs]
  | currentWindowId => exact .keep rfl rfl rfl (fun _ => Iff.rfl) (.inl rfl)
  | yieldEarly _ => exact .keep rfl rfl rfl (fun _ => Iff.rfl) (.inl rfl)
  | yieldReturned _ _ _ hleave =>
    rw [leaveSection_enterSection] at hleave
    cases hleave
    exact .keep rfl rfl rfl (fun _ => Iff.rfl) (.inl rfl)
  | @yieldSwitched _ s r next old new _ hr _ hs _ _ _ heq =>
    subst heq
    have hs' : (k.enterSection r).scheduler = some s := hs
    refine .enter (h.flow_of_active hr) ?_ ?_ (fun r' hne => ?_) (flowStacks_switchTo hs')
      (.inr ⟨_, _, _, _, rfl⟩) running_switchTo
    · simp only [switchTo, enterSection]
    · simp only [switchTo, enterSection, if_true]
    · simp only [switchTo, enterSection, if_neg hne]

/-! ### Inside a section interrupts are disabled -/

/-- The invariant of the flag, for all flows of control. -/
structure Masked (k : Kernel) : Prop where
  /-- The current flow of control has interrupts disabled in its sections. -/
  masked : ∀ r, k.OnTop r → k.remembered r ≠ [] → k.interruptFlag = false
  /-- An inner section has been entered with interrupts disabled. -/
  nested : ∀ r ∈ k.flowStacks, ∀ flag ∈ (k.remembered r).dropLast, flag = false

namespace Masked

variable {k k' : Kernel} {e : Event}

theorem of_boot (h : Boot k) : Masked k := by
  have hst : k.flowStacks = [k.kernelStack] := by
    simp [flowStacks, h.running, tasks, h.scheduler]
  refine ⟨fun r htop hne => ?_, fun r hr flag hflag => ?_⟩
  · have := htop.mem
    rw [hst, List.mem_singleton] at this
    subst this
    exact absurd h.remembered hne
  · rw [hst, List.mem_singleton] at hr
    subst hr
    rw [h.remembered] at hflag
    cases hflag

theorem step (h : Masked k) (hst : FlagEffect k e k') : Masked k' := by
  cases hst with
  | keep flag remembered flows top _ =>
    refine ⟨fun r htop hne => ?_, ?_⟩
    · rw [flag]
      rw [remembered] at hne
      exact h.masked r ((top r).1 htop) hne
    · rw [flows, remembered]
      exact h.nested
  | @enable r onTop outside flag remembered flows top _ =>
    refine ⟨fun r' htop hne => ?_, ?_⟩
    · rw [remembered, ((top r').1 htop).unique onTop, outside] at hne
      exact absurd rfl hne
    · rw [flows, remembered]
      exact h.nested
  | @enter r onTop flag here elsewhere flows _ _ =>
    refine ⟨fun _ _ _ => flag, ?_⟩
    rw [flows]
    intro r' hr' b hb
    by_cases hrr : r' = r
    · subst hrr
      rw [here] at hb
      by_cases hnil : k.remembered r' = []
      · rw [hnil] at hb
        cases hb
      · rw [List.dropLast_cons_of_ne_nil hnil] at hb
        rcases List.mem_cons.1 hb with rfl | hb
        · exact h.masked r' onTop hnil
        · exact h.nested r' hr' b hb
    · rw [elsewhere r' hrr] at hb
      exact h.nested r' hr' b hb
  | @leave r b onTop here elsewhere restored flows top _ =>
    -- an outer section is left open only if the inner one was entered in it
    have houter : k'.remembered r ≠ [] → b = false := fun hne => by
      refine h.nested r onTop.mem b ?_
      rw [here, List.dropLast_cons_of_ne_nil hne]
      exact List.mem_cons_self
    refine ⟨fun r' htop hne => ?_, ?_⟩
    · have hr' := ((top r').1 htop).unique onTop
      subst hr'
      rw [restored, houter hne]
      exact h.masked r' onTop (by rw [here]; exact List.cons_ne_nil _ _)
    · rw [flows]
      intro r' hr' c hc
      by_cases hrr : r' = r
      · subst hrr
        refine h.nested r' hr' c ?_
        rw [here, List.dropLast_cons_of_ne_nil (by rintro hnil; rw [hnil] at hc; cases hc)]
        exact List.mem_cons_of_mem _ hc
      · rw [elsewhere r' hrr] at hc
        exact h.nested r' hr' c hc
  | @spawn p fresh flag here elsewhere flows top _ =>
    refine ⟨fun r htop hne => ?_, ?_⟩
    · have hk := (top r).1 htop
      rw [elsewhere r (fresh r hk.mem)] at hne
      rw [flag]
      exact h.masked r hk hne
    · rw [flows]
      intro r hr b hb
      rcases List.mem_append.1 hr with hr | hr
      · rw [elsewhere r (fresh r hr)] at hb
        exact h.nested r hr b hb
      · rw [List.mem_singleton.1 hr, here] at hb
        cases hb

/-- Every reached state. -/
theorem of_trace {k₀ : Kernel} {es : List Event} (h₀ : Boot k₀) (h : Trace (Step L) k₀ es k) :
    Masked k := by
  have := h.history (I := fun es k => Resumable L es k ∧ Masked k)
    (fun _ _ _ _ hI hst => ⟨hI.1.step hst, hI.2.step (hst.flagEffect hI.1.consistent)⟩)
    ⟨.of_boot h₀, .of_boot h₀⟩
  exact this.2

end Masked

/-! ### A call of `yield_now` -/

section Restore

variable {k k₁ k₂ : Kernel} {r : Region} {e : Event} {flag : Bool} {flags : List Bool}

/-- While a call of `without_interrupts` is open, what it remembers stays where it is. -/
theorem FlagEffect.keeps_open (h : FlagEffect k e k₁) (hr : r ∈ k.flowStacks) {pre : List Bool}
    (hopen : k.remembered r = pre ++ flag :: flags)
    (hdepth : flags.length < (k₁.remembered r).length) :
    r ∈ k₁.flowStacks ∧ ∃ pre, k₁.remembered r = pre ++ flag :: flags := by
  cases h with
  | keep _ remembered flows _ _ => exact ⟨flows ▸ hr, pre, by rw [remembered, hopen]⟩
  | enable _ _ _ remembered flows _ _ => exact ⟨flows ▸ hr, pre, by rw [remembered, hopen]⟩
  | @enter r' _ _ here elsewhere flows _ _ =>
    refine ⟨flows ▸ hr, ?_⟩
    by_cases hrr : r = r'
    · subst hrr
      exact ⟨k.interruptFlag :: pre, by rw [here, hopen]; rfl⟩
    · exact ⟨pre, by rw [elsewhere r hrr, hopen]⟩
  | @leave r' b _ here elsewhere _ flows _ _ =>
    refine ⟨flows ▸ hr, ?_⟩
    by_cases hrr : r = r'
    · subst hrr
      rw [here] at hopen
      cases pre with
      | nil =>
        -- the call itself would return
        injection hopen with _ htail
        rw [htail] at hdepth
        omega
      | cons c pre =>
        injection hopen with _ htail
        exact ⟨pre, htail⟩
    · exact ⟨pre, by rw [elsewhere r hrr, hopen]⟩
  | @spawn p fresh _ _ elsewhere flows _ _ =>
    refine ⟨flows ▸ List.mem_append_left _ hr, pre, ?_⟩
    rw [elsewhere r (fresh r hr), hopen]

/-- The step in which a call of `without_interrupts` returns sets the flag to what the call has
remembered. -/
theorem FlagEffect.restores (h : FlagEffect k e k₁) (hm : Masked k) (hr : r ∈ k.flowStacks)
    {pre : List Bool} (hopen : k.remembered r = pre ++ flag :: flags)
    (hdepth : (k₁.remembered r).length = flags.length) : k₁.interruptFlag = flag := by
  have hlen : flags.length < (k.remembered r).length := by simp [hopen]; omega
  cases h with
  | keep _ remembered _ _ _ => rw [remembered] at hdepth; omega
  | enable _ _ _ remembered _ _ _ => rw [remembered] at hdepth; omega
  | @enter r' _ _ here elsewhere _ _ _ =>
    by_cases hrr : r = r'
    · subst hrr
      rw [here, List.length_cons] at hdepth
      omega
    · rw [elsewhere r hrr] at hdepth
      omega
  | @leave r' b onTop here elsewhere restored _ _ _ =>
    by_cases hrr : r = r'
    · subst hrr
      rw [here] at hopen
      cases pre with
      | nil =>
        injection hopen with hb _
        subst hb
        rw [restored, hm.masked r onTop (by rw [here]; exact List.cons_ne_nil _ _)]
        cases b <;> rfl
      | cons c pre =>
        injection hopen with _ htail
        rw [htail] at hdepth
        simp at hdepth
        omega
    · rw [elsewhere r hrr] at hdepth
      omega
  | @spawn p fresh _ _ elsewhere _ _ _ =>
    rw [elsewhere r (fresh r hr)] at hdepth
    omega

end Restore

/-! ### The idle task -/

/-- The idle task has interrupts enabled outside of its sections, also when it comes back to it. -/
structure IdleAwake (k : Kernel) : Prop where
  stack : k.kernelStack ∈ k.flowStacks
  awake : k.schedulerRunning = true →
    (k.OnTop k.kernelStack ∧ k.remembered k.kernelStack = [] ∧ k.interruptFlag = true) ∨
      ∃ flags, k.remembered k.kernelStack = flags ++ [true]

namespace IdleAwake

variable {k k' : Kernel} {e : Event}

theorem of_boot (h : Boot k) : IdleAwake k where
  stack := by simp [flowStacks, h.running]
  awake := by simp [h.running]

/-- No step moves the stack of the kernel. -/
theorem kernelStack_eq (hst : Step L k e k') : k'.kernelStack = k.kernelStack := by
  cases hst with
  | leave _ hleave =>
    obtain ⟨_, _, _, rfl⟩ := leaveSection_eq_some hleave
    rfl
  | yieldReturned _ _ _ hleave =>
    rw [leaveSection_enterSection] at hleave
    cases hleave
    rfl
  | yieldSwitched _ _ _ _ _ _ _ heq =>
    subst heq
    rw [kernelStack_switchTo]
    rfl
  | _ => rfl

theorem step (h : IdleAwake k) (hks : k'.kernelStack = k.kernelStack) (hst : FlagEffect k e k')
    (he : e ≠ .run false) : IdleAwake k' := by
  obtain ⟨hmem, hawake⟩ := h
  cases hst with
  | keep flag remembered flows top running =>
    refine ⟨by rw [hks, flows]; exact hmem, fun hrun => ?_⟩
    rw [hks, remembered, flag, top]
    rcases running with running | ⟨rfl, htop, hnone⟩
    · exact hawake (running ▸ hrun)
    · refine .inl ⟨htop, hnone, ?_⟩
      cases hflag : k.interruptFlag
      · rw [hflag] at he
        exact absurd rfl he
      · rfl
  | enable onTop outside flag remembered flows top running =>
    refine ⟨by rw [hks, flows]; exact hmem, fun hrun => ?_⟩
    rw [hks, remembered, top]
    rcases hawake (running ▸ hrun) with ⟨htop, hnone, -⟩ | hflags
    · exact .inl ⟨htop, hnone, flag⟩
    · exact .inr hflags
  | @enter r onTop flag here elsewhere flows _ running =>
    refine ⟨by rw [hks, flows]; exact hmem, fun hrun => .inr ?_⟩
    rw [hks]
    rcases hawake (running ▸ hrun) with ⟨htop, hnone, hflag⟩ | ⟨flags, hflags⟩
    · have := htop.unique onTop
      subst this
      exact ⟨[], by rw [here, hnone, hflag]; rfl⟩
    · by_cases hrr : k.kernelStack = r
      · subst hrr
        exact ⟨k.interruptFlag :: flags, by rw [here, hflags]; rfl⟩
      · exact ⟨flags, by rw [elsewhere _ hrr, hflags]⟩
  | @leave r b onTop here elsewhere restored flows top running =>
    refine ⟨by rw [hks, flows]; exact hmem, fun hrun => ?_⟩
    rw [hks, top]
    rcases hawake (running ▸ hrun) with ⟨htop, hnone, -⟩ | ⟨flags, hflags⟩
    · have := htop.unique onTop
      subst this
      rw [hnone] at here
      cases here
    · by_cases hrr : k.kernelStack = r
      · subst hrr
        rw [here] at hflags
        cases flags with
        | nil =>
          -- the outermost section of the idle task: interrupts are on again
          injection hflags with hb hnone
          subst hb
          exact .inl ⟨onTop, hnone, restored⟩
        | cons c flags =>
          injection hflags with _ htail
          exact .inr ⟨flags, htail⟩
      · exact .inr ⟨flags, by rw [elsewhere _ hrr, hflags]⟩
  | @spawn p fresh flag here elsewhere flows top running =>
    refine ⟨by rw [hks, flows]; exact List.mem_append_left _ hmem, fun hrun => ?_⟩
    rw [hks, elsewhere _ (fresh _ hmem), flag, top]
    exact hawake (running ▸ hrun)

/-- Every state reached by a run that enters `run` with interrupts enabled. -/
theorem of_trace {k₀ : Kernel} {es : List Event} (h₀ : Boot k₀) (h : Trace (Step L) k₀ es k)
    (hes : .run false ∉ es) : IdleAwake k := by
  have hne : ∀ e ∈ es, e ≠ .run false := by
    rintro e he rfl
    exact hes he
  have := (h.restrict hne).history
    (I := fun es k => Resumable L es k ∧ IdleAwake k)
    (fun _ _ _ _ hI hst => ⟨hI.1.step hst.1,
      hI.2.step (kernelStack_eq hst.1) (hst.1.flagEffect hI.1.consistent) hst.2⟩)
    ⟨.of_boot h₀, .of_boot h₀⟩
  exact this.2

end IdleAwake

/-- A step during a call of `without_interrupts`, made on the stack `r` when `n` others were
open on it: it is open after the step. -/
def DuringCall (L : TaskLayout) (r : Region) (n : ℕ) (k : Kernel) (e : Event) (k' : Kernel) :
    Prop :=
  Step L k e k' ∧ n < (k'.remembered r).length

/-- **`yield_now` preserves the interrupt flag.**  A call that does not switch leaves it alone.  A
call that switches, on the stack `r`, returns in the step that closes its `without_interrupts`;
whatever the other tasks do in the meantime, the flag is then what it was at the call.  So if
`run` is entered with interrupts enabled, the idle loop never halts with interrupts disabled. -/
theorem Kernel.yieldNow_restores {k₀ k : Kernel} {es : List Event} (h₀ : Boot k₀)
    (h : Trace (Step L) k₀ es k) :
    (∀ k', Step L k .yieldReturned k' → k'.interruptFlag = k.interruptFlag) ∧
      (∀ r out call into arrival k₁ fs k₂ e k₃, k.Active r →
        Step L k (.yieldSwitched out call into arrival) k₁ →
        Trace (DuringCall L r (k.remembered r).length) k₁ fs k₂ →
        Step L k₂ e k₃ → (k₃.remembered r).length = (k.remembered r).length →
        k₃.interruptFlag = k.interruptFlag) ∧
      (.run false ∉ es → ∀ k', Step L k .hlt k' → k.interruptFlag = true) := by
  have hres := Resumable.of_trace h₀ h
  refine ⟨fun k' hst => ?_, fun r out call into arrival k₁ fs k₂ e k₃ hr hst hrun hret hlen => ?_,
    fun hes k' hst => ?_⟩
  · cases hst with
    | yieldEarly _ => rfl
    | yieldReturned _ _ _ hleave =>
      rw [leaveSection_enterSection] at hleave
      cases hleave
      rfl
  · -- the call is open right after the switch, and as long as it has not returned
    have hopen : r ∈ k₁.flowStacks ∧
        ∃ pre, k₁.remembered r = pre ++ k.interruptFlag :: k.remembered r := by
      have hfx := hst.flagEffect hres.consistent
      cases hst with
      | @yieldSwitched _ s r' next old new _ hr' _ hs _ _ _ heq =>
        subst heq
        have hs' : (k.enterSection r').scheduler = some s := hs
        have := hres.consistent.active_unique hr hr'
        subst this
        refine ⟨?_, [], ?_⟩
        · rw [flowStacks_switchTo hs']
          exact hr.1
        · simp only [switchTo, enterSection, if_true, List.nil_append]
    have hinv := hrun.history_append
      (I := fun es k' => Resumable L es k' ∧ Masked k' ∧ r ∈ k'.flowStacks ∧
        ∃ pre, k'.remembered r = pre ++ k.interruptFlag :: k.remembered r)
      (fun _ a _ b hI hstep => by
        obtain ⟨hIr, hIm, hmem, pre, hpre⟩ := hI
        have hfx := hstep.1.flagEffect hIr.consistent
        obtain ⟨hmem', pre', hpre'⟩ := hfx.keeps_open hmem hpre hstep.2
        exact ⟨hIr.step hstep.1, hIm.step hfx, hmem', pre', hpre'⟩)
      ⟨hres.step hst, (Masked.of_trace h₀ h).step (hst.flagEffect hres.consistent), hopen⟩
    obtain ⟨hIr, hIm, hmem, pre, hpre⟩ := hinv
    exact (hret.flagEffect hIr.consistent).restores hIm hmem hpre hlen
  · cases hst with
    | hlt hrun hactive hnone =>
      rcases (IdleAwake.of_trace h₀ h hes).awake hrun with ⟨-, -, hflag⟩ | ⟨flags, hflags⟩
      · exact hflag
      · rw [hnone] at hflags
        simp at hflags

theorem Kernel.yieldNow_restores_oneTask :
    OneTask.returned.interruptFlag = OneTask.running.interruptFlag :=
  (Kernel.yieldNow_restores OneTask.boot_boot OneTask.trace).2.1 OneTask.boot.kernelStack 1
    OneTask.running.cpu 0 OneTask.switched.cpu OneTask.switched _ OneTask.resumed .leave
    OneTask.returned ⟨by decide, by decide⟩ OneTask.step
    (.single ⟨OneTask.step_back, by decide⟩) OneTask.step_return rfl

/-! ### New tasks -/

/-- A spawned task that executes its own code, outside of any section, has interrupts enabled. -/
def TasksUnmasked (k : Kernel) : Prop :=
  ∀ r, k.Active r → r ≠ k.kernelStack → k.remembered r = [] → k.interruptFlag = true

/-- The event is the end of a call of `yield_now`, or its switch. -/
def Event.Yields (e : Event) : Prop :=
  e = .yieldReturned ∨ ∃ out call into arrival, e = .yieldSwitched out call into arrival

/-- If `e` is a call of `yield_now` while the scheduler runs, then every task but the current one
sleeps. -/
def Undisturbed (k : Kernel) (e : Event) : Prop :=
  e.Yields → k.schedulerRunning = true →
    ∀ i t, k.tasks[i]? = some t → i ≠ k.current → t.state = .Sleeping

/-- As long as nothing has been switched: the flow of control that began at boot is executed, and
no other has begun. -/
structure OnlyBoot (k : Kernel) : Prop where
  top : k.OnTop k.kernelStack
  unborn : ∀ r ∈ k.flowStacks, r ≠ k.kernelStack → k.remembered r = []

namespace OnlyBoot

variable {k k' : Kernel} {e : Event}

theorem of_boot (h : Boot k) : OnlyBoot k := by
  have hst : k.flowStacks = [k.kernelStack] := by
    simp [flowStacks, h.running, tasks, h.scheduler]
  refine ⟨by simp [OnTop, hst, flow, h.running], fun r hr hne => ?_⟩
  rw [hst, List.mem_singleton] at hr
  exact absurd hr hne

/-- A step that does not switch. -/
theorem step (h : OnlyBoot k) (hks : k'.kernelStack = k.kernelStack) (hst : FlagEffect k e k')
    (hne : ∀ o c i a, e ≠ .yieldSwitched o c i a) : OnlyBoot k' := by
  obtain ⟨hboot, hunborn⟩ := h
  have htop : k'.OnTop k.kernelStack := by
    cases hst with
    | keep _ _ _ top _ => exact (top _).2 hboot
    | enable _ _ _ _ _ top _ => exact (top _).2 hboot
    | enter _ _ _ _ _ top _ =>
      rcases top with top | ⟨o, c, i, a, rfl⟩
      · exact (top _).2 hboot
      · exact absurd rfl (hne o c i a)
    | leave _ _ _ _ _ top _ => exact (top _).2 hboot
    | spawn _ _ _ _ _ top _ => exact (top _).2 hboot
  refine ⟨hks ▸ htop, fun r hr hne => ?_⟩
  rw [hks] at hne
  cases hst with
  | keep _ remembered flows _ _ =>
    rw [remembered]
    exact hunborn r (flows ▸ hr) hne
  | enable _ _ _ remembered flows _ _ =>
    rw [remembered]
    exact hunborn r (flows ▸ hr) hne
  | enter onTop _ _ elsewhere flows _ _ =>
    rw [elsewhere r fun hrr => hne (hrr.trans (onTop.unique hboot))]
    exact hunborn r (flows ▸ hr) hne
  | leave onTop _ elsewhere _ flows _ _ =>
    rw [elsewhere r fun hrr => hne (hrr.trans (onTop.unique hboot))]
    exact hunborn r (flows ▸ hr) hne
  | spawn fresh _ here elsewhere flows _ _ =>
    rw [flows] at hr
    rcases List.mem_append.1 hr with hr | hr
    · rw [elsewhere r (fresh r hr)]
      exact hunborn r hr hne
    · rw [List.mem_singleton.1 hr]
      exact here

end OnlyBoot

/-- While all others sleep, `yield_now` does not switch. -/
theorem not_switched_of_undisturbed {k k' : Kernel} {out into : ℕ} {call arrival : Cpu}
    (h : Consistent L k) (hst : Step L k (.yieldSwitched out call into arrival) k') :
    ¬ Undisturbed k (.yieldSwitched out call into arrival) := by
  intro hu
  cases hst with
  | @yieldSwitched _ s r next old new hrun _ _ hs hnext _ hnew _ =>
    have hcur := h.current hrun
    rw [tasks_of_scheduler hs, current_of_scheduler hs] at hcur
    obtain ⟨hn, hne⟩ := Scheduler.nextTask_eq_some hcur hnext
    have hsleep := hu (.inr ⟨_, _, _, _, rfl⟩) hrun next new (by rwa [tasks_of_scheduler hs])
      (by rwa [current_of_scheduler hs])
    exact hn.holds ⟨new, hnew, hsleep⟩

/-- **Spawned tasks run with interrupts disabled.**  In a run in which `yield_now` is called only
while all other tasks sleep, no spawned task executes its code with interrupts disabled (none of
them executes at all); and the first call made while another task is awake switches to a new
task, which then starts at its entry with interrupts disabled. -/
theorem Kernel.unmasked_of_undisturbed {k₀ k : Kernel} {es : List Event} (h₀ : Boot k₀)
    (h : Trace (fun a e b => Step L a e b ∧ Undisturbed a e) k₀ es k) :
    TasksUnmasked k ∧ ∀ e k', Step L k e k' → ¬ Undisturbed k e → ¬ TasksUnmasked k' := by
  have hinv := h.history (I := fun es k => Resumable L es k ∧ OnlyBoot k)
    (fun _ a e b hI hst => by
      refine ⟨hI.1.step hst.1, hI.2.step (IdleAwake.kernelStack_eq hst.1)
        (hst.1.flagEffect hI.1.consistent) ?_⟩
      rintro o c i a rfl
      exact not_switched_of_undisturbed hI.1.consistent hst.1 hst.2)
    ⟨.of_boot h₀, .of_boot h₀⟩
  obtain ⟨hres, honly⟩ := hinv
  refine ⟨fun r hr hne _ => ?_, fun e k' hst hdist hun => ?_⟩
  · have htop : k.OnTop r := hres.consistent.flow_of_active hr
    exact absurd (htop.unique honly.top) hne
  · have hyield : e.Yields := by
      by_contra hno
      exact hdist fun hy => absurd hy hno
    rcases hyield with rfl | ⟨out, call, into, arrival, rfl⟩
    · exact hdist fun _ hrun i t ht hne => Step.others_asleep hres.consistent hst hrun ht hne
    · -- the stack of the new task is not the one of the kernel, and nothing has run on it
      obtain ⟨r', htop', hholds⟩ := (hres.step hst).consistent.active
      cases hst with
      | @yieldSwitched _ s r next old new hrun hr _ hs hnext _ _ heq =>
        subst heq
        have hs' : (k.enterSection r).scheduler = some s := hs
        have hcur := hres.consistent.current hrun
        rw [tasks_of_scheduler hs, current_of_scheduler hs] at hcur
        have hne := (Scheduler.nextTask_eq_some hcur hnext).2
        have hrtop := hres.consistent.flow_of_active hr
        have hrks := OnTop.unique hrtop honly.top
        rw [flowStacks_switchTo hs', flow, running_switchTo, current_switchTo] at htop'
        rw [if_pos (by exact hrun)] at htop'
        rw [flow, if_pos hrun, current_of_scheduler hs] at hrtop
        have hdis := Region.disjoint_of_ne hres.consistent.apart hrtop htop' hne.symm
        have hr' : r' ≠ r := by
          rintro rfl
          exact hdis.not_holds hr.2 hr.2
        have hflag : ((k.enterSection r).switchTo L s next).interruptFlag = false := by
          simp only [switchTo, enterSection]
        have hrem : ((k.enterSection r).switchTo L s next).remembered r' = [] := by
          simp only [switchTo, enterSection, if_neg hr']
          exact honly.unborn r' (List.mem_of_getElem? htop') (hrks ▸ hr')
        have hon := hun r' ⟨?_, hholds⟩ ?_ hrem
        · rw [hflag] at hon
          cases hon
        · rw [flowStacks_switchTo hs']
          exact List.mem_of_getElem? htop'
        · rw [kernelStack_switchTo]
          exact hrks ▸ hr'

theorem Kernel.unmasked_of_undisturbed_oneTask :
    TasksUnmasked OneTask.running ∧ ¬ TasksUnmasked OneTask.switched := by
  have hquiet : ∀ e ∈ OneTask.events, ¬ e.Yields := by
    intro e he hy
    rcases hy with rfl | ⟨_, _, _, _, rfl⟩ <;> simp [OneTask.events] at he
  have htrace : Trace (fun a e b => Step OneTask.layout a e b ∧ Undisturbed a e) OneTask.boot
      OneTask.events OneTask.running :=
    (OneTask.trace.restrict hquiet).mono fun _ _ _ h => ⟨h.1, fun hy => absurd hy h.2⟩
  obtain ⟨hrunning, hswitched⟩ := Kernel.unmasked_of_undisturbed OneTask.boot_boot htrace
  refine ⟨hrunning, hswitched _ _ OneTask.step fun hu => ?_⟩
  have := hu (.inr ⟨_, _, _, _, rfl⟩) rfl 1 ⟨0, some 0x20000, .Ready, none⟩ rfl (by decide)
  cases this

/-- The task spawned at `0x1000` is at its first instruction, in no section, with interrupts
disabled, although `run` was entered with interrupts enabled. -/
theorem Kernel.spawned_masked :
    Trace (Step OneTask.layout) OneTask.boot OneTask.events OneTask.running ∧
      Step OneTask.layout OneTask.running
        (.yieldSwitched 1 OneTask.running.cpu 0 OneTask.switched.cpu) OneTask.switched ∧
      OneTask.running.interruptFlag = true ∧ OneTask.switched.cpu.rip = 0x1000 ∧
      ¬ TasksUnmasked OneTask.switched := by
  refine ⟨OneTask.trace, OneTask.step, rfl, by decide, fun h => ?_⟩
  have := h (taskStack 0x20000) ⟨by decide, by decide⟩ (by decide) rfl
  cases this

end ROs
