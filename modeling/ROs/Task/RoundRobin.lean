import Mathlib.Data.List.Nodup
import ROs.Task.Resume

/-!
# The scheduler invariant and round robin

`TaskEffect` says what a step does to the task list; `Bookkept` is the invariant that the states of
the tasks record which one runs and that the task records are those of the spawns.

* `Kernel.scheduler_sound` : **the scheduler is sound.**  After `run` exactly the current task is
  `Running`, and it is the one the processor executes; a sleeping task is never switched to; and
  between two dispatches of a task every other task that is awake is dispatched exactly once.

No function of the source puts a task to sleep; here any task but the current one may be put to
sleep at any time, and stays asleep.
-/

namespace ROs

variable {L : TaskLayout}

open Kernel

namespace Kernel

/-- The task at `i` exists and sleeps. -/
def Asleep (k : Kernel) (i : ℕ) : Prop := ∃ t, k.tasks[i]? = some t ∧ t.state = .Sleeping

theorem asleep_iff {k : Kernel} {s : Scheduler} (h : k.scheduler = some s) (i : ℕ) :
    k.Asleep i ↔ s.Asleep i := by
  rw [Asleep, Scheduler.Asleep, tasks_of_scheduler h]

end Kernel

/-- The task at `j` after a switch from the task at `c` to the one at `next`. -/
def switchedTask (next c j : ℕ) (t : Task) : Task :=
  { t with state := if next = j then .Running else if c = j then .Ready else t.state }

/-- What a step does to the tasks and to `current`. -/
inductive TaskEffect (k : Kernel) (e : Event) (k' : Kernel) : Prop
  | keep (tasks : k'.tasks = k.tasks) (current : k'.current = k.current)
      (running : k'.schedulerRunning = k.schedulerRunning)
      (quiet : ∀ o c i a, e ≠ .yieldSwitched o c i a)
  /-- A new task at the end of the list. -/
  | spawn {entry p : UInt64} {w : Option ℕ} (event : e = .spawn k.nextId entry w p)
      (tasks : k'.tasks = k.tasks ++ [⟨k.nextId, some p, .Ready, w⟩])
      (current : k'.current = k.current) (running : k'.schedulerRunning = k.schedulerRunning)
  /-- The idle task at the front of the list. -/
  | register {b : Bool} (event : e = .run b) (before : k.schedulerRunning = false)
      (tasks : k'.tasks = ⟨k.nextId, none, .Running, none⟩ :: k.tasks)
      (current : k'.current = 0) (running : k'.schedulerRunning = true)
  | sleep {i : ℕ} (event : e = .sleep i) (other : k.schedulerRunning = true → i ≠ k.current)
      (tasks : ∀ j, k'.tasks[j]? = (k.tasks[j]?).map
        fun t => if i = j then { t with state := .Sleeping } else t)
      (current : k'.current = k.current) (running : k'.schedulerRunning = k.schedulerRunning)
  /-- A switch, to the next task that is awake. -/
  | switch {next : ℕ} {old new : Task}
      (event : e = .yieldSwitched old.id k.cpu new.id k'.cpu)
      (before : k.schedulerRunning = true) (old_task : k.tasks[k.current]? = some old)
      (new_task : k.tasks[next]? = some new)
      (choice : Cyclic.Next (fun i => ¬ k.Asleep i) k.tasks.length k.current next)
      (other : next ≠ k.current)
      (tasks : ∀ j, k'.tasks[j]? = (k.tasks[j]?).map (switchedTask next k.current j))
      (current : k'.current = next) (running : k'.schedulerRunning = true)

/-- **What a step does to the tasks.** -/
theorem Step.taskEffect {k k' : Kernel} {e : Event} (h : Consistent L k) (hst : Step L k e k') :
    TaskEffect k e k' := by
  cases hst with
  | compute _ _ _ _ => exact .keep rfl rfl rfl (by simp)
  | enable _ _ => exact .keep rfl rfl rfl (by simp)
  | enter _ => exact .keep rfl rfl rfl (by simp)
  | leave _ hleave =>
    obtain ⟨_, _, _, rfl⟩ := leaveSection_eq_some hleave
    exact .keep rfl rfl rfl (by simp)
  | hlt _ _ _ => exact .keep rfl rfl rfl (by simp)
  | init hs =>
    refine .keep ?_ ?_ rfl (by simp)
    · simp [tasks, hs, Scheduler.init]
    · simp [Kernel.current, hs, Scheduler.init]
  | spawn hs hsp =>
    have hn := nextId_of_scheduler hs
    refine .spawn (by rw [hn]) ?_ ?_ rfl
    · rw [tasks_spawn hs, hn]
    · rw [current_of_scheduler hs]; rfl
  | run hs hrun _ hreg =>
    have hn := nextId_of_scheduler hs
    refine .register rfl hrun ?_ rfl rfl
    rw [tasks_register hs, hn]
  | @sleep s i hs hne =>
    refine .sleep rfl ?_ (fun j => ?_) ?_ rfl
    · rw [current_of_scheduler hs]; exact hne
    · rw [tasks_of_scheduler hs, ← Scheduler.getElem?_setState]; rfl
    · rw [current_of_scheduler hs]; rfl
  | currentWindowId => exact .keep rfl rfl rfl (by simp)
  | yieldEarly _ => exact .keep rfl rfl rfl (by simp)
  | yieldReturned _ _ _ hleave =>
    rw [leaveSection_enterSection] at hleave
    cases hleave
    exact .keep rfl rfl rfl (by simp)
  | @yieldSwitched _ s r next old new hrun _ _ hs hnext hold hnew heq =>
    subst heq
    have htasks := tasks_of_scheduler hs
    have hcur := current_of_scheduler hs
    have hlt := h.current hrun
    rw [htasks, hcur] at hlt
    obtain ⟨hn, hne⟩ := Scheduler.nextTask_eq_some hlt hnext
    refine .switch rfl hrun ?_ ?_ ⟨?_, ?_, fun i hi hp => ?_⟩ ?_ (fun j => ?_) current_switchTo
      (by rw [running_switchTo]; exact hrun)
    · rwa [htasks, hcur]
    · rwa [htasks]
    · rw [htasks]; exact hn.lt
    · rw [asleep_iff hs]; exact hn.holds
    · rw [asleep_iff hs]
      rw [htasks] at hi
      rw [hcur] at hp
      exact hn.skipped i hi hp
    · rwa [hcur]
    · rw [tasks_switchTo, Scheduler.getElem?_dispatch, htasks, hcur]
      rfl

/-- A task is there before the step, or it is the idle task, or the step spawns it. -/
theorem TaskEffect.origin {k k' : Kernel} {e : Event} (hst : TaskEffect k e k') {i : ℕ} {t' : Task}
    (ht' : k'.tasks[i]? = some t') :
    (∃ (j : ℕ) (t : Task), k.tasks[j]? = some t ∧ t.id = t'.id ∧ t.stack = t'.stack ∧
        t.windowId = t'.windowId) ∨
      (t'.stack = none ∧ t'.windowId = none) ∨
      ∃ entry p, t'.stack = some p ∧ e = .spawn t'.id entry t'.windowId p := by
  cases hst with
  | keep tasks _ _ _ => exact .inl ⟨i, t', tasks ▸ ht', rfl, rfl, rfl⟩
  | @spawn entry p w event tasks _ _ =>
    rw [tasks, List.getElem?_append] at ht'
    split at ht'
    · exact .inl ⟨i, t', ht', rfl, rfl, rfl⟩
    · cases List.mem_singleton.1 (List.mem_of_getElem? ht')
      exact .inr (.inr ⟨entry, p, rfl, event⟩)
  | register _ _ tasks _ _ =>
    rw [tasks] at ht'
    cases i with
    | zero =>
      cases ht'
      exact .inr (.inl ⟨rfl, rfl⟩)
    | succ j =>
      rw [List.getElem?_cons_succ] at ht'
      exact .inl ⟨j, t', ht', rfl, rfl, rfl⟩
  | @sleep j _ _ tasks _ _ =>
    rw [tasks i] at ht'
    obtain ⟨t, ht, rfl⟩ := Option.map_eq_some_iff.1 ht'
    refine .inl ⟨i, t, ht, ?_⟩
    split
    · exact ⟨rfl, rfl, rfl⟩
    · exact ⟨rfl, rfl, rfl⟩
  | @switch _ _ _ _ _ _ _ _ _ tasks _ _ =>
    rw [tasks i] at ht'
    obtain ⟨t, ht, rfl⟩ := Option.map_eq_some_iff.1 ht'
    exact .inl ⟨i, t, ht, rfl, rfl, rfl⟩

/-- The records of the tasks, against the events so far. -/
structure Bookkept (es : List Event) (k : Kernel) : Prop where
  /-- After `run` the current task is the one that is `Running`. -/
  running : k.schedulerRunning = true → ∃ t, k.tasks[k.current]? = some t ∧ t.state = .Running ∧
    ∀ (i : ℕ) (u : Task), k.tasks[i]? = some u → u.state = .Running → i = k.current
  /-- Before `run` no task is. -/
  waiting : k.schedulerRunning = false → ∀ (i : ℕ) (t : Task), k.tasks[i]? = some t →
    t.state ≠ .Running
  /-- A task is the idle task, without a window, or it has been spawned. -/
  known : ∀ (i : ℕ) (t : Task), k.tasks[i]? = some t → (t.stack = none ∧ t.windowId = none) ∨
    ∃ entry p, t.stack = some p ∧ .spawn t.id entry t.windowId p ∈ es

namespace Bookkept

variable {es : List Event} {e : Event} {k k' : Kernel}

theorem of_boot (h : Boot k) : Bookkept [] k := by
  have htasks : k.tasks = [] := by simp only [tasks, h.scheduler]
  refine ⟨?_, ?_, ?_⟩
  · simp [h.running]
  · simp [htasks]
  · simp [htasks]

/-- Where a task comes from is settled by the events so far. -/
theorem known_snoc (h : Bookkept es k) (e : Event) {i : ℕ} {t : Task}
    (ht : k.tasks[i]? = some t) : (t.stack = none ∧ t.windowId = none) ∨
      ∃ entry p, t.stack = some p ∧ .spawn t.id entry t.windowId p ∈ es ++ [e] := by
  refine (h.known i t ht).imp_right fun hspawn => ?_
  obtain ⟨entry, p, hp, hmem⟩ := hspawn
  exact ⟨entry, p, hp, List.mem_append_left _ hmem⟩

/-- A step after which the same tasks run as before. -/
theorem of_same (h : Bookkept es k) (current : k'.current = k.current)
    (running : k'.schedulerRunning = k.schedulerRunning)
    (hran : ∀ (i : ℕ) (t : Task), k'.tasks[i]? = some t → t.state = .Running →
      k.tasks[i]? = some t)
    (hruns : k.schedulerRunning = true → ∀ t, k.tasks[k.current]? = some t →
      k'.tasks[k.current]? = some t)
    (hknown : ∀ (i : ℕ) (t : Task), k'.tasks[i]? = some t → (t.stack = none ∧ t.windowId = none) ∨
      ∃ entry p, t.stack = some p ∧ .spawn t.id entry t.windowId p ∈ es ++ [e]) :
    Bookkept (es ++ [e]) k' := by
  refine ⟨fun hrun => ?_, fun hrun i t ht hr => ?_, hknown⟩
  · rw [running] at hrun
    obtain ⟨t, ht, hst, honly⟩ := h.running hrun
    refine ⟨t, by rw [current]; exact hruns hrun t ht, hst, fun i u hu hr => ?_⟩
    rw [current]
    exact honly i u (hran i u hu hr) hr
  · exact h.waiting (running ▸ hrun) i t (hran i t ht hr) hr

theorem step (h : Bookkept es k) (hst : TaskEffect k e k') : Bookkept (es ++ [e]) k' := by
  have hknown : ∀ (i : ℕ) (t : Task), k'.tasks[i]? = some t → (t.stack = none ∧ t.windowId = none) ∨
      ∃ entry p, t.stack = some p ∧ .spawn t.id entry t.windowId p ∈ es ++ [e] := fun i t' ht' => by
    obtain ⟨j, t, ht, hid, hstack, hwin⟩ | hidle | ⟨entry, p, hp, he⟩ := hst.origin ht'
    · rw [← hid, ← hstack, ← hwin]
      exact h.known_snoc e ht
    · exact .inl hidle
    · exact .inr ⟨entry, p, hp, List.mem_append_right _ (List.mem_singleton.2 he.symm)⟩
  cases hst with
  | keep tasks current running _ =>
    refine h.of_same current running (fun i t ht _ => ?_) (fun _ t ht => ?_) hknown
    · rwa [tasks] at ht
    · rwa [tasks]
  | @spawn entry p w event tasks current running =>
    -- the new task is `Ready`, so what runs ran before
    refine h.of_same current running (fun i t ht hr => ?_) (fun _ t ht => ?_) hknown
    · rw [tasks, List.getElem?_append] at ht
      split at ht
      · exact ht
      · cases List.mem_singleton.1 (List.mem_of_getElem? ht)
        cases hr
    · rw [tasks, List.getElem?_append_left (List.getElem?_eq_some_iff.1 ht).1]
      exact ht
  | register event before tasks current running =>
    refine ⟨fun _ => ?_, fun hrun => ?_, hknown⟩
    · refine ⟨⟨k.nextId, none, .Running, none⟩, by rw [tasks, current]; rfl, rfl,
        fun i u hu hr => ?_⟩
      rw [current]
      cases i with
      | zero => rfl
      | succ i =>
        rw [tasks, List.getElem?_cons_succ] at hu
        exact absurd hr (h.waiting before i u hu)
    · rw [running] at hrun
      cases hrun
  | @sleep i event other tasks current running =>
    -- the task that goes to sleep does not run, so what runs ran before
    refine h.of_same current running (fun j t' ht' hr => ?_) (fun hrun t ht => ?_) hknown
    · rw [tasks j] at ht'
      obtain ⟨t, ht, rfl⟩ := Option.map_eq_some_iff.1 ht'
      split at hr
      · cases hr
      · rename_i hij
        rw [if_neg hij]
        exact ht
    · rw [tasks, ht, Option.map_some, if_neg (other hrun)]
  | @switch next old new event before old_task new_task choice other tasks current running =>
    refine ⟨fun _ => ?_, fun hrun => ?_, hknown⟩
    · refine ⟨{ new with state := .Running }, ?_, rfl, fun j u hu hr => ?_⟩
      · rw [current, tasks, new_task, Option.map_some, switchedTask, if_pos rfl]
      · rw [current]
        rw [tasks j] at hu
        obtain ⟨t, ht, rfl⟩ := Option.map_eq_some_iff.1 hu
        by_contra hne
        dsimp only [switchedTask] at hr
        rw [if_neg (Ne.symm hne)] at hr
        split at hr
        · cases hr
        · rename_i hc
          -- the only task that was `Running` is the one switched out
          obtain ⟨-, -, -, honly⟩ := h.running before
          exact hc (honly j t ht hr).symm
    · rw [running] at hrun
      cases hrun

/-- Every reached state. -/
theorem of_trace {k₀ : Kernel} (h₀ : Boot k₀) (h : Trace (Step L) k₀ es k) : Bookkept es k := by
  have := h.history (I := fun es k => Resumable L es k ∧ Bookkept es k)
    (fun _ _ _ _ hI hst => ⟨hI.1.step hst, hI.2.step (hst.taskEffect hI.1.consistent)⟩)
    ⟨.of_boot h₀, .of_boot h₀⟩
  exact this.2

end Bookkept

/-! ### Between two dispatches -/

/-- The task that the event switches to. -/
def Event.into? : Event → Option ℕ
  | .yieldSwitched _ _ into _ => some into
  | _ => none

/-- The tasks dispatched by the events, in order. -/
def dispatched (es : List Event) : List ℕ := es.filterMap Event.into?

namespace TaskEffect

variable {es : List Event} {e : Event} {k k' : Kernel}

/-- Tasks keep their index and their id, and a sleeping task stays asleep. -/
theorem grow (hst : TaskEffect k e k') (hb : Bookkept es k) (hrun : k.schedulerRunning = true)
    {i : ℕ} {t : Task} (ht : k.tasks[i]? = some t) :
    ∃ t', k'.tasks[i]? = some t' ∧ t'.id = t.id ∧ (t.state = .Sleeping → t'.state = .Sleeping) := by
  cases hst with
  | keep tasks _ _ _ => exact ⟨t, by rw [tasks, ht], rfl, id⟩
  | spawn _ tasks _ _ =>
    refine ⟨t, ?_, rfl, id⟩
    rw [tasks, List.getElem?_append_left (List.getElem?_eq_some_iff.1 ht).1, ht]
  | register _ before _ _ _ =>
    rw [hrun] at before
    cases before
  | @sleep j _ _ tasks _ _ =>
    refine ⟨_, by rw [tasks, ht, Option.map_some], ?_, fun hs => ?_⟩
    · split <;> rfl
    · split
      · rfl
      · exact hs
  | @switch next old new _ _ old_task new_task choice _ tasks _ _ =>
    refine ⟨switchedTask next k.current i t, by rw [tasks, ht, Option.map_some], rfl,
      fun hs => ?_⟩
    -- neither of the two tasks whose state changes is asleep
    have hn : next ≠ i := by
      rintro rfl
      exact choice.holds ⟨t, ht, hs⟩
    have hc : k.current ≠ i := by
      rintro rfl
      obtain ⟨u, hu, hur, -⟩ := hb.running hrun
      cases hu.symm.trans ht
      rw [hs] at hur
      cases hur
    rw [switchedTask, if_neg hn, if_neg hc, hs]

theorem asleep (hst : TaskEffect k e k') (hb : Bookkept es k) (hrun : k.schedulerRunning = true)
    {i : ℕ} (h : k.Asleep i) : k'.Asleep i := by
  obtain ⟨t, ht, hs⟩ := h
  obtain ⟨t', ht', -, hs'⟩ := hst.grow hb hrun ht
  exact ⟨t', ht', hs' hs⟩

theorem still_running (hst : TaskEffect k e k') (hrun : k.schedulerRunning = true) :
    k'.schedulerRunning = true := by
  cases hst with
  | keep _ _ running _ => rw [running, hrun]
  | spawn _ _ _ running => rw [running, hrun]
  | register _ _ _ _ running => exact running
  | sleep _ _ _ _ running => rw [running, hrun]
  | switch _ _ _ _ _ _ _ _ running => exact running

end TaskEffect

/-- In the state `k'`, after the events `fs` since the task at `a` was dispatched in a state with
the tasks of `k₁`. -/
structure InLap (k₁ : Kernel) (a : ℕ) (fs : List Event) (k' : Kernel) : Prop where
  /-- The tasks of that state are still there. -/
  grow : ∀ (i : ℕ) (t : Task), k₁.tasks[i]? = some t → ∃ t', k'.tasks[i]? = some t' ∧ t'.id = t.id
  /-- As long as the task at `a` is awake, the dispatches go round. -/
  lap : ¬ k'.Asleep a → ∃ js : List ℕ,
    Cyclic.Lap k'.Asleep a k₁.tasks.length k'.current js ∧
      (dispatched fs).map some = js.map fun j => (k'.tasks[j]?).map Task.id

namespace InLap

variable {es fs : List Event} {e : Event} {k₁ k k' : Kernel} {a : ℕ} {ta : Task}

theorem start (h : k₁.current = a) : InLap k₁ a [] k₁ := by
  refine ⟨fun i t ht => ⟨t, ht, rfl⟩, fun _ => ⟨[], ?_, rfl⟩⟩
  rw [h]
  exact Cyclic.Lap.start _ _ _

theorem length_le (h : InLap k₁ a fs k) : k₁.tasks.length ≤ k.tasks.length := by
  by_contra hlt
  obtain ⟨t, ht⟩ : ∃ t, k₁.tasks[k.tasks.length]? = some t :=
    ⟨_, List.getElem?_eq_getElem (by omega)⟩
  obtain ⟨u, hu, -⟩ := h.grow _ t ht
  have := (List.getElem?_eq_some_iff.1 hu).1
  omega

/-- The tasks visited are the ones dispatched. -/
theorem visited {js : List ℕ}
    (hids : (dispatched fs).map some = js.map fun j => (k.tasks[j]?).map Task.id) {j : ℕ}
    (hj : j ∈ js) : ∃ t, k.tasks[j]? = some t ∧ t.id ∈ dispatched fs := by
  have hmem : (k.tasks[j]?).map Task.id ∈ (dispatched fs).map some := by
    rw [hids]
    exact List.mem_map_of_mem hj
  obtain ⟨id, hid, heq⟩ := List.mem_map.1 hmem
  obtain ⟨t, ht, rfl⟩ := Option.map_eq_some_iff.1 heq.symm
  exact ⟨t, ht, hid⟩

/-- One step that does not dispatch the task at `a`. -/
theorem step (h : InLap k₁ a fs k) (hst : TaskEffect k e k') (hb : Bookkept es k)
    (hrun : k.schedulerRunning = true) (ha : k₁.tasks[a]? = some ta)
    (he : e.into? ≠ some ta.id) : InLap k₁ a (fs ++ [e]) k' := by
  have hgrow : ∀ (i : ℕ) (t : Task), k₁.tasks[i]? = some t →
      ∃ t', k'.tasks[i]? = some t' ∧ t'.id = t.id := fun i t ht => by
    obtain ⟨u, hu, hid⟩ := h.grow i t ht
    obtain ⟨u', hu', hid', -⟩ := hst.grow hb hrun hu
    exact ⟨u', hu', hid'.trans hid⟩
  refine ⟨hgrow, fun hawake => ?_⟩
  have hawake' : ¬ k.Asleep a := fun h => hawake (hst.asleep hb hrun h)
  obtain ⟨js, hlap, hids⟩ := h.lap hawake'
  have hsleep : ∀ i < k₁.tasks.length, k.Asleep i → k'.Asleep i :=
    fun _ _ => hst.asleep hb hrun
  have hmono := hlap.mono hsleep
  -- the ids of the tasks visited are what they were
  have hsame : (js.map fun j => (k'.tasks[j]?).map Task.id) =
      js.map fun j => (k.tasks[j]?).map Task.id := by
    refine List.map_congr_left fun j hj => ?_
    obtain ⟨t, ht, -⟩ := visited hids hj
    obtain ⟨t', ht', hid, -⟩ := hst.grow hb hrun ht
    rw [ht, ht', Option.map_some, Option.map_some, hid]
  have hnone : e.into? = none → (dispatched (fs ++ [e])).map some =
      js.map fun j => (k'.tasks[j]?).map Task.id := fun hinto => by
    rw [dispatched, List.filterMap_append, hsame, ← hids]
    simp [dispatched, hinto]
  obtain ⟨ta', hta', hid⟩ := h.grow a ta ha
  have haLen : a < k.tasks.length := (List.getElem?_eq_some_iff.1 hta').1
  cases hst with
  | keep _ current _ quiet =>
    refine ⟨js, by rw [current]; exact hmono, hnone ?_⟩
    cases e with
    | yieldSwitched o c i a => exact absurd rfl (quiet o c i a)
    | _ => rfl
  | spawn event _ current _ => exact ⟨js, by rw [current]; exact hmono, hnone (by rw [event]; rfl)⟩
  | register _ before _ _ _ =>
    rw [hrun] at before
    cases before
  | sleep event _ _ current _ =>
    exact ⟨js, by rw [current]; exact hmono, hnone (by rw [event]; rfl)⟩
  | @switch next _ new event _ _ new_task choice _ tasks current _ =>
    have hne : next ≠ a := by
      rintro rfl
      rw [hta'] at new_task
      cases new_task
      exact he (by rw [event, ← hid]; rfl)
    refine ⟨js ++ [next], ?_, ?_⟩
    · rw [current]
      exact (hlap.move choice haLen h.length_le hawake' hne).mono hsleep
    · rw [List.map_append, hsame, ← hids, dispatched, List.filterMap_append, List.map_append,
        List.map_singleton, tasks, new_task, event]
      rfl

/-- A run in which the task at `a` is not dispatched. -/
theorem of_trace {k₀ : Kernel} (hres : Resumable L es k₀) (hb : Bookkept es k₀)
    (hrun : k₀.schedulerRunning = true) (ha : k₀.tasks[a]? = some ta) (hcur : k₀.current = a)
    (h : Trace (Step L) k₀ fs k) (hfs : ta.id ∉ dispatched fs) : InLap k₀ a fs k := by
  have hinto : ∀ e ∈ fs, e.into? ≠ some ta.id := fun e he hid =>
    hfs (List.mem_filterMap.2 ⟨e, he, hid⟩)
  have := (h.restrict hinto).history
    (I := fun fs k => Resumable L (es ++ fs) k ∧ Bookkept (es ++ fs) k ∧
      k.schedulerRunning = true ∧ InLap k₀ a fs k)
    (fun fs k e k' hI hst => by
      obtain ⟨hres, hb, hrun, hlap⟩ := hI
      have hfx := hst.1.taskEffect hres.consistent
      rw [← List.append_assoc]
      exact ⟨hres.step hst.1, hb.step hfx, hfx.still_running hrun,
        hlap.step hfx hb hrun ha hst.2⟩)
    (by rw [List.append_nil]; exact ⟨hres, hb, hrun, .start hcur⟩)
  exact this.2.2.2

end InLap

section Laps

variable {es fs : List Event} {k₀ k k₁ k₂ k₃ : Kernel} {o c o' c' : ℕ}

/-- The task that a switch dispatches is the current one afterwards. -/
theorem TaskEffect.dispatched_task {out into : ℕ} {call arrival : Cpu}
    (hst : TaskEffect k (.yieldSwitched out call into arrival) k₁) :
    ∃ (i : ℕ) (t u : Task), k.tasks[i]? = some t ∧ t.id = into ∧ t.state ≠ .Sleeping ∧
      k₁.tasks[i]? = some u ∧ u.id = into ∧ k₁.current = i ∧
      Cyclic.Next (fun i => ¬ k.Asleep i) k.tasks.length k.current i := by
  cases hst with
  | keep _ _ _ quiet => exact absurd rfl (quiet _ _ _ _)
  | spawn event _ _ _ => cases event
  | register event _ _ _ _ => cases event
  | sleep event _ _ _ _ => cases event
  | @switch next old new event before old_task new_task choice other tasks current running =>
    have hid : into = new.id := by injection event
    exact ⟨next, new, switchedTask next k.current next new, new_task, hid.symm,
      fun hs => choice.holds ⟨new, new_task, hs⟩, by rw [tasks, new_task, Option.map_some],
      hid.symm, current, choice⟩

/-- **Round robin.**  Between two dispatches of the task `a` no task is dispatched twice, and every
other task that was there and is still awake is dispatched exactly once. -/
theorem dispatched_once {a : ℕ} {call arrival call' arrival' : Cpu} (hres : Resumable L es k)
    (hb : Bookkept es k) (hst : Step L k (.yieldSwitched o call a arrival) k₁)
    (hrun : Trace (Step L) k₁ fs k₂) (hst' : Step L k₂ (.yieldSwitched o' call' a arrival') k₃)
    (hfs : a ∉ dispatched fs) :
    (dispatched fs).Nodup ∧ ∀ t ∈ k.tasks, t.id ≠ a →
      (∀ u ∈ k₂.tasks, u.id = t.id → u.state ≠ .Sleeping) → (dispatched fs).count t.id = 1 := by
  have hfx := hst.taskEffect hres.consistent
  have hrunning : k.schedulerRunning = true := by
    cases hst with
    | yieldSwitched hrun _ _ _ _ _ _ _ => exact hrun
  obtain ⟨i, _, ta, _, _, _, hta, rfl, hcur, _⟩ := hfx.dispatched_task
  have hres₁ := hres.step hst
  have hb₁ := hb.step hfx
  have hlap := InLap.of_trace hres₁ hb₁ (hfx.still_running hrunning) hta hcur hrun hfs
  -- the state before the second dispatch
  have hres₂ : Resumable L _ k₂ := hrun.history_append (fun _ _ _ _ hI hs => hI.step hs) hres₁
  have hb₂ : Bookkept _ k₂ := (hrun.history_append
    (I := fun es k => Resumable L es k ∧ Bookkept es k)
    (fun _ _ _ _ hI hs => ⟨hI.1.step hs, hI.2.step (hs.taskEffect hI.1.consistent)⟩)
    ⟨hres₁, hb₁⟩).2
  obtain ⟨j, t₂, _, ht₂, hid₂, hawake₂, _, _, _, hnext⟩ :=
    (hst'.taskEffect hres₂.consistent).dispatched_task
  -- it dispatches the task at the same index
  obtain ⟨ta', hta', hida⟩ := hlap.grow i ta hta
  have hji : j = i := hres₂.index_eq ht₂ hta' (hid₂.trans hida.symm)
  subst hji
  have hnot : ¬ k₂.Asleep j := hnext.holds
  obtain ⟨js, hl, hids⟩ := hlap.lap hnot
  have hnodup : (dispatched fs).Nodup := by
    refine List.Nodup.of_map some ?_
    rw [hids]
    refine List.Nodup.map_on (fun x hx y _ hxy => ?_) hl.nodup
    obtain ⟨u, hu, -⟩ := InLap.visited hids hx
    rw [hu, Option.map_some] at hxy
    obtain ⟨v, hv, hvid⟩ := Option.map_eq_some_iff.1 hxy.symm
    exact hres₂.index_eq hu hv hvid.symm
  refine ⟨hnodup, fun t ht hne hawake => ?_⟩
  obtain ⟨l, hl'⟩ := List.mem_iff_getElem?.1 ht
  obtain ⟨t', ht', hid', -⟩ := hfx.grow hb hrunning hl'
  obtain ⟨u, hu, hidu⟩ := hlap.grow l t' ht'
  have huid : u.id = t.id := hidu.trans hid'
  have hlne : l ≠ j := by
    rintro rfl
    rw [hta] at ht'
    cases ht'
    exact hne hid'.symm
  rcases hl.finish hnext hlap.length_le (List.getElem?_eq_some_iff.1 ht').1 hlne with hmem | ⟨v, hv, hs⟩
  · refine List.count_eq_one_of_mem hnodup ?_
    obtain ⟨v, hv, hvisited⟩ := InLap.visited hids hmem
    rw [hu] at hv
    cases hv
    rwa [← huid]
  · rw [hu] at hv
    cases hv
    exact absurd hs (hawake u (List.mem_of_getElem? hu) huid)

end Laps

/-- **The scheduler is sound**, in every state reached after `run`. -/
theorem Kernel.scheduler_sound {k₀ k : Kernel} {es : List Event} (h₀ : Boot k₀)
    (h : Trace (Step L) k₀ es k) (hrun : k.schedulerRunning = true) :
    -- exactly one task is `Running`: the current one, whose context is loaded
    (∃ t, k.tasks[k.current]? = some t ∧ t.state = .Running ∧
      k.Active (t.region k.kernelStack) ∧
      ∀ (i : ℕ) (u : Task), k.tasks[i]? = some u →
        u.state = .Running ∨ k.Active (u.region k.kernelStack) → i = k.current) ∧
    -- ids are distinct
    (k.tasks.map Task.id).Nodup ∧
    -- `current_window_id` returns what the running task was spawned with
    (∀ w k', Step L k (.currentWindowId w) k' → ∃ t, k.tasks[k.current]? = some t ∧
      ((t.stack = none ∧ w = none) ∨
        ∃ entry p, t.stack = some p ∧ .spawn t.id entry w p ∈ es)) ∧
    -- a sleeping task is never switched to, and a call that does not switch has found no other
    (∀ out call into arrival k', Step L k (.yieldSwitched out call into arrival) k' →
      ∃ t ∈ k.tasks, t.id = into ∧ t.state ≠ .Sleeping) ∧
    (∀ k', Step L k .yieldReturned k' → ∀ (i : ℕ) (t : Task), k.tasks[i]? = some t →
      i ≠ k.current → t.state = .Sleeping) ∧
    -- between two dispatches of the task `a`, whatever happens in between
    (∀ o c a r k₁ fs k₂ o' c' r' k₃, Step L k (.yieldSwitched o c a r) k₁ →
      Trace (Step L) k₁ fs k₂ → Step L k₂ (.yieldSwitched o' c' a r') k₃ → a ∉ dispatched fs →
      -- no task is dispatched twice, and every other that is still awake exactly once
      (dispatched fs).Nodup ∧
        ∀ t ∈ k.tasks, t.id ≠ a → (∀ u ∈ k₂.tasks, u.id = t.id → u.state ≠ .Sleeping) →
          (dispatched fs).count t.id = 1) := by
  have hres := Resumable.of_trace h₀ h
  have hb := Bookkept.of_trace h₀ h
  obtain ⟨t, ht, hstate, honly⟩ := hb.running hrun
  have hstack : ∀ (i : ℕ) (u : Task), k.tasks[i]? = some u →
      k.flowStacks[i]? = some (u.region k.kernelStack) := fun i u hu => by
    rw [flowStacks_getElem? hrun, hu]
    rfl
  obtain ⟨r, hr, hholds⟩ := hres.consistent.active
  rw [flow, if_pos hrun] at hr
  have hrt : r = t.region k.kernelStack := Option.some.inj (hr.symm.trans (hstack _ t ht))
  subst hrt
  refine ⟨⟨t, ht, hstate, ⟨List.mem_of_getElem? hr, hholds⟩, fun i u hu hor => ?_⟩,
    hres.idsNodup, fun w k' hst => ?_, fun out call into arrival k' hst => ?_,
    fun k' hst i u hu hne => ?_, fun o c a r k₁ fs k₂ o' c' r' k₃ hst hfs hst' ha =>
      dispatched_once hres hb hst hfs hst' ha⟩
  · rcases hor with hur | hactive
    · exact honly i u hu hur
    · exact Region.eq_of_holds hres.consistent.apart (hstack i u hu) hr hactive.2 hholds
  · refine ⟨t, ht, ?_⟩
    have hw : w = t.windowId := by
      cases hst
      cases hs : k.scheduler with
      | none => simp [tasks, hs] at ht
      | some s =>
        rw [tasks_of_scheduler hs, current_of_scheduler hs] at ht
        rw [Option.bind_some, Scheduler.currentWindowId, ht]
    rw [hw]
    exact hb.known _ t ht
  · obtain ⟨_, u, _, hu, hid, hs, -⟩ := (hst.taskEffect hres.consistent).dispatched_task
    exact ⟨u, List.mem_of_getElem? hu, hid, hs⟩
  · exact Step.others_asleep hres.consistent hst hrun hu hne

/-- Between two dispatches of the task that was spawned the idle task runs once. -/
theorem Kernel.scheduler_sound_oneTask :
    (dispatched [.yieldSwitched 0 OneTask.switched.cpu 1 OneTask.resumed.cpu, .leave]).count 1 =
      1 := by
  obtain ⟨-, -, -, -, -, hlap⟩ := Kernel.scheduler_sound OneTask.boot_boot OneTask.trace rfl
  refine (hlap 1 OneTask.running.cpu 0 _ _ _ OneTask.returned 1 OneTask.returned.cpu _ _
    OneTask.step (.cons OneTask.step_back (.single OneTask.step_return)) OneTask.step_again
    (by decide)).2 ⟨1, none, .Running, none⟩ (by decide) (by decide) fun u hu _ => ?_
  have : u = ⟨1, none, .Running, none⟩ ∨ u = ⟨0, some 0x20000, .Ready, none⟩ := by
    have : u ∈ [(⟨1, none, .Running, none⟩ : Task), ⟨0, some 0x20000, .Ready, none⟩] := hu
    simpa using this
  rcases this with rfl | rfl <;> decide

end ROs
