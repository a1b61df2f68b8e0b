import ROs.System.Progress

/-!
# A round

The idle loop is woken up, and each task has a turn, until the idle loop waits again.  While the mouse
is still and the shell has the focus, such a round takes at least one of the scancodes that wait
(`System.Inv.exists_round`).
-/

namespace ROs

/-! ### What the idle loop and the shell take -/

variable {statics : Statics} {e : System.Event}

/-- The idle loop, while no mouse event waits. -/
theorem IdlePc.Next.still {pc pc' : IdlePc} {q q' : Spsc MouseEvent} (hi : q.Inv)
    (hnext : Next statics pc q e pc' q') (hempty : q.stored = []) (hpending : pc.pending = [])
    (h : History) : q'.stored = [] ∧ pc'.pending = [] ∧ (h.add e).moves = h.moves := by
  cases hnext with
  | look hpop hno _ =>
    obtain ⟨e', q'', hpop', hevent, hstep, -⟩ := Spsc.exists_popStep hi
    cases hpop.symm.trans hpop'
    rcases hevent with rfl | ⟨v, rfl⟩ | rfl
    · exact ⟨(Spsc.stored_of_silent hstep).trans hempty, rfl, rfl⟩
    · exact absurd rfl (hno v)
    · exact ⟨hstep.eq_nil_of_empty', rfl, rfl⟩
  | take hpop =>
    have hcons := (Spsc.popStep_refines hi hpop).1.eq_cons_of_popped
    cases hempty.symm.trans hcons
  | none hpop => exact ⟨(Spsc.popStep_refines hi hpop).1.eq_nil_of_empty', rfl, rfl⟩
  | handle => cases hpending
  | due | notDue | composite | halt | wait => exact ⟨hempty, rfl, rfl⟩

/-- The idle loop goes on only when no mouse event waits. -/
theorem IdlePc.Next.drains {pc pc' : IdlePc} {q q' : Spsc MouseEvent} (hi : q.Inv)
    (hnext : Next statics pc q e pc' q') (hawake : pc ≠ .halting ∧ pc ≠ .waiting)
    (hdrained : pc = .reading ∨ (∃ event, pc = .handling event) ∨ q.stored = []) :
    (pc' ≠ .halting ∧ pc' ≠ .waiting) ∧
      (pc' = .reading ∨ (∃ event, pc' = .handling event) ∨ q'.stored = []) := by
  cases hnext with
  | look => exact ⟨⟨nofun, nofun⟩, .inl rfl⟩
  | @take _ _ event => exact ⟨⟨nofun, nofun⟩, .inr (.inl ⟨event, rfl⟩)⟩
  | none hpop =>
    exact ⟨⟨nofun, nofun⟩, .inr (.inr (Spsc.popStep_refines hi hpop).1.eq_nil_of_empty')⟩
  | handle => exact ⟨⟨nofun, nofun⟩, .inl rfl⟩
  | due | notDue | composite =>
    refine ⟨⟨nofun, nofun⟩, .inr (.inr ?_)⟩
    rcases hdrained with hpc | ⟨event, hpc⟩ | hempty
    · cases hpc
    · cases hpc
    · exact hempty
  | halt => exact absurd rfl hawake.1
  | wait => exact absurd rfl hawake.2

/-- The shell has taken a key and does what it says, or has been halted. -/
def ShellPc.Busy : ShellPc → Prop
  | .handling .. | .halted => True
  | _ => False

theorem ShellPc.Parked.not_busy {pc : ShellPc} (h : pc.Parked) : ¬ pc.Busy := by
  rcases h with rfl | ⟨winId, line, rfl⟩
  · exact id
  · exact id

theorem ShellPc.Parked.ne_yielding {pc : ShellPc} (h : pc.Parked) (winId : UInt64) (line : Line) :
    pc ≠ .yielding winId line := by
  rcases h with rfl | ⟨winId', line', rfl⟩
  · exact nofun
  · exact nofun

/-- The shell looks for a scancode in its turn, if it has the focus. -/
theorem ShellPc.Next.takes {pc pc' : ShellPc} {q q' : Spsc UInt8} {k : ℕ} (hi : q.Inv)
    (hnext : Next statics pc q e pc' q')
    (hfocus : ∀ winId line, pc = .polling winId line → statics.isFocused winId.toNat = true)
    (hok : ∀ winId ops stop, pc ≠ .starting winId ops (.error stop))
    (hle : q.stored.length ≤ k) (hbusy : pc.Busy → q.stored.length < k) :
    q'.stored.length ≤ k ∧ (pc'.Busy → q'.stored.length < k) ∧
      ∀ winId line, pc' = .yielding winId line → q'.stored.length < k ∨ q'.stored = [] := by
  cases hnext with
  | enter | start | started | focused => exact ⟨hle, nofun, nofun⟩
  | unfocused winId line _ hno => exact absurd ((hfocus winId line rfl).symm.trans hno) (by decide)
  | look winId line hpop hne =>
    refine ⟨?_, nofun, nofun⟩
    obtain ⟨e', q'', hpop', hevent, hstep, -⟩ := Spsc.exists_popStep hi
    cases hpop.symm.trans hpop'
    rcases hevent with rfl | ⟨v, rfl⟩ | rfl
    · rw [Spsc.stored_of_silent hstep]
      exact hle
    · rw [hstep.eq_cons_of_popped] at hle
      exact Nat.le_of_succ_le hle
    · exact absurd rfl hne
  | key winId line key hpop =>
    rw [(Spsc.popStep_refines hi hpop).1.eq_cons_of_popped] at hle
    exact ⟨Nat.le_of_succ_le hle, fun _ => hle, nofun⟩
  | none winId line hpop =>
    have hnil := (Spsc.popStep_refines hi hpop).1.eq_nil_of_empty'
    rw [hnil]
    exact ⟨Nat.zero_le _, nofun, fun _ _ _ => .inr rfl⟩
  | handle => exact ⟨hle, fun _ => hbusy trivial, nofun⟩
  | handled => exact ⟨hle, nofun, fun _ _ _ => .inl (hbusy trivial)⟩
  | startHalt winId => exact absurd rfl (hok winId [] .halt)
  | halt | halted => exact ⟨hle, fun _ => hbusy trivial, nofun⟩

/-- The counter has read the number of ticks in its turn. -/
def CounterPc.HasRead : CounterPc → Prop
  | .drawing .. | .yielding .. => True
  | _ => False

theorem CounterPc.Parked.not_hasRead {pc : CounterPc} (h : pc.Parked) : ¬ pc.HasRead := by
  rcases h with rfl | ⟨winId, lastDisplayed, rfl⟩
  · exact id
  · exact id

/-- The counter knows the number of ticks once it has read it. -/
theorem CounterPc.Next.counted_eq {ticks : UInt64} {pc pc' : CounterPc} (hnext : Next ticks pc e pc')
    (h : History) (hread : pc.HasRead → h.counted = ticks) :
    pc'.HasRead → (h.add e).counted = ticks := by
  cases hnext with
  | enter | start | started => exact False.elim
  | due | notDue => exact fun _ => rfl
  | draw | drawn => exact fun _ => hread trivial

variable [BasicFonts] {D : KeyDecoder} {info : FrameBufferInfo} {fb : Buf}

namespace System

variable {s s' : System D} {h h₀ : History} {k : ℕ}

/-- In a round that begins after the history `h₀`, with `k` scancodes and without mouse events. -/
structure Round (k : ℕ) (h₀ h : History) (s : System D) : Prop where
  mouse : s.input.mouseEvents.stored = []
  pending : s.idle.pending = []
  moves_eq : h.moves = h₀.moves
  input : h₀.SameInput h
  length_le : s.input.scancodes.stored.length ≤ k
  busy : s.flow = .shell → s.shell.Busy → s.input.scancodes.stored.length < k
  yielding : s.flow = .shell → ∀ winId line, s.shell = .yielding winId line →
    s.input.scancodes.stored.length < k ∨ s.input.scancodes.stored = []
  /-- The shell has had its turn. -/
  taken : s.flow.turnsLeft s.idle ≤ 2 →
    s.input.scancodes.stored.length < k ∨ s.input.scancodes.stored = []

omit [BasicFonts] in
/-- It goes on when the shell has had its turn. -/
theorem Round.yield (hr : Round k h₀ h s) (hinput : s'.input = s.input)
    (hpending : s'.idle.pending = []) (hflow : s'.flow ≠ .shell)
    (htaken : s.input.scancodes.stored.length < k ∨ s.input.scancodes.stored = []) :
    Round k h₀ (h.add .yield) s' where
  mouse := by rw [hinput, hr.mouse]
  pending := hpending
  moves_eq := hr.moves_eq
  input := hr.input.yield
  length_le := by rw [hinput]; exact hr.length_le
  busy heq := absurd heq hflow
  yielding heq := absurd heq hflow
  taken _ := by rw [hinput]; exact htaken

/-- The shell has the focus of the desktop. -/
theorem Inv.isFocused_of_polling (hi : Inv info h s)
    (hfocus : (desktopAfter info h.moves).focused = some 0) {winId : UInt64} {line : Line}
    (hpc : s.shell = .polling winId line) : s.statics.isFocused winId.toNat = true := by
  obtain ⟨wm, fb, hdesk⟩ := hi.desk
  have hfocused : wm.focused = some 0 := by
    rw [← hfocus, ← hdesk.desktop_eq]
    rfl
  have hat := hdesk.shell
  rw [hpc] at hat
  cases hat
  rw [hdesk.statics_eq]
  exact decide_eq_true hfocused

/-- The shell does not halt before its first prompt. -/
theorem Inv.ne_starting_error (hi : Inv info h s) (winId : UInt64) (ops : List Statics.Op)
    (stop : Stop) :
    s.shell ≠ .starting winId ops (.error stop) := by
  intro hpc
  obtain ⟨wm, fb, hdesk⟩ := hi.desk
  have hat := hdesk.shell
  rw [hpc] at hat
  cases hat

/-- **Every step of a round** keeps it. -/
theorem Round.step (hr : Round k h₀ h s) (hi : Inv info h s)
    (hfocus : (desktopAfter info h₀.moves).focused = some 0) (hrun : s.run = some (e, s'))
    (hi' : Inv info (h.add e) s') : Round k h₀ (h.add e) s' := by
  have hround := hr
  obtain ⟨hscancodes, hmouseEvents, -⟩ := hi.received.recorded.ok
  obtain ⟨hmouse, hpending, hmoves, hinput₀, hle, hbusy, hyielding, htaken⟩ := hr
  have hinput := hinput₀.trans (hi.sameInput_of_run hrun)
  cases runStep_of_run hrun with
  | @idle _ statics q idle hflow hnext =>
    obtain ⟨hmouse', hpending', hmoves'⟩ := hnext.still hmouseEvents hmouse hpending h
    refine ⟨hmouse', hpending', hmoves'.trans hmoves, hinput, hle, hbusy, hyielding,
      fun hturns => htaken ?_⟩
    have hsame : Flow.turnsLeft s.flow idle = Flow.turnsLeft s.flow s.idle := by
      rw [hflow]
      exact hnext.turnsLeft_eq
    exact hsame ▸ hturns
  | idleYield scheduler hflow =>
    -- the shell has its turn
    have hflow' := hi.flow_of_yield hi'
    rw [hflow] at hflow'
    have hparked := hi.parked.shell (by rw [hflow]; decide)
    refine ⟨hmouse, rfl, hmoves, hinput, hle, fun _ hpc => absurd hpc hparked.not_busy,
      fun _ winId line hpc => absurd hpc (hparked.ne_yielding winId line), fun hturns => ?_⟩
    rw [hflow'] at hturns
    exact absurd (show 3 ≤ 2 from hturns) (by decide)
  | @shell _ statics q keyboard shell hflow hnext =>
    obtain ⟨hle', hbusy', hyielding'⟩ := hnext.takes hscancodes
      (fun winId line => hi.isFocused_of_polling (hmoves ▸ hfocus)) hi.ne_starting_error hle
      (hbusy hflow)
    obtain ⟨-, hmoves'⟩ := hnext.add_eq h
    refine ⟨hmouse, hpending, hmoves'.trans hmoves, hinput, hle', fun _ => hbusy',
      fun _ => hyielding', fun hturns => ?_⟩
    have hturns' : s.flow.turnsLeft s.idle ≤ 2 := hturns
    rw [hflow] at hturns'
    exact absurd (show 3 ≤ 2 from hturns') (by decide)
  | shellYield scheduler hflow hpc =>
    refine hround.yield rfl hpending ?_ (hyielding hflow _ _ hpc)
    rw [hi.flow_of_yield hi', hflow]
    decide
  | memmap _ hnext =>
    obtain ⟨-, hmoves', -⟩ := hnext.add_eq h
    exact ⟨hmouse, hpending, hmoves'.trans hmoves, hinput, hle, hbusy, hyielding, htaken⟩
  | memmapYield scheduler hflow =>
    refine hround.yield rfl hpending ?_ (htaken (by rw [hflow]; exact Nat.le_refl 2))
    rw [hi.flow_of_yield hi', hflow]
    decide
  | counter _ hnext =>
    obtain ⟨-, hmoves', -⟩ := hnext.add_eq h
    exact ⟨hmouse, hpending, hmoves'.trans hmoves, hinput, hle, hbusy, hyielding, htaken⟩
  | counterYield scheduler hflow =>
    refine hround.yield rfl hpending ?_ (htaken (by rw [hflow]; exact Nat.le_succ 1))
    rw [hi.flow_of_yield hi', hflow]
    decide

omit [BasicFonts] in
/-- While no mouse event waits, the system is in a round that has one scancode more to take. -/
theorem Round.of_still (h : History) (hmouse : s.input.mouseEvents.stored = [])
    (hpending : s.idle.pending = []) : Round (s.input.scancodes.stored.length + 1) h h s where
  mouse := hmouse
  pending := hpending
  moves_eq := rfl
  input := .refl h
  length_le := Nat.le_succ _
  busy _ _ := Nat.lt_succ_self _
  yielding _ _ _ _ := .inl (Nat.lt_succ_self _)
  taken _ := .inl (Nat.lt_succ_self _)

/-! ### The turn of the counter -/

/-- The counter has read the number of ticks in its turn, or its turn is over. -/
def CounterRead (s : System D) : Prop :=
  s.flow = .counter ∧ s.counter.HasRead ∨ s.flow.turnsLeft s.idle = 0

/-- In a round the counter knows the number of ticks once it has read it. -/
def Counting (h : History) (s : System D) : Prop :=
  s.CounterRead → h.counted = UInt64.ofNat h.ticks

omit [BasicFonts] in
/-- The counter has not read it while the shell or the memory map has its turn. -/
theorem not_counterRead (hflow : s.flow = .shell ∨ s.flow = .memmap) : ¬ s.CounterRead := by
  rintro (⟨heq, -⟩ | hover)
  · rw [heq] at hflow
    rcases hflow with hflow | hflow <;> cases hflow
  · rcases hflow with hflow | hflow
    · rw [hflow] at hover
      cases hover
    · rw [hflow] at hover
      cases hover

/-- **Every step of a round** keeps it. -/
theorem Counting.step (hc : Counting h s) (hi : Inv info h s) (hrun : s.run = some (e, s'))
    (hi' : Inv info (h.add e) s') : Counting (h.add e) s' := by
  have hticks := hi.received.tickCount_eq
  have hsame := hi.sameInput_of_run hrun
  cases runStep_of_run hrun with
  | @idle _ statics q idle hflow hnext =>
    obtain ⟨-, -, -, hcounted⟩ := hnext.add_eq h
    rintro (⟨heq, -⟩ | hover)
    · cases hflow.symm.trans heq
    · rw [hcounted, hsame.ticks]
      refine hc (.inr ?_)
      have hturns : Flow.turnsLeft s.flow idle = Flow.turnsLeft s.flow s.idle := by
        rw [hflow]
        exact hnext.turnsLeft_eq
      exact hturns ▸ hover
  | idleYield scheduler hflow =>
    have hflow' := hi.flow_of_yield hi'
    rw [hflow] at hflow'
    exact fun hread => absurd hread (not_counterRead (.inl hflow'))
  | shell hflow => exact fun hread => absurd hread (not_counterRead (.inl hflow))
  | shellYield scheduler hflow =>
    have hflow' := hi.flow_of_yield hi'
    rw [hflow] at hflow'
    exact fun hread => absurd hread (not_counterRead (.inr hflow'))
  | memmap hflow => exact fun hread => absurd hread (not_counterRead (.inr hflow))
  | memmapYield scheduler hflow =>
    -- the counter is where it called `yield_now`
    have hflow' := hi.flow_of_yield hi'
    rw [hflow] at hflow'
    rintro (⟨-, hread⟩ | hover)
    · exact absurd hread (hi.parked.counter (by rw [hflow]; decide)).not_hasRead
    · rw [hflow'] at hover
      cases hover
  | counter hflow hnext =>
    rintro (⟨-, hread⟩ | hover)
    · rw [hsame.ticks, ← hticks]
      exact hnext.counted_eq h (fun hread => hticks ▸ hc (.inl ⟨hflow, hread⟩)) hread
    · have hover' : Flow.turnsLeft s.flow s.idle = 0 := hover
      rw [hflow] at hover'
      cases hover'
  | counterYield scheduler hflow hpc =>
    exact fun _ => hc (.inl ⟨hflow, by rw [hpc]; trivial⟩)

/-! ### The end of a round -/

/-- **A round comes to its end.** -/
theorem Inv.exists_quiet (hb : BootScreen info fb) {es es₀ : List Event} (hi : Inv info (.of es) s)
    (hr : Round k (.of es₀) (.of es) s)
    (hfocus : (desktopAfter info (History.of es₀).moves).focused = some 0) :
    ∃ es' s', Trace Uninterrupted s es' s' ∧ Inv info (.of (es ++ es')) s' ∧
      Round k (.of es₀) (.of (es ++ es')) s' ∧
      (Counting (.of es) s → Counting (.of (es ++ es')) s') ∧ s'.Quiet := by
  obtain ⟨es', s', htrace, hi', ⟨hr', hc⟩, hquiet⟩ := hi.exists_uninterrupted hb
    (J := fun h s' => Round k (.of es₀) h s' ∧ (Counting (.of es) s → Counting h s'))
    (fun _ hq => hq) (fun h a e b hi' hJ _ hrun => by
      have hi'' := hi'.step hb (.run hrun)
      exact ⟨hJ.1.step hi' hfocus hrun hi'', fun hc => (hJ.2 hc).step hi' hrun hi''⟩) ⟨hr, id⟩
  exact ⟨es', s', htrace, hi', hr', hc, hquiet⟩

omit [BasicFonts] in
/-- The idle loop is in a round that has all its turns before it. -/
theorem Round.of_turns (h : History) (hflow : s.flow = .idle) (hturns : Flow.idle.turnsLeft s.idle = 4)
    (hmouse : s.input.mouseEvents.stored = []) (hpending : s.idle.pending = []) :
    Round s.input.scancodes.stored.length h h s where
  mouse := hmouse
  pending := hpending
  moves_eq := rfl
  input := .refl h
  length_le := Nat.le_refl _
  busy heq := absurd (hflow.symm.trans heq) (by decide)
  yielding heq := absurd (hflow.symm.trans heq) (by decide)
  taken hle := by
    rw [hflow, hturns] at hle
    exact absurd hle (by decide)

omit [BasicFonts] in
theorem Counting.of_turns (h : History) (hflow : s.flow = .idle)
    (hturns : Flow.idle.turnsLeft s.idle = 4) : Counting h s := by
  rintro (⟨heq, -⟩ | hover)
  · cases hflow.symm.trans heq
  · rw [hflow, hturns] at hover
    cases hover

/-- **A round** takes one of the scancodes, or halts the shell with one; the counter counts every
tick. -/
theorem Inv.exists_round (hb : BootScreen info fb) {es : List Event} (hi : Inv info (.of es) s)
    (hflow : s.flow = .idle) (hturns : Flow.idle.turnsLeft s.idle = 4)
    (hmouse : s.input.mouseEvents.stored = []) (hpending : s.idle.pending = [])
    (hfocus : (desktopAfter info (History.of es).moves).focused = some 0) :
    ∃ es' s', Trace Uninterrupted s es' s' ∧ Inv info (.of (es ++ es')) s' ∧
      Round s.input.scancodes.stored.length (.of es) (.of (es ++ es')) s' ∧
      Counting (.of (es ++ es')) s' ∧ s'.Quiet := by
  obtain ⟨es', s', htrace, hi', hr, hc, hquiet⟩ :=
    hi.exists_quiet hb (.of_turns _ hflow hturns hmouse hpending) hfocus
  exact ⟨es', s', htrace, hi', hr, hc (.of_turns _ hflow hturns), hquiet⟩

/-- **A round ends with the counter up to date**, unless the shell is halted in it. -/
theorem Inv.exists_counted (hb : BootScreen info fb) {es : List Event} (hi : Inv info (.of es) s)
    (hflow : s.flow = .idle) (hturns : Flow.idle.turnsLeft s.idle = 4) :
    ∃ es' s', Trace Uninterrupted s es' s' ∧ Inv info (.of (es ++ es')) s' ∧
      Counting (.of (es ++ es')) s' ∧ s'.Quiet :=
  hi.exists_uninterrupted hb (fun _ hq => hq)
    (fun _ _ _ _ hi' hc _ hrun => hc.step hi' hrun (hi'.step hb (.run hrun)))
    (.of_turns _ hflow hturns)

/-! ### The turn of the idle loop -/

/-- In a turn of the idle loop that begins after the history `h₀` in the state `s₀`, until it hands the
processor on. -/
structure Waking (h₀ : History) (s₀ : System D) (h : History) (s : System D) : Prop where
  flow_eq : s.flow = .idle
  input : h₀.SameInput h
  /-- The tasks stay where they are, and so does what they have taken and displayed. -/
  shell_eq : s.shell = s₀.shell
  counter_eq : s.counter = s₀.counter
  scancodes_eq : h.scancodes = h₀.scancodes
  displayed_eq : h.displayed = h₀.displayed
  awake : s.idle ≠ .halting ∧ s.idle ≠ .waiting
  /-- It goes on only when the queue is empty. -/
  drained : s.idle = .reading ∨ (∃ event, s.idle = .handling event) ∨
    s.input.mouseEvents.stored = []

/-- **Every step of the turn** keeps it. -/
theorem Waking.step {s₀ : System D} (hw : Waking h₀ s₀ h s) (hi : Inv info h s)
    (hyielding : s.idle ≠ .yielding) (hrun : s.run = some (e, s')) : Waking h₀ s₀ (h.add e) s' := by
  obtain ⟨-, hmouseEvents, -⟩ := hi.received.recorded.ok
  obtain ⟨hflow, hinput, hshell, hcounter, hscancodes, hdisplayed, hawake, hdrained⟩ := hw
  have hinput' := hi.sameInput_of_run hrun
  rw [run, hflow] at hrun
  rcases next_of_runIdle hrun with ⟨hpc, -⟩ | ⟨statics, q, idle, rfl, hnext⟩
  · exact absurd hpc hyielding
  · obtain ⟨hawake', hdrained'⟩ := hnext.drains hmouseEvents hawake hdrained
    obtain ⟨-, hscancodes', hdisplayed', -⟩ := hnext.add_eq h
    exact ⟨hflow, hinput.trans hinput', hshell, hcounter,
      hscancodes'.trans hscancodes, hdisplayed'.trans hdisplayed, hawake', hdrained'⟩

/-- **The idle loop, once awake, handles all mouse events** that have been accepted, before it hands
the processor on. -/
theorem Inv.exists_yielding (hb : BootScreen info fb) {es : List Event} (hi : Inv info (.of es) s)
    (hflow : s.flow = .idle) (hreading : s.idle = .reading) :
    ∃ es' s', Trace Uninterrupted s es' s' ∧ Inv info (.of (es ++ es')) s' ∧ s'.idle = .yielding ∧
      s'.input.mouseEvents.stored = [] ∧ Waking (.of es) s (.of (es ++ es')) s' := by
  have hw : Waking (.of es) s (.of es) s :=
    ⟨hflow, .refl _, rfl, rfl, rfl, rfl, by rw [hreading]; exact ⟨nofun, nofun⟩, .inl hreading⟩
  have hquiet : ∀ s : System D, s.Quiet → s.idle = .yielding ∨ s.Quiet := fun _ hq => .inr hq
  obtain ⟨es', s', htrace, hi', hw', hgoal⟩ := hi.exists_uninterrupted hb hquiet
    (fun h a e b hi' hw hno hrun => hw.step hi' (fun hpc => hno (.inl hpc)) hrun) hw
  have hidle : s'.idle = .yielding := by
    rcases hgoal with hidle | ⟨-, hidle⟩ | ⟨hflow', -⟩
    · exact hidle
    · exact absurd hidle hw'.awake.2
    · exact absurd (hw'.flow_eq.symm.trans hflow') (by decide)
  refine ⟨es', s', htrace, hi', hidle, ?_, hw'⟩
  rcases hw'.drained with hpc | ⟨event, hpc⟩ | hempty
  · cases hidle.symm.trans hpc
  · cases hidle.symm.trans hpc
  · exact hempty

end System

end ROs
