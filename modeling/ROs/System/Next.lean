import ROs.System.Invariant

/-!
# What a step can do

For each flow of control a relation says where a step leads and what it takes out of a queue
(`IdlePc.Next`, `ShellPc.Next`, `MemmapPc.Next`, `CounterPc.Next`), and a lemma that a step either
hands the processor on or does this and leaves everything else of the other flows alone
(`System.next_of_runIdle`, `System.next_of_runShell`, `System.next_of_runMemmap`,
`System.next_of_runCounter`).  `System.runStep_of_run` puts the four together; what every step keeps
is proved by its cases.
-/

namespace ROs

/-! ### The steps of each flow -/

/-- The steps of the idle loop but `yield_now`. -/
inductive IdlePc.Next (statics : Statics) :
    IdlePc → Spsc MouseEvent → System.Event → IdlePc → Spsc MouseEvent → Prop
  | look {q q' : Spsc MouseEvent} {e : Fifo.Event MouseEvent} : q.popStep = some (e, q') →
      (∀ event, e ≠ .popped event) → e ≠ .empty → Next statics .reading q (.mouse e) .reading q'
  | take {q q' : Spsc MouseEvent} {event : MouseEvent} : q.popStep = some (.popped event, q') →
      Next statics .reading q (.mouse (.popped event)) (.handling event) q'
  | none {q q' : Spsc MouseEvent} : q.popStep = some (.empty, q') →
      Next statics .reading q (.mouse .empty) .checking q'
  | handle (event : MouseEvent) (q : Spsc MouseEvent) :
      Next statics (.handling event) q (.handleMouse event) .reading q
  | due (q : Spsc MouseEvent) : statics.needsComposite = true →
      Next statics .checking q .internal .compositing q
  | notDue (q : Spsc MouseEvent) : statics.needsComposite = false →
      Next statics .checking q .internal .yielding q
  | composite (q : Spsc MouseEvent) : Next statics .compositing q (.call .composite) .yielding q
  | halt (q : Spsc MouseEvent) : Next statics .halting q .internal .waiting q
  | wait (q : Spsc MouseEvent) : Next statics .waiting q .internal .waiting q

/-- The steps of the shell but `yield_now`. -/
inductive ShellPc.Next (statics : Statics) :
    ShellPc → Spsc UInt8 → System.Event → ShellPc → Spsc UInt8 → Prop
  | enter (winId : UInt64) (q : Spsc UInt8) : Next statics .entry q .internal
      (.starting winId (Shell.start winId).calls (Shell.start winId).result) q
  | start (winId : UInt64) (op : Statics.Op) (ops : List Statics.Op) (result : Except Stop Line)
      (q : Spsc UInt8) : Next statics (.starting winId (op :: ops) result) q (.call op)
        (.starting winId ops result) q
  | started (winId : UInt64) (line : Line) (q : Spsc UInt8) :
      Next statics (.starting winId [] (.ok line)) q .internal (.polling winId line) q
  | focused (winId : UInt64) (line : Line) (q : Spsc UInt8) : statics.isFocused winId.toNat = true →
      Next statics (.polling winId line) q .internal (.reading winId line) q
  | unfocused (winId : UInt64) (line : Line) (q : Spsc UInt8) :
      statics.isFocused winId.toNat = false →
      Next statics (.polling winId line) q .internal (.yielding winId line) q
  | look (winId : UInt64) (line : Line) {q q' : Spsc UInt8} {e : Fifo.Event UInt8} :
      q.popStep = some (e, q') → e ≠ .empty →
      Next statics (.reading winId line) q (.scancode e none) (.reading winId line) q'
  | key (winId : UInt64) (line : Line) {q q' : Spsc UInt8} {scancode : UInt8} (key : DecodedKey) :
      q.popStep = some (.popped scancode, q') →
      Next statics (.reading winId line) q (.scancode (.popped scancode) (some key))
        (.handling winId (Shell.handleKey winId key line).calls
          (Shell.handleKey winId key line).result) q'
  | none (winId : UInt64) (line : Line) {q q' : Spsc UInt8} : q.popStep = some (.empty, q') →
      Next statics (.reading winId line) q (.scancode .empty none) (.yielding winId line) q'
  | handle (winId : UInt64) (op : Statics.Op) (ops : List Statics.Op) (result : Except Stop Line)
      (q : Spsc UInt8) : Next statics (.handling winId (op :: ops) result) q (.call op)
        (.handling winId ops result) q
  | handled (winId : UInt64) (line : Line) (q : Spsc UInt8) :
      Next statics (.handling winId [] (.ok line)) q .internal (.yielding winId line) q
  | startHalt (winId : UInt64) (q : Spsc UInt8) :
      Next statics (.starting winId [] (.error .halt)) q .internal .halted q
  | halt (winId : UInt64) (q : Spsc UInt8) :
      Next statics (.handling winId [] (.error .halt)) q .internal .halted q
  | halted (q : Spsc UInt8) : Next statics .halted q .internal .halted q

/-- The steps of the memory map but `yield_now`. -/
inductive MemmapPc.Next : MemmapPc → System.Event → MemmapPc → Prop
  | enter (winId : UInt64) : Next .entry .internal (.drawing winId)
  | draw (winId : UInt64) : Next (.drawing winId) (.drawMemmap winId) (.marking winId)
  | mark (winId : UInt64) : Next (.marking winId) (.call (.markDirty winId)) .yielding

/-- The steps of the counter but `yield_now`. -/
inductive CounterPc.Next (ticks : UInt64) : CounterPc → System.Event → CounterPc → Prop
  | enter (winId : UInt64) : Next ticks .entry .internal
      (.starting winId (Counter.start winId).calls (Counter.start winId).result)
  | start (winId : UInt64) (op : Statics.Op) (ops : List Statics.Op) (result : Except Stop Unit) :
      Next ticks (.starting winId (op :: ops) result) (.call op) (.starting winId ops result)
  | started (winId : UInt64) :
      Next ticks (.starting winId [] (.ok ())) .internal (.polling winId 0)
  | due (winId lastDisplayed : UInt64) : Next ticks (.polling winId lastDisplayed)
      (.counted ticks true) (.drawing winId (Counter.redraw winId ticks).calls
        (Counter.redraw winId ticks).result ticks)
  | notDue (winId lastDisplayed : UInt64) : Next ticks (.polling winId lastDisplayed)
      (.counted ticks false) (.yielding winId lastDisplayed)
  | draw (winId : UInt64) (op : Statics.Op) (ops : List Statics.Op) (result : Except Stop Unit)
      (lastDisplayed : UInt64) : Next ticks (.drawing winId (op :: ops) result lastDisplayed)
        (.call op) (.drawing winId ops result lastDisplayed)
  | drawn (winId lastDisplayed : UInt64) : Next ticks (.drawing winId [] (.ok ()) lastDisplayed)
      .internal (.yielding winId lastDisplayed)

/-! ### What they never do -/

/-- From the one history to the other no input has been accepted, and no tick been counted. -/
structure History.SameInput (h h' : History) : Prop where
  scancodes : Fifo.accepted h'.scancodes = Fifo.accepted h.scancodes
  mouseEvents : Fifo.accepted h'.mouseEvents = Fifo.accepted h.mouseEvents
  bytes : h'.bytes = h.bytes
  ticks : h'.ticks = h.ticks

namespace History.SameInput

theorem refl (h : History) : h.SameInput h := ⟨rfl, rfl, rfl, rfl⟩

theorem trans {h₁ h₂ h₃ : History} (h : h₁.SameInput h₂) (h' : h₂.SameInput h₃) :
    h₁.SameInput h₃ :=
  ⟨h'.scancodes.trans h.scancodes, h'.mouseEvents.trans h.mouseEvents, h'.bytes.trans h.bytes,
    h'.ticks.trans h.ticks⟩

theorem yield {h h' : History} (hsame : h.SameInput h') : h.SameInput (h'.add .yield) :=
  ⟨hsame.scancodes, hsame.mouseEvents, hsame.bytes, hsame.ticks⟩

end History.SameInput

/-- An access of the consumer accepts nothing. -/
theorem Spsc.accepted_of_popStep {α : Type*} {q q' : Spsc α} {e : Fifo.Event α} (hi : q.Inv)
    (hpop : q.popStep = some (e, q')) (es : List (Fifo.Event α)) :
    Fifo.accepted (es ++ [e]) = Fifo.accepted es := by
  obtain ⟨e', q'', hpop', hevent, -⟩ := exists_popStep hi
  cases hpop.symm.trans hpop'
  rw [Fifo.accepted_concat]
  rcases hevent with rfl | ⟨v, rfl⟩ | rfl <;> exact List.append_nil _

/-- The flow of control that alone has steps of this kind. -/
def System.Event.flow? : System.Event → Option Flow
  | .mouse _ | .handleMouse _ => some .idle
  | .scancode .. => some .shell
  | .drawMemmap _ => some .memmap
  | .counted .. => some .counter
  | .handled _ | .call _ | .yield | .internal => none

section

variable {statics : Statics} {e : System.Event} {flow : Flow}

theorem IdlePc.Next.flow_eq {pc pc' : IdlePc} {q q' : Spsc MouseEvent}
    (hnext : Next statics pc q e pc' q') (he : e.flow? = some flow) : flow = .idle := by
  cases hnext <;> cases he <;> rfl

theorem ShellPc.Next.flow_eq {pc pc' : ShellPc} {q q' : Spsc UInt8}
    (hnext : Next statics pc q e pc' q') (he : e.flow? = some flow) : flow = .shell := by
  cases hnext <;> cases he <;> rfl

theorem MemmapPc.Next.flow_eq {pc pc' : MemmapPc} (hnext : Next pc e pc')
    (he : e.flow? = some flow) : flow = .memmap := by
  cases hnext <;> cases he
  rfl

theorem CounterPc.Next.flow_eq {ticks : UInt64} {pc pc' : CounterPc}
    (hnext : Next ticks pc e pc') (he : e.flow? = some flow) : flow = .counter := by
  cases hnext <;> cases he <;> rfl

theorem IdlePc.Next.add_eq {pc pc' : IdlePc} {q q' : Spsc MouseEvent}
    (hnext : Next statics pc q e pc' q') (h : History) :
    (h.add e).yields = h.yields ∧ (h.add e).scancodes = h.scancodes ∧
      (h.add e).displayed = h.displayed ∧ (h.add e).counted = h.counted := by
  cases hnext <;> exact ⟨rfl, rfl, rfl, rfl⟩

theorem IdlePc.Next.sameInput {pc pc' : IdlePc} {q q' : Spsc MouseEvent} (hi : q.Inv)
    (hnext : Next statics pc q e pc' q') (h : History) : h.SameInput (h.add e) := by
  cases hnext with
  | look hpop => exact ⟨rfl, Spsc.accepted_of_popStep hi hpop _, rfl, rfl⟩
  | take hpop => exact ⟨rfl, Spsc.accepted_of_popStep hi hpop _, rfl, rfl⟩
  | none hpop => exact ⟨rfl, Spsc.accepted_of_popStep hi hpop _, rfl, rfl⟩
  | handle | due | notDue | composite | halt | wait => exact ⟨rfl, rfl, rfl, rfl⟩

theorem IdlePc.Next.halts_of_halts {pc pc' : IdlePc} {q q' : Spsc MouseEvent}
    (hnext : Next statics pc q e pc' q') (hpc : pc' = .halting ∨ pc' = .waiting) :
    pc = .halting ∨ pc = .waiting := by
  cases hnext with
  | halt => exact .inl rfl
  | wait => exact .inr rfl
  | look | take | none | handle | due | notDue | composite =>
    rcases hpc with hpc | hpc <;> cases hpc

theorem ShellPc.Next.add_eq {pc pc' : ShellPc} {q q' : Spsc UInt8}
    (hnext : Next statics pc q e pc' q') (h : History) :
    (h.add e).yields = h.yields ∧ (h.add e).moves = h.moves := by
  cases hnext <;> exact ⟨rfl, rfl⟩

theorem ShellPc.Next.sameInput {pc pc' : ShellPc} {q q' : Spsc UInt8} (hi : q.Inv)
    (hnext : Next statics pc q e pc' q') (h : History) : h.SameInput (h.add e) := by
  cases hnext with
  | look _ _ hpop => exact ⟨Spsc.accepted_of_popStep hi hpop _, rfl, rfl, rfl⟩
  | key _ _ _ hpop => exact ⟨Spsc.accepted_of_popStep hi hpop _, rfl, rfl, rfl⟩
  | none _ _ hpop => exact ⟨Spsc.accepted_of_popStep hi hpop _, rfl, rfl, rfl⟩
  | enter | start | started | focused | unfocused | handle | handled | startHalt | halt | halted =>
    exact .refl h

theorem ShellPc.Next.ne_entry {pc pc' : ShellPc} {q q' : Spsc UInt8}
    (hnext : Next statics pc q e pc' q') : pc' ≠ .entry := by
  cases hnext <;> exact nofun

theorem MemmapPc.Next.add_eq {pc pc' : MemmapPc} (hnext : Next pc e pc') (h : History) :
    (h.add e).yields = h.yields ∧ (h.add e).moves = h.moves ∧ h.SameInput (h.add e) := by
  cases hnext <;> exact ⟨rfl, rfl, .refl h⟩

theorem MemmapPc.Next.ne_entry {pc pc' : MemmapPc} (hnext : Next pc e pc') : pc' ≠ .entry := by
  cases hnext <;> exact nofun

theorem CounterPc.Next.add_eq {ticks : UInt64} {pc pc' : CounterPc}
    (hnext : Next ticks pc e pc') (h : History) :
    (h.add e).yields = h.yields ∧ (h.add e).moves = h.moves ∧ h.SameInput (h.add e) := by
  cases hnext <;> exact ⟨rfl, rfl, rfl, rfl, rfl, rfl⟩

theorem CounterPc.Next.ne_entry {ticks : UInt64} {pc pc' : CounterPc}
    (hnext : Next ticks pc e pc') : pc' ≠ .entry := by
  cases hnext <;> exact nofun

end

/-- The place of a flow of control in a round. -/
def Flow.index : Flow → ℕ
  | .idle => 0
  | .shell => 1
  | .memmap => 2
  | .counter => 3

theorem Flow.index_ofIndex {n : ℕ} (hn : n < 4) : (ofIndex n).index = n := by
  interval_cases n <;> rfl

variable [BasicFonts] {D : KeyDecoder}

namespace System

variable {s s' : System D} {e : Event}

omit [BasicFonts] in
/-- `yield_now` changes nothing but the scheduler. -/
theorem exists_yieldNow_eq (s : System D) : ∃ scheduler, s.yieldNow = { s with scheduler } := by
  unfold yieldNow
  split
  · exact ⟨_, rfl⟩
  · exact ⟨s.scheduler, rfl⟩

/-- **A step of the idle loop.** -/
theorem next_of_runIdle (h : s.runIdle = some (e, s')) :
    s.idle = .yielding ∧ e = .yield ∧ s' = { s with idle := .halting }.yieldNow ∨
      ∃ statics mouseEvents idle,
        s' = { s with statics, input := { s.input with mouseEvents }, idle } ∧
        s.idle.Next s.statics s.input.mouseEvents e idle mouseEvents := by
  obtain ⟨statics, scheduler, input, keyboard, memRegions, idle, shell, memmap, counter⟩ := s
  cases idle with
  | reading =>
    obtain ⟨⟨e', q⟩, hpop, h⟩ := Option.bind_eq_some_iff.1 h
    refine .inr ?_
    cases e' with
    | popped event =>
      cases h
      exact ⟨_, _, _, rfl, .take hpop⟩
    | empty =>
      cases h
      exact ⟨_, _, _, rfl, .none hpop⟩
    | silent | accepted | dropped =>
      cases h
      exact ⟨_, _, _, rfl, .look hpop nofun nofun⟩
  | handling event =>
    obtain ⟨statics', -, h⟩ := Option.bind_eq_some_iff.1 h
    cases h
    exact .inr ⟨statics', _, _, rfl, .handle event _⟩
  | checking =>
    cases hneeds : statics.needsComposite with
    | true =>
      cases (if_pos hneeds).symm.trans h
      exact .inr ⟨_, _, _, rfl, .due _ hneeds⟩
    | false =>
      cases (if_neg (by rw [hneeds]; exact Bool.false_ne_true)).symm.trans h
      exact .inr ⟨_, _, _, rfl, .notDue _ hneeds⟩
  | compositing =>
    obtain ⟨statics', -, h⟩ := Option.bind_eq_some_iff.1 h
    cases h
    exact .inr ⟨statics', _, _, rfl, .composite _⟩
  | yielding =>
    cases h
    exact .inl ⟨rfl, rfl, rfl⟩
  | halting =>
    cases h
    exact .inr ⟨_, _, _, rfl, .halt _⟩
  | waiting =>
    cases h
    exact .inr ⟨_, _, _, rfl, .wait _⟩

/-- **A step of the shell.** -/
theorem next_of_runShell (h : s.runShell = some (e, s')) :
    (∃ winId line, s.shell = .yielding winId line ∧ e = .yield ∧
      s' = { s with shell := .polling winId line }.yieldNow) ∨
      ∃ statics scancodes keyboard shell,
        s' = { s with statics, input := { s.input with scancodes }, keyboard, shell } ∧
        s.shell.Next s.statics s.input.scancodes e shell scancodes := by
  obtain ⟨statics, scheduler, input, keyboard, memRegions, idle, shell, memmap, counter⟩ := s
  cases shell with
  | entry =>
    cases h
    exact .inr ⟨_, _, _, _, rfl, .enter _ _⟩
  | starting winId ops result =>
    refine .inr ?_
    cases ops with
    | cons op ops =>
      obtain ⟨statics', -, h⟩ := Option.bind_eq_some_iff.1 h
      cases h
      exact ⟨statics', _, _, _, rfl, .start winId op ops result _⟩
    | nil =>
      rcases result with (_ | _) | line
      all_goals cases h
      · exact ⟨_, _, _, _, rfl, .startHalt _ _⟩
      · exact ⟨_, _, _, _, rfl, .started _ _ _⟩
  | polling winId line =>
    refine .inr ?_
    cases hfocus : statics.isFocused winId.toNat with
    | true =>
      cases (if_pos hfocus).symm.trans h
      exact ⟨_, _, _, _, rfl, .focused _ _ _ hfocus⟩
    | false =>
      cases (if_neg (by rw [hfocus]; exact Bool.false_ne_true)).symm.trans h
      exact ⟨_, _, _, _, rfl, .unfocused _ _ _ hfocus⟩
  | reading winId line =>
    obtain ⟨⟨e', q⟩, hpop, h⟩ := Option.bind_eq_some_iff.1 h
    refine .inr ?_
    cases e' with
    | popped scancode =>
      cases hreceive : D.receive keyboard scancode with
      | mk keyboard' key =>
        dsimp only at h
        rw [hreceive] at h
        cases key with
        | some key =>
          cases h
          exact ⟨_, _, _, _, rfl, .key winId line key hpop⟩
        | none =>
          cases h
          exact ⟨_, _, keyboard', _, rfl, .look winId line hpop nofun⟩
    | empty =>
      cases h
      exact ⟨_, _, _, _, rfl, .none winId line hpop⟩
    | silent | accepted | dropped =>
      cases h
      exact ⟨_, _, _, _, rfl, .look winId line hpop nofun⟩
  | handling winId ops result =>
    refine .inr ?_
    cases ops with
    | cons op ops =>
      obtain ⟨statics', -, h⟩ := Option.bind_eq_some_iff.1 h
      cases h
      exact ⟨statics', _, _, _, rfl, .handle winId op ops result _⟩
    | nil =>
      rcases result with (_ | _) | line
      all_goals cases h
      · exact ⟨_, _, _, _, rfl, .halt _ _⟩
      · exact ⟨_, _, _, _, rfl, .handled _ _ _⟩
  | yielding winId line =>
    cases h
    exact .inl ⟨winId, line, rfl, rfl, rfl⟩
  | halted =>
    cases h
    exact .inr ⟨_, _, _, _, rfl, .halted _⟩

/-- **A step of the memory map.** -/
theorem next_of_runMemmap (h : s.runMemmap = some (e, s')) :
    s.memmap = .yielding ∧ e = .yield ∧ s' = s.yieldNow ∨
      ∃ statics memmap, s' = { s with statics, memmap } ∧ s.memmap.Next e memmap := by
  obtain ⟨statics, scheduler, input, keyboard, memRegions, idle, shell, memmap, counter⟩ := s
  cases memmap with
  | entry =>
    cases h
    exact .inr ⟨_, _, rfl, .enter _⟩
  | drawing winId =>
    obtain ⟨statics', -, h⟩ := Option.bind_eq_some_iff.1 h
    cases h
    exact .inr ⟨statics', _, rfl, .draw winId⟩
  | marking winId =>
    obtain ⟨statics', -, h⟩ := Option.bind_eq_some_iff.1 h
    cases h
    exact .inr ⟨statics', _, rfl, .mark winId⟩
  | yielding =>
    cases h
    exact .inl ⟨rfl, rfl, rfl⟩

/-- **A step of the counter.** -/
theorem next_of_runCounter (h : s.runCounter = some (e, s')) :
    (∃ winId lastDisplayed, s.counter = .yielding winId lastDisplayed ∧ e = .yield ∧
      s' = { s with counter := .polling winId lastDisplayed }.yieldNow) ∨
      ∃ statics counter, s' = { s with statics, counter } ∧
        s.counter.Next s.input.tickCount e counter := by
  obtain ⟨statics, scheduler, input, keyboard, memRegions, idle, shell, memmap, counter⟩ := s
  cases counter with
  | entry =>
    cases h
    exact .inr ⟨_, _, rfl, .enter _⟩
  | starting winId ops result =>
    refine .inr ?_
    cases ops with
    | cons op ops =>
      obtain ⟨statics', -, h⟩ := Option.bind_eq_some_iff.1 h
      cases h
      exact ⟨statics', _, rfl, .start winId op ops result⟩
    | nil =>
      rcases result with _ | ⟨⟩
      all_goals cases h
      exact ⟨_, _, rfl, .started winId⟩
  | polling winId lastDisplayed =>
    refine .inr ?_
    by_cases hdue : Counter.due input.tickCount lastDisplayed
    · cases (if_pos hdue).symm.trans h
      exact ⟨_, _, rfl, .due winId lastDisplayed⟩
    · cases (if_neg hdue).symm.trans h
      exact ⟨_, _, rfl, .notDue winId lastDisplayed⟩
  | drawing winId ops result lastDisplayed =>
    refine .inr ?_
    cases ops with
    | cons op ops =>
      obtain ⟨statics', -, h⟩ := Option.bind_eq_some_iff.1 h
      cases h
      exact ⟨statics', _, rfl, .draw winId op ops result lastDisplayed⟩
    | nil =>
      rcases result with _ | ⟨⟩
      all_goals cases h
      exact ⟨_, _, rfl, .drawn winId lastDisplayed⟩
  | yielding winId lastDisplayed =>
    cases h
    exact .inl ⟨winId, lastDisplayed, rfl, rfl, rfl⟩

/-- A step without an interrupt, by the flow of control that takes it and by whether it is a call of
`yield_now`. -/
inductive RunStep (s : System D) : Event → System D → Prop
  | idle {e : Event} {statics : Statics} {mouseEvents : Spsc MouseEvent} {idle : IdlePc}
      (hflow : s.flow = .idle)
      (hnext : s.idle.Next s.statics s.input.mouseEvents e idle mouseEvents) :
      RunStep s e { s with statics, input := { s.input with mouseEvents }, idle }
  | idleYield (scheduler : Scheduler) (hflow : s.flow = .idle) (hpc : s.idle = .yielding) :
      RunStep s .yield { s with scheduler, idle := .halting }
  | shell {e : Event} {statics : Statics} {scancodes : Spsc UInt8} {keyboard : D.Keyboard}
      {shell : ShellPc} (hflow : s.flow = .shell)
      (hnext : s.shell.Next s.statics s.input.scancodes e shell scancodes) :
      RunStep s e { s with statics, input := { s.input with scancodes }, keyboard, shell }
  | shellYield {winId : UInt64} {line : Line} (scheduler : Scheduler) (hflow : s.flow = .shell)
      (hpc : s.shell = .yielding winId line) :
      RunStep s .yield { s with scheduler, shell := .polling winId line }
  | memmap {e : Event} {statics : Statics} {memmap : MemmapPc} (hflow : s.flow = .memmap)
      (hnext : s.memmap.Next e memmap) : RunStep s e { s with statics, memmap }
  | memmapYield (scheduler : Scheduler) (hflow : s.flow = .memmap) (hpc : s.memmap = .yielding) :
      RunStep s .yield { s with scheduler }
  | counter {e : Event} {statics : Statics} {counter : CounterPc} (hflow : s.flow = .counter)
      (hnext : s.counter.Next s.input.tickCount e counter) : RunStep s e { s with statics, counter }
  | counterYield {winId lastDisplayed : UInt64} (scheduler : Scheduler) (hflow : s.flow = .counter)
      (hpc : s.counter = .yielding winId lastDisplayed) :
      RunStep s .yield { s with scheduler, counter := .polling winId lastDisplayed }

/-- **Every step without an interrupt** is one of these. -/
theorem runStep_of_run (h : s.run = some (e, s')) : RunStep s e s' := by
  rw [run] at h
  cases hflow : s.flow with
  | idle =>
    rw [hflow] at h
    rcases next_of_runIdle h with ⟨hpc, rfl, rfl⟩ | ⟨statics, q, idle, rfl, hnext⟩
    · obtain ⟨scheduler, hyield⟩ := exists_yieldNow_eq { s with idle := .halting }
      rw [hyield]
      exact .idleYield scheduler hflow hpc
    · exact .idle hflow hnext
  | shell =>
    rw [hflow] at h
    rcases next_of_runShell h with ⟨winId, line, hpc, rfl, rfl⟩ |
      ⟨statics, q, keyboard, shell, rfl, hnext⟩
    · obtain ⟨scheduler, hyield⟩ := exists_yieldNow_eq { s with shell := .polling winId line }
      rw [hyield]
      exact .shellYield scheduler hflow hpc
    · exact .shell hflow hnext
  | memmap =>
    rw [hflow] at h
    rcases next_of_runMemmap h with ⟨hpc, rfl, rfl⟩ | ⟨statics, memmap, rfl, hnext⟩
    · obtain ⟨scheduler, hyield⟩ := exists_yieldNow_eq s
      rw [hyield]
      exact .memmapYield scheduler hflow hpc
    · exact .memmap hflow hnext
  | counter =>
    rw [hflow] at h
    rcases next_of_runCounter h with ⟨winId, lastDisplayed, hpc, rfl, rfl⟩ |
      ⟨statics, counter, rfl, hnext⟩
    · obtain ⟨scheduler, hyield⟩ :=
        exists_yieldNow_eq { s with counter := .polling winId lastDisplayed }
      rw [hyield]
      exact .counterYield scheduler hflow hpc
    · exact .counter hflow hnext

/-- **A step of a kind that one flow alone has** is a step of this flow. -/
theorem run_of_event (hst : Step s e s') {flow : Flow} (he : e.flow? = some flow) :
    s.run = some (e, s') ∧ s.flow = flow := by
  cases hst with
  | interrupt i hint =>
    obtain ⟨⟨e', input⟩, -, hint⟩ := Option.bind_eq_some_iff.1 hint
    cases hint
    cases he
  | run hrun =>
    refine ⟨hrun, ?_⟩
    cases runStep_of_run hrun with
    | idle hflow hnext => exact hflow.trans (hnext.flow_eq he).symm
    | shell hflow hnext => exact hflow.trans (hnext.flow_eq he).symm
    | memmap hflow hnext => exact hflow.trans (hnext.flow_eq he).symm
    | counter hflow hnext => exact hflow.trans (hnext.flow_eq he).symm
    | idleYield | shellYield | memmapYield | counterYield => cases he

/-- The counter reads the number of ticks. -/
theorem ticks_of_counted {ticks : UInt64} {due : Bool} (hst : Step s (.counted ticks due) s') :
    ticks = s.input.tickCount := by
  obtain ⟨hrun, hflow⟩ := run_of_event hst rfl
  rw [run, hflow] at hrun
  rcases next_of_runCounter hrun with ⟨winId, lastDisplayed, -, heq, -⟩ | ⟨statics, counter, -, hnext⟩
  · cases heq
  · generalize s.counter = pc at hnext
    cases hnext with
    | due | notDue => rfl

/-- The shell takes scancodes only in one place. -/
theorem reading_of_scancode {e : Fifo.Event UInt8} {key : Option DecodedKey}
    (hst : Step s (.scancode e key) s') : ∃ winId line, s.shell = .reading winId line := by
  obtain ⟨hrun, hflow⟩ := run_of_event hst rfl
  rw [run, hflow] at hrun
  rcases next_of_runShell hrun with ⟨winId, line, -, heq, -⟩ |
    ⟨statics, q, keyboard, shell, -, hnext⟩
  · cases heq
  · generalize s.shell = pc at hnext
    cases hnext with
    | look winId line | key winId line | none winId line => exact ⟨winId, line, rfl⟩

variable {info : FrameBufferInfo} {h : History}

/-- **Only interrupts bring input.** -/
theorem Inv.sameInput_of_run (hi : Inv info h s) (hrun : s.run = some (e, s')) :
    h.SameInput (h.add e) := by
  obtain ⟨hscancodes, hmouseEvents, -⟩ := hi.received.recorded.ok
  cases runStep_of_run hrun with
  | idle _ hnext => exact hnext.sameInput hmouseEvents h
  | shell _ hnext => exact hnext.sameInput hscancodes h
  | memmap _ hnext => exact (hnext.add_eq h).2.2
  | counter _ hnext => exact (hnext.add_eq h).2.2
  | idleYield | shellYield | memmapYield | counterYield => exact .yield (.refl h)

/-! ### The first round -/

/-- The calls of `yield_now` say whose turn it is. -/
theorem Inv.index_flow (hi : Inv info h s) : s.flow.index = h.yields % 4 := by
  rw [(flow_eq hi.turn.toInTurn).1, hi.turn.current_eq]
  exact Flow.index_ofIndex (Nat.mod_lt _ (by decide))

/-- The idle loop has had a turn if it is about to halt; a task that has not begun has not had one. -/
structure Begun (h : History) (s : System D) : Prop where
  idle : s.idle = .halting ∨ s.idle = .waiting → 0 < h.yields
  shell : s.shell = .entry → h.yields ≤ Flow.shell.index
  memmap : s.memmap = .entry → h.yields ≤ Flow.memmap.index
  counter : s.counter = .entry → h.yields ≤ Flow.counter.index

/-- A flow that has not begun is not the one that calls `yield_now`. -/
theorem Inv.yields_succ_le (hi : Inv info h s) (flow : Flow) (hne : s.flow ≠ flow)
    (hle : h.yields ≤ flow.index) : h.yields + 1 ≤ flow.index := by
  have hindex := hi.index_flow
  cases hflow : s.flow with
  | idle | shell | memmap | counter =>
    cases flow with
    | idle | shell | memmap | counter =>
      rw [hflow] at hindex hne
      simp only [Flow.index] at hindex hle ⊢
      first | omega | exact absurd rfl hne

/-- **Every step** keeps it. -/
theorem Begun.step (hbegun : Begun h s) (hi : Inv info h s) (hst : Step s e s') :
    Begun (h.add e) s' := by
  obtain ⟨hidle, hshell, hmemmap, hcounter⟩ := hbegun
  cases hst with
  | interrupt i hint =>
    obtain ⟨⟨e', input⟩, -, hint⟩ := Option.bind_eq_some_iff.1 hint
    cases hint
    refine ⟨fun hpc => hidle ?_, hshell, hmemmap, hcounter⟩
    by_cases hwait : s.flow = .idle ∧ s.idle = .waiting
    · exact .inr hwait.2
    · rwa [if_neg hwait] at hpc
  | run hrun =>
    cases runStep_of_run hrun with
    | idle hflow hnext =>
      have hyields := (hnext.add_eq h).1
      exact ⟨hyields ▸ fun hpc => hidle (hnext.halts_of_halts hpc), hyields ▸ hshell,
        hyields ▸ hmemmap, hyields ▸ hcounter⟩
    | idleYield _ hflow =>
      exact ⟨fun _ => Nat.succ_pos _,
        fun heq => hi.yields_succ_le .shell (by rw [hflow]; decide) (hshell heq),
        fun heq => hi.yields_succ_le .memmap (by rw [hflow]; decide) (hmemmap heq),
        fun heq => hi.yields_succ_le .counter (by rw [hflow]; decide) (hcounter heq)⟩
    | shell hflow hnext =>
      have hyields := (hnext.add_eq h).1
      exact ⟨hyields ▸ hidle, fun heq => absurd heq hnext.ne_entry, hyields ▸ hmemmap,
        hyields ▸ hcounter⟩
    | shellYield _ hflow =>
      exact ⟨fun _ => Nat.succ_pos _, (by intro heq; cases heq),
        fun heq => hi.yields_succ_le .memmap (by rw [hflow]; decide) (hmemmap heq),
        fun heq => hi.yields_succ_le .counter (by rw [hflow]; decide) (hcounter heq)⟩
    | memmap hflow hnext =>
      have hyields := (hnext.add_eq h).1
      exact ⟨hyields ▸ hidle, hyields ▸ hshell, fun heq => absurd heq hnext.ne_entry,
        hyields ▸ hcounter⟩
    | memmapYield _ hflow hpc =>
      exact ⟨fun _ => Nat.succ_pos _,
        fun heq => hi.yields_succ_le .shell (by rw [hflow]; decide) (hshell heq),
        fun heq => absurd (hpc.symm.trans heq) (by decide),
        fun heq => hi.yields_succ_le .counter (by rw [hflow]; decide) (hcounter heq)⟩
    | counter hflow hnext =>
      have hyields := (hnext.add_eq h).1
      exact ⟨hyields ▸ hidle, hyields ▸ hshell, hyields ▸ hmemmap,
        fun heq => absurd heq hnext.ne_entry⟩
    | counterYield _ hflow =>
      exact ⟨fun _ => Nat.succ_pos _,
        fun heq => hi.yields_succ_le .shell (by rw [hflow]; decide) (hshell heq),
        fun heq => hi.yields_succ_le .memmap (by rw [hflow]; decide) (hmemmap heq),
        (by intro heq; cases heq)⟩

end System

end ROs
