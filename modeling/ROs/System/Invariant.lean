import ROs.System.TextTask
import ROs.System.Turns
import ROs.Wm.Desktop

/-!
# What holds in every run

`History` is what a run has brought about so far, in the words of those who use the system: bytes from
the mouse, keys for the shell, redraws of the counter.  `System.Inv` ties the state to it.  There is
one lemma for each flow of control that says that its steps never fail and keep the invariant, and one
for interrupts; `System.Inv.trace` carries it over all runs.
-/

namespace ROs

open WindowManager

/-! ### Histories -/

/-- What has happened. -/
structure History where
  /-- The accesses of the scancode queue. -/
  scancodes : List (Fifo.Event UInt8)
  /-- The accesses of the queue of mouse events. -/
  mouseEvents : List (Fifo.Event MouseEvent)
  /-- The bytes that the mouse has sent. -/
  bytes : List UInt8
  /-- The number of timer interrupts. -/
  ticks : ℕ
  /-- The keys that the shell has got. -/
  keys : List DecodedKey
  /-- The mouse events that have been handled. -/
  moves : List MouseEvent
  /-- The number of ticks that the counter has read last. -/
  counted : UInt64
  /-- The number of ticks of the last redraw of the counter. -/
  displayed : Option UInt64
  /-- The number of calls of `yield_now`. -/
  yields : ℕ

namespace History

/-- Before the first step. -/
def empty : History := ⟨[], [], [], 0, [], [], 0, none, 0⟩

/-- One step more. -/
def add (h : History) : System.Event → History
  | .handled e => { h with
      scancodes := h.scancodes ++ [e.scancodes]
      mouseEvents := h.mouseEvents ++ [e.mouseEvents]
      bytes := h.bytes ++ e.bytes
      ticks := h.ticks + e.ticks }
  | .scancode e key => { h with scancodes := h.scancodes ++ [e], keys := h.keys ++ key.toList }
  | .mouse e => { h with mouseEvents := h.mouseEvents ++ [e] }
  | .handleMouse event => { h with moves := h.moves ++ [event] }
  | .counted ticks due =>
    { h with counted := ticks, displayed := if due then some ticks else h.displayed }
  | .yield => { h with yields := h.yields + 1 }
  | .call _ | .drawMemmap _ | .internal => h

/-- The history of a run. -/
def of (es : List System.Event) : History := es.foldl add empty

theorem of_append_list (es es' : List System.Event) : of (es ++ es') = es'.foldl add (of es) :=
  List.foldl_append

theorem of_append (es : List System.Event) (e : System.Event) : of (es ++ [e]) = (of es).add e :=
  of_append_list es [e]

end History

/-! ### The invariant -/

/-- The mouse event that the idle loop has taken out of the queue and not yet handled. -/
def IdlePc.pending : IdlePc → List MouseEvent
  | .handling event => [event]
  | _ => []

/-- The memory map knows its window. -/
def MemmapPc.OfWindow (pc : MemmapPc) : Prop :=
  ∀ winId, pc = .drawing winId ∨ pc = .marking winId → winId = 1

/-- The window manager as it will be when the memory map has made the call of `mark_dirty` that is
due. -/
def MemmapPc.marked (wm : WindowManager) : MemmapPc → WindowManager
  | .marking _ => { wm with needsComposite := true }
  | _ => wm

theorem MemmapPc.Parked.marked_eq {pc : MemmapPc} (h : pc.Parked) (wm : WindowManager) :
    pc.marked wm = wm := by
  rcases h with rfl | rfl
  · rfl
  · rfl

/-- What the input of a run has become. -/
structure Received (D : KeyDecoder) (h : History) (input : Input) (keyboard : D.Keyboard)
    (pending : List MouseEvent) : Prop where
  recorded : Input.Recorded h.scancodes h.mouseEvents h.bytes input
  tickCount_eq : input.tickCount = UInt64.ofNat h.ticks
  keyboard_eq : keyboard = (feed D.receive D.new (Fifo.popped h.scancodes)).1
  keys_eq : h.keys = D.keys (Fifo.popped h.scancodes)
  moves_eq : Fifo.popped h.mouseEvents = h.moves ++ pending

namespace Received

variable {D : KeyDecoder} {h : History} {input : Input} {keyboard : D.Keyboard}
  {pending : List MouseEvent}

/-- **An interrupt** is recorded. -/
theorem exists_handle (hr : Received D h input keyboard pending) (i : Interrupt) :
    ∃ e input', input.handle i = some (e, input') ∧
      Received D (h.add (.handled e)) input' keyboard pending := by
  obtain ⟨e, input', hhandle, hrecorded, hticks, hscancodes, hmouseEvents⟩ :=
    hr.recorded.exists_handle i
  have hpopped : Fifo.popped (h.scancodes ++ [e.scancodes]) = Fifo.popped h.scancodes := by
    rw [Fifo.popped_concat, hscancodes, List.append_nil]
  refine ⟨e, input', hhandle, hrecorded, ?_, ?_, ?_, ?_⟩
  · rw [hticks, hr.tickCount_eq, ← UInt64.ofNat_add]
    rfl
  · rw [hr.keyboard_eq, ← hpopped]
    rfl
  · refine hr.keys_eq.trans ?_
    rw [← hpopped]
    rfl
  · refine Eq.trans ?_ hr.moves_eq
    exact (Fifo.popped_concat _ _).trans (by rw [hmouseEvents, List.append_nil])

/-- The idle loop looks for a mouse event. -/
theorem exists_popMouse (hr : Received D h input keyboard []) :
    ∃ e q, input.mouseEvents.popStep = some (e, q) ∧
      (e = .silent ∨ (∃ v, e = .popped v) ∨ e = .empty) ∧
      Received D (h.add (.mouse e)) { input with mouseEvents := q } keyboard (Fifo.popped [e]) := by
  obtain ⟨e, q, hpop, hevent, hrecorded⟩ := hr.recorded.exists_popMouse
  refine ⟨e, q, hpop, hevent, hrecorded, hr.tickCount_eq, hr.keyboard_eq, hr.keys_eq, ?_⟩
  have hmoves := hr.moves_eq
  rw [List.append_nil] at hmoves
  rw [← show Fifo.popped h.mouseEvents = (h.add (.mouse e)).moves from hmoves]
  exact Fifo.popped_concat _ _

/-- The idle loop handles a mouse event. -/
theorem handleMouse {event : MouseEvent} (hr : Received D h input keyboard [event]) :
    Received D (h.add (.handleMouse event)) input keyboard [] :=
  ⟨hr.recorded, hr.tickCount_eq, hr.keyboard_eq, hr.keys_eq, by
    rw [List.append_nil]
    exact hr.moves_eq⟩

/-- A call of `yield_now`. -/
theorem yield (hr : Received D h input keyboard pending) :
    Received D (h.add .yield) input keyboard pending :=
  ⟨hr.recorded, hr.tickCount_eq, hr.keyboard_eq, hr.keys_eq, hr.moves_eq⟩

/-- The counter reads the number of ticks. -/
theorem counted (hr : Received D h input keyboard pending) (ticks : UInt64) (due : Bool) :
    Received D (h.add (.counted ticks due)) input keyboard pending :=
  ⟨hr.recorded, hr.tickCount_eq, hr.keyboard_eq, hr.keys_eq, hr.moves_eq⟩

/-- The shell looks for a scancode, and decodes it. -/
theorem exists_popScancode (hr : Received D h input keyboard pending) :
    ∃ e q, input.scancodes.popStep = some (e, q) ∧
      ((e = .silent ∨ e = .empty) ∧
          Received D (h.add (.scancode e none)) { input with scancodes := q } keyboard pending ∨
        ∃ v, e = .popped v ∧ Received D (h.add (.scancode e (D.receive keyboard v).2))
          { input with scancodes := q } (D.receive keyboard v).1 pending) := by
  obtain ⟨e, q, hpop, hevent, hrecorded⟩ := hr.recorded.exists_popScancode
  refine ⟨e, q, hpop, ?_⟩
  have hpopped : Fifo.popped (h.scancodes ++ [e]) = Fifo.popped h.scancodes ++ Fifo.popped [e] :=
    Fifo.popped_concat _ _
  have hquiet : Fifo.popped [e] = [] →
      Received D (h.add (.scancode e none)) { input with scancodes := q } keyboard pending := by
    intro hnil
    rw [hnil, List.append_nil] at hpopped
    refine ⟨hrecorded, hr.tickCount_eq, ?_, ?_, hr.moves_eq⟩
    · rw [hr.keyboard_eq, ← hpopped]
      rfl
    · refine (List.append_nil _).trans (hr.keys_eq.trans ?_)
      rw [← hpopped]
      rfl
  rcases hevent with rfl | ⟨v, rfl⟩ | rfl
  · exact .inl ⟨.inl rfl, hquiet rfl⟩
  · refine .inr ⟨v, rfl, hrecorded, hr.tickCount_eq, ?_, ?_, hr.moves_eq⟩
    · change _ = (feed D.receive D.new (Fifo.popped (h.scancodes ++ [.popped v]))).1
      rw [hpopped, feed_append, ← hr.keyboard_eq]
      rfl
    · change h.keys ++ _ = D.keys (Fifo.popped (h.scancodes ++ [.popped v]))
      rw [hpopped, hr.keys_eq, KeyDecoder.keys, KeyDecoder.keys, feed_append, ← hr.keyboard_eq,
        List.reduceOption_append]
      rfl
  · exact .inl ⟨.inr rfl, hquiet rfl⟩

end Received

variable [BasicFonts] {D : KeyDecoder} {info : FrameBufferInfo}

namespace System

/-- The desktop after the boot. -/
def bootDesktop (info : FrameBufferInfo) : Desktop where
  panes := (bootFrames info).map WmWindow.pane
  focused := some 0
  pointer := (info.width / 2, info.height / 2)
  width := info.width
  height := info.height

/-- The desktop after mouse events. -/
def desktopAfter (info : FrameBufferInfo) (moves : List MouseEvent) : Desktop :=
  moves.foldl Desktop.mouse (bootDesktop info)

/-- What the windows have become. -/
structure Desk (info : FrameBufferInfo) (h : History) (s : System D) (wm : WindowManager) (fb : Buf) :
    Prop where
  statics_eq : s.statics = ⟨some wm, some ⟨fb, info⟩⟩
  running : Running info (bootFrames info) (s.memmap.marked wm) fb
  desktop_eq : wm.desktop = desktopAfter info h.moves
  shell : ShellAt wm h.keys s.shell
  memmap : s.memmap.OfWindow
  counter : CounterAt wm h.counted h.displayed s.counter
  idle : s.idle = .yielding → wm.needsComposite = false

/-- What holds in every run. -/
structure Inv (info : FrameBufferInfo) (h : History) (s : System D) : Prop where
  received : Received D h s.input s.keyboard s.idle.pending
  turn : s.scheduler.Turn h.yields
  parked : s.Parked
  start_le_stop : ∀ r ∈ s.memRegions.stored, r.start ≤ r.stop
  desk : ∃ wm fb, Desk info h s wm fb

variable {h : History} {s s' : System D} {fb₀ : Buf}

/-! ### The boot -/

theorem inv_of_booted {memoryRegions : List MemoryRegion}
    (hregions : ∀ r ∈ memoryRegions, r.start ≤ r.stop) (hs : Booted info memoryRegions s) :
    Inv info .empty s := by
  obtain ⟨⟨wm, fb, hstatics, hrun, -, hframes, hfocused, hx, hy, hshell, hcounter⟩,
    ⟨taskStacks, hscheduler⟩, hinput, hkeyboard, hmem, hidle, hshellPc, hmemmapPc, hcounterPc⟩ := hs
  refine ⟨?_, ?_, ?_, ?_, wm, fb, hstatics, ?_, ?_, ?_, ?_, ?_, ?_⟩
  · rw [hinput, hkeyboard, hidle]
    exact ⟨Input.recorded_init, rfl, rfl, rfl, rfl⟩
  · rw [hscheduler]
    exact ⟨⟨rfl, by simp [bootScheduler], show 0 < 4 by decide⟩, rfl⟩
  · exact ⟨fun hne => absurd (by rw [flow, hscheduler]; rfl) hne, fun _ => .inl hshellPc,
      fun _ => .inl hmemmapPc, fun _ => .inl hcounterPc⟩
  · rw [hmem]
    exact start_le_stop_of_stored hregions
  · rw [hmemmapPc]
    exact hrun
  · have hpanes : wm.windows.map WmWindow.pane = (bootFrames info).map WmWindow.pane := by
      rw [← hframes, List.map_map]
      rfl
    have hcx := asUsize_of_nonneg hrun.inside.x_nonneg
      (Int.lt_trans hrun.inside.x_lt hrun.inside.width_lt)
    have hcy := asUsize_of_nonneg hrun.inside.y_nonneg
      (Int.lt_trans hrun.inside.y_lt hrun.inside.height_lt)
    rw [hx] at hcx
    rw [hy] at hcy
    rw [History.empty, desktopAfter, List.foldl_nil, desktop, bootDesktop, hpanes, hfocused,
      Session.pointer, hx, hy, hrun.coherent.screenInfo_eq, Int.ofNat.inj hcx, Int.ofNat.inj hcy]
  · rw [hshellPc]
    exact .entry rfl hshell
  · rw [hmemmapPc]
    rintro winId (hpc | hpc) <;> cases hpc
  · rw [hcounterPc]
    exact .entry rfl rfl hcounter
  · rw [hidle]
    intro hpc
    cases hpc

/-! ### Interrupts -/

/-- **An interrupt is handled**, and keeps the invariant. -/
theorem Inv.exists_interrupt (hi : Inv info h s) (i : Interrupt) :
    ∃ e s', s.interrupt i = some (e, s') ∧ Inv info (h.add e) s' := by
  obtain ⟨hreceived, hturn, hparked, hregions, wm, fb, hstatics, hrunning, hdesktop, hshell,
    hmemmap, hcounter, hclean⟩ := hi
  obtain ⟨e, input, hhandle, hreceived'⟩ := hreceived.exists_handle i
  by_cases hwait : s.flow = .idle ∧ s.idle = .waiting
  · -- the `hlt` ends
    refine ⟨.handled e, { s with input, idle := .reading }, ?_, ?_, hturn, ?_, hregions, wm, fb,
      hstatics, hrunning, hdesktop, hshell, hmemmap, hcounter, nofun⟩
    · rw [interrupt, hhandle, if_pos hwait]
      rfl
    · rw [hwait.2] at hreceived'
      exact hreceived'
    · exact ⟨fun hne => absurd hwait.1 hne, hparked.shell, hparked.memmap, hparked.counter⟩
  · refine ⟨.handled e, { s with input }, ?_, hreceived', hturn, ?_, hregions, wm, fb, hstatics,
      hrunning, hdesktop, hshell, hmemmap, hcounter, hclean⟩
    · rw [interrupt, hhandle, if_neg hwait]
      rfl
    · exact ⟨hparked.idle, hparked.shell, hparked.memmap, hparked.counter⟩

/-! ### The idle loop -/

/-- The idle loop after an access of the queue. -/
theorem runIdle_of_popStep (s : System D) {e : Fifo.Event MouseEvent} {q : Spsc MouseEvent}
    (hidle : s.idle = .reading) (hpop : s.input.mouseEvents.popStep = some (e, q))
    (hevent : e = .silent ∨ (∃ v, e = .popped v) ∨ e = .empty) :
    ∃ idle, s.runIdle = some (.mouse e, { s with input := { s.input with mouseEvents := q }, idle }) ∧
      Fifo.popped [e] = idle.pending ∧ idle ≠ .yielding := by
  obtain ⟨statics, scheduler, input, keyboard, memRegions, idle, shell, memmap, counter⟩ := s
  obtain rfl : idle = .reading := hidle
  dsimp only at hpop
  rcases hevent with rfl | ⟨v, rfl⟩ | rfl
  · exact ⟨.reading, by simp only [runIdle, hpop, Option.bind_eq_bind, Option.bind_some], rfl, nofun⟩
  · exact ⟨.handling v, by simp only [runIdle, hpop, Option.bind_eq_bind, Option.bind_some], rfl,
      nofun⟩
  · exact ⟨.checking, by simp only [runIdle, hpop, Option.bind_eq_bind, Option.bind_some], rfl, nofun⟩

/-- **A step of the idle loop** does not fail. -/
theorem Inv.exists_runIdle (hb : BootScreen info fb₀) (hi : Inv info h s) (hflow : s.flow = .idle) :
    ∃ e s', s.runIdle = some (e, s') ∧ Inv info (h.add e) s' := by
  obtain ⟨statics, scheduler, input, keyboard, memRegions, idle, shell, memmap, counter⟩ := s
  obtain ⟨hreceived, hturn, hparked, hregions, wm, fb, hstatics, hrunning, hdesktop, hshell,
    hmemmap, hcounter, hclean⟩ := hi
  have hshellParked := hparked.shell (by rw [hflow]; decide)
  have hmemmapParked := hparked.memmap (by rw [hflow]; decide)
  have hcounterParked := hparked.counter (by rw [hflow]; decide)
  have hstay : ∀ {statics' : Statics} {input' : Input} {idle' : IdlePc},
      Parked ⟨statics', scheduler, input', keyboard, memRegions, idle', shell, memmap, counter⟩ :=
    ⟨fun hne => absurd hflow hne, fun _ => hshellParked, fun _ => hmemmapParked,
      fun _ => hcounterParked⟩
  dsimp only at *
  subst hstatics
  cases idle with
  | reading =>
    obtain ⟨e, q, hpop, hevent, hreceived'⟩ := hreceived.exists_popMouse
    obtain ⟨idle', hrun, hpending, hne⟩ := runIdle_of_popStep ⟨_, scheduler, input, keyboard,
      memRegions, .reading, shell, memmap, counter⟩ rfl hpop hevent
    exact ⟨_, _, hrun, ⟨hpending ▸ hreceived', hturn, hstay, hregions, wm, fb, rfl, hrunning,
      hdesktop, hshell, hmemmap, hcounter, fun heq => absurd heq hne⟩⟩
  | handling event =>
    rw [hmemmapParked.marked_eq] at hrunning
    obtain ⟨wm₁, fb₁, wm', fb', hmouse, hcall, hrunning', hsame, hkeep, -⟩ :=
      hrunning.exists_handleMouse hb.fits hb.width_le hb.height_le event
    have hwidth := hb.width_le
    have hheight := hb.height_le
    refine ⟨.handleMouse event, ⟨⟨some wm', some ⟨fb', info⟩⟩, scheduler, input, keyboard, memRegions,
      .reading, shell, memmap, counter⟩, ?_, hreceived.handleMouse, hturn, hstay, hregions, wm', fb',
      rfl, ?_, ?_, ?_, hmemmap, hcounter.keep hkeep nofun, nofun⟩
    · have hperform : (Statics.mk (some wm) (some ⟨fb, info⟩)).perform (.handleMouse event) =
          some ⟨some wm', some ⟨fb', info⟩⟩ := hcall
      rw [runIdle]
      dsimp only
      rw [hperform]
      rfl
    · rw [hmemmapParked.marked_eq]
      exact hrunning'
    · rw [hsame.desktop_eq, hrunning.desktop_mouse (by omega) (by omega) hmouse, hdesktop]
      exact (List.foldl_concat ..).symm
    · exact hshell.keep hkeep nofun (.inl hshellParked.not_reading)
  | checking =>
    cases hneeds : wm.needsComposite with
    | true =>
      exact ⟨.internal, ⟨_, scheduler, input, keyboard, memRegions, .compositing, shell, memmap,
        counter⟩, if_pos hneeds, hreceived, hturn, hstay, hregions, wm, fb, rfl, hrunning, hdesktop,
        hshell, hmemmap, hcounter, nofun⟩
    | false =>
      exact ⟨.internal, ⟨_, scheduler, input, keyboard, memRegions, .yielding, shell, memmap,
        counter⟩, if_neg fun htrue => absurd (hneeds.symm.trans htrue) Bool.false_ne_true, hreceived,
        hturn, hstay, hregions, wm, fb, rfl, hrunning, hdesktop, hshell, hmemmap, hcounter,
        fun _ => hneeds⟩
  | compositing =>
    rw [hmemmapParked.marked_eq] at hrunning
    obtain ⟨wm', fb', hcomp, hrunning', hsame, hkeep, hneeds⟩ := hrunning.exists_composite hb.fits
    have hcall := Statics.perform_composite_of_eq ⟨fb, info⟩ hcomp
    refine ⟨.call .composite, ⟨⟨some wm', some ⟨fb', info⟩⟩, scheduler, input, keyboard, memRegions,
      .yielding, shell, memmap, counter⟩, ?_, hreceived, hturn, hstay, hregions, wm', fb', rfl, ?_,
      hsame.desktop_eq.trans hdesktop, hshell.keep hkeep nofun (.inr hsame.focused), hmemmap,
      hcounter.keep hkeep nofun, fun _ => hneeds⟩
    · rw [runIdle]
      dsimp only
      rw [hcall]
      rfl
    · rw [hmemmapParked.marked_eq]
      exact hrunning'
  | yielding =>
    obtain ⟨scheduler', hturn', hyield, hparked'⟩ := yieldNow_eq
      (s := ⟨_, scheduler, input, keyboard, memRegions, .halting, shell, memmap, counter⟩) hturn rfl
      hshellParked hmemmapParked hcounterParked
    rw [hyield] at hparked'
    exact ⟨.yield, ⟨_, scheduler', input, keyboard, memRegions, .halting, shell, memmap, counter⟩,
      congrArg (fun s => some (Event.yield, s)) hyield, hreceived.yield, hturn', hparked', hregions,
      wm, fb, rfl, hrunning, hdesktop, hshell, hmemmap, hcounter, nofun⟩
  | halting =>
    exact ⟨.internal, ⟨_, scheduler, input, keyboard, memRegions, .waiting, shell, memmap, counter⟩,
      rfl, hreceived, hturn, hstay, hregions, wm, fb, rfl, hrunning, hdesktop, hshell, hmemmap,
      hcounter, nofun⟩
  | waiting =>
    exact ⟨.internal, ⟨_, scheduler, input, keyboard, memRegions, .waiting, shell, memmap, counter⟩,
      rfl, hreceived, hturn, hstay, hregions, wm, fb, rfl, hrunning, hdesktop, hshell, hmemmap,
      hcounter, nofun⟩

/-! ### The shell -/

/-- **A step of the shell** does not fail. -/
theorem Inv.exists_runShell (hb : BootScreen info fb₀) (hi : Inv info h s) (hflow : s.flow = .shell) :
    ∃ e s', s.runShell = some (e, s') ∧ Inv info (h.add e) s' := by
  obtain ⟨statics, scheduler, input, keyboard, memRegions, idle, shell, memmap, counter⟩ := s
  obtain ⟨hreceived, hturn, hparked, hregions, wm, fb, hstatics, hrunning, hdesktop, hshell,
    hmemmap, hcounter, hclean⟩ := hi
  have hidleParked := hparked.idle (by rw [hflow]; decide)
  have hmemmapParked := hparked.memmap (by rw [hflow]; decide)
  have hcounterParked := hparked.counter (by rw [hflow]; decide)
  have hstay : ∀ {statics' : Statics} {input' : Input} {keyboard' : D.Keyboard} {shell' : ShellPc},
      Parked ⟨statics', scheduler, input', keyboard', memRegions, idle, shell', memmap, counter⟩ :=
    ⟨fun _ => hidleParked, fun hne => absurd hflow hne, fun _ => hmemmapParked,
      fun _ => hcounterParked⟩
  have hwindow := (flow_eq hturn.toInTurn).2
  rw [hflow] at hwindow
  dsimp only at *
  subst hstatics
  rw [hmemmapParked.marked_eq] at hrunning
  -- a call for the console of the shell
  have hcall : ∀ {op : Statics.Op} {ops : List Statics.Op} {shown : Bool},
      wm.HostsAfter 0 shellContent (op :: ops) shown (shellEditor h.keys).grid →
      ∃ wm', (Statics.mk (some wm) (some ⟨fb, info⟩)).perform op =
          some ⟨some wm', some ⟨fb, info⟩⟩ ∧
        wm'.HostsAfter 0 shellContent ops shown (shellEditor h.keys).grid ∧
        ∀ shell', ShellAt wm' h.keys shell' → Inv info (h.add (.call op))
          ⟨⟨some wm', some ⟨fb, info⟩⟩, scheduler, input, keyboard, memRegions, idle, shell', memmap,
            counter⟩ := by
    intro op ops shown hafter
    obtain ⟨wm', hop, hrunning', hsame, hkeep, hafter'⟩ := hrunning.exists_call_after hb.fits hafter
    refine ⟨wm', hop, hafter', fun shell' hshell' => ⟨hreceived, hturn, hstay, hregions, wm', fb, rfl,
      ?_, hsame.desktop_eq.trans hdesktop, hshell', hmemmap, hcounter.keep hkeep (by decide),
      fun hyield => absurd (hidleParked.symm.trans hyield) (by decide)⟩⟩
    rw [hmemmapParked.marked_eq]
    exact hrunning'
  -- a step that does nothing but to move on
  have hmove : ∀ shell', ShellAt wm h.keys shell' → Inv info h
      ⟨⟨some wm, some ⟨fb, info⟩⟩, scheduler, input, keyboard, memRegions, idle, shell', memmap,
        counter⟩ := fun shell' hshell' => by
    refine ⟨hreceived, hturn, hstay, hregions, wm, fb, rfl, ?_, hdesktop, hshell', hmemmap, hcounter,
      hclean⟩
    rw [hmemmapParked.marked_eq]
    exact hrunning
  -- an access of the scancode queue
  have hscan : ∀ {e : Fifo.Event UInt8} {key : Option DecodedKey} {input' : Input}
      {keyboard' : D.Keyboard} {shell' : ShellPc} {keys : List DecodedKey},
      Received D (h.add (.scancode e key)) input' keyboard' idle.pending →
      h.keys ++ key.toList = keys → ShellAt wm keys shell' → Inv info (h.add (.scancode e key))
        ⟨⟨some wm, some ⟨fb, info⟩⟩, scheduler, input', keyboard', memRegions, idle, shell', memmap,
          counter⟩ := by
    rintro e key input' keyboard' shell' keys hreceived' rfl hshell'
    refine ⟨hreceived', hturn, hstay, hregions, wm, fb, rfl, ?_, hdesktop, hshell', hmemmap, hcounter,
      hclean⟩
    rw [hmemmapParked.marked_eq]
    exact hrunning
  cases hshell with
  | entry hkeys hhosts =>
    refine ⟨.internal, _, rfl, hmove _ ?_⟩
    rw [hwindow, hkeys]
    exact ShellAt.start hhosts
  | @starting ops hafter =>
    cases ops with
    | nil => exact ⟨.internal, _, rfl, hmove _ (.polling hafter.hosts)⟩
    | cons op ops =>
      obtain ⟨wm', hop, hafter', hinv⟩ := hcall hafter
      exact ⟨.call op, _, by rw [runShell]; dsimp only; rw [hop]; rfl, hinv _ (.starting hafter')⟩
  | polling hhosts =>
    by_cases hfocus : wm.focused = some 0
    · exact ⟨.internal, _, if_pos (decide_eq_true hfocus), hmove _ (.reading hfocus hhosts)⟩
    · exact ⟨.internal, _, if_neg fun h => hfocus (of_decide_eq_true h), hmove _ (.yielding hhosts)⟩
  | reading hfocus hhosts =>
    obtain ⟨e, q, hpop, ⟨hevent, hreceived'⟩ | ⟨v, rfl, hreceived'⟩⟩ := hreceived.exists_popScancode
    · rcases hevent with rfl | rfl
      · refine ⟨_, _, ?_, hscan hreceived' (List.append_nil _) (.reading hfocus hhosts)⟩
        rw [runShell]
        dsimp only
        rw [hpop]
        rfl
      · refine ⟨_, _, ?_, hscan hreceived' (List.append_nil _) (.yielding hhosts)⟩
        rw [runShell]
        dsimp only
        rw [hpop]
        rfl
    · cases hkey : (D.receive keyboard v).2 with
      | none =>
        rw [hkey] at hreceived'
        have hreceive : D.receive keyboard v = ((D.receive keyboard v).1, none) := by rw [← hkey]
        refine ⟨_, _, ?_, hscan hreceived' (List.append_nil _) (.reading hfocus hhosts)⟩
        rw [runShell]
        dsimp only
        rw [hpop, Option.bind_eq_bind, Option.bind_some]
        dsimp only
        rw [hreceive]
      | some key =>
        rw [hkey] at hreceived'
        have hreceive : D.receive keyboard v = ((D.receive keyboard v).1, some key) := by
          rw [← hkey]
        refine ⟨_, _, ?_, hscan hreceived' rfl (ShellAt.key hhosts key)⟩
        rw [runShell]
        dsimp only
        rw [hpop, Option.bind_eq_bind, Option.bind_some]
        dsimp only
        rw [hreceive]
  | @handling ops hafter =>
    cases ops with
    | nil => exact ⟨.internal, _, rfl, hmove _ (.yielding hafter.hosts)⟩
    | cons op ops =>
      obtain ⟨wm', hop, hafter', hinv⟩ := hcall hafter
      exact ⟨.call op, _, by rw [runShell]; dsimp only; rw [hop]; rfl, hinv _ (.handling hafter')⟩
  | @halting ops shown hafter =>
    cases ops with
    | nil => exact ⟨.internal, _, rfl, hmove _ (.halted hafter.hosts)⟩
    | cons op ops =>
      obtain ⟨wm', hop, hafter', hinv⟩ := hcall hafter
      exact ⟨.call op, _, by rw [runShell]; dsimp only; rw [hop]; rfl, hinv _ (.halting hafter')⟩
  | yielding hhosts =>
    obtain ⟨scheduler', hturn', hyield, hparked'⟩ := yieldNow_eq
      (s := ⟨_, scheduler, input, keyboard, memRegions, idle, .polling 0 (shellEditor h.keys).line,
        memmap, counter⟩) hturn hidleParked (.inr ⟨_, _, rfl⟩) hmemmapParked hcounterParked
    rw [hyield] at hparked'
    refine ⟨.yield, _, congrArg (fun s => some (Event.yield, s)) hyield, hreceived.yield, hturn',
      hparked', hregions, wm, fb, rfl, ?_, hdesktop, .polling hhosts, hmemmap, hcounter, hclean⟩
    rw [hmemmapParked.marked_eq]
    exact hrunning
  | halted hhosts => exact ⟨.internal, _, rfl, hmove _ (.halted hhosts)⟩

/-! ### The memory map -/

/-- **A step of the memory map** does not fail. -/
theorem Inv.exists_runMemmap (hb : BootScreen info fb₀) (hi : Inv info h s)
    (hflow : s.flow = .memmap) : ∃ e s', s.runMemmap = some (e, s') ∧ Inv info (h.add e) s' := by
  obtain ⟨statics, scheduler, input, keyboard, memRegions, idle, shell, memmap, counter⟩ := s
  obtain ⟨hreceived, hturn, hparked, hregions, wm, fb, hstatics, hrunning, hdesktop, hshell,
    hmemmap, hcounter, hclean⟩ := hi
  have hidleParked := hparked.idle (by rw [hflow]; decide)
  have hshellParked := hparked.shell (by rw [hflow]; decide)
  have hcounterParked := hparked.counter (by rw [hflow]; decide)
  have hstay : ∀ {statics' : Statics} {memmap' : MemmapPc},
      Parked ⟨statics', scheduler, input, keyboard, memRegions, idle, shell, memmap', counter⟩ :=
    ⟨fun _ => hidleParked, fun _ => hshellParked, fun hne => absurd hflow hne,
      fun _ => hcounterParked⟩
  have hwindow := (flow_eq hturn.toInTurn).2
  rw [hflow] at hwindow
  have hnotYielding : ∀ {wm' : WindowManager}, idle = .yielding → wm'.needsComposite = false :=
    fun hyield => absurd (hidleParked.symm.trans hyield) (by decide)
  dsimp only at *
  subst hstatics
  cases memmap with
  | entry =>
    refine ⟨.internal, _, rfl, hreceived, hturn, hstay, hregions, wm, fb, rfl, hrunning, hdesktop,
      hshell, ?_, hcounter, hclean⟩
    rintro winId (heq | heq)
    · cases heq
      exact hwindow
    · cases heq
  | drawing winId =>
    obtain rfl := hmemmap winId (.inl rfl)
    obtain ⟨wm', hdraw, hrunning', hsame, hkeep⟩ :=
      Running.exists_drawMemmap hb.fits.formatFits hrunning hregions height_of_mem_bootFrames 1
    refine ⟨.drawMemmap 1, ⟨⟨some wm', some ⟨fb, info⟩⟩, scheduler, input, keyboard, memRegions, idle,
      shell, .marking 1, counter⟩, ?_, hreceived, hturn, hstay, hregions, wm', fb, rfl, hrunning',
      hsame.desktop_eq.trans hdesktop, hshell.keep hkeep (by decide) (.inr hsame.focused), ?_,
      hcounter.keep hkeep (by decide), hnotYielding⟩
    · have hcall : (Statics.mk (some wm) (some ⟨fb, info⟩)).drawMemmap (UInt64.toNat 1) memRegions =
          some ⟨some wm', some ⟨fb, info⟩⟩ := hdraw
      simp only [runMemmap, hcall, Option.bind_eq_bind, Option.bind_some]
    · rintro winId (heq | heq)
      · cases heq
      · cases heq
        rfl
  | marking winId =>
    obtain rfl := hmemmap winId (.inr rfl)
    obtain ⟨wm', hmark, hrunning', hsame, hkeep⟩ := hrunning.exists_markDirty 1
    have hperform : (Statics.mk (some wm) (some ⟨fb, info⟩)).perform (.markDirty 1) =
        some ⟨some wm', some ⟨fb, info⟩⟩ := (perform_markDirty_of_flag wm 1 _).symm.trans hmark
    have hdesk : wm'.desktop = wm.desktop := hsame.desktop_eq
    refine ⟨.call (.markDirty 1), ⟨⟨some wm', some ⟨fb, info⟩⟩, scheduler, input, keyboard,
      memRegions, idle, shell, .yielding, counter⟩, ?_, hreceived, hturn, hstay, hregions, wm', fb,
      rfl, hrunning', hdesk.trans hdesktop, ?_, ?_, ?_, hnotYielding⟩
    · simp only [runMemmap, hperform, Option.bind_eq_bind, Option.bind_some]
    · exact hshell.keep hkeep (show (none : Option ℕ) ≠ some 0 from nofun) (.inr hsame.focused)
    · rintro winId (heq | heq) <;> cases heq
    · exact hcounter.keep hkeep (show (none : Option ℕ) ≠ some 2 from nofun)
  | yielding =>
    obtain ⟨scheduler', hturn', hyield, hparked'⟩ := yieldNow_eq
      (s := ⟨_, scheduler, input, keyboard, memRegions, idle, shell, .yielding, counter⟩) hturn
      hidleParked hshellParked (.inr rfl) hcounterParked
    rw [hyield] at hparked'
    exact ⟨.yield, _, congrArg (fun s => some (Event.yield, s)) hyield, hreceived.yield, hturn',
      hparked', hregions, wm, fb, rfl, hrunning, hdesktop, hshell, hmemmap, hcounter, hclean⟩

/-! ### The counter -/

/-- **A step of the counter** does not fail. -/
theorem Inv.exists_runCounter (hb : BootScreen info fb₀) (hi : Inv info h s)
    (hflow : s.flow = .counter) : ∃ e s', s.runCounter = some (e, s') ∧ Inv info (h.add e) s' := by
  obtain ⟨statics, scheduler, input, keyboard, memRegions, idle, shell, memmap, counter⟩ := s
  obtain ⟨hreceived, hturn, hparked, hregions, wm, fb, hstatics, hrunning, hdesktop, hshell,
    hmemmap, hcounter, hclean⟩ := hi
  have hidleParked := hparked.idle (by rw [hflow]; decide)
  have hshellParked := hparked.shell (by rw [hflow]; decide)
  have hmemmapParked := hparked.memmap (by rw [hflow]; decide)
  have hstay : ∀ {statics' : Statics} {counter' : CounterPc},
      Parked ⟨statics', scheduler, input, keyboard, memRegions, idle, shell, memmap, counter'⟩ :=
    ⟨fun _ => hidleParked, fun _ => hshellParked, fun _ => hmemmapParked,
      fun hne => absurd hflow hne⟩
  have hwindow := (flow_eq hturn.toInTurn).2
  rw [hflow] at hwindow
  dsimp only at *
  subst hstatics
  have hrunning₀ := hrunning
  rw [hmemmapParked.marked_eq] at hrunning
  -- a call for the console of the counter
  have hcall : ∀ {op : Statics.Op} {ops : List Statics.Op},
      wm.HostsAfter 2 counterContent (op :: ops) false (counterGrid h.displayed) →
      ∃ wm', (Statics.mk (some wm) (some ⟨fb, info⟩)).perform op =
          some ⟨some wm', some ⟨fb, info⟩⟩ ∧
        wm'.HostsAfter 2 counterContent ops false (counterGrid h.displayed) ∧
        ∀ counter', CounterAt wm' h.counted h.displayed counter' → Inv info (h.add (.call op))
          ⟨⟨some wm', some ⟨fb, info⟩⟩, scheduler, input, keyboard, memRegions, idle, shell, memmap,
            counter'⟩ := by
    intro op ops hafter
    obtain ⟨wm', hop, hrunning', hsame, hkeep, hafter'⟩ := hrunning.exists_call_after hb.fits hafter
    refine ⟨wm', hop, hafter', fun counter' hcounter' => ⟨hreceived, hturn, hstay, hregions, wm', fb,
      rfl, ?_, hsame.desktop_eq.trans hdesktop,
      hshell.keep hkeep (by decide) (.inl hshellParked.not_reading), hmemmap, hcounter',
      fun hyield => absurd (hidleParked.symm.trans hyield) (by decide)⟩⟩
    rw [hmemmapParked.marked_eq]
    exact hrunning'
  -- a step that does nothing but to move on
  have hmove : ∀ counter', CounterAt wm h.counted h.displayed counter' → Inv info h
      ⟨⟨some wm, some ⟨fb, info⟩⟩, scheduler, input, keyboard, memRegions, idle, shell, memmap,
        counter'⟩ := fun counter' hcounter' =>
    ⟨hreceived, hturn, hstay, hregions, wm, fb, rfl, hrunning₀, hdesktop, hshell, hmemmap, hcounter',
      hclean⟩
  cases hcounter with
  | entry hdisplayed hcounted hhosts =>
    refine ⟨.internal, _, rfl, hmove _ ?_⟩
    rw [hwindow, hdisplayed, hcounted]
    exact CounterAt.start hhosts
  | @starting ops hdisplayed hcounted hafter =>
    cases ops with
    | nil =>
      refine ⟨.internal, _, rfl, hmove (.polling 2 0) ?_⟩
      rw [hdisplayed] at hafter
      rw [hdisplayed, hcounted]
      exact CounterAt.polling (by decide) hafter.hosts
    | cons op ops =>
      obtain ⟨wm', hop, hafter', hinv⟩ := hcall hafter
      exact ⟨.call op, _, by rw [runCounter]; dsimp only; rw [hop]; rfl,
        hinv _ (.starting hdisplayed hcounted hafter')⟩
  | polling hdue hhosts =>
    cases hnow : Counter.due input.tickCount (h.displayed.getD 0) with
    | true =>
      exact ⟨.counted input.tickCount true, _, if_pos hnow, hreceived.counted _ _, hturn, hstay,
        hregions, wm, fb, rfl, hrunning₀, hdesktop, hshell, hmemmap,
        CounterAt.redraw hhosts input.tickCount, hclean⟩
    | false =>
      exact ⟨.counted input.tickCount false, _,
        if_neg fun htrue => absurd (hnow.symm.trans htrue) Bool.false_ne_true,
        hreceived.counted _ _, hturn, hstay, hregions, wm, fb, rfl, hrunning₀, hdesktop, hshell,
        hmemmap, .yielding hnow hhosts, hclean⟩
  | @drawing ops hdisplayed hafter =>
    cases ops with
    | nil =>
      refine ⟨.internal, _, rfl, hmove (.yielding 2 h.counted) ?_⟩
      have hdue : Counter.due h.counted (h.displayed.getD 0) = false := by
        rw [hdisplayed]
        exact Counter.due_self h.counted
      have hyielding := CounterAt.yielding hdue hafter.hosts
      rw [hdisplayed] at hyielding ⊢
      exact hyielding
    | cons op ops =>
      obtain ⟨wm', hop, hafter', hinv⟩ := hcall hafter
      exact ⟨.call op, _, by rw [runCounter]; dsimp only; rw [hop]; rfl,
        hinv _ (.drawing hdisplayed hafter')⟩
  | yielding hdue hhosts =>
    obtain ⟨scheduler', hturn', hyield, hparked'⟩ := yieldNow_eq
      (s := ⟨_, scheduler, input, keyboard, memRegions, idle, shell, memmap,
        .polling 2 (h.displayed.getD 0)⟩) hturn hidleParked hshellParked hmemmapParked
      (.inr ⟨_, _, rfl⟩)
    rw [hyield] at hparked'
    exact ⟨.yield, _, congrArg (fun s => some (Event.yield, s)) hyield, hreceived.yield, hturn',
      hparked', hregions, wm, fb, rfl, hrunning₀, hdesktop, hshell, hmemmap, .polling hdue hhosts, hclean⟩

/-! ### Runs -/

/-- **No step fails**, and every step keeps the invariant. -/
theorem Inv.exists_run (hb : BootScreen info fb₀) (hi : Inv info h s) :
    ∃ e s', s.run = some (e, s') ∧ Inv info (h.add e) s' := by
  rw [run]
  cases hflow : s.flow with
  | idle => exact hi.exists_runIdle hb hflow
  | shell => exact hi.exists_runShell hb hflow
  | memmap => exact hi.exists_runMemmap hb hflow
  | counter => exact hi.exists_runCounter hb hflow

theorem Inv.step (hb : BootScreen info fb₀) (hi : Inv info h s) {e : Event} (hst : Step s e s') :
    Inv info (h.add e) s' := by
  cases hst with
  | run hrun =>
    obtain ⟨e', s'', hrun', hi'⟩ := hi.exists_run hb
    cases hrun.symm.trans hrun'
    exact hi'
  | interrupt i hint =>
    obtain ⟨e', s'', hint', hi'⟩ := hi.exists_interrupt i
    cases hint.symm.trans hint'
    exact hi'

/-- **The invariant holds in every run.** -/
theorem Inv.trace (hb : BootScreen info fb₀) {es : List Event} (hi : Inv info .empty s)
    (hrun : Trace Step s es s') : Inv info (.of es) s' := by
  refine hrun.history (I := fun es s => Inv info (.of es) s) (fun pre a e b hinv hst => ?_) hi
  rw [History.of_append]
  exact hinv.step hb hst

end System

end ROs
