import ROs.System.Started

/-!
# Runs of the system

What the invariant says about every run after the boot (`System.Started`), whatever the order in which
interrupts arrive.

* `System.runs_without_panic` : **no step of a run fails**, and every interrupt is handled.
* `System.keystrokes_conserved`, `System.mouse_packets_conserved` : no input is lost, doubled or
  reordered but what a full queue drops.
* `System.shell_shows_keys` : the window of the shell shows what the keys so far make of an empty
  console.
* `System.counter_not_late` : the window of the counter shows a number that is less than 16 behind.
* `System.turns_of_run` : the flows of control take turns.
* `System.desktop_of_moves` : windows and focus are what the mouse events make of them, and the
  shell takes keys only while it has the focus.
* `System.screen_current` : when no composite is due, the screen shows what one would show.
* `System.readPixel_of_history` : whenever the idle loop hands the processor on, the pixels of the
  frame buffer are those of the texts.
-/

namespace ROs

open WindowManager

variable [BasicFonts] {D : KeyDecoder} {info : FrameBufferInfo} {fb : Buf}

namespace System

variable {s s' : System D} {es : List Event}

/-! ### No step fails -/

/-- **The boot does not panic, and no step after it does**, whenever interrupts arrive. -/
theorem runs_without_panic (D : KeyDecoder) {M : Type} [LawfulMapper M] {platform : Platform M}
    (hb : BootScreen info fb) (hw : 1024 ≤ info.width) (hh : 768 ≤ info.height)
    (hp : platform.Supports info) :
    ∃ s : System D, kernelMain D platform ⟨fb, info⟩ = some s ∧
      ∀ es s', Trace Step s es s' →
        (∃ e s'', s'.run = some (e, s'')) ∧ ∀ i, ∃ e s'', s'.interrupt i = some (e, s'') := by
  obtain ⟨s, hs, hbooted⟩ := exists_kernelMain D hb hw hh hp.initMemory_eq hp.room
  refine ⟨s, hs, fun es s' hrun => ?_⟩
  have hi := (inv_of_booted hp.start_le_stop hbooted).trace hb hrun
  obtain ⟨e, s'', hstep, -⟩ := hi.exists_run hb
  refine ⟨⟨e, s'', hstep⟩, fun i => ?_⟩
  obtain ⟨e, s'', hint, -⟩ := hi.exists_interrupt i
  exact ⟨e, s'', hint⟩

omit [BasicFonts] in
/-- The smallest screen. -/
theorem runs_without_panic_xga :
    let _ := BasicFonts.sample
    ∃ s : System .sample,
      kernelMain .sample Platform.sample ⟨Array.replicate 2359296 0, xga⟩ = some s ∧
      ∀ es s', Trace Step s es s' →
        (∃ e s'', s'.run = some (e, s'')) ∧ ∀ i, ∃ e s'', s'.interrupt i = some (e, s'') := by
  intro _
  exact runs_without_panic .sample (bootScreen_xga Array.size_replicate) (Nat.le_refl _)
    (Nat.le_refl _) Platform.supports_sample

/-! ### Input -/

/-- **No keystroke is lost, doubled or reordered** but what a full queue drops: the scancodes that the
shell has taken, followed by those that wait, are those that were accepted, and its keys are what the
scancodes decode to. -/
theorem keystrokes_conserved (hs : Started info s) (hrun : Trace Step s es s') :
    (History.of es).keys = D.keys (Fifo.popped (History.of es).scancodes) ∧
      Fifo.popped (History.of es).scancodes ++ s'.input.scancodes.stored =
        Fifo.accepted (History.of es).scancodes ∧
      ∀ scancode, ∃ e s'', s'.interrupt (.keyboard scancode) = some (.handled (.keyboard e), s'') ∧
        (e = .accepted scancode ∧ s'.input.scancodes.stored.length < BUF_SIZE - 1 ∨
          e = .dropped scancode ∧ s'.input.scancodes.stored.length = BUF_SIZE - 1) := by
  obtain ⟨hreceived, -⟩ := hs.inv hrun
  refine ⟨hreceived.keys_eq, hreceived.recorded.conserved.1, fun scancode => ?_⟩
  obtain ⟨hscancodes, -, hidle, -⟩ := hreceived.recorded.ok
  obtain ⟨e, q, hpush, hevent, hstep, -⟩ := Spsc.exists_pushCall hscancodes hidle scancode
  refine ⟨e, { s' with
    input := { s'.input with scancodes := q }
    idle := if s'.flow = .idle ∧ s'.idle = .waiting then .reading else s'.idle }, ?_, ?_⟩
  · rw [interrupt, Input.handle, hpush]
    rfl
  · rcases hevent with rfl | rfl
    · exact .inl ⟨rfl, hstep.length_of_accepted⟩
    · exact .inr ⟨rfl, hstep.length_of_dropped⟩

omit [BasicFonts] in
/-- The key `a` is pressed, and the shell takes it. -/
theorem keystrokes_conserved_xga :
    let _ := BasicFonts.sample
    ∃ (s s' : System .sample) (es : List Event), Started xga s ∧ Trace Step s es s' ∧
      (History.of es).keys = [.unicode 'a'] ∧
      Fifo.accepted (History.of es).scancodes = 0x1e :: s'.input.scancodes.stored := by
  intro _
  obtain ⟨s, es, s', hs, hrun, -, -, -, -, -, hpopped, -⟩ := exists_typed
  obtain ⟨hkeys, haccepted, -⟩ := keystrokes_conserved hs hrun
  rw [hpopped] at hkeys haccepted
  exact ⟨s, s', es, hs, hrun, hkeys, haccepted.symm⟩

/-- **No packet of the mouse is lost, doubled or reordered** but what a full queue drops: the events
that have been handled, the one that is going to be, and those that wait are those that were
accepted, among the packets that the bytes decode to. -/
theorem mouse_packets_conserved (hs : Started info s) (hrun : Trace Step s es s') :
    (History.of es).moves ++ s'.idle.pending ++ s'.input.mouseEvents.stored =
        Fifo.accepted (History.of es).mouseEvents ∧
      (Fifo.accepted (History.of es).mouseEvents).Sublist
        (pushes .init (History.of es).bytes).reduceOption ∧
      ((∀ event, .dropped event ∉ (History.of es).mouseEvents) →
        (History.of es).moves ++ s'.idle.pending ++ s'.input.mouseEvents.stored =
          (pushes .init (History.of es).bytes).reduceOption) := by
  obtain ⟨hreceived, -⟩ := hs.inv hrun
  have hconserved := hreceived.recorded.conserved.2
  rw [hreceived.moves_eq] at hconserved
  have hoffered := hreceived.recorded.offered_eq
  refine ⟨hconserved, ?_, fun hdropped => ?_⟩
  · rw [← hoffered]
    exact Fifo.accepted_sublist _
  · rw [hconserved, Fifo.accepted_eq_offered hdropped, hoffered]

omit [BasicFonts] in
/-- The mouse sends one packet. -/
theorem mouse_packets_conserved_xga :
    let _ := BasicFonts.sample
    let event : MouseEvent := ⟨3, -2, true, false, false⟩
    ∃ s s' : System .sample, Started xga s ∧
      Trace Step s [.handled (.mouse 0x29 .silent), .handled (.mouse 3 .silent),
        .handled (.mouse 0xfe (.accepted event))] s' ∧
      s'.input.mouseEvents.stored = [event] := by
  intro _ event
  obtain ⟨s, s', hs, hrun, -, hidle⟩ := exists_moved .sample
  have hstored := (mouse_packets_conserved hs hrun).2.2 fun v hv => by
    have hmem : Fifo.Event.dropped v ∈ [Fifo.Event.silent, .silent, .accepted event] := hv
    simp at hmem
  rw [hidle] at hstored
  exact ⟨s, s', hs, hrun, hstored⟩

/-! ### Turns -/

/-- **The flows of control take turns**: each call of `yield_now` hands the processor on to the next of
them, every task begins in its first turn, and the flows that are not executed are where their last
call of `yield_now` left them. -/
theorem turns_of_run (hs : Started info s) (hrun : Trace Step s es s') :
    s'.flow = .ofIndex ((History.of es).yields % 4) ∧ s'.Parked ∧ Begun (.of es) s' := by
  obtain ⟨hi, hbegun⟩ := hs.inv_begun hrun
  refine ⟨?_, hi.parked, hbegun⟩
  rw [(flow_eq hi.turn.toInTurn).1, hi.turn.current_eq]

omit [BasicFonts] in
/-- The first round. -/
theorem turns_of_run_xga :
    let _ := BasicFonts.sample
    ∃ (s s' : System .sample) (es : List Event), Started xga s ∧ Trace Step s es s' ∧
      s'.idle = .waiting ∧ (History.of es).yields % 4 = 0 ∧
      ∃ winId line, s'.shell = .polling winId line := by
  intro _
  obtain ⟨s, es, s', hs, hrun, hflow, hidle, -⟩ := exists_first_round .sample
  obtain ⟨hflow', hparked, hbegun⟩ := turns_of_run hs hrun
  have hentry := hbegun.of_waiting (hs.inv hrun) hflow hidle
  refine ⟨s, s', es, hs, hrun, hidle, ?_, ?_⟩
  · rw [← (hs.inv hrun).index_flow, hflow]
    rfl
  · exact (hparked.shell (by rw [hflow]; decide)).resolve_left hentry.1

/-! ### The shell and the counter -/

/-- **Between two keys, the window of the shell shows what the keys so far make of an empty console**:
the keys that the scancodes decode to, typed into the editor one after the other. -/
theorem shell_shows_keys (hs : Started info s) (hrun : Trace Step s es s') {line : Line}
    (hline : s'.shell.line = some line) :
    let editor := shellEditor (D.keys (Fifo.popped (History.of es).scancodes))
    line = editor.line ∧ ∃ wm fb, s'.statics = ⟨some wm, some ⟨fb, info⟩⟩ ∧
      wm.Hosts 0 shellContent true editor.grid := by
  intro editor
  have hi := hs.inv hrun
  obtain ⟨wm, fb, hdesk⟩ := hi.desk
  obtain ⟨hline', hhosts⟩ := hdesk.shell.line_eq hline
  rw [hi.received.keys_eq] at hline' hhosts
  exact ⟨hline', wm, fb, hdesk.statics_eq, hhosts⟩

omit [BasicFonts] in
/-- The shell shows the `a` that has been typed. -/
theorem shell_shows_keys_xga :
    let _ := BasicFonts.sample
    ∃ (s s' : System .sample) (es : List Event) (line : Line), Started xga s ∧ Trace Step s es s' ∧
      s'.shell.line = some line ∧ line.text = ['a'] ∧ ∃ wm fb, s'.statics = ⟨some wm, some ⟨fb, xga⟩⟩ ∧
        wm.Hosts 0 shellContent true (shellEditor [.unicode 'a']).grid := by
  intro _
  obtain ⟨s, es, s', hs, hrun, hflow, hidle, -, -, -, hpopped, -⟩ := exists_typed
  obtain ⟨hi, hbegun⟩ := hs.inv_begun hrun
  obtain ⟨winId, line, hpc⟩ := (hi.parked.shell (by rw [hflow]; decide)).resolve_left
    (hbegun.of_waiting hi hflow hidle).1
  have hline : s'.shell.line = some line := by
    rw [hpc]
    rfl
  obtain ⟨heq, hshown⟩ := shell_shows_keys hs hrun hline
  rw [hpopped] at heq hshown
  exact ⟨s, s', es, line, hs, hrun, hline, by rw [heq]; decide, hshown⟩

/-- **Between two redraws, the window of the counter shows a number that is less than 16 behind** the
number it has read last, which is that of the timer interrupts until then. -/
theorem counter_not_late (hs : Started info s) (hrun : Trace Step s es s') {lastDisplayed : UInt64}
    (hlast : s'.counter.lastDisplayed = some lastDisplayed) :
    lastDisplayed = (History.of es).displayed.getD 0 ∧
      (History.of es).counted - lastDisplayed < 16 ∧
      (∃ wm fb, s'.statics = ⟨some wm, some ⟨fb, info⟩⟩ ∧
        wm.Hosts 2 counterContent false (counterGrid (History.of es).displayed)) ∧
      ∀ ticks due s'', Step s' (.counted ticks due) s'' →
        ticks = UInt64.ofNat (History.of es).ticks := by
  have hi := hs.inv hrun
  obtain ⟨wm, fb, hdesk⟩ := hi.desk
  obtain ⟨hlast', hdue, hhosts⟩ := hdesk.counter.lastDisplayed_eq hlast
  refine ⟨hlast', ?_, ⟨wm, fb, hdesk.statics_eq, hhosts⟩, fun ticks due s'' hst => ?_⟩
  · exact UInt64.not_le.1 (of_decide_eq_false hdue)
  · rw [ticks_of_counted hst, hi.received.tickCount_eq]

omit [BasicFonts] in
/-- After 16 ticks the counter has been redrawn. -/
theorem counter_not_late_xga :
    let _ := BasicFonts.sample
    ∃ (s s' : System .sample) (es : List Event) (shown : UInt64), Started xga s ∧
      Trace Step s es s' ∧ (History.of es).counted = 16 ∧ 16 - shown < 16 ∧
      ∃ wm fb, s'.statics = ⟨some wm, some ⟨fb, xga⟩⟩ ∧
        wm.Hosts 2 counterContent false (counterGrid (some shown)) := by
  intro _
  obtain ⟨s, es, s', hs, hrun, hflow, hidle, -, -, -, -, hcounted⟩ := exists_typed
  obtain ⟨hi, hbegun⟩ := hs.inv_begun hrun
  obtain ⟨winId, lastDisplayed, hpc⟩ := (hi.parked.counter (by rw [hflow]; decide)).resolve_left
    (hbegun.of_waiting hi hflow hidle).2.2
  have hlast : s'.counter.lastDisplayed = some lastDisplayed := by
    rw [hpc]
    rfl
  obtain ⟨shown, hshown⟩ : ∃ shown, (History.of es).displayed = some shown := by
    obtain ⟨wm, fb, hdesk⟩ := hi.desk
    exact hdesk.counter.exists_displayed hlast (by rw [hcounted]; decide)
  obtain ⟨heq, hlate, hhosts, -⟩ := counter_not_late hs hrun hlast
  rw [hshown, Option.getD_some] at heq
  rw [hcounted, heq] at hlate
  rw [hshown] at hhosts
  exact ⟨s, s', es, shown, hs, hrun, hcounted, hlate, hhosts⟩

/-! ### The desktop and the screen -/

/-- **Panes, focus and pointer are what the handled mouse events make of the desktop of the boot**, and
the shell takes scancodes only while it has the focus there. -/
theorem desktop_of_moves (hs : Started info s) (hrun : Trace Step s es s') :
    (∃ wm fb, s'.statics = ⟨some wm, some ⟨fb, info⟩⟩ ∧
      wm.desktop = desktopAfter info (History.of es).moves) ∧
    ∀ e key s'', Step s' (.scancode e key) s'' →
      (desktopAfter info (History.of es).moves).focused = some 0 := by
  have hi := hs.inv hrun
  obtain ⟨wm, fb, hdesk⟩ := hi.desk
  refine ⟨⟨wm, fb, hdesk.statics_eq, hdesk.desktop_eq⟩, fun e key s'' hst => ?_⟩
  obtain ⟨winId, line, hpc⟩ := reading_of_scancode hst
  have hat := hdesk.shell
  rw [hpc] at hat
  cases hat with
  | reading hfocused =>
    rw [← hdesk.desktop_eq]
    exact hfocused

omit [BasicFonts] in
/-- A click on the window of the memory map raises it. -/
theorem desktop_of_moves_xga :
    let _ := BasicFonts.sample
    ∃ (s s' : System .sample) (es : List Event), Started xga s ∧ Trace Step s es s' ∧
      ∃ wm fb, s'.statics = ⟨some wm, some ⟨fb, xga⟩⟩ ∧ wm.desktop.focused = some 1 ∧
        wm.desktop.panes.map Pane.id = [0, 2, 1] ∧ wm.desktop.pointer = (312, 384) := by
  intro _
  obtain ⟨s, es, s', hs, hrun, -, -, -, hmoves, -⟩ := exists_clicked
  obtain ⟨⟨wm, fb, hstatics, hdesktop⟩, -⟩ := desktop_of_moves hs hrun
  rw [hmoves] at hdesktop
  refine ⟨s, s', es, hs, hrun, wm, fb, hstatics, ?_⟩
  rw [hdesktop]
  decide

/-- When the idle loop hands the processor on, the memory map has made its calls. -/
theorem Desk.running_of_yielding {h : History} {wm : WindowManager} (hd : Desk info h s wm fb)
    (hi : Inv info h s) (hidle : s.idle = .yielding) :
    Running info (bootFrames info) wm fb ∧ s.flow = .idle := by
  have hflow : s.flow = .idle := by
    by_contra hne
    cases hidle.symm.trans (hi.parked.idle hne)
  have hrun := hd.running
  rw [(hi.parked.memmap (by rw [hflow]; decide)).marked_eq] at hrun
  exact ⟨hrun, hflow⟩

/-- **The screen shows what a fresh composite would show** whenever none is due, and the memory map is
not about to say that one is. -/
theorem screen_current (hs : Started info s) (hrun : Trace Step s es s') {wm : WindowManager}
    (hst : s'.statics = ⟨some wm, some ⟨fb, info⟩⟩) (hneeds : wm.needsComposite = false)
    (hmemmap : ∀ winId, s'.memmap ≠ .marking winId) : Shown info wm fb := by
  obtain ⟨⟨fb₀, hb⟩, -⟩ := hs.booted
  obtain ⟨wm', fb', hdesk⟩ := (hs.inv hrun).desk
  cases hst.symm.trans hdesk.statics_eq
  have hmarked : s'.memmap.marked wm = wm := by
    cases hpc : s'.memmap with
    | marking winId => exact absurd hpc (hmemmap winId)
    | entry | drawing | yielding => rfl
  obtain ⟨backBuf, hclean⟩ := (hmarked ▸ hdesk.running).coherent.clean hneeds
  exact hclean.shown hb.fits

omit [BasicFonts] in
/-- After a key, a redraw of the counter and a click that raises a window. -/
theorem screen_current_xga :
    let _ := BasicFonts.sample
    ∃ (s s' : System .sample) (es : List Event) (wm : WindowManager) (fb : Buf), Started xga s ∧
      Trace Step s es s' ∧ (History.of es).moves = [⟨-200, 0, true, false, false⟩] ∧
      s'.statics = ⟨some wm, some ⟨fb, xga⟩⟩ ∧ Shown xga wm fb := by
  intro _
  obtain ⟨s, es, s', hs, hrun, hidle, -, -, hmoves, -⟩ := exists_clicked
  have hi := hs.inv hrun
  obtain ⟨wm, fb, hdesk⟩ := hi.desk
  obtain ⟨-, hflow⟩ := hdesk.running_of_yielding hi hidle
  refine ⟨s, s', es, wm, fb, hs, hrun, hmoves, hdesk.statics_eq,
    screen_current hs hrun hdesk.statics_eq (hdesk.idle hidle) ?_⟩
  rcases hi.parked.memmap (by rw [hflow]; decide) with hpc | hpc
  · rw [hpc]
    exact nofun
  · rw [hpc]
    exact nofun

/-- The window of a frame. -/
theorem frame_of_topmost {created : List WmWindow} {wm : WindowManager}
    (hrun : Running info created wm fb) (hcreated : (created.map WmWindow.id).Nodup)
    {frame win : WmWindow} (hframe : frame ∈ created) (hwin : win ∈ wm.windows)
    (hid : win.id = frame.id) : win.x = frame.x ∧ win.y = frame.y := by
  have hmem : win.frame ∈ created :=
    hrun.session.perm.mem_iff.1 (List.mem_map_of_mem hwin)
  have hfound := find?_of_mem hcreated hmem
  rw [show win.frame.id = frame.id from hid, find?_of_mem hcreated hframe] at hfound
  have heq : frame = win.frame := Option.some.inj hfound
  rw [heq]
  exact ⟨rfl, rfl⟩

/-- **A pixel of a window** shows the text of the window when the idle loop hands the processor on. -/
theorem Desk.readPixel {h : History} {wm : WindowManager} (hb : info.Fits) (hd : Desk info h s wm fb)
    (hrun : Running info (bootFrames info) wm fb) (hidle : s.idle = .yielding) {frame : WmWindow}
    (hframe : frame ∈ bootFrames info) {content : Rect} {shown : Bool}
    {g : Grid (content.height / FONT_HEIGHT) (content.width / FONT_WIDTH)}
    (hhosts : wm.Hosts frame.id content shown g) {p : ℕ × ℕ} (hp : info.OnScreen p)
    (htop : ((desktopAfter info h.moves).paneAt p).map Pane.id = some frame.id)
    (hin : content.Contains (p.1 - frame.x, p.2 - frame.y))
    (hsprite : (desktopAfter info h.moves).sprite p = none) :
    readPixel fb info p.1 p.2 = some (if shown = true ∧
      g.CursorOn content (p.1 - frame.x, p.2 - frame.y) then .white
      else g.colorAt content (p.1 - frame.x, p.2 - frame.y)) := by
  obtain ⟨backBuf, hclean⟩ := hrun.coherent.clean (hd.idle hidle)
  rw [← hd.desktop_eq, paneAt_desktop] at htop
  rw [← hd.desktop_eq] at hsprite
  obtain ⟨win, hwin, hid⟩ := Option.map_eq_some_iff.1 htop
  obtain ⟨hx, hy⟩ := frame_of_topmost hrun (show [0, 1, 2].Nodup by decide) hframe
    (mem_of_topmost hwin) hid
  rw [← hx, ← hy] at hin ⊢
  exact hhosts.readPixel_of_clean hb hrun.tracked hrun.coherent.holds hclean hp hwin hid hin hsprite

end System

end ROs
