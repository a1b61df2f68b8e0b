import ROs.System.Boot

/-!
# The tasks that write

The shell and the counter each write on a console of their own, one call after the other, and hand
the processor on in between.  `WindowManager.HostsAfter` says what the window of such a task will
show when the calls that are left have been made.

`ShellAt` says where the shell can be after some keys, and what its window shows there: the grid of
the editor that has been given these keys (`shellEditor`).  `CounterAt` says the same of the counter,
whose window shows the number of ticks of the last redraw (`counterGrid`).
-/

namespace ROs

open Statics

variable [BasicFonts]

/-! ### Calls that are left -/

namespace WindowManager

variable {wm wm' : WindowManager} {winId : UInt64} {content : Rect} {op : Statics.Op}
  {ops : List Statics.Op} {shown : Bool} {g : Grid (content.height / FONT_HEIGHT) (content.width / FONT_WIDTH)}

/-- When the calls are made, the window will show the grid, with its cursor drawn or not. -/
def HostsAfter (wm : WindowManager) (winId : UInt64) (content : Rect) (ops : List Statics.Op)
    (shown : Bool) (g : Grid (content.height / FONT_HEIGHT) (content.width / FONT_WIDTH)) : Prop :=
  (∀ op ∈ ops, op.onConsole winId = true) ∧ ∃ shown₀ g₀, wm.Hosts winId.toNat content shown₀ g₀ ∧
    Console.Disciplined shown₀ (ops.flatMap Statics.Op.console) ∧
    (ops.flatMap Statics.Op.console).foldl (fun _ op => op.showsCursor) shown₀ = shown ∧
    (ops.flatMap Statics.Op.console).foldl Grid.perform g₀ = g

theorem HostsAfter.hosts (h : wm.HostsAfter winId content [] shown g) :
    wm.Hosts winId.toNat content shown g := by
  obtain ⟨-, shown₀, g₀, hhosts, -, rfl, rfl⟩ := h
  exact hhosts

/-- What leaves the text of the window alone leaves what it will show alone. -/
theorem HostsAfter.keep (h : wm.HostsAfter winId content ops shown g) {target : Option ℕ}
    (hkeep : KeepsText target wm.windows wm'.windows) (hne : target ≠ some winId.toNat) :
    wm'.HostsAfter winId content ops shown g := by
  obtain ⟨hops, shown₀, g₀, hhosts, hrest⟩ := h
  exact ⟨hops, shown₀, g₀, hhosts.keep hkeep hne, hrest⟩

/-- **One of the calls** never fails. -/
theorem Running.exists_call_after {info : FrameBufferInfo} {created : List WmWindow} {fb : Buf}
    (hf : info.Fits) (h : Running info created wm fb)
    (hafter : wm.HostsAfter winId content (op :: ops) shown g) :
    ∃ wm', (Statics.mk (some wm) (some ⟨fb, info⟩)).perform op = some ⟨some wm', some ⟨fb, info⟩⟩ ∧
      Running info created wm' fb ∧ SameDesktop wm wm' ∧
      KeepsText (some winId.toNat) wm.windows wm'.windows ∧
      wm'.HostsAfter winId content ops shown g := by
  obtain ⟨hops, shown₀, g₀, hhosts, hd, hshown, hg⟩ := hafter
  rw [List.forall_mem_cons] at hops
  rw [List.flatMap_cons] at hd
  rw [List.flatMap_cons, List.foldl_append] at hshown hg
  obtain ⟨wm', hop, hrun, hsame, hkeep, hhosts', hd'⟩ := h.exists_call hf hhosts hops.1 hd
  exact ⟨wm', hop, hrun, hsame, hkeep, hops.2, _, _, hhosts', hd', hshown, hg⟩

end WindowManager

/-! ### The shell -/

/-- The editor of the shell after the keys. -/
def shellEditor (keys : List DecodedKey) :
    Editor (shellContent.height / FONT_HEIGHT) (shellContent.width / FONT_WIDTH) :=
  keys.foldl (Editor.press 0) (Editor.start 0 ShellGrid.blank)

omit [BasicFonts] in
theorem shellEditor_append (keys : List DecodedKey) (key : DecodedKey) :
    shellEditor (keys ++ [key]) = (shellEditor keys).press 0 key := by
  rw [shellEditor, List.foldl_append]
  rfl

omit [BasicFonts] in
/-- The line stays printable. -/
theorem printable_shellEditor (keys : List DecodedKey) : (shellEditor keys).line.Printable := by
  induction keys using List.reverseRecOn with
  | nil => exact Line.printable_iff.2 ⟨Nat.zero_le _, nofun⟩
  | append_singleton keys key ih =>
    rw [shellEditor_append, Editor.press]
    rcases Shell.handleKey_result 0 ih key with ⟨line', h, hline'⟩ | h
    · rw [h]
      exact hline'
    · rw [h]
      exact ih

/-- Where the shell can be after the keys, and what its window shows there. -/
inductive ShellAt (wm : WindowManager) (keys : List DecodedKey) : ShellPc → Prop
  | entry : keys = [] → wm.Hosts 0 shellContent false ShellGrid.blank → ShellAt wm keys .entry
  | starting {ops : List Op} : wm.HostsAfter 0 shellContent ops true (shellEditor keys).grid →
      ShellAt wm keys (.starting 0 ops (.ok (shellEditor keys).line))
  | polling : wm.Hosts 0 shellContent true (shellEditor keys).grid →
      ShellAt wm keys (.polling 0 (shellEditor keys).line)
  | reading : wm.focused = some 0 → wm.Hosts 0 shellContent true (shellEditor keys).grid →
      ShellAt wm keys (.reading 0 (shellEditor keys).line)
  | handling {ops : List Op} : wm.HostsAfter 0 shellContent ops true (shellEditor keys).grid →
      ShellAt wm keys (.handling 0 ops (.ok (shellEditor keys).line))
  | halting {ops : List Op} {shown : Bool} :
      wm.HostsAfter 0 shellContent ops shown (shellEditor keys).grid →
      ShellAt wm keys (.handling 0 ops (.error .halt))
  | yielding : wm.Hosts 0 shellContent true (shellEditor keys).grid →
      ShellAt wm keys (.yielding 0 (shellEditor keys).line)
  | halted {shown : Bool} : wm.Hosts 0 shellContent shown (shellEditor keys).grid →
      ShellAt wm keys .halted

namespace ShellAt

variable {wm wm' : WindowManager} {keys : List DecodedKey} {pc : ShellPc}

/-- The shell stays where it is when others write; while it reads, it keeps the focus. -/
theorem keep (h : ShellAt wm keys pc) {target : Option ℕ}
    (hkeep : WindowManager.KeepsText target wm.windows wm'.windows) (hne : target ≠ some 0)
    (hfocus : (∀ winId line, pc ≠ .reading winId line) ∨ wm'.focused = wm.focused) :
    ShellAt wm' keys pc := by
  cases h with
  | entry hkeys hhosts => exact .entry hkeys (hhosts.keep hkeep hne)
  | starting hafter => exact .starting (hafter.keep hkeep hne)
  | polling hhosts => exact .polling (hhosts.keep hkeep hne)
  | reading hfocused hhosts =>
    have hsame := hfocus.resolve_left fun hno => hno _ _ rfl
    exact .reading (hsame.trans hfocused) (hhosts.keep hkeep hne)
  | handling hafter => exact .handling (hafter.keep hkeep hne)
  | halting hafter => exact .halting (hafter.keep hkeep hne)
  | yielding hhosts => exact .yielding (hhosts.keep hkeep hne)
  | halted hhosts => exact .halted (hhosts.keep hkeep hne)

/-- The shell begins. -/
theorem start (h : wm.Hosts 0 shellContent false ShellGrid.blank) :
    ShellAt wm [] (.starting 0 (Shell.start 0).calls (Shell.start 0).result) := by
  refine .starting ⟨?_, false, ShellGrid.blank, h, ?_, rfl, rfl⟩
  · rw [Shell.start_calls]
    decide
  · rw [Shell.start_calls]
    exact ⟨rfl, by decide, rfl, by decide, trivial⟩

/-- **A key** is a key of the editor. -/
theorem key (h : wm.Hosts 0 shellContent true (shellEditor keys).grid) (key : DecodedKey) :
    ShellAt wm (keys ++ [key]) (.handling 0 (Shell.handleKey 0 key (shellEditor keys).line).calls
      (Shell.handleKey 0 key (shellEditor keys).line).result) := by
  have hline := printable_shellEditor keys
  have hafter : ∀ shown, ((Shell.handleKey 0 key (shellEditor keys).line).calls.flatMap
      Op.console).foldl (fun _ op => op.showsCursor) true = shown →
      wm.HostsAfter 0 shellContent (Shell.handleKey 0 key (shellEditor keys).line).calls shown
        (shellEditor (keys ++ [key])).grid := by
    intro shown hshown
    rw [shellEditor_append]
    exact ⟨Shell.onConsole_handleKey 0 hline key, true, _, h,
      Shell.disciplined_handleKey 0 hline key true, hshown, rfl⟩
  rcases Shell.handleKey_result 0 hline key with ⟨line', hresult, -⟩ | hresult
  · have heq : line' = (shellEditor (keys ++ [key])).line := by
      rw [shellEditor_append, Editor.press, hresult]
      rfl
    rw [hresult, heq]
    exact .handling (hafter true (Shell.showsCursor_handleKey hresult true))
  · rw [hresult]
    exact .halting (hafter _ rfl)

end ShellAt

/-! ### The counter -/

/-- What the window of the counter shows: the texts of the start, or those of a redraw. -/
def counterGrid : Option UInt64 → CounterGrid
  | none => (Counter.start 2).onGrid CounterGrid.blank
  | some ticks => (Counter.text ticks).foldl Grid.writeChar CounterGrid.blank

/-- Where the counter can be, when it has read `counted` last and displayed `displayed`, and what its
window shows there.  Between two redraws it displays a number that is less than 16 behind. -/
inductive CounterAt (wm : WindowManager) (counted : UInt64) (displayed : Option UInt64) :
    CounterPc → Prop
  | entry : displayed = none → counted = 0 → wm.Hosts 2 counterContent false CounterGrid.blank →
      CounterAt wm counted displayed .entry
  | starting {ops : List Op} : displayed = none → counted = 0 →
      wm.HostsAfter 2 counterContent ops false (counterGrid displayed) →
      CounterAt wm counted displayed (.starting 2 ops (.ok ()))
  | polling : Counter.due counted (displayed.getD 0) = false →
      wm.Hosts 2 counterContent false (counterGrid displayed) →
      CounterAt wm counted displayed (.polling 2 (displayed.getD 0))
  | drawing {ops : List Op} : displayed = some counted →
      wm.HostsAfter 2 counterContent ops false (counterGrid displayed) →
      CounterAt wm counted displayed (.drawing 2 ops (.ok ()) counted)
  | yielding : Counter.due counted (displayed.getD 0) = false →
      wm.Hosts 2 counterContent false (counterGrid displayed) →
      CounterAt wm counted displayed (.yielding 2 (displayed.getD 0))

namespace CounterAt

variable {wm wm' : WindowManager} {counted : UInt64} {displayed : Option UInt64} {pc : CounterPc}

/-- The counter stays where it is when others write. -/
theorem keep (h : CounterAt wm counted displayed pc) {target : Option ℕ}
    (hkeep : WindowManager.KeepsText target wm.windows wm'.windows) (hne : target ≠ some 2) :
    CounterAt wm' counted displayed pc := by
  cases h with
  | entry hdisplayed hcounted hhosts => exact .entry hdisplayed hcounted (hhosts.keep hkeep hne)
  | starting hdisplayed hcounted hafter =>
    exact .starting hdisplayed hcounted (hafter.keep hkeep hne)
  | polling hdue hhosts => exact .polling hdue (hhosts.keep hkeep hne)
  | drawing hdisplayed hafter => exact .drawing hdisplayed (hafter.keep hkeep hne)
  | yielding hdue hhosts => exact .yielding hdue (hhosts.keep hkeep hne)

/-- The counter begins. -/
theorem start (h : wm.Hosts 2 counterContent false CounterGrid.blank) :
    CounterAt wm 0 none (.starting 2 (Counter.start 2).calls (Counter.start 2).result) := by
  have htext := Counter.isText_start 2
  refine .starting rfl rfl ⟨fun op hop => (htext op hop).onConsole, false, CounterGrid.blank, h,
    ?_, showsCursor_of_isText htext, rfl⟩
  have hd : Console.Disciplined false ((Counter.start 2).calls.flatMap Op.console ++ []) :=
    disciplined_append_of_isText htext trivial
  rwa [List.append_nil] at hd

/-- **A redraw** replaces what the window shows. -/
theorem redraw (h : wm.Hosts 2 counterContent false (counterGrid displayed)) (ticks : UInt64) :
    CounterAt wm ticks (some ticks) (.drawing 2 (Counter.redraw 2 ticks).calls
      (Counter.redraw 2 ticks).result ticks) := by
  have hresult : (Counter.redraw 2 ticks).result = .ok () := by
    rw [Counter.redraw_eq]
  obtain ⟨hd, hshown⟩ := Counter.disciplined_redraw 2 ticks
  rw [hresult]
  exact .drawing rfl ⟨Counter.onConsole_redraw 2 ticks, false, _, h, hd, hshown,
    Counter.onGrid_redraw 2 ticks _⟩

end CounterAt

/-! ### Between two keys, and between two redraws -/

/-- The line that the shell edits, between two keys. -/
def ShellPc.line : ShellPc → Option Line
  | .polling _ line | .reading _ line | .yielding _ line => some line
  | _ => none

/-- The number of ticks that the counter has displayed last, between two redraws. -/
def CounterPc.lastDisplayed : CounterPc → Option UInt64
  | .polling _ lastDisplayed | .yielding _ lastDisplayed => some lastDisplayed
  | _ => none

theorem ShellAt.line_eq {wm : WindowManager} {keys : List DecodedKey} {pc : ShellPc} {line : Line}
    (h : ShellAt wm keys pc) (hline : pc.line = some line) :
    line = (shellEditor keys).line ∧ wm.Hosts 0 shellContent true (shellEditor keys).grid := by
  cases h with
  | polling hhosts | reading _ hhosts | yielding hhosts =>
    cases hline
    exact ⟨rfl, hhosts⟩
  | entry | starting | handling | halting | halted => cases hline

theorem CounterAt.lastDisplayed_eq {wm : WindowManager} {counted : UInt64} {displayed : Option UInt64}
    {pc : CounterPc} {lastDisplayed : UInt64} (h : CounterAt wm counted displayed pc)
    (hlast : pc.lastDisplayed = some lastDisplayed) :
    lastDisplayed = displayed.getD 0 ∧ Counter.due counted lastDisplayed = false ∧
      wm.Hosts 2 counterContent false (counterGrid displayed) := by
  cases h with
  | polling hdue hhosts | yielding hdue hhosts =>
    cases hlast
    exact ⟨rfl, hdue, hhosts⟩
  | entry | starting | drawing => cases hlast

/-- Once 16 ticks have been read, the counter has been redrawn. -/
theorem CounterAt.exists_displayed {wm : WindowManager} {counted : UInt64} {displayed : Option UInt64}
    {pc : CounterPc} {lastDisplayed : UInt64} (h : CounterAt wm counted displayed pc)
    (hlast : pc.lastDisplayed = some lastDisplayed) (hdue : Counter.due counted 0 = true) :
    ∃ shown, displayed = some shown := by
  obtain ⟨hlast', hno, -⟩ := h.lastDisplayed_eq hlast
  cases displayed with
  | some shown => exact ⟨shown, rfl⟩
  | none =>
    rw [hlast'] at hno
    cases hdue.symm.trans hno

end ROs
