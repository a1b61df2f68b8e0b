import ROs.Framebuffer.Reading
import ROs.Lib.Trace
import ROs.Shell.Enter
import ROs.Wm.Text

/-!
# What the shell shows

The line is edited twice: in the buffer that Enter executes, and on the console, by what is echoed
for every key.  `Editor` puts the two next to each other: the grid that the console shows, and the
line.  A printable character is put on the grid.  Backspace, space, backspace takes the last one
away again, but not from column 0: at the start of a row the grid stays as it is, while the line
gets shorter (`Editor.Stuck`).

* `Shell.shown_line` : **the console shows the grid of the editor, and what stands there after the
  prompt is the line, during a whole run, exactly if no character is erased in column 0.**
-/

namespace ROs

/-! ### One key -/

namespace Shell

open Statics

variable {α : Type} {winId : UInt64} {c : Char} {line line' : Line} {echo : List String}

/-- What the loop does with a key for which `handle_char` writes `echo`. -/
def keyed (winId : UInt64) (echo : List String) (line : Line) : Shell Line :=
  ⟨.consoleHideCursor winId :: (echo.map (.consoleWrite winId) ++
    [.consoleShowCursor winId, .markDirty winId]), .ok line⟩

theorem handleKey_of_ok
    (h : handleChar winId c line = ⟨echo.map (.consoleWrite winId), .ok line'⟩) :
    handleKey winId (.unicode c) line = keyed winId echo line' := by
  rw [handleKey]
  simp only [h]
  rfl

/-- A key other than Enter takes a character away, adds one, or is ignored. -/
theorem handleKey_cases (winId : UInt64) (line : Line) (hn : c ≠ '\n') (hr : c ≠ '\r') :
    (Erases c ∧ 0 < line.len ∧ handleKey winId (.unicode c) line =
        keyed winId ["\x08 \x08"] { line with len := line.len - 1 }) ∨
      (isAscii c = true ∧ isAsciiControl c = false ∧ ∃ h : line.len < MAX_LINE,
        handleKey winId (.unicode c) line = keyed winId [String.singleton c]
          ⟨line.buf.set line.len c.toUInt8, line.len + 1⟩) ∨
      (¬ (Erases c ∧ 0 < line.len) ∧
        handleKey winId (.unicode c) line = keyed winId [] line) := by
  rcases handleChar_cases winId line hn hr with
    ⟨herase, hlen, heq⟩ | ⟨hprint, hlen, heq⟩ | ⟨hskip, -, heq⟩
  · exact .inl ⟨herase, hlen, handleKey_of_ok heq⟩
  · exact .inr (.inl ⟨hprint.1, by simpa using hprint.2, hlen, handleKey_of_ok heq⟩)
  · exact .inr (.inr ⟨hskip, handleKey_of_ok heq⟩)

variable {rows cols : ℕ}

/-- What the calls do to the grid of the console. -/
def onGrid (x : Shell α) (g : Grid rows cols) : Grid rows cols :=
  (x.calls.flatMap Op.console).foldl Grid.perform g

end Shell

/-! ### The editor -/

/-- The grid that the console shows, and the line of the shell. -/
structure Editor (rows cols : ℕ) where
  grid : Grid rows cols
  line : Line

namespace Editor

variable {rows cols : ℕ} {e : Editor rows cols} {winId : UInt64} {c : Char} {k : ℕ}

/-- What a key does to the grid and to the line. -/
def key (winId : UInt64) (e : Editor rows cols) (c : Char) : Editor rows cols :=
  let x := Shell.handleKey winId (.unicode c) e.line
  ⟨x.onGrid e.grid, x.result.toOption.getD e.line⟩

/-- The cells up to the position end with the prompt and the line, and those after it are blank. -/
structure ShowsLine (e : Editor rows cols) : Prop where
  printed : ∃ k, e.grid.Printed k (PROMPT.toList ++ e.line.text)
  blank : ∀ i, e.grid.pos ≤ i → e.grid.read i = none

/-- A character is to be taken away, but the position is at the start of a row. -/
def Stuck (e : Editor rows cols) (c : Char) : Prop := Erases c ∧ 0 < e.line.len ∧ e.grid.col = 0

/-- What is kept as long as the editor does not get stuck; the prompt began in column `k`. -/
structure Good (k : ℕ) (e : Editor rows cols) : Prop where
  printed : e.grid.Printed k (PROMPT.toList ++ e.line.text)
  blankFrom : e.grid.BlankFrom
  len_le : e.line.len ≤ MAX_LINE

theorem Good.showsLine (h : e.Good k) : e.ShowsLine :=
  ⟨⟨k, h.printed⟩, fun _ hi => h.blankFrom.read_eq_none hi⟩

theorem key_eq {echo : List String} {line : Line}
    (h : Shell.handleKey winId (.unicode c) e.line = Shell.keyed winId echo line) :
    e.key winId c = ⟨(Shell.keyed winId echo line).onGrid e.grid, line⟩ := by
  rw [key, h]
  rfl

/-- What a key other than Enter does to the editor. -/
theorem key_cases (winId : UInt64) (hgrid : e.grid.BlankFrom) (hn : c ≠ '\n') (hr : c ≠ '\r') :
    (Erases c ∧ 0 < e.line.len ∧
        e.key winId c = ⟨e.grid.backspace, { e.line with len := e.line.len - 1 }⟩) ∨
      (isAscii c = true ∧ isAsciiControl c = false ∧ ∃ h : e.line.len < MAX_LINE, e.key winId c =
        ⟨e.grid.put c, ⟨e.line.buf.set e.line.len c.toUInt8, e.line.len + 1⟩⟩) ∨
      (¬ (Erases c ∧ 0 < e.line.len) ∧ e.key winId c = e) := by
  rcases Shell.handleKey_cases winId e.line hn hr with
    ⟨herase, hlen, heq⟩ | ⟨hascii, hcontrol, hlen, heq⟩ | ⟨hskip, heq⟩
  · refine .inl ⟨herase, hlen, ?_⟩
    rw [key_eq heq]
    exact congrArg (Editor.mk · _) (Grid.writeChar_rubout hgrid)
  · refine .inr (.inl ⟨hascii, hcontrol, hlen, ?_⟩)
    have hput : e.grid.writeChar c = e.grid.put c := by
      rw [Grid.writeChar, if_neg hn, if_neg]
      rintro rfl
      exact absurd hcontrol (by decide)
    rw [key_eq heq]
    refine congrArg (Editor.mk · _) ?_
    change (String.singleton c).toList.foldl Grid.writeChar e.grid = _
    rw [String.toList_singleton, List.foldl_cons, hput]
    rfl
  · exact .inr (.inr ⟨hskip, key_eq heq⟩)

/-- **A key keeps line and grid together, unless the editor is stuck.** -/
theorem Good.key (h : e.Good k) (hroom : k + PROMPT.length + MAX_LINE ≤ rows * cols)
    (hn : c ≠ '\n') (hr : c ≠ '\r') (hstuck : ¬ e.Stuck c) : (e.key winId c).Good k := by
  have hlen := Line.length_text h.len_le
  rcases key_cases winId h.blankFrom hn hr with
    ⟨herase, hpos, heq⟩ | ⟨hascii, -, hlt, heq⟩ | ⟨-, heq⟩
  · obtain ⟨x, htext⟩ := Line.exists_text_eq hpos h.len_le
    have hprinted := h.printed
    rw [htext, ← List.append_assoc] at hprinted
    have hcol : 0 < e.grid.col := Nat.pos_of_ne_zero fun h0 => hstuck ⟨herase, hpos, h0⟩
    rw [heq]
    exact ⟨hprinted.backspace hcol, h.blankFrom.backspace, Nat.le_trans (Nat.sub_le _ _) h.len_le⟩
  · rw [heq]
    refine ⟨?_, h.blankFrom.put c, hlt⟩
    rw [Line.text_set hascii hlt, ← List.append_assoc]
    refine h.printed.put ?_ c
    rw [List.length_append, hlen, String.length_toList]
    omega
  · rwa [heq]

/-- Stuck in column 0, the grid keeps the character that the line has lost. -/
theorem Good.not_showsLine_key (h : e.Good k) (hstuck : e.Stuck c) :
    ¬ (e.key winId c).ShowsLine := by
  obtain ⟨herase, hpos, hcol⟩ := hstuck
  have hn : c ≠ '\n' := by
    rintro rfl
    exact absurd herase (by decide)
  have hr : c ≠ '\r' := by
    rintro rfl
    exact absurd herase (by decide)
  rcases key_cases winId h.blankFrom hn hr with
    ⟨-, -, heq⟩ | ⟨-, hcontrol, -⟩ | ⟨hskip, -⟩
  · rw [heq, Grid.backspace_of_col_eq_zero hcol]
    rintro ⟨⟨k', hprinted'⟩, -⟩
    obtain ⟨x, htext⟩ := Line.exists_text_eq hpos h.len_le
    have hprinted := h.printed
    rw [htext] at hprinted
    generalize Line.text _ = text at hprinted hprinted'
    have hprompt : PROMPT.toList = ['r', '-', 'o', 's', '>', ' '] := rfl
    rw [hprompt] at hprinted hprinted'
    -- the prompt is one cell further to the left than the line asks for
    obtain ⟨k'', htail⟩ := hprinted.tail
    have hsame := hprinted'.eq_of_length_eq htail (by simp)
    exact absurd (List.cons.inj hsame).1 (by decide)
  · rcases herase with rfl | rfl
    · exact absurd hcontrol (by decide)
    · exact absurd hcontrol (by decide)
  · exact absurd ⟨herase, hpos⟩ hskip

/-- The keys of a run, one after another. -/
def keys (winId : UInt64) (e : Editor rows cols) (cs : List Char) : Editor rows cols :=
  cs.foldl (key winId) e

/-- **After every part of a run the line is on the grid, exactly if the editor never got stuck.** -/
theorem Good.showsLine_iff (h : e.Good k) (hroom : k + PROMPT.length + MAX_LINE ≤ rows * cols)
    {cs : List Char} (hcs : ∀ c ∈ cs, c ≠ '\n' ∧ c ≠ '\r') :
    (∀ pre, pre <+: cs → (e.keys winId pre).ShowsLine) ↔
      ∀ pre c, pre ++ [c] <+: cs → ¬ (e.keys winId pre).Stuck c :=
  forall_prefix_iff (I := Good k) (Q := fun c => c ≠ '\n' ∧ c ≠ '\r') (fun _ h => h.showsLine)
    (fun _ _ hc h hstuck => h.key hroom hc.1 hc.2 hstuck)
    (fun _ _ h hstuck => h.not_showsLine_key hstuck) h hcs

end Editor

/-! ### The console -/

namespace Shell

open Statics

/-- A prompt, with the cursor after it. -/
def prompt (winId : UInt64) : Shell Unit := do
  printPrompt winId
  call (.consoleShowCursor winId)

/-- An empty line after a prompt, wherever on the grid the prompt was printed. -/
theorem good_prompt {rows cols : ℕ} {g : Grid rows cols} {line : Line} (winId : UInt64)
    (hblank : g.BlankFrom) (hline : line.len = 0)
    (hroom : g.col % cols + PROMPT.length + MAX_LINE ≤ rows * cols) :
    (Editor.mk ((prompt winId).onGrid g) line).Good (g.col % cols) := by
  have hprompt : (prompt winId).onGrid g = PROMPT.toList.foldl Grid.put g := rfl
  have htext : line.text = [] := by rw [Line.text, hline, List.take_zero, List.map_nil]
  refine ⟨?_, ?_, by rw [hline]; exact Nat.zero_le _⟩
  · rw [htext, List.append_nil, hprompt]
    refine g.printed_nil.puts ?_
    rw [List.length_nil, String.length_toList]
    omega
  · rw [hprompt]
    exact hblank.puts _

variable [BasicFonts]

/-- A key on the statics and the line. -/
def type (winId : UInt64) (self : Statics × Line) (c : Char) : Option (Statics × Line) := do
  let x := handleKey winId (.unicode c) self.2
  let st ← x.perform self.1
  some (st, ← x.result.toOption)

variable {info : FrameBufferInfo} {n : ℕ} {content : Rect} {st : Statics} {winId : UInt64}
  {line : Line} {c : Char}

omit [BasicFonts] in
/-- The console operations of a key. -/
theorem console_keyed (winId : UInt64) (echo : List String) (line : Line) :
    (keyed winId echo line).calls.flatMap Op.console =
      .eraseCursor :: (echo.map .writeStr ++ [.drawCursor]) := by
  have hwrites : (echo.map (Op.consoleWrite winId)).flatMap Op.console = echo.map .writeStr := by
    rw [List.flatMap_map, List.map_eq_flatMap]
    rfl
  rw [keyed, List.flatMap_cons, List.flatMap_append, hwrites]
  rfl

omit [BasicFonts] in
/-- Texts without a carriage return may be written while the cursor is hidden. -/
theorem disciplined_writes {echo : List String} (hecho : ∀ s ∈ echo, '\r' ∉ s.toList) :
    Console.Disciplined false (echo.map .writeStr ++ [.drawCursor]) := by
  induction echo with
  | nil => exact trivial
  | cons s echo ih =>
    rw [List.forall_mem_cons] at hecho
    exact ⟨rfl, hecho.1, ih hecho.2⟩

/-- What the loop does with a key is displayed. -/
theorem exists_perform_keyed {g : Grid (content.height / FONT_HEIGHT) (content.width / FONT_WIDTH)}
    (h : st.Displays winId.toNat info n content true g) {echo : List String}
    (hecho : ∀ s ∈ echo, '\r' ∉ s.toList) (line : Line) :
    ∃ st', (keyed winId echo line).perform st = some st' ∧
      st'.Displays winId.toNat info n content true ((keyed winId echo line).onGrid g) := by
  have hcalls : ∀ op ∈ (keyed winId echo line).calls, op.onConsole winId = true := by
    intro op hop
    simp only [keyed, List.mem_cons, List.mem_append, List.mem_map, List.not_mem_nil,
      or_false] at hop
    rcases hop with rfl | ⟨s, -, rfl⟩ | rfl | rfl <;> exact decide_eq_true rfl
  have hops : Console.Disciplined true ((keyed winId echo line).calls.flatMap Op.console) := by
    rw [console_keyed]
    exact disciplined_writes hecho
  obtain ⟨st', hst, h'⟩ := h.run hcalls hops
  refine ⟨st', hst, ?_⟩
  rwa [console_keyed, List.foldl_cons, List.foldl_append, ← console_keyed winId echo line] at h'

/-- A key other than Enter does on the console what it does to the editor. -/
theorem exists_type
    {e : Editor (content.height / FONT_HEIGHT) (content.width / FONT_WIDTH)}
    (h : st.Displays winId.toNat info n content true e.grid) (hn : c ≠ '\n') (hr : c ≠ '\r') :
    ∃ st', type winId (st, e.line) c = some (st', (e.key winId c).line) ∧
      st'.Displays winId.toNat info n content true (e.key winId c).grid := by
  obtain ⟨echo, line, heq, hecho⟩ : ∃ echo line,
      handleKey winId (.unicode c) e.line = keyed winId echo line ∧
        ∀ s ∈ echo, '\r' ∉ s.toList := by
    rcases handleKey_cases winId e.line hn hr with ⟨-, -, heq⟩ | ⟨-, -, hlen, heq⟩ | ⟨-, heq⟩
    · exact ⟨_, _, heq, by decide⟩
    · exact ⟨_, _, heq, by simpa using hr.symm⟩
    · exact ⟨_, _, heq, nofun⟩
  obtain ⟨st', hst, h'⟩ := exists_perform_keyed h hecho line
  rw [Editor.key_eq heq]
  refine ⟨st', ?_, h'⟩
  simp only [type, heq, hst, Option.bind_eq_bind, Option.bind_some]
  rfl

/-- A run of keys other than Enter does on the console what it does to the editor. -/
theorem exists_foldlM_type {cs : List Char}
    {e : Editor (content.height / FONT_HEIGHT) (content.width / FONT_WIDTH)}
    (h : st.Displays winId.toNat info n content true e.grid)
    (hcs : ∀ c ∈ cs, c ≠ '\n' ∧ c ≠ '\r') :
    ∃ st', cs.foldlM (type winId) (st, e.line) = some (st', (e.keys winId cs).line) ∧
      st'.Displays winId.toNat info n content true (e.keys winId cs).grid := by
  induction cs generalizing st e with
  | nil => exact ⟨st, rfl, h⟩
  | cons c cs ih =>
    rw [List.forall_mem_cons] at hcs
    obtain ⟨st₁, hst₁, h₁⟩ := exists_type h hcs.1.1 hcs.1.2
    obtain ⟨st', hst', h'⟩ := ih h₁ hcs.2
    refine ⟨st', ?_, h'⟩
    rw [List.foldlM_cons, hst₁]
    exact hst'

/-- The prompt is displayed. -/
theorem exists_perform_prompt
    {g : Grid (content.height / FONT_HEIGHT) (content.width / FONT_WIDTH)}
    (h : st.Displays winId.toNat info n content false g) :
    ∃ st', (prompt winId).perform st = some st' ∧
      st'.Displays winId.toNat info n content true ((prompt winId).onGrid g) := by
  have hcalls : ∀ op ∈ (prompt winId).calls, op.onConsole winId = true := by
    change ∀ op ∈ [Op.consoleWrite winId PROMPT, .consoleShowCursor winId], _
    simp [Op.onConsole]
  have hops : Console.Disciplined false ((prompt winId).calls.flatMap Op.console) :=
    ⟨rfl, by decide, trivial⟩
  exact h.run hcalls hops

namespace SevenColumns

/-- A screen for a window with 38 rows of 7 characters. -/
def screen : FrameBufferInfo := ⟨68, 680, .rgb, 3, 68⟩

abbrev area : Rect := ⟨6, 30, 56, 608⟩

/-- The console of a new window. -/
def grid : Grid (area.height / FONT_HEIGHT) (area.width / FONT_WIDTH) :=
  Grid.blank (by decide) (by decide)

/-- What is typed fills the first row, goes on in the second one, and is taken away again. -/
def wrapped : List Char := ['a', 'b', '\x08', '\x7f']

/-- The editor after the prompt. -/
def editor : Editor (area.height / FONT_HEIGHT) (area.width / FONT_WIDTH) :=
  ⟨(prompt 0).onGrid grid, Line.empty⟩

theorem exists_displays : ∃ st₀ st info n, (Statics.mk none (some ⟨#[], screen⟩)).init = some st₀ ∧
    [Op.createWindow 0 0 68 644 "" 0, .initConsole 0].foldlM Statics.perform st₀ = some st ∧
      st.Displays (0 : UInt64).toNat info n area false grid := by
  have hf : screen.Fits :=
    .of_le (by decide) (Nat.le_refl 3) (by decide) (by decide) (by decide)
  obtain ⟨wm₀, hnew⟩ := WindowManager.exists_new hf (by decide) (by decide)
  obtain ⟨hwindows, hid, hinfo, -⟩ := WindowManager.new_eq_some hnew
  obtain ⟨wm₁, id, hcreate⟩ := wm₀.exists_createWindow (0 : UInt64).toNat (0 : UInt64).toNat
    (68 : UInt64).toNat (644 : UInt64).toNat "" (0 : UInt64).toNat (hinfo ▸ hf.formatFits)
    (by decide) (by decide) (by rw [hinfo]; decide)
  obtain ⟨win, hwin, hrect, hv, hwm₁⟩ := WindowManager.createWindow_eq_some
    (hinfo ▸ hf.formatFits) (by decide) (by decide) hcreate
  have hcontent : win.contentRect = area := by
    simp only [WmWindow.rect, Rect.mk.injEq] at hrect
    rw [WmWindow.contentRect, hrect.2.2.1, hrect.2.2.2]
    rfl
  have hfind : wm₁.windows.find? (fun win => win.id = (0 : UInt64).toNat) = some win := by
    rw [hwm₁, hwindows]
    exact List.find?_cons_of_pos (decide_eq_true (hwin.trans hid))
  obtain ⟨st, hst, hdisplays⟩ := displays_initConsole (some ⟨#[], screen⟩) hfind hv
    (hinfo ▸ hf.formatFits) hcontent (by decide) (by decide)
  refine ⟨_, st, _, _, init_of_eq _ hnew, ?_, hdisplays⟩
  rw [List.foldlM_cons, perform_createWindow_of_eq hcreate]
  simp only [Option.bind_eq_bind, Option.bind_some, List.foldlM_cons, List.foldlM_nil,
    Statics.perform, hst]
  rfl

end SevenColumns

/-- **What the shell shows after the prompt is the line that it will run, in every state of a run of
keys, exactly if no character of the line is erased while the position is in column 0.** -/
theorem shown_line {g : Grid (content.height / FONT_HEIGHT) (content.width / FONT_WIDTH)}
    {cs : List Char} (h : st.Displays winId.toNat info n content false g) (hline : line.len = 0)
    (hroom : g.col % (content.width / FONT_WIDTH) + PROMPT.length + MAX_LINE ≤
      (content.height / FONT_HEIGHT) * (content.width / FONT_WIDTH))
    (hcs : ∀ c ∈ cs, c ≠ '\n' ∧ c ≠ '\r') :
    ∃ st₀, (prompt winId).perform st = some st₀ ∧
      let e₀ := Editor.mk ((prompt winId).onGrid g) line
      (∀ pre, pre <+: cs → ∃ st',
        pre.foldlM (type winId) (st₀, line) = some (st', (e₀.keys winId pre).line) ∧
          st'.Displays winId.toNat info n content true (e₀.keys winId pre).grid) ∧
      ((∀ pre, pre <+: cs → (e₀.keys winId pre).ShowsLine) ↔
        ∀ pre c, pre ++ [c] <+: cs → ¬ (e₀.keys winId pre).Stuck c) := by
  have hblank : g.BlankFrom := by
    obtain ⟨wm, win, console, -, -, -, -, -, hshows⟩ := h.window
    exact hshows.blankFrom
  obtain ⟨st₀, hst₀, h₀⟩ := exists_perform_prompt h
  have hgood := good_prompt winId hblank hline hroom
  refine ⟨st₀, hst₀, fun pre hpre => ?_, hgood.showsLine_iff hroom hcs⟩
  exact exists_foldlM_type (e := ⟨(prompt winId).onGrid g, line⟩) h₀
    fun c hc => hcs c (hpre.subset hc)

omit [BasicFonts] in
/-- The second character is printed in the second row and taken away again. -/
theorem shown_line_sevenColumns :
    let _ := BasicFonts.sample
    ∃ st info n st₀ st', st.Displays (0 : UInt64).toNat info n SevenColumns.area false
        SevenColumns.grid ∧ (prompt 0).perform st = some st₀ ∧
      ['a', 'b', '\x7f'].foldlM (type 0) (st₀, Line.empty) =
        some (st', (SevenColumns.editor.keys 0 ['a', 'b', '\x7f']).line) ∧
      (SevenColumns.editor.keys 0 ['a', 'b', '\x7f']).ShowsLine := by
  intro _
  obtain ⟨-, st, info, n, -, -, h⟩ := SevenColumns.exists_displays
  obtain ⟨st₀, hst₀, hrun, hiff⟩ := shown_line h
    (show Line.empty.len = 0 from rfl) (by decide)
    (show ∀ c ∈ ['a', 'b', '\x7f'], c ≠ '\n' ∧ c ≠ '\r' by simp)
  obtain ⟨st', hst', -⟩ := hrun _ (List.prefix_refl _)
  refine ⟨st, info, n, st₀, st', h, hst₀, hst',
    hiff.2 (fun pre c hpre => ?_) _ (List.prefix_refl _)⟩
  rcases pre with _ | ⟨x, _ | ⟨y, _ | ⟨z, pre⟩⟩⟩
  · obtain ⟨rfl, -⟩ := List.cons_prefix_cons.1 hpre
    exact fun hstuck => absurd hstuck.1 (by decide)
  · obtain ⟨rfl, hpre₁⟩ := List.cons_prefix_cons.1 hpre
    obtain ⟨rfl, -⟩ := List.cons_prefix_cons.1 hpre₁
    exact fun hstuck => absurd hstuck.1 (by decide)
  · -- the position is in column 1
    obtain ⟨rfl, hpre₁⟩ := List.cons_prefix_cons.1 hpre
    obtain ⟨rfl, -⟩ := List.cons_prefix_cons.1 hpre₁
    exact fun hstuck => absurd hstuck.2.2 (by decide)
  · simp at hpre

omit [BasicFonts] in
/-- The second row is taken away again, and one character more: the empty line is shown as the last
character of the first row. -/
theorem shown_line_wrapped :
    let _ := BasicFonts.sample
    ∃ st info n st₀ st', st.Displays (0 : UInt64).toNat info n SevenColumns.area false
        SevenColumns.grid ∧ (prompt 0).perform st = some st₀ ∧
      SevenColumns.wrapped.foldlM (type 0) (st₀, Line.empty) =
        some (st', (SevenColumns.editor.keys 0 SevenColumns.wrapped).line) ∧
      st'.Displays (0 : UInt64).toNat info n SevenColumns.area true
        (SevenColumns.editor.keys 0 SevenColumns.wrapped).grid ∧
      (SevenColumns.editor.keys 0 SevenColumns.wrapped).line.len = 0 ∧
      (SevenColumns.editor.keys 0 SevenColumns.wrapped).grid.pos = 7 ∧
      (SevenColumns.editor.keys 0 SevenColumns.wrapped).grid.read 6 = some 'a' ∧
      ¬ (SevenColumns.editor.keys 0 SevenColumns.wrapped).ShowsLine := by
  intro _
  obtain ⟨-, st, info, n, -, -, h⟩ := SevenColumns.exists_displays
  obtain ⟨st₀, hst₀, h₀⟩ := exists_perform_prompt h
  obtain ⟨st', hst', h'⟩ := exists_foldlM_type (e := SevenColumns.editor) h₀
    (show ∀ c ∈ SevenColumns.wrapped, c ≠ '\n' ∧ c ≠ '\r' by simp [SevenColumns.wrapped])
  have hlen : (SevenColumns.editor.keys 0 SevenColumns.wrapped).line.len = 0 := by decide
  have hpos : (SevenColumns.editor.keys 0 SevenColumns.wrapped).grid.pos = 7 := by decide
  refine ⟨st, info, n, st₀, st', h, hst₀, hst', h', hlen, hpos, by decide, ?_⟩
  rintro ⟨⟨k, i, -, hpos', hread⟩, -⟩
  have htext : (SevenColumns.editor.keys 0 SevenColumns.wrapped).line.text = [] := by
    rw [Line.text, hlen, List.take_zero, List.map_nil]
  rw [htext, List.append_nil] at hpos' hread
  obtain rfl : i = 1 := by
    have : PROMPT.toList.length = 6 := rfl
    omega
  exact absurd (hread 0 (by decide)) (by decide)

end Shell

end ROs
