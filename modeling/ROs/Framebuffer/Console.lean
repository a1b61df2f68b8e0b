import ROs.Framebuffer.Draw

/-!
# The text console

`Console` of `framebuffer.rs`: characters are drawn straight into a window's buffer, and
scrolling moves pixels.  Every operation returns the console and the buffer, or `none` where the
source would panic.
-/

namespace ROs

/-- `Console`. -/
structure Console where
  content : Rect
  col : ℕ
  row : ℕ
  cols : ℕ
  rows : ℕ
  cursorVisible : Bool
  deriving Repr, DecidableEq

namespace Console

/-- `Console::new`. -/
def new (buf : Buf) (info : FrameBufferInfo) (content : Rect) : Option (Console × Buf) := do
  let cols := content.width / FONT_WIDTH
  let rows := content.height / FONT_HEIGHT
  let buf ← fillRect buf info content.x content.y content.width content.height .black
  some ({ content, col := 0, row := 0, cols, rows, cursorVisible := false }, buf)

/-- `Console::clear`. -/
def clear (self : Console) (buf : Buf) (info : FrameBufferInfo) : Option (Console × Buf) := do
  let buf ← fillRect buf info self.content.x self.content.y self.content.width self.content.height
    .black
  some ({ self with col := 0, row := 0 }, buf)

/-- The copying loop of `Console::scroll_up`, over the lines `wy` still to be copied. -/
def copyLines (content : Rect) (info : FrameBufferInfo) (buf : Buf) : List ℕ → Option Buf
  | [] => some buf
  | wy :: wys =>
    let bpp := info.bytesPerPixel
    let rowBytes := content.width * bpp
    let srcY := content.y + wy + FONT_HEIGHT
    let dstY := content.y + wy
    if srcY + 1 > content.y + content.height then
      some buf
    else
      let srcStart := (srcY * info.stride + content.x) * bpp
      let dstStart := (dstY * info.stride + content.x) * bpp
      if srcStart + rowBytes ≤ buf.size ∧ dstStart + rowBytes ≤ buf.size then do
        let buf ← buf.copyWithin srcStart (srcStart + rowBytes) dstStart
        copyLines content info buf wys
      else
        copyLines content info buf wys

/-- `Console::scroll_up`. -/
def scrollUp (self : Console) (buf : Buf) (info : FrameBufferInfo) : Option (Console × Buf) :=
  if self.rows = 0 then
    some (self, buf)
  else do
    let contentYEnd := self.content.y + self.content.height
    let maxCopyRows := self.content.height - FONT_HEIGHT
    let buf ← copyLines self.content info buf (range 0 maxCopyRows)
    let clearYStart := contentYEnd - FONT_HEIGHT
    let buf ← fillRect buf info self.content.x clearYStart self.content.width FONT_HEIGHT .black
    some ({ self with row := self.rows - 1 }, buf)

/-- `Console::clear_char`. -/
def clearChar (self : Console) (buf : Buf) (info : FrameBufferInfo) (col row : ℕ) : Option Buf :=
  let x0 := self.content.x + col * FONT_WIDTH
  let y0 := self.content.y + row * FONT_HEIGHT
  (range 0 FONT_HEIGHT).foldlM (fun buf dy =>
    (range 0 FONT_WIDTH).foldlM (fun buf dx => putPixel buf info (x0 + dx) (y0 + dy) .black) buf)
    buf

/-- `Console::draw_cursor`. -/
def drawCursor (self : Console) (buf : Buf) (info : FrameBufferInfo) : Option (Console × Buf) :=
  if self.cursorVisible then
    some (self, buf)
  else do
    let x := self.content.x + self.col * FONT_WIDTH
    let y0 := self.content.y + self.row * FONT_HEIGHT
    let buf ← (range 0 FONT_HEIGHT).foldlM (fun buf dy => putPixel buf info x (y0 + dy) .white) buf
    some ({ self with cursorVisible := true }, buf)

/-- `Console::erase_cursor`. -/
def eraseCursor (self : Console) (buf : Buf) (info : FrameBufferInfo) : Option (Console × Buf) :=
  if self.cursorVisible then do
    let x := self.content.x + self.col * FONT_WIDTH
    let y0 := self.content.y + self.row * FONT_HEIGHT
    let buf ← (range 0 FONT_HEIGHT).foldlM (fun buf dy => putPixel buf info x (y0 + dy) .black) buf
    some ({ self with cursorVisible := false }, buf)
  else
    some (self, buf)

/-! ### No operation changes the length of the buffer -/

/-- `f` keeps the length of the buffer, if it succeeds. -/
def KeepsSize (f : Console → Buf → FrameBufferInfo → Option (Console × Buf)) : Prop :=
  ∀ self buf info self' buf', f self buf info = some (self', buf') → buf'.size = buf.size

variable {info : FrameBufferInfo}

/-- An operation that draws on the buffer and then changes its own fields. -/
theorem keepsSize_of_bind {d : Buf → Option Buf} (hd : Buf.KeepsSize d) {f : Buf → Console}
    {buf buf' : Buf} {self' : Console}
    (h : ((d buf).bind fun buf => some (f buf, buf)) = some (self', buf')) :
    buf'.size = buf.size := by
  obtain ⟨buf₁, hdraw, h⟩ := Option.bind_eq_some_iff.1 h
  cases h
  exact hd _ _ hdraw

theorem keepsSize_clear : KeepsSize clear := fun _ _ _ _ _ h =>
  keepsSize_of_bind (keepsSize_fillRect _ _ _ _ _) h

theorem keepsSize_copyLines (content : Rect) (wys : List ℕ) :
    Buf.KeepsSize fun buf => copyLines content info buf wys := by
  induction wys with
  | nil => exact Buf.keepsSize_some
  | cons wy wys ih =>
    intro buf buf' h
    simp only [copyLines] at h
    split at h
    · exact Buf.keepsSize_some _ _ h
    · split at h
      · obtain ⟨buf₁, hcopy, h⟩ := Option.bind_eq_some_iff.1 h
        obtain ⟨src, -, hcopy⟩ := Option.bind_eq_some_iff.1 hcopy
        exact (ih _ _ h).trans (Buf.keepsSize_copyFromSlice _ _ _ _ _ hcopy)
      · exact ih _ _ h

theorem keepsSize_scrollUp : KeepsSize scrollUp := by
  intro self buf info self' buf' h
  unfold scrollUp at h
  split at h
  · cases h
    rfl
  · obtain ⟨buf₁, hcopy, h⟩ := Option.bind_eq_some_iff.1 h
    exact (keepsSize_of_bind (keepsSize_fillRect _ _ _ _ _) h).trans
      (keepsSize_copyLines _ _ _ _ hcopy)

theorem keepsSize_clearChar (self : Console) (col row : ℕ) :
    Buf.KeepsSize fun buf => self.clearChar buf info col row :=
  Buf.KeepsSize.foldlM fun _ _ => Buf.KeepsSize.foldlM fun _ _ => keepsSize_putPixel _ _ _

theorem keepsSize_drawCursor : KeepsSize drawCursor := by
  intro self buf info self' buf' h
  unfold drawCursor at h
  split at h
  · cases h
    rfl
  · exact keepsSize_of_bind (Buf.KeepsSize.foldlM fun _ _ => keepsSize_putPixel _ _ _) h

theorem keepsSize_eraseCursor : KeepsSize eraseCursor := by
  intro self buf info self' buf' h
  unfold eraseCursor at h
  split at h
  · exact keepsSize_of_bind (Buf.KeepsSize.foldlM fun _ _ => keepsSize_putPixel _ _ _) h
  · cases h
    rfl

variable [BasicFonts]

/-- `Console::draw_char`. -/
def drawChar (self : Console) (buf : Buf) (info : FrameBufferInfo) (c : Char) (col row : ℕ) :
    Option Buf :=
  let x0 := self.content.x + col * FONT_WIDTH
  let y0 := self.content.y + row * FONT_HEIGHT
  drawCharAt buf info x0 y0 c .white

/-- The step to the next line, `self.row += 1` and the scrolling it may need. -/
def nextLine (self : Console) (buf : Buf) (info : FrameBufferInfo) : Option (Console × Buf) :=
  let self := { self with col := 0, row := self.row + 1 }
  if self.row ≥ self.rows then self.scrollUp buf info else some (self, buf)

/-- `Console::write_char`. -/
def writeChar (self : Console) (buf : Buf) (info : FrameBufferInfo) (c : Char) :
    Option (Console × Buf) :=
  if self.rows = 0 ∨ self.cols = 0 then
    some (self, buf)
  else if c = '\n' then
    self.nextLine buf info
  else if c = '\r' then
    some ({ self with col := 0 }, buf)
  else if c = '\x08' then
    if self.col > 0 then do
      let self := { self with col := self.col - 1 }
      let buf ← self.clearChar buf info self.col self.row
      some (self, buf)
    else
      some (self, buf)
  else do
    let (self, buf) ← if self.col ≥ self.cols then self.nextLine buf info else some (self, buf)
    let buf ← self.drawChar buf info c self.col self.row
    some ({ self with col := self.col + 1 }, buf)

/-- `Console::write_str`, on the characters of the string. -/
def writeStr (self : Console) (buf : Buf) (info : FrameBufferInfo) (s : List Char) :
    Option (Console × Buf) :=
  s.foldlM (fun (self, buf) c => self.writeChar buf info c) (self, buf)

omit [BasicFonts] in
theorem keepsSize_nextLine : KeepsSize nextLine := by
  intro self buf info self' buf' h
  unfold nextLine at h
  dsimp only at h
  split at h
  · exact keepsSize_scrollUp _ _ _ _ _ h
  · cases h
    rfl

theorem keepsSize_writeChar (c : Char) :
    KeepsSize fun self buf info => self.writeChar buf info c := by
  intro self buf info self' buf' h
  unfold writeChar at h
  dsimp only at h
  split at h
  · cases h
    rfl
  split at h
  · exact keepsSize_nextLine _ _ _ _ _ h
  split at h
  · cases h
    rfl
  split at h
  · split at h
    · exact keepsSize_of_bind (keepsSize_clearChar _ _ _) h
    · cases h
      rfl
  split at h
  · obtain ⟨⟨self₁, buf₁⟩, hline, h⟩ := Option.bind_eq_some_iff.1 h
    exact (keepsSize_of_bind (keepsSize_drawCharAt _ _ _ _) h).trans
      (keepsSize_nextLine _ _ _ _ _ hline)
  · exact keepsSize_of_bind (keepsSize_drawCharAt _ _ _ _) h

theorem keepsSize_writeStr (s : List Char) :
    KeepsSize fun self buf info => self.writeStr buf info s := by
  induction s with
  | nil =>
    intro self buf info self' buf' h
    cases h
    rfl
  | cons c s ih =>
    intro self buf info self' buf' h
    simp only [writeStr, List.foldlM_cons] at h
    obtain ⟨⟨self₁, buf₁⟩, hchar, h⟩ := Option.bind_eq_some_iff.1 h
    exact (ih _ _ _ _ _ h).trans (keepsSize_writeChar c _ _ _ _ _ hchar)

/-! ### Runs -/

/-- What a task can do to its console. -/
inductive Op where
  | writeChar (c : Char)
  | writeStr (s : String)
  | clear
  | drawCursor
  | eraseCursor
  deriving Repr, DecidableEq

/-- One operation on a console and its buffer. -/
def perform (info : FrameBufferInfo) (self : Console × Buf) : Op → Option (Console × Buf)
  | .writeChar c => self.1.writeChar self.2 info c
  | .writeStr s => self.1.writeStr self.2 info s.toList
  | .clear => self.1.clear self.2 info
  | .drawCursor => self.1.drawCursor self.2 info
  | .eraseCursor => self.1.eraseCursor self.2 info

/-- The discipline of the shell: while the cursor is drawn (`shown`) no text operation is
performed, and no carriage return is ever written. -/
def Disciplined : Bool → List Op → Prop
  | _, [] => True
  | shown, .writeChar c :: ops => shown = false ∧ c ≠ '\r' ∧ Disciplined false ops
  | shown, .writeStr s :: ops => shown = false ∧ '\r' ∉ s.toList ∧ Disciplined false ops
  | shown, .clear :: ops => shown = false ∧ Disciplined false ops
  | _, .drawCursor :: ops => Disciplined true ops
  | _, .eraseCursor :: ops => Disciplined false ops

/-- Whether the cursor is drawn after the operation, in a disciplined run. -/
def Op.showsCursor : Op → Bool
  | .drawCursor => true
  | _ => false

omit [BasicFonts] in
theorem Op.foldl_showsCursor_of_getLast? {ops : List Op} (hne : ops.getLast? ≠ some .drawCursor)
    {shown : Bool} (hshown : shown = false) :
    ops.foldl (fun _ op => op.showsCursor) shown = false := by
  rcases List.eq_nil_or_concat ops with rfl | ⟨init, last, rfl⟩
  · exact hshown
  · rw [List.concat_eq_append, List.getLast?_concat] at hne
    rw [List.concat_eq_append, List.foldl_append]
    cases last <;> first | rfl | exact absurd rfl hne

omit [BasicFonts] in
theorem Disciplined.tail {shown : Bool} {op : Op} {ops : List Op}
    (h : Disciplined shown (op :: ops)) : Disciplined op.showsCursor ops := by
  cases op with
  | writeChar c => exact h.2.2
  | writeStr s => exact h.2.2
  | clear => exact h.2
  | drawCursor => exact h
  | eraseCursor => exact h

end Console

end ROs
