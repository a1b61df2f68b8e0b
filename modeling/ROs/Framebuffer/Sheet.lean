import ROs.Framebuffer.Console

/-!
# Overprinted cells

A character is drawn on what its cell shows already: only the ink of the glyph is painted.  A
`Sheet` is a matrix of cells that remembers this.  Each cell holds all characters printed in it
since it was last blanked, like the paper of a typewriter, and shows the ink of all of them.

A carriage return is what makes the difference: it takes the position back over characters that
stay.  A cell that is blank when a character is printed shows that character only; so does one
where the ink of the old characters lies within that of the new one (`InkWithin`).
-/

namespace ROs

/-- The cell that point `p` of the content rectangle lies in, as row and column. -/
def cellOf (content : Rect) (p : ℕ × ℕ) : ℕ × ℕ :=
  ((p.2 - content.y) / FONT_HEIGHT, (p.1 - content.x) / FONT_WIDTH)

/-- The rectangle of the cell in row `i` and column `j`. -/
def cellRect (content : Rect) (i j : ℕ) : Rect :=
  ⟨content.x + j * FONT_WIDTH, content.y + i * FONT_HEIGHT, FONT_WIDTH, FONT_HEIGHT⟩

/-- A point of the content rectangle lies in its cell, and in no other. -/
theorem cellOf_eq {content : Rect} {p : ℕ × ℕ} (hp : content.Contains p) {i j : ℕ} :
    cellOf content p = (i, j) ↔ (cellRect content i j).Contains p := by
  obtain ⟨hx, -, hy, -⟩ := hp
  simp only [cellOf, cellRect, Rect.Contains, Prod.mk.injEq, FONT_WIDTH, FONT_HEIGHT, FONT_SCALE_X,
    FONT_SCALE_Y]
  omega

/-- The characters that can be printed: `write_char` does something else with the other three. -/
def Printable (c : Char) : Prop := c ≠ '\n' ∧ c ≠ '\r' ∧ c ≠ '\x08'

instance : DecidablePred Printable := fun _ => inferInstanceAs (Decidable (_ ∧ _))

/-- A matrix of cells with the characters printed in each of them, and a position. -/
@[ext]
structure Sheet (rows cols : ℕ) where
  cell : ℕ → ℕ → List Char
  row : ℕ
  col : ℕ
  cell_eq_nil : ∀ i j, ¬ (i < rows ∧ j < cols) → cell i j = []
  row_lt : row < rows
  col_le : col ≤ cols
  cols_pos : 0 < cols

namespace Sheet

variable {rows cols : ℕ}

/-- The blank sheet, at its first cell. -/
def blank (hrows : 0 < rows) (hcols : 0 < cols) : Sheet rows cols where
  cell _ _ := []
  row := 0
  col := 0
  cell_eq_nil _ _ _ := rfl
  row_lt := hrows
  col_le := Nat.zero_le _
  cols_pos := hcols

/-- The start of the next row; from the last row, the top row is dropped and a blank one appended. -/
def newline (s : Sheet rows cols) : Sheet rows cols :=
  if h : s.row + 1 < rows then
    { s with row := s.row + 1, col := 0, row_lt := h, col_le := Nat.zero_le _ }
  else
    { s with
      cell := fun i j => s.cell (i + 1) j
      col := 0
      cell_eq_nil := fun i j hij => s.cell_eq_nil _ _ fun h => hij ⟨by omega, h.2⟩
      col_le := Nat.zero_le _ }

/-- The start of the row, whatever is printed there. -/
def carriageReturn (s : Sheet rows cols) : Sheet rows cols :=
  { s with col := 0, col_le := Nat.zero_le _ }

/-- One cell back, which is blanked; nothing at the start of a row. -/
def backspace (s : Sheet rows cols) : Sheet rows cols :=
  { s with
    cell := fun i j => if s.col > 0 ∧ i = s.row ∧ j = s.col - 1 then [] else s.cell i j
    col := s.col - 1
    cell_eq_nil := fun i j hij => by rw [s.cell_eq_nil i j hij, ite_self]
    col_le := Nat.le_trans (Nat.sub_le _ _) s.col_le }

/-- The sheet with room for a character at its position. -/
def wrap (s : Sheet rows cols) : Sheet rows cols := if s.col < cols then s else s.newline

theorem newline_col (s : Sheet rows cols) : s.newline.col = 0 := by
  unfold newline
  split <;> rfl

theorem wrap_col_lt (s : Sheet rows cols) : s.wrap.col < cols := by
  unfold wrap
  split
  · assumption
  · rw [newline_col]
    exact s.cols_pos

/-- A character over what the cell at the position holds, or at the start of the next row if this
one is full. -/
def put (s : Sheet rows cols) (c : Char) : Sheet rows cols :=
  { s.wrap with
    cell := fun i j =>
      if i = s.wrap.row ∧ j = s.wrap.col then s.wrap.cell i j ++ [c] else s.wrap.cell i j
    col := s.wrap.col + 1
    cell_eq_nil := fun i j hij => by
      have hrow := s.wrap.row_lt
      have hcol := s.wrap_col_lt
      rw [if_neg (by omega), s.wrap.cell_eq_nil i j hij]
    col_le := s.wrap_col_lt }

/-- What a character does to the sheet. -/
def writeChar (s : Sheet rows cols) (c : Char) : Sheet rows cols :=
  if c = '\n' then s.newline
  else if c = '\r' then s.carriageReturn
  else if c = '\x08' then s.backspace
  else s.put c

/-- The characters in the cell that the next character is printed in. -/
def target (s : Sheet rows cols) : List Char := s.wrap.cell s.wrap.row s.wrap.col

theorem put_cell_target (s : Sheet rows cols) (c : Char) :
    (s.put c).cell s.wrap.row s.wrap.col = s.target ++ [c] := if_pos ⟨rfl, rfl⟩

end Sheet

/-! ### The picture of a sheet -/

/-- One of the characters printed on each other at `(x0, y0)` has ink at `p`. -/
def InkOn [BasicFonts] (x0 y0 : ℕ) (chars : List Char) (p : ℕ × ℕ) : Prop :=
  ∃ ch ∈ chars, GlyphOn x0 y0 ch p

instance [BasicFonts] (x0 y0 : ℕ) (chars : List Char) : DecidablePred (InkOn x0 y0 chars) :=
  fun p => List.decidableBEx (GlyphOn x0 y0 · p) chars

/-- One more character adds its ink. -/
theorem inkOn_concat [BasicFonts] {x0 y0 : ℕ} {chars : List Char} {c : Char} {p : ℕ × ℕ} :
    InkOn x0 y0 (chars ++ [c]) p ↔ InkOn x0 y0 chars p ∨ GlyphOn x0 y0 c p := by
  simp only [InkOn, List.mem_append, List.mem_singleton, or_and_right, exists_or, exists_eq_left]

/-- The colour of point `p` of the content rectangle: white where a character has ink. -/
def Sheet.colorAt [BasicFonts] {rows cols : ℕ} (s : Sheet rows cols) (content : Rect)
    (p : ℕ × ℕ) : Color :=
  let (i, j) := cellOf content p
  if InkOn (content.x + j * FONT_WIDTH) (content.y + i * FONT_HEIGHT) (s.cell i j) p then
    .white
  else
    .black

/-- The ink of `ch` lies within that of `c`. -/
def InkWithin [BasicFonts] (ch c : Char) : Prop :=
  ∀ k < 8, ∀ i < 8, bitOn ((glyph ch)[k]?.getD 0) i → bitOn ((glyph c)[k]?.getD 0) i

instance [BasicFonts] (ch c : Char) : Decidable (InkWithin ch c) :=
  inferInstanceAs (Decidable (∀ k < 8, ∀ i < 8, _ → _))

/-- The glyph of `c` alone on the cell at `(x0, y0)`. -/
def glyphColor [BasicFonts] (x0 y0 : ℕ) (c : Char) (p : ℕ × ℕ) : Color :=
  if GlyphOn x0 y0 c p then .white else .black

end ROs
