import ROs.Framebuffer.Sheet

/-!
# The character grid

What a console is for: a matrix of cells, each blank or a character, and a position (`Grid`).
The bounds of the position are fields, so a position outside the grid cannot be built.  Every
operation keeps all cells from the position on blank (`Grid.BlankFrom`), which is why characters
can be drawn without clearing their cell first.  `Grid.colorAt` is the picture of a grid.

A grid is a sheet with at most one character in each cell (`Grid.toSheet`).  As long as there are
no carriage returns, characters do to both the same (`Grid.toSheet_writeChar`), and are printed in
blank cells (`Grid.target_of_not_mem`).
-/

namespace ROs

/-- A matrix of cells, each blank or a character, and a position. -/
@[ext]
structure Grid (rows cols : ℕ) where
  cell : ℕ → ℕ → Option Char
  row : ℕ
  col : ℕ
  cell_eq_none : ∀ i j, ¬ (i < rows ∧ j < cols) → cell i j = none
  row_lt : row < rows
  col_le : col ≤ cols
  cols_pos : 0 < cols

namespace Grid

variable {rows cols : ℕ}

/-- The blank grid, at its first cell. -/
def blank (hrows : 0 < rows) (hcols : 0 < cols) : Grid rows cols where
  cell _ _ := none
  row := 0
  col := 0
  cell_eq_none _ _ _ := rfl
  row_lt := hrows
  col_le := Nat.zero_le _
  cols_pos := hcols

/-- The start of the next row; from the last row, the top row is dropped and a blank one appended. -/
def newline (g : Grid rows cols) : Grid rows cols :=
  if h : g.row + 1 < rows then
    { g with row := g.row + 1, col := 0, row_lt := h, col_le := Nat.zero_le _ }
  else
    { g with
      cell := fun i j => g.cell (i + 1) j
      col := 0
      cell_eq_none := fun i j hij => g.cell_eq_none _ _ fun h => hij ⟨by omega, h.2⟩
      col_le := Nat.zero_le _ }

/-- One cell back, which is blanked; nothing at the start of a row. -/
def backspace (g : Grid rows cols) : Grid rows cols :=
  { g with
    cell := fun i j => if g.col > 0 ∧ i = g.row ∧ j = g.col - 1 then none else g.cell i j
    col := g.col - 1
    cell_eq_none := fun i j hij => by rw [g.cell_eq_none i j hij, ite_self]
    col_le := Nat.le_trans (Nat.sub_le _ _) g.col_le }

/-- The grid with room for a character at its position. -/
def wrap (g : Grid rows cols) : Grid rows cols := if g.col < cols then g else g.newline

theorem backspace_of_col_eq_zero {g : Grid rows cols} (h : g.col = 0) : g.backspace = g := by
  refine Grid.ext ?_ rfl ?_
  · funext i j
    exact if_neg fun hij => Nat.ne_of_gt hij.1 h
  · simp only [backspace, h]

theorem newline_col (g : Grid rows cols) : g.newline.col = 0 := by
  unfold newline
  split <;> rfl

theorem wrap_col_lt (g : Grid rows cols) : g.wrap.col < cols := by
  unfold wrap
  split
  · assumption
  · rw [newline_col]
    exact g.cols_pos

/-- A character at the position, or at the start of the next row if this one is full. -/
def put (g : Grid rows cols) (c : Char) : Grid rows cols :=
  { g.wrap with
    cell := fun i j => if i = g.wrap.row ∧ j = g.wrap.col then some c else g.wrap.cell i j
    col := g.wrap.col + 1
    cell_eq_none := fun i j hij => by
      have hrow := g.wrap.row_lt
      have hcol := g.wrap_col_lt
      rw [if_neg (by omega), g.wrap.cell_eq_none i j hij]
    col_le := g.wrap_col_lt }

/-- What a character does to the grid. -/
def writeChar (g : Grid rows cols) (c : Char) : Grid rows cols :=
  if c = '\n' then g.newline else if c = '\x08' then g.backspace else g.put c

/-- Everything is blanked, and the position is the first cell again. -/
def clear (g : Grid rows cols) : Grid rows cols :=
  blank (Nat.zero_lt_of_lt g.row_lt) g.cols_pos

/-- What a console operation means: the cursor is no part of the grid. -/
def perform (g : Grid rows cols) : Console.Op → Grid rows cols
  | .writeChar c => g.writeChar c
  | .writeStr s => s.toList.foldl writeChar g
  | .clear => g.clear
  | .drawCursor | .eraseCursor => g

/-- Every cell from the position on is blank. -/
def BlankFrom (g : Grid rows cols) : Prop :=
  ∀ i j, g.row < i ∨ g.row = i ∧ g.col ≤ j → g.cell i j = none

theorem blankFrom_blank (hrows : 0 < rows) (hcols : 0 < cols) : (blank hrows hcols).BlankFrom :=
  fun _ _ _ => rfl

theorem BlankFrom.newline {g : Grid rows cols} (h : g.BlankFrom) : g.newline.BlankFrom := by
  intro i j hij
  unfold Grid.newline at hij ⊢
  split at hij <;> rename_i hrow
  · rw [dif_pos hrow]
    exact h i j (.inl (by dsimp only at hij; omega))
  · rw [dif_neg hrow]
    exact h _ j (.inl (by dsimp only at hij; omega))

theorem BlankFrom.backspace {g : Grid rows cols} (h : g.BlankFrom) : g.backspace.BlankFrom := by
  intro i j hij
  simp only [Grid.backspace] at hij ⊢
  split
  · rfl
  · exact h i j (by omega)

theorem BlankFrom.wrap {g : Grid rows cols} (h : g.BlankFrom) : g.wrap.BlankFrom := by
  unfold Grid.wrap
  split
  · exact h
  · exact h.newline

theorem BlankFrom.put {g : Grid rows cols} (h : g.BlankFrom) (c : Char) : (g.put c).BlankFrom := by
  intro i j hij
  simp only [Grid.put] at hij ⊢
  rw [if_neg (by omega)]
  exact h.wrap i j (by omega)

theorem BlankFrom.puts {g : Grid rows cols} (h : g.BlankFrom) (s : List Char) :
    (s.foldl Grid.put g).BlankFrom := by
  induction s generalizing g with
  | nil => exact h
  | cons c s ih => exact ih (h.put c)

end Grid

/-! ### The picture of a grid -/

/-- The colour of point `p` of the content rectangle: white where a character has ink. -/
def Grid.colorAt [BasicFonts] {rows cols : ℕ} (g : Grid rows cols) (content : Rect) (p : ℕ × ℕ) :
    Color :=
  let (i, j) := cellOf content p
  match g.cell i j with
  | some ch =>
    if GlyphOn (content.x + j * FONT_WIDTH) (content.y + i * FONT_HEIGHT) ch p then .white else .black
  | none => .black

/-! ### The grid as a sheet -/

namespace Grid

variable {rows cols : ℕ} {g : Grid rows cols}

/-- The sheet with the characters of the grid. -/
def toSheet (g : Grid rows cols) : Sheet rows cols where
  cell i j := (g.cell i j).toList
  row := g.row
  col := g.col
  cell_eq_nil i j hij := by rw [g.cell_eq_none i j hij, Option.toList_none]
  row_lt := g.row_lt
  col_le := g.col_le
  cols_pos := g.cols_pos

theorem toSheet_blank (hrows : 0 < rows) (hcols : 0 < cols) :
    (blank hrows hcols).toSheet = Sheet.blank hrows hcols := rfl

theorem toSheet_newline (g : Grid rows cols) : g.newline.toSheet = g.toSheet.newline := by
  by_cases h : g.row + 1 < rows
  · have h' : g.toSheet.row + 1 < rows := h
    rw [newline, dif_pos h, Sheet.newline, dif_pos h']
    rfl
  · have h' : ¬ g.toSheet.row + 1 < rows := h
    rw [newline, dif_neg h, Sheet.newline, dif_neg h']
    rfl

theorem toSheet_backspace (g : Grid rows cols) : g.backspace.toSheet = g.toSheet.backspace := by
  refine Sheet.ext ?_ rfl rfl
  funext i j
  exact apply_ite Option.toList _ _ _

theorem toSheet_wrap (g : Grid rows cols) : g.wrap.toSheet = g.toSheet.wrap := by
  by_cases h : g.col < cols
  · have h' : g.toSheet.col < cols := h
    rw [wrap, if_pos h, Sheet.wrap, if_pos h']
  · have h' : ¬ g.toSheet.col < cols := h
    rw [wrap, if_neg h, Sheet.wrap, if_neg h', toSheet_newline]

/-- The next character is printed in a blank cell. -/
theorem BlankFrom.target (h : g.BlankFrom) : g.toSheet.target = [] := by
  rw [Sheet.target, ← toSheet_wrap]
  change (g.wrap.cell g.wrap.row g.wrap.col).toList = []
  rw [h.wrap _ _ (.inr ⟨rfl, Nat.le_refl _⟩), Option.toList_none]

theorem toSheet_put (h : g.BlankFrom) (c : Char) : (g.put c).toSheet = g.toSheet.put c := by
  have hblank := h.target
  rw [Sheet.target, ← toSheet_wrap] at hblank
  refine Sheet.ext ?_ ?_ ?_
  · funext i j
    simp only [Sheet.put, ← toSheet_wrap]
    change (if i = g.wrap.row ∧ j = g.wrap.col then some c else g.wrap.cell i j).toList = _
    rw [apply_ite Option.toList]
    refine if_ctx_congr Iff.rfl (fun hij => ?_) fun _ => rfl
    rw [hij.1, hij.2]
    exact (congrArg (· ++ [c]) hblank).symm
  · simp only [Sheet.put, ← toSheet_wrap]
    rfl
  · simp only [Sheet.put, ← toSheet_wrap]
    rfl

theorem BlankFrom.writeChar (h : g.BlankFrom) (c : Char) : (g.writeChar c).BlankFrom := by
  unfold Grid.writeChar
  split
  · exact h.newline
  · split
    · exact h.backspace
    · exact h.put c

/-- **Without a carriage return, nothing is overprinted.** -/
theorem toSheet_writeChar (h : g.BlankFrom) {c : Char} (hc : c ≠ '\r') :
    (g.writeChar c).toSheet = g.toSheet.writeChar c := by
  unfold writeChar Sheet.writeChar
  by_cases hn : c = '\n'
  · rw [if_pos hn, if_pos hn, toSheet_newline]
  rw [if_neg hn, if_neg hn, if_neg hc]
  by_cases hb : c = '\x08'
  · rw [if_pos hb, if_pos hb, toSheet_backspace]
  · rw [if_neg hb, if_neg hb, toSheet_put h]

/-- The same for a text. -/
theorem toSheet_foldl_writeChar (h : g.BlankFrom) {cs : List Char} (hcs : '\r' ∉ cs) :
    (cs.foldl writeChar g).BlankFrom ∧
      (cs.foldl writeChar g).toSheet = cs.foldl Sheet.writeChar g.toSheet := by
  induction cs generalizing g with
  | nil => exact ⟨h, rfl⟩
  | cons c cs ih =>
    rw [List.mem_cons, not_or] at hcs
    rw [List.foldl_cons, List.foldl_cons, ← toSheet_writeChar h (Ne.symm hcs.1)]
    exact ih (h.writeChar c) hcs.2

/-- Without a carriage return every character is printed in a blank cell. -/
theorem target_of_not_mem (hrows : 0 < rows) (hcols : 0 < cols) {cs : List Char}
    (hcs : '\r' ∉ cs) : (cs.foldl Sheet.writeChar (Sheet.blank hrows hcols)).target = [] := by
  obtain ⟨hblank, hsheet⟩ := toSheet_foldl_writeChar (blankFrom_blank hrows hcols) hcs
  rw [← toSheet_blank, ← hsheet]
  exact hblank.target

/-- The two pictures agree. -/
theorem colorAt_toSheet [BasicFonts] (g : Grid rows cols) (content : Rect) (p : ℕ × ℕ) :
    g.toSheet.colorAt content p = g.colorAt content p := by
  rcases Option.eq_none_or_eq_some (g.cell (cellOf content p).1 (cellOf content p).2) with h | ⟨ch, h⟩
  · simp [Sheet.colorAt, Grid.colorAt, InkOn, toSheet, h]
  · simp [Sheet.colorAt, Grid.colorAt, InkOn, toSheet, h]

end Grid

end ROs
