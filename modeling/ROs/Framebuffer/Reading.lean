import ROs.Framebuffer.Grid

/-!
# A grid in reading order

The cells of a grid, read left to right and row by row, form one line (`Grid.read`), in which the
position is a number (`Grid.pos`).  `Grid.Printed g c text` says that `text` stands right before
the position and was begun in column `c`.  Printing a character appends it, also when the grid
scrolls, as long as the text fits into the grid from its first row on (`Printed.put`).  A
backspace removes the last character (`Printed.backspace`), except in column 0, where it does
nothing (`backspace_of_col_eq_zero`): the last character is then at the end of the row above.
-/

namespace ROs

namespace Grid

variable {rows cols : ℕ} {g g' : Grid rows cols} {c k : ℕ} {text : List Char}

/-- The number of cells before the position.  At the end of a full row it is that of the cells
before the next row. -/
def pos (g : Grid rows cols) : ℕ := g.row * cols + g.col

/-- The `k`-th cell. -/
def read (g : Grid rows cols) (k : ℕ) : Option Char := g.cell (k / cols) (k % cols)

/-- Cell `(i, j)` is the `k`-th one. -/
theorem div_mod_iff {i j : ℕ} (hj : j < cols) : k / cols = i ∧ k % cols = j ↔ k = i * cols + j := by
  constructor
  · rintro ⟨rfl, rfl⟩
    rw [Nat.mul_comm]
    exact (Nat.div_add_mod k cols).symm
  · rintro rfl
    have hcols : 0 < cols := Nat.zero_lt_of_lt hj
    rw [Nat.add_comm, Nat.mul_comm, Nat.add_mul_div_left j i hcols, Nat.add_mul_mod_self_left]
    rw [Nat.div_eq_of_lt hj, Nat.mod_eq_of_lt hj]
    omega

/-- Nothing is written from the position on. -/
theorem BlankFrom.read_eq_none (h : g.BlankFrom) (hk : g.pos ≤ k) : g.read k = none := by
  have hcols := g.cols_pos
  have hmod := Nat.mod_lt k hcols
  have hdiv := Nat.div_add_mod' k cols
  apply h
  -- the row of the cell is not above that of the position
  have hrow : g.row ≤ k / cols :=
    (Nat.le_div_iff_mul_le hcols).2 (Nat.le_trans (Nat.le_add_right _ _) hk)
  rcases Nat.lt_or_eq_of_le hrow with hlt | heq
  · exact .inl hlt
  · refine .inr ⟨heq, ?_⟩
    unfold pos at hk
    rw [← heq] at hdiv
    omega

/-! ### The operations in reading order -/

/-- Making room either moves nothing or scrolls one row away. -/
theorem wrap_cases (g : Grid rows cols) :
    (g.wrap.pos = g.pos ∧ ∀ k, g.wrap.read k = g.read k) ∨
      (g.pos = rows * cols ∧ g.wrap.pos + cols = g.pos ∧
        ∀ k, g.wrap.read k = g.read (k + cols)) := by
  have hcol := g.col_le
  have hrowlt := g.row_lt
  unfold wrap
  split
  · exact .inl ⟨rfl, fun _ => rfl⟩
  · have hfull : g.col = cols := by omega
    unfold newline
    split
    · refine .inl ⟨?_, fun _ => rfl⟩
      simp only [pos, hfull]
      rw [Nat.succ_mul]
      omega
    · have hlast : rows = g.row + 1 := by omega
      refine .inr ⟨?_, ?_, fun k => ?_⟩
      · have : rows * cols = (g.row + 1) * cols := congrArg (· * cols) hlast
        rw [this, Nat.succ_mul, pos, hfull]
      · simp only [pos, hfull]
        omega
      · simp only [read]
        rw [Nat.add_div_right k g.cols_pos, Nat.add_mod_right]

theorem pos_put (g : Grid rows cols) (ch : Char) : (g.put ch).pos = g.wrap.pos + 1 := rfl

theorem read_put (g : Grid rows cols) (ch : Char) (k : ℕ) :
    (g.put ch).read k = if k = g.wrap.pos then some ch else g.wrap.read k := by
  exact if_congr (div_mod_iff g.wrap_col_lt) rfl rfl

theorem pos_backspace (h : 0 < g.col) : g.backspace.pos + 1 = g.pos := by
  simp only [backspace, pos]
  omega

theorem read_backspace (h : 0 < g.col) (k : ℕ) :
    g.backspace.read k = if k + 1 = g.pos then none else g.read k := by
  have hcol := g.col_le
  simp only [read, backspace, pos]
  refine if_congr ?_ rfl rfl
  rw [div_mod_iff (by omega : g.col - 1 < cols)]
  omega

/-- Backspace, space, backspace: the space is blanked again. -/
theorem writeChar_rubout (h : g.BlankFrom) :
    ['\x08', ' ', '\x08'].foldl writeChar g = g.backspace := by
  have hcols := g.cols_pos
  have hcolle := g.col_le
  have hcol : g.backspace.col < cols := by
    simp only [backspace]
    omega
  have hwrap : g.backspace.wrap = g.backspace := if_pos hcol
  change ((g.writeChar '\x08').writeChar ' ').writeChar '\x08' = _
  have h1 : g.writeChar '\x08' = g.backspace := by simp [writeChar]
  have h2 : g.backspace.writeChar ' ' = g.backspace.put ' ' := by simp [writeChar]
  have h3 : (g.backspace.put ' ').writeChar '\x08' = (g.backspace.put ' ').backspace := by
    simp [writeChar]
  have hblank : g.backspace.cell g.backspace.row g.backspace.col = none :=
    h.backspace _ _ (.inr ⟨rfl, Nat.le_refl _⟩)
  rw [h1, h2, h3]
  generalize g.backspace = b at hcol hwrap hblank
  refine Grid.ext ?_ ?_ ?_
  · funext i j
    simp only [backspace, put, hwrap]
    split
    · rename_i hij
      rw [hij.2.1, hij.2.2]
      exact hblank.symm
    · rename_i hij
      exact if_neg fun h => hij ⟨Nat.succ_pos _, h.1, h.2⟩
  · simp only [backspace, put, hwrap]
  · simp only [backspace, put, hwrap, Nat.add_sub_cancel]

/-! ### Text -/

/-- `text` stands right before the position, and its first cell is in column `c`. -/
def Printed (g : Grid rows cols) (c : ℕ) (text : List Char) : Prop :=
  ∃ k, k % cols = c ∧ g.pos = k + text.length ∧ ∀ i < text.length, g.read (k + i) = text[i]?

theorem printed_nil (g : Grid rows cols) : g.Printed (g.col % cols) [] :=
  ⟨g.pos, by rw [pos, Nat.mul_comm, Nat.mul_add_mod], rfl,
    fun i hi => absurd hi (Nat.not_lt_zero i)⟩

/-- Making room keeps the text: a text that fits into the grid from its first row on cannot reach
from the top row to the end of the grid. -/
theorem Printed.wrap (h : g.Printed c text) (hroom : c + text.length < rows * cols) :
    g.wrap.Printed c text := by
  obtain ⟨k, rfl, hpos, hread⟩ := h
  rcases g.wrap_cases with ⟨hpos', hread'⟩ | ⟨hfull, hpos', hread'⟩
  · exact ⟨k, rfl, hpos'.trans hpos, fun i hi => (hread' _).trans (hread i hi)⟩
  · have htop : cols ≤ k := by
      by_contra hlt
      rw [Nat.mod_eq_of_lt (Nat.not_le.1 hlt)] at hroom
      omega
    refine ⟨k - cols, (Nat.mod_eq_sub_mod htop).symm, by omega, fun i hi => ?_⟩
    rw [hread', show k - cols + i + cols = k + i by omega]
    exact hread i hi

/-- **Printing a character appends it to the text**, which may move up by a row. -/
theorem Printed.put (h : g.Printed c text) (hroom : c + text.length < rows * cols) (ch : Char) :
    (g.put ch).Printed c (text ++ [ch]) := by
  obtain ⟨k, hk, hpos, hread⟩ := h.wrap hroom
  refine ⟨k, hk, ?_, fun i hi => ?_⟩
  · rw [pos_put, hpos, List.length_append, List.length_singleton, Nat.add_assoc]
  · rw [List.length_append, List.length_singleton] at hi
    rw [read_put, hpos]
    by_cases hlast : i = text.length
    · rw [hlast, if_pos rfl, List.getElem?_concat_length]
    · rw [if_neg (by omega), hread i (by omega), List.getElem?_append_left (by omega)]

/-- A backspace removes the last character, unless it is at the end of the row above. -/
theorem Printed.backspace {ch : Char} (h : g.Printed c (text ++ [ch])) (hcol : 0 < g.col) :
    g.backspace.Printed c text := by
  obtain ⟨k, hk, hpos, hread⟩ := h
  rw [List.length_append, List.length_singleton] at hpos hread
  have hpos' := pos_backspace hcol
  refine ⟨k, hk, by omega, fun i hi => ?_⟩
  rw [read_backspace hcol, if_neg (by omega), hread i (by omega), List.getElem?_append_left hi]

/-- Printing a string without control characters. -/
theorem Printed.puts (h : g.Printed c text) {s : List Char}
    (hroom : c + (text.length + s.length) ≤ rows * cols) :
    (s.foldl Grid.put g).Printed c (text ++ s) := by
  induction s generalizing g text with
  | nil => rwa [List.append_nil]
  | cons ch s ih =>
    rw [List.length_cons] at hroom
    have h' := h.put (by omega) ch
    have := ih h' (by rw [List.length_append, List.length_singleton]; omega)
    rwa [List.append_assoc] at this

theorem Printed.tail {ch : Char} (h : g.Printed c (ch :: text)) : ∃ c', g.Printed c' text := by
  obtain ⟨k, -, hpos, hread⟩ := h
  rw [List.length_cons] at hpos hread
  refine ⟨_, k + 1, rfl, by omega, fun i hi => ?_⟩
  rw [Nat.add_assoc, Nat.add_comm 1 i, hread (i + 1) (by omega), List.getElem?_cons_succ]

/-- What stands before the position is determined by its length. -/
theorem Printed.eq_of_length_eq {c' : ℕ} {text' : List Char} (h : g.Printed c text)
    (h' : g.Printed c' text') (hlen : text.length = text'.length) : text = text' := by
  obtain ⟨k, -, hpos, hread⟩ := h
  obtain ⟨k', -, hpos', hread'⟩ := h'
  obtain rfl : k = k' := by omega
  refine List.ext_getElem? fun i => ?_
  by_cases hi : i < text.length
  · rw [← hread i hi, hread' i (hlen ▸ hi)]
  · rw [List.getElem?_eq_none (by omega), List.getElem?_eq_none (by omega)]

end Grid

end ROs
