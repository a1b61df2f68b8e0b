import ROs.Framebuffer.Draw
import ROs.Mouse.Packet

/-!
# The mouse cursor

`CursorState` of `wm.rs` and the sprite it draws.  The position is a pair of `i32` values that is
cast to `usize` for every pixel access, so its sums are checked (`usize`) wherever the source
adds to them.

Saving the background, drawing the sprite and restoring the background agree cell by cell:
`CursorState.exists_saveBackground` says what is saved, `paints_draw` and
`paints_restoreBackground` what is painted.
-/

namespace ROs

abbrev CURSOR_W : ℕ := 12

abbrev CURSOR_H : ℕ := 16

/-- `CURSOR_SPRITE`: 0 transparent, 1 black, 2 white. -/
def CURSOR_SPRITE : Vector (Vector UInt8 CURSOR_W) CURSOR_H := #v[
  #v[1,0,0,0,0,0,0,0,0,0,0,0],
  #v[1,1,0,0,0,0,0,0,0,0,0,0],
  #v[1,2,1,0,0,0,0,0,0,0,0,0],
  #v[1,2,2,1,0,0,0,0,0,0,0,0],
  #v[1,2,2,2,1,0,0,0,0,0,0,0],
  #v[1,2,2,2,2,1,0,0,0,0,0,0],
  #v[1,2,2,2,2,2,1,0,0,0,0,0],
  #v[1,2,2,2,2,2,2,1,0,0,0,0],
  #v[1,2,2,2,2,2,2,2,1,0,0,0],
  #v[1,2,2,2,2,2,2,2,2,1,0,0],
  #v[1,2,2,2,2,2,1,1,1,1,1,0],
  #v[1,2,2,1,2,2,1,0,0,0,0,0],
  #v[1,2,1,0,1,2,2,1,0,0,0,0],
  #v[1,1,0,0,1,2,2,1,0,0,0,0],
  #v[1,0,0,0,0,1,2,2,1,0,0,0],
  #v[0,0,0,0,0,1,1,1,0,0,0,0]]

/-- `CURSOR_SPRITE[sy][sx]` -/
def spriteCell (sy sx : ℕ) : UInt8 := (CURSOR_SPRITE[sy]?.bind (·[sx]?)).getD 0

/-- The colour of a cell of the sprite. -/
def spriteColor (sy sx : ℕ) : Option Color :=
  match spriteCell sy sx with
  | 1 => some .black
  | 2 => some .white
  | _ => none

/-- A transparent cell has no colour, and only a transparent one. -/
theorem spriteColor_eq_none {sy sx : ℕ} : spriteColor sy sx = none ↔ spriteCell sy sx = 0 := by
  by_cases hy : sy < CURSOR_H
  · by_cases hx : sx < CURSOR_W
    · have h : ∀ (i : Fin CURSOR_H) (j : Fin CURSOR_W),
          spriteColor i j = none ↔ spriteCell i j = 0 := by decide
      exact h ⟨sy, hy⟩ ⟨sx, hx⟩
    · simp [spriteColor, spriteCell, hy, Nat.not_lt.1 hx]
  · simp [spriteColor, spriteCell, Nat.not_lt.1 hy]

/-- `CursorState`. -/
structure CursorState where
  x : ℤ
  y : ℤ
  screenWidth : ℤ
  screenHeight : ℤ
  savedBg : Vector Color (CURSOR_W * CURSOR_H)
  visible : Bool
  deriving Repr, DecidableEq

namespace CursorState

/-- `CursorState::new`. -/
def new (w h : ℕ) : CursorState where
  x := asI32 (w / 2)
  y := asI32 (h / 2)
  screenWidth := asI32 w
  screenHeight := asI32 h
  savedBg := Vector.replicate _ .black
  visible := false

/-- `CursorState::save_background`, cell by cell. -/
def saveBackground (self : CursorState) (buf : Buf) (info : FrameBufferInfo) :
    Option CursorState := do
  let cx := asUsize self.x
  let cy := asUsize self.y
  let savedBg ← Vector.ofFnM fun i : Fin (CURSOR_W * CURSOR_H) => do
    let sy := i.val / CURSOR_W
    let sx := i.val % CURSOR_W
    readPixel buf info (← usize (cx + sx)) (← usize (cy + sy))
  some { self with savedBg }

/-- The double loop over the cells of the sprite that `draw` and `restore_background` share: a
cell is put on the screen if it has a colour. -/
def paintCells (buf : Buf) (info : FrameBufferInfo) (cx cy : ℕ) (cell : ℕ → ℕ → Option Color) :
    Option Buf :=
  (range 0 CURSOR_H).foldlM (fun buf sy => (range 0 CURSOR_W).foldlM (fun buf sx =>
    match cell sy sx with
    | some c => do putPixel buf info (← usize (cx + sx)) (← usize (cy + sy)) c
    | none => some buf) buf) buf

/-- The saved colour of a cell of the sprite that is not transparent. -/
def savedCell (self : CursorState) (sy sx : ℕ) : Option Color :=
  if spriteCell sy sx ≠ 0 then self.savedBg[sy * CURSOR_W + sx]? else none

/-- `CursorState::restore_background`. -/
def restoreBackground (self : CursorState) (buf : Buf) (info : FrameBufferInfo) : Option Buf :=
  if self.visible then
    paintCells buf info (asUsize self.x) (asUsize self.y) self.savedCell
  else
    some buf

/-- `CursorState::draw`. -/
def draw (self : CursorState) (buf : Buf) (info : FrameBufferInfo) : Option Buf :=
  paintCells buf info (asUsize self.x) (asUsize self.y) spriteColor

/-- `i32::clamp`, which panics on an empty interval. -/
def clamp (v lo hi : ℤ) : Option ℤ := if lo ≤ hi then some (max lo (min v hi)) else none

/-- `CursorState::apply_delta`. -/
def applyDelta (self : CursorState) (dx dy : Int16) : Option CursorState := do
  let x ← i32 (self.x + dx.toInt)
  let y ← i32 (self.y - dy.toInt)
  let x ← clamp x 0 (← i32 (self.screenWidth - 1))
  let y ← clamp y 0 (← i32 (self.screenHeight - 1))
  some { self with x, y }

/-! ### What is painted -/

/-- The cells of a sprite at `(cx, cy)`. -/
def cellLayer (cx cy : ℕ) (cell : ℕ → ℕ → Option Color) : Layer (ℕ × ℕ) Color := fun p =>
  if cx ≤ p.1 ∧ p.1 < cx + CURSOR_W ∧ cy ≤ p.2 ∧ p.2 < cy + CURSOR_H then
    cell (p.2 - cy) (p.1 - cx)
  else none

/-- The sprite where the cursor is. -/
def spriteLayer (cur : CursorState) : Layer (ℕ × ℕ) Color :=
  cellLayer (asUsize cur.x) (asUsize cur.y) spriteColor

/-- The coordinates of every cell of the sprite are `usize` values. -/
structure Addressable (cur : CursorState) : Prop where
  x_le : asUsize cur.x + (CURSOR_W - 1) ≤ USIZE_MAX
  y_le : asUsize cur.y + (CURSOR_H - 1) ≤ USIZE_MAX

variable {info : FrameBufferInfo} {n : ℕ} {cur : CursorState}

theorem Addressable.saved (h : cur.Addressable) (savedBg : Vector Color (CURSOR_W * CURSOR_H)) :
    ({ cur with savedBg } : CursorState).Addressable := ⟨h.x_le, h.y_le⟩

theorem paints_paintCells (hf : info.Fits) {cx cy : ℕ} (hx : cx + (CURSOR_W - 1) ≤ USIZE_MAX)
    (hy : cy + (CURSOR_H - 1) ≤ USIZE_MAX) (cell : ℕ → ℕ → Option Color) :
    (info.surface n).Paints (cellLayer cx cy cell) fun buf => paintCells buf info cx cy cell := by
  have hcell : ∀ sy ∈ range 0 CURSOR_H, ∀ sx ∈ range 0 CURSOR_W, (info.surface n).Paints
      (fun p => if p = (cx + sx, cy + sy) then cell sy sx else none) fun buf =>
        match cell sy sx with
        | some c => do putPixel buf info (← usize (cx + sx)) (← usize (cy + sy)) c
        | none => some buf := by
    intro sy hsy sx hsx
    rw [mem_range] at hsy hsx
    cases cell sy sx with
    | none => exact Surface.Paints.skip.congr fun p _ => by simp
    | some c =>
      simp only [usize_of_le (show cx + sx ≤ USIZE_MAX by omega),
        usize_of_le (show cy + sy ≤ USIZE_MAX by omega)]
      exact FrameBufferInfo.paints_putPixel hf (cx + sx, cy + sy) c
  refine Surface.Paints.foldlM_union
    (g := fun sy p => if p.2 = cy + sy ∧ cx ≤ p.1 ∧ p.1 < cx + CURSOR_W then cell sy (p.1 - cx)
      else none)
    (fun sy hsy => Surface.Paints.foldlM_union (hcell sy hsy) fun p _ => ?_) fun p _ => ?_
  · simp only [mem_range, Prod.ext_iff]
    by_cases hin : p.2 = cy + sy ∧ cx ≤ p.1 ∧ p.1 < cx + CURSOR_W
    · refine ⟨fun sx hsx => ?_, .inr ⟨p.1 - cx, by omega, ?_⟩⟩
      · by_cases hp : p.1 = cx + sx
        · rw [if_pos ⟨hp, hin.1⟩, if_pos hin, hp, Nat.add_sub_cancel_left]
          exact .inr rfl
        · exact .inl (if_neg fun h => hp h.1)
      · rw [if_pos ⟨by omega, hin.1⟩, if_pos hin]
    · refine ⟨fun sx hsx => .inl (if_neg fun h => hin ⟨h.2, by omega, by omega⟩), .inl (if_neg hin)⟩
  · simp only [mem_range, cellLayer]
    by_cases hin : cx ≤ p.1 ∧ p.1 < cx + CURSOR_W ∧ cy ≤ p.2 ∧ p.2 < cy + CURSOR_H
    · refine ⟨fun sy hsy => ?_, .inr ⟨p.2 - cy, by omega, ?_⟩⟩
      · by_cases hp : p.2 = cy + sy
        · rw [if_pos ⟨hp, hin.1, hin.2.1⟩, if_pos hin, hp, Nat.add_sub_cancel_left]
          exact .inr rfl
        · exact .inl (if_neg fun h => hp h.1)
      · rw [if_pos ⟨by omega, hin.1, hin.2.1⟩, if_pos hin]
    · refine ⟨fun sy hsy => .inl (if_neg fun h => hin ⟨h.2.1, h.2.2, by omega, by omega⟩),
        .inl (if_neg hin)⟩

/-- The sprite is black and white, which every format shows as they are. -/
theorem map_shown_spriteLayer (p : ℕ × ℕ) :
    (cur.spriteLayer p).map info.shown = cur.spriteLayer p := by
  unfold spriteLayer cellLayer spriteColor
  split
  · split <;> simp
  · rfl

/-- **`draw` paints the sprite.** -/
theorem paints_draw (hf : info.Fits) (h : cur.Addressable) :
    (info.surface n).Paints cur.spriteLayer fun buf => cur.draw buf info :=
  paints_paintCells hf h.x_le h.y_le _

/-- Drawing the cursor, as it is seen. -/
theorem exists_draw (hf : info.Fits) (h : cur.Addressable) (buf : Buf) :
    ∃ buf', cur.draw buf info = some buf' ∧ buf'.size = buf.size ∧
      ∀ p, info.Live buf.size p → info.seen buf' p = (cur.spriteLayer p).getD (info.seen buf p) := by
  obtain ⟨buf', hdraw, hsize, hseen⟩ := FrameBufferInfo.exists_seen_of_paints hf.formatFits
    (paints_draw hf h) (show buf.size = buf.size from rfl)
  refine ⟨buf', hdraw, hsize, fun p hp => ?_⟩
  rw [hseen p hp, map_shown_spriteLayer]

/-- **`restore_background` paints the saved colours** of a visible cursor. -/
theorem paints_restoreBackground (hf : info.Fits) (h : cur.Addressable)
    (hv : cur.visible = true) :
    (info.surface n).Paints (cellLayer (asUsize cur.x) (asUsize cur.y) cur.savedCell)
      fun buf => cur.restoreBackground buf info := by
  simp only [restoreBackground, hv, if_true]
  exact paints_paintCells hf h.x_le h.y_le _

theorem exists_restoreBackground (hf : info.Fits) (h : cur.visible = true → cur.Addressable)
    (buf : Buf) : ∃ buf', cur.restoreBackground buf info = some buf' ∧ buf'.size = buf.size := by
  cases hv : cur.visible with
  | true =>
    obtain ⟨buf', hrestore, hsize, -⟩ := paints_restoreBackground hf (h hv) hv buf rfl
    exact ⟨buf', hrestore, hsize⟩
  | false => exact ⟨buf, by rw [restoreBackground, hv]; rfl, rfl⟩

/-! ### What is saved -/

theorem ofFnM_of_forall {α : Type*} {m : ℕ} {f : Fin m → Option α} {g : Fin m → α}
    (h : ∀ i, f i = some (g i)) : Vector.ofFnM f = some (Vector.ofFn g) := by
  rw [show f = fun i => pure (g i) from funext h]
  exact Vector.ofFnM_pure

theorem isSome_of_ofFnM {α : Type*} {m : ℕ} {f : Fin m → Option α} {v : Vector α m}
    (h : Vector.ofFnM f = some v) (i : Fin m) : (f i).isSome := by
  induction m with
  | zero => exact i.elim0
  | succ m ih =>
    rw [Vector.ofFnM_succ] at h
    obtain ⟨as, has, h⟩ := Option.bind_eq_some_iff.1 h
    obtain ⟨a, ha, -⟩ := Option.bind_eq_some_iff.1 h
    cases i using Fin.lastCases with
    | last => rw [ha]; rfl
    | cast i => exact ih has i

/-- Saving the background changes nothing else. -/
theorem saveBackground_eq_some {buf : Buf} {cur' : CursorState}
    (h : cur.saveBackground buf info = some cur') : ∃ savedBg, cur' = { cur with savedBg } := by
  obtain ⟨savedBg, -, h⟩ := Option.bind_eq_some_iff.1 h
  cases h
  exact ⟨savedBg, rfl⟩

/-- A cursor whose background was saved was addressable. -/
theorem addressable_of_saveBackground {buf : Buf} {cur' : CursorState}
    (h : cur.saveBackground buf info = some cur') : cur.Addressable := by
  obtain ⟨v, hv, -⟩ := Option.bind_eq_some_iff.1 h
  -- the last cell of the sprite
  have hlast := isSome_of_ofFnM hv ⟨CURSOR_W * CURSOR_H - 1, by decide⟩
  obtain ⟨c, hc⟩ := Option.isSome_iff_exists.1 hlast
  obtain ⟨px, hpx, hc⟩ := Option.bind_eq_some_iff.1 hc
  obtain ⟨py, hpy, -⟩ := Option.bind_eq_some_iff.1 hc
  exact ⟨(usize_eq_some.1 hpx).1, (usize_eq_some.1 hpy).1⟩

/-- **`save_background` saves what is seen under the sprite.** -/
theorem exists_saveBackground (hf : info.Fits) (h : cur.Addressable) (buf : Buf) :
    ∃ savedBg, cur.saveBackground buf info = some { cur with savedBg } ∧
      ∀ sy < CURSOR_H, ∀ sx < CURSOR_W, savedBg[sy * CURSOR_W + sx]? =
        some (info.seen buf (asUsize cur.x + sx, asUsize cur.y + sy)) := by
  have hx := h.x_le
  have hy := h.y_le
  have hsave := ofFnM_of_forall (m := CURSOR_W * CURSOR_H)
    (f := fun i => do
      readPixel buf info (← usize (asUsize cur.x + i.val % CURSOR_W))
        (← usize (asUsize cur.y + i.val / CURSOR_W)))
    (g := fun i =>
      info.seen buf (asUsize cur.x + i.val % CURSOR_W, asUsize cur.y + i.val / CURSOR_W))
    fun i => by
      have hcol : i.val % CURSOR_W < CURSOR_W := Nat.mod_lt _ (by decide)
      have hrow : i.val / CURSOR_W < CURSOR_H := Nat.div_lt_of_lt_mul i.isLt
      rw [usize_of_le (by omega), usize_of_le (by omega)]
      exact FrameBufferInfo.readPixel_eq_seen hf buf (_, _)
  refine ⟨_, by rw [saveBackground]; dsimp only; rw [hsave]; rfl, fun sy hsy sx hsx => ?_⟩
  obtain ⟨hlt, hcol, hrow⟩ : sy * CURSOR_W + sx < CURSOR_W * CURSOR_H ∧
      (sy * CURSOR_W + sx) % CURSOR_W = sx ∧ (sy * CURSOR_W + sx) / CURSOR_W = sy := by
    simp only [CURSOR_W, CURSOR_H] at hsy hsx ⊢
    omega
  rw [Vector.getElem?_eq_getElem hlt, Vector.getElem_ofFn]
  simp only [hcol, hrow]

/-! ### Moving -/

/-- The cursor is on the screen, as far as its `i32` sizes describe it. -/
structure Inside (cur : CursorState) : Prop where
  x_nonneg : 0 ≤ cur.x
  x_lt : cur.x < cur.screenWidth
  y_nonneg : 0 ≤ cur.y
  y_lt : cur.y < cur.screenHeight
  width_lt : cur.screenWidth < 2 ^ 31
  height_lt : cur.screenHeight < 2 ^ 31

/-- Every position with non-negative `i32` coordinates is addressable. -/
theorem addressable_of_nonneg (hx : 0 ≤ cur.x) (hx' : cur.x < 2 ^ 31) (hy : 0 ≤ cur.y)
    (hy' : cur.y < 2 ^ 31) : cur.Addressable := by
  have h1 := asUsize_of_nonneg hx hx'
  have h2 := asUsize_of_nonneg hy hy'
  exact ⟨by simp only [CURSOR_W, USIZE_MAX]; omega, by simp only [CURSOR_H, USIZE_MAX]; omega⟩

theorem Inside.addressable (h : cur.Inside) : cur.Addressable :=
  addressable_of_nonneg h.x_nonneg (Int.lt_trans h.x_lt h.width_lt) h.y_nonneg
    (Int.lt_trans h.y_lt h.height_lt)

/-- **Moving the cursor**: it ends inside the screen, and nothing else changes. -/
theorem applyDelta_eq_some {cur' : CursorState} {dx dy : Int16}
    (hw : cur.screenWidth < 2 ^ 31) (hh : cur.screenHeight < 2 ^ 31)
    (h : cur.applyDelta dx dy = some cur') :
    cur'.Inside ∧ cur' = { cur with x := cur'.x, y := cur'.y } := by
  simp only [applyDelta, Option.bind_eq_bind, Option.bind_eq_some_iff, i32_eq_some] at h
  obtain ⟨x, ⟨-, rfl⟩, y, ⟨-, rfl⟩, w, ⟨-, rfl⟩, x, hx, hgt, ⟨-, rfl⟩, y, hy, h⟩ := h
  simp only [clamp, Option.ite_none_right_eq_some, Option.some.injEq] at hx hy
  obtain ⟨hx0, rfl⟩ := hx
  obtain ⟨hy0, rfl⟩ := hy
  cases h
  exact ⟨⟨by dsimp only; omega, by dsimp only; omega, by dsimp only; omega, by dsimp only; omega,
    hw, hh⟩, rfl⟩

/-- Moving the cursor of a screen that leaves room for one movement in `i32`. -/
theorem exists_applyDelta (h : cur.Inside) (hw : cur.screenWidth ≤ 2 ^ 31 - 2 ^ 15)
    (hh : cur.screenHeight ≤ 2 ^ 31 - 2 ^ 15) (dx dy : Int16) :
    ∃ cur', cur.applyDelta dx dy = some cur' := by
  have hx := h.x_nonneg
  have hx' := h.x_lt
  have hy := h.y_nonneg
  have hy' := h.y_lt
  have h1 := dx.le_toInt
  have h2 := dx.toInt_lt
  have h3 := dy.le_toInt
  have h4 := dy.toInt_lt
  simp only [applyDelta]
  rw [i32_of_mem (by omega) (by omega), i32_of_mem (by omega) (by omega),
    i32_of_mem (by omega) (by omega), i32_of_mem (by omega) (by omega)]
  simp only [clamp, Option.bind_eq_bind, Option.bind_some]
  rw [if_pos (by omega), if_pos (by omega)]
  exact ⟨_, rfl⟩

end CursorState

end ROs
