import ROs.Framebuffer.Pixel

/-!
# Rectangles, text and the background

The drawing functions of `framebuffer.rs`: `fill_rect`, `draw_rect_outline`, `draw_background`,
`draw_char_at` and `draw_text`.

Each function that is built from `put_pixel` alone paints one layer on every buffer of the right
length, whatever the buffer holds: `paints_fillRect`, `paints_drawRectOutline`,
`paints_drawCharAt`, `paints_drawText`.  `draw_background` computes its colours in 32-bit
arithmetic that overflows on very high screens; when it succeeds it keeps the length of the
buffer (`keepsSize_drawBackground`).

The glyphs of the `font8x8` crate are a parameter, `BasicFonts`.
-/

namespace ROs

/-- `a..b` -/
def range (a b : ℕ) : List ℕ := List.range' a (b - a)

theorem mem_range {a b i : ℕ} : i ∈ range a b ↔ a ≤ i ∧ i < b := by
  rw [range, List.mem_range'_1]
  omega

/-- `Rect`. -/
structure Rect where
  x : ℕ
  y : ℕ
  width : ℕ
  height : ℕ
  deriving Repr, DecidableEq

namespace Rect

/-- The points of the rectangle. -/
def Contains (rect : Rect) (p : ℕ × ℕ) : Prop :=
  rect.x ≤ p.1 ∧ p.1 < rect.x + rect.width ∧ rect.y ≤ p.2 ∧ p.2 < rect.y + rect.height

instance (rect : Rect) : DecidablePred rect.Contains := fun _ => inferInstanceAs (Decidable (_ ∧ _))

end Rect

/-! ### Rectangles -/

/-- A rectangle has no pixels above its upper edge. -/
theorem fill_contains_eq_none {rect : Rect} {p : ℕ × ℕ} (hp : p.2 < rect.y) (c : Color) :
    Layer.fill rect.Contains c p = none :=
  if_neg fun h => Nat.not_le_of_lt hp h.2.2.1

/-- `fill_rect`. -/
def fillRect (buf : Buf) (info : FrameBufferInfo) (x y width height : ℕ) (c : Color) :
    Option Buf :=
  let xEnd := min (saturatingAdd x width) info.width
  let yEnd := min (saturatingAdd y height) info.height
  (range y yEnd).foldlM (fun buf py =>
    (range x xEnd).foldlM (fun buf px => putPixel buf info px py c) buf) buf

/-- `draw_rect_outline`. -/
def drawRectOutline (buf : Buf) (info : FrameBufferInfo) (rect : Rect) (c : Color) : Option Buf :=
  if rect.width = 0 ∨ rect.height = 0 then
    some buf
  else do
    let xEnd := min (saturatingAdd rect.x rect.width) info.width
    let yEnd := min (saturatingAdd rect.y rect.height) info.height
    let xLast := xEnd - 1
    let yLast := yEnd - 1
    let buf ← (range rect.x (xLast + 1)).foldlM (fun buf x => do
      let buf ← putPixel buf info x rect.y c
      putPixel buf info x yLast c) buf
    (range rect.y (yLast + 1)).foldlM (fun buf y => do
      let buf ← putPixel buf info rect.x y c
      putPixel buf info xLast y c) buf

/-- The edges of a rectangle, as far as they are on the screen. -/
def OutlineOn (info : FrameBufferInfo) (rect : Rect) (p : ℕ × ℕ) : Prop :=
  let xLast := min (rect.x + rect.width) info.width - 1
  let yLast := min (rect.y + rect.height) info.height - 1
  rect.width ≠ 0 ∧ rect.height ≠ 0 ∧
    (rect.x ≤ p.1 ∧ p.1 ≤ xLast ∧ (p.2 = rect.y ∨ p.2 = yLast) ∨
      rect.y ≤ p.2 ∧ p.2 ≤ yLast ∧ (p.1 = rect.x ∨ p.1 = xLast))

instance (info : FrameBufferInfo) (rect : Rect) : DecidablePred (OutlineOn info rect) :=
  fun _ => inferInstanceAs (Decidable (_ ∧ _))

variable {info : FrameBufferInfo} {n : ℕ}

/-- **`fill_rect` paints its rectangle.** -/
theorem paints_fillRect (h : info.Fits) (x y width height : ℕ) (c : Color) :
    (info.surface n).Paints (Layer.fill (Rect.mk x y width height).Contains c)
      fun buf => fillRect buf info x y width height c := by
  have hw := h.width_le
  have hh := h.height_le
  refine Surface.Paints.foldlM_fill
    (s := fun py p => p.2 = py ∧ x ≤ p.1 ∧ p.1 < min (saturatingAdd x width) info.width)
    (fun py _ => Surface.Paints.foldlM_fill (s := fun px p => p = (px, py))
      (fun px _ => FrameBufferInfo.paints_putPixel h (px, py) c) fun p _ => ?_) fun p hp => ?_
  · simp only [mem_range]
    constructor
    · rintro ⟨rfl, hx⟩
      exact ⟨p.1, hx, rfl⟩
    · rintro ⟨px, hx, rfl⟩
      exact ⟨rfl, hx⟩
  · have hx := hp.1.1
    have hy := hp.1.2
    simp only [mem_range, Rect.Contains, saturatingAdd]
    constructor
    · rintro ⟨h1, h2, h3, h4⟩
      exact ⟨p.2, by omega, rfl, by omega⟩
    · rintro ⟨py, h1, rfl, h2⟩
      omega

/-- The pixels that `draw_rect_outline` puts, in their order. -/
def outlinePixels (info : FrameBufferInfo) (rect : Rect) : List (ℕ × ℕ) :=
  if rect.width = 0 ∨ rect.height = 0 then
    []
  else
    let xLast := min (saturatingAdd rect.x rect.width) info.width - 1
    let yLast := min (saturatingAdd rect.y rect.height) info.height - 1
    ((range rect.x (xLast + 1)).flatMap fun x => [(x, rect.y), (x, yLast)]) ++
      (range rect.y (yLast + 1)).flatMap fun y => [(rect.x, y), (xLast, y)]

theorem drawRectOutline_eq_foldlM (buf : Buf) (rect : Rect) (c : Color) :
    drawRectOutline buf info rect c =
      (outlinePixels info rect).foldlM (fun buf p => putPixel buf info p.1 p.2 c) buf := by
  unfold drawRectOutline outlinePixels
  split
  · rfl
  · rw [List.foldlM_append, foldlM_flatMap]
    simp only [foldlM_flatMap, List.foldlM_cons, List.foldlM_nil, bind_pure]

/-- These are the pixels of the edges. -/
theorem mem_outlinePixels (hw : info.width ≤ USIZE_MAX) (hh : info.height ≤ USIZE_MAX) {rect : Rect}
    {p : ℕ × ℕ} : p ∈ outlinePixels info rect ↔ OutlineOn info rect p := by
  have hx : min (saturatingAdd rect.x rect.width) info.width =
      min (rect.x + rect.width) info.width := by
    unfold saturatingAdd
    omega
  have hy : min (saturatingAdd rect.y rect.height) info.height =
      min (rect.y + rect.height) info.height := by
    unfold saturatingAdd
    omega
  unfold outlinePixels OutlineOn
  rw [hx, hy]
  split
  · simp only [List.not_mem_nil, false_iff]
    omega
  · rename_i hne
    rw [not_or] at hne
    simp only [hne, ne_eq, not_false_eq_true, true_and, List.mem_append, List.mem_flatMap, mem_range,
      Nat.lt_succ_iff, List.mem_cons, List.not_mem_nil, or_false, Prod.ext_iff]
    grind

/-- `draw_rect_outline` paints the edges, if their bytes can be formed and addressed. -/
theorem paints_drawRectOutline_of_stores (hs : info.width ≤ info.stride) (hf : info.FormatStores)
    (hw : info.width ≤ USIZE_MAX) (hh : info.height ≤ USIZE_MAX) {rect : Rect}
    (ha : ∀ p, OutlineOn info rect p → info.OnScreen p → info.Addressable p) (c : Color) :
    (info.surface n).Paints (Layer.fill (OutlineOn info rect) c)
      fun buf => drawRectOutline buf info rect c := by
  simp only [drawRectOutline_eq_foldlM]
  refine Surface.Paints.foldlM_fill (s := fun q p => p = q) (fun q hq => ?_) fun p _ => ?_
  · exact FrameBufferInfo.paints_putPixel_of_stores hs hf (ha q ((mem_outlinePixels hw hh).1 hq)) c
  · simp only [exists_eq_right', mem_outlinePixels hw hh]

/-- **`draw_rect_outline` paints the edges of its rectangle.** -/
theorem paints_drawRectOutline (h : info.Fits) (rect : Rect) (c : Color) :
    (info.surface n).Paints (Layer.fill (OutlineOn info rect) c)
      fun buf => drawRectOutline buf info rect c :=
  paints_drawRectOutline_of_stores h.width_le_stride h.formatFits.stores h.width_le h.height_le
    (fun p _ => h.addressable p) c

theorem confines_fillRect (h : info.Fits) (x y width height : ℕ) (c : Color) {s : ℕ × ℕ → Prop}
    (hs : ∀ p, (Rect.mk x y width height).Contains p → s p) :
    (info.surface n).Confines s fun buf => fillRect buf info x y width height c :=
  (paints_fillRect h x y width height c).confines fun p _ hp => if_neg fun hin => hp (hs p hin)

/-! ### The background -/

/-- `lerp_u8`. -/
def lerpU8 (a b : UInt8) (t : ℕ) : Option UInt8 := do
  let a : ℤ := a.toNat
  let b : ℤ := b.toNat
  let t := asI32 t
  let value ← i32 (a + (← i32 ((← i32 (b - a)) * t)).tdiv 255)
  some (max 0 (min value 255)).toNat.toUInt8

/-- `fill_vertical_gradient`. -/
def fillVerticalGradient (buf : Buf) (info : FrameBufferInfo) (rect : Rect) (top bottom : Color) :
    Option Buf :=
  if rect.height = 0 then
    some buf
  else
    let yEnd := min (saturatingAdd rect.y rect.height) info.height
    let denom := asU32 (max (rect.height - 1) 1)
    (range rect.y yEnd).foldlM (fun buf y => do
      let i := y - rect.y
      let scaled ← u32 (asU32 i * 255)
      if denom = 0 then none else
        let t := scaled / denom
        let r ← lerpU8 top.r bottom.r t
        let g ← lerpU8 top.g bottom.g t
        let b ← lerpU8 top.b bottom.b t
        fillRect buf info rect.x y rect.width 1 ⟨r, g, b⟩) buf

/-- `(a..b).step_by(step)` -/
def rangeStep (a b step : ℕ) : List ℕ := (range a b).filter fun i => (i - a) % step = 0

/-- `draw_background`. -/
def drawBackground (buf : Buf) (info : FrameBufferInfo) : Option Buf := do
  let screen : Rect := ⟨0, 0, info.width, info.height⟩
  let buf ← fillVerticalGradient buf info screen ⟨0x1E, 0x22, 0x2B⟩ ⟨0x12, 0x14, 0x1A⟩
  let step := 4
  (rangeStep 0 info.height step).foldlM (fun buf y =>
    (rangeStep 0 info.width step).foldlM (fun buf x =>
      if (x + y) &&& 0x0F = 0 then putPixel buf info x y ⟨0x2A, 0x2E, 0x38⟩ else some buf) buf) buf

theorem keepsSize_fillRect (x y width height : ℕ) (c : Color) :
    Buf.KeepsSize fun buf => fillRect buf info x y width height c :=
  Buf.KeepsSize.foldlM fun _ _ => Buf.KeepsSize.foldlM fun _ _ => keepsSize_putPixel _ _ _

theorem keepsSize_fillVerticalGradient (rect : Rect) (top bottom : Color) :
    Buf.KeepsSize fun buf => fillVerticalGradient buf info rect top bottom := by
  unfold fillVerticalGradient
  split
  · exact Buf.keepsSize_some
  · refine Buf.KeepsSize.foldlM fun y _ => ?_
    intro buf buf' h
    obtain ⟨scaled, -, h⟩ := Option.bind_eq_some_iff.1 h
    split at h
    · cases h
    · obtain ⟨r, -, h⟩ := Option.bind_eq_some_iff.1 h
      obtain ⟨g, -, h⟩ := Option.bind_eq_some_iff.1 h
      obtain ⟨b, -, h⟩ := Option.bind_eq_some_iff.1 h
      exact keepsSize_fillRect _ _ _ _ _ _ _ h

/-- The background has the size of the buffer it is drawn on. -/
theorem keepsSize_drawBackground : Buf.KeepsSize fun buf => drawBackground buf info := by
  refine (keepsSize_fillVerticalGradient _ _ _).bind
    (Buf.KeepsSize.foldlM fun y _ => Buf.KeepsSize.foldlM fun x _ => ?_)
  split
  · exact keepsSize_putPixel _ _ _
  · exact Buf.keepsSize_some

/-- Interpolation by at most 255 parts does not overflow. -/
theorem exists_lerpU8 (a b : UInt8) {t : ℕ} (ht : t ≤ 255) : ∃ v, lerpU8 a b t = some v := by
  have ha := a.toNat_lt
  have hb := b.toNat_lt
  have hlo : -(255 * 255 : ℤ) ≤ ((b.toNat : ℤ) - a.toNat) * t := by
    have := Int.mul_le_mul (show (a.toNat : ℤ) - b.toNat ≤ 255 by omega)
      (show (t : ℤ) ≤ 255 by omega) (by omega) (by omega)
    rw [← Int.neg_sub, Int.neg_mul] at this
    omega
  have hhi : ((b.toNat : ℤ) - a.toNat) * t ≤ 255 * 255 :=
    Int.mul_le_mul (by omega) (by omega) (by omega) (by omega)
  simp only [lerpU8]
  rw [asI32_of_lt (show t < 2 ^ 31 by omega), i32_of_mem (by omega) (by omega)]
  simp only [Option.bind_eq_bind, Option.bind_some]
  generalize ((b.toNat : ℤ) - a.toNat) * t = m at hlo hhi ⊢
  have hm := Int.natAbs_tdiv_le_natAbs m 255
  rw [i32_of_mem (by omega) (by omega), Option.bind_some, i32_of_mem (by omega) (by omega)]
  exact ⟨_, rfl⟩

theorem exists_fillRect (hf : info.Fits) (x y width height : ℕ) (c : Color) (buf : Buf) :
    ∃ buf', fillRect buf info x y width height c = some buf' := by
  obtain ⟨buf', h, -⟩ := paints_fillRect hf x y width height c buf rfl
  exact ⟨buf', h⟩

/-- **The background can be drawn** on every screen whose height in 255ths is a `u32`. -/
theorem exists_drawBackground (hf : info.Fits) (hh : info.height ≤ 16843009) (buf : Buf) :
    ∃ buf', drawBackground buf info = some buf' := by
  have hgradient : ∀ top bottom, ∃ buf', fillVerticalGradient buf info
      ⟨0, 0, info.width, info.height⟩ top bottom = some buf' := fun top bottom => by
    unfold fillVerticalGradient
    split
    · exact ⟨buf, rfl⟩
    · refine exists_foldlM (fun y hy buf => ?_) buf
      have hy' := (mem_range.1 hy).2
      dsimp only at hy'
      have hi : asU32 (y - 0) = y := Nat.mod_eq_of_lt (by omega)
      have hd : asU32 (max (info.height - 1) 1) = max (info.height - 1) 1 :=
        Nat.mod_eq_of_lt (by omega)
      have ht : y * 255 / max (info.height - 1) 1 ≤ 255 :=
        Nat.div_le_of_le_mul (Nat.mul_le_mul_right _ (by omega))
      obtain ⟨r, hr⟩ := exists_lerpU8 top.r bottom.r ht
      obtain ⟨g, hg⟩ := exists_lerpU8 top.g bottom.g ht
      obtain ⟨b, hb⟩ := exists_lerpU8 top.b bottom.b ht
      dsimp only
      rw [hi, hd, u32_of_lt (by omega)]
      simp only [Option.bind_eq_bind, Option.bind_some]
      rw [if_neg (by omega), hr, hg, hb]
      exact exists_fillRect hf _ _ _ _ _ _
  obtain ⟨buf₁, hbuf₁⟩ := hgradient ⟨0x1E, 0x22, 0x2B⟩ ⟨0x12, 0x14, 0x1A⟩
  obtain ⟨buf₂, hbuf₂⟩ := exists_foldlM (f := fun buf y =>
    (rangeStep 0 info.width 4).foldlM (fun buf x =>
      if (x + y) &&& 0x0F = 0 then putPixel buf info x y ⟨0x2A, 0x2E, 0x38⟩ else some buf) buf)
    (l := rangeStep 0 info.height 4) (fun y _ buf => exists_foldlM (fun x _ buf => by
      split
      · obtain ⟨buf', hput, -⟩ := FrameBufferInfo.paints_putPixel hf (x, y)
          ⟨0x2A, 0x2E, 0x38⟩ buf rfl
        exact ⟨buf', hput⟩
      · exact ⟨buf, rfl⟩) buf) buf₁
  exact ⟨buf₂, Option.bind_eq_some_iff.2 ⟨buf₁, hbuf₁, hbuf₂⟩⟩

/-! ### Text -/

abbrev FONT_SCALE_X : ℕ := 1

abbrev FONT_SCALE_Y : ℕ := 2

abbrev FONT_WIDTH : ℕ := 8 * FONT_SCALE_X

abbrev FONT_HEIGHT : ℕ := 8 * FONT_SCALE_Y

/-- `font8x8::BASIC_FONTS`: eight rows of eight pixels, the lowest bit on the left. -/
class BasicFonts where
  /-- The glyph of a character, if the font has one. -/
  get : Char → Option (Vector UInt8 8)
  /-- The font covers ASCII, and the question mark with it. -/
  get_question : (get '?').isSome

/-- The glyphs of the printable ASCII characters, the blank first: the eight bytes of a glyph in one
number, the top row in front. -/
def asciiGlyphs : List ℕ :=
  [0x0000000000000000, 0x183C3C1818001800, 0x3636000000000000, 0x36367F367F363600,
   0x0C3E031E301F0C00, 0x006333180C666300, 0x1C361C6E3B336E00, 0x0606030000000000,
   0x180C0606060C1800, 0x060C1818180C0600, 0x00663CFF3C660000, 0x000C0C3F0C0C0000,
   0x00000000000C0C06, 0x0000003F00000000, 0x00000000000C0C00, 0x6030180C06030100,
   0x3E63737B6F673E00, 0x0C0E0C0C0C0C3F00, 0x1E33301C06333F00, 0x1E33301C30331E00,
   0x383C36337F307800, 0x3F031F3030331E00, 0x1C06031F33331E00, 0x3F3330180C0C0C00,
   0x1E33331E33331E00, 0x1E33333E30180E00, 0x000C0C00000C0C00, 0x000C0C00000C0C06,
   0x180C0603060C1800, 0x00003F00003F0000, 0x060C1830180C0600, 0x1E3330180C000C00,
   0x3E637B7B7B031E00, 0x0C1E33333F333300, 0x3F66663E66663F00, 0x3C66030303663C00,
   0x1F36666666361F00, 0x7F46161E16467F00, 0x7F46161E16060F00, 0x3C66030373667C00,
   0x3333333F33333300, 0x1E0C0C0C0C0C1E00, 0x7830303033331E00, 0x6766361E36666700,
   0x0F06060646667F00, 0x63777F7F6B636300, 0x63676F7B73636300, 0x1C36636363361C00,
   0x3F66663E06060F00, 0x1E3333333B1E3800, 0x3F66663E36666700, 0x1E33070E38331E00,
   0x3F2D0C0C0C0C1E00, 0x3333333333333F00, 0x33333333331E0C00, 0x6363636B7F776300,
   0x6363361C1C366300, 0x3333331E0C0C1E00, 0x7F6331184C667F00, 0x1E06060606061E00,
   0x03060C1830604000, 0x1E18181818181E00, 0x081C366300000000, 0x00000000000000FF,
   0x0C0C180000000000, 0x00001E303E336E00, 0x0706063E66663B00, 0x00001E3303331E00,
   0x3830303E33336E00, 0x00001E333F031E00, 0x1C36060F06060F00, 0x00006E33333E301F,
   0x0706366E66666700, 0x0C000E0C0C0C1E00, 0x300030303033331E, 0x070666361E366700,
   0x0E0C0C0C0C0C1E00, 0x0000337F7F6B6300, 0x00001F3333333300, 0x00001E3333331E00,
   0x00003B66663E060F, 0x00006E33333E3078, 0x00003B6E66060F00, 0x00003E031E301F00,
   0x080C3E0C0C2C1800, 0x0000333333336E00, 0x00003333331E0C00, 0x0000636B7F7F3600,
   0x000063361C366300, 0x00003333333E301F, 0x00003F190C263F00, 0x380C0C070C0C3800,
   0x1818180018181800, 0x070C0C380C0C0700, 0x6E3B000000000000]

/-- The ASCII part of the font, in which the control characters are blank. -/
abbrev BasicFonts.sample : BasicFonts where
  get c := if c.val < 128 then
      let rows := asciiGlyphs.getD (c.toNat - 32) 0
      some (.ofFn fun i => (rows / 256 ^ (7 - i.val)).toUInt8)
    else
      none
  get_question := rfl

example : BasicFonts.sample.get 'r' =
    some #v[0x00, 0x00, 0x3B, 0x6E, 0x66, 0x06, 0x0F, 0x00] := by decide

/-- The glyph `draw_char_at` draws: the question mark stands for a missing one. -/
def glyph [BasicFonts] (c : Char) : Vector UInt8 8 :=
  (BasicFonts.get c).getD ((BasicFonts.get '?').get BasicFonts.get_question)

/-- `byte & (1 << i) != 0` -/
def bitOn (byte : UInt8) (i : ℕ) : Bool := byte &&& (1 <<< i.toUInt8) != 0

/-- The pixels of one row of a glyph: two lines of the screen. -/
theorem paints_glyphRow (h : info.Fits) (x0 y0 : ℕ) (byte : UInt8) (c : Color) :
    (info.surface n).Paints
      (Layer.fill (fun p => x0 ≤ p.1 ∧ p.1 < x0 + FONT_WIDTH ∧ y0 ≤ p.2 ∧ p.2 < y0 + FONT_SCALE_Y ∧
        bitOn byte (p.1 - x0)) c)
      fun buf => (range 0 8).foldlM (fun buf glyX =>
        if bitOn byte glyX then
          (range 0 FONT_SCALE_Y).foldlM (fun buf sy =>
            (range 0 FONT_SCALE_X).foldlM (fun buf sx =>
              putPixel buf info (x0 + glyX * FONT_SCALE_X + sx) (y0 + sy) c) buf) buf
        else
          some buf) buf := by
  refine Surface.Paints.foldlM_fill
    (s := fun glyX p => p.1 = x0 + glyX ∧ y0 ≤ p.2 ∧ p.2 < y0 + FONT_SCALE_Y ∧ bitOn byte glyX)
    (fun glyX _ => ?_) fun p _ => ?_
  · split
    · rename_i hon
      refine Surface.Paints.foldlM_fill (s := fun sy p => p.1 = x0 + glyX ∧ p.2 = y0 + sy)
        (fun sy _ => Surface.Paints.foldlM_fill
          (s := fun sx p => p = (x0 + glyX * FONT_SCALE_X + sx, y0 + sy))
          (fun sx _ => FrameBufferInfo.paints_putPixel h _ c) fun p _ => ?_) fun p _ => ?_
      · simp only [mem_range, Prod.ext_iff, FONT_SCALE_X]
        constructor
        · rintro ⟨hx, hy⟩
          exact ⟨0, by omega, by omega, hy⟩
        · rintro ⟨sx, hsx, hx, hy⟩
          omega
      · simp only [mem_range, hon, FONT_SCALE_Y]
        constructor
        · rintro ⟨hx, hy, hy', -⟩
          exact ⟨p.2 - y0, by omega, hx, by omega⟩
        · rintro ⟨sy, hsy, hx, hy⟩
          exact ⟨hx, by omega, by omega, trivial⟩
    · rename_i hoff
      refine Surface.Paints.skip.congr fun p _ => ?_
      rw [Layer.clear_apply, Layer.fill_apply, if_neg (fun hp => hoff hp.2.2.2)]
  · simp only [mem_range, FONT_WIDTH, FONT_SCALE_X]
    constructor
    · rintro ⟨hx, hx', hy, hy', hon⟩
      exact ⟨p.1 - x0, by omega, by omega, hy, hy', hon⟩
    · rintro ⟨glyX, hglyX, hx, hy, hy', hon⟩
      exact ⟨by omega, by omega, hy, hy', by rwa [hx, Nat.add_sub_cancel_left]⟩

variable [BasicFonts]

/-- `draw_char_at`. -/
def drawCharAt (buf : Buf) (info : FrameBufferInfo) (x0 y0 : ℕ) (ch : Char) (c : Color) :
    Option Buf :=
  (glyph ch).toList.zipIdx.foldlM (fun buf (byte, glyY) =>
    (range 0 8).foldlM (fun buf glyX =>
      if bitOn byte glyX then
        (range 0 FONT_SCALE_Y).foldlM (fun buf sy =>
          (range 0 FONT_SCALE_X).foldlM (fun buf sx =>
            putPixel buf info (x0 + glyX * FONT_SCALE_X + sx) (y0 + glyY * FONT_SCALE_Y + sy) c)
            buf) buf
      else
        some buf) buf) buf

theorem keepsSize_drawCharAt (x0 y0 : ℕ) (ch : Char) (c : Color) :
    Buf.KeepsSize fun buf => drawCharAt buf info x0 y0 ch c := by
  refine Buf.KeepsSize.foldlM fun byteY _ => Buf.KeepsSize.foldlM fun glyX _ => ?_
  split
  · exact Buf.KeepsSize.foldlM fun _ _ => Buf.KeepsSize.foldlM fun _ _ => keepsSize_putPixel _ _ _
  · exact Buf.keepsSize_some

/-- `draw_text`, on the characters of the text. -/
def drawText (buf : Buf) (info : FrameBufferInfo) (x y : ℕ) (text : List Char) (c : Color) :
    Option Buf :=
  match text with
  | [] => some buf
  | ch :: text => do
    let buf ← drawCharAt buf info x y ch c
    drawText buf info (saturatingAdd x FONT_WIDTH) y text c

/-- The pixels of the character `ch` at `(x0, y0)`. -/
def GlyphOn (x0 y0 : ℕ) (ch : Char) (p : ℕ × ℕ) : Prop :=
  x0 ≤ p.1 ∧ p.1 < x0 + FONT_WIDTH ∧ y0 ≤ p.2 ∧ p.2 < y0 + FONT_HEIGHT ∧
    bitOn ((glyph ch)[(p.2 - y0) / FONT_SCALE_Y]?.getD 0) (p.1 - x0)

instance (x0 y0 : ℕ) (ch : Char) : DecidablePred (GlyphOn x0 y0 ch) :=
  fun _ => inferInstanceAs (Decidable (_ ∧ _))

/-- The pixels of a text at `(x, y)`. -/
def textLayer (x y : ℕ) (text : List Char) (c : Color) : Layer (ℕ × ℕ) Color :=
  match text with
  | [] => Layer.clear
  | ch :: text => (textLayer (saturatingAdd x FONT_WIDTH) y text c).atop (.fill (GlyphOn x y ch) c)

/-- A text has no pixels above or below its line. -/
theorem textLayer_eq_none {y : ℕ} {p : ℕ × ℕ} (hp : p.2 < y ∨ y + FONT_HEIGHT ≤ p.2) (x : ℕ)
    (text : List Char) (c : Color) : textLayer x y text c p = none := by
  induction text generalizing x with
  | nil => rfl
  | cons ch text ih =>
    rw [textLayer, Layer.atop_apply, ih, Layer.fill_apply, if_neg]
    · rfl
    · rintro ⟨-, -, hy, hy', -⟩
      omega

/-- A text has no pixels to the left of it. -/
theorem textLayer_eq_none_left {x : ℕ} {p : ℕ × ℕ} (hp : p.1 < x) (hmax : p.1 < USIZE_MAX) (y : ℕ)
    (text : List Char) (c : Color) : textLayer x y text c p = none := by
  induction text generalizing x with
  | nil => rfl
  | cons ch text ih =>
    have hnext : p.1 < saturatingAdd x FONT_WIDTH :=
      Nat.lt_min.2 ⟨Nat.lt_add_right _ hp, hmax⟩
    rw [textLayer, Layer.atop_apply, ih hnext, Layer.fill_apply, if_neg]
    · rfl
    · intro hon
      exact absurd hon.1 (Nat.not_le.2 hp)

/-- **`draw_char_at` paints the pixels of the glyph.** -/
theorem paints_drawCharAt (h : info.Fits) (x0 y0 : ℕ) (ch : Char) (c : Color) :
    (info.surface n).Paints (Layer.fill (GlyphOn x0 y0 ch) c)
      fun buf => drawCharAt buf info x0 y0 ch c := by
  refine Surface.Paints.foldlM_fill
    (s := fun (byteY : UInt8 × ℕ) p => x0 ≤ p.1 ∧ p.1 < x0 + FONT_WIDTH ∧
      y0 + byteY.2 * FONT_SCALE_Y ≤ p.2 ∧ p.2 < y0 + byteY.2 * FONT_SCALE_Y + FONT_SCALE_Y ∧
        bitOn byteY.1 (p.1 - x0))
    (fun byteY _ => paints_glyphRow h x0 _ byteY.1 c) fun p _ => ?_
  simp only [GlyphOn, FONT_HEIGHT, FONT_SCALE_Y]
  constructor
  · rintro ⟨hx, hx', hy, hy', hon⟩
    have hlt : (p.2 - y0) / 2 < 8 := by omega
    refine ⟨((glyph ch)[(p.2 - y0) / 2], (p.2 - y0) / 2), ?_, hx, hx',
      by omega, by omega, ?_⟩
    · rw [List.mem_zipIdx_iff_getElem?]
      simp [hlt]
    · simpa [hlt] using hon
  · rintro ⟨⟨byte, glyY⟩, hmem, hx, hx', hy, hy', hon⟩
    have hget : (glyph ch)[glyY]? = some byte := by
      simpa [List.mem_zipIdx_iff_getElem?] using hmem
    have hlt : glyY < 8 := (Vector.getElem?_eq_some_iff.1 hget).1
    dsimp only at hy hy' hon
    rw [show (p.2 - y0) / 2 = glyY by omega, hget]
    exact ⟨hx, hx', by omega, by omega, hon⟩

theorem paints_drawText (h : info.Fits) (x y : ℕ) (text : List Char) (c : Color) :
    (info.surface n).Paints (textLayer x y text c) fun buf => drawText buf info x y text c := by
  induction text generalizing x with
  | nil => exact Surface.Paints.skip
  | cons ch text ih => exact (paints_drawCharAt h x y ch c).comp (ih _)

/-- A text changes pixels of its line only. -/
theorem confines_drawText (h : info.Fits) (x y : ℕ) (text : List Char) (c : Color)
    {s : ℕ × ℕ → Prop} (hs : ∀ p, y ≤ p.2 → p.2 < y + FONT_HEIGHT → s p) :
    (info.surface n).Confines s fun buf => drawText buf info x y text c := by
  refine (paints_drawText h x y text c).confines fun p _ hp => ?_
  refine textLayer_eq_none ?_ x text c
  by_contra hline
  rw [not_or, Nat.not_lt, Nat.not_le] at hline
  exact hp (hs p hline.1 hline.2)

end ROs
