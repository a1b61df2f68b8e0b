import ROs.Framebuffer.Format
import ROs.Wm.Window

/-!
# The memory map

`memmap.rs` draws a list of memory regions into its window: a header, a row for each region as far
as there is room, and a legend at the bottom.  The rows are placed from above by a position that each
of them advances, the legend from below by a difference.

* `WmWindow.drawMemmap_iff` : **the drawing succeeds, and every row ends above the legend, exactly if
  the window is high enough for the legend.**
-/

namespace ROs

/-! ### Regions -/

abbrev MAX_REGIONS : ℕ := 32

/-- `MemRegionKind`. -/
inductive MemRegionKind where
  | usable
  | reserved
  | acpiReclaimable
  | acpiNvs
  | badMemory
  | bootloader
  | heap
  | frameBuffer
  deriving Repr, DecidableEq

namespace MemRegionKind

/-- `MemRegionKind::label`. -/
def label : MemRegionKind → String
  | usable => "Usable"
  | reserved => "Reserved"
  | acpiReclaimable => "ACPI Reclaim"
  | acpiNvs => "ACPI NVS"
  | badMemory => "Bad Memory"
  | bootloader => "Bootloader"
  | heap => "Heap"
  | frameBuffer => "FrameBuffer"

/-- `MemRegionKind::color`. -/
def color : MemRegionKind → Color
  | usable => ⟨0x50, 0xC8, 0x78⟩
  | reserved => ⟨0xE0, 0x6C, 0x5C⟩
  | acpiReclaimable => ⟨0xE0, 0xA0, 0x50⟩
  | acpiNvs => ⟨0xD0, 0x80, 0x40⟩
  | badMemory => ⟨0xC0, 0x30, 0x30⟩
  | bootloader => ⟨0x5C, 0x9C, 0xE0⟩
  | heap => ⟨0xE0, 0xD0, 0x50⟩
  | frameBuffer => ⟨0xB0, 0x70, 0xD0⟩

end MemRegionKind

/-- `MemRegionInfo`. -/
structure MemRegionInfo where
  start : UInt64
  /-- The address after the last one (field `end`). -/
  stop : UInt64
  kind : MemRegionKind
  deriving Repr, DecidableEq

/-- `MEM_REGIONS`. -/
structure MemRegions where
  regions : Vector MemRegionInfo MAX_REGIONS
  count : ℕ
  count_le : count ≤ MAX_REGIONS

namespace MemRegions

/-- The regions of the kernel when it starts. -/
def initial : MemRegions := ⟨Vector.replicate MAX_REGIONS ⟨0, 0, .usable⟩, 0, Nat.zero_le _⟩

/-- `set_memory_regions`. -/
def setMemoryRegions (self : MemRegions) (regions : List MemRegionInfo) : MemRegions where
  regions := Vector.ofFn fun i => if h : i.val < regions.length then regions[i.val] else self.regions[i]
  count := min regions.length MAX_REGIONS
  count_le := Nat.min_le_right _ _

/-- The regions that are set: `regions[..count]`. -/
def stored (self : MemRegions) : List MemRegionInfo := self.regions.toList.take self.count

/-- The first 32 regions are kept. -/
theorem stored_setMemoryRegions (self : MemRegions) (regions : List MemRegionInfo) :
    (self.setMemoryRegions regions).stored = regions.take MAX_REGIONS := by
  refine List.ext_getElem? fun i => ?_
  simp only [stored, setMemoryRegions, List.getElem?_take]
  by_cases hi : i < min regions.length MAX_REGIONS
  · have hlen : i < regions.length := Nat.lt_of_lt_of_le hi (Nat.min_le_left _ _)
    have hmax : i < MAX_REGIONS := Nat.lt_of_lt_of_le hi (Nat.min_le_right _ _)
    rw [if_pos hi, if_pos hmax, Vector.getElem?_toList, Vector.getElem?_eq_getElem hmax,
      Vector.getElem_ofFn, dif_pos hlen, List.getElem?_eq_getElem hlen]
  · rw [if_neg hi]
    by_cases hmax : i < MAX_REGIONS
    · rw [if_pos hmax, List.getElem?_eq_none (by omega)]
    · rw [if_neg hmax]

end MemRegions

/-! ### Drawing -/

/-- `row_height`. -/
abbrev rowHeight : ℕ := FONT_HEIGHT * 2 + 8

/-- `legend_kinds`. -/
def legendKinds : List MemRegionKind :=
  [.usable, .reserved, .acpiReclaimable, .acpiNvs, .bootloader, .heap, .frameBuffer]

/-- `legend_height`. -/
def legendHeight : ℕ := (legendKinds.length + 1) / 2 * (FONT_HEIGHT + 4) + 8

/-- The text that was formatted: `from_utf8(&buf[..len]).unwrap_or("")`. -/
def formatted (buf : Buf) (len : ℕ) : Option (List Char) := do
  let bytes ← buf.slice 0 len
  some ((String.fromUTF8? ⟨bytes⟩).getD "").toList

/-- `list_area`, and the number of rows that are drawn. -/
def visibleRows (content : Rect) (cy count : ℕ) : Option ℕ := do
  let listArea := content.height - (legendHeight + (← usizeSub cy content.y))
  let maxVisible := listArea / rowHeight
  some (min count maxVisible)

/-- `legend_y`. -/
def legendTop (content : Rect) : Option ℕ := usizeSub (content.y + content.height) legendHeight

variable [BasicFonts]

/-- The header; the position below it is returned. -/
def drawHeader (info : FrameBufferInfo) (content : Rect) (buf : Buf) : Option (Buf × ℕ) := do
  let cy := content.y
  let buf ← drawText buf info content.x cy "Physical Memory".toList ⟨0xA0, 0xA8, 0xB4⟩
  let cy := cy + (FONT_HEIGHT + 4)
  let buf ← fillRect buf info content.x cy content.width 1 ⟨0x33, 0x38, 0x44⟩
  some (buf, cy + 4)

/-- The body of the loop over the regions. -/
def drawRegion (info : FrameBufferInfo) (content : Rect) (self : Buf × ℕ) (region : MemRegionInfo) :
    Option (Buf × ℕ) := do
  let (buf, cy) := self
  let color := region.kind.color
  let size ← if region.start ≤ region.stop then some (region.stop - region.start) else none
  let buf ← fillRect buf info content.x cy content.width 3 color
  let cy := cy + 4
  let buf ← drawText buf info (content.x + 2) cy region.kind.label.toList color
  let (sizeBuf, sizeLen) ← formatSize (Array.replicate 24 0) size
  let sizeStr ← formatted sizeBuf sizeLen
  let sizeX := content.x + content.width - (sizeLen * FONT_WIDTH + 2)
  let buf ← drawText buf info sizeX cy sizeStr ⟨0xCC, 0xCC, 0xCC⟩
  let cy := cy + FONT_HEIGHT
  let (addrBuf, addrLen) ← formatAddrRange (Array.replicate 40 0) region.start region.stop
  let addrStr ← formatted addrBuf addrLen
  let buf ← drawText buf info (content.x + 2) cy addrStr ⟨0x88, 0x8C, 0x96⟩
  let cy := cy + FONT_HEIGHT
  let cy := cy + 1
  let buf ← fillRect buf info content.x cy content.width 1 ⟨0x1A, 0x1E, 0x28⟩
  some (buf, cy + 3)

/-- The legend. -/
def drawLegend (info : FrameBufferInfo) (content : Rect) (legendY : ℕ) (buf : Buf) : Option Buf := do
  let buf ← fillRect buf info content.x legendY content.width 1 ⟨0x33, 0x38, 0x44⟩
  let cols := 2
  let colWidth := content.width / cols
  legendKinds.zipIdx.foldlM (fun buf (kind, i) => do
    let col := i % cols
    let row := i / cols
    let lx := content.x + col * colWidth
    let ly := legendY + 6 + row * (FONT_HEIGHT + 4)
    let buf ← fillRect buf info lx (ly + 2) 12 12 kind.color
    drawText buf info (lx + 16) ly kind.label.toList ⟨0xAA, 0xAA, 0xAA⟩) buf

/-- `draw_memmap`, in the window that is found. -/
def WmWindow.drawMemmap (self : WmWindow) (regions : MemRegions) : Option WmWindow := do
  let content := self.contentRect
  let info := self.bufInfo
  let count := regions.count
  if count = 0 then
    some self
  else do
    let (buf, cy) ← drawHeader info content self.buf
    let visible ← visibleRows content cy count
    let (buf, _) ← (regions.stored.take visible).foldlM (drawRegion info content) (buf, cy)
    let legendY ← legendTop content
    let buf ← drawLegend info content legendY buf
    some { self with buf, dirty := true }

/-! ### Where it is drawn -/

variable {info : FrameBufferInfo} {n : ℕ} {content : Rect}

omit [BasicFonts] in
theorem exists_formatted {buf : Buf} {text : List UInt8} {out : Buf × ℕ}
    (h : buf.Printed text out) (hlen : text.length ≤ buf.size) :
    ∃ s, formatted out.1 out.2 = some s := by
  have hsize := h.writes.size_eq
  have hpos := h.pos_eq
  rw [formatted, Buf.slice_of_le (Nat.zero_le _) (by omega)]
  exact ⟨_, rfl⟩

/-- What is drawn for a region, when its texts are formatted. -/
def drawRow (info : FrameBufferInfo) (content : Rect) (cy : ℕ) (kind : MemRegionKind)
    (sizeX : ℕ) (sizeStr addrStr : List Char) (buf : Buf) : Option Buf := do
  let buf ← fillRect buf info content.x cy content.width 3 kind.color
  let buf ← drawText buf info (content.x + 2) (cy + 4) kind.label.toList kind.color
  let buf ← drawText buf info sizeX (cy + 4) sizeStr ⟨0xCC, 0xCC, 0xCC⟩
  let buf ← drawText buf info (content.x + 2) (cy + 4 + FONT_HEIGHT) addrStr ⟨0x88, 0x8C, 0x96⟩
  fillRect buf info content.x (cy + 4 + FONT_HEIGHT + FONT_HEIGHT + 1) content.width 1
    ⟨0x1A, 0x1E, 0x28⟩

/-- A row stays within its lines. -/
theorem confines_drawRow (hf : info.Fits) (content : Rect) (cy : ℕ) (kind : MemRegionKind) (sizeX : ℕ)
    (sizeStr addrStr : List Char) :
    (info.surface n).Confines (fun p => cy ≤ p.2 ∧ p.2 < cy + rowHeight)
      (drawRow info content cy kind sizeX sizeStr addrStr) := by
  have hfont : FONT_HEIGHT = 16 := rfl
  have hrow : rowHeight = 40 := rfl
  refine (confines_fillRect hf _ _ _ _ _ ?_).comp ((confines_drawText hf _ _ _ _ ?_).comp
    ((confines_drawText hf _ _ _ _ ?_).comp ((confines_drawText hf _ _ _ _ ?_).comp
      (confines_fillRect hf _ _ _ _ _ ?_))))
  · rintro p ⟨-, -, hy, hy'⟩
    dsimp only at hy hy'
    omega
  · intro p hy hy'
    omega
  · intro p hy hy'
    omega
  · intro p hy hy'
    omega
  · rintro p ⟨-, -, hy, hy'⟩
    dsimp only at hy hy'
    omega

/-- The texts of a region can be formatted. -/
theorem exists_drawRegion_eq (info : FrameBufferInfo) (content : Rect) {region : MemRegionInfo}
    (hregion : region.start ≤ region.stop) :
    ∃ sizeX sizeStr addrStr, ∀ buf cy, drawRegion info content (buf, cy) region =
      (drawRow info content cy region.kind sizeX sizeStr addrStr buf).bind
        fun buf => some (buf, cy + rowHeight) := by
  obtain ⟨ds, hds⟩ := exists_decimal (sizeParts (region.stop - region.start)).1
  obtain ⟨size, hsize, hprinted, hlen⟩ := exists_formatSize (region.stop - region.start) hds
    (show (Array.replicate 24 0 : Buf).size = 24 from Array.size_replicate)
  obtain ⟨ds₁, ds₂, addr, -, -, hlen₁, -, -, hlen₂, haddr, hprinted'⟩ := exists_formatAddrRange
    region.start region.stop (show (Array.replicate 40 0 : Buf).size = 40 from Array.size_replicate)
  obtain ⟨sizeStr, hsizeStr⟩ := exists_formatted hprinted (by rw [Array.size_replicate]; exact hlen)
  obtain ⟨addrStr, haddrStr⟩ := exists_formatted hprinted'
    (by rw [length_rangeText, Array.size_replicate]; omega)
  refine ⟨content.x + content.width - (size.2 * FONT_WIDTH + 2), sizeStr, addrStr, fun buf cy => ?_⟩
  have hheight : cy + rowHeight = cy + 4 + FONT_HEIGHT + FONT_HEIGHT + 1 + 3 := rfl
  rw [drawRegion, drawRow, hheight]
  simp only [if_pos hregion, Option.bind_eq_bind, Option.bind_some, hsize, hsizeStr, haddr,
    haddrStr, Option.bind_assoc]

/-- **A row advances the position by its height**, and changes only pixels of its own lines. -/
theorem exists_drawRegion (hf : info.Fits) {buf : Buf} (hbuf : buf.size = n) (content : Rect)
    (cy : ℕ) {region : MemRegionInfo} (hregion : region.start ≤ region.stop) :
    ∃ buf', drawRegion info content (buf, cy) region = some (buf', cy + rowHeight) ∧
      buf'.size = n ∧ ∀ p, info.Live n p → ¬ (cy ≤ p.2 ∧ p.2 < cy + rowHeight) →
        info.pixel buf' p = info.pixel buf p := by
  obtain ⟨sizeX, sizeStr, addrStr, heq⟩ := exists_drawRegion_eq info content hregion
  obtain ⟨buf', hrow, hsize, hpix⟩ := confines_drawRow hf content cy region.kind sizeX
    sizeStr addrStr buf hbuf
  exact ⟨buf', (heq buf cy).trans (Option.bind_eq_some_iff.2 ⟨buf', hrow, rfl⟩), hsize, hpix⟩

/-- Rows are drawn one below the other. -/
theorem exists_drawRegions (hf : info.Fits) (content : Rect) {rs : List MemRegionInfo}
    (hrs : ∀ r ∈ rs, r.start ≤ r.stop) {buf : Buf} (hbuf : buf.size = n) (cy : ℕ) :
    ∃ buf', rs.foldlM (drawRegion info content) (buf, cy) =
      some (buf', cy + rs.length * rowHeight) ∧ buf'.size = n := by
  induction rs generalizing buf cy with
  | nil => exact ⟨buf, by rw [List.length_nil, Nat.zero_mul]; rfl, hbuf⟩
  | cons r rs ih =>
    rw [List.forall_mem_cons] at hrs
    obtain ⟨buf₁, hrow, hsize₁, -⟩ := exists_drawRegion hf hbuf content cy hrs.1
    obtain ⟨buf', hrest, hsize'⟩ := ih hrs.2 hsize₁ (cy + rowHeight)
    refine ⟨buf', ?_, hsize'⟩
    rw [List.foldlM_cons, hrow]
    refine hrest.trans ?_
    rw [List.length_cons, Nat.succ_mul]
    congr 2
    omega

/-- The legend stays below its upper edge. -/
theorem confines_drawLegend (hf : info.Fits) (content : Rect) (legendY : ℕ) :
    (info.surface n).Confines (fun p => legendY ≤ p.2) (drawLegend info content legendY) := by
  refine (confines_fillRect hf _ _ _ _ _ fun p hp => show legendY ≤ p.2 from hp.2.2.1).comp
    (Surface.Confines.foldlM fun kindI _ => ?_)
  refine (confines_fillRect hf _ _ _ _ _ ?_).comp (confines_drawText hf _ _ _ _ ?_)
  · rintro p ⟨-, -, hy, -⟩
    dsimp only at hy
    omega
  · intro p hy _
    omega

/-- The header takes the lines above the rows. -/
theorem exists_drawHeader (hf : info.Fits) {buf : Buf} (hbuf : buf.size = n) (content : Rect) :
    ∃ buf', drawHeader info content buf = some (buf', content.y + (FONT_HEIGHT + 4) + 4) ∧
      buf'.size = n := by
  obtain ⟨buf₁, htext, hsize₁, -⟩ := paints_drawText hf content.x content.y
    "Physical Memory".toList ⟨0xA0, 0xA8, 0xB4⟩ buf hbuf
  obtain ⟨buf₂, hfill, hsize₂, -⟩ := paints_fillRect hf content.x
    (content.y + (FONT_HEIGHT + 4)) content.width 1 ⟨0x33, 0x38, 0x44⟩ buf₁ hsize₁
  refine ⟨buf₂, ?_, hsize₂⟩
  rw [drawHeader]
  dsimp only at htext hfill
  simp only [htext, hfill, Option.bind_eq_bind, Option.bind_some]

omit [BasicFonts] in
/-- The rows that are counted have room between the header and the legend. -/
theorem exists_visibleRows (content : Rect) (count : ℕ) :
    ∃ visible, visibleRows content (content.y + (FONT_HEIGHT + 4) + 4) count = some visible ∧
      ∀ k ≤ visible, 0 < k → content.y + (FONT_HEIGHT + 4) + 4 + k * rowHeight ≤
        content.y + content.height - legendHeight := by
  have hfont : FONT_HEIGHT = 16 := rfl
  rw [visibleRows, usizeSub_of_le (by omega)]
  refine ⟨_, rfl, fun k hk hpos => ?_⟩
  have hle := Nat.mul_le_of_le_div rowHeight k _ (Nat.le_trans hk (Nat.min_le_right _ _))
  have hrow : 1 * rowHeight ≤ k * rowHeight := Nat.mul_le_mul_right _ hpos
  have hheight : rowHeight = 40 := rfl
  omega

omit [BasicFonts] in
theorem legendTop_eq_some {legendY : ℕ} :
    legendTop content = some legendY ↔
      legendHeight ≤ content.y + content.height ∧ content.y + content.height - legendHeight = legendY :=
  usizeSub_eq_some

/-! ### Rows and legend -/

namespace WmWindow

/-- The drawing succeeds; every row that is drawn is as high as the rows are counted and ends above
the legend; rows and legend change only pixels of their own lines. -/
structure MemmapLaidOut (win : WmWindow) (regions : MemRegions) : Prop where
  draws : ∃ win', win.drawMemmap regions = some win'
  apart : ∃ buf cy visible legendY, drawHeader win.bufInfo win.contentRect win.buf = some (buf, cy) ∧
    visibleRows win.contentRect cy regions.count = some visible ∧
    legendTop win.contentRect = some legendY ∧
    (∀ pre r, pre ++ [r] <+: regions.stored.take visible → ∃ buf₁ y buf₂,
      pre.foldlM (drawRegion win.bufInfo win.contentRect) (buf, cy) = some (buf₁, y) ∧
      drawRegion win.bufInfo win.contentRect (buf₁, y) r = some (buf₂, y + rowHeight) ∧
      y + rowHeight ≤ legendY ∧ ∀ p, win.bufInfo.OnScreen p → ¬ (y ≤ p.2 ∧ p.2 < y + rowHeight) →
        win.bufInfo.pixel buf₂ p = win.bufInfo.pixel buf₁ p) ∧
    ∀ buf : Buf, buf.size = win.buf.size → ∃ buf',
      drawLegend win.bufInfo win.contentRect legendY buf = some buf' ∧
        ∀ p, win.bufInfo.OnScreen p → ¬ legendY ≤ p.2 →
          win.bufInfo.pixel buf' p = win.bufInfo.pixel buf p

variable {screen : FrameBufferInfo} {win : WmWindow} {regions : MemRegions}

/-- Without a place for the legend, the drawing panics. -/
theorem drawMemmap_eq_none (hcount : 0 < regions.count)
    (htop : legendTop win.contentRect = none) : win.drawMemmap regions = none := by
  rw [drawMemmap]
  simp only [htop, Option.bind_eq_bind, Option.bind_none, Option.bind_fun_none]
  exact if_neg (Nat.ne_of_gt hcount)

/-- With a place for the legend, the drawing succeeds, and changes only pixels. -/
theorem exists_drawMemmap_eq (hfits : win.bufInfo.Fits) (hcount : 0 < regions.count)
    (hregions : ∀ r ∈ regions.stored, r.start ≤ r.stop) {legendY : ℕ}
    (htop : legendTop win.contentRect = some legendY) :
    ∃ buf : Buf, win.drawMemmap regions = some { win with buf, dirty := true } ∧
      buf.size = win.buf.size := by
  obtain ⟨buf, hheader, hsize⟩ := exists_drawHeader hfits (rfl : win.buf.size = _) win.contentRect
  obtain ⟨visible, hvisible, -⟩ := exists_visibleRows win.contentRect regions.count
  have hrs : ∀ r ∈ regions.stored.take visible, r.start ≤ r.stop := fun r hr =>
    hregions r (List.mem_of_mem_take hr)
  obtain ⟨buf₁, hrows, hsize₁⟩ := exists_drawRegions hfits win.contentRect hrs hsize
    (win.contentRect.y + (FONT_HEIGHT + 4) + 4)
  obtain ⟨buf₂, hlegend, hsize₂, -⟩ := confines_drawLegend hfits win.contentRect legendY buf₁ hsize₁
  refine ⟨buf₂, ?_, hsize₂⟩
  rw [drawMemmap]
  dsimp only
  rw [if_neg (Nat.ne_of_gt hcount)]
  simp only [hheader, hvisible, hrows, htop, hlegend, Option.bind_eq_bind, Option.bind_some]

theorem exists_drawMemmap (hfits : win.bufInfo.Fits) (hcount : 0 < regions.count)
    (hregions : ∀ r ∈ regions.stored, r.start ≤ r.stop) {legendY : ℕ}
    (htop : legendTop win.contentRect = some legendY) :
    ∃ win', win.drawMemmap regions = some win' := by
  obtain ⟨buf, hdraw, -⟩ := exists_drawMemmap_eq hfits hcount hregions htop
  exact ⟨_, hdraw⟩

/-- **In a window that is high enough the memory map can be drawn**, whatever the regions are. -/
theorem exists_drawMemmap_of_height (hv : win.Valid screen) (hf : screen.FormatFits)
    (hregions : ∀ r ∈ regions.stored, r.start ≤ r.stop)
    (hheight : legendHeight + WINDOW_PADDING ≤ win.height) :
    ∃ (buf : Buf) (dirty : Bool), win.drawMemmap regions = some { win with buf, dirty } ∧
      buf.size = win.buf.size := by
  by_cases hcount : regions.count = 0
  · refine ⟨win.buf, win.dirty, ?_, rfl⟩
    rw [drawMemmap]
    exact if_pos hcount
  · have hroom : legendHeight ≤ win.contentRect.y + win.contentRect.height := by
      simp only [contentRect, legendHeight, legendKinds, List.length_cons, List.length_nil,
        DEFAULT_TITLE_BAR_HEIGHT, WINDOW_PADDING, FONT_HEIGHT] at hheight ⊢
      omega
    obtain ⟨buf, hdraw, hsize⟩ := exists_drawMemmap_eq (hv.fits hf) (Nat.pos_of_ne_zero hcount)
      hregions (usizeSub_of_le hroom)
    exact ⟨buf, true, hdraw, hsize⟩

/-- **The memory map is laid out, exactly if the window has room for the legend.** -/
theorem drawMemmap_iff (hv : win.Valid screen) (hf : screen.FormatFits) (hcount : 0 < regions.count)
    (hregions : ∀ r ∈ regions.stored, r.start ≤ r.stop) :
    win.MemmapLaidOut regions ↔ legendHeight + WINDOW_PADDING ≤ win.height := by
  have hfont : FONT_HEIGHT = 16 := rfl
  have hrow : rowHeight = 40 := rfl
  have hlegend : legendHeight = 88 := rfl
  have hheight : legendHeight ≤ win.contentRect.y + win.contentRect.height ↔
      legendHeight + WINDOW_PADDING ≤ win.height := by
    simp only [contentRect, hlegend, DEFAULT_TITLE_BAR_HEIGHT, WINDOW_PADDING]
    omega
  have hfits := hv.fits hf
  obtain ⟨buf, hheader, hsize⟩ := exists_drawHeader hfits (rfl : win.buf.size = _) win.contentRect
  rw [← hheight]
  constructor
  · rintro ⟨-, -, -, -, legendY, -, -, htop, -⟩
    exact (legendTop_eq_some.1 htop).1
  · intro hroom
    have htop : legendTop win.contentRect =
        some (win.contentRect.y + win.contentRect.height - legendHeight) := usizeSub_of_le hroom
    obtain ⟨visible, hvisible, hlist⟩ := exists_visibleRows win.contentRect regions.count
    refine ⟨exists_drawMemmap hfits hcount hregions htop, buf, _, visible, _, hheader, hvisible,
      htop, ?_, ?_⟩
    · intro pre r hpre
      have hmem : ∀ r' ∈ pre ++ [r], r'.start ≤ r'.stop := fun r' hr' =>
        hregions r' (List.mem_of_mem_take (hpre.subset hr'))
      obtain ⟨buf₁, hrows, hsize₁⟩ := exists_drawRegions hfits win.contentRect
        (fun r' hr' => hmem r' (List.mem_append_left _ hr')) hsize
        (win.contentRect.y + (FONT_HEIGHT + 4) + 4)
      obtain ⟨buf₂, hregion, -, hpix⟩ := exists_drawRegion hfits hsize₁ win.contentRect
        (win.contentRect.y + (FONT_HEIGHT + 4) + 4 + pre.length * rowHeight)
        (hmem r (List.mem_append_right _ List.mem_cons_self))
      refine ⟨buf₁, _, buf₂, hrows, hregion, ?_, fun p hp => hpix p (hv.live_of_onScreen hp)⟩
      have hlen := hpre.length_le
      rw [List.length_append, List.length_singleton, List.length_take] at hlen
      have hend := hlist (pre.length + 1) (by omega) (Nat.succ_pos _)
      rw [Nat.succ_mul] at hend
      omega
    · intro buf' hbuf'
      obtain ⟨buf₂, hlegendDraw, -, hpix⟩ := confines_drawLegend hfits win.contentRect
        (win.contentRect.y + win.contentRect.height - legendHeight) buf' hbuf'
      exact ⟨buf₂, hlegendDraw, fun p hp => hpix p (hv.live_of_onScreen hp)⟩

namespace FirstRegion

/-- One region of memory. -/
def lowMemory : MemRegions := MemRegions.initial.setMemoryRegions [⟨0, 0x9FC00, .usable⟩]

/-- A narrow window. -/
def window (height : ℕ) : WmWindow where
  id := 0
  x := 0
  y := 0
  width := 16
  height := height
  title := Vector.replicate _ 0
  titleLen := 0
  titleLen_le := Nat.zero_le _
  buf := Array.replicate (16 * height * 3) 0
  bufInfo := ⟨16, height, .rgb, 3, 16⟩
  console := none
  dirty := false
  ownerTask := 0

omit [BasicFonts] in
theorem valid_window {height : ℕ} (h : height ≤ 200) :
    (window height).Valid ⟨64, 200, .rgb, 3, 64⟩ where
  bufInfo_eq := rfl
  size_eq := Array.size_replicate
  size_le := by
    rw [show (window height).buf.size = 16 * height * 3 from Array.size_replicate]
    exact Nat.le_trans (show 16 * height * 3 ≤ 16 * 200 * 3 by omega) (by decide)
  width_le := show 16 ≤ USIZE_MAX by decide
  height_le := Nat.le_trans h (by decide)

omit [BasicFonts] in
theorem stored_lowMemory : lowMemory.stored = [⟨0, 0x9FC00, .usable⟩] :=
  MemRegions.stored_setMemoryRegions _ _

omit [BasicFonts] in
theorem start_le_stop : ∀ r ∈ lowMemory.stored, r.start ≤ r.stop := by
  rw [stored_lowMemory]
  decide

end FirstRegion

omit [BasicFonts] in
/-- There is room for one row above the legend. -/
theorem drawMemmap_iff_firstRegion :
    let _ := BasicFonts.sample
    (FirstRegion.window 160).MemmapLaidOut FirstRegion.lowMemory := by
  intro _
  exact (drawMemmap_iff (FirstRegion.valid_window (by decide)) (Nat.le_refl 3)
    (by decide) FirstRegion.start_le_stop).2 (by decide)

omit [BasicFonts] in
/-- One line too low, the window has no place for the legend: the difference is negative. -/
theorem drawMemmap_tooLow :
    let _ := BasicFonts.sample
    (FirstRegion.window 93).Valid ⟨64, 200, .rgb, 3, 64⟩ ∧
      FirstRegion.lowMemory.stored = [⟨0, 0x9FC00, .usable⟩] ∧
      (FirstRegion.window 93).contentRect.y + (FirstRegion.window 93).contentRect.height = 87 ∧
      legendHeight = 88 ∧ legendTop (FirstRegion.window 93).contentRect = none ∧
      (FirstRegion.window 93).drawMemmap FirstRegion.lowMemory = none := by
  intro _
  have htop : legendTop (FirstRegion.window 93).contentRect = none := by decide
  exact ⟨FirstRegion.valid_window (by decide), FirstRegion.stored_lowMemory, by decide, by decide,
    htop, drawMemmap_eq_none (by decide) htop⟩

end WmWindow

end ROs
