import ROs.Framebuffer.PixelLaws

/-!
# Outlines

Which pixels `draw_rect_outline` changes.  The far edges are clamped to the screen before the loops
run, the near edges are not: a rectangle that begins right of the screen, but not below it, is
drawn as a part of the last column, and one that begins below the screen as a part of the last row.

`OutlineInside` says that only the rectangle is changed, and that its edges are painted if it lies
on the screen.  `outlineInside_iff` gives the condition for it: the corner where the clamped edges
meet is the pixel that decides, as it is the last one that is drawn.
-/

namespace ROs

/-- The edges of a rectangle. -/
def Rect.Edge (rect : Rect) (p : ℕ × ℕ) : Prop :=
  rect.Contains p ∧
    (p.1 = rect.x ∨ p.1 = rect.x + rect.width - 1 ∨ p.2 = rect.y ∨ p.2 = rect.y + rect.height - 1)

instance (rect : Rect) : DecidablePred rect.Edge := fun _ => inferInstanceAs (Decidable (_ ∧ _))

/-- `draw_rect_outline` changes nothing but pixels of its rectangle, and paints the edges of a
rectangle that lies on the screen. -/
def OutlineInside (info : FrameBufferInfo) (rect : Rect) (buf : Buf) (c : Color) : Prop :=
  ∃ buf', drawRectOutline buf info rect c = some buf' ∧ info.ChangesOnly rect.Contains buf buf' ∧
    (rect.width ≠ 0 → rect.height ≠ 0 → rect.x + rect.width ≤ info.width →
      rect.y + rect.height ≤ info.height → ∀ p, info.Live buf.size p →
        info.pixel buf' p =
          if rect.Edge p then info.overlay c (info.pixel buf p) else info.pixel buf p)

/-- The pixel where the clamped edges meet. -/
def lastCorner (info : FrameBufferInfo) (rect : Rect) : ℕ × ℕ :=
  (min (rect.x + rect.width) info.width - 1, min (rect.y + rect.height) info.height - 1)

/-- Nothing is drawn on the screen: the rectangle or the screen is empty, or the rectangle begins
beyond both of its ends. -/
def NotDrawn (info : FrameBufferInfo) (rect : Rect) : Prop :=
  rect.width = 0 ∨ rect.height = 0 ∨ info.width = 0 ∨ info.height = 0 ∨
    info.width ≤ rect.x ∧ info.height ≤ rect.y

/-- The rectangle begins on the screen, and what `put_pixel` stores for its pixels has a place in
them. -/
def OutlineFits (info : FrameBufferInfo) (rect : Rect) : Prop :=
  info.FormatStores ∧ info.Addressable (lastCorner info rect) ∧
    (info.OnScreen (rect.x, rect.y) ∨ info.bytesPerPixel = 0)

variable {info : FrameBufferInfo} {rect : Rect} {buf buf' : Buf} {p q : ℕ × ℕ} {c : Color}

/-! ### The pixels that are drawn -/

theorem OutlineOn.le_lastCorner (h : OutlineOn info rect p) (hp : info.OnScreen p) :
    p.1 ≤ (lastCorner info rect).1 ∧ p.2 ≤ (lastCorner info rect).2 := by
  obtain ⟨hwidth, hheight, h⟩ := h
  obtain ⟨hx, hy⟩ := hp
  simp only [lastCorner]
  omega

/-- A pixel of the edges lies in the rectangle if that begins on the screen. -/
theorem OutlineOn.contains (h : OutlineOn info rect p) (hon : info.OnScreen (rect.x, rect.y)) :
    rect.Contains p := by
  obtain ⟨hwidth, hheight, h⟩ := h
  obtain ⟨hx, hy⟩ := hon
  dsimp only at h hx hy
  simp only [Rect.Contains]
  omega

theorem outlineOn_iff_edge (hx : rect.x + rect.width ≤ info.width)
    (hy : rect.y + rect.height ≤ info.height) :
    OutlineOn info rect p ↔ rect.Edge p := by
  simp only [OutlineOn, Rect.Edge, Rect.Contains, Nat.min_eq_left hx, Nat.min_eq_left hy]
  omega

theorem not_onScreen_of_notDrawn (h : NotDrawn info rect) (hp : OutlineOn info rect p) :
    ¬ info.OnScreen p := by
  obtain ⟨hwidth, hheight, hp⟩ := hp
  simp only [NotDrawn] at h
  simp only [FrameBufferInfo.OnScreen]
  omega

/-- If anything is drawn, the corner is. -/
theorem lastCorner_drawn (h : ¬ NotDrawn info rect) :
    OutlineOn info rect (lastCorner info rect) ∧ info.OnScreen (lastCorner info rect) := by
  simp only [NotDrawn, not_or] at h
  obtain ⟨hwidth, hheight, hW, hH, hbegin⟩ := h
  refine ⟨⟨hwidth, hheight, ?_⟩, by simp only [lastCorner]; omega, by simp only [lastCorner]; omega⟩
  simp only [lastCorner]
  by_cases hx : rect.x < info.width
  · exact .inl ⟨by omega, Nat.le_refl _, .inr trivial⟩
  · exact .inr ⟨by omega, Nat.le_refl _, .inr trivial⟩

/-- A rectangle that does not begin on the screen contains no pixel of it. -/
theorem not_contains_of_onScreen (hbegin : ¬ info.OnScreen (rect.x, rect.y))
    (hp : info.OnScreen p) : ¬ rect.Contains p := by
  simp only [FrameBufferInfo.OnScreen] at hbegin hp
  simp only [Rect.Contains]
  omega

/-- The pixels left of and above an addressable one are addressable. -/
theorem addressable_mono (hx : p.1 ≤ q.1) (hy : p.2 ≤ q.2) (h : info.Addressable q) :
    info.Addressable p := by
  obtain ⟨hindex, hend⟩ := h
  have hle : p.2 * info.stride + p.1 ≤ q.2 * info.stride + q.1 :=
    Nat.add_le_add (Nat.mul_le_mul_right _ hy) hx
  exact ⟨hle.trans hindex, (Nat.add_le_add_right (Nat.mul_le_mul_right _ hle) _).trans hend⟩

/-- `draw_rect_outline` changes the bytes of the edges only. -/
theorem changesOnly_drawRectOutline (hf : info.FormatStores) (hw : info.width ≤ USIZE_MAX)
    (hh : info.height ≤ USIZE_MAX) (h : drawRectOutline buf info rect c = some buf') :
    info.ChangesOnly (OutlineOn info rect) buf buf' := by
  rw [drawRectOutline_eq_foldlM] at h
  refine FrameBufferInfo.changesOnly_foldlM (fun p hp _ _ hput => ?_) h
  refine (FrameBufferInfo.changesOnly_putPixel hf hput).mono ?_
  rintro _ - rfl
  exact (mem_outlinePixels hw hh).1 hp

/-! ### The condition suffices -/

theorem outlineInside_of_notDrawn (hw : info.width ≤ USIZE_MAX) (hh : info.height ≤ USIZE_MAX)
    (h : NotDrawn info rect) (buf : Buf) (c : Color) : OutlineInside info rect buf c := by
  have hrun : drawRectOutline buf info rect c = some buf := by
    rw [drawRectOutline_eq_foldlM]
    exact foldlM_eq_self (fun p hp buf => FrameBufferInfo.putPixel_of_not_onScreen
      (not_onScreen_of_notDrawn h ((mem_outlinePixels hw hh).1 hp)) c) buf
  refine ⟨buf, hrun, .refl buf, fun hwidth hheight hx hy => ?_⟩
  -- a rectangle on the screen is drawn
  simp only [NotDrawn] at h
  omega

theorem addressable_of_outlineOn (ha : info.Addressable (lastCorner info rect))
    (hp : OutlineOn info rect p) (hon : info.OnScreen p) : info.Addressable p :=
  addressable_mono (hp.le_lastCorner hon).1 (hp.le_lastCorner hon).2 ha

theorem outlineInside_of_onScreen (hs : info.width ≤ info.stride) (hw : info.width ≤ USIZE_MAX)
    (hh : info.height ≤ USIZE_MAX) (hf : info.FormatStores)
    (ha : info.Addressable (lastCorner info rect)) (hbegin : info.OnScreen (rect.x, rect.y))
    (buf : Buf) (c : Color) : OutlineInside info rect buf c := by
  obtain ⟨buf', hrun, -, hlook⟩ := paints_drawRectOutline_of_stores hs hf hw hh
    (fun p => addressable_of_outlineOn ha) c buf rfl
  have hedges := changesOnly_drawRectOutline hf hw hh hrun
  refine ⟨buf', hrun, hedges.mono fun p _ hp => hp.contains hbegin, fun _ _ hx hy p hp => ?_⟩
  refine (hlook p hp).trans ?_
  rw [Layer.fill_apply]
  simp only [outlineOn_iff_edge hx hy]
  split <;> rfl

/-- A rectangle that does not begin on the screen makes no difference where the pixels that are drawn
hold the colour already, or are not in the buffer. -/
theorem outlineInside_of_drawn (hs : info.width ≤ info.stride) (hw : info.width ≤ USIZE_MAX)
    (hh : info.height ≤ USIZE_MAX) (hf : info.FormatStores)
    (ha : info.Addressable (lastCorner info rect)) (hbegin : ¬ info.OnScreen (rect.x, rect.y))
    (hsame : ∀ p, OutlineOn info rect p → info.Live buf.size p →
      info.overlay c (info.pixel buf p) = info.pixel buf p) : OutlineInside info rect buf c := by
  obtain ⟨buf', hrun, -, hlook⟩ := paints_drawRectOutline_of_stores hs hf hw hh
    (fun p => addressable_of_outlineOn ha) c buf rfl
  have hedges := changesOnly_drawRectOutline hf hw hh hrun
  refine ⟨buf', hrun, ⟨hedges.size_eq, fun i _ => ?_⟩, fun hwidth hheight hx hy => ?_⟩
  · by_cases hi : info.ByteOf buf.size (OutlineOn info rect) i
    · obtain ⟨p, hp, hlive, hle, hlt⟩ := hi
      have hpixel : info.pixel buf' p = info.pixel buf p := by
        refine (hlook p hlive).trans ?_
        rw [Layer.fill_apply, if_pos hp]
        exact hsame p hp hlive
      obtain ⟨k, rfl⟩ := Nat.exists_eq_add_of_le hle
      have hk : k < info.bytesPerPixel := by omega
      rw [← FrameBufferInfo.pixel_of_lt hk, ← FrameBufferInfo.pixel_of_lt hk, hpixel]
    · exact hedges.getElem?_eq i hi
  · -- a rectangle on the screen begins there
    exact absurd ⟨by dsimp only; omega, by dsimp only; omega⟩ hbegin

/-! ### The condition is necessary -/

/-- `put_pixel` succeeds at the end of a buffer only if the colour fits into the pixel. -/
theorem formatStores_of_putPixel (hp : info.OnScreen p)
    (hsize : buf.size = info.offset p + info.bytesPerPixel)
    (h : putPixel buf info p.1 p.2 c = some buf') : info.FormatStores := by
  have ha := FrameBufferInfo.addressable_of_putPixel hp h
  unfold FrameBufferInfo.OnScreen at hp
  rw [putPixel, if_neg (by omega), FrameBufferInfo.byteRange_of_addressable ha] at h
  simp only [Option.bind_eq_bind, Option.bind_some, GT.gt, hsize, Nat.lt_irrefl, if_false] at h
  unfold FrameBufferInfo.FormatStores
  cases hpf : info.pixelFormat with
  | rgb | bgr =>
    rw [hpf] at h
    obtain ⟨buf₁, h₁, h⟩ := Option.bind_eq_some_iff.1 h
    obtain ⟨buf₂, h₂, h⟩ := Option.bind_eq_some_iff.1 h
    obtain ⟨buf₃, h₃, -⟩ := Option.bind_eq_some_iff.1 h
    have hlt := Buf.lt_of_store h₃
    rw [Buf.keepsSize_store _ _ _ _ h₂, Buf.keepsSize_store _ _ _ _ h₁, hsize] at hlt
    change 3 ≤ info.bytesPerPixel
    omega
  | u8 =>
    rw [hpf] at h
    have hlt := Buf.lt_of_store h
    change 1 ≤ info.bytesPerPixel
    omega
  | unknown r g b =>
    rw [hpf] at h
    obtain ⟨_, hr, h⟩ := Option.bind_eq_some_iff.1 h
    obtain ⟨_, hg, h⟩ := Option.bind_eq_some_iff.1 h
    obtain ⟨_, hb, -⟩ := Option.bind_eq_some_iff.1 h
    exact ⟨lt_of_shlU32 hr, lt_of_shlU32 hg, lt_of_shlU32 hb⟩

/-- The first byte of a pixel is the first byte of the colour put on it. -/
theorem overlay_zero (hbpp : info.bytesPerPixel ≠ 0) (c : Color) (bytes bytes' : ℕ → Option UInt8) :
    info.overlay c bytes 0 = info.overlay c bytes' 0 := by
  have hpos : 0 < (info.encode c).length := by
    unfold FrameBufferInfo.encode
    cases info.pixelFormat <;> simp [Bits.toLeBytes]
    omega
  rw [FrameBufferInfo.overlay, FrameBufferInfo.overlay, if_pos hpos, if_pos hpos]

/-- A rectangle that does not begin on the screen is drawn on pixels outside of it, which keep their
bytes only if they are those of the colour. -/
theorem drawn_of_outlineInside (hs : info.width ≤ info.stride) (hw : info.width ≤ USIZE_MAX)
    (hh : info.height ≤ USIZE_MAX) (hf : info.FormatStores)
    (ha : info.Addressable (lastCorner info rect)) (hbegin : ¬ info.OnScreen (rect.x, rect.y))
    (h : OutlineInside info rect buf c) (hp : OutlineOn info rect p) (hlive : info.Live buf.size p) :
    info.overlay c (info.pixel buf p) = info.pixel buf p := by
  obtain ⟨buf', hrun, hinside, -⟩ := h
  obtain ⟨buf'', hrun', -, hlook⟩ := paints_drawRectOutline_of_stores hs hf hw hh
    (fun p => addressable_of_outlineOn ha) c buf rfl
  obtain rfl : buf' = buf'' := Option.some.inj (hrun.symm.trans hrun')
  have hpainted := hlook p hlive
  rw [Layer.fill_apply, if_pos hp] at hpainted
  exact hpainted.symm.trans
    (hinside.pixel_eq hs hlive.1 (not_contains_of_onScreen hbegin hlive.1))

/-- What is drawn for every buffer must have a place in its pixel. -/
theorem stores_of_outlineInside (hw : info.width ≤ USIZE_MAX) (hh : info.height ≤ USIZE_MAX)
    (hdrawn : ¬ NotDrawn info rect) (h : ∀ buf c, OutlineInside info rect buf c) :
    info.FormatStores ∧ info.Addressable (lastCorner info rect) := by
  obtain ⟨hcorner, hon⟩ := lastCorner_drawn hdrawn
  obtain ⟨buf', hrun, -⟩ := h (Array.replicate
    (info.offset (lastCorner info rect) + info.bytesPerPixel) 0) .black
  rw [drawRectOutline_eq_foldlM] at hrun
  -- the corner is the last pixel of this buffer, and is put on a buffer of this size
  obtain ⟨buf₁, buf₂, hsize, hput⟩ := exists_rel_of_foldlM
    (R := fun buf buf' : Buf => buf'.size = buf.size) (fun _ => rfl) (fun h h' => h'.trans h)
    (fun p _ buf buf' => keepsSize_putPixel p.1 p.2 .black buf buf') hrun
    ((mem_outlinePixels hw hh).2 hcorner)
  rw [Array.size_replicate] at hsize
  exact ⟨formatStores_of_putPixel hon hsize hput, FrameBufferInfo.addressable_of_putPixel hon hput⟩

/-- Some buffer shows what is drawn for a rectangle that does not begin on the screen. -/
theorem onScreen_of_outlineInside (hs : info.width ≤ info.stride) (hw : info.width ≤ USIZE_MAX)
    (hh : info.height ≤ USIZE_MAX) (hf : info.FormatStores)
    (ha : info.Addressable (lastCorner info rect)) (hdrawn : ¬ NotDrawn info rect)
    (hbpp : info.bytesPerPixel ≠ 0) (h : ∀ buf c, OutlineInside info rect buf c) :
    info.OnScreen (rect.x, rect.y) := by
  by_contra hbegin
  obtain ⟨hcorner, hon⟩ := lastCorner_drawn hdrawn
  have hpos : 0 < info.bytesPerPixel := Nat.pos_of_ne_zero hbpp
  -- the corner would hold the first byte of the colour, whatever the buffer is filled with
  have hbyte : ∀ v : UInt8, info.overlay .black (fun _ => none) 0 = some v := fun v => by
    generalize hbuf : Array.replicate (info.offset (lastCorner info rect) + info.bytesPerPixel) v =
      buf
    have hlive : info.Live buf.size (lastCorner info rect) :=
      ⟨hon, by rw [← hbuf, Array.size_replicate]⟩
    rw [overlay_zero hbpp .black _ (info.pixel buf (lastCorner info rect)),
      drawn_of_outlineInside hs hw hh hf ha hbegin (h buf .black) hcorner hlive,
      FrameBufferInfo.pixel_of_lt hpos, ← hbuf]
    simp [hpos]
  have hzero := hbyte 0
  rw [hbyte 1] at hzero
  cases hzero

/-- Where the bytes of the pixels can be stored, buffer by buffer. -/
theorem outlineInside_iff_of_stores (hs : info.width ≤ info.stride) (hw : info.width ≤ USIZE_MAX)
    (hh : info.height ≤ USIZE_MAX) (hf : info.FormatStores)
    (ha : info.Addressable (lastCorner info rect)) (buf : Buf) (c : Color) :
    OutlineInside info rect buf c ↔ NotDrawn info rect ∨ info.OnScreen (rect.x, rect.y) ∨
      ∀ p, OutlineOn info rect p → info.Live buf.size p →
        info.overlay c (info.pixel buf p) = info.pixel buf p := by
  by_cases hbegin : info.OnScreen (rect.x, rect.y)
  · exact iff_of_true (outlineInside_of_onScreen hs hw hh hf ha hbegin buf c) (.inr (.inl hbegin))
  constructor
  · intro h
    exact .inr (.inr fun p => drawn_of_outlineInside hs hw hh hf ha hbegin h)
  · rintro (h | h | h)
    · exact outlineInside_of_notDrawn hw hh h buf c
    · exact absurd h hbegin
    · exact outlineInside_of_drawn hs hw hh hf ha hbegin h

/-- **Outlines stay inside their rectangle**, on every buffer and in every colour, exactly if
nothing is drawn, or the rectangle begins on the screen and its pixels can be stored.  On a single
buffer it is also enough that the pixels that are drawn show the colour already. -/
theorem outlineInside_iff (hs : info.width ≤ info.stride) (hw : info.width ≤ USIZE_MAX)
    (hh : info.height ≤ USIZE_MAX) (rect : Rect) :
    ((∀ buf c, OutlineInside info rect buf c) ↔ NotDrawn info rect ∨ OutlineFits info rect) ∧
      (info.FormatStores → info.Addressable (lastCorner info rect) → ∀ buf c,
        (OutlineInside info rect buf c ↔ NotDrawn info rect ∨ info.OnScreen (rect.x, rect.y) ∨
          ∀ p, OutlineOn info rect p → info.Live buf.size p →
            info.overlay c (info.pixel buf p) = info.pixel buf p)) := by
  refine ⟨⟨fun h => ?_, ?_⟩, fun hf ha => outlineInside_iff_of_stores hs hw hh hf ha⟩
  · by_cases hdrawn : NotDrawn info rect
    · exact .inl hdrawn
    · obtain ⟨hf, ha⟩ := stores_of_outlineInside hw hh hdrawn h
      refine .inr ⟨hf, ha, ?_⟩
      by_cases hbpp : info.bytesPerPixel = 0
      · exact .inr hbpp
      · exact .inl (onScreen_of_outlineInside hs hw hh hf ha hdrawn hbpp h)
  · rintro (h | ⟨hf, ha, hbegin | hbpp⟩) buf c
    · exact outlineInside_of_notDrawn hw hh h buf c
    · exact outlineInside_of_onScreen hs hw hh hf ha hbegin buf c
    · refine (outlineInside_iff_of_stores hs hw hh hf ha buf c).2 (.inr (.inr fun p _ _ => ?_))
      -- a pixel has no bytes
      have hlen : (info.encode c).length = 0 :=
        Nat.eq_zero_of_le_zero (hbpp ▸ FrameBufferInfo.length_encode_le hf c)
      funext k
      rw [FrameBufferInfo.overlay, hlen, if_neg (Nat.not_lt_zero k)]

/-- The whole of a small screen. -/
theorem outlineInside_iff_whole :
    OutlineInside ⟨2, 1, .rgb, 3, 2⟩ ⟨0, 0, 2, 1⟩ #[0, 0, 0, 0, 0, 0] .white :=
  (outlineInside_iff (by decide) (by decide) (by decide) _).1.2
    (.inr ⟨by simp [FrameBufferInfo.FormatStores], by decide, .inl (by decide)⟩) _ .white

/-- A rectangle right of the screen is drawn on its last column. -/
theorem outline_beyond_screen :
    let info : FrameBufferInfo := ⟨2, 1, .rgb, 3, 2⟩
    drawRectOutline #[0, 0, 0, 0, 0, 0] info ⟨5, 0, 1, 1⟩ .white =
        some #[0, 0, 0, 0xFF, 0xFF, 0xFF] ∧
      ¬ OutlineInside info ⟨5, 0, 1, 1⟩ #[0, 0, 0, 0, 0, 0] .white := by
  intro info
  have hrun : drawRectOutline #[0, 0, 0, 0, 0, 0] info ⟨5, 0, 1, 1⟩ .white =
      some #[0, 0, 0, 0xFF, 0xFF, 0xFF] := by decide
  refine ⟨hrun, ?_⟩
  rintro ⟨buf', hrun', hinside, -⟩
  obtain rfl := Option.some.inj (hrun.symm.trans hrun')
  have hsame := hinside.pixel_eq (q := (1, 0)) (by decide) (by decide) (by decide)
  exact absurd (congrFun hsame 0) (by decide)

end ROs
