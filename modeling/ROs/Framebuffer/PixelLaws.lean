import ROs.Framebuffer.Draw

/-!
# The laws of pixel access

What `put_pixel`, `read_pixel` and `fill_rect` do to the colours that can be read, and to the
bytes of the buffer.

`FrameBufferInfo.ChangesOnly s` relates a buffer to one where no byte has changed but those of the
pixels in `s` that are on the screen and in the buffer.  It is a preorder, so it holds of a loop
if it holds of the steps: `changesOnly_putPixel` gives `changesOnly_fillRect`.  The bytes of
another pixel of the screen are then the same (`ChangesOnly.pixel_eq`).

The laws hold exactly on the screens whose pixels have `usize` offsets (`pixelLaws_iff`).  `put_pixel` does
not guard the computation of the offset against an overflow (`putPixel_overflow`).
-/

namespace ROs

namespace FrameBufferInfo

variable (info : FrameBufferInfo)

/-- Byte `i` belongs to a pixel in `s` that is on the screen and in a buffer of `n` bytes. -/
def ByteOf (n : ℕ) (s : ℕ × ℕ → Prop) (i : ℕ) : Prop :=
  ∃ p, s p ∧ info.Live n p ∧ info.offset p ≤ i ∧ i < info.offset p + info.bytesPerPixel

/-- No byte differs but those of the pixels in `s`. -/
structure ChangesOnly (s : ℕ × ℕ → Prop) (buf buf' : Buf) : Prop where
  size_eq : buf'.size = buf.size
  getElem?_eq : ∀ i, ¬ info.ByteOf buf.size s i → buf'[i]? = buf[i]?

variable {info} {s t : ℕ × ℕ → Prop} {buf buf' buf'' : Buf} {p q : ℕ × ℕ} {c : Color}

theorem ChangesOnly.refl (buf : Buf) : info.ChangesOnly s buf buf := ⟨rfl, fun _ _ => rfl⟩

theorem ChangesOnly.trans (h : info.ChangesOnly s buf buf') (h' : info.ChangesOnly s buf' buf'') :
    info.ChangesOnly s buf buf'' where
  size_eq := h'.size_eq.trans h.size_eq
  getElem?_eq i hi := (h'.getElem?_eq i (h.size_eq ▸ hi)).trans (h.getElem?_eq i hi)

theorem ChangesOnly.mono (h : info.ChangesOnly s buf buf') (hst : ∀ p, info.OnScreen p → s p → t p) :
    info.ChangesOnly t buf buf' where
  size_eq := h.size_eq
  getElem?_eq i hi := h.getElem?_eq i fun ⟨p, hp, hlive, hbyte⟩ =>
    hi ⟨p, hst p hlive.1 hp, hlive, hbyte⟩

/-- A loop whose steps change the pixels in `s` only. -/
theorem changesOnly_foldlM {A : Type*} {f : Buf → A → Option Buf} {as : List A}
    (hstep : ∀ a ∈ as, ∀ buf buf', f buf a = some buf' → info.ChangesOnly s buf buf')
    (h : as.foldlM f buf = some buf') : info.ChangesOnly s buf buf' :=
  rel_of_foldlM ChangesOnly.refl ChangesOnly.trans hstep h

/-- The bytes of a pixel of the screen belong to no other pixel. -/
theorem ByteOf.eq (hs : info.width ≤ info.stride) {n k : ℕ} (hq : info.OnScreen q)
    (hk : k < info.bytesPerPixel) (h : info.ByteOf n s (info.offset q + k)) :
    s q ∧ info.Live n q := by
  obtain ⟨p, hp, hlive, hle, hlt⟩ := h
  by_cases hpq : p = q
  · exact hpq ▸ ⟨hp, hlive⟩
  · have hdisjoint := offset_disjoint hs hlive.1 hq hpq
    omega

/-- The other pixels of the screen keep their bytes. -/
theorem ChangesOnly.pixel_eq (h : info.ChangesOnly s buf buf') (hs : info.width ≤ info.stride)
    (hq : info.OnScreen q) (hsq : ¬ s q) : info.pixel buf' q = info.pixel buf q := by
  funext k
  unfold pixel
  split
  · rename_i hk
    exact h.getElem?_eq _ fun hbyte => hsq (hbyte.eq hs hq hk).1
  · rfl

/-- `put_pixel` on the screen succeeds only if the bytes of the pixel have addresses. -/
theorem addressable_of_putPixel (hp : info.OnScreen p)
    (h : putPixel buf info p.1 p.2 c = some buf') : info.Addressable p := by
  unfold OnScreen at hp
  rw [putPixel, if_neg (by omega)] at h
  obtain ⟨_, hrange, -⟩ := Option.bind_eq_some_iff.1 h
  simp only [byteRange, Option.bind_eq_bind, Option.bind_eq_some_iff, usize_eq_some] at hrange
  obtain ⟨_, ⟨-, rfl⟩, _, ⟨hindex, rfl⟩, _, ⟨-, rfl⟩, _, ⟨hend, -⟩, -⟩ := hrange
  exact ⟨hindex, hend⟩

/-- `put_pixel` changes the bytes of its pixel only. -/
theorem changesOnly_putPixel (hf : info.FormatStores)
    (h : putPixel buf info p.1 p.2 c = some buf') : info.ChangesOnly (· = p) buf buf' := by
  by_cases hp : info.Live buf.size p
  · obtain ⟨buf₁, hput, hw⟩ := putPixel_of_live hf (addressable_of_putPixel hp.1 h) hp c
    obtain rfl : buf₁ = buf' := Option.some.inj (hput.symm.trans h)
    refine ⟨hw.size_eq, fun i hi => ?_⟩
    have hlen := length_encode_le hf c
    rw [hw.getElem?, if_neg]
    rintro ⟨hle, hlt⟩
    exact hi ⟨p, rfl, hp, hle, by omega⟩
  · obtain rfl : buf = buf' := Option.some.inj
      ((putPixel_of_not_live (fun hon => addressable_of_putPixel hon h) hp c).symm.trans h)
    exact .refl buf

end FrameBufferInfo

open FrameBufferInfo

variable {info : FrameBufferInfo} {buf buf' : Buf} {c : Color}

/-- `fill_rect` changes the bytes of the pixels in its rectangle only. -/
theorem changesOnly_fillRect (hf : info.FormatStores) {rect : Rect}
    (h : fillRect buf info rect.x rect.y rect.width rect.height c = some buf') :
    info.ChangesOnly rect.Contains buf buf' := by
  refine changesOnly_foldlM (fun py hpy _ _ hline => ?_) h
  refine changesOnly_foldlM (fun px hpx _ _ hput => ?_) hline
  refine (changesOnly_putPixel (p := (px, py)) hf hput).mono ?_
  rintro _ - rfl
  rw [mem_range] at hpx hpy
  simp only [saturatingAdd] at hpx hpy
  exact ⟨hpx.1, by omega, hpy.1, by omega⟩

/-- A painting program, as its effect is read. -/
theorem exists_readPixel_of_paints (h : info.Fits) {l : Layer (ℕ × ℕ) Color}
    {d : Buf → Option Buf} (hd : (info.surface buf.size).Paints l d) :
    ∃ buf', d buf = some buf' ∧ ∀ q, readPixel buf' info q.1 q.2 =
      if info.Live buf.size q then some (((l q).map info.shown).getD (info.seen buf q))
      else readPixel buf info q.1 q.2 := by
  obtain ⟨buf', hsome, hsize, hseen⟩ := exists_seen_of_paints h.formatFits hd rfl
  refine ⟨buf', hsome, fun q => ?_⟩
  split
  · rename_i hq
    rw [readPixel_eq_seen h, hseen q hq]
  · rename_i hq
    rw [readPixel_of_not_live h (hsize.symm ▸ hq), readPixel_of_not_live h hq]

/-- What can be relied on when the pixels of a buffer are put and read. -/
structure PixelLaws (info : FrameBufferInfo) (buf : Buf) : Prop where
  /-- A colour that is put is read back, and no byte of another pixel changes. -/
  put : ∀ (p : ℕ × ℕ) c, ∃ buf', putPixel buf info p.1 p.2 c = some buf' ∧
    (¬ info.Live buf.size p → buf' = buf) ∧
    (info.Live buf.size p → readPixel buf' info p.1 p.2 = some (info.shown c)) ∧
    info.ChangesOnly (· = p) buf buf' ∧
    ∀ q, info.OnScreen q → q ≠ p → info.pixel buf' q = info.pixel buf q
  /-- A colour that was read can be put back. -/
  restore : ∀ p : ℕ × ℕ, ∃ c buf', readPixel buf info p.1 p.2 = some c ∧
    putPixel buf info p.1 p.2 c = some buf' ∧
    ∀ q : ℕ × ℕ, readPixel buf' info q.1 q.2 = readPixel buf info q.1 q.2
  /-- A rectangle is filled as far as it is on the screen and in the buffer. -/
  fill : ∀ (rect : Rect) c, ∃ buf',
    fillRect buf info rect.x rect.y rect.width rect.height c = some buf' ∧
    (∀ q, readPixel buf' info q.1 q.2 =
      if rect.Contains q ∧ info.Live buf.size q then some (info.shown c)
      else readPixel buf info q.1 q.2) ∧
    info.ChangesOnly rect.Contains buf buf' ∧
    ∀ q, info.OnScreen q → ¬ rect.Contains q → info.pixel buf' q = info.pixel buf q

theorem FrameBufferInfo.Fits.pixelLaws (h : info.Fits) (buf : Buf) : PixelLaws info buf where
  put p c := by
    obtain ⟨buf', hput, hread⟩ := exists_readPixel_of_paints h (paints_putPixel h p c)
    have hframe := changesOnly_putPixel h.formatFits.stores hput
    refine ⟨buf', hput, fun hp => ?_, fun hp => ?_, hframe,
      fun q hq hne => hframe.pixel_eq h.width_le_stride hq hne⟩
    · rw [putPixel_of_not_live (h.addressable p) hp c] at hput
      exact (Option.some.inj hput).symm
    · rw [hread p, if_pos hp, Layer.fill_apply, if_pos rfl]
      rfl
  restore p := by
    obtain ⟨buf', hput, hread⟩ :=
      exists_readPixel_of_paints h (paints_putPixel h p (info.seen buf p))
    refine ⟨info.seen buf p, buf', readPixel_eq_seen h buf p, hput, fun q => ?_⟩
    rw [hread q, readPixel_eq_seen h buf q, Layer.fill_apply]
    split
    · split
      · rename_i hqp
        rw [Option.map_some, Option.getD_some, shown_seen, hqp]
      · rfl
    · rfl
  fill rect c := by
    obtain ⟨buf', hfill, hread⟩ := exists_readPixel_of_paints h
      (paints_fillRect h rect.x rect.y rect.width rect.height c)
    have hframe := changesOnly_fillRect h.formatFits.stores hfill
    refine ⟨buf', hfill, fun q => ?_, hframe,
      fun q hq hout => hframe.pixel_eq h.width_le_stride hq hout⟩
    rw [hread q, Layer.fill_apply, readPixel_eq_seen h buf q]
    by_cases hq : info.Live buf.size q
    · by_cases hin : rect.Contains q
      · rw [if_pos hq, if_pos hin, if_pos ⟨hin, hq⟩]
        rfl
      · rw [if_pos hq, if_neg hin, if_neg fun hboth => hin hboth.1]
        rfl
    · rw [if_neg hq, if_neg fun hboth => hq hboth.2]

/-- **Pixel access**: on a screen whose lines do not overlap and whose format fits the pixel, the
laws hold for every buffer, exactly if the offsets of all its pixels are `usize` values. -/
theorem pixelLaws_iff (hs : info.width ≤ info.stride) (hf : info.FormatFits)
    (hw : info.width ≤ USIZE_MAX) (hh : info.height ≤ USIZE_MAX) (buf : Buf) :
    PixelLaws info buf ↔ ∀ p, info.OnScreen p → info.Addressable p := by
  constructor
  · intro h p hp
    obtain ⟨_, hput, -⟩ := h.put p .black
    exact addressable_of_putPixel hp hput
  · intro ha
    exact Fits.pixelLaws ⟨hs, hf, hw, hh, ha⟩ buf

/-- A rectangle without end, on a buffer that holds three of four pixels. -/
theorem pixelLaws_iff_short : ∃ buf',
    fillRect (Array.replicate 18 0) ⟨2, 2, .unknown 16 8 0, 4, 3⟩ 1 0 USIZE_MAX USIZE_MAX .white =
      some buf' ∧
    readPixel buf' ⟨2, 2, .unknown 16 8 0, 4, 3⟩ 1 0 = some .white ∧
    readPixel buf' ⟨2, 2, .unknown 16 8 0, 4, 3⟩ 1 1 = some .black := by
  have hlaws : PixelLaws ⟨2, 2, .unknown 16 8 0, 4, 3⟩ (Array.replicate 18 0) :=
    (pixelLaws_iff (by decide) (by simp [FormatFits]) (by decide) (by decide) _).2
      fun p => addressable_of_le (by decide) (by decide) (by decide)
  obtain ⟨buf', hfill, hread, -⟩ := hlaws.fill ⟨1, 0, USIZE_MAX, USIZE_MAX⟩ .white
  refine ⟨buf', hfill, ?_, ?_⟩
  · rw [hread (1, 0)]
    decide
  · rw [hread (1, 1)]
    decide

/-- A screen with more lines than there are addresses: the offset of a pixel overflows, and wraps
to that of another one if overflows are not checked. -/
theorem putPixel_overflow :
    let info : FrameBufferInfo := ⟨1, 2 ^ 63 + 1, .u8, 1, 2⟩
    info.width ≤ info.stride ∧ info.FormatFits ∧ info.OnScreen (0, 2 ^ 63) ∧
      putPixel #[0] info 0 (2 ^ 63) .white = none ∧ readPixel #[0] info 0 (2 ^ 63) = none ∧
      info.offset (0, 2 ^ 63) % 2 ^ 64 = info.offset (0, 0) ∧ ¬ PixelLaws info #[0] := by
  intro info
  have hnone : putPixel #[0] info 0 (2 ^ 63) .white = none := by decide
  refine ⟨by decide, Nat.le_refl 1, by decide, hnone, by decide, by decide, ?_⟩
  intro hlaws
  obtain ⟨buf', hput, -⟩ := hlaws.put (0, 2 ^ 63) .white
  rw [hnone] at hput
  cases hput

end ROs
