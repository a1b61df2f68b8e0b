import ROs.Framebuffer.Buffer
import ROs.Lib.Bits

/-!
# Pixels

The pixel level of `framebuffer.rs`: `FrameBufferInfo`, `put_pixel` and `read_pixel`, whose panics
are `none`.

`FrameBufferInfo.surface` sees a buffer as a surface of pixels: the contents of a point are its
bytes, and putting a colour on it overlays them with the bytes of the colour.  A single
`put_pixel` paints one point and nothing else (`FrameBufferInfo.paints_putPixel`), and
`read_pixel` gives the colour of a point (`FrameBufferInfo.readPixel_of_live`), which is the
colour put there last, as the pixel format shows it (`FrameBufferInfo.decode_overlay`).
-/

namespace ROs

/-- `bootloader_api::info::PixelFormat`. -/
inductive PixelFormat where
  | rgb
  | bgr
  | u8
  | unknown (redPosition greenPosition bluePosition : UInt8)
  deriving Repr, DecidableEq

/-- `bootloader_api::info::FrameBufferInfo`. -/
structure FrameBufferInfo where
  width : ℕ
  height : ℕ
  pixelFormat : PixelFormat
  bytesPerPixel : ℕ
  /-- Number of pixels from the start of a line to the start of the next. -/
  stride : ℕ
  deriving Repr, DecidableEq

/-- The triple `(r, g, b)`. -/
structure Color where
  r : UInt8
  g : UInt8
  b : UInt8
  deriving Repr, DecidableEq, Inhabited

namespace Color

def black : Color := ⟨0, 0, 0⟩

def white : Color := ⟨0xFF, 0xFF, 0xFF⟩

end Color

/-! ### `put_pixel` and `read_pixel` -/

/-- `v << s` on `u32`, which panics for `s ≥ 32`. -/
def shlU32 (v : UInt32) (s : UInt8) : Option UInt32 :=
  if s < 32 then some (v <<< s.toUInt32) else none

/-- `v >> s` on `u32`, which panics for `s ≥ 32`. -/
def shrU32 (v : UInt32) (s : UInt8) : Option UInt32 :=
  if s < 32 then some (v >>> s.toUInt32) else none

theorem shlU32_of_lt {v : UInt32} {s : UInt8} (h : s.toNat < 32) :
    shlU32 v s = some (v <<< s.toUInt32) := if_pos h

theorem lt_of_shlU32 {v v' : UInt32} {s : UInt8} (h : shlU32 v s = some v') : s.toNat < 32 :=
  (Option.ite_none_right_eq_some.1 h).1

theorem shrU32_of_lt {v : UInt32} {s : UInt8} (h : s.toNat < 32) :
    shrU32 v s = some (v >>> s.toUInt32) := if_pos h

/-- The grey value of a colour: `((r as u16 + g as u16 + b as u16) / 3) as u8`. -/
def Color.average (c : Color) : UInt8 :=
  ((c.r.toUInt16 + c.g.toUInt16 + c.b.toUInt16) / 3).toUInt8

theorem Color.average_grey (v : UInt8) : Color.average ⟨v, v, v⟩ = v := by
  apply UInt8.toNat_inj.1
  have hv := v.toNat_lt
  have hsum : (v.toNat + v.toNat + v.toNat) % 65536 = 3 * v.toNat := by omega
  simp [Color.average, hsum]

/-- The bytes of a pixel, as `put_pixel` and `read_pixel` compute them: from
`offset = (y * info.stride + x) * bpp` up to `offset + bpp`. -/
def byteRange (info : FrameBufferInfo) (x y : ℕ) : Option (ℕ × ℕ) := do
  let bpp := info.bytesPerPixel
  let offset ← usize ((← usize ((← usize (y * info.stride)) + x)) * bpp)
  some (offset, ← usize (offset + bpp))

/-- `put_pixel`. -/
def putPixel (buf : Buf) (info : FrameBufferInfo) (x y : ℕ) (c : Color) : Option Buf :=
  if x ≥ info.width ∨ y ≥ info.height then
    some buf
  else do
    let bpp := info.bytesPerPixel
    let (offset, offsetEnd) ← byteRange info x y
    if offsetEnd > buf.size then
      some buf
    else
      match info.pixelFormat with
      | .rgb => do
        let buf ← buf.store offset c.r
        let buf ← buf.store (offset + 1) c.g
        let buf ← buf.store (offset + 2) c.b
        if bpp ≥ 4 then buf.store (offset + 3) 0xFF else some buf
      | .bgr => do
        let buf ← buf.store offset c.b
        let buf ← buf.store (offset + 1) c.g
        let buf ← buf.store (offset + 2) c.r
        if bpp ≥ 4 then buf.store (offset + 3) 0xFF else some buf
      | .u8 => buf.store offset c.average
      | .unknown redPosition greenPosition bluePosition => do
        let r ← shlU32 c.r.toUInt32 redPosition
        let g ← shlU32 c.g.toUInt32 greenPosition
        let b ← shlU32 c.b.toUInt32 bluePosition
        let bytes : Buf := Bits.toLeBytes (0 ||| r ||| g ||| b)
        let len := min bpp 4
        let src ← bytes.slice 0 len
        buf.copyFromSlice offset (offset + len) src

theorem keepsSize_putPixel {info : FrameBufferInfo} (x y : ℕ) (c : Color) :
    Buf.KeepsSize fun buf => putPixel buf info x y c := by
  have hlast : ∀ i, Buf.KeepsSize fun buf =>
      if info.bytesPerPixel ≥ 4 then buf.store i 0xFF else some buf := fun i => by
    split
    · exact Buf.keepsSize_store _ _
    · exact Buf.keepsSize_some
  intro buf buf' h
  dsimp only at h
  by_cases hon : x ≥ info.width ∨ y ≥ info.height
  · rw [putPixel, if_pos hon] at h
    exact Buf.keepsSize_some _ _ h
  rw [putPixel, if_neg hon] at h
  obtain ⟨⟨offset, offsetEnd⟩, -, h⟩ := Option.bind_eq_some_iff.1 h
  dsimp only at h
  by_cases hlen : offsetEnd > buf.size
  · rw [if_pos hlen] at h
    exact Buf.keepsSize_some _ _ h
  rw [if_neg hlen] at h
  cases hpf : info.pixelFormat with
  | rgb | bgr =>
    rw [hpf] at h
    exact ((Buf.keepsSize_store _ _).bind ((Buf.keepsSize_store _ _).bind
      ((Buf.keepsSize_store _ _).bind (hlast _)))) _ _ h
  | u8 =>
    rw [hpf] at h
    exact Buf.keepsSize_store _ _ _ _ h
  | unknown redPosition greenPosition bluePosition =>
    rw [hpf] at h
    obtain ⟨r, -, h⟩ := Option.bind_eq_some_iff.1 h
    obtain ⟨g, -, h⟩ := Option.bind_eq_some_iff.1 h
    obtain ⟨b, -, h⟩ := Option.bind_eq_some_iff.1 h
    obtain ⟨src, -, h⟩ := Option.bind_eq_some_iff.1 h
    exact Buf.keepsSize_copyFromSlice _ _ _ _ _ h

/-- `read_pixel`. -/
def readPixel (buf : Buf) (info : FrameBufferInfo) (x y : ℕ) : Option Color :=
  if x ≥ info.width ∨ y ≥ info.height then
    some .black
  else do
    let bpp := info.bytesPerPixel
    let (offset, offsetEnd) ← byteRange info x y
    if offsetEnd > buf.size then
      some .black
    else
      match info.pixelFormat with
      | .rgb => do some ⟨← buf[offset]?, ← buf[offset + 1]?, ← buf[offset + 2]?⟩
      | .bgr => do some ⟨← buf[offset + 2]?, ← buf[offset + 1]?, ← buf[offset]?⟩
      | .u8 => do
        let v ← buf[offset]?
        some ⟨v, v, v⟩
      | .unknown redPosition greenPosition bluePosition => do
        let len := min bpp 4
        let raw ← (List.range len).foldlM
          (fun raw i => do some (raw ||| (← buf[offset + i]?).toUInt32 <<< (i * 8).toUInt32)) 0
        let r := (← shrU32 raw redPosition) &&& 0xFF
        let g := (← shrU32 raw greenPosition) &&& 0xFF
        let b := (← shrU32 raw bluePosition) &&& 0xFF
        some ⟨r.toUInt8, g.toUInt8, b.toUInt8⟩

/-! ### Pixels as points of a surface -/

namespace FrameBufferInfo

variable (info : FrameBufferInfo)

/-- The pixel format fits the pixel: `Rgb` and `Bgr` need three bytes, `U8` one, and an unknown
format must place three disjoint 8-bit fields in the (at most four) bytes it uses. -/
def FormatFits : Prop :=
  match info.pixelFormat with
  | .rgb | .bgr => 3 ≤ info.bytesPerPixel
  | .u8 => 1 ≤ info.bytesPerPixel
  | .unknown r g b =>
    let bits := 8 * min info.bytesPerPixel 4
    r.toNat + 8 ≤ bits ∧ g.toNat + 8 ≤ bits ∧ b.toNat + 8 ≤ bits ∧
      (r.toNat + 8 ≤ g.toNat ∨ g.toNat + 8 ≤ r.toNat) ∧
      (r.toNat + 8 ≤ b.toNat ∨ b.toNat + 8 ≤ r.toNat) ∧
      (g.toNat + 8 ≤ b.toNat ∨ b.toNat + 8 ≤ g.toNat)

/-- `put_pixel` can form the bytes of a colour, and they fit into the pixel. -/
def FormatStores : Prop :=
  match info.pixelFormat with
  | .rgb | .bgr => 3 ≤ info.bytesPerPixel
  | .u8 => 1 ≤ info.bytesPerPixel
  | .unknown r g b => r.toNat < 32 ∧ g.toNat < 32 ∧ b.toNat < 32

/-- The index of the first byte of pixel `p = (x, y)`. -/
def offset (p : ℕ × ℕ) : ℕ := (p.2 * info.stride + p.1) * info.bytesPerPixel

/-- `p` is on the screen. -/
def OnScreen (p : ℕ × ℕ) : Prop := p.1 < info.width ∧ p.2 < info.height

instance (p : ℕ × ℕ) : Decidable (info.OnScreen p) := inferInstanceAs (Decidable (_ ∧ _))

/-- `p` is on the screen and its bytes lie in a buffer of `n` bytes. -/
def Live (n : ℕ) (p : ℕ × ℕ) : Prop := info.OnScreen p ∧ info.offset p + info.bytesPerPixel ≤ n

instance (n : ℕ) (p : ℕ × ℕ) : Decidable (info.Live n p) := inferInstanceAs (Decidable (_ ∧ _))

/-- A buffer of `n` bytes holds every pixel of the screen. -/
def Holds (n : ℕ) : Prop := ∀ p, info.OnScreen p → info.Live n p

/-- The index of pixel `p` and the end of its bytes are `usize` values. -/
def Addressable (p : ℕ × ℕ) : Prop :=
  p.2 * info.stride + p.1 ≤ USIZE_MAX ∧ info.offset p + info.bytesPerPixel ≤ USIZE_MAX

instance (p : ℕ × ℕ) : Decidable (info.Addressable p) := inferInstanceAs (Decidable (_ ∧ _))

/-- What the drawing functions rely on. -/
structure Fits : Prop where
  /-- Lines do not overlap. -/
  width_le_stride : info.width ≤ info.stride
  formatFits : info.FormatFits
  /-- The size of the screen is a pair of `usize` values. -/
  width_le : info.width ≤ USIZE_MAX
  height_le : info.height ≤ USIZE_MAX
  /-- No pixel of the screen lies beyond the address space. -/
  addressable : ∀ p, info.OnScreen p → info.Addressable p

/-- The bytes of pixel `p`. -/
def pixel (buf : Buf) (p : ℕ × ℕ) : ℕ → Option UInt8 :=
  fun k => if k < info.bytesPerPixel then buf[info.offset p + k]? else none

/-- The bytes `put_pixel` writes for a colour. -/
def encode (c : Color) : List UInt8 :=
  match info.pixelFormat with
  | .rgb => [c.r, c.g, c.b] ++ if info.bytesPerPixel ≥ 4 then [0xFF] else []
  | .bgr => [c.b, c.g, c.r] ++ if info.bytesPerPixel ≥ 4 then [0xFF] else []
  | .u8 => [c.average]
  | .unknown r g b =>
    (Bits.toLeBytes (0 ||| c.r.toUInt32 <<< r.toUInt32 ||| c.g.toUInt32 <<< g.toUInt32 |||
      c.b.toUInt32 <<< b.toUInt32)).toList.take (min info.bytesPerPixel 4)

/-- The colour `read_pixel` sees in the bytes of a pixel. -/
def decode (bytes : ℕ → Option UInt8) : Color :=
  let byte := fun k => (bytes k).getD 0
  match info.pixelFormat with
  | .rgb => ⟨byte 0, byte 1, byte 2⟩
  | .bgr => ⟨byte 2, byte 1, byte 0⟩
  | .u8 => ⟨byte 0, byte 0, byte 0⟩
  | .unknown r g b =>
    let raw := Bits.ofLeBytes (min info.bytesPerPixel 4) byte
    ⟨(raw >>> r.toUInt32 &&& 0xFF).toUInt8, (raw >>> g.toUInt32 &&& 0xFF).toUInt8,
      (raw >>> b.toUInt32 &&& 0xFF).toUInt8⟩

/-- How a colour looks once it is on the screen: grey for `U8`. -/
def shown (c : Color) : Color :=
  match info.pixelFormat with
  | .u8 => ⟨c.average, c.average, c.average⟩
  | _ => c

/-- The bytes of a pixel after `put_pixel`. -/
def overlay (c : Color) (bytes : ℕ → Option UInt8) : ℕ → Option UInt8 :=
  fun k => if k < (info.encode c).length then (info.encode c)[k]? else bytes k

variable {info}

theorem length_encode (info : FrameBufferInfo) (c c' : Color) :
    (info.encode c).length = (info.encode c').length := by
  unfold encode
  cases info.pixelFormat <;> simp [Bits.toLeBytes]

theorem FormatFits.stores (h : info.FormatFits) : info.FormatStores := by
  unfold FormatFits at h
  unfold FormatStores
  cases hpf : info.pixelFormat with
  | rgb | bgr | u8 => simpa only [hpf] using h
  | unknown r g b =>
    simp only [hpf] at h ⊢
    omega

theorem length_encode_le (h : info.FormatStores) (c : Color) :
    (info.encode c).length ≤ info.bytesPerPixel := by
  unfold encode
  unfold FormatStores at h
  cases hf : info.pixelFormat <;> simp only [hf] at h ⊢ <;> try split
  all_goals (simp [Bits.toLeBytes]; try omega)

/-- The pixel is not the last one of its line, which is not below the last line. -/
theorem offset_add_le (h : info.width ≤ info.stride) {p : ℕ × ℕ} (hp : info.OnScreen p) :
    info.offset p + info.bytesPerPixel ≤ info.stride * info.height * info.bytesPerPixel := by
  obtain ⟨hx, hy⟩ := hp
  have hline : p.2 * info.stride + p.1 + 1 ≤ info.stride * info.height :=
    calc p.2 * info.stride + p.1 + 1 ≤ p.2 * info.stride + info.stride := by omega
      _ = info.stride * (p.2 + 1) := by rw [Nat.mul_succ, Nat.mul_comm]
      _ ≤ info.stride * info.height := Nat.mul_le_mul_left _ hy
  rw [offset, ← Nat.succ_mul]
  exact Nat.mul_le_mul_right _ hline

/-- A buffer without line padding holds every pixel. -/
theorem holds_of_stride_eq (h : info.stride = info.width) :
    info.Holds (info.width * info.height * info.bytesPerPixel) :=
  fun _ hp => ⟨hp, h ▸ offset_add_le (Nat.le_of_eq h.symm) hp⟩

/-- A screen that does not have more bytes than there are addresses. -/
theorem addressable_of_le (h : info.width ≤ info.stride) (hbpp : 1 ≤ info.bytesPerPixel)
    (hle : info.stride * info.height * info.bytesPerPixel ≤ USIZE_MAX) {p : ℕ × ℕ}
    (hp : info.OnScreen p) : info.Addressable p := by
  have hbytes := (offset_add_le h hp).trans hle
  have hindex : p.2 * info.stride + p.1 ≤ info.offset p := Nat.le_mul_of_pos_right _ hbpp
  exact ⟨by omega, hbytes⟩

theorem FormatFits.one_le (h : info.FormatFits) : 1 ≤ info.bytesPerPixel := by
  unfold FormatFits at h
  cases hpf : info.pixelFormat <;> simp only [hpf] at h <;> omega

theorem Fits.of_le (hw : info.width ≤ info.stride) (hf : info.FormatFits)
    (hwidth : info.width ≤ USIZE_MAX) (hheight : info.height ≤ USIZE_MAX)
    (hle : info.stride * info.height * info.bytesPerPixel ≤ USIZE_MAX) : info.Fits :=
  ⟨hw, hf, hwidth, hheight, fun _ => addressable_of_le hw hf.one_le hle⟩

/-- The bytes of an addressable pixel. -/
theorem byteRange_of_addressable {p : ℕ × ℕ} (h : info.Addressable p) :
    byteRange info p.1 p.2 = some (info.offset p, info.offset p + info.bytesPerPixel) := by
  obtain ⟨hindex, hend⟩ := h
  simp only [offset] at hend ⊢
  rw [byteRange, usize_of_le (show p.2 * info.stride ≤ USIZE_MAX by omega)]
  simp only [Option.bind_eq_bind, Option.bind_some]
  rw [usize_of_le hindex, Option.bind_some, usize_of_le (by omega), Option.bind_some,
    usize_of_le hend, Option.bind_some]

/-- The offsets of the pixels of a line. -/
theorem offset_right (info : FrameBufferInfo) (x y i : ℕ) :
    info.offset (x + i, y) = info.offset (x, y) + i * info.bytesPerPixel := by
  simp only [offset]
  rw [← Nat.add_assoc, Nat.add_mul]

/-- The last of `w` pixels of a line ends where their bytes end. -/
theorem Live.row {n x y w : ℕ} (h : info.Live n (x + (w - 1), y)) (hw : 0 < w) :
    info.offset (x, y) + w * info.bytesPerPixel ≤ n := by
  have hend := h.2
  obtain ⟨v, rfl⟩ := Nat.exists_eq_succ_of_ne_zero (Nat.ne_of_gt hw)
  rw [Nat.succ_sub_one, offset_right] at hend
  rwa [Nat.succ_mul, ← Nat.add_assoc]

/-- The bytes of different pixels do not overlap. -/
theorem offset_disjoint (h : info.width ≤ info.stride) {p q : ℕ × ℕ} (hp : info.OnScreen p)
    (hq : info.OnScreen q) (hne : p ≠ q) :
    info.offset p + info.bytesPerPixel ≤ info.offset q ∨
      info.offset q + info.bytesPerPixel ≤ info.offset p := by
  obtain ⟨px, py⟩ := p
  obtain ⟨qx, qy⟩ := q
  simp only [OnScreen, offset] at hp hq ⊢
  have key : ∀ a b : ℕ, a < b → a * info.bytesPerPixel + info.bytesPerPixel ≤
      b * info.bytesPerPixel := fun a b hab =>
    (Nat.succ_mul a info.bytesPerPixel).symm ▸ Nat.mul_le_mul_right _ hab
  have line : ∀ {ax ay bx by' : ℕ}, ay < by' → ax < info.width →
      ay * info.stride + ax < by' * info.stride + bx := fun {ax ay bx by'} hy hx =>
    calc ay * info.stride + ax < ay * info.stride + info.stride := by omega
      _ = (ay + 1) * info.stride := (Nat.succ_mul _ _).symm
      _ ≤ by' * info.stride := Nat.mul_le_mul_right _ hy
      _ ≤ by' * info.stride + bx := Nat.le_add_right _ _
  rcases Nat.lt_trichotomy py qy with hy | rfl | hy
  · exact .inl (key _ _ (line hy hp.1))
  · rcases Nat.lt_or_ge px qx with hx | hx
    · exact .inl (key _ _ (by omega))
    · have : px ≠ qx := fun h => hne (by rw [h])
      exact .inr (key _ _ (by omega))
  · exact .inr (key _ _ (line hy hq.1))

/-- Writing `bytes` at pixel `p` changes the contents of `p` only. -/
theorem pixel_of_writes (hf : info.width ≤ info.stride) {buf buf' : Buf} {p q : ℕ × ℕ}
    {bytes : List UInt8} (hp : info.OnScreen p) (hq : info.OnScreen q)
    (hlen : bytes.length ≤ info.bytesPerPixel) (hw : buf.Writes (info.offset p) bytes buf') :
    info.pixel buf' q =
      if q = p then fun k => if k < bytes.length then bytes[k]? else info.pixel buf p k
      else info.pixel buf q := by
  split
  · rename_i h
    subst h
    funext k
    simp only [pixel, hw.getElem?]
    by_cases hk : k < bytes.length
    · rw [if_pos (by omega), if_pos (by omega), if_pos hk, Nat.add_sub_cancel_left]
    · rw [if_neg hk]
      split
      · rw [if_neg (by omega)]
      · rfl
  · rename_i hne
    funext k
    simp only [pixel, hw.getElem?]
    have hd := offset_disjoint hf hp hq (Ne.symm hne)
    split
    · rw [if_neg (by omega)]
    · rfl

/-- Writing the bytes of `w` pixels from pixel `(x, y)` on gives these pixels their share of the
bytes, and changes no other pixel. -/
theorem pixel_of_writes_row (hf : info.width ≤ info.stride) {buf buf' : Buf} {x y w : ℕ}
    {q : ℕ × ℕ} {bytes : List UInt8} (hx : x + w ≤ info.width) (hq : info.OnScreen q)
    (hlen : bytes.length = w * info.bytesPerPixel) (hw : buf.Writes (info.offset (x, y)) bytes buf') :
    info.pixel buf' q =
      if q.2 = y ∧ x ≤ q.1 ∧ q.1 < x + w then
        fun k => if k < info.bytesPerPixel then bytes[(q.1 - x) * info.bytesPerPixel + k]? else none
      else info.pixel buf q := by
  obtain ⟨qx, qy⟩ := q
  simp only [OnScreen] at hq
  funext k
  split
  · rename_i hin
    obtain ⟨rfl, hle, hlt⟩ := hin
    obtain ⟨i, rfl⟩ := Nat.exists_eq_add_of_le hle
    have hoff := offset_right info x qy i
    have hi : (i + 1) * info.bytesPerPixel ≤ w * info.bytesPerPixel :=
      Nat.mul_le_mul_right _ (by omega)
    rw [Nat.succ_mul] at hi
    simp only [pixel, hw.getElem?, hoff]
    split
    · rw [if_pos (by omega), Nat.add_sub_cancel_left]
      congr 1
      omega
    · rfl
  · rename_i hout
    simp only [pixel, hw.getElem?]
    split
    · rename_i hk
      rw [if_neg]
      have hrow : ∀ a b : ℕ, a < b → a * info.stride + info.stride ≤ b * info.stride :=
        fun a b hab => (Nat.succ_mul a info.stride).symm ▸ Nat.mul_le_mul_right _ hab
      have hidx : qy * info.stride + qx + 1 ≤ y * info.stride + x ∨
          y * info.stride + x + w ≤ qy * info.stride + qx := by
        rcases Nat.lt_trichotomy qy y with hy | rfl | hy
        · have := hrow _ _ hy
          omega
        · omega
        · have := hrow _ _ hy
          omega
      rcases hidx with hidx | hidx
      · have := Nat.mul_le_mul_right info.bytesPerPixel hidx
        rw [Nat.succ_mul] at this
        simp only [offset]
        omega
      · have := Nat.mul_le_mul_right info.bytesPerPixel hidx
        rw [Nat.add_mul (y * info.stride + x)] at this
        simp only [offset]
        omega
    · rfl

/-- Copying the bytes of `w` pixels from `(sx, sy)` of another buffer copies the pixels. -/
theorem pixel_of_copied_row (hf : info.width ≤ info.stride) {src : FrameBufferInfo}
    (hbpp : src.bytesPerPixel = info.bytesPerPixel) {srcBuf buf buf' : Buf} {sx sy x y w : ℕ}
    {q : ℕ × ℕ} (hx : x + w ≤ info.width) (hq : info.OnScreen q)
    (hsrc : src.offset (sx, sy) + w * info.bytesPerPixel ≤ srcBuf.size)
    (hw : buf.Writes (info.offset (x, y)) (srcBuf.extract (src.offset (sx, sy))
      (src.offset (sx, sy) + w * info.bytesPerPixel)).toList buf') :
    info.pixel buf' q =
      if q.2 = y ∧ x ≤ q.1 ∧ q.1 < x + w then src.pixel srcBuf (sx + (q.1 - x), sy)
      else info.pixel buf q := by
  have hlen : (srcBuf.extract (src.offset (sx, sy))
      (src.offset (sx, sy) + w * info.bytesPerPixel)).toList.length = w * info.bytesPerPixel := by
    rw [Array.length_toList, Array.size_extract]
    omega
  rw [pixel_of_writes_row hf hx hq hlen hw]
  split
  · rename_i hin
    have hi : (q.1 - x + 1) * info.bytesPerPixel ≤ w * info.bytesPerPixel :=
      Nat.mul_le_mul_right _ (by omega)
    rw [Nat.succ_mul] at hi
    funext k
    simp only [pixel, offset_right, hbpp]
    split
    · rw [Array.getElem?_toList, Array.getElem?_extract, if_pos (by omega), Nat.add_assoc]
    · rfl
  · rfl

variable (info)

/-- The colour of pixel `p`. -/
def color (buf : Buf) (p : ℕ × ℕ) : Color := info.decode (info.pixel buf p)

/-- The colour that is seen at `p`: black outside the screen or the buffer. -/
def seen (buf : Buf) (p : ℕ × ℕ) : Color :=
  if info.Live buf.size p then info.color buf p else .black

/-- Buffers of `n` bytes with the pixels of `info`, painted by `put_pixel`. -/
def surface (n : ℕ) : Surface Buf (ℕ × ℕ) Color (ℕ → Option UInt8) where
  Ok buf := buf.size = n
  Live := info.Live n
  look := info.pixel
  mix := info.overlay
  mix_mix c c' bytes := by
    funext k
    simp only [overlay, info.length_encode c' c]
    split <;> rfl

variable {info}

/-- `put_pixel` in the formats whose bytes are stored one by one. -/
theorem putPixel_eq_storeAll {buf : Buf} {p : ℕ × ℕ} (ha : info.Addressable p)
    (hp : info.Live buf.size p) (c : Color) (hpf : ∀ r g b, info.pixelFormat ≠ .unknown r g b) :
    putPixel buf info p.1 p.2 c = buf.storeAll (info.offset p) (info.encode c) := by
  obtain ⟨⟨hx, hy⟩, hlen⟩ := hp
  unfold putPixel encode
  rw [if_neg (by omega), byteRange_of_addressable ha]
  cases h : info.pixelFormat with
  | rgb | bgr => by_cases h4 : 4 ≤ info.bytesPerPixel <;> simp [Buf.storeAll, h4, Nat.not_lt.2 hlen]
  | u8 => simp [Buf.storeAll, Nat.not_lt.2 hlen]
  | unknown r g b => exact absurd h (hpf r g b)

/-- `put_pixel` in an unknown format copies a slice. -/
theorem putPixel_eq_copyFromSlice (hf : info.FormatStores) {buf : Buf} {p : ℕ × ℕ}
    (ha : info.Addressable p) (hp : info.Live buf.size p) (c : Color) {r g b : UInt8}
    (hpf : info.pixelFormat = .unknown r g b) :
    putPixel buf info p.1 p.2 c = buf.copyFromSlice (info.offset p)
      (info.offset p + min info.bytesPerPixel 4) (info.encode c).toArray := by
  obtain ⟨⟨hx, hy⟩, hlen⟩ := hp
  unfold FormatStores at hf
  simp only [hpf] at hf
  unfold putPixel encode
  rw [if_neg (by omega), byteRange_of_addressable ha]
  simp only [Option.bind_eq_bind, Option.bind_some, hpf, Nat.not_lt.2 hlen, if_false, GT.gt]
  rw [shlU32_of_lt hf.1, shlU32_of_lt hf.2.1, shlU32_of_lt hf.2.2]
  have hslice : ∀ v, Buf.slice (Bits.toLeBytes v) 0 (min info.bytesPerPixel 4) =
      some ((Bits.toLeBytes v).toList.take (min info.bytesPerPixel 4)).toArray := fun v => by
    rw [Buf.slice_of_le (Nat.zero_le _) (show _ ≤ 4 from Nat.min_le_right _ _), Option.some.injEq]
    exact Array.toList_inj.1 (by simp)
  simp only [Option.bind_some, hslice]

/-- `put_pixel` on a point of the screen whose bytes are in the buffer writes the colour there. -/
theorem putPixel_of_live (hf : info.FormatStores) {buf : Buf} {p : ℕ × ℕ}
    (ha : info.Addressable p) (hp : info.Live buf.size p) (c : Color) :
    ∃ buf', putPixel buf info p.1 p.2 c = some buf' ∧
      buf.Writes (info.offset p) (info.encode c) buf' := by
  have henc := length_encode_le hf c
  have hlen := hp.2
  by_cases hpf : ∃ r g b, info.pixelFormat = .unknown r g b
  · obtain ⟨r, g, b, hpf⟩ := hpf
    have hsize : (info.encode c).length = min info.bytesPerPixel 4 := by
      simp [encode, hpf, Bits.toLeBytes]
    rw [putPixel_eq_copyFromSlice hf ha hp c hpf]
    exact Buf.exists_copyFromSlice _ _ (by omega) (by omega) (by simp [hsize])
  · rw [putPixel_eq_storeAll ha hp c fun r g b h => hpf ⟨r, g, b, h⟩]
    exact Buf.exists_storeAll (by omega)

/-- `put_pixel` outside the screen does nothing. -/
theorem putPixel_of_not_onScreen {buf : Buf} {p : ℕ × ℕ} (hp : ¬ info.OnScreen p) (c : Color) :
    putPixel buf info p.1 p.2 c = some buf := by
  unfold OnScreen at hp
  rw [putPixel, if_pos (by omega)]

/-- `put_pixel` outside the screen or the buffer does nothing. -/
theorem putPixel_of_not_live {buf : Buf} {p : ℕ × ℕ} (ha : info.OnScreen p → info.Addressable p)
    (hp : ¬ info.Live buf.size p) (c : Color) : putPixel buf info p.1 p.2 c = some buf := by
  by_cases hon : info.OnScreen p
  · have hlen : info.offset p + info.bytesPerPixel > buf.size := by
      by_contra hle
      exact hp ⟨hon, by omega⟩
    unfold OnScreen at hon
    rw [putPixel, if_neg (by omega), byteRange_of_addressable (ha hon)]
    exact if_pos hlen
  · exact putPixel_of_not_onScreen hon c

/-- `put_pixel` paints one point, if its bytes can be formed and addressed. -/
theorem paints_putPixel_of_stores (hs : info.width ≤ info.stride) (hf : info.FormatStores) {n : ℕ}
    {p : ℕ × ℕ} (ha : info.OnScreen p → info.Addressable p) (c : Color) :
    (info.surface n).Paints (Layer.fill (· = p) c) fun buf => putPixel buf info p.1 p.2 c := by
  rintro buf rfl
  by_cases hp : info.Live buf.size p
  · obtain ⟨buf', hput, hw⟩ := putPixel_of_live hf (ha hp.1) hp c
    refine ⟨buf', hput, hw.size_eq, fun q hq => ?_⟩
    change info.pixel buf' q = _
    rw [pixel_of_writes hs hp.1 hq.1 (length_encode_le hf c) hw, Layer.fill_apply]
    split
    · rename_i hqp
      rw [hqp]
      rfl
    · rfl
  · refine ⟨buf, putPixel_of_not_live ha hp c, rfl, fun q hq => ?_⟩
    rw [Layer.fill_apply, if_neg (by rintro rfl; exact hp hq)]
    rfl

/-- **`put_pixel` paints one point.** -/
theorem paints_putPixel (h : info.Fits) {n : ℕ} (p : ℕ × ℕ) (c : Color) :
    (info.surface n).Paints (Layer.fill (· = p) c) fun buf => putPixel buf info p.1 p.2 c :=
  paints_putPixel_of_stores h.width_le_stride h.formatFits.stores (h.addressable p) c

theorem pixel_of_lt {buf : Buf} {p : ℕ × ℕ} {k : ℕ} (hk : k < info.bytesPerPixel) :
    info.pixel buf p k = buf[info.offset p + k]? := if_pos hk

/-- `read_pixel` gives the colour of a point that can be seen. -/
theorem readPixel_of_live (hf : info.Fits) {buf : Buf} {p : ℕ × ℕ}
    (hp : info.Live buf.size p) :
    readPixel buf info p.1 p.2 = some (info.color buf p) := by
  have ha := hf.addressable p hp.1
  replace hf := hf.formatFits
  obtain ⟨⟨hx, hy⟩, hlen⟩ := hp
  have hbyte : ∀ k, k < info.bytesPerPixel →
      buf[info.offset p + k]? = some ((info.pixel buf p k).getD 0) := fun k hk => by
    rw [pixel_of_lt hk, Array.getElem?_eq_getElem (by omega), Option.getD_some]
  unfold FormatFits at hf
  unfold readPixel color decode
  rw [if_neg (by omega), byteRange_of_addressable ha]
  simp only [Option.bind_eq_bind, Option.bind_some, GT.gt, Nat.not_lt.2 hlen, if_false]
  cases hpf : info.pixelFormat with
  | rgb | bgr =>
    simp only [hpf] at hf
    have h0 := hbyte 0 (by omega)
    rw [Nat.add_zero] at h0
    simp [h0, hbyte 1 (by omega), hbyte 2 (by omega)]
  | u8 =>
    simp only [hpf] at hf
    have h0 := hbyte 0 (by omega)
    rw [Nat.add_zero] at h0
    simp [h0]
  | unknown r g b =>
    simp only [hpf] at hf
    simp only
    rw [foldlM_some (g := fun raw i =>
      raw ||| ((info.pixel buf p i).getD 0).toUInt32 <<< (i * 8).toUInt32) (fun i hi raw => by
        rw [hbyte i (by have := List.mem_range.1 hi; omega)]; rfl)]
    simp [shrU32_of_lt (show r.toNat < 32 by omega), shrU32_of_lt (show g.toNat < 32 by omega),
      shrU32_of_lt (show b.toNat < 32 by omega), Bits.ofLeBytes]

/-- `read_pixel` outside the screen or the buffer gives black. -/
theorem readPixel_of_not_live (hf : info.Fits) {buf : Buf} {p : ℕ × ℕ}
    (hp : ¬ info.Live buf.size p) : readPixel buf info p.1 p.2 = some .black := by
  unfold readPixel
  split
  · rfl
  · rename_i hon
    have hon' : info.OnScreen p := by
      unfold OnScreen
      omega
    rw [byteRange_of_addressable (hf.addressable p hon')]
    simp only [Option.bind_eq_bind, Option.bind_some]
    rw [if_pos]
    by_contra hlen
    exact hp ⟨hon', by omega⟩

/-- **`read_pixel` never fails**, and gives the colour that is seen. -/
theorem readPixel_eq_seen (hf : info.Fits) (buf : Buf) (p : ℕ × ℕ) :
    readPixel buf info p.1 p.2 = some (info.seen buf p) := by
  unfold seen
  split
  · rename_i hp
    exact readPixel_of_live hf hp
  · rename_i hp
    exact readPixel_of_not_live hf hp

/-- Putting a colour that was read from the screen shows it again. -/
theorem shown_decode (bytes : ℕ → Option UInt8) :
    info.shown (info.decode bytes) = info.decode bytes := by
  unfold shown
  split
  · rename_i h
    simp [decode, h, Color.average_grey]
  · rfl

/-- **Reading back a colour.** -/
theorem decode_overlay (h : info.FormatFits) (c : Color) (bytes : ℕ → Option UInt8) :
    info.decode (info.overlay c bytes) = info.shown c := by
  unfold FormatFits at h
  cases hpf : info.pixelFormat with
  | rgb | bgr | u8 => simp [decode, shown, overlay, encode, hpf]
  | unknown r g b =>
    simp only [hpf] at h
    obtain ⟨len, hlen⟩ : ∃ len, len = min info.bytesPerPixel 4 := ⟨_, rfl⟩
    simp only [decode, shown, overlay, encode, hpf, ← hlen] at h ⊢
    generalize hv : 0 ||| c.r.toUInt32 <<< r.toUInt32 ||| c.g.toUInt32 <<< g.toUInt32 |||
      c.b.toUInt32 <<< b.toUInt32 = v
    have hs : ∀ s : UInt8, s.toUInt32.toNat = s.toNat := UInt8.toNat_toUInt32
    have hbits : ∀ j < 8 * len, v.toNat.testBit j =
        ((decide (r.toNat ≤ j) && c.r.toNat.testBit (j - r.toNat)) ||
          (decide (g.toNat ≤ j) && c.g.toNat.testBit (j - g.toNat)) ||
            (decide (b.toNat ≤ j) && c.b.toNat.testBit (j - b.toNat))) := fun j hj => by
      rw [← hv]
      have hshift : ∀ v s : UInt8, s.toNat + 8 ≤ 32 →
          (v.toUInt32 <<< s.toUInt32).toNat.testBit j =
            (decide (s.toNat ≤ j) && v.toNat.testBit (j - s.toNat)) := fun v s h32 => by
        rw [Bits.testBit_shiftByte (by rw [hs]; exact h32), hs]
      simp only [UInt32.toNat_or, Nat.testBit_or, hshift _ _ (show r.toNat + 8 ≤ 32 by omega),
        hshift _ _ (show g.toNat + 8 ≤ 32 by omega), hshift _ _ (show b.toNat + 8 ≤ 32 by omega)]
      simp
    have hbyte : ∀ i < len, (if i < ((Bits.toLeBytes v).toList.take len).length then
        ((Bits.toLeBytes v).toList.take len)[i]? else bytes i).getD 0 =
          ((Bits.toLeBytes v)[i]?).getD 0 := fun i hi => by
      have hsize : (Bits.toLeBytes v).size = 4 := rfl
      rw [if_pos (by simp; omega), List.getElem?_take_of_lt (by omega)]
      simp
    have hfield : ∀ s j : ℕ, j < 8 → s + 8 ≤ 8 * len →
        (Bits.ofLeBytes len fun i => (if i < ((Bits.toLeBytes v).toList.take len).length then
          ((Bits.toLeBytes v).toList.take len)[i]? else bytes i).getD 0).toNat.testBit (s + j) =
            v.toNat.testBit (s + j) := fun s j hj hsl =>
      Bits.testBit_ofLeBytes_toLeBytes v (by omega) hbyte (by omega)
    rw [Color.mk.injEq]
    obtain ⟨hr, hg, hb, hrg, hrb, hgb⟩ := h
    refine ⟨Bits.toUInt8_shiftRight (by rw [hs]; omega) fun j hj => ?_,
      Bits.toUInt8_shiftRight (by rw [hs]; omega) fun j hj => ?_,
      Bits.toUInt8_shiftRight (by rw [hs]; omega) fun j hj => ?_⟩
    · rw [hs, hfield _ _ hj (by omega), hbits _ (by omega),
        Bits.testBit_outside hj hrg, Bits.testBit_outside hj hrb]
      simp
    · rw [hs, hfield _ _ hj (by omega), hbits _ (by omega),
        Bits.testBit_outside hj hrg.symm, Bits.testBit_outside hj hgb]
      simp
    · rw [hs, hfield _ _ hj (by omega), hbits _ (by omega),
        Bits.testBit_outside hj hrb.symm, Bits.testBit_outside hj hgb.symm]
      simp

/-- The colours after painting a layer. -/
theorem color_of_look (h : info.FormatFits) {n : ℕ} {buf buf' : Buf} {p : ℕ × ℕ} {o : Option Color}
    (hlook : (info.surface n).look buf' p = (info.surface n).apply o ((info.surface n).look buf p)) :
    info.color buf' p = (o.map info.shown).getD (info.color buf p) := by
  change info.pixel buf' p = (info.surface n).apply o (info.pixel buf p) at hlook
  unfold color
  cases o with
  | none => rw [hlook]; rfl
  | some c => rw [hlook]; exact decode_overlay h c _

/-- What a painting program does to the colours. -/
theorem exists_color_of_paints (h : info.FormatFits) {n : ℕ} {l : Layer (ℕ × ℕ) Color}
    {d : Buf → Option Buf} (hd : (info.surface n).Paints l d) {buf : Buf} (hbuf : buf.size = n) :
    ∃ buf', d buf = some buf' ∧ buf'.size = n ∧ ∀ p, info.Live n p →
      info.color buf' p = ((l p).map info.shown).getD (info.color buf p) := by
  obtain ⟨buf', hsome, hsize, hlook⟩ := hd buf hbuf
  exact ⟨buf', hsome, hsize, fun p hp => color_of_look h (hlook p hp)⟩

/-- Painting a layer, as it is seen. -/
theorem exists_seen_of_paints (h : info.FormatFits) {n : ℕ} {l : Layer (ℕ × ℕ) Color}
    {d : Buf → Option Buf} (hd : (info.surface n).Paints l d) {buf : Buf} (hbuf : buf.size = n) :
    ∃ buf', d buf = some buf' ∧ buf'.size = n ∧ ∀ p, info.Live n p →
      info.seen buf' p = ((l p).map info.shown).getD (info.seen buf p) := by
  obtain ⟨buf', hsome, hsize, hcolor⟩ := exists_color_of_paints h hd hbuf
  refine ⟨buf', hsome, hsize, fun p hp => ?_⟩
  rw [seen, seen, hsize, hbuf, if_pos hp, if_pos hp, hcolor p hp]

@[simp] theorem shown_black : info.shown .black = .black := by
  unfold shown
  split <;> rfl

@[simp] theorem shown_white : info.shown .white = .white := by
  unfold shown
  split <;> rfl

@[simp] theorem shown_seen (buf : Buf) (p : ℕ × ℕ) :
    info.shown (info.seen buf p) = info.seen buf p := by
  unfold seen
  split
  · exact shown_decode _
  · exact shown_black

end FrameBufferInfo

end ROs
