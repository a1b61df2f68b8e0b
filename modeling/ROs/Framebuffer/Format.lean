import ROs.Framebuffer.Buffer
import ROs.Lib.Numeral

/-!
# Numbers as text

The formatting helpers of `framebuffer.rs`.  They write ASCII characters into a buffer, from a
position on, and return the position after them.  `Buf.Printed` says what was written from the start
of the buffer so far; a digit is one more byte of it.

* `formatAddrRange_exact` : **both addresses are written in full, with at least four digits and no
  zero in front of more**, and `parseAddrRange` reads them back.
-/

namespace ROs

open Numeral

/-! ### The functions -/

/-- The digits of `n`, the least significant first, in an array with `slots` places left. -/
def decimalDigits : ℕ → UInt64 → Option (List UInt8)
  | 0, n => if n > 0 then none else some []
  | slots + 1, n =>
    if n > 0 then do
      some (((n % 10).toUInt8 + '0'.toUInt8) :: (← decimalDigits slots (n / 10)))
    else
      some []

/-- `if pos < limit { buf[pos] = v; pos += 1; }` -/
def storeWithin (limit : ℕ) (self : Buf × ℕ) (v : UInt8) : Option (Buf × ℕ) :=
  if self.2 < limit then do
    let buf ← self.1.store self.2 v
    some (buf, self.2 + 1)
  else
    some self

/-- `write_u64_decimal`. -/
def writeU64Decimal (buf : Buf) (pos : ℕ) (val : UInt64) : Option (Buf × ℕ) :=
  if val = 0 then
    storeWithin buf.size (buf, pos) '0'.toUInt8
  else do
    let digits ← decimalDigits 20 val
    digits.reverse.foldlM (storeWithin buf.size) (buf, pos)

/-- `str::as_bytes`. -/
def asBytes (s : String) : List UInt8 := s.toUTF8.data.toList

/-- The pair `(val, suffix)` of `format_size`. -/
def sizeParts (size : UInt64) : UInt64 × String :=
  if size ≥ 1024 * 1024 * 1024 then (size / (1024 * 1024 * 1024), " GiB")
  else if size ≥ 1024 * 1024 then (size / (1024 * 1024), " MiB")
  else if size ≥ 1024 then (size / 1024, " KiB")
  else (size, " B")

/-- `format_size`. -/
def formatSize (buf : Buf) (size : UInt64) : Option (Buf × ℕ) := do
  let (val, suffix) := sizeParts size
  let pos := 0
  let (buf, pos) ← writeU64Decimal buf pos val
  (asBytes suffix).foldlM (storeWithin 24) (buf, pos)

/-- The body of the loop of `write_hex`; the flag says that a digit was written. -/
def writeNibble (val : UInt64) (limit : ℕ) (self : (Buf × ℕ) × Bool) (shift : ℕ) :
    Option ((Buf × ℕ) × Bool) :=
  let ((buf, pos), started) := self
  let nibble := ((val >>> (shift * 4).toUInt64) &&& 0xF).toUInt8
  if nibble ≠ 0 ∨ started ∨ shift < 4 then
    if pos < limit then do
      let buf ← buf.store pos
        (if nibble < 10 then '0'.toUInt8 + nibble else 'a'.toUInt8 + nibble - 10)
      some ((buf, pos + 1), true)
    else
      some self
  else
    some self

/-- `write_hex`. -/
def writeHex (buf : Buf) (pos : ℕ) (val : UInt64) (limit : ℕ) : Option (Buf × ℕ) :=
  if pos + 2 > limit then
    some (buf, pos)
  else do
    let buf ← buf.store pos '0'.toUInt8
    let pos := pos + 1
    let buf ← buf.store pos 'x'.toUInt8
    let pos := pos + 1
    let (self, _) ← (List.range 16).reverse.foldlM (writeNibble val limit) ((buf, pos), false)
    some self

/-- `format_addr_range`. -/
def formatAddrRange (buf : Buf) (start finish : UInt64) : Option (Buf × ℕ) := do
  let pos := 0
  let (buf, pos) ← writeHex buf pos start 40
  let (buf, pos) ← if pos + 1 ≤ 40 then do
      let buf ← buf.store pos '-'.toUInt8
      some (buf, pos + 1)
    else
      some (buf, pos)
  writeHex buf pos finish 40

/-! ### What is written -/

/-- `text` was written from the start of `buf`, and the position is after it. -/
structure Buf.Printed (buf : Buf) (text : List UInt8) (out : Buf × ℕ) : Prop where
  writes : buf.Writes 0 text out.1
  pos_eq : out.2 = text.length

namespace Buf.Printed

variable {buf : Buf} {text : List UInt8} {out : Buf × ℕ} {limit : ℕ}

theorem nil (buf : Buf) : buf.Printed [] (buf, 0) := ⟨⟨rfl, fun _ => rfl⟩, rfl⟩

/-- One more byte. -/
theorem store (h : buf.Printed text out) (hlt : text.length < buf.size) (v : UInt8) :
    ∃ buf', out.1.store out.2 v = some buf' ∧ buf.Printed (text ++ [v]) (buf', out.2 + 1) := by
  have hpos := h.pos_eq
  have hsize := h.writes.size_eq
  have hin : out.2 < out.1.size := by omega
  refine ⟨_, dif_pos hin, ⟨?_, ?_⟩, ?_⟩
  · rw [Array.size_set, hsize]
  · intro i
    rw [Array.getElem?_set, h.writes.getElem?, List.length_append, List.length_singleton, hpos]
    by_cases hi : text.length = i
    · subst hi
      simp
    · rw [if_neg hi]
      by_cases hlt' : i < text.length
      · rw [if_pos ⟨Nat.zero_le _, by omega⟩, if_pos ⟨Nat.zero_le _, by omega⟩,
          Nat.sub_zero, List.getElem?_append_left hlt']
      · rw [if_neg (by omega), if_neg (by omega)]
  · rw [List.length_append]
    exact congrArg (· + 1) hpos

theorem storeWithin (h : buf.Printed text out) (hlt : text.length < limit)
    (hlimit : limit ≤ buf.size) (v : UInt8) :
    ∃ out', ROs.storeWithin limit out v = some out' ∧ buf.Printed (text ++ [v]) out' := by
  obtain ⟨buf', hstore, h'⟩ := h.store (Nat.lt_of_lt_of_le hlt hlimit) v
  refine ⟨_, ?_, h'⟩
  rw [ROs.storeWithin, if_pos (h.pos_eq ▸ hlt), hstore]
  rfl

/-- As many bytes as there is room for. -/
theorem foldlM_storeWithin (h : buf.Printed text out) (hlimit : limit ≤ buf.size)
    (bytes : List UInt8) (hroom : text.length + bytes.length ≤ limit) :
    ∃ out', bytes.foldlM (ROs.storeWithin limit) out = some out' ∧
      buf.Printed (text ++ bytes) out' := by
  induction bytes generalizing text out with
  | nil => exact ⟨out, rfl, by rwa [List.append_nil]⟩
  | cons v bytes ih =>
    rw [List.length_cons] at hroom
    obtain ⟨out₁, hstore, h₁⟩ := h.storeWithin (by omega) hlimit v
    obtain ⟨out', hrest, h'⟩ := ih h₁ (by rw [List.length_append, List.length_singleton]; omega)
    refine ⟨out', ?_, ?_⟩
    · rw [List.foldlM_cons, hstore]
      exact hrest
    · rwa [List.append_assoc] at h'

end Buf.Printed

/-! ### Decimal numbers -/

/-- The digits that repeated division gives. -/
theorem exists_decimalDigits (slots : ℕ) (n : UInt64) (h : n.toNat < 10 ^ slots) :
    ∃ ds, decimalDigits slots n = some (ds.map digitByte).reverse ∧ Canonical 10 0 ds ∧
      value 10 ds = n.toNat ∧ ds.length ≤ slots := by
  induction slots generalizing n with
  | zero =>
    have hn : n = 0 := UInt64.toNat_inj.1 (Nat.lt_one_iff.1 h)
    exact ⟨[], by rw [decimalDigits, hn]; rfl, canonical_nil, by rw [hn]; rfl, Nat.le_refl _⟩
  | succ slots ih =>
    rw [decimalDigits]
    by_cases hn : n > 0
    · have hpos : 0 < n.toNat := hn
      have hdiv : (n / 10).toNat = n.toNat / 10 := UInt64.toNat_div n 10
      have hmod : (n % 10).toNat = n.toNat % 10 := UInt64.toNat_mod n 10
      obtain ⟨ds, hds, hcanonical, hvalue, hlen⟩ := ih (n / 10) (by rw [hdiv]; omega)
      refine ⟨ds ++ [n.toNat % 10], ?_, ?_, value_concat_mod (hvalue.trans hdiv), ?_⟩
      · have hdigit : (n % 10).toUInt8 + '0'.toUInt8 = digitByte (n.toNat % 10) := by
          have hlt : n.toNat % 10 < 10 := Nat.mod_lt _ (by decide)
          apply UInt8.toNat_inj.1
          rw [digitByte, if_pos hlt, UInt8.add_comm]
          simp [hmod]
        rw [if_pos hn, hds, hdigit, List.map_append, List.reverse_append]
        rfl
      · refine hcanonical.concat_zero (Nat.mod_lt _ (by decide)) ?_
        intro hnil
        subst hnil
        rw [value_nil, hdiv] at hvalue
        omega
      · rw [List.length_append]
        exact Nat.succ_le_succ hlen
    · have hn0 : n = 0 := UInt64.toNat_inj.1 (Nat.eq_zero_of_not_pos hn)
      exact ⟨[], by rw [if_neg hn]; rfl, canonical_nil, by rw [hn0]; rfl, Nat.zero_le _⟩

/-- The numeral of `v`, and how the functions get it. -/
structure Decimal (v : UInt64) (ds : List ℕ) : Prop where
  canonical : Canonical 10 1 ds
  value_eq : value 10 ds = v.toNat
  length_le : ds.length ≤ 20
  zero : v = 0 → ds = [0]
  loop : v ≠ 0 → decimalDigits 20 v = some (ds.map digitByte).reverse

theorem exists_decimal (v : UInt64) : ∃ ds, Decimal v ds := by
  by_cases hv : v = 0
  · refine ⟨[0], ⟨by decide, Nat.le_refl _, fun h => absurd h (by decide)⟩, ?_, by decide,
      fun _ => rfl, fun h => absurd hv h⟩
    rw [hv]
    rfl
  · obtain ⟨ds, hds, hcanonical, hvalue, hlen⟩ :=
      exists_decimalDigits 20 v (Nat.lt_trans v.toNat_lt (by decide))
    have hne : value 10 ds ≠ 0 := by
      rw [hvalue]
      exact fun h => hv (UInt64.toNat_inj.1 h)
    exact ⟨ds, hcanonical.one_le hne, hvalue, hlen, fun h => absurd h hv, fun _ => hds⟩

/-- `write_u64_decimal` at the start of a buffer with room for all digits. -/
theorem Decimal.writeU64Decimal {v : UInt64} {ds : List ℕ} (h : Decimal v ds) {buf : Buf}
    (hbuf : 20 ≤ buf.size) :
    ∃ out, ROs.writeU64Decimal buf 0 v = some out ∧ buf.Printed (ds.map digitByte) out := by
  have hlen := h.length_le
  obtain ⟨out, hstore, hprinted⟩ := (Buf.Printed.nil buf).foldlM_storeWithin (Nat.le_refl _)
    (ds.map digitByte) (by rw [List.length_map, List.length_nil]; omega)
  refine ⟨out, ?_, hprinted⟩
  rw [ROs.writeU64Decimal]
  by_cases hv : v = 0
  · rw [h.zero hv, List.map_singleton, List.foldlM_cons] at hstore
    simp only [List.foldlM_nil, bind_pure] at hstore
    rw [if_pos hv]
    exact hstore
  · rw [if_neg hv, h.loop hv]
    simp only [Option.bind_eq_bind, Option.bind_some, List.reverse_reverse]
    exact hstore

/-! ### Sizes -/

/-- The units of `format_size`. -/
def sizeUnits : List (ℕ × String) :=
  [(1, " B"), (2 ^ 10, " KiB"), (2 ^ 20, " MiB"), (2 ^ 30, " GiB")]

theorem div_unit (size unit : UInt64) (hunit : 0 < unit.toNat) :
    (size / unit).toNat * unit.toNat ≤ size.toNat ∧
      size.toNat < ((size / unit).toNat + 1) * unit.toNat := by
  rw [UInt64.toNat_div]
  exact ⟨Nat.div_mul_le_self _ _, by rw [Nat.mul_comm]; exact Nat.lt_mul_div_succ _ hunit⟩

/-- The unit is the largest one that is not larger than the size. -/
theorem exists_sizeUnit (size : UInt64) :
    ∃ unit, (unit, (sizeParts size).2) ∈ sizeUnits ∧
      (sizeParts size).1.toNat * unit ≤ size.toNat ∧
      size.toNat < ((sizeParts size).1.toNat + 1) * unit ∧ unit ≤ max size.toNat 1 ∧
      ∀ u ∈ sizeUnits, u.1 ≤ max size.toNat 1 → u.1 ≤ unit := by
  have hge : ∀ n : UInt64, size ≥ n ↔ n.toNat ≤ size.toNat := fun n => UInt64.le_iff_toNat_le
  have hgib : (1024 * 1024 * 1024 : UInt64).toNat = 2 ^ 30 := rfl
  have hmib : (1024 * 1024 : UInt64).toNat = 2 ^ 20 := rfl
  have hkib : (1024 : UInt64).toNat = 2 ^ 10 := rfl
  rw [sizeParts]
  simp only [hge, hgib, hmib, hkib, sizeUnits, List.forall_mem_cons]
  split
  · obtain ⟨hle, hlt⟩ := div_unit size (1024 * 1024 * 1024) (by decide)
    rw [hgib] at hle hlt
    exact ⟨2 ^ 30, by simp, hle, hlt, by omega, by omega, by omega, by omega, by omega, nofun⟩
  split
  · obtain ⟨hle, hlt⟩ := div_unit size (1024 * 1024) (by decide)
    rw [hmib] at hle hlt
    exact ⟨2 ^ 20, by simp, hle, hlt, by omega, by omega, by omega, by omega, by omega, nofun⟩
  split
  · obtain ⟨hle, hlt⟩ := div_unit size 1024 (by decide)
    rw [hkib] at hle hlt
    exact ⟨2 ^ 10, by simp, hle, hlt, by omega, by omega, by omega, by omega, by omega, nofun⟩
  · exact ⟨1, by simp, by dsimp only; omega, by dsimp only; omega, by omega, by omega, by omega,
      by omega, by omega, nofun⟩

/-- `format_size` writes the value and the suffix, without truncation. -/
theorem exists_formatSize (size : UInt64) {ds : List ℕ} (h : Decimal (sizeParts size).1 ds)
    {buf : Buf} (hbuf : buf.size = 24) :
    ∃ out, formatSize buf size = some out ∧
      buf.Printed (ds.map digitByte ++ asBytes (sizeParts size).2) out ∧
      (ds.map digitByte ++ asBytes (sizeParts size).2).length ≤ 24 := by
  obtain ⟨out₁, hwrite, h₁⟩ := h.writeU64Decimal (show 20 ≤ buf.size by omega)
  have hlen := h.length_le
  have hsuffix : (asBytes (sizeParts size).2).length ≤ 4 := by
    obtain ⟨unit, hunit, -⟩ := exists_sizeUnit size
    have hunits : ∀ u ∈ sizeUnits, (asBytes u.2).length ≤ 4 := by decide
    exact hunits _ hunit
  obtain ⟨out, hloop, h'⟩ := h₁.foldlM_storeWithin (Nat.le_of_eq hbuf.symm)
    (asBytes (sizeParts size).2) (by rw [List.length_map]; omega)
  refine ⟨out, ?_, h', by rw [List.length_append, List.length_map]; omega⟩
  rw [formatSize]
  simp only [hwrite, Option.bind_eq_bind, Option.bind_some]
  exact hloop

/-! ### Hexadecimal numbers -/

/-- The nibble at `shift` is the last digit of `val >> (shift * 4)`. -/
theorem toNat_nibble (val : UInt64) {shift : ℕ} (hshift : shift < 16) :
    ((val >>> (shift * 4).toUInt64) &&& 0xF).toUInt8.toNat = val.toNat / 16 ^ shift % 16 := by
  have hamount : (shift * 4).toUInt64.toNat % 64 = 4 * shift := by
    rw [Nat.toUInt64_eq, UInt64.toNat_ofNat']
    omega
  rw [UInt64.toNat_toUInt8, UInt64.toNat_and, UInt64.toNat_shiftRight, hamount,
    Nat.shiftRight_eq_div_pow, Nat.pow_mul]
  change ((val.toNat / 16 ^ shift) &&& (2 ^ 4 - 1)) % 2 ^ 8 = _
  rw [Nat.and_two_pow_sub_one_eq_mod]
  omega

/-- The character `write_hex` writes for a nibble. -/
theorem nibbleByte_eq (nibble : UInt8) :
    (if nibble < 10 then '0'.toUInt8 + nibble else 'a'.toUInt8 + nibble - 10) =
      digitByte nibble.toNat := by
  have hlt : nibble < 10 ↔ nibble.toNat < 10 := UInt8.lt_iff_toNat_lt
  simp only [digitByte, hlt, Nat.toUInt8_eq, UInt8.ofNat_toNat]

/-- A digit that is written: not a zero in front of the last four. -/
theorem canonical_concat_nibble {ds : List ℕ} {d shift : ℕ}
    (hds : Canonical 16 (4 - (shift + 1)) ds) (hd : d < 16)
    (hwrite : d ≠ 0 ∨ ds ≠ [] ∨ shift < 4) : Canonical 16 (4 - shift) (ds ++ [d]) := by
  by_cases hlow : shift < 4
  · have := hds.concat_succ hd
    rwa [show 4 - (shift + 1) + 1 = 4 - shift by omega] at this
  · rw [show 4 - (shift + 1) = 0 by omega] at hds
    rw [show 4 - shift = 0 by omega]
    refine hds.concat_zero hd ?_
    intro hnil
    rcases hwrite with hne | hstarted | hlow'
    · exact hne
    · exact absurd hnil hstarted
    · exact absurd hlow' hlow

/-- The loop over the nibbles from `shift` down to 0 appends their digits to those before. -/
theorem exists_writeNibbles {buf : Buf} {val : UInt64} {limit : ℕ} (hlimit : limit ≤ buf.size)
    (text : List UInt8) (shift : ℕ) (hshift : shift ≤ 16) {ds : List ℕ} {out : Buf × ℕ}
    (h : buf.Printed (text ++ ds.map digitByte) out) (hds : Canonical 16 (4 - shift) ds)
    (hvalue : value 16 ds = val.toNat / 16 ^ shift)
    (hroom : text.length + ds.length + shift ≤ limit) :
    ∃ ds' out' started, (List.range shift).reverse.foldlM (writeNibble val limit)
        (out, decide (ds ≠ [])) = some (out', started) ∧
      buf.Printed (text ++ ds'.map digitByte) out' ∧ Canonical 16 4 ds' ∧
      value 16 ds' = val.toNat ∧ ds'.length ≤ ds.length + shift := by
  induction shift generalizing ds out with
  | zero =>
    rw [Nat.pow_zero, Nat.div_one] at hvalue
    exact ⟨ds, out, _, rfl, h, hds, hvalue, Nat.le_refl _⟩
  | succ shift ih =>
    have hnibble := toNat_nibble val (show shift < 16 by omega)
    have hdiv : value 16 ds = val.toNat / 16 ^ shift / 16 := by
      rw [hvalue, Nat.pow_succ, Nat.div_div_eq_div_mul]
    rw [List.range_succ, List.reverse_concat, List.foldlM_cons, writeNibble]
    generalize ((val >>> (shift * 4).toUInt64) &&& 0xF).toUInt8 = nibble at hnibble ⊢
    by_cases hwrite : nibble ≠ 0 ∨ decide (ds ≠ []) = true ∨ shift < 4
    · -- one more digit
      have hcanonical : Canonical 16 (4 - shift) (ds ++ [nibble.toNat]) := by
        refine canonical_concat_nibble hds ?_ ?_
        · rw [hnibble]
          exact Nat.mod_lt _ (by decide)
        · rcases hwrite with hne | hstarted | hlow
          · exact .inl fun hzero => hne (UInt8.toNat_inj.1 hzero)
          · exact .inr (.inl (of_decide_eq_true hstarted))
          · exact .inr (.inr hlow)
      obtain ⟨buf₁, hstore, h₁⟩ := h.store
        (by rw [List.length_append, List.length_map]; omega) (digitByte nibble.toNat)
      rw [List.append_assoc, ← List.map_singleton, ← List.map_append] at h₁
      have hpos : out.2 < limit := by
        rw [h.pos_eq, List.length_append, List.length_map]
        omega
      have hvalue₁ : value 16 (ds ++ [nibble.toNat]) = val.toNat / 16 ^ shift := by
        rw [hnibble]
        exact value_concat_mod hdiv
      obtain ⟨ds', out', started, hrest, h', hds', hvalue', hlen'⟩ := ih (by omega) h₁ hcanonical
        hvalue₁ (by rw [List.length_append, List.length_singleton]; omega)
      refine ⟨ds', out', started, ?_, h', hds', hvalue', ?_⟩
      · rw [if_pos hwrite, if_pos hpos, nibbleByte_eq, hstore]
        rw [decide_eq_true (show ds ++ [nibble.toNat] ≠ [] by simp)] at hrest
        exact hrest
      · rw [List.length_append, List.length_singleton] at hlen'
        omega
    · -- a zero in front
      obtain ⟨hzero, hstarted, hlow⟩ : nibble = 0 ∧ ds = [] ∧ ¬ shift < 4 := by simpa using hwrite
      subst hstarted
      have hvalue₁ : value 16 [] = val.toNat / 16 ^ shift := by
        rw [hzero] at hnibble
        rw [value_nil] at hdiv ⊢
        have : (0 : UInt8).toNat = 0 := rfl
        omega
      rw [if_neg hwrite]
      obtain ⟨ds', out', started, hrest, h', hds', hvalue', hlen'⟩ := ih (by omega) h
        (by rw [show 4 - shift = 0 by omega]; exact canonical_nil) hvalue₁ (by omega)
      exact ⟨ds', out', started, hrest, h', hds', hvalue', by omega⟩

/-- `write_hex`, where there is room for all digits. -/
theorem exists_writeHex {buf : Buf} {text : List UInt8} {out : Buf × ℕ} (h : buf.Printed text out)
    (val : UInt64) {limit : ℕ} (hlimit : limit ≤ buf.size) (hroom : text.length + 18 ≤ limit) :
    ∃ ds out', writeHex out.1 out.2 val limit = some out' ∧
      buf.Printed (text ++ (['0'.toUInt8, 'x'.toUInt8] ++ ds.map digitByte)) out' ∧
      Canonical 16 4 ds ∧ value 16 ds = val.toNat ∧ ds.length ≤ 16 := by
  obtain ⟨buf₁, hstore₁, h₁⟩ := h.store (by omega) '0'.toUInt8
  obtain ⟨buf₂, hstore₂, h₂⟩ := h₁.store
    (by rw [List.length_append, List.length_singleton]; omega) 'x'.toUInt8
  rw [List.append_assoc] at h₂
  have hzero : value 16 [] = val.toNat / 16 ^ 16 := by
    have := val.toNat_lt
    rw [value_nil, Nat.div_eq_of_lt (by omega)]
  obtain ⟨ds, out', started, hloop, h', hds, hvalue, hlen⟩ := exists_writeNibbles
    hlimit (text ++ (['0'.toUInt8] ++ ['x'.toUInt8])) 16 (Nat.le_refl _)
    (by simpa using h₂) canonical_nil hzero
    (by rw [List.length_append]; exact hroom)
  refine ⟨ds, out', ?_, by rwa [List.append_assoc] at h', hds, hvalue, hlen⟩
  have hpos := h.pos_eq
  rw [writeHex, if_neg (by omega), hstore₁]
  simp only [Option.bind_eq_bind, Option.bind_some, hstore₂]
  rw [show false = decide (([] : List ℕ) ≠ []) from rfl, hloop]
  rfl

/-! ### Address ranges -/

/-- The address after `0x`. -/
def parseHex (text : List UInt8) : Option ℕ :=
  if text.take 2 = ['0'.toUInt8, 'x'.toUInt8] then do
    let ds ← (text.drop 2).mapM digitOf
    some (value 16 ds)
  else
    none

/-- The two addresses before and after the first hyphen. -/
def parseAddrRange (text : List UInt8) : Option (ℕ × ℕ) := do
  let start ← parseHex (text.takeWhile (· ≠ '-'.toUInt8))
  let finish ← parseHex ((text.dropWhile (· ≠ '-'.toUInt8)).drop 1)
  some (start, finish)

theorem parseHex_eq {ds : List ℕ} (hds : ∀ d ∈ ds, d < 16) :
    parseHex (['0'.toUInt8, 'x'.toUInt8] ++ ds.map digitByte) = some (value 16 ds) := by
  have htake : (['0'.toUInt8, 'x'.toUInt8] ++ ds.map digitByte).take 2 =
      ['0'.toUInt8, 'x'.toUInt8] := rfl
  have hdrop : (['0'.toUInt8, 'x'.toUInt8] ++ ds.map digitByte).drop 2 = ds.map digitByte := rfl
  rw [parseHex, if_pos htake, hdrop, mapM_digitOf hds]
  rfl

/-- Two numerals, each after `0x`, with a hyphen between them. -/
def rangeText (ds ds' : List ℕ) : List UInt8 :=
  ['0'.toUInt8, 'x'.toUInt8] ++ ds.map digitByte ++
    ['-'.toUInt8, '0'.toUInt8, 'x'.toUInt8] ++ ds'.map digitByte

theorem rangeText_eq (ds ds' : List ℕ) :
    rangeText ds ds' = (['0'.toUInt8, 'x'.toUInt8] ++ ds.map digitByte) ++
      '-'.toUInt8 :: (['0'.toUInt8, 'x'.toUInt8] ++ ds'.map digitByte) := by
  rw [rangeText, List.append_assoc (_ ++ _)]
  rfl

theorem length_rangeText (ds ds' : List ℕ) :
    (rangeText ds ds').length = ds.length + ds'.length + 5 := by
  simp only [rangeText, List.length_append, List.length_map, List.length_cons, List.length_nil]
  omega

theorem parseAddrRange_rangeText {ds ds' : List ℕ} (hds : ∀ d ∈ ds, d < 16)
    (hds' : ∀ d ∈ ds', d < 16) :
    parseAddrRange (rangeText ds ds') = some (value 16 ds, value 16 ds') := by
  have hno : ∀ v ∈ ['0'.toUInt8, 'x'.toUInt8] ++ ds.map digitByte,
      decide (v ≠ '-'.toUInt8) = true := by
    intro v hv
    have hdigit : ∀ d < 16, digitByte d ≠ '-'.toUInt8 := by decide
    simp only [List.mem_append, List.mem_map, List.mem_cons, List.not_mem_nil, or_false] at hv
    rcases hv with (rfl | rfl) | ⟨d, hd, rfl⟩
    · decide
    · decide
    · exact decide_eq_true (hdigit d (hds d hd))
  rw [rangeText_eq, parseAddrRange, List.takeWhile_append_of_pos hno,
    List.dropWhile_append_of_pos hno]
  rw [List.takeWhile_cons_of_neg (by decide), List.dropWhile_cons_of_neg (by decide),
    List.append_nil, parseHex_eq hds]
  simp only [Option.bind_eq_bind, Option.bind_some, List.drop_succ_cons, List.drop_zero]
  rw [parseHex_eq hds', Option.bind_some]

/-- The characters that were written. -/
theorem Buf.Printed.take_eq {buf : Buf} {text : List UInt8} {out : Buf × ℕ}
    (h : buf.Printed text out) :
    out.1.toList.take out.2 = text := by
  refine List.ext_getElem? fun i => ?_
  rw [h.pos_eq]
  by_cases hi : i < text.length
  · rw [List.getElem?_take_of_lt hi, Array.getElem?_toList, h.writes.getElem?,
      if_pos ⟨Nat.zero_le _, by omega⟩, Nat.sub_zero]
  · have hshort : (out.1.toList.take text.length).length ≤ i := by
      rw [List.length_take]
      omega
    rw [List.getElem?_eq_none hshort, List.getElem?_eq_none (Nat.le_of_not_lt hi)]

/-- `format_addr_range` writes two numerals. -/
theorem exists_formatAddrRange (start finish : UInt64) {buf : Buf} (hbuf : buf.size = 40) :
    ∃ ds ds' out, Canonical 16 4 ds ∧ value 16 ds = start.toNat ∧ ds.length ≤ 16 ∧
      Canonical 16 4 ds' ∧ value 16 ds' = finish.toNat ∧ ds'.length ≤ 16 ∧
      formatAddrRange buf start finish = some out ∧ buf.Printed (rangeText ds ds') out := by
  have hlimit : 40 ≤ buf.size := Nat.le_of_eq hbuf.symm
  obtain ⟨ds, out₁, hwrite₁, h₁, hds, hvalue, hlen⟩ :=
    exists_writeHex (Buf.Printed.nil buf) start hlimit (by decide)
  obtain ⟨text, htext⟩ : ∃ text, text = ['0'.toUInt8, 'x'.toUInt8] ++ ds.map digitByte := ⟨_, rfl⟩
  have hlen₁ : text.length ≤ 18 := by
    rw [htext, List.length_append, List.length_map]
    exact Nat.add_le_add_left hlen 2
  rw [List.nil_append, ← htext] at h₁
  obtain ⟨buf₂, hstore, h₂⟩ := h₁.store (by omega) '-'.toUInt8
  obtain ⟨ds', out', hwrite', h', hds', hvalue', hlen'⟩ := exists_writeHex h₂ finish hlimit
    (by rw [List.length_append, List.length_singleton]; omega)
  refine ⟨ds, ds', out', hds, hvalue, hlen, hds', hvalue', hlen', ?_, ?_⟩
  · have hpos := h₁.pos_eq
    rw [formatAddrRange]
    simp only [hwrite₁, Option.bind_eq_bind, Option.bind_some]
    rw [if_pos (by omega), hstore]
    exact hwrite'
  · rw [rangeText_eq, ← htext]
    rwa [List.append_assoc] at h'

/-- What `draw_memmap` prints: the part of the buffer that is filled. -/
def addrRangeText (start finish : UInt64) : Option (List UInt8) := do
  let (buf, len) ← formatAddrRange (Array.replicate 40 0) start finish
  some (buf.toList.take len)

/-- **Address ranges are printed exactly**: nothing is written outside of the buffer or cut off, both
addresses are canonical and are read back, and no two ranges are printed alike. -/
theorem formatAddrRange_exact :
    (∀ start finish : UInt64, ∃ ds ds', Canonical 16 4 ds ∧ value 16 ds = start.toNat ∧
      Canonical 16 4 ds' ∧ value 16 ds' = finish.toNat ∧ (rangeText ds ds').length ≤ 37 ∧
      parseAddrRange (rangeText ds ds') = some (start.toNat, finish.toNat) ∧
      ∀ buf : Vector UInt8 40, ∃ buf',
        formatAddrRange buf.toArray start finish = some (buf', (rangeText ds ds').length) ∧
          Buf.Writes buf.toArray 0 (rangeText ds ds') buf') ∧
      Function.Injective fun range : UInt64 × UInt64 => addrRangeText range.1 range.2 := by
  have hsize : (Array.replicate 40 0 : Buf).size = 40 := Array.size_replicate
  refine ⟨fun start finish => ?_, ?_⟩
  · obtain ⟨ds, ds', -, hds, hvalue, hlen, hds', hvalue', hlen', -, -⟩ :=
      exists_formatAddrRange start finish hsize
    have hparse := parseAddrRange_rangeText hds.digit_lt hds'.digit_lt
    refine ⟨ds, ds', hds, hvalue, hds', hvalue', ?_, ?_, fun buf => ?_⟩
    · rw [length_rangeText]
      omega
    · rwa [hvalue, hvalue'] at hparse
    · -- the numerals are the same for every buffer
      obtain ⟨es, es', out, hes, hevalue, -, hes', hevalue', -, hformat, hprinted⟩ :=
        exists_formatAddrRange start finish buf.size_toArray
      obtain rfl := hes.unique hds (by decide) (hevalue.trans hvalue.symm)
      obtain rfl := hes'.unique hds' (by decide) (hevalue'.trans hvalue'.symm)
      refine ⟨out.1, ?_, hprinted.writes⟩
      rw [hformat, ← hprinted.pos_eq]
  · have hread : ∀ start finish : UInt64, ∃ text, addrRangeText start finish = some text ∧
        parseAddrRange text = some (start.toNat, finish.toNat) := by
      intro start finish
      obtain ⟨ds, ds', out, hds, hvalue, -, hds', hvalue', -, hformat, hprinted⟩ :=
        exists_formatAddrRange start finish hsize
      refine ⟨rangeText ds ds', ?_, ?_⟩
      · rw [addrRangeText, hformat]
        exact congrArg some hprinted.take_eq
      · rw [parseAddrRange_rangeText hds.digit_lt hds'.digit_lt, hvalue, hvalue']
    rintro ⟨start, finish⟩ ⟨start', finish'⟩ hsame
    obtain ⟨text, htext, hparse⟩ := hread start finish
    obtain ⟨text', htext', hparse'⟩ := hread start' finish'
    obtain rfl : text = text' := Option.some.inj (htext.symm.trans (hsame.trans htext'))
    rw [hparse, Option.some.injEq, Prod.mk.injEq] at hparse'
    rw [UInt64.toNat_inj.1 hparse'.1, UInt64.toNat_inj.1 hparse'.2]

end ROs
