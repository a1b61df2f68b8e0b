import ROs.Shell.Line

/-!
# Decimal numbers

The kernel writes decimal numbers in three places: `format_u64` of `shell.rs` and of `counter.rs`,
which are copies of each other, and `write_u64_decimal` of `framebuffer.rs`, which looks for room
before every byte.

* `decimal_agree` : **the three write the same bytes, the canonical numeral of the number**, and
  `format_size` writes that of the number of units in a size.
-/

namespace ROs

open Numeral

/-- `format_u64` of `counter.rs`. -/
def Counter.formatU64 (buf : Buf) (val : UInt64) : Option (Buf × ℕ) := ROs.formatU64 buf val

/-- What is written does not leave a choice. -/
theorem Buf.Writes.unique {buf buf₁ buf₂ : Buf} {offset : ℕ} {bytes : List UInt8}
    (h₁ : buf.Writes offset bytes buf₁) (h₂ : buf.Writes offset bytes buf₂) : buf₁ = buf₂ := by
  refine Array.ext_getElem? fun i => ?_
  rw [h₁.getElem?, h₂.getElem?]

/-- `format_u64` writes the numeral of the number. -/
theorem Decimal.formatU64 {v : UInt64} {ds : List ℕ} (h : Decimal v ds) {buf : Buf}
    (hbuf : 20 ≤ buf.size) :
    ∃ buf', ROs.formatU64 buf v = some (buf', ds.length) ∧
      buf.Writes 0 (ds.map digitByte) buf' := by
  have hlen := h.length_le
  obtain ⟨buf', hstore, hwrites⟩ := @Buf.exists_storeAll buf 0 (ds.map digitByte)
    (by rw [List.length_map]; omega)
  refine ⟨buf', ?_, hwrites⟩
  rw [ROs.formatU64]
  by_cases hv : v = 0
  · rw [h.zero hv, List.map_singleton, Buf.storeAll] at hstore
    simp only [Buf.storeAll] at hstore
    obtain ⟨buf₁, hstore₁, hbuf₁⟩ := Option.bind_eq_some_iff.1 hstore
    cases hbuf₁
    rw [if_pos hv, h.zero hv]
    exact Option.bind_eq_some_iff.2 ⟨_, hstore₁, rfl⟩
  · rw [if_neg hv, h.loop hv]
    simp only [Option.bind_eq_bind, Option.bind_some, List.reverse_reverse, List.length_reverse,
      List.length_map]
    rw [hstore]
    rfl

/-- **Decimal output is canonical, and the copies agree.** -/
theorem decimal_agree :
    (∀ v : UInt64, ∃ ds, Canonical 10 1 ds ∧ value 10 ds = v.toNat ∧ ds.length ≤ 20 ∧
      ∀ buf : Vector UInt8 24, ∃ buf', Buf.Writes buf.toArray 0 (ds.map digitByte) buf' ∧
        formatU64 buf.toArray v = some (buf', ds.length) ∧
        Counter.formatU64 buf.toArray v = some (buf', ds.length) ∧
        writeU64Decimal buf.toArray 0 v = some (buf', ds.length)) ∧
      ∀ size : UInt64, ∃ ds unit suffix, Canonical 10 1 ds ∧ (unit, suffix) ∈ sizeUnits ∧
        value 10 ds * unit ≤ size.toNat ∧ size.toNat < (value 10 ds + 1) * unit ∧
        unit ≤ max size.toNat 1 ∧ (∀ u ∈ sizeUnits, u.1 ≤ max size.toNat 1 → u.1 ≤ unit) ∧
        ∀ buf : Vector UInt8 24, ∃ buf',
          Buf.Writes buf.toArray 0 (ds.map digitByte ++ asBytes suffix) buf' ∧
          formatSize buf.toArray size =
            some (buf', (ds.map digitByte ++ asBytes suffix).length) := by
  refine ⟨fun v => ?_, fun size => ?_⟩
  · obtain ⟨ds, h⟩ := exists_decimal v
    refine ⟨ds, h.canonical, h.value_eq, h.length_le, fun buf => ?_⟩
    have hbuf : 20 ≤ buf.toArray.size := by
      rw [buf.size_toArray]
      decide
    obtain ⟨buf', hformat, hwrites⟩ := h.formatU64 hbuf
    obtain ⟨out, hwrite, hprinted⟩ := h.writeU64Decimal hbuf
    refine ⟨buf', hwrites, hformat, hformat, ?_⟩
    have hpos := hprinted.pos_eq
    rw [List.length_map] at hpos
    rw [hwrite, hwrites.unique hprinted.writes, ← hpos]
  · obtain ⟨ds, h⟩ := exists_decimal (sizeParts size).1
    obtain ⟨unit, hunit, hle, hlt, hmax, hlargest⟩ := exists_sizeUnit size
    refine ⟨ds, unit, (sizeParts size).2, h.canonical, hunit, ?_, ?_, hmax, hlargest,
      fun buf => ?_⟩
    · rwa [h.value_eq]
    · rwa [h.value_eq]
    · obtain ⟨out, hformat, hprinted, -⟩ := exists_formatSize size h buf.size_toArray
      refine ⟨out.1, hprinted.writes, ?_⟩
      rw [hformat, ← hprinted.pos_eq]

end ROs
