import ROs.Lib.Layer
import ROs.Lib.Loop
import ROs.Lib.MachineInt

/-!
# Byte buffers

The byte slices of the kernel.  A buffer is an `Array UInt8`.  Every operation that can panic in
the source (an index out of range, slices of different lengths) returns an `Option`, `none` being
the panic.

`Buf.Writes` says what a successful write does; `Buf.exists_storeAll` and
`Buf.exists_copyFromSlice` give it for successive stores and for a slice copy.  `Buf.KeepsSize`
says of a program that may fail that it keeps the length of the buffer when it does not.
-/

namespace ROs

/-- The bytes of a frame buffer or of a window buffer. -/
abbrev Buf := Array UInt8

/-! ### Byte access -/

namespace Buf

/-- `buf[i] = v`. -/
def store (buf : Buf) (i : ℕ) (v : UInt8) : Option Buf :=
  if h : i < buf.size then some (buf.set i v h) else none

/-- `&buf[a..b]`. -/
def slice (buf : Buf) (a b : ℕ) : Option Buf :=
  if a ≤ b ∧ b ≤ buf.size then some (buf.extract a b) else none

/-- `dst[a..b].copy_from_slice(src)`. -/
def copyFromSlice (dst : Buf) (a b : ℕ) (src : Buf) : Option Buf :=
  if a ≤ b ∧ b ≤ dst.size ∧ b - a = src.size then
    some (Array.ofFn fun i : Fin dst.size =>
      if a ≤ i.val ∧ i.val < b then src.getD (i.val - a) 0 else dst[i])
  else
    none

/-- `buf.copy_within(a..b, dst)`. -/
def copyWithin (buf : Buf) (a b dst : ℕ) : Option Buf := do
  let src ← slice buf a b
  copyFromSlice buf dst (dst + (b - a)) src

/-- `buf'` is `buf` with `bytes` written from `offset` on. -/
structure Writes (buf : Buf) (offset : ℕ) (bytes : List UInt8) (buf' : Buf) : Prop where
  size_eq : buf'.size = buf.size
  getElem? : ∀ i, buf'[i]? =
    if offset ≤ i ∧ i < offset + bytes.length then bytes[i - offset]? else buf[i]?

/-- Successive stores from `offset` on. -/
def storeAll (buf : Buf) (offset : ℕ) : List UInt8 → Option Buf
  | [] => some buf
  | v :: vs => do
    let buf ← store buf offset v
    storeAll buf (offset + 1) vs

variable {buf buf' src : Buf} {offset a b : ℕ} {bytes : List UInt8}

theorem Writes.eq_of_length (h : buf.Writes offset bytes buf') (hb : bytes.length = 0) :
    buf' = buf := by
  refine Array.ext_getElem? fun i => ?_
  rw [h.getElem?, if_neg (by omega)]

theorem slice_of_le (hab : a ≤ b) (hb : b ≤ buf.size) : buf.slice a b = some (buf.extract a b) :=
  if_pos ⟨hab, hb⟩

/-- What is written at the start is read back. -/
theorem Writes.slice (h : buf.Writes 0 bytes buf') (hlen : bytes.length ≤ buf.size) :
    buf'.slice 0 bytes.length = some bytes.toArray := by
  rw [slice_of_le (Nat.zero_le _) (h.size_eq ▸ hlen)]
  congr 1
  refine Array.ext_getElem? fun i => ?_
  simp only [Array.getElem?_extract, h.getElem?, List.getElem?_toArray, Nat.sub_zero, Nat.zero_add]
  have hsize := h.size_eq
  by_cases hi : i < bytes.length
  · rw [if_pos (by omega), if_pos (by omega)]
  · rw [if_neg (by omega), List.getElem?_eq_none (Nat.le_of_not_lt hi)]

theorem exists_storeAll (h : offset + bytes.length ≤ buf.size) :
    ∃ buf', storeAll buf offset bytes = some buf' ∧ Writes buf offset bytes buf' := by
  induction bytes generalizing buf offset with
  | nil => exact ⟨buf, rfl, rfl, fun i => by rw [if_neg (by simp)]⟩
  | cons v vs ih =>
    simp only [List.length_cons] at h
    have hlt : offset < buf.size := by omega
    obtain ⟨buf', hs, hw⟩ := @ih (buf.set offset v hlt) (offset + 1)
      (by simp; omega)
    refine ⟨buf', by simpa [storeAll, store, hlt] using hs, by rw [hw.size_eq]; simp, fun i => ?_⟩
    rw [hw.getElem?, List.length_cons, Array.getElem?_set]
    by_cases hi : i = offset
    · subst hi
      rw [if_neg (by omega), if_pos rfl, if_pos (by omega)]
      simp
    · rw [if_neg (Ne.symm hi)]
      by_cases hin : offset ≤ i ∧ i < offset + (vs.length + 1)
      · obtain ⟨k, hk⟩ : ∃ k, i - offset = k + 1 := ⟨i - offset - 1, by omega⟩
        rw [if_pos (by omega), if_pos hin, hk, List.getElem?_cons_succ,
          show i - (offset + 1) = k by omega]
      · rw [if_neg (by omega), if_neg hin]

theorem exists_copyFromSlice (buf src : Buf) (hab : a ≤ b) (hb : b ≤ buf.size) (hs : b - a = src.size) :
    ∃ buf', copyFromSlice buf a b src = some buf' ∧ Writes buf a src.toList buf' := by
  refine ⟨_, if_pos ⟨hab, hb, hs⟩, by simp, fun i => ?_⟩
  rw [Array.length_toList, ← hs, Nat.add_sub_cancel' hab, Array.getElem?_ofFn]
  by_cases hi : i < buf.size
  · rw [dif_pos hi]
    by_cases hin : a ≤ i ∧ i < b
    · have hlt : i - a < src.size := by omega
      simp [hin, Array.getD, hlt]
    · simp [hin, hi]
  · have hin : ¬ (a ≤ i ∧ i < b) := by omega
    rw [dif_neg hi, if_neg hin]
    simp [Nat.le_of_not_lt hi]

/-- Copying a whole buffer. -/
theorem copyFromSlice_all (h : buf.size = src.size) :
    copyFromSlice buf 0 buf.size src = some src := by
  obtain ⟨buf', hc, hw⟩ := exists_copyFromSlice buf src (Nat.zero_le _)
    (Nat.le_refl _) (by rw [Nat.sub_zero, h])
  rw [hc, Option.some.injEq]
  refine Array.ext_getElem? fun i => ?_
  rw [hw.getElem?]
  by_cases hi : i < src.size
  · rw [if_pos (by simpa using hi)]; simp
  · rw [if_neg (by simpa using hi)]
    simp [h, Nat.le_of_not_lt hi]

theorem copyFromSlice_all_ne (h : buf.size ≠ src.size) :
    copyFromSlice buf 0 buf.size src = none :=
  if_neg fun hc => h (by simpa using hc.2.2)

/-- `d` keeps the length of the buffer, if it succeeds. -/
def KeepsSize (d : Buf → Option Buf) : Prop := ∀ buf buf', d buf = some buf' → buf'.size = buf.size

theorem keepsSize_some : KeepsSize some := by
  rintro buf _ ⟨rfl⟩
  rfl

theorem lt_of_store {i : ℕ} {v : UInt8} (h : store buf i v = some buf') : i < buf.size :=
  (Option.dite_none_right_eq_some.1 h).1

theorem keepsSize_store (i : ℕ) (v : UInt8) : KeepsSize fun buf => store buf i v := by
  intro buf buf' h
  simp only [store, Option.dite_none_right_eq_some, Option.some.injEq] at h
  obtain ⟨_, rfl⟩ := h
  simp

theorem keepsSize_copyFromSlice (a b : ℕ) (src : Buf) :
    KeepsSize fun buf => copyFromSlice buf a b src := by
  intro buf buf' h
  simp only [copyFromSlice, Option.ite_none_right_eq_some, Option.some.injEq] at h
  obtain ⟨_, rfl⟩ := h
  simp

theorem KeepsSize.bind {d d' : Buf → Option Buf} (h : KeepsSize d) (h' : KeepsSize d') :
    KeepsSize fun buf => (d buf).bind d' := by
  intro buf buf'' hd
  obtain ⟨buf', hd, hd'⟩ := Option.bind_eq_some_iff.1 hd
  rw [h' _ _ hd', h _ _ hd]

theorem KeepsSize.foldlM {A : Type*} {f : Buf → A → Option Buf} {as : List A}
    (h : ∀ a ∈ as, KeepsSize fun buf => f buf a) : KeepsSize fun buf => as.foldlM f buf :=
  fun _ _ => rel_of_foldlM (R := fun buf buf' : Buf => buf'.size = buf.size) (fun _ => rfl)
    (fun h h' => h'.trans h) h

end Buf

end ROs
