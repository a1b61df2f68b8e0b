import ROs.Lib.Align
import Mathlib.Order.Lattice

/-!
# The boot frame allocator

`memory.rs` hands out 4 KiB physical frames from the memory regions of kind `Usable` that the
bootloader reports.  `UsableFrameIter` is a resumable loop over two cursors, `regionIdx` and
`nextAddr`; `nextAddr` is carried from one region into the next through a `max`.

* `UsableFrameIter.advanceToUsable` and `UsableFrameIter.next` are the two functions of the
  source; both recurse on the regions that are left, so both are total.
* `BootFrameAllocator.calls n` makes `n` successive calls of `allocate_frame`.

A result of `none` of the whole computation is a panic (of `PhysAddr::new`).  Addresses are
`UInt64`, as in the source.
-/

namespace ROs

/-- `bootloader_api::info::MemoryRegionKind`. -/
inductive MemoryRegionKind where
  | usable
  | bootloader
  | unknownUefi (tag : UInt32)
  | unknownBios (tag : UInt32)
  deriving Repr, DecidableEq

/-- `bootloader_api::info::MemoryRegion`: the addresses `start ≤ a < stop`. -/
structure MemoryRegion where
  /-- The first address (field `start`). -/
  start : UInt64
  /-- The address after the last one (field `end`). -/
  stop : UInt64
  kind : MemoryRegionKind
  deriving Repr, DecidableEq

/-- `x86_64::PhysAddr`: a 52-bit physical address. -/
structure PhysAddr where
  addr : UInt64
  isLt : addr.toNat < 2 ^ 52
  deriving Repr, DecidableEq

namespace PhysAddr

/-- `PhysAddr::new` panics if one of the bits 52 to 63 is set. -/
def new (addr : UInt64) : Option PhysAddr :=
  if h : addr.toNat < 2 ^ 52 then some ⟨addr, h⟩ else none

theorem new_of_lt {addr : UInt64} (h : addr.toNat < 2 ^ 52) : new addr = some ⟨addr, h⟩ :=
  dif_pos h

/-- `PhysAddr::align_down` to 4 KiB. -/
def alignDown (a : PhysAddr) : PhysAddr where
  addr := a.addr &&& ~~~(4096 - 1)
  isLt := by
    rw [UInt64.toNat_and]
    exact Nat.lt_of_le_of_lt Nat.and_le_left a.isLt

end PhysAddr

/-- `PhysFrame<Size4KiB>`. -/
structure PhysFrame where
  startAddress : PhysAddr
  deriving Repr, DecidableEq

namespace PhysFrame

/-- `PhysFrame::containing_address`. -/
def containingAddress (a : PhysAddr) : PhysFrame := ⟨a.alignDown⟩

/-- The start address of a frame as a number. -/
def base (f : PhysFrame) : ℕ := f.startAddress.addr.toNat

end PhysFrame

/-- `align_up`. -/
def alignUp (addr align : UInt64) : UInt64 := (addr + align - 1) &&& ~~~(align - 1)

/-- `UsableFrameIter`. -/
structure UsableFrameIter where
  regions : List MemoryRegion
  regionIdx : ℕ
  nextAddr : UInt64

namespace UsableFrameIter

/-- `UsableFrameIter::advance_to_usable`: move `regionIdx` to the next `Usable` region that has
an aligned address, and `nextAddr` to its first one. -/
def advanceToUsable (it : UsableFrameIter) : UsableFrameIter :=
  if h : it.regionIdx < it.regions.length then
    let region := it.regions[it.regionIdx]
    let alignedStart := alignUp region.start 4096
    if region.kind = .usable ∧ alignedStart < region.stop then
      { it with nextAddr := max it.nextAddr alignedStart }
    else
      advanceToUsable { it with regionIdx := it.regionIdx + 1 }
  else
    it
termination_by it.regions.length - it.regionIdx

/-- `UsableFrameIter::new`. -/
def new (regions : List MemoryRegion) : UsableFrameIter :=
  advanceToUsable { regions := regions, regionIdx := 0, nextAddr := 0 }

theorem advanceToUsable_regions (it : UsableFrameIter) :
    it.advanceToUsable.regions = it.regions := by
  fun_induction advanceToUsable it <;> simp_all

theorem le_advanceToUsable_regionIdx (it : UsableFrameIter) :
    it.regionIdx ≤ it.advanceToUsable.regionIdx := by
  fun_induction advanceToUsable it with
  | case1 => exact Nat.le_refl _
  | case2 _ _ _ _ _ ih => exact Nat.le_of_succ_le ih
  | case3 => exact Nat.le_refl _

/-- `UsableFrameIter::next`. -/
def next (it : UsableFrameIter) : Option (Option PhysFrame × UsableFrameIter) :=
  if h : it.regionIdx < it.regions.length then
    let region := it.regions[it.regionIdx]
    if it.nextAddr + 4096 ≤ region.stop then do
      let addr ← PhysAddr.new it.nextAddr
      some (some (.containingAddress addr), { it with nextAddr := it.nextAddr + 4096 })
    else
      next (advanceToUsable { it with regionIdx := it.regionIdx + 1 })
  else
    some (none, it)
termination_by it.regions.length - it.regionIdx
decreasing_by
  have := le_advanceToUsable_regionIdx { it with regionIdx := it.regionIdx + 1 }
  rw [advanceToUsable_regions]
  simp only at this ⊢
  omega

/-! ### What one call does -/

/-- All addresses of the regions are below the 52-bit limit of physical addresses. -/
def AddrsBelow (regions : List MemoryRegion) : Prop :=
  ∀ r ∈ regions, r.start.toNat < 2 ^ 52 ∧ r.stop.toNat < 2 ^ 52

/-- The invariant of the cursors between calls: `nextAddr` is an aligned physical address, and
while `regionIdx` is in range it names a `Usable` region that starts at or below `nextAddr`. -/
structure Ready (it : UsableFrameIter) : Prop where
  aligned : 4096 ∣ it.nextAddr.toNat
  isLt : it.nextAddr.toNat < 2 ^ 52
  usable : ∀ h : it.regionIdx < it.regions.length, it.regions[it.regionIdx].kind = .usable
  start_le : ∀ h : it.regionIdx < it.regions.length,
    it.regions[it.regionIdx].start.toNat ≤ it.nextAddr.toNat

end UsableFrameIter

theorem alignUp_toNat {a : UInt64} (h : a.toNat < 2 ^ 52) :
    (alignUp a 4096).toNat = (a.toNat + 4095) / 4096 * 4096 :=
  Align.toNat_add_and_not (k := 12) rfl (by omega)

theorem PhysFrame.base_containingAddress {a : PhysAddr} (h : 4096 ∣ a.addr.toNat) :
    (PhysFrame.containingAddress a).base = a.addr.toNat := by
  have := Align.toNat_and_not (a := a.addr) (m := 4096) (k := 12) rfl
  rw [PhysFrame.base, PhysFrame.containingAddress, PhysAddr.alignDown, this]
  exact Nat.div_mul_cancel h

namespace UsableFrameIter

theorem toNat_max (a b : UInt64) : (max a b).toNat = max a.toNat b.toNat := by
  change (if a ≤ b then b else a).toNat = _
  split <;> rename_i h <;> simp only [UInt64.le_iff_toNat_le] at h <;> omega

/-- Advancing keeps `nextAddr` aligned and establishes the rest of the invariant. -/
theorem ready_advanceToUsable (it : UsableFrameIter) (hb : AddrsBelow it.regions)
    (ha : 4096 ∣ it.nextAddr.toNat) (hl : it.nextAddr.toNat < 2 ^ 52) :
    it.advanceToUsable.Ready ∧ it.nextAddr.toNat ≤ it.advanceToUsable.nextAddr.toNat := by
  fun_induction advanceToUsable it with
  | case1 it h region alignedStart hu =>
    have hr := hb _ (List.getElem_mem h)
    have hs : alignedStart.toNat = _ := alignUp_toNat hr.1
    have hlt : alignedStart.toNat < region.stop.toNat := UInt64.lt_iff_toNat_lt.1 hu.2
    have hstop : region.stop.toNat < 2 ^ 52 := hr.2
    refine ⟨⟨?_, ?_, fun _ => hu.1, fun _ => ?_⟩, ?_⟩ <;> simp only [toNat_max]
    · rcases le_total it.nextAddr.toNat alignedStart.toNat with hle | hle
      · rw [max_eq_right hle, hs]; exact Nat.dvd_mul_left _ _
      · rw [max_eq_left hle]; exact ha
    · omega
    · have : region.start.toNat ≤ alignedStart.toNat := by rw [hs]; omega
      exact this.trans (le_max_right _ _)
    · exact le_max_left _ _
  | case2 it h region alignedStart hu ih => exact ih hb ha hl
  | case3 it h => exact ⟨⟨ha, hl, fun h' => absurd h' h, fun h' => absurd h' h⟩, le_rfl⟩

/-- **One call of `next`.**  It returns either the frame at some `a ≥ nextAddr` inside a `Usable`
region and moves `nextAddr` past it, or `None` with `regionIdx` out of range. -/
theorem next_spec {it : UsableFrameIter} (hb : AddrsBelow it.regions) (hr : it.Ready) :
    ∃ frame it', it.next = some (frame, it') ∧ it'.regions = it.regions ∧ it'.Ready ∧
      match frame with
      | some f => 4096 ∣ f.base ∧ it.nextAddr.toNat ≤ f.base ∧
          f.base + 4096 ≤ it'.nextAddr.toNat ∧ ∃ r ∈ it.regions, r.kind = .usable ∧
            r.start.toNat ≤ f.base ∧ f.base + 4096 ≤ r.stop.toNat
      | none => it'.regions.length ≤ it'.regionIdx := by
  fun_induction next it with
  | case1 it h region hle =>
    have hstop := (hb _ (List.getElem_mem h)).2
    have hadd : (it.nextAddr + 4096).toNat = it.nextAddr.toNat + 4096 := by
      rw [UInt64.toNat_add]; exact Nat.mod_eq_of_lt (by have := hr.isLt; simp; omega)
    rw [UInt64.le_iff_toNat_le, hadd] at hle
    have hbase := PhysFrame.base_containingAddress (a := ⟨it.nextAddr, hr.isLt⟩) hr.aligned
    refine ⟨some (.containingAddress ⟨it.nextAddr, hr.isLt⟩),
      { it with nextAddr := it.nextAddr + 4096 }, by simp [PhysAddr.new_of_lt hr.isLt], rfl,
      ⟨?_, ?_, hr.usable, fun h' => ?_⟩, ?_⟩
    · rw [hadd]; exact Nat.dvd_add hr.aligned (Nat.dvd_refl _)
    · rw [hadd]; exact Nat.lt_of_le_of_lt hle hstop
    · rw [hadd]; exact (hr.start_le h').trans (Nat.le_add_right _ _)
    · simp only [hbase]
      exact ⟨hr.aligned, le_rfl, hadd.ge, region, List.getElem_mem h, hr.usable h, hr.start_le h, hle⟩
  | case2 it h region hle ih =>
    have hreg : (advanceToUsable { it with regionIdx := it.regionIdx + 1 }).regions = it.regions :=
      advanceToUsable_regions _
    obtain ⟨hr', hmono⟩ := ready_advanceToUsable
      { it with regionIdx := it.regionIdx + 1 } hb hr.aligned hr.isLt
    obtain ⟨frame, it', hn, hreg', hready, hf⟩ := ih (by rw [hreg]; exact hb) hr'
    refine ⟨frame, it', hn, hreg'.trans hreg, hready, ?_⟩
    cases frame with
    | none => exact hf
    | some f =>
      obtain ⟨h1, h2, h3, h4⟩ := hf
      exact ⟨h1, hmono.trans h2, h3, by rwa [hreg] at h4⟩
  | case3 it h => exact ⟨none, it, rfl, rfl, hr, Nat.le_of_not_lt h⟩

/-- Out of range, `next` returns `None` and changes nothing. -/
theorem next_of_length_le {it : UsableFrameIter} (h : it.regions.length ≤ it.regionIdx) :
    it.next = some (none, it) := by
  rw [next, dif_neg (Nat.not_lt.2 h)]

end UsableFrameIter

/-- `BootFrameAllocator`. -/
structure BootFrameAllocator where
  usableFrames : UsableFrameIter

namespace BootFrameAllocator

/-- `BootFrameAllocator::new`. -/
def new (memoryRegions : List MemoryRegion) : BootFrameAllocator :=
  ⟨UsableFrameIter.new memoryRegions⟩

/-- `BootFrameAllocator::allocate_frame`. -/
def allocateFrame (a : BootFrameAllocator) : Option (Option PhysFrame × BootFrameAllocator) := do
  let (frame, it) ← a.usableFrames.next
  some (frame, ⟨it⟩)

/-- `n` successive calls of `allocate_frame`, with their results in order. -/
def calls : ℕ → BootFrameAllocator → Option (List (Option PhysFrame) × BootFrameAllocator)
  | 0, a => some ([], a)
  | n + 1, a => do
    let (frame, a) ← a.allocateFrame
    let (frames, a) ← calls n a
    some (frame :: frames, a)

end BootFrameAllocator

end ROs
