import ROs.Memory.Frames
import ROs.Shell.Line
import ROs.Wm.Memmap
import ROs.Wm.Running

/-!
# The memory map of the running system

`kernel_main` collects the regions that the bootloader reports, and adds the heap
(`stored_collectRegions`).  The task of `memmap.rs` draws them once, into its window.

* `WindowManager.Running.exists_drawMemmap` : **the drawing never fails in a window that is high
  enough for the legend**, and leaves everything but the pixels of that window alone.
-/

namespace ROs

/-- `HEAP_START`. -/
def HEAP_START : UInt64 := 0x4444_4444_0000

/-! ### The regions -/

/-- `bios_e820_to_kind`. -/
def biosE820ToKind (tag : UInt32) : MemRegionKind :=
  if tag = 1 then .usable
  else if tag = 2 then .reserved
  else if tag = 3 then .acpiReclaimable
  else if tag = 4 then .acpiNvs
  else if tag = 5 then .badMemory
  else .reserved

/-- The kind that the memory map shows for a kind of the bootloader. -/
def MemRegionKind.ofBoot : MemoryRegionKind → MemRegionKind
  | .usable => .usable
  | .bootloader => .bootloader
  | .unknownBios tag => biosE820ToKind tag
  | .unknownUefi _ => .reserved

/-- What the memory map shows for a region of the bootloader. -/
def MemRegionInfo.ofBoot (region : MemoryRegion) : MemRegionInfo :=
  ⟨region.start, region.stop, .ofBoot region.kind⟩

/-- The loop of `kernel_main` over the regions of the bootloader, which ends at the 30th. -/
def collectFrom (regions : Vector MemRegionInfo MAX_REGIONS) (count : ℕ) :
    List MemoryRegion → Vector MemRegionInfo MAX_REGIONS × ℕ
  | [] => (regions, count)
  | region :: rest =>
    if h : count < 30 then
      collectFrom (regions.set count (.ofBoot region) (Nat.lt_trans h (by decide))) (count + 1) rest
    else
      (regions, count)

/-- The regions that `kernel_main` hands to `set_memory_regions`: those collected, and the heap. -/
def collectRegions (bootRegions : List MemoryRegion) : List MemRegionInfo :=
  let (regions, count) := collectFrom (.replicate _ ⟨0, 0, .usable⟩) 0 bootRegions
  let heap : MemRegionInfo := ⟨HEAP_START, HEAP_START + HEAP_SIZE, .heap⟩
  if h : count < MAX_REGIONS then
    (regions.set count heap h).toList.take (count + 1)
  else
    regions.toList.take count

/-- A vector that is filled from the front. -/
theorem take_set_succ {α : Type*} {n : ℕ} (v : Vector α n) {k : ℕ} (a : α) (h : k < n) :
    (v.set k a h).toList.take (k + 1) = v.toList.take k ++ [a] := by
  have hk : k < v.toList.length := by rwa [Vector.length_toList]
  rw [Vector.toList_set, List.take_succ_eq_append_getElem (by rwa [List.length_set]),
    List.getElem_set_self, List.take_set_of_le (Nat.le_refl k)]

/-- The loop appends the regions, as far as there is room for 30. -/
theorem collectFrom_eq (rs : List MemoryRegion) (v : Vector MemRegionInfo MAX_REGIONS) {count : ℕ}
    (hcount : count ≤ 30) :
    (collectFrom v count rs).2 ≤ 30 ∧
      (collectFrom v count rs).1.toList.take (collectFrom v count rs).2 =
        v.toList.take count ++ (rs.take (30 - count)).map .ofBoot := by
  induction rs generalizing v count with
  | nil => exact ⟨hcount, by rw [List.take_nil, List.map_nil, List.append_nil]; rfl⟩
  | cons r rs ih =>
    rw [collectFrom]
    split
    · rename_i hlt
      obtain ⟨hle, heq⟩ := ih (v.set count (.ofBoot r) (Nat.lt_trans hlt (by decide))) hlt
      refine ⟨hle, heq.trans ?_⟩
      rw [take_set_succ, List.append_assoc, show 30 - count = 30 - (count + 1) + 1 by omega,
        List.take_succ_cons, List.map_cons]
      rfl
    · rename_i hge
      refine ⟨hcount, ?_⟩
      rw [show 30 - count = 0 by omega, List.take_zero, List.map_nil, List.append_nil]

/-- **The memory map has the first 30 regions of the bootloader, and the heap.** -/
theorem collectRegions_eq (rs : List MemoryRegion) :
    collectRegions rs =
      (rs.take 30).map .ofBoot ++ [⟨HEAP_START, HEAP_START + HEAP_SIZE, .heap⟩] := by
  obtain ⟨hle, heq⟩ := collectFrom_eq rs (.replicate _ ⟨0, 0, .usable⟩) (Nat.zero_le 30)
  have hlt : (collectFrom (.replicate _ ⟨0, 0, .usable⟩) 0 rs).2 < MAX_REGIONS :=
    Nat.lt_of_le_of_lt hle (by decide)
  rw [collectRegions]
  dsimp only
  rw [dif_pos hlt, take_set_succ, heq]
  rfl

/-- They are all stored. -/
theorem stored_collectRegions (self : MemRegions) (rs : List MemoryRegion) :
    (self.setMemoryRegions (collectRegions rs)).stored = collectRegions rs := by
  rw [MemRegions.stored_setMemoryRegions, List.take_of_length_le]
  rw [collectRegions_eq, List.length_append, List.length_map, List.length_take,
    List.length_singleton]
  have : MAX_REGIONS = 32 := rfl
  omega

/-- Every region that is stored begins before it ends, if those of the bootloader do. -/
theorem start_le_stop_of_stored {self : MemRegions} {rs : List MemoryRegion}
    (hrs : ∀ r ∈ rs, r.start ≤ r.stop) :
    ∀ r ∈ (self.setMemoryRegions (collectRegions rs)).stored, r.start ≤ r.stop := by
  rw [stored_collectRegions, collectRegions_eq]
  intro r hr
  rcases List.mem_append.1 hr with hr | hr
  · obtain ⟨r', hr', rfl⟩ := List.mem_map.1 hr
    exact hrs r' (List.mem_of_mem_take hr')
  · rw [List.mem_singleton.1 hr]
    decide

variable [BasicFonts]

/-! ### The drawing -/

/-- `draw_memmap`. -/
def Statics.drawMemmap (self : Statics) (winId : ℕ) (regions : MemRegions) : Option Statics :=
  self.updateWm fun wm => do
    let windows ← WindowManager.modifyWindow (fun win => win.drawMemmap regions) winId wm.windows
    some { wm with windows }

namespace WindowManager

variable {info : FrameBufferInfo} {wm : WindowManager} {fb : Buf} {created : List WmWindow}

/-- `mark_dirty` sets the flag, whatever it was. -/
theorem perform_markDirty_of_flag (wm : WindowManager) (winId : UInt64)
    (fbs : Option FrameBufferState) :
    (Statics.mk (some { wm with needsComposite := true }) fbs).perform (.markDirty winId) =
      (Statics.mk (some wm) fbs).perform (.markDirty winId) := rfl

/-- **`draw_memmap`** never fails in a window that is high enough.  It does not set the flag, so the
screen may be stale after it. -/
theorem Running.exists_drawMemmap (hf : info.FormatFits) (h : Running info created wm fb)
    {regions : MemRegions} (hregions : ∀ r ∈ regions.stored, r.start ≤ r.stop)
    (hheight : ∀ win ∈ created, legendHeight + WINDOW_PADDING ≤ win.height) (winId : ℕ) :
    ∃ wm', (Statics.mk (some wm) (some ⟨fb, info⟩)).drawMemmap winId regions =
        some ⟨some wm', some ⟨fb, info⟩⟩ ∧
      Running info created { wm' with needsComposite := true } fb ∧ SameDesktop wm wm' ∧
        KeepsText (some winId) wm.windows wm'.windows := by
  have hdraw : ∀ win ∈ wm.windows, ∃ (buf : Buf) (dirty : Bool),
      win.drawMemmap regions = some { win with buf, dirty } ∧ buf.size = win.buf.size := by
    intro win hwin
    refine WmWindow.exists_drawMemmap_of_height (h.coherent.valid win hwin) hf hregions ?_
    exact hheight win.frame (h.session.perm.mem_iff.1 (List.mem_map_of_mem hwin))
  obtain ⟨windows, hmodify⟩ := exists_modifyWindow (f := fun win => win.drawMemmap regions) winId
    fun win hwin => by
      obtain ⟨buf, dirty, heq, -⟩ := hdraw win hwin
      exact ⟨_, heq⟩
  have hrel : List.Forall₂ (WmWindow.Rewritten (some winId)) wm.windows windows := by
    have hboth := (List.forall₂_and_left _ _).2 ⟨hdraw, forall₂_of_modifyWindow hmodify⟩
    refine hboth.imp fun win win' ⟨⟨buf, dirty, heq, hsize⟩, hcase⟩ => ?_
    rcases hcase with rfl | ⟨hid, heq'⟩
    · exact (WmWindow.SameText.refl _).rewritten _
    · cases heq.symm.trans heq'
      exact ⟨rfl, hsize, fun hne => absurd (congrArg some hid.symm) hne⟩
  exact ⟨{ wm with windows },
    Statics.updateWm_of_eq (Option.bind_eq_some_iff.2 ⟨windows, hmodify, rfl⟩),
    h.rewrite hrel nofun, sameDesktop_of_rewritten wm wm.needsComposite hrel,
    keepsText_of_rewritten hrel⟩

end WindowManager

end ROs
