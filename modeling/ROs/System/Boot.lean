import ROs.System.Heap
import ROs.System.Tasks

/-!
# Boot

`kernel_main` draws the background, maps the heap, sets up the window manager with three windows, two
of which get a console, paints the screen, and spawns a task for each window.

What comes from outside is a `Platform`: what the bootloader hands over, the page tables that it has
made, and the package that manages the heap, of which only matters whether it has room for the vectors
that are allocated.  Interrupts are enabled before the end of `kernel_main`; as it looks at nothing that
they change, those that arrive meanwhile are taken to arrive at its end, where they are the first steps
of a run.

* `Platform.Supports` : what the boot needs of its platform.
* `System.exists_kernelMain` : **on a screen of at least the size that is asked of the bootloader,
  once the heap is there and has room, the boot does not panic**, and leaves the state
  `System.Booted`.
-/

namespace ROs

/-! ### The windows -/

/-- The frame of a window that `create_window` makes. -/
def windowFrame (info : FrameBufferInfo) (id x y width height : ℕ) (title : String)
    (ownerTask : ℕ) : WmWindow where
  id
  x
  y
  width
  height
  title := WindowManager.titleBuf title
  titleLen := min title.toUTF8.size MAX_TITLE
  titleLen_le := WindowManager.titleLen_le title
  buf := #[]
  bufInfo := { info with width, height, stride := width }
  console := none
  dirty := false
  ownerTask

/-- The frames of the three windows, from back to front. -/
def bootFrames (info : FrameBufferInfo) : List WmWindow :=
  [windowFrame info 0 380 80 520 420 "Shell" 1, windowFrame info 1 20 40 340 520 "Memory Map" 2,
    windowFrame info 2 560 40 240 200 "Counter" 3]

/-- The windows are high enough for the memory map. -/
theorem height_of_mem_bootFrames {info : FrameBufferInfo} :
    ∀ win ∈ bootFrames info, legendHeight + WINDOW_PADDING ≤ win.height := by
  simp only [bootFrames, List.forall_mem_cons]
  exact ⟨show legendHeight + WINDOW_PADDING ≤ 420 by decide,
    show legendHeight + WINDOW_PADDING ≤ 520 by decide,
    show legendHeight + WINDOW_PADDING ≤ 200 by decide, nofun⟩

/-- The content of the window of the shell. -/
def shellContent : Rect := ⟨6, 30, 508, 384⟩

/-- The content of the window of the counter. -/
def counterContent : Rect := ⟨6, 30, 228, 164⟩

/-- The console of the shell has 24 rows of 63 characters. -/
abbrev ShellGrid : Type :=
  Grid (shellContent.height / FONT_HEIGHT) (shellContent.width / FONT_WIDTH)

/-- The console of the counter has 10 rows of 28 characters. -/
abbrev CounterGrid : Type :=
  Grid (counterContent.height / FONT_HEIGHT) (counterContent.width / FONT_WIDTH)

/-- The grid of a new console of the shell. -/
def ShellGrid.blank : ShellGrid := Grid.blank (by decide) (by decide)

/-- The grid of a new console of the counter. -/
def CounterGrid.blank : CounterGrid := Grid.blank (by decide) (by decide)

/-! ### The boot -/

/-- The lengths of the vectors of bytes that are allocated, in this order and for ever: the two
buffers of the screen, those of the windows, and the stacks. -/
def allocations (info : FrameBufferInfo) : List ℕ :=
  let screen := info.width * info.height * info.bytesPerPixel
  [screen, screen, 520 * 420 * info.bytesPerPixel, 340 * 520 * info.bytesPerPixel,
    240 * 200 * info.bytesPerPixel] ++ List.replicate 3 TASK_STACK_SIZE.toNat

/-- What `kernel_main` finds. -/
structure Platform (M : Type) where
  /-- `boot_info.physical_memory_offset`. -/
  physicalMemoryOffset : Option UInt64
  /-- `boot_info.memory_regions`. -/
  memoryRegions : List MemoryRegion
  /-- The frame in the register `cr3`. -/
  l4Frame : PhysFrame
  /-- `OffsetPageTable::new`, of the address of the table and the offset. -/
  offsetPageTable : VirtAddr → VirtAddr → M
  /-- Whether the heap has room for vectors of these lengths. -/
  room : Heap → List ℕ → Bool
  /-- Where the stacks of the tasks are allocated. -/
  taskStacks : Fin 3 → UInt64

namespace Platform

variable {M : Type}

/-- The part of `kernel_main` that sets up the page table, the frame allocator and the heap. -/
def initMemory [Mapper M] (self : Platform M) : Option Heap := do
  -- the offset is expected to be available
  let physOffset ← VirtAddr.new (← self.physicalMemoryOffset)
  let mapper ← initPageTable self.offsetPageTable self.l4Frame physOffset
  let (heap, _) ← initHeap mapper (.new self.memoryRegions)
  some heap

/-- What the boot needs: a mapping of the physical memory, a memory map with physical addresses and with
frames enough for the heap and its page tables, and a heap that has room for the vectors. -/
structure Supports [LawfulMapper M] (platform : Platform M) (info : FrameBufferInfo) : Prop where
  mapper : ∃ offset physOffset mapper, platform.physicalMemoryOffset = some offset ∧
    VirtAddr.new offset = some physOffset ∧
    initPageTable platform.offsetPageTable platform.l4Frame physOffset = some mapper ∧
    HeapFree platform.memoryRegions mapper
  addrsBelow : UsableFrameIter.AddrsBelow platform.memoryRegions
  start_le_stop : ∀ r ∈ platform.memoryRegions, r.start ≤ r.stop
  frames : (BootFrameAllocator.new platform.memoryRegions).Holds (4 * 2048)
  room : platform.room ⟨HEAP_START, HEAP_SIZE⟩ (allocations info) = true

/-- The heap is set up. -/
theorem Supports.initMemory_eq [LawfulMapper M] {platform : Platform M} {info : FrameBufferInfo}
    (h : platform.Supports info) : platform.initMemory = some ⟨HEAP_START, HEAP_SIZE⟩ := by
  obtain ⟨offset, physOffset, mapper, hoffset, hphys, hmapper, hfree⟩ := h.mapper
  obtain ⟨mapper', frameAllocator, hheap⟩ := exists_initHeap h.addrsBelow hfree h.frames
  simp only [initMemory, hoffset, hphys, hmapper, hheap, Option.bind_eq_bind, Option.bind_some]

end Platform

variable [BasicFonts] {D : KeyDecoder} {M : Type} [Mapper M]

omit [BasicFonts] in
/-- `framebuffer::init`. -/
def framebufferInit (fb : FrameBufferState) : Option FrameBufferState := do
  some { fb with buf := ← drawBackground fb.buf fb.info }

namespace System

/-- `kernel_main` up to the loop of `task::run`, with a frame buffer. -/
def kernelMain (D : KeyDecoder) (platform : Platform M) (fb : FrameBufferState) :
    Option (System D) := do
  let fb ← framebufferInit fb
  let heap ← platform.initMemory
  if platform.room heap (allocations fb.info) then
    let statics ← (Statics.mk none (some fb)).init
    let memRegions := MemRegions.initial.setMemoryRegions (collectRegions platform.memoryRegions)
    let (statics, shellWin) ← statics.createWindow 380 80 520 420 "Shell" 1
    let (statics, memmapWin) ← statics.createWindow 20 40 340 520 "Memory Map" 2
    let (statics, counterWin) ← statics.createWindow 560 40 240 200 "Counter" 3
    let statics ← statics.initConsole shellWin
    let statics ← statics.initConsole counterWin
    let statics ← statics.composite
    let scheduler := (((Scheduler.init.spawn (platform.taskStacks 0) (some shellWin)).spawn
      (platform.taskStacks 1) (some memmapWin)).spawn (platform.taskStacks 2)
      (some counterWin)).register
    some {
      statics
      scheduler
      input := .init
      keyboard := D.new
      memRegions
      idle := .reading
      shell := .entry
      memmap := .entry
      counter := .entry }
  else
    none

/-- The scheduler when its loop begins. -/
def bootScheduler (taskStacks : Fin 3 → UInt64) : Scheduler where
  tasks := [⟨3, none, .Running, none⟩, ⟨0, some (taskStacks 0), .Ready, some 0⟩,
    ⟨1, some (taskStacks 1), .Ready, some 1⟩, ⟨2, some (taskStacks 2), .Ready, some 2⟩]
  current := 0
  nextId := 4

/-- The state that the boot leaves. -/
structure Booted (info : FrameBufferInfo) (memoryRegions : List MemoryRegion) (s : System D) :
    Prop where
  desktop : ∃ wm fb, s.statics = ⟨some wm, some ⟨fb, info⟩⟩ ∧
    WindowManager.Running info (bootFrames info) wm fb ∧ wm.needsComposite = false ∧
    wm.windows.map WmWindow.frame = bootFrames info ∧ wm.focused = some 0 ∧
    wm.cursor.x = (info.width / 2 : ℕ) ∧ wm.cursor.y = (info.height / 2 : ℕ) ∧
    wm.Hosts 0 shellContent false ShellGrid.blank ∧
    wm.Hosts 2 counterContent false CounterGrid.blank
  scheduler : ∃ taskStacks, s.scheduler = bootScheduler taskStacks
  input : s.input = .init
  keyboard : s.keyboard = D.new
  memRegions : s.memRegions = MemRegions.initial.setMemoryRegions (collectRegions memoryRegions)
  idle : s.idle = .reading
  shell : s.shell = .entry
  memmap : s.memmap = .entry
  counter : s.counter = .entry

/-- A boot that does not panic has set up the heap and found room on it. -/
theorem room_of_kernelMain {platform : Platform M} {fb : FrameBufferState} {s : System D}
    (h : kernelMain D platform fb = some s) :
    ∃ heap, platform.initMemory = some heap ∧ platform.room heap (allocations fb.info) = true := by
  rw [kernelMain] at h
  obtain ⟨fb', hinit, h⟩ := Option.bind_eq_some_iff.1 h
  obtain ⟨bg, -, heq⟩ := Option.bind_eq_some_iff.1 hinit
  cases heq
  obtain ⟨heap, hheap, h⟩ := Option.bind_eq_some_iff.1 h
  refine ⟨heap, hheap, ?_⟩
  by_contra hne
  rw [if_neg hne] at h
  cases h

end System

/-! ### It does not panic -/

variable {info : FrameBufferInfo} {fb fb' : Buf}

omit [BasicFonts] in
theorem BootScreen.congr (h : BootScreen info fb) (hsize : fb'.size = fb.size) :
    BootScreen info fb' :=
  ⟨⟨h.width_pos, h.height_pos, h.width_le_stride, h.format, h.bytesPerPixel_ge,
    hsize.trans h.size_eq, hsize ▸ h.size_le⟩, h.stride_eq, h.width_le, h.height_le⟩

omit [BasicFonts] in
theorem BootScreen.bytes_le (h : BootScreen info fb) :
    info.width * info.height * info.bytesPerPixel ≤ USIZE_MAX := by
  rw [← h.stride_eq, ← h.size_eq]
  exact h.size_le

namespace WindowManager

variable {wm : WindowManager}

/-- **The windows of the boot**, on the screen that is asked of the bootloader. -/
theorem exists_bootWindows (hb : BootScreen info fb) (hw : 1024 ≤ info.width)
    (hh : 768 ≤ info.height) (hnew : new info = some wm) :
    ∃ wm₁ wm₂ wm₃,
      (Statics.mk (some wm) (some ⟨fb, info⟩)).createWindow 380 80 520 420 "Shell" 1 =
        some (⟨some wm₁, some ⟨fb, info⟩⟩, 0) ∧
      (Statics.mk (some wm₁) (some ⟨fb, info⟩)).createWindow 20 40 340 520 "Memory Map" 2 =
        some (⟨some wm₂, some ⟨fb, info⟩⟩, 1) ∧
      (Statics.mk (some wm₂) (some ⟨fb, info⟩)).createWindow 560 40 240 200 "Counter" 3 =
        some (⟨some wm₃, some ⟨fb, info⟩⟩, 2) ∧
      Running info (bootFrames info) wm₃ fb ∧ wm₃.windows.map WmWindow.frame = bootFrames info ∧
      wm₃.focused = some 0 ∧ wm₃.needsComposite = true ∧ wm₃.cursor = wm.cursor := by
  obtain ⟨hwindows, hnext, hinfo, -, -, -, -⟩ := new_eq_some hnew
  have hfocused : wm.focused = none :=
    ((running_of_new hb hnew).session.focused_eq_none).2 hwindows
  obtain ⟨w₀, wm₁, hframe₀, -, hwm₁, hcall₀, hrun₁⟩ := (running_of_new hb hnew).exists_createWindow
    hb.fits hb.stride_eq hb.bytes_le 380 80 520 420
    (by change 900 ≤ info.width; omega) (by change 500 ≤ info.height; omega) "Shell" 1
  obtain ⟨w₁, wm₂, hframe₁, -, hwm₂, hcall₁, hrun₂⟩ := hrun₁.exists_createWindow
    hb.fits hb.stride_eq hb.bytes_le 20 40 340 520
    (by change 360 ≤ info.width; omega) (by change 560 ≤ info.height; omega) "Memory Map" 2
  obtain ⟨w₂, wm₃, hframe₂, -, hwm₃, hcall₂, hrun₃⟩ := hrun₂.exists_createWindow
    hb.fits hb.stride_eq hb.bytes_le 560 40 240 200
    (by change 800 ≤ info.width; omega) (by change 240 ≤ info.height; omega) "Counter" 3
  have hnext₁ : wm₁.nextId = 1 := by rw [hwm₁, hnext]
  have hnext₂ : wm₂.nextId = 2 := by rw [hwm₂, hnext₁]
  have hinfo₁ : wm₁.screenInfo = info := hrun₁.coherent.screenInfo_eq
  have hinfo₂ : wm₂.screenInfo = info := hrun₂.coherent.screenInfo_eq
  have hf₀ : w₀.frame = windowFrame info 0 380 80 520 420 "Shell" 1 := by
    rw [hframe₀, ← hinfo, ← hnext]
    rfl
  have hf₁ : w₁.frame = windowFrame info 1 20 40 340 520 "Memory Map" 2 := by
    rw [hframe₁, ← hinfo₁, ← hnext₁]
    rfl
  have hf₂ : w₂.frame = windowFrame info 2 560 40 240 200 "Counter" 3 := by
    rw [hframe₂, ← hinfo₂, ← hnext₂]
    rfl
  have hfocus₁ : wm₁.focused = some 0 := by
    rw [hwm₁]
    dsimp only
    rw [if_pos hfocused, hnext]
  have hfocus₂ : wm₂.focused = some 0 := by
    rw [hwm₂]
    dsimp only
    rw [if_neg (by rw [hfocus₁]; exact nofun), hfocus₁]
  refine ⟨wm₁, wm₂, wm₃, ?_, ?_, ?_, ?_, ?_, ?_, by rw [hwm₃], by rw [hwm₃, hwm₂, hwm₁]⟩
  · exact hcall₀.trans (by rw [hnext])
  · exact hcall₁.trans (by rw [hnext₁])
  · exact hcall₂.trans (by rw [hnext₂])
  · rw [hf₀, hf₁, hf₂] at hrun₃
    exact hrun₃
  · rw [hwm₃, hwm₂, hwm₁, hwindows]
    simp only [List.nil_append, List.map_append, List.map_cons, List.map_nil, hf₀, hf₁, hf₂]
    rfl
  · rw [hwm₃]
    dsimp only
    rw [if_neg (by rw [hfocus₂]; exact nofun), hfocus₂]

/-- A console in one of the windows, whatever has been done to the pixels. -/
theorem Running.exists_hosts_initConsole (hf : info.Fits)
    (h : Running info (bootFrames info) wm fb) (hneeds : wm.needsComposite = true)
    {frame : WmWindow} (hframe : frame ∈ wm.windows.map WmWindow.frame) {content : Rect}
    (hcontent : frame.contentRect = content) (hrows : 0 < content.height / FONT_HEIGHT)
    (hcols : 0 < content.width / FONT_WIDTH) :
    ∃ wm', (Statics.mk (some wm) (some ⟨fb, info⟩)).initConsole frame.id =
        some ⟨some wm', some ⟨fb, info⟩⟩ ∧
      Running info (bootFrames info) wm' fb ∧ SameDesktop wm wm' ∧
      KeepsText (some frame.id) wm.windows wm'.windows ∧ wm'.needsComposite = true ∧
      wm'.Hosts frame.id content false (Grid.blank hrows hcols) := by
  subst hcontent
  obtain ⟨win, hwin, rfl⟩ := List.mem_map.1 hframe
  obtain ⟨wm', hinit, hrun, hsame, hkeep, hneeds'⟩ := h.exists_initConsole hf hneeds win.id
  exact ⟨wm', hinit, hrun, hsame, hkeep, hneeds',
    hosts_initConsole hf.formatFits h.tracked hwin hrows hcols hinit⟩

end WindowManager

namespace System

open WindowManager

/-- **The boot does not panic** once the heap is there and has room. -/
theorem exists_kernelMain (D : KeyDecoder) {platform : Platform M} (hb : BootScreen info fb)
    (hw : 1024 ≤ info.width) (hh : 768 ≤ info.height) {heap : Heap}
    (hheap : platform.initMemory = some heap)
    (hroom : platform.room heap (allocations info) = true) :
    ∃ s : System D, kernelMain D platform ⟨fb, info⟩ = some s ∧
      Booted info platform.memoryRegions s := by
  have hfits := hb.fits
  obtain ⟨bg, hbg⟩ := exists_drawBackground hfits hb.height_le fb
  have hb' : BootScreen info bg := hb.congr (keepsSize_drawBackground _ _ hbg)
  obtain ⟨wm, hnew⟩ := exists_new hfits hb.height_le hb.bytes_le
  obtain ⟨-, -, -, -, hcursor₀, -, -⟩ := new_eq_some hnew
  obtain ⟨wm₁, wm₂, wm₃, hcall₁, hcall₂, hcall₃, hrun₃, hframes, hfocused, hneeds, hcursor⟩ :=
    exists_bootWindows hb' hw hh hnew
  have hframe₀ : windowFrame info 0 380 80 520 420 "Shell" 1 ∈ wm₃.windows.map WmWindow.frame :=
    hframes ▸ List.mem_cons_self
  have hcontent₀ : (windowFrame info 0 380 80 520 420 "Shell" 1).contentRect = shellContent := rfl
  obtain ⟨wm₄, hcall₄, hrun₄, hsame₄, -, hneeds₄, hshell⟩ := hrun₃.exists_hosts_initConsole hfits
    hneeds hframe₀ hcontent₀ (by decide) (by decide)
  have hframe₂ : windowFrame info 2 560 40 240 200 "Counter" 3 ∈
      wm₄.windows.map WmWindow.frame := by
    rw [hsame₄.frames, hframes]
    exact List.mem_of_getElem? (i := 2) rfl
  have hcontent₂ : (windowFrame info 2 560 40 240 200 "Counter" 3).contentRect = counterContent :=
    rfl
  obtain ⟨wm₅, hcall₅, hrun₅, hsame₅, hkeep₅, -, hcounter⟩ := hrun₄.exists_hosts_initConsole hfits
    hneeds₄ hframe₂ hcontent₂ (by decide) (by decide)
  obtain ⟨wm₆, fb₆, hcomp, hrun₆, hsame₆, hkeep₆, hneeds₆⟩ := hrun₅.exists_composite hfits
  have hsame := (hsame₄.trans hsame₅).trans hsame₆
  refine ⟨{
      statics := ⟨some wm₆, some ⟨fb₆, info⟩⟩
      scheduler := bootScheduler platform.taskStacks
      input := .init
      keyboard := D.new
      memRegions := MemRegions.initial.setMemoryRegions (collectRegions platform.memoryRegions)
      idle := .reading
      shell := .entry
      memmap := .entry
      counter := .entry }, ?_, ⟨wm₆, fb₆, rfl, hrun₆, hneeds₆, hsame.frames.trans hframes,
      hsame.focused.trans hfocused, ?_, ?_, ?_, ?_⟩, ⟨platform.taskStacks, rfl⟩, rfl, rfl, rfl, rfl, rfl,
    rfl, rfl⟩
  · have hcomposite : (Statics.mk (some wm₅) (some ⟨bg, info⟩)).composite =
        some ⟨some wm₆, some ⟨fb₆, info⟩⟩ :=
      Statics.perform_composite_of_eq ⟨bg, info⟩ hcomp
    have hinit := Statics.init_of_eq ⟨bg, info⟩ hnew
    have hfb : framebufferInit ⟨fb, info⟩ = some ⟨bg, info⟩ := by
      rw [framebufferInit, hbg]
      rfl
    rw [kernelMain, hfb]
    simp only [Option.bind_eq_bind, Option.bind_some, hheap, hroom, if_true, hinit, hcall₁, hcall₂,
      hcall₃]
    rw [show Statics.initConsole _ 0 = _ from hcall₄, Option.bind_some,
      show Statics.initConsole _ 2 = _ from hcall₅, Option.bind_some, hcomposite, Option.bind_some]
    rfl
  · rw [hsame.x, hcursor, hcursor₀]
    exact asI32_of_lt (by have := hb.width_le; omega)
  · rw [hsame.y, hcursor, hcursor₀]
    exact asI32_of_lt (by have := hb.height_le; omega)
  · exact (hshell.keep hkeep₅ nofun).keep hkeep₆ nofun
  · exact hcounter.keep hkeep₆ nofun

end System

end ROs
