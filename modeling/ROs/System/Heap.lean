import ROs.Memory.Paging
import ROs.System.Regions

/-!
# The heap

`allocator::init` maps each page of the heap to a frame of the boot frame allocator, which hands out
the frames of the page tables in between.

* `exists_initHeap` : **it does not panic** if there are four usable frames for each page.
* `initHeap_maps` : **after it, each address of the heap is backed by a usable frame of its own**,
  which is not a page table and is not handed out again; all other pages are as before.
-/

namespace ROs

open BootFrameAllocator UsableFrameIter

/-- What `LockedHeap::init` is given. -/
structure Heap where
  bottom : UInt64
  size : UInt64
  deriving DecidableEq

/-- The flags of the pages of the heap. -/
def heapFlags : PageTableFlags := .PRESENT ||| .WRITABLE

/-- The body of the loop of `allocator::init`. -/
def mapHeapPage {M : Type} [Mapper M] (self : M × BootFrameAllocator) (page : Page) :
    Option (M × BootFrameAllocator) := do
  let (frame, frameAllocator) ← self.2.allocateFrame
  -- out of physical memory
  let frame ← frame
  let (mapper, result, frameAllocator) ←
    (Mapper.mapTo self.1 page frame heapFlags).run frameAllocator
  match result with
  | .ok () => some (mapper, frameAllocator)
  | .error _ => none

/-- `allocator::init`. -/
def initHeap {M : Type} [Mapper M] (mapper : M) (frameAllocator : BootFrameAllocator) :
    Option (Heap × M × BootFrameAllocator) := do
  let heapStart ← VirtAddr.new HEAP_START
  let heapEnd ← heapStart.add HEAP_SIZE
  let startPage := Page.containingAddress heapStart
  let endPage := Page.containingAddress (← heapEnd.sub 1)
  let pages ← startPage.rangeInclusive endPage
  let (mapper, frameAllocator) ← pages.foldlM mapHeapPage (mapper, frameAllocator)
  some (⟨HEAP_START, HEAP_SIZE⟩, mapper, frameAllocator)

/-- The page has an address of the heap. -/
def Page.OnHeap (page : Page) : Prop :=
  ∃ a : VirtAddr, HEAP_START ≤ a.addr ∧ a.addr < HEAP_START + HEAP_SIZE ∧
    page = .containingAddress a

/-! ### The pages -/

/-- The pages of the heap have consecutive numbers. -/
theorem Page.onHeap_iff {page : Page} :
    page.OnHeap ↔ 0x4_4444_4440 ≤ page.number ∧ page.number ≤ 0x4_4444_4c3f := by
  constructor
  · rintro ⟨a, hle, hlt, rfl⟩
    rw [UInt64.le_iff_toNat_le] at hle
    rw [UInt64.lt_iff_toNat_lt] at hlt
    change 0x4444_4444_0000 ≤ _ at hle
    change _ < 0x4444_44c4_0000 at hlt
    rw [number_containingAddress]
    omega
  · rintro ⟨hle, hge⟩
    obtain ⟨k, hk⟩ := page.aligned
    have hnumber : page.number = k := by
      rw [number, hk]
      exact Nat.mul_div_cancel_left _ (by decide)
    refine ⟨page.startAddress, ?_, ?_, number_injective (number_containingAddress _).symm⟩
    · rw [UInt64.le_iff_toNat_le, hk]
      change 0x4444_4444_0000 ≤ _
      omega
    · rw [UInt64.lt_iff_toNat_lt, hk]
      change _ < 0x4444_44c4_0000
      omega

/-- `allocator::init` maps the pages of the heap, one after the other. -/
theorem initHeap_eq {M : Type} [Mapper M] (mapper : M) (frameAllocator : BootFrameAllocator) :
    ∃ pages : List Page, pages.Nodup ∧ pages.length = 2048 ∧
      (∀ page, page ∈ pages ↔ page.OnHeap) ∧
      initHeap mapper frameAllocator =
        (pages.foldlM mapHeapPage (mapper, frameAllocator)).map (⟨HEAP_START, HEAP_SIZE⟩, ·) := by
  obtain ⟨start, hstart, haddr⟩ : ∃ start, VirtAddr.new HEAP_START = some start ∧
      start.addr = HEAP_START := ⟨_, dif_pos (by decide), rfl⟩
  obtain ⟨stop, hstop, hstopAddr⟩ : ∃ stop, start.add HEAP_SIZE = some stop ∧
      stop.addr = HEAP_START + HEAP_SIZE := by
    rw [VirtAddr.add, haddr, if_pos (by decide), VirtAddr.new, dif_pos (by decide)]
    exact ⟨_, rfl, rfl⟩
  obtain ⟨last, hlast, hlastAddr⟩ : ∃ last, stop.sub 1 = some last ∧
      last.addr = HEAP_START + HEAP_SIZE - 1 := by
    rw [VirtAddr.sub, hstopAddr, if_pos (by decide), VirtAddr.new, dif_pos (by decide)]
    exact ⟨_, rfl, rfl⟩
  have hfirst : (Page.containingAddress start).number = 0x4_4444_4440 := by
    rw [Page.number_containingAddress, haddr]
    rfl
  have hfinal : (Page.containingAddress last).number = 0x4_4444_4c3f := by
    rw [Page.number_containingAddress, hlastAddr]
    rfl
  have hlower : (Page.containingAddress last).number < 2 ^ 35 := by
    rw [hfinal]
    decide
  obtain ⟨pages, hpages⟩ : ∃ pages,
      (Page.containingAddress start).rangeInclusive (.containingAddress last) = some pages :=
    Page.exists_rangeInclusive hlower
  obtain ⟨hnodup, hlength, hmem⟩ := Page.of_rangeInclusive hpages
  rw [hfirst, hfinal] at hlength hmem
  refine ⟨pages, hnodup, by omega, fun page => (hmem page).trans Page.onHeap_iff.symm, ?_⟩
  rw [initHeap]
  generalize VirtAddr.new HEAP_START = heapStart at hstart ⊢
  subst hstart
  rw [Option.bind_eq_bind, Option.bind_some, hstop, Option.bind_eq_bind, Option.bind_some, hlast,
    Option.bind_eq_bind, Option.bind_some]
  dsimp only
  rw [hpages, Option.bind_some]
  cases pages.foldlM mapHeapPage (mapper, frameAllocator) with
  | none => rfl
  | some s => rfl

/-! ### The loop -/

section Loop

variable {M : Type} [LawfulMapper M] {regions : List MemoryRegion} {before mapper : M}
  {frameAllocator : BootFrameAllocator} {pages todo : List Page} {page : Page} {mark : ℕ}

/-- What holds when these pages have been mapped, to frames below `mark`. -/
structure HeapMapped (regions : List MemoryRegion) (before mapper : M) (mark : ℕ)
    (pages : List Page) : Prop where
  mapped : ∀ page ∈ pages, ∃ frame, LawfulMapper.entry mapper page = .mapped frame heapFlags ∧
    Usable regions frame ∧ frame.base < mark ∧ frame ∉ LawfulMapper.tables mapper
  distinct : ∀ p ∈ pages, ∀ q ∈ pages,
    LawfulMapper.entry mapper p = LawfulMapper.entry mapper q → p = q
  other : ∀ page, page ∉ pages → LawfulMapper.entry mapper page = LawfulMapper.entry before page
  tables : ∀ t ∈ LawfulMapper.tables mapper,
    t ∈ LawfulMapper.tables before ∨ Usable regions t ∧ t.base < mark

/-- A fresh frame is not a page table. -/
theorem HeapMapped.not_mem_tables (h : HeapMapped regions before mapper mark pages)
    (hfree : ∀ t ∈ LawfulMapper.tables before, ¬ Usable regions t) {frame : PhysFrame}
    (husable : Usable regions frame) (hmark : mark ≤ frame.base) :
    frame ∉ LawfulMapper.tables mapper := by
  intro hmem
  rcases h.tables frame hmem with hbefore | ⟨-, hlt⟩
  · exact hfree frame hbefore husable
  · exact absurd hmark (Nat.not_le.2 hlt)

/-- A page more, which is mapped to a frame above all of those before. -/
theorem HeapMapped.cons {mapper' : M} {mark' : ℕ} {frame : PhysFrame} {given : List PhysFrame}
    (h : HeapMapped regions before mapper mark pages) (hpage : page ∉ pages)
    (hentry : LawfulMapper.entry mapper' page = .mapped frame heapFlags)
    (hother : ∀ other, other ≠ page →
      LawfulMapper.entry mapper' other = LawfulMapper.entry mapper other)
    (htables : ∀ t, t ∈ LawfulMapper.tables mapper' ↔ t ∈ LawfulMapper.tables mapper ∨ t ∈ given)
    (husable : Usable regions frame) (hnew : frame ∉ LawfulMapper.tables mapper)
    (hle : mark ≤ frame.base) (hlt : frame.base < mark')
    (hgiven : ∀ t ∈ given, Usable regions t ∧ frame.base < t.base ∧ t.base < mark') :
    HeapMapped regions before mapper' mark' (page :: pages) := by
  have hmark : mark ≤ mark' := hle.trans hlt.le
  have hne : ∀ p ∈ pages, p ≠ page := fun p hp heq => hpage (heq ▸ hp)
  -- no frame up to this one has become a table
  have hsafe : ∀ f : PhysFrame, f ∉ LawfulMapper.tables mapper → f.base ≤ frame.base →
      f ∉ LawfulMapper.tables mapper' := by
    intro f hf hbase hmem
    rcases (htables f).1 hmem with hmem | hmem
    · exact hf hmem
    · exact absurd (hgiven f hmem).2.1 (Nat.not_lt.2 hbase)
  -- no page before has this frame
  have hfresh : ∀ p ∈ pages, LawfulMapper.entry mapper' p ≠ .mapped frame heapFlags := by
    intro p hp heq
    obtain ⟨f, hf, -, hbase, -⟩ := h.mapped p hp
    rw [hother p (hne p hp), hf] at heq
    cases heq
    exact absurd hle (Nat.not_le.2 hbase)
  refine ⟨fun p hp => ?_, fun p hp q hq heq => ?_, fun p hp => ?_, fun t ht => ?_⟩
  · rcases List.mem_cons.1 hp with rfl | hp
    · exact ⟨frame, hentry, husable, hlt, hsafe frame hnew (Nat.le_refl _)⟩
    · obtain ⟨f, hf, hf₁, hf₂, hf₃⟩ := h.mapped p hp
      exact ⟨f, (hother p (hne p hp)).trans hf, hf₁, hf₂.trans_le hmark,
        hsafe f hf₃ (hf₂.le.trans hle)⟩
  · rcases List.mem_cons.1 hp with rfl | hp'
    · rcases List.mem_cons.1 hq with rfl | hq
      · rfl
      · exact absurd (heq.symm.trans hentry) (hfresh q hq)
    · rcases List.mem_cons.1 hq with rfl | hq
      · exact absurd (heq.trans hentry) (hfresh p hp')
      · rw [hother p (hne p hp'), hother q (hne q hq)] at heq
        exact h.distinct p hp' q hq heq
  · rw [List.mem_cons, not_or] at hp
    exact (hother p hp.1).trans (h.other p hp.2)
  · rcases (htables t).1 ht with ht | ht
    · exact (h.tables t ht).imp_right fun hold => ⟨hold.1, hold.2.trans_le hmark⟩
    · exact .inr ⟨(hgiven t ht).1, (hgiven t ht).2.2⟩

/-- **One more page** is mapped, if there are four frames left. -/
theorem HeapMapped.step (h : HeapMapped regions before mapper frameAllocator.mark pages)
    (ha : Serves regions frameAllocator) (hb : AddrsBelow regions)
    (hfree : ∀ t ∈ LawfulMapper.tables before, ¬ Usable regions t) (hpage : page ∉ pages)
    (hunmapped : LawfulMapper.entry before page = .unmapped) :
    (∀ s', mapHeapPage (mapper, frameAllocator) page = some s' → Serves regions s'.2 ∧
      HeapMapped regions before s'.1 s'.2.mark (page :: pages)) ∧
    ∀ k, frameAllocator.Holds (k + 4) →
      ∃ s', mapHeapPage (mapper, frameAllocator) page = some s' ∧ s'.2.Holds k := by
  obtain ⟨frame, a₁, halloc, hframe, hleft⟩ := ha.exists_allocateFrame hb
  cases frame with
  | none =>
    have hnone : mapHeapPage (mapper, frameAllocator) page = none := by
      rw [mapHeapPage, halloc]
      rfl
    rw [hnone]
    refine ⟨?_, ?_⟩
    · intro s' hs'
      cases hs'
    · intro k hk
      obtain ⟨-, f, hf⟩ := hleft (k + 3) hk
      cases hf
  | some f =>
    obtain ⟨ha₁, husable, hle, hlt⟩ := hframe f rfl
    have hnew : f ∉ LawfulMapper.tables mapper := h.not_mem_tables hfree husable hle
    have hmaps := LawfulMapper.maps mapper page f heapFlags ((h.other page hpage).trans hunmapped) hnew
    have hfresh : ∀ g, Usable regions g → a₁.mark ≤ g.base →
        (g ∉ LawfulMapper.tables mapper ∧ g ≠ f) ∧ g ∉ ([] : List PhysFrame) := by
      intro g hg hmark
      refine ⟨⟨h.not_mem_tables hfree hg (hle.trans (hlt.le.trans hmark)), ?_⟩, List.not_mem_nil⟩
      rintro rfl
      exact absurd hlt (Nat.not_lt.2 hmark)
    obtain ⟨mapper', result, a', hrun, hok, hholds⟩ := hmaps.exists_run hb ha₁ hfresh
    cases result with
    | error e =>
      have hnone : mapHeapPage (mapper, frameAllocator) page = none := by
        rw [mapHeapPage, halloc]
        simp only [Option.bind_eq_bind, Option.bind_some, hrun]
      rw [hnone]
      refine ⟨?_, ?_⟩
      · intro s' hs'
        cases hs'
      · intro k hk
        cases (hholds k (hleft (k + 3) hk).1).2
    | ok u =>
      have hsome : mapHeapPage (mapper, frameAllocator) page = some (mapper', a') := by
        rw [mapHeapPage, halloc]
        simp only [Option.bind_eq_bind, Option.bind_some, hrun]
      rw [hsome]
      refine ⟨?_, fun k hk => ⟨_, rfl, (hholds k (hleft (k + 3) hk).1).1⟩⟩
      intro s' hs'
      cases hs'
      obtain ⟨frames, ⟨hentry, hother, htables⟩, ha', hmark, hall⟩ := hok rfl
      refine ⟨ha', h.cons hpage hentry hother (fun t => htables t) husable hnew hle
        (hlt.trans_le hmark) fun t ht => ?_⟩
      obtain ⟨ht₁, ht₂, ht₃⟩ := hall t ht
      exact ⟨ht₁, hlt.trans_le ht₂, ht₃⟩

/-- **The loop** maps all of the pages, if there are four frames for each. -/
theorem HeapMapped.foldlM (h : HeapMapped regions before mapper frameAllocator.mark pages)
    (ha : Serves regions frameAllocator) (hb : AddrsBelow regions)
    (hfree : ∀ t ∈ LawfulMapper.tables before, ¬ Usable regions t) (hnodup : (todo ++ pages).Nodup)
    (hunmapped : ∀ page ∈ todo, LawfulMapper.entry before page = .unmapped) :
    (∀ s', todo.foldlM mapHeapPage (mapper, frameAllocator) = some s' → Serves regions s'.2 ∧
      HeapMapped regions before s'.1 s'.2.mark (todo.reverse ++ pages)) ∧
    ∀ k, frameAllocator.Holds (k + 4 * todo.length) →
      ∃ s', todo.foldlM mapHeapPage (mapper, frameAllocator) = some s' ∧ s'.2.Holds k := by
  induction todo generalizing mapper frameAllocator pages with
  | nil =>
    refine ⟨?_, fun k hk => ⟨_, rfl, hk⟩⟩
    intro s' hs'
    cases hs'
    exact ⟨ha, h⟩
  | cons page todo ih =>
    rw [List.forall_mem_cons] at hunmapped
    rw [List.cons_append, List.nodup_cons] at hnodup
    have hpage : page ∉ pages := fun hmem => hnodup.1 (List.mem_append_right _ hmem)
    obtain ⟨hstep, hsuccess⟩ := h.step ha hb hfree hpage hunmapped.1
    have hnodup' : (todo ++ page :: pages).Nodup := List.nodup_middle.2 (List.nodup_cons.2 hnodup)
    rw [List.foldlM_cons, List.reverse_cons, List.append_assoc]
    refine ⟨fun s' hs' => ?_, fun k hk => ?_⟩
    · obtain ⟨s₁, hs₁, hs'⟩ := Option.bind_eq_some_iff.1 hs'
      obtain ⟨ha₁, h₁⟩ := hstep s₁ hs₁
      exact (ih h₁ ha₁ hnodup' hunmapped.2).1 s' hs'
    · rw [List.length_cons, Nat.mul_succ, ← Nat.add_assoc] at hk
      obtain ⟨s₁, hs₁, hk₁⟩ := hsuccess _ hk
      obtain ⟨ha₁, h₁⟩ := hstep s₁ hs₁
      rw [hs₁]
      exact (ih h₁ ha₁ hnodup' hunmapped.2).2 k hk₁

end Loop

/-! ### The heap is mapped -/

variable {M : Type} [LawfulMapper M] {regions : List MemoryRegion} {mapper mapper' : M}

/-- What `allocator::init` needs of the page tables that the bootloader has made: no page of the heap
is mapped, and no table lies in a frame that will be handed out. -/
structure HeapFree (regions : List MemoryRegion) (mapper : M) : Prop where
  unmapped : ∀ page, page.OnHeap → LawfulMapper.entry mapper page = .unmapped
  tables : ∀ t ∈ LawfulMapper.tables mapper, ¬ Usable regions t

theorem heapMapped_nil (regions : List MemoryRegion) (mapper : M) (mark : ℕ) :
    HeapMapped regions mapper mapper mark [] where
  mapped _ hpage := absurd hpage List.not_mem_nil
  distinct _ hp := absurd hp List.not_mem_nil
  other _ _ := rfl
  tables _ ht := .inl ht

/-- **`allocator::init` does not panic** if four frames are left for each page. -/
theorem exists_initHeap (hb : AddrsBelow regions) (hfree : HeapFree regions mapper)
    (hframes : (BootFrameAllocator.new regions).Holds (4 * 2048)) :
    ∃ mapper' frameAllocator, initHeap mapper (.new regions) =
      some (⟨HEAP_START, HEAP_SIZE⟩, mapper', frameAllocator) := by
  obtain ⟨pages, hnodup, hlength, hpages, heq⟩ := initHeap_eq mapper (.new regions)
  obtain ⟨⟨mapper', a⟩, hloop, -⟩ := ((heapMapped_nil regions mapper _).foldlM (serves_new hb) hb
    hfree.tables ((List.append_nil pages).symm ▸ hnodup)
    fun page hpage => hfree.unmapped page ((hpages page).1 hpage)).2 0
      (by rw [hlength, Nat.zero_add]; exact hframes)
  exact ⟨mapper', a, by rw [heq, hloop]; rfl⟩

/-- What `allocator::init` leaves. -/
theorem initHeap_eq_some (hb : AddrsBelow regions) (hfree : HeapFree regions mapper) {heap : Heap}
    {frameAllocator : BootFrameAllocator}
    (h : initHeap mapper (.new regions) = some (heap, mapper', frameAllocator)) :
    heap = ⟨HEAP_START, HEAP_SIZE⟩ ∧
    (∀ page, page.OnHeap → ∃ frame, LawfulMapper.entry mapper' page = .mapped frame heapFlags ∧
      Usable regions frame ∧ frame ∉ LawfulMapper.tables mapper' ∧
      ∀ n results frameAllocator', frameAllocator.calls n = some (results, frameAllocator') →
        some frame ∉ results) ∧
    (∀ p q, p.OnHeap → q.OnHeap →
      LawfulMapper.entry mapper' p = LawfulMapper.entry mapper' q → p = q) ∧
    ∀ page, ¬ page.OnHeap → LawfulMapper.entry mapper' page = LawfulMapper.entry mapper page := by
  obtain ⟨pages, hnodup, -, hpages, heq⟩ := initHeap_eq mapper (.new regions)
  rw [heq] at h
  obtain ⟨⟨mapper₁, a⟩, hloop, h⟩ := Option.map_eq_some_iff.1 h
  cases h
  obtain ⟨⟨hregions, hready⟩, hmapped⟩ := ((heapMapped_nil regions mapper _).foldlM (serves_new hb) hb
    hfree.tables ((List.append_nil pages).symm ▸ hnodup)
    fun page hpage => hfree.unmapped page ((hpages page).1 hpage)).1 _ hloop
  have hmem : ∀ page, page ∈ pages.reverse ++ [] ↔ page.OnHeap := fun page => by
    rw [List.append_nil, List.mem_reverse]
    exact hpages page
  refine ⟨rfl, fun page hpage => ?_, fun p q hp hq => hmapped.distinct p ((hmem p).2 hp) q ((hmem q).2 hq),
    fun page hpage => hmapped.other page (mt (hmem page).1 hpage)⟩
  obtain ⟨frame, hentry, husable, hlt, htables⟩ := hmapped.mapped page ((hmem page).2 hpage)
  refine ⟨frame, hentry, husable, htables, fun n results a' hcalls hin => ?_⟩
  -- the frames that are handed out later lie above the mark
  obtain ⟨results', a'', hcalls', -, hsound⟩ := calls_of_ready (hregions.symm ▸ hb) hready n
  cases hcalls.symm.trans hcalls'
  exact absurd (hsound.le_base frame hin) (Nat.not_le.2 hlt)

/-- **After `allocator::init`, each page of the heap is mapped to a usable frame of its own**, which
is not a page table and is not handed out again.  All other pages are as before.  It returns if four
frames are left for each page. -/
theorem initHeap_maps (hb : AddrsBelow regions) (hfree : HeapFree regions mapper) :
    ((BootFrameAllocator.new regions).Holds (4 * 2048) →
      (initHeap mapper (.new regions)).isSome) ∧
    ∀ heap mapper' frameAllocator,
      initHeap mapper (.new regions) = some (heap, mapper', frameAllocator) →
        heap = ⟨HEAP_START, HEAP_SIZE⟩ ∧
        (∀ page, page.OnHeap → ∃ frame,
          LawfulMapper.entry mapper' page = .mapped frame heapFlags ∧
          Usable regions frame ∧ frame ∉ LawfulMapper.tables mapper' ∧
          ∀ n results frameAllocator', frameAllocator.calls n = some (results, frameAllocator') →
            some frame ∉ results) ∧
        (∀ p q, p.OnHeap → q.OnHeap →
          LawfulMapper.entry mapper' p = LawfulMapper.entry mapper' q → p = q) ∧
        ∀ page, ¬ page.OnHeap →
          LawfulMapper.entry mapper' page = LawfulMapper.entry mapper page := by
  constructor
  · intro hframes
    obtain ⟨mapper', frameAllocator, h⟩ := exists_initHeap hb hfree hframes
    rw [h]
    rfl
  · intro heap mapper' frameAllocator h
    exact initHeap_eq_some hb hfree h

/-- Without any page table, and with 64 MiB of usable memory. -/
theorem initHeap_maps_empty :
    let regions : List MemoryRegion := [⟨0x4000000, 0x8000000, .usable⟩]
    ∃ mapper' frameAllocator, initHeap PageTables.empty (.new regions) =
        some (⟨HEAP_START, HEAP_SIZE⟩, mapper', frameAllocator) ∧
      ∀ page, page.OnHeap → ∃ frame, LawfulMapper.entry mapper' page = .mapped frame heapFlags ∧
        Usable regions frame ∧ frame ∉ LawfulMapper.tables mapper' := by
  intro regions
  have hb : AddrsBelow regions := by simp [regions, AddrsBelow]
  have hfree : HeapFree regions PageTables.empty :=
    ⟨fun _ _ => rfl, fun _ ht => absurd ht List.not_mem_nil⟩
  have hframes : (BootFrameAllocator.new regions).Holds (4 * 2048) := by
    refine holds_new hb (by simp [regions, Sorted]) ?_
    exact le_length_wholeFrames List.mem_cons_self rfl (by decide) (by decide)
  obtain ⟨hreturns, hmaps⟩ := initHeap_maps hb hfree
  obtain ⟨⟨heap, mapper', frameAllocator⟩, h⟩ := Option.isSome_iff_exists.1 (hreturns hframes)
  obtain ⟨rfl, hmapped, -⟩ := hmaps heap mapper' frameAllocator h
  refine ⟨mapper', frameAllocator, h, fun page hpage => ?_⟩
  obtain ⟨frame, hentry, husable, htables, -⟩ := hmapped page hpage
  exact ⟨frame, hentry, husable, htables⟩

end ROs
