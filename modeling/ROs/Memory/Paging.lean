import ROs.Memory.Enumeration

/-!
# Pages and their mapper

What `allocator.rs` uses of the crate `x86_64`: virtual addresses, pages of 4 KiB, and the trait
`Mapper`, whose `map_to` asks the frame allocator for the page tables that are missing.

* `MapTo` is what a call of `map_to` does: it asks for a frame and goes on with the answer, or it
  returns.  `MapTo.run` answers with the frames of the boot frame allocator.
* `LawfulMapper` is what is promised of `map_to`: it maps an unmapped page, needs at most three more
  frames for page tables, and leaves all other pages alone.
* `MapTo.Maps.exists_run` : **a call that is answered with fresh frames keeps its promise**, and it
  does not fail if there are frames enough.
* `PageTables` is a lawful mapper, with tables on three levels.
-/

namespace ROs

/-! ### Addresses and pages -/

/-- `x86_64::VirtAddr`: the bits 48 to 63 of the address are copies of bit 47. -/
structure VirtAddr where
  addr : UInt64
  canonical : addr.toNat < 2 ^ 47 ∨ 2 ^ 64 - 2 ^ 47 ≤ addr.toNat
  deriving DecidableEq

namespace VirtAddr

/-- `VirtAddr::new` panics if the address is not canonical. -/
def new (addr : UInt64) : Option VirtAddr :=
  if h : addr.toNat < 2 ^ 47 ∨ 2 ^ 64 - 2 ^ 47 ≤ addr.toNat then some ⟨addr, h⟩ else none

/-- The addition of an offset panics on an overflow, and if the sum is not canonical. -/
def add (a : VirtAddr) (offset : UInt64) : Option VirtAddr :=
  if a.addr.toNat + offset.toNat < 2 ^ 64 then new (a.addr + offset) else none

/-- The subtraction of an offset panics on an overflow, and if the difference is not canonical. -/
def sub (a : VirtAddr) (offset : UInt64) : Option VirtAddr :=
  if offset ≤ a.addr then new (a.addr - offset) else none

theorem toNat_and_page (addr : UInt64) :
    (addr &&& ~~~(4096 - 1)).toNat = addr.toNat / 4096 * 4096 :=
  Align.toNat_and_not (k := 12) rfl

/-- `VirtAddr::align_down` to 4 KiB. -/
def alignDown (a : VirtAddr) : VirtAddr where
  addr := a.addr &&& ~~~(4096 - 1)
  canonical := by
    rw [toNat_and_page]
    rcases a.canonical with h | h
    · exact .inl (by omega)
    · exact .inr (by omega)

end VirtAddr

/-- `Page<Size4KiB>`. -/
structure Page where
  startAddress : VirtAddr
  aligned : 4096 ∣ startAddress.addr.toNat
  deriving DecidableEq

namespace Page

/-- `Page::containing_address`. -/
def containingAddress (a : VirtAddr) : Page where
  startAddress := a.alignDown
  aligned := by
    change 4096 ∣ (a.addr &&& ~~~(4096 - 1)).toNat
    rw [VirtAddr.toNat_and_page]
    exact Nat.dvd_mul_left _ _

/-- The number of a page: its start address, in pages. -/
def number (p : Page) : ℕ := p.startAddress.addr.toNat / 4096

@[simp] theorem number_containingAddress (a : VirtAddr) :
    (containingAddress a).number = a.addr.toNat / 4096 := by
  change (a.addr &&& ~~~(4096 - 1)).toNat / 4096 = _
  rw [VirtAddr.toNat_and_page]
  exact Nat.mul_div_cancel _ (by decide)

theorem number_injective : Function.Injective number := by
  intro p q h
  obtain ⟨⟨a, ha⟩, hp⟩ := p
  obtain ⟨⟨b, hb⟩, hq⟩ := q
  have hab : a.toNat = b.toNat := by
    rw [← Nat.div_mul_cancel hp, ← Nat.div_mul_cancel hq]
    exact congrArg (· * 4096) h
  obtain rfl := UInt64.toNat_inj.1 hab
  rfl

/-- The page with a number, if its addresses are canonical. -/
def ofNumber (n : ℕ) : Option Page :=
  if n < 2 ^ 52 then (VirtAddr.new (UInt64.ofNat (4096 * n))).map containingAddress else none

/-- `Page::range_inclusive`, as the list of its pages.  Its iterator panics where it leaves the
canonical addresses. -/
def rangeInclusive (start stop : Page) : Option (List Page) :=
  (List.range' start.number (stop.number + 1 - start.number)).mapM ofNumber

theorem number_of_ofNumber {n : ℕ} {p : Page} (h : ofNumber n = some p) : p.number = n := by
  rw [ofNumber] at h
  split at h
  · rename_i hn
    obtain ⟨a, ha, rfl⟩ := Option.map_eq_some_iff.1 h
    rw [VirtAddr.new] at ha
    split at ha
    · obtain rfl := Option.some.inj ha
      rw [number_containingAddress, UInt64.toNat_ofNat_of_lt' (by simp only [UInt64.size]; omega)]
      omega
    · cases ha
  · cases h

/-- The pages of the lower half. -/
theorem exists_ofNumber {n : ℕ} (h : n < 2 ^ 35) : ∃ p, ofNumber n = some p := by
  have hn : (UInt64.ofNat (4096 * n)).toNat = 4096 * n :=
    UInt64.toNat_ofNat_of_lt' (by simp only [UInt64.size]; omega)
  rw [ofNumber, if_pos (by omega), VirtAddr.new, dif_pos (.inl (by rw [hn]; omega))]
  exact ⟨_, rfl⟩

theorem map_number_of_mapM {ns : List ℕ} {pages : List Page} (h : ns.mapM ofNumber = some pages) :
    pages.map number = ns := by
  induction ns generalizing pages with
  | nil =>
    cases h
    rfl
  | cons n ns ih =>
    rw [List.mapM_cons] at h
    obtain ⟨p, hp, h⟩ := Option.bind_eq_some_iff.1 h
    obtain ⟨ps, hps, h⟩ := Option.bind_eq_some_iff.1 h
    cases h
    rw [List.map_cons, number_of_ofNumber hp, ih hps]

/-- **The pages of a range**, each once. -/
theorem of_rangeInclusive {start stop : Page} {pages : List Page}
    (h : rangeInclusive start stop = some pages) :
    pages.Nodup ∧ pages.length = stop.number + 1 - start.number ∧
      ∀ p, p ∈ pages ↔ start.number ≤ p.number ∧ p.number ≤ stop.number := by
  have hmap := map_number_of_mapM h
  refine ⟨List.Nodup.of_map number ?_, ?_, fun p => ?_⟩
  · rw [hmap]
    exact List.nodup_range'
  · rw [← List.length_map number, hmap, List.length_range']
  · rw [← List.mem_map_of_injective number_injective, hmap, List.mem_range'_1]
    omega

/-- A range in the lower half. -/
theorem exists_rangeInclusive {start stop : Page} (h : stop.number < 2 ^ 35) :
    ∃ pages, rangeInclusive start stop = some pages := by
  have hall : ∀ n ∈ List.range' start.number (stop.number + 1 - start.number), n < 2 ^ 35 := by
    intro n hn
    rw [List.mem_range'_1] at hn
    omega
  rw [rangeInclusive]
  generalize List.range' _ _ = ns at hall
  induction ns with
  | nil => exact ⟨[], rfl⟩
  | cons n ns ih =>
    rw [List.forall_mem_cons] at hall
    obtain ⟨p, hp⟩ := exists_ofNumber hall.1
    obtain ⟨ps, hps⟩ := ih hall.2
    exact ⟨p :: ps, by rw [List.mapM_cons, hp, hps]; rfl⟩

end Page

/-! ### The frames that are handed out -/

namespace BootFrameAllocator

open UsableFrameIter

variable {regions : List MemoryRegion} {a : BootFrameAllocator}

/-- A frame within a usable region. -/
def Usable (regions : List MemoryRegion) (f : PhysFrame) : Prop :=
  4096 ∣ f.base ∧ ∃ r ∈ regions, r.kind = .usable ∧ r.start.toNat ≤ f.base ∧
    f.base + 4096 ≤ r.stop.toNat

/-- All frames that will be handed out start here or above. -/
def mark (a : BootFrameAllocator) : ℕ := a.usableFrames.nextAddr.toNat

/-- The allocator hands out frames of these regions. -/
structure Serves (regions : List MemoryRegion) (a : BootFrameAllocator) : Prop where
  regions_eq : a.usableFrames.regions = regions
  ready : a.usableFrames.Ready

/-- There are at least so many frames left: the next calls give one each. -/
def Holds : ℕ → BootFrameAllocator → Prop
  | 0, _ => True
  | k + 1, a => ∃ f a', a.allocateFrame = some (some f, a') ∧ Holds k a'

theorem Holds.of_add {k : ℕ} : ∀ {m : ℕ} {a : BootFrameAllocator}, Holds (m + k) a → Holds m a
  | 0, _, _ => trivial
  | m + 1, a, h => by
    rw [Nat.succ_add] at h
    obtain ⟨f, a', halloc, hrest⟩ := h
    exact ⟨f, a', halloc, hrest.of_add⟩

theorem serves_new (hb : AddrsBelow regions) : Serves regions (new regions) :=
  ⟨regions_new regions, ready_new hb⟩

/-- As many frames are left as there are to come. -/
theorem holds_of_tight {k : ℕ} (ht : a.usableFrames.Tight)
    (hk : k ≤ a.usableFrames.pending.length) : a.Holds k := by
  induction k generalizing a with
  | zero => trivial
  | succ k ih =>
    obtain ⟨frame, it, hnext, ht', hhead, htail⟩ := next_pending ht
    have hne : a.usableFrames.pending ≠ [] :=
      List.ne_nil_of_length_pos (Nat.lt_of_lt_of_le (Nat.succ_pos k) hk)
    rw [List.head?_eq_some_head hne] at hhead
    obtain ⟨f, rfl, -⟩ := Option.map_eq_some_iff.1 hhead
    refine ⟨f, ⟨it⟩, by rw [allocateFrame, hnext]; rfl, ih ht' ?_⟩
    change k ≤ it.pending.length
    rw [htail, List.length_tail]
    omega

/-- A region has a whole frame for every 4 KiB. -/
theorem le_length_framesFrom (r : MemoryRegion) (k : ℕ) :
    ∀ {a : ℕ}, 4096 ∣ a → a + 4096 * k ≤ r.stop.toNat → k ≤ (r.framesFrom a).length := by
  induction k with
  | zero => exact fun _ _ => Nat.zero_le _
  | succ k ih =>
    intro a ha hle
    have hrest : a + 4096 + 4096 * k ≤ r.stop.toNat := by
      clear ha
      omega
    have hfirst : a + 4096 ≤ r.stop.toNat := (Nat.le_add_right _ _).trans hrest
    rw [MemoryRegion.framesFrom_of_le ha hfirst, List.length_cons]
    exact Nat.succ_le_succ (ih (Nat.dvd_add_self_right.2 ha) hrest)

theorem le_length_wholeFrames {r : MemoryRegion} (hr : r ∈ regions) (husable : r.kind = .usable)
    (haligned : 4096 ∣ r.start.toNat) {k : ℕ} (hle : r.start.toNat + 4096 * k ≤ r.stop.toNat) :
    k ≤ (wholeFrames regions).length := by
  have hframes : r.frames = r.framesFrom r.start.toNat := if_pos husable
  have hsub : r.frames.length ≤ (wholeFrames regions).length := by
    obtain ⟨front, back, rfl⟩ := List.append_of_mem hr
    rw [wholeFrames, List.flatMap_append, List.flatMap_cons, List.length_append, List.length_append]
    omega
  exact (hframes ▸ le_length_framesFrom r k haligned hle).trans hsub

/-- A sorted memory map has its whole frames to give. -/
theorem holds_new {k : ℕ} (hb : AddrsBelow regions) (hs : Sorted regions)
    (hk : k ≤ (wholeFrames regions).length) : (new regions).Holds k := by
  obtain ⟨hpend, hstop⟩ := pending_advanceToUsable ⟨regions, 0, 0⟩ hb (by simp)
  have hpending : (new regions).usableFrames.pending = wholeFrames regions := hpend
  refine holds_of_tight ⟨ready_new hb, ?_, ?_, hstop⟩ (hpending ▸ hk)
  · rw [regions_new]
    exact hb
  · rw [regions_new]
    exact hs

/-- **One call**: the frame is fresh, and there is one as long as frames are left. -/
theorem Serves.exists_allocateFrame (ha : Serves regions a) (hb : AddrsBelow regions) :
    ∃ frame a', a.allocateFrame = some (frame, a') ∧
      (∀ f, frame = some f → Serves regions a' ∧ Usable regions f ∧ a.mark ≤ f.base ∧
        f.base < a'.mark) ∧
      ∀ k, a.Holds (k + 1) → a'.Holds k ∧ ∃ f, frame = some f := by
  obtain ⟨hregions, hready⟩ := ha
  subst hregions
  obtain ⟨frame, it, hnext, hregions', hready', hframe⟩ := next_spec hb hready
  refine ⟨frame, ⟨it⟩, by rw [allocateFrame, hnext]; rfl, fun f hf => ?_, fun k hk => ?_⟩
  · subst hf
    obtain ⟨haligned, hle, hlt, hregion⟩ := hframe
    exact ⟨⟨hregions', hready'⟩, ⟨haligned, hregion⟩, hle,
      Nat.lt_of_lt_of_le (Nat.lt_add_of_pos_right (by decide)) hlt⟩
  · obtain ⟨f, a', halloc, hrest⟩ := hk
    rw [allocateFrame, hnext] at halloc
    cases halloc
    exact ⟨hrest, f, rfl⟩

end BootFrameAllocator

/-! ### The mapper -/

/-- `PageTableFlags`. -/
structure PageTableFlags where
  bits : UInt64
  deriving DecidableEq

namespace PageTableFlags

instance : OrOp PageTableFlags := ⟨fun a b => ⟨a.bits ||| b.bits⟩⟩

/-- The page is in memory. -/
def PRESENT : PageTableFlags := ⟨1⟩

/-- The page may be written. -/
def WRITABLE : PageTableFlags := ⟨2⟩

end PageTableFlags

/-- `MapToError`. -/
inductive MapToError where
  | frameAllocationFailed
  | parentEntryHugePage
  | pageAlreadyMapped (frame : PhysFrame)

/-- What a call of `map_to` does: it asks the frame allocator and goes on with the answer, or it
returns. -/
inductive MapTo (M : Type) where
  | done (mapper : M) (result : Except MapToError Unit)
  | allocate (next : Option PhysFrame → MapTo M)

/-- `Mapper<Size4KiB>`. -/
class Mapper (M : Type) where
  mapTo : M → Page → PhysFrame → PageTableFlags → MapTo M

/-- What the page tables say about a page. -/
inductive PageEntry where
  | unmapped
  | mapped (frame : PhysFrame) (flags : PageTableFlags)
  /-- The page is part of a huge page. -/
  | hugePage

namespace MapTo

variable {M : Type}

/-- The call with the boot frame allocator. -/
def run : MapTo M → BootFrameAllocator → Option (M × Except MapToError Unit × BootFrameAllocator)
  | .done mapper result, a => some (mapper, result, a)
  | .allocate next, a => do
    let (frame, a) ← a.allocateFrame
    (next frame).run a

/-- A call that returns normally if it is given at most `n` more frames, all of them fresh.  `post` is
what holds then, of the frames that it has been given and of the mapper. -/
def Maps (fresh : PhysFrame → Prop) (post : List PhysFrame → M → Prop) :
    ℕ → List PhysFrame → MapTo M → Prop
  | _, given, .done mapper result => result = .ok () ∧ post given mapper
  | 0, _, .allocate _ => False
  | n + 1, given, .allocate next =>
    (∃ mapper, next none = .done mapper (.error .frameAllocationFailed)) ∧
      ∀ f, fresh f → f ∉ given → Maps fresh post n (given ++ [f]) (next (some f))

open BootFrameAllocator UsableFrameIter

variable {fresh : PhysFrame → Prop} {post : List PhysFrame → M → Prop} {n : ℕ}
  {given : List PhysFrame} {call : MapTo M} {regions : List MemoryRegion} {a : BootFrameAllocator}

theorem Maps.mono {n' : ℕ} (h : call.Maps fresh post n given) (hn : n ≤ n') :
    call.Maps fresh post n' given := by
  induction n generalizing n' given call with
  | zero =>
    cases call with
    | done mapper result => cases n' <;> exact h
    | allocate next => exact h.elim
  | succ n ih =>
    obtain ⟨n', rfl⟩ := Nat.exists_eq_add_of_le hn
    rw [Nat.succ_add]
    cases call with
    | done mapper result => exact h
    | allocate next => exact ⟨h.1, fun f hf hmem => ih (h.2 f hf hmem) (Nat.le_add_right n n')⟩

/-- **A call that is answered with fresh frames keeps its promise**, if it returns normally; and it
does so if there are enough of them. -/
theorem Maps.exists_run (h : call.Maps fresh post n given) (hb : AddrsBelow regions)
    (ha : Serves regions a)
    (hfresh : ∀ f, Usable regions f → a.mark ≤ f.base → fresh f ∧ f ∉ given) :
    ∃ mapper result a', call.run a = some (mapper, result, a') ∧
      (result = .ok () → ∃ frames, post (given ++ frames) mapper ∧ Serves regions a' ∧
        a.mark ≤ a'.mark ∧
        ∀ f ∈ frames, Usable regions f ∧ a.mark ≤ f.base ∧ f.base < a'.mark) ∧
      ∀ k, a.Holds (k + n) → a'.Holds k ∧ result = .ok () := by
  induction call generalizing n given a with
  | done mapper result =>
    obtain ⟨rfl, hpost⟩ : result = .ok () ∧ post given mapper := by
      cases n with
      | zero => exact h
      | succ n => exact h
    refine ⟨mapper, _, a, rfl, fun _ => ⟨[], ?_, ha, Nat.le_refl _, ?_⟩, fun k hk => ⟨hk.of_add, rfl⟩⟩
    · rwa [List.append_nil]
    · intro f hf
      cases hf
  | allocate next ih =>
    cases n with
    | zero => exact h.elim
    | succ n =>
      obtain ⟨⟨failed, hnone⟩, hsome⟩ := h
      obtain ⟨frame, a₁, halloc, hframe, hleft⟩ := ha.exists_allocateFrame hb
      have hrun : (allocate next).run a = (next frame).run a₁ := by
        rw [run, halloc]
        rfl
      rw [hrun]
      cases frame with
      | none =>
        rw [hnone]
        refine ⟨failed, _, a₁, rfl, ?_, ?_⟩
        · intro herror
          cases herror
        · intro k hk
          obtain ⟨-, f, hf⟩ := hleft (k + n) hk
          cases hf
      | some f =>
        obtain ⟨ha₁, husable, hle, hlt⟩ := hframe f rfl
        obtain ⟨hf, hgiven⟩ := hfresh f husable hle
        have hfresh₁ : ∀ g, Usable regions g → a₁.mark ≤ g.base → fresh g ∧ g ∉ given ++ [f] := by
          intro g hg hmark
          obtain ⟨hg', hmem⟩ := hfresh g hg (hle.trans (hlt.le.trans hmark))
          refine ⟨hg', fun hin => ?_⟩
          rcases List.mem_append.1 hin with hin | hin
          · exact hmem hin
          · rw [List.mem_singleton.1 hin] at hmark
            exact absurd hlt (Nat.not_lt.2 hmark)
        obtain ⟨mapper, result, a', hrun', hok, hholds⟩ :=
          ih (some f) (hsome f hf hgiven) ha₁ hfresh₁
        refine ⟨mapper, result, a', hrun', fun hresult => ?_, fun k hk => hholds k (hleft _ hk).1⟩
        obtain ⟨frames, hpost, ha', hmark, hall⟩ := hok hresult
        refine ⟨f :: frames, ?_, ha', hle.trans (hlt.le.trans hmark), fun g hg => ?_⟩
        · rwa [List.append_assoc] at hpost
        · rcases List.mem_cons.1 hg with rfl | hg
          · exact ⟨husable, hle, hlt.trans_le hmark⟩
          · obtain ⟨hg₁, hg₂, hg₃⟩ := hall g hg
            exact ⟨hg₁, hle.trans (hlt.le.trans hg₂), hg₃⟩

end MapTo

/-! ### The active page tables -/

/-- `active_level_4_table`, as the address of the table.  `l4Frame` is what the register `cr3`
holds. -/
def activeLevel4Table (l4Frame : PhysFrame) (physOffset : VirtAddr) : Option VirtAddr :=
  physOffset.add l4Frame.startAddress.addr

/-- `init_page_table`, with `OffsetPageTable::new`. -/
def initPageTable {M : Type} (offsetPageTable : VirtAddr → VirtAddr → M) (l4Frame : PhysFrame)
    (physOffset : VirtAddr) : Option M := do
  let l4Table ← activeLevel4Table l4Frame physOffset
  some (offsetPageTable l4Table physOffset)

/-! ### What is promised of a mapper -/

/-- What the documentation of `Mapper::map_to` promises. -/
class LawfulMapper (M : Type) extends Mapper M where
  /-- What the page tables say. -/
  entry : M → Page → PageEntry
  /-- The frames of the page tables. -/
  tables : M → List PhysFrame
  /-- An unmapped page is mapped, and no other one. -/
  maps : ∀ mapper page frame flags, entry mapper page = .unmapped → frame ∉ tables mapper →
    (mapTo mapper page frame flags).Maps (fun f => f ∉ tables mapper ∧ f ≠ frame)
      (fun given mapper' => entry mapper' page = .mapped frame flags ∧
        (∀ other, other ≠ page → entry mapper' other = entry mapper other) ∧
        ∀ t, t ∈ tables mapper' ↔ t ∈ tables mapper ∨ t ∈ given) 3 []

/-! ### Page tables -/

/-- Page tables on three levels below the root, and the entries of the lowest ones. -/
structure PageTables where
  /-- The frame of the table on a level, for the pages whose number has these bits in front. -/
  tables : List ((ℕ × ℕ) × PhysFrame)
  /-- The entry of the page with a number. -/
  entry : ℕ → PageEntry

namespace PageTables

/-- Creates those of the tables that do not exist. -/
def createTables (next : PageTables → MapTo PageTables) :
    List (ℕ × ℕ) → PageTables → MapTo PageTables
  | [], self => next self
  | table :: rest, self =>
    if table ∈ self.tables.map Prod.fst then
      createTables next rest self
    else
      .allocate fun
        | some f => createTables next rest { self with tables := self.tables ++ [(table, f)] }
        | none => .done self (.error .frameAllocationFailed)

/-- The tables of a page. -/
def tablesOf (page : Page) : List (ℕ × ℕ) :=
  [(3, page.number / 2 ^ 27), (2, page.number / 2 ^ 18), (1, page.number / 2 ^ 9)]

/-- Writes the entry of a page. -/
def setEntry (page : Page) (frame : PhysFrame) (flags : PageTableFlags) (self : PageTables) :
    MapTo PageTables :=
  match self.entry page.number with
  | .unmapped =>
    .done { self with entry := Function.update self.entry page.number (.mapped frame flags) }
      (.ok ())
  | .mapped frame' _ => .done self (.error (.pageAlreadyMapped frame'))
  | .hugePage => .done self (.error .parentEntryHugePage)

/-- The entries do not depend on the tables that are created. -/
theorem maps_createTables {next : PageTables → MapTo PageTables} {fresh : PhysFrame → Prop}
    {post : List PhysFrame → PageTables → Prop} {entry : ℕ → PageEntry} {frames : List PhysFrame}
    (hnext : ∀ given self, self.entry = entry → self.tables.map Prod.snd = frames ++ given →
      (next self).Maps fresh post 0 given) :
    ∀ (tables : List (ℕ × ℕ)) (given : List PhysFrame) (self : PageTables), self.entry = entry →
      self.tables.map Prod.snd = frames ++ given →
      (createTables next tables self).Maps fresh post tables.length given
  | [], given, self, hentry, htables => hnext given self hentry htables
  | table :: rest, given, self, hentry, htables => by
    rw [createTables]
    split
    · exact (maps_createTables hnext rest given self hentry htables).mono (Nat.le_succ _)
    · refine ⟨⟨self, rfl⟩, fun f _ _ => maps_createTables hnext rest _ _ hentry ?_⟩
      rw [List.map_append, htables, List.append_assoc]
      rfl

instance : LawfulMapper PageTables where
  mapTo self page frame flags := createTables (setEntry page frame flags) (tablesOf page) self
  entry self page := self.entry page.number
  tables self := self.tables.map Prod.snd
  maps self page frame flags hentry _ := by
    refine maps_createTables (fun given self' hself htables => ?_) (tablesOf page) [] self rfl
      (List.append_nil _).symm
    rw [setEntry, hself, hentry]
    refine ⟨rfl, Function.update_self .., fun other hother => ?_, fun t => ?_⟩
    · exact Function.update_of_ne (Page.number_injective.ne hother) ..
    · change t ∈ self'.tables.map Prod.snd ↔ _
      rw [htables, List.mem_append]

/-- No page is mapped. -/
def empty : PageTables := ⟨[], fun _ => .unmapped⟩

end PageTables

end ROs
