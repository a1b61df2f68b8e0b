import ROs.Memory.Frames
import Mathlib.Data.List.ReduceOption
import Mathlib.Data.List.Chain
import Mathlib.Data.List.Sort
import Mathlib.Data.Finset.Basic

/-!
# What the boot frame allocator hands out

* `BootFrameAllocator.calls_sound`: for any list of regions, every call returns, every frame lies
  inside a `Usable` region, the frames are strictly increasing, and `None` is final.
* `BootFrameAllocator.calls_exact`: for sorted disjoint regions the frames are exactly
  `wholeFrames`, the aligned whole frames of the `Usable` regions in order.

The first follows from the invariant `UsableFrameIter.Ready` alone.  The second tracks the list
`UsableFrameIter.pending` of frames still to come, of which `next` takes the head.
-/

namespace ROs

/-! ### Soundness for arbitrary regions -/

namespace BootFrameAllocator

open UsableFrameIter

/-- The properties of a list of results that `calls` guarantees, for frames at or above `lo`. -/
structure Sound (regions : List MemoryRegion) (lo : ℕ) (results : List (Option PhysFrame)) :
    Prop where
  /-- Every frame is aligned and lies inside a `Usable` region. -/
  inside : ∀ f, some f ∈ results → 4096 ∣ f.base ∧ ∃ r ∈ regions, r.kind = .usable ∧
    r.start.toNat ≤ f.base ∧ f.base + 4096 ≤ r.stop.toNat
  /-- No frame is below `lo`. -/
  le_base : ∀ f, some f ∈ results → lo ≤ f.base
  /-- The frames are strictly increasing. -/
  increasing : results.reduceOption.Pairwise fun f g => f.base < g.base
  /-- After `None` only `None` follows. -/
  none_final : results.Pairwise fun x y => x = none → y = none

theorem calls_of_length_le {a : BootFrameAllocator}
    (h : a.usableFrames.regions.length ≤ a.usableFrames.regionIdx) (n : ℕ) :
    a.calls n = some (List.replicate n none, a) := by
  induction n with
  | zero => rfl
  | succ n ih =>
    have halloc : a.allocateFrame = some (none, a) := by
      simp [allocateFrame, next_of_length_le h]
    simp [calls, halloc, ih, List.replicate_succ]

theorem sound_replicate_none (regions : List MemoryRegion) (lo n : ℕ) :
    Sound regions lo (List.replicate n none) where
  inside f hf := by simp [List.mem_replicate] at hf
  le_base f hf := by simp [List.mem_replicate] at hf
  increasing := by simp [List.reduceOption]
  none_final := by simp [List.pairwise_replicate]

/-- Prepending a frame below all frames of the list. -/
theorem Sound.cons {regions : List MemoryRegion} {lo lo' : ℕ} {results : List (Option PhysFrame)}
    {f : PhysFrame} (hs : Sound regions lo' results) (hlo : lo ≤ f.base) (hf : f.base < lo')
    (ha : 4096 ∣ f.base) (hr : ∃ r ∈ regions, r.kind = .usable ∧
      r.start.toNat ≤ f.base ∧ f.base + 4096 ≤ r.stop.toNat) :
    Sound regions lo (some f :: results) where
  inside g hg := by
    rcases List.mem_cons.1 hg with hg | hg
    · cases hg; exact ⟨ha, hr⟩
    · exact hs.inside g hg
  le_base g hg := by
    rcases List.mem_cons.1 hg with hg | hg
    · cases hg; exact hlo
    · exact hlo.trans (hf.le.trans (hs.le_base g hg))
  increasing := by
    rw [List.reduceOption_cons_of_some, List.pairwise_cons]
    refine ⟨fun g hg => hf.trans_le (hs.le_base g ?_), hs.increasing⟩
    exact List.reduceOption_mem_iff.1 hg
  none_final := List.pairwise_cons.2 ⟨fun _ _ h => by simp at h, hs.none_final⟩

theorem calls_of_ready {a : BootFrameAllocator} (hb : AddrsBelow a.usableFrames.regions)
    (hr : a.usableFrames.Ready) (n : ℕ) :
    ∃ results a', a.calls n = some (results, a') ∧ results.length = n ∧
      Sound a.usableFrames.regions a.usableFrames.nextAddr.toNat results := by
  induction n generalizing a with
  | zero => exact ⟨[], a, rfl, rfl, sound_replicate_none _ _ 0⟩
  | succ n ih =>
    obtain ⟨frame, it', hn, hreg, hready, hf⟩ := next_spec hb hr
    have halloc : a.allocateFrame = some (frame, ⟨it'⟩) := by simp [allocateFrame, hn]
    cases frame with
    | none =>
      have hrest := calls_of_length_le (a := ⟨it'⟩) hf n
      exact ⟨List.replicate (n + 1) none, ⟨it'⟩,
        by simp [calls, halloc, hrest, List.replicate_succ], by simp, sound_replicate_none _ _ _⟩
    | some f =>
      obtain ⟨hdvd, hle, hlt, hin⟩ := hf
      obtain ⟨results, a', hc, hlen, hs⟩ := ih (a := ⟨it'⟩) (by rw [hreg]; exact hb) hready
      rw [hreg] at hs
      exact ⟨some f :: results, a', by simp [calls, halloc, hc], by simp [hlen],
        hs.cons hle (Nat.lt_of_lt_of_le (by omega) hlt) hdvd hin⟩

theorem ready_new {regions : List MemoryRegion} (hb : AddrsBelow regions) :
    (new regions).usableFrames.Ready :=
  (ready_advanceToUsable ⟨regions, 0, 0⟩ hb (by simp) (by simp)).1

theorem regions_new (regions : List MemoryRegion) :
    (new regions).usableFrames.regions = regions :=
  advanceToUsable_regions _

/-- **No bad or double frame.**  For any regions with addresses below `2 ^ 52`, any number of
calls of `allocate_frame` return; every frame returned is 4096-aligned and lies wholly inside one
`Usable` region; the frames are strictly increasing; and after `None` comes only `None`. -/
theorem calls_sound (regions : List MemoryRegion) (hb : AddrsBelow regions) (n : ℕ) :
    ∃ results a, (new regions).calls n = some (results, a) ∧ results.length = n ∧
      (∀ f, some f ∈ results → 4096 ∣ f.base ∧ ∃ r ∈ regions, r.kind = .usable ∧
        r.start.toNat ≤ f.base ∧ f.base + 4096 ≤ r.stop.toNat) ∧
      (results.reduceOption.Pairwise fun f g => f.base < g.base) ∧
      results.Pairwise fun x y => x = none → y = none := by
  obtain ⟨results, a, hc, hlen, hs⟩ := calls_of_ready
    (by rw [regions_new]; exact hb) (ready_new hb) n
  rw [regions_new] at hs
  exact ⟨results, a, hc, hlen, hs.inside, hs.increasing, hs.none_final⟩

/-- Overlapping, unsorted and inverted regions are allowed. -/
theorem calls_sound_overlapping :
    let regions : List MemoryRegion :=
      [⟨0x8000, 0xa000, .usable⟩, ⟨0x1000, 0x9000, .usable⟩, ⟨0xc000, 0xb000, .bootloader⟩]
    ∃ results a, (new regions).calls 5 = some (results, a) ∧ results.length = 5 ∧
      (∀ f, some f ∈ results → 4096 ∣ f.base ∧ ∃ r ∈ regions, r.kind = .usable ∧
        r.start.toNat ≤ f.base ∧ f.base + 4096 ≤ r.stop.toNat) ∧
      (results.reduceOption.Pairwise fun f g => f.base < g.base) ∧
      results.Pairwise fun x y => x = none → y = none :=
  calls_sound _ (by simp [AddrsBelow]) 5

end BootFrameAllocator

/-! ### Exactness for sorted disjoint regions -/

namespace MemoryRegion

/-- The multiples `b` of 4096 with `a ≤ b` and `b + 4096 ≤ stop`, ascending. -/
def framesFrom (r : MemoryRegion) (a : ℕ) : List ℕ :=
  ((List.range (r.stop.toNat / 4096)).map (· * 4096)).filter fun b => decide (a ≤ b)

/-- The whole aligned frames of a region, if it is `Usable`. -/
def frames (r : MemoryRegion) : List ℕ :=
  if r.kind = .usable then r.framesFrom r.start.toNat else []

variable {r : MemoryRegion} {a b : ℕ}

theorem mem_framesFrom : b ∈ r.framesFrom a ↔ 4096 ∣ b ∧ a ≤ b ∧ b + 4096 ≤ r.stop.toNat := by
  simp only [framesFrom, List.mem_filter, List.mem_map, List.mem_range, decide_eq_true_eq]
  constructor
  · rintro ⟨⟨k, hk, rfl⟩, hab⟩
    exact ⟨Nat.dvd_mul_left _ _, hab, by omega⟩
  · rintro ⟨⟨k, rfl⟩, hab, hb⟩
    exact ⟨⟨k, by omega, Nat.mul_comm _ _⟩, hab⟩

theorem pairwise_framesFrom (r : MemoryRegion) (a : ℕ) : (r.framesFrom a).Pairwise (· < ·) := by
  refine List.Pairwise.filter _ (List.pairwise_map.2 ?_)
  exact List.pairwise_lt_range.imp fun h => Nat.mul_lt_mul_of_pos_right h (by decide)

/-- Two ascending lists with the same members are equal. -/
theorem framesFrom_eq {l : List ℕ} (hl : l.Pairwise (· < ·))
    (h : ∀ b, b ∈ r.framesFrom a ↔ b ∈ l) : r.framesFrom a = l :=
  (List.perm_of_nodup_nodup_toFinset_eq
    ((r.pairwise_framesFrom a).imp Nat.ne_of_lt) (hl.imp Nat.ne_of_lt)
    (by ext b; simp [h])).eq_of_pairwise'
    (r.pairwise_framesFrom a) hl

/-- The first frame at an aligned address that has room. -/
theorem framesFrom_of_le (ha : 4096 ∣ a) (h : a + 4096 ≤ r.stop.toNat) :
    r.framesFrom a = a :: r.framesFrom (a + 4096) := by
  refine framesFrom_eq (List.pairwise_cons.2 ⟨fun b hb => ?_, pairwise_framesFrom _ _⟩)
    fun b => ?_
  · have := (mem_framesFrom.1 hb).2.1
    omega
  · rw [List.mem_cons, mem_framesFrom, mem_framesFrom]
    constructor
    · rintro ⟨hd, hab, hb⟩
      by_cases he : b = a
      · exact .inl he
      · exact .inr ⟨hd, by omega, hb⟩
    · rintro (rfl | ⟨hd, hab, hb⟩)
      · exact ⟨ha, le_rfl, h⟩
      · exact ⟨hd, by omega, hb⟩

theorem framesFrom_of_lt (h : r.stop.toNat < a + 4096) : r.framesFrom a = [] :=
  List.eq_nil_iff_forall_not_mem.2 fun b hb => by
    have := mem_framesFrom.1 hb
    omega

/-- Rounding the lower bound up to a multiple of 4096 changes nothing. -/
theorem framesFrom_alignUp (r : MemoryRegion) (a : ℕ) :
    r.framesFrom ((a + 4095) / 4096 * 4096) = r.framesFrom a :=
  framesFrom_eq (r.pairwise_framesFrom a) fun b => by
    rw [mem_framesFrom, mem_framesFrom]
    omega

end MemoryRegion

/-- The reference list: the whole aligned frames of the `Usable` regions, in order. -/
def wholeFrames (regions : List MemoryRegion) : List ℕ := regions.flatMap MemoryRegion.frames

namespace UsableFrameIter

/-- Sorted and disjoint: each region has `start ≤ stop`, and ends at or below the next start. -/
def Sorted (regions : List MemoryRegion) : Prop :=
  (∀ r ∈ regions, r.start.toNat ≤ r.stop.toNat) ∧
    regions.IsChain fun r s => r.stop.toNat ≤ s.start.toNat

/-- The frames still to come: those of the current region from `nextAddr` on, then those of the
regions behind it. -/
def pending (it : UsableFrameIter) : List ℕ :=
  match it.regions.drop it.regionIdx with
  | [] => []
  | r :: rest => r.framesFrom it.nextAddr.toNat ++ wholeFrames rest

theorem Sorted.drop {regions : List MemoryRegion} (h : Sorted regions) (n : ℕ) :
    Sorted (regions.drop n) :=
  ⟨fun r hr => h.1 r (List.mem_of_mem_drop hr), h.2.suffix (List.drop_suffix _ _)⟩

/-- In a sorted list every later region starts at or above the end of the first. -/
theorem Sorted.stop_le {r : MemoryRegion} {rest : List MemoryRegion} (h : Sorted (r :: rest)) :
    ∀ s ∈ rest, r.stop.toNat ≤ s.start.toNat := by
  induction rest generalizing r with
  | nil => simp
  | cons s rest ih =>
    have hrs : r.stop.toNat ≤ s.start.toNat := (List.isChain_cons_cons.1 h.2).1
    have hs : s.start.toNat ≤ s.stop.toNat := h.1 s (by simp)
    intro t ht
    rcases List.mem_cons.1 ht with rfl | ht
    · exact hrs
    · have := ih (h.drop 1) t ht
      omega

/-- The invariant of an exact enumeration: besides `Ready`, the regions are sorted and `nextAddr`
has not passed the end of the current region. -/
structure Tight (it : UsableFrameIter) : Prop extends Ready it where
  below : AddrsBelow it.regions
  sorted : Sorted it.regions
  le_stop : ∀ h : it.regionIdx < it.regions.length,
    it.nextAddr.toNat ≤ it.regions[it.regionIdx].stop.toNat

/-- Advancing from below all regions that are left loses no frame. -/
theorem pending_advanceToUsable (it : UsableFrameIter) (hb : AddrsBelow it.regions)
    (hle : ∀ r ∈ it.regions.drop it.regionIdx, it.nextAddr.toNat ≤ r.start.toNat) :
    it.advanceToUsable.pending = wholeFrames (it.regions.drop it.regionIdx) ∧
      ∀ h : it.advanceToUsable.regionIdx < it.advanceToUsable.regions.length,
        it.advanceToUsable.nextAddr.toNat ≤
          it.advanceToUsable.regions[it.advanceToUsable.regionIdx].stop.toNat := by
  fun_induction advanceToUsable it with
  | case1 it h region alignedStart hu =>
    have hdrop := List.drop_eq_getElem_cons h
    have hs : alignedStart.toNat = _ := alignUp_toNat (hb _ (List.getElem_mem h)).1
    have hlt : alignedStart.toNat < region.stop.toNat := UInt64.lt_iff_toNat_lt.1 hu.2
    have hstart : it.nextAddr.toNat ≤ region.start.toNat := hle _ (hdrop ▸ List.mem_cons_self)
    have hmax : (max it.nextAddr alignedStart).toNat = alignedStart.toNat := by
      rw [toNat_max, hs]; omega
    refine ⟨?_, fun _ => hmax.trans_le hlt.le⟩
    have hframes : region.frames = region.framesFrom alignedStart.toNat := by
      rw [MemoryRegion.frames, if_pos hu.1, hs, MemoryRegion.framesFrom_alignUp]
    simp only [pending, hdrop, hmax, wholeFrames, List.flatMap_cons]
    exact congrArg (· ++ _) hframes.symm
  | case2 it h region alignedStart hu ih =>
    have hdrop := List.drop_eq_getElem_cons h
    obtain ⟨h1, h2⟩ := ih hb fun r hr => hle r (hdrop ▸ List.mem_cons_of_mem _ hr)
    refine ⟨h1.trans ?_, h2⟩
    -- the skipped region has no whole frame
    have hnil : region.frames = [] := by
      rw [MemoryRegion.frames]
      split
      · rename_i hk
        have hs : alignedStart.toNat = _ := alignUp_toNat (hb _ (List.getElem_mem h)).1
        have hge : region.stop.toNat ≤ alignedStart.toNat := by
          rw [← UInt64.le_iff_toNat_le]
          exact UInt64.not_lt.1 fun hlt => hu ⟨hk, hlt⟩
        rw [← MemoryRegion.framesFrom_alignUp, ← hs]
        exact MemoryRegion.framesFrom_of_lt (by omega)
      · rfl
    simp only [hdrop, wholeFrames, List.flatMap_cons]
    rw [show it.regions[it.regionIdx].frames = [] from hnil, List.nil_append]
  | case3 it h =>
    have hdrop : it.regions.drop it.regionIdx = [] := List.drop_eq_nil_of_le (Nat.le_of_not_lt h)
    exact ⟨by simp [pending, hdrop, wholeFrames], fun h' => absurd h' h⟩

/-- **One call of `next` takes the head of `pending`.** -/
theorem next_pending {it : UsableFrameIter} (ht : it.Tight) :
    ∃ frame it', it.next = some (frame, it') ∧ it'.Tight ∧
      frame.map PhysFrame.base = it.pending.head? ∧ it'.pending = it.pending.tail := by
  fun_induction next it with
  | case1 it h region hle =>
    have hstop := (ht.below _ (List.getElem_mem h)).2
    have hdrop := List.drop_eq_getElem_cons h
    have hadd : (it.nextAddr + 4096).toNat = it.nextAddr.toNat + 4096 := by
      rw [UInt64.toNat_add]; exact Nat.mod_eq_of_lt (by have := ht.isLt; simp; omega)
    rw [UInt64.le_iff_toNat_le, hadd] at hle
    have hbase := PhysFrame.base_containingAddress (a := ⟨it.nextAddr, ht.isLt⟩) ht.aligned
    have hcons := MemoryRegion.framesFrom_of_le (r := region) ht.aligned hle
    refine ⟨some (.containingAddress ⟨it.nextAddr, ht.isLt⟩),
      { it with nextAddr := it.nextAddr + 4096 }, by simp [PhysAddr.new_of_lt ht.isLt],
      ⟨⟨?_, ?_, ht.usable, fun h' => ?_⟩, ht.below, ht.sorted, fun _ => hadd.trans_le hle⟩, ?_, ?_⟩
    · rw [hadd]; exact Nat.dvd_add ht.aligned (Nat.dvd_refl _)
    · rw [hadd]; exact Nat.lt_of_le_of_lt hle hstop
    · rw [hadd]; exact (ht.start_le h').trans (Nat.le_add_right _ _)
    · simp only [pending, hdrop, Option.map_some, hbase]
      rw [show it.regions[it.regionIdx].framesFrom it.nextAddr.toNat = _ from hcons]
      rfl
    · simp only [pending, hdrop, hadd]
      rw [show it.regions[it.regionIdx].framesFrom it.nextAddr.toNat = _ from hcons]
      rfl
  | case2 it h region hle ih =>
    have hdrop := List.drop_eq_getElem_cons h
    set next₀ : UsableFrameIter := { it with regionIdx := it.regionIdx + 1 } with hnext₀
    have hreg : next₀.advanceToUsable.regions = it.regions := advanceToUsable_regions _
    have hadd : (it.nextAddr + 4096).toNat = it.nextAddr.toNat + 4096 := by
      rw [UInt64.toNat_add]; exact Nat.mod_eq_of_lt (by have := ht.isLt; simp; omega)
    rw [UInt64.le_iff_toNat_le, hadd, Nat.not_le] at hle
    have hafter : ∀ r ∈ next₀.regions.drop next₀.regionIdx,
        next₀.nextAddr.toNat ≤ r.start.toNat := fun r hr =>
      (ht.le_stop h).trans ((hdrop ▸ ht.sorted.drop it.regionIdx).stop_le r hr)
    obtain ⟨hpend, hstop⟩ := pending_advanceToUsable next₀ ht.below hafter
    have hready := (ready_advanceToUsable next₀ ht.below ht.aligned ht.isLt).1
    obtain ⟨frame, it', hn, ht', hhead, htail⟩ :=
      ih ⟨hready, by rw [hreg]; exact ht.below, by rw [hreg]; exact ht.sorted, hstop⟩
    have hsame : it.pending = next₀.advanceToUsable.pending := by
      rw [hpend]
      simp only [pending, hdrop]
      rw [show it.regions[it.regionIdx].framesFrom _ = [] from
        MemoryRegion.framesFrom_of_lt hle, List.nil_append]
    exact ⟨frame, it', hn, ht', by rw [hsame, hhead], by rw [hsame, htail]⟩
  | case3 it h =>
    have hdrop : it.regions.drop it.regionIdx = [] := List.drop_eq_nil_of_le (Nat.le_of_not_lt h)
    exact ⟨none, it, rfl, ht, by simp [pending, hdrop], by simp [pending, hdrop]⟩

end UsableFrameIter

namespace BootFrameAllocator

open UsableFrameIter

theorem calls_of_tight {a : BootFrameAllocator} (ht : a.usableFrames.Tight) (n : ℕ) :
    ∃ results a', a.calls n = some (results, a') ∧
      results.map (Option.map PhysFrame.base) =
        (List.range n).map fun i => a.usableFrames.pending[i]? := by
  induction n generalizing a with
  | zero => exact ⟨[], a, rfl, rfl⟩
  | succ n ih =>
    obtain ⟨frame, it', hn, ht', hhead, htail⟩ := next_pending ht
    obtain ⟨results, a', hc, hres⟩ := ih (a := ⟨it'⟩) ht'
    refine ⟨frame :: results, a', by simp [calls, allocateFrame, hn, hc], ?_⟩
    rw [List.map_cons, hres, List.range_succ_eq_map, List.map_cons, List.map_map, hhead,
      List.head?_eq_getElem?]
    simp [htail, Function.comp_def]

/-- **Exact enumeration of usable memory.**  For sorted disjoint regions with addresses below
`2 ^ 52` the results of successive calls of `allocate_frame` are the frames of `wholeFrames` in
order, each once, and `None` for ever after. -/
theorem calls_exact (regions : List MemoryRegion) (hb : AddrsBelow regions)
    (hs : Sorted regions) (n : ℕ) :
    ∃ results a, (new regions).calls n = some (results, a) ∧
      results.map (Option.map PhysFrame.base) =
        (List.range n).map fun i => (wholeFrames regions)[i]? := by
  obtain ⟨hpend, hstop⟩ := pending_advanceToUsable ⟨regions, 0, 0⟩ hb (by simp)
  have ht : (new regions).usableFrames.Tight :=
    ⟨ready_new hb, by rw [regions_new]; exact hb, by rw [regions_new]; exact hs, hstop⟩
  have := calls_of_tight ht n
  rwa [show (new regions).usableFrames.pending = wholeFrames regions from hpend] at this

/-- Two adjacent `Usable` regions whose common boundary is not 4 KiB aligned: the frame on the
boundary is in neither. -/
theorem calls_exact_boundary :
    ∃ results a, (new [⟨0x1000, 0x2800, .usable⟩, ⟨0x2800, 0x5000, .usable⟩]).calls 4 =
        some (results, a) ∧
      results.map (Option.map PhysFrame.base) = [some 0x1000, some 0x3000, some 0x4000, none] :=
  calls_exact _ (by simp [AddrsBelow]) (by simp [Sorted]) 4

end BootFrameAllocator

end ROs
