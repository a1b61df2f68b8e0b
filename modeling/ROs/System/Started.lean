import ROs.System.Round

/-!
# The system after the boot

`System.Started` says that a state is one that the boot leaves; the invariant then holds in every run
from it (`System.Started.inv`).

* `System.enter_of_stopping` : **only Enter stops the shell**.
* `System.Inv.exists_keystroke`, `System.Inv.exists_packet`, `System.exists_ticks` : the interrupts
  of a key, of a mouse packet and of the timer are handled while the idle loop waits.
* `System.exists_typed`, `System.exists_clicked` : a run in which a key is typed, the counter redrawn
  and then the mouse clicked.
-/

namespace ROs

open WindowManager

variable {D : KeyDecoder} {info : FrameBufferInfo} {fb : Buf}

/-! ### What stops the shell -/

/-- The shell does not come back to its loop. -/
def ShellPc.Stopping : ShellPc → Prop
  | .starting _ _ (.error _) | .handling _ _ (.error _) | .halted => True
  | _ => False

/-- It stops at Enter only. -/
theorem ShellPc.Next.enter_of_stopping {statics : Statics} {pc pc' : ShellPc} {q q' : Spsc UInt8}
    {e : System.Event} (hnext : Next statics pc q e pc' q') (hstop : pc'.Stopping) :
    pc.Stopping ∨ ∃ e' c, e = .scancode e' (some (.unicode c)) ∧ Shell.IsEnter c := by
  cases hnext with
  | enter | started | focused | unfocused | look | none | handled => cases hstop
  | start _ _ _ result =>
    cases result with
    | ok => cases hstop
    | error => exact .inl trivial
  | key winId line key =>
    cases hresult : (Shell.handleKey winId key line).result with
    | ok =>
      rw [hresult] at hstop
      cases hstop
    | error =>
      obtain ⟨c, rfl, hc⟩ := Shell.enter_of_error hresult
      exact .inr ⟨_, c, rfl, hc⟩
  | handle _ _ _ result =>
    cases result with
    | ok => cases hstop
    | error => exact .inl trivial
  | startHalt | halt | halted => exact .inl trivial

/-- The keys stay in the history. -/
theorem History.mem_keys_add {h : History} {key : DecodedKey} (hkey : key ∈ h.keys)
    (e : System.Event) : key ∈ (h.add e).keys := by
  cases e with
  | scancode => exact List.mem_append_left _ hkey
  | handled | mouse | handleMouse | counted | yield | call | drawMemmap | internal => exact hkey

variable [BasicFonts]

namespace System

variable {s s' : System D} {es : List Event} {e : Event}

/-- **Every step**: the shell stops only after an Enter. -/
theorem enter_of_step {h : History} (hst : Step s e s')
    (hs : s.shell.Stopping → ∃ c, .unicode c ∈ h.keys ∧ Shell.IsEnter c)
    (hstop : s'.shell.Stopping) : ∃ c, .unicode c ∈ (h.add e).keys ∧ Shell.IsEnter c := by
  have hkeep : s.shell.Stopping → ∃ c, .unicode c ∈ (h.add e).keys ∧ Shell.IsEnter c := fun hstop =>
    let ⟨c, hkey, hc⟩ := hs hstop
    ⟨c, History.mem_keys_add hkey e, hc⟩
  cases hst with
  | interrupt i hint =>
    obtain ⟨⟨e', input⟩, -, hint⟩ := Option.bind_eq_some_iff.1 hint
    cases hint
    exact hkeep hstop
  | run hrun =>
    cases runStep_of_run hrun with
    | shell _ hnext =>
      rcases hnext.enter_of_stopping hstop with hstop | ⟨e', c, rfl, hc⟩
      · exact hkeep hstop
      · exact ⟨c, List.mem_append_right _ (List.mem_singleton_self _), hc⟩
    | shellYield => cases hstop
    | idle | idleYield | memmap | memmapYield | counter | counterYield => exact hkeep hstop

/-! ### What the boot leaves -/

/-- The state is one that the boot leaves, on a screen of at least the size that is asked of the
bootloader. -/
def Started (info : FrameBufferInfo) (s : System D) : Prop :=
  ∃ (M : Type) (_ : Mapper M) (platform : Platform M) (fb : Buf), BootScreen info fb ∧
    1024 ≤ info.width ∧ 768 ≤ info.height ∧ (∀ r ∈ platform.memoryRegions, r.start ≤ r.stop) ∧
    kernelMain D platform ⟨fb, info⟩ = some s

/-- What the boot leaves. -/
theorem Started.booted (hs : Started info s) : (∃ fb, BootScreen info fb) ∧
    1024 ≤ info.width ∧ 768 ≤ info.height ∧ ∃ memoryRegions,
      (∀ r ∈ memoryRegions, r.start ≤ r.stop) ∧ Booted info memoryRegions s := by
  obtain ⟨M, _, platform, fb, hb, hw, hh, hregions, hboot⟩ := hs
  obtain ⟨heap, hheap, hroom⟩ := room_of_kernelMain hboot
  obtain ⟨s₀, hboot', hbooted⟩ := exists_kernelMain D hb hw hh hheap hroom
  cases hboot.symm.trans hboot'
  exact ⟨⟨fb, hb⟩, hw, hh, platform.memoryRegions, hregions, hbooted⟩

/-- **The invariant holds in every run**, and every task begins in its first turn. -/
theorem Started.inv_begun (hs : Started info s) (hrun : Trace Step s es s') :
    Inv info (.of es) s' ∧ Begun (.of es) s' := by
  obtain ⟨⟨fb, hb⟩, -, -, memoryRegions, hregions, hbooted⟩ := hs.booted
  refine hrun.history (I := fun es s => Inv info (.of es) s ∧ Begun (.of es) s)
    (fun pre a e b hinv hst => ?_) ⟨inv_of_booted hregions hbooted, fun hpc => ?_,
      fun _ => Nat.zero_le _, fun _ => Nat.zero_le _, fun _ => Nat.zero_le _⟩
  · rw [History.of_append]
    exact ⟨hinv.1.step hb hst, hinv.2.step hinv.1 hst⟩
  · rw [hbooted.idle] at hpc
    rcases hpc with hpc | hpc <;> cases hpc

theorem Started.inv (hs : Started info s) (hrun : Trace Step s es s') : Inv info (.of es) s' :=
  (hs.inv_begun hrun).1

/-- **Only Enter stops the shell.** -/
theorem enter_of_stopping (hs : Started info s) (hrun : Trace Step s es s')
    (hstop : s'.shell.Stopping) : ∃ c, .unicode c ∈ (History.of es).keys ∧ Shell.IsEnter c := by
  obtain ⟨-, -, -, memoryRegions, -, hbooted⟩ := hs.booted
  refine hrun.history (I := fun es s => s.shell.Stopping →
    ∃ c, .unicode c ∈ (History.of es).keys ∧ Shell.IsEnter c) (fun pre a e b hs hst => ?_)
    (fun hstop => ?_) hstop
  · rw [History.of_append]
    exact enter_of_step hst hs
  · rw [hbooted.shell] at hstop
    cases hstop

/-- Steps without interrupts are steps. -/
theorem trace_of_uninterrupted (h : Trace Uninterrupted s es s') : Trace Step s es s' :=
  h.mono fun _ _ _ hst => .run hst.2

/-- After the first round every task has begun. -/
theorem Begun.of_waiting {h : History} (hbegun : Begun h s) (hi : Inv info h s)
    (hflow : s.flow = .idle) (hidle : s.idle = .waiting) :
    s.shell ≠ .entry ∧ s.memmap ≠ .entry ∧ s.counter ≠ .entry := by
  have hpos := hbegun.idle (.inr hidle)
  have hindex := hi.index_flow
  rw [hflow, Flow.index] at hindex
  have hle : 4 ≤ h.yields := by omega
  refine ⟨fun hpc => ?_, fun hpc => ?_, fun hpc => ?_⟩
  · exact absurd (hle.trans (hbegun.shell hpc)) (by decide)
  · exact absurd (hle.trans (hbegun.memmap hpc)) (by decide)
  · exact absurd (hle.trans (hbegun.counter hpc)) (by decide)

/-- The mouse events that have been accepted. -/
theorem Inv.accepted_eq {h : History} (hi : Inv info h s) :
    h.moves ++ s.idle.pending ++ s.input.mouseEvents.stored = Fifo.accepted h.mouseEvents := by
  rw [← hi.received.moves_eq]
  exact hi.received.recorded.conserved.2

/-! ### Input while the idle loop is awake or waits -/

/-- An interrupt wakes the idle loop up. -/
theorem step_of_handle {i : Interrupt} {e : Handled} {input : Input} (hflow : s.flow = .idle)
    (hidle : s.idle = .reading ∨ s.idle = .waiting) (h : s.input.handle i = some (e, input)) :
    Step s (.handled e) { s with input, idle := .reading } := by
  refine .interrupt i ?_
  rw [interrupt, h]
  rcases hidle with hidle | hidle
  · rw [if_neg fun hwait => absurd (hidle.symm.trans hwait.2) (by decide), hidle]
    rfl
  · rw [if_pos ⟨hflow, hidle⟩]
    rfl

/-- A key is pressed while no scancode waits. -/
theorem Inv.exists_keystroke {h : History} (hi : Inv info h s) (hflow : s.flow = .idle)
    (hidle : s.idle = .reading ∨ s.idle = .waiting) (hempty : s.input.scancodes.stored = [])
    (scancode : UInt8) :
    ∃ q, Step s (.handled (.keyboard (.accepted scancode)))
        { s with input := { s.input with scancodes := q }, idle := .reading } ∧
      q.stored = [scancode] := by
  obtain ⟨hscancodes, -, hpush, -⟩ := hi.received.recorded.ok
  obtain ⟨e, q, hcall, hevent, hstep, -⟩ := Spsc.exists_pushCall hscancodes hpush scancode
  rw [hempty] at hstep
  rcases hevent with rfl | rfl
  · refine ⟨q, step_of_handle hflow hidle (i := .keyboard scancode) ?_, hstep.eq_concat_of_accepted⟩
    rw [Input.handle, hcall]
    rfl
  · cases hstep.length_of_dropped

/-- A packet of the mouse arrives while no mouse event waits. -/
theorem Inv.exists_packet {h : History} (hi : Inv info h s) (hflow : s.flow = .idle)
    (hidle : s.idle = .reading ∨ s.idle = .waiting) (hempty : s.input.mouseEvents.stored = [])
    (b₁ b₂ b₃ : UInt8) (event : MouseEvent) {p₁ p₂ p₃ : PacketDecoder}
    (h₁ : addByte s.input.packets b₁ = (p₁, none)) (h₂ : addByte p₁ b₂ = (p₂, none))
    (h₃ : addByte p₂ b₃ = (p₃, some event)) :
    ∃ q, Trace Step s [.handled (.mouse b₁ .silent), .handled (.mouse b₂ .silent),
        .handled (.mouse b₃ (.accepted event))]
          { s with input := { s.input with packets := p₃, mouseEvents := q }, idle := .reading } ∧
      q.stored = [event] := by
  obtain ⟨-, hmouseEvents, -, hpush⟩ := hi.received.recorded.ok
  obtain ⟨e, q, hcall, hevent, hstep, -⟩ := Spsc.exists_pushCall hmouseEvents hpush event
  rw [hempty] at hstep
  rcases hevent with rfl | rfl
  · have hhandle₁ : s.input.handle (.mouse b₁) =
        some (.mouse b₁ .silent, { s.input with packets := p₁ }) := by
      rw [Input.handle, h₁]
    have hhandle₂ : ({ s.input with packets := p₁ } : Input).handle (.mouse b₂) =
        some (.mouse b₂ .silent, { s.input with packets := p₂ }) := by
      rw [Input.handle, h₂]
    have hhandle₃ : ({ s.input with packets := p₂ } : Input).handle (.mouse b₃) =
        some (.mouse b₃ (.accepted event), { s.input with packets := p₃, mouseEvents := q }) := by
      rw [Input.handle, h₃]
      dsimp only
      rw [hcall]
      rfl
    have hst₁ := step_of_handle hflow hidle hhandle₁
    have hst₂ := step_of_handle (s := { s with
      input := { s.input with packets := p₁ }, idle := .reading }) hflow (.inl rfl) hhandle₂
    have hst₃ := step_of_handle (s := { s with
      input := { s.input with packets := p₂ }, idle := .reading }) hflow (.inl rfl) hhandle₃
    exact ⟨q, .cons hst₁ (.cons hst₂ (.single hst₃)), hstep.eq_concat_of_accepted⟩
  · cases hstep.length_of_dropped

/-- Ticks while the idle loop is awake. -/
theorem exists_ticks (n : ℕ) (hflow : s.flow = .idle) (hreading : s.idle = .reading) :
    ∃ tickCount, Trace Step s (List.replicate n (.handled .timer))
      { s with input := { s.input with tickCount } } := by
  induction n generalizing s with
  | zero => exact ⟨_, .nil s⟩
  | succ n ih =>
    have hst := step_of_handle hflow (.inl hreading) (i := .timer) rfl
    obtain ⟨tickCount, htrace⟩ := ih (s := { s with
      input := { s.input with tickCount := s.input.tickCount + 1 }, idle := .reading }) hflow rfl
    rw [hreading]
    exact ⟨tickCount, .cons hst htrace⟩

/-! ### Runs -/

/-- A screen of the size that is asked of the bootloader. -/
def xga : FrameBufferInfo := ⟨1024, 768, .rgb, 3, 1024⟩

omit [BasicFonts] in
theorem bootScreen_xga {fb : Buf} (hfb : fb.size = 2359296) : BootScreen xga fb :=
  ⟨⟨by decide, by decide, Nat.le_refl _, .inl rfl, Nat.le_refl 3, hfb, by rw [hfb]; decide⟩,
    rfl, by decide, by decide⟩

/-- A machine with 128 MiB of memory, 64 of which are not used by the bootloader, and without any page
table yet.  The heap has room for what fits into it. -/
def Platform.sample : Platform PageTables where
  physicalMemoryOffset := some 0x280_0000_0000
  memoryRegions := [⟨0x1000, 0x9f000, .usable⟩, ⟨0x100000, 0x4000000, .bootloader⟩,
    ⟨0x4000000, 0x8000000, .usable⟩]
  l4Frame := .containingAddress ⟨0x100000, by decide⟩
  offsetPageTable _ _ := .empty
  room heap sizes := sizes.sum ≤ heap.size.toNat
  taskStacks i := HEAP_START + 65536 * i.val.toUInt64

omit [BasicFonts] in
theorem Platform.supports_sample : Platform.sample.Supports xga where
  mapper := ⟨_, _, .empty, rfl, rfl, rfl, ⟨fun _ _ => rfl, fun _ ht => absurd ht List.not_mem_nil⟩⟩
  addrsBelow := by
    simp [Platform.sample, UsableFrameIter.AddrsBelow]
  start_le_stop := by decide
  frames := by
    refine BootFrameAllocator.holds_new (by simp [Platform.sample, UsableFrameIter.AddrsBelow])
      (by simp [Platform.sample, UsableFrameIter.Sorted]) ?_
    refine BootFrameAllocator.le_length_wholeFrames (r := ⟨0x4000000, 0x8000000, .usable⟩) ?_ rfl
      (by decide) (by decide)
    exact List.mem_of_getElem? (i := 2) rfl
  room := by decide

/-- The idle loop is executed first. -/
theorem Booted.flow_eq {memoryRegions : List MemoryRegion}
    (hbooted : Booted info memoryRegions s) : s.flow = .idle := by
  obtain ⟨taskStacks, hscheduler⟩ := hbooted.scheduler
  rw [flow, hscheduler]
  rfl

/-- There is a system that runs. -/
theorem exists_started (D : KeyDecoder) : ∃ s : System D, Started xga s ∧
    Booted xga Platform.sample.memoryRegions s := by
  have hb : BootScreen xga (Array.replicate 2359296 0) := bootScreen_xga Array.size_replicate
  have hp := Platform.supports_sample
  obtain ⟨s, hs, hbooted⟩ :=
    exists_kernelMain D hb (Nat.le_refl _) (Nat.le_refl _) hp.initMemory_eq hp.room
  exact ⟨s, ⟨_, _, Platform.sample, _, hb, Nat.le_refl _, Nat.le_refl _, hp.start_le_stop, hs⟩,
    hbooted⟩

/-- The first round, without interrupts. -/
theorem exists_first_round (D : KeyDecoder) : ∃ (s : System D) (es : List Event) (s' : System D),
    Started xga s ∧ Trace Step s es s' ∧ s'.flow = .idle ∧ s'.idle = .waiting ∧
      s'.input.mouseEvents.stored = [] ∧ s'.input.scancodes.stored = [] ∧
      (History.of es).moves = [] := by
  obtain ⟨s, hs, hbooted⟩ := exists_started D
  obtain ⟨⟨fb, hb⟩, -⟩ := hs.booted
  have hi := hs.inv (.nil s)
  have hflow := hbooted.flow_eq
  have hstored : s.input.scancodes.stored = [] ∧ s.input.mouseEvents.stored = [] := by
    rw [hbooted.input]
    exact ⟨Spsc.stored_init _, Spsc.stored_init _⟩
  obtain ⟨es, s', htrace, hi', hround, -, hquiet⟩ := hi.exists_round hb hflow
    (by rw [hbooted.idle]; rfl) hstored.2 (by rw [hbooted.idle]; rfl) rfl
  rw [hstored.1] at hround
  rw [List.nil_append] at hround hi'
  rcases hquiet with ⟨hflow', hidle'⟩ | ⟨hflow', hshell'⟩
  · exact ⟨s, es, s', hs, trace_of_uninterrupted htrace, hflow', hidle', hround.mouse,
      List.eq_nil_of_length_eq_zero (Nat.le_zero.1 hround.length_le), hround.moves_eq⟩
  · exact absurd (hround.busy hflow' (by rw [hshell']; trivial)) (Nat.not_lt_zero _)

/-- The bytes of a packet of the mouse arrive at once. -/
theorem exists_moved (D : KeyDecoder) : ∃ s s' : System D, Started xga s ∧
    Trace Step s [.handled (.mouse 0x29 .silent), .handled (.mouse 3 .silent),
      .handled (.mouse 0xfe (.accepted ⟨3, -2, true, false, false⟩))] s' ∧
    s'.flow = .idle ∧ s'.idle = .reading := by
  obtain ⟨s, hs, hbooted⟩ := exists_started D
  have hempty : s.input.mouseEvents.stored = [] := by
    rw [hbooted.input]
    exact Spsc.stored_init _
  obtain ⟨q, htrace, -⟩ := (hs.inv (.nil s)).exists_packet hbooted.flow_eq (.inl hbooted.idle) hempty
    0x29 3 0xfe ⟨3, -2, true, false, false⟩ (by rw [hbooted.input]; rfl) rfl rfl
  exact ⟨s, _, hs, htrace, hbooted.flow_eq, rfl⟩

/-- The key `a` is pressed, 16 ticks go by, and then each task has its turn. -/
theorem exists_typed : ∃ (s : System .sample) (es : List Event) (s' : System .sample),
    Started xga s ∧ Trace Step s es s' ∧ s'.flow = .idle ∧ s'.idle = .waiting ∧
      s'.input.mouseEvents.stored = [] ∧ (History.of es).bytes = [] ∧ (History.of es).moves = [] ∧
      Fifo.popped (History.of es).scancodes = [0x1e] ∧ (History.of es).counted = 16 := by
  obtain ⟨s, hs, hbooted⟩ := exists_started .sample
  obtain ⟨⟨fb, hb⟩, -⟩ := hs.booted
  have hempty : s.input.scancodes.stored = [] ∧ s.input.mouseEvents.stored = [] := by
    rw [hbooted.input]
    exact ⟨Spsc.stored_init _, Spsc.stored_init _⟩
  obtain ⟨q, hkey, hq⟩ :=
    (hs.inv (.nil s)).exists_keystroke hbooted.flow_eq (.inl hbooted.idle) hempty.1 0x1e
  obtain ⟨tickCount, hticks⟩ := exists_ticks 16 (s := { s with
    input := { s.input with scancodes := q }, idle := .reading }) hbooted.flow_eq rfl
  have hrun : Trace Step s _ _ := .cons hkey hticks
  obtain ⟨es, s', htrace, hi, hround, hcounting, hquiet⟩ :=
    (hs.inv hrun).exists_round hb hbooted.flow_eq rfl hempty.2 rfl (by decide)
  have hrun' := hrun.append (trace_of_uninterrupted htrace)
  -- the scancode has been taken, whether the shell has been halted or not
  have hstored : s'.input.scancodes.stored = [] := by
    rw [hq] at hround
    rcases hquiet with ⟨hflow, hidle⟩ | ⟨hflow, hhalted⟩
    · rcases hround.taken (by rw [hflow, hidle]; exact Nat.zero_le 2) with hlt | hnil
      · exact List.eq_nil_of_length_eq_zero (Nat.lt_one_iff.1 hlt)
      · exact hnil
    · exact List.eq_nil_of_length_eq_zero
        (Nat.lt_one_iff.1 (hround.busy hflow (by rw [hhalted]; trivial)))
  have hpopped := hi.received.recorded.conserved.1
  rw [hstored, List.append_nil, hround.input.scancodes] at hpopped
  rcases hquiet with ⟨hflow, hidle⟩ | ⟨-, hhalted⟩
  · refine ⟨s, _, s', hs, hrun', hflow, hidle, hround.mouse, hround.input.bytes, hround.moves_eq,
      hpopped, ?_⟩
    rw [hcounting (.inr (by rw [hflow, hidle]; rfl)), hround.input.ticks]
    rfl
  · -- an `a` is not Enter
    obtain ⟨c, hkeys, hc⟩ := enter_of_stopping hs hrun' (by rw [hhalted]; trivial)
    rw [hi.received.keys_eq, hpopped] at hkeys
    obtain rfl : c = 'a' := by
      have hmem : DecodedKey.unicode c ∈ [DecodedKey.unicode 'a'] := hkeys
      simpa using hmem
    rcases hc with hc | hc <;> cases hc

/-- Then the mouse is clicked on the window of the memory map, and the idle loop has its turn. -/
theorem exists_clicked : ∃ (s : System .sample) (es : List Event) (s' : System .sample),
    Started xga s ∧ Trace Step s es s' ∧ s'.idle = .yielding ∧ s'.shell ≠ .entry ∧
      s'.counter ≠ .entry ∧ (History.of es).moves = [⟨-200, 0, true, false, false⟩] ∧
      Fifo.popped (History.of es).scancodes = [0x1e] ∧
      ∃ shown, (History.of es).displayed = some shown := by
  obtain ⟨s, es, s₁, hs, hrun, hflow, hidle, hempty, hbytes, hmoves, hpopped, hcounted⟩ :=
    exists_typed
  obtain ⟨⟨fb, hb⟩, -⟩ := hs.booted
  obtain ⟨hi, hbegun⟩ := hs.inv_begun hrun
  obtain ⟨hshell, -, hcounter⟩ := hbegun.of_waiting hi hflow hidle
  obtain ⟨shown, hshown⟩ : ∃ shown, (History.of es).displayed = some shown := by
    obtain ⟨wm, fb', hdesk⟩ := hi.desk
    obtain ⟨winId, last, hpc⟩ :=
      (hi.parked.counter (by rw [hflow]; decide)).resolve_left hcounter
    exact hdesk.counter.exists_displayed (by rw [hpc]; rfl) (by rw [hcounted]; decide)
  have hpackets : s₁.input.packets = .init := by
    rw [hi.received.recorded.packets_eq, hbytes]
    rfl
  obtain ⟨q, hpacket, hq⟩ := hi.exists_packet hflow (.inr hidle) hempty 0x19 0x38 0
    ⟨-200, 0, true, false, false⟩ (by rw [hpackets]; rfl) rfl rfl
  have hrun' := hrun.append hpacket
  obtain ⟨es', s', htrace, hi', hyielding, hempty', hw⟩ :=
    (hs.inv hrun').exists_yielding hb hflow rfl
  have hnone : Fifo.accepted (History.of es).mouseEvents = [] := by
    have hall := hi.accepted_eq
    rw [hmoves, hidle, hempty] at hall
    exact hall.symm
  have hmoves' := hi'.accepted_eq
  have hscancodes := congrArg Fifo.popped hw.scancodes_eq
  have hdisplayed := hw.displayed_eq
  rw [hyielding, hempty', hw.input.mouseEvents, History.of_append_list es] at hmoves'
  rw [History.of_append_list es] at hscancodes hdisplayed
  simp only [List.foldl_cons, List.foldl_nil, History.add, Handled.mouseEvents, Handled.scancodes,
    Fifo.accepted_concat, Fifo.popped_concat, hnone, hpopped, hshown] at hmoves' hscancodes hdisplayed
  refine ⟨s, _, s', hs, hrun'.append (trace_of_uninterrupted htrace), hyielding, ?_, ?_, ?_,
    hscancodes, shown, hdisplayed⟩
  · rw [hw.shell_eq]
    exact hshell
  · rw [hw.counter_eq]
    exact hcounter
  · rw [List.append_nil] at hmoves'
    exact (List.append_nil _).symm.trans hmoves'

end System

end ROs
