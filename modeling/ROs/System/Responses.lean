import ROs.System.Runs

/-!
# Responses

What the system does in response to its input, if it is left alone for long enough.

* `System.reaches_hlt` : without interrupts, the system comes to the `hlt` of the idle loop, unless
  the shell has been halted.
* `System.mouse_shown` : once awake, the idle loop handles every mouse event that has been accepted
  and shows the result.
* `System.counter_catches_up` : at the end of a round the number that the counter shows is less than
  16 behind the timer.
* `System.keystrokes_taken` : **with a timer and no other interrupts, the shell takes every scancode
  that waits**, at least one for each tick.
-/

namespace ROs

open WindowManager

variable [BasicFonts] {D : KeyDecoder} {info : FrameBufferInfo} {fb : Buf}

namespace System

variable {s s' : System D} {es : List Event}

/-! ### Between two interrupts -/

/-- **Without interrupts, the processor comes to the `hlt` of the idle loop**, unless the shell has
been halted. -/
theorem reaches_hlt (hs : Started info s) (hrun : Trace Step s es s') :
    ∃ es' s'', Trace Uninterrupted s' es' s'' ∧
      (s''.flow = .idle ∧ s''.idle = .waiting ∨ s''.flow = .shell ∧ s''.shell = .halted) := by
  obtain ⟨⟨fb, hb⟩, -⟩ := hs.booted
  have hgoal : ∀ s : System D, s.Quiet → s.Quiet := fun _ hq => hq
  obtain ⟨es', s'', htrace, -, -, hquiet⟩ := (hs.inv hrun).exists_uninterrupted hb
    (J := fun _ _ => True) hgoal (fun _ _ _ _ _ _ _ _ => trivial) trivial
  exact ⟨es', s'', htrace, hquiet⟩

omit [BasicFonts] in
/-- After the boot. -/
theorem reaches_hlt_xga :
    let _ := BasicFonts.sample
    ∃ (s s' : System .sample) (es : List Event), Started xga s ∧ Trace Uninterrupted s es s' ∧
      (s'.flow = .idle ∧ s'.idle = .waiting ∨ s'.flow = .shell ∧ s'.shell = .halted) := by
  intro _
  obtain ⟨s, hs, -⟩ := exists_started .sample
  obtain ⟨es, s', htrace, hquiet⟩ := reaches_hlt hs (.nil s)
  exact ⟨s, s', es, hs, htrace, hquiet⟩

/-- **Once awake, the idle loop handles every mouse event that has been accepted**, and when it hands
the processor on, the screen shows the desktop that these events make of that of the boot. -/
theorem mouse_shown (hs : Started info s) (hrun : Trace Step s es s') (hflow : s'.flow = .idle)
    (hreading : s'.idle = .reading) :
    ∃ es' s'' wm fb, Trace Uninterrupted s' es' s'' ∧ s''.idle = .yielding ∧
      s''.input.mouseEvents.stored = [] ∧
      (History.of (es ++ es')).moves = Fifo.accepted (History.of es).mouseEvents ∧
      s''.statics = ⟨some wm, some ⟨fb, info⟩⟩ ∧
      wm.desktop = desktopAfter info (Fifo.accepted (History.of es).mouseEvents) ∧
      Shown info wm fb := by
  obtain ⟨⟨fb₀, hb⟩, -⟩ := hs.booted
  obtain ⟨es', s'', htrace, hi, hyielding, hempty, hw⟩ :=
    (hs.inv hrun).exists_yielding hb hflow hreading
  have hmoves : (History.of (es ++ es')).moves = Fifo.accepted (History.of es).mouseEvents := by
    have hall := hi.accepted_eq
    rw [hyielding, hempty, List.append_nil, hw.input.mouseEvents] at hall
    exact (List.append_nil _).symm.trans hall
  obtain ⟨wm, fb, hdesk⟩ := hi.desk
  obtain ⟨backBuf, hclean⟩ := (hdesk.running_of_yielding hi hyielding).1.coherent.clean
    (hdesk.idle hyielding)
  exact ⟨es', s'', wm, fb, htrace, hyielding, hempty, hmoves, hdesk.statics_eq,
    hmoves ▸ hdesk.desktop_eq, hclean.shown hb.fits⟩

omit [BasicFonts] in
/-- A packet of the mouse. -/
theorem mouse_shown_xga :
    let _ := BasicFonts.sample
    ∃ (s s' : System .sample) (es es' : List Event) (wm : WindowManager) (fb : Buf), Started xga s ∧
      Trace Step s (es ++ es') s' ∧ (History.of (es ++ es')).moves = [⟨3, -2, true, false, false⟩] ∧
      s'.statics = ⟨some wm, some ⟨fb, xga⟩⟩ ∧
      wm.desktop = desktopAfter xga [⟨3, -2, true, false, false⟩] ∧ Shown xga wm fb := by
  intro _
  obtain ⟨s, s', hs, hrun, hflow, hreading⟩ := exists_moved .sample
  obtain ⟨es', s'', wm, fb, htrace, -, -, hmoves, hstatics, hdesktop, hshown⟩ :=
    mouse_shown hs hrun hflow hreading
  exact ⟨s, s'', _, es', wm, fb, hs, hrun.append (trace_of_uninterrupted htrace), hmoves, hstatics,
    hdesktop, hshown⟩

/-- **The counter catches up**: from any point of a turn of the idle loop the round comes to its end,
with the shell halted or the number in the window of the counter less than 16 behind the interrupts
of the timer. -/
theorem counter_catches_up (hs : Started info s) (hrun : Trace Step s es s') (hflow : s'.flow = .idle)
    (hturn : s'.idle ≠ .halting ∧ s'.idle ≠ .waiting) :
    ∃ es' s'', Trace Uninterrupted s' es' s'' ∧ (s''.flow = .shell ∧ s''.shell = .halted ∨
      s''.flow = .idle ∧ s''.idle = .waiting ∧ ∃ wm fb, s''.statics = ⟨some wm, some ⟨fb, info⟩⟩ ∧
        wm.Hosts 2 counterContent false (counterGrid (History.of (es ++ es')).displayed) ∧
        UInt64.ofNat (History.of es).ticks - (History.of (es ++ es')).displayed.getD 0 < 16) := by
  obtain ⟨⟨fb₀, hb⟩, -⟩ := hs.booted
  obtain ⟨es', s'', htrace, hi, hcounting, hquiet⟩ :=
    (hs.inv hrun).exists_counted hb hflow (IdlePc.turnsLeft_of_awake hturn)
  have hinput := (hs.inv hrun).sameInput_of_uninterrupted hb htrace
  refine ⟨es', s'', htrace, ?_⟩
  rcases hquiet with ⟨hflow', hwaiting⟩ | hhalted
  · have hcounted := hcounting (.inr (by rw [hflow', hwaiting]; rfl))
    rw [hinput.ticks] at hcounted
    obtain ⟨wm, fb, hdesk⟩ := hi.desk
    have hbegun := (hs.inv_begun (hrun.append (trace_of_uninterrupted htrace))).2
    obtain ⟨winId, last, hpc⟩ := (hi.parked.counter (by rw [hflow']; decide)).resolve_left
      (hbegun.of_waiting hi hflow' hwaiting).2.2
    obtain ⟨hlast, hdue, hhosts⟩ := hdesk.counter.lastDisplayed_eq (by rw [hpc]; rfl)
    rw [hcounted, hlast] at hdue
    exact .inr ⟨hflow', hwaiting, wm, fb, hdesk.statics_eq, hhosts,
      UInt64.not_le.1 (of_decide_eq_false hdue)⟩
  · exact .inl hhalted

omit [BasicFonts] in
/-- 40 ticks before the first round. -/
theorem counter_catches_up_xga :
    let _ := BasicFonts.sample
    ∃ (s s' : System .sample) (es : List Event) (shown : UInt64), Started xga s ∧
      Trace Step s (List.replicate 40 (.handled .timer) ++ es) s' ∧ s'.idle = .waiting ∧
      40 - shown < 16 ∧ ∃ wm fb, s'.statics = ⟨some wm, some ⟨fb, xga⟩⟩ ∧
        wm.Hosts 2 counterContent false (counterGrid (some shown)) := by
  intro _
  obtain ⟨s, hs, hbooted⟩ := exists_started .sample
  obtain ⟨⟨fb₀, hb⟩, -⟩ := hs.booted
  obtain ⟨tickCount, hticks⟩ := exists_ticks 40 hbooted.flow_eq hbooted.idle
  obtain ⟨es, s', htrace, hdone⟩ := counter_catches_up hs hticks hbooted.flow_eq
    (by rw [hbooted.idle]; decide)
  have hrun := hticks.append (trace_of_uninterrupted htrace)
  have hi := hs.inv hrun
  rcases hdone with ⟨-, hhalted⟩ | ⟨-, hwaiting, wm, fb, hstatics, hhosts, hlate⟩
  · -- there is no key that could have halted the shell
    have hpopped := hi.received.recorded.conserved.1
    rw [((hs.inv hticks).sameInput_of_uninterrupted hb htrace).scancodes] at hpopped
    obtain ⟨c, hkeys, -⟩ := enter_of_stopping hs hrun (by rw [hhalted]; trivial)
    rw [hi.received.keys_eq, (List.append_eq_nil_iff.1 hpopped).1] at hkeys
    cases hkeys
  · cases hdisplayed : (History.of (List.replicate 40 (.handled .timer) ++ es)).displayed with
    | none =>
      rw [hdisplayed] at hlate
      exact absurd hlate (by decide)
    | some shown =>
      rw [hdisplayed] at hlate hhosts
      exact ⟨s, s', es, shown, hs, hrun, hwaiting, hlate, wm, fb, hstatics, hhosts⟩

/-! ### With a timer -/

/-- A step of the system when the timer is the only source of interrupts, and ticks when the idle loop
waits. -/
def pace (s : System D) : Option (Event × System D) :=
  if s.flow = .idle ∧ s.idle = .waiting then s.interrupt .timer else s.run

/-- A step that is paced by the timer. -/
def Paced (s : System D) (e : Event) (s' : System D) : Prop := s.pace = some (e, s')

theorem step_of_paced {e : Event} (h : Paced s e s') : Step s e s' := by
  rw [Paced, pace] at h
  split at h
  · exact .interrupt .timer h
  · exact .run h

theorem paced_of_uninterrupted (h : Trace Uninterrupted s es s') : Trace Paced s es s' := by
  refine h.mono fun a e b hst => ?_
  rw [Paced, pace, if_neg fun hwait => hst.1 (.inl hwait)]
  exact hst.2

/-- **A tick and the round after it** take one of the scancodes or halt the shell. -/
theorem Inv.exists_paced_round (hb : BootScreen info fb) (hi : Inv info (.of es) s)
    (hflow : s.flow = .idle) (hwaiting : s.idle = .waiting)
    (hmouse : s.input.mouseEvents.stored = [])
    (hfocus : (desktopAfter info (History.of es).moves).focused = some 0) :
    ∃ es' s' h₀, Trace Paced s es' s' ∧ Inv info (.of (es ++ es')) s' ∧
      h₀.moves = (History.of es).moves ∧ h₀.ticks = (History.of es).ticks + 1 ∧
      Round s.input.scancodes.stored.length h₀ (.of (es ++ es')) s' ∧ s'.Quiet := by
  have htick : s.interrupt .timer = some (.handled .timer, { s with
      input := { s.input with tickCount := s.input.tickCount + 1 }, idle := .reading }) := by
    rw [interrupt, Input.handle, if_pos ⟨hflow, hwaiting⟩]
    rfl
  have hpaced : Paced s (.handled .timer) _ := (if_pos ⟨hflow, hwaiting⟩).trans htick
  have hi₁ := hi.step hb (step_of_paced hpaced)
  rw [← History.of_append] at hi₁
  have hmoves : (History.of (es ++ [.handled .timer])).moves = (History.of es).moves := by
    rw [History.of_append]
    rfl
  have hticks : (History.of (es ++ [.handled .timer])).ticks = (History.of es).ticks + 1 := by
    rw [History.of_append]
    rfl
  obtain ⟨es', s', htrace, hi', hround, -, hquiet⟩ :=
    hi₁.exists_round hb hflow rfl hmouse rfl (by rw [hmoves]; exact hfocus)
  rw [List.append_assoc] at hi' hround
  exact ⟨.handled .timer :: es', s', _, .cons hpaced (paced_of_uninterrupted htrace), hi', hmoves,
    hticks, hround, hquiet⟩

/-- **From the `hlt` of the idle loop**, all scancodes are taken, one in each round. -/
theorem Inv.exists_taken (hb : BootScreen info fb) (hi : Inv info (.of es) s)
    (hflow : s.flow = .idle) (hwaiting : s.idle = .waiting)
    (hmouse : s.input.mouseEvents.stored = [])
    (hfocus : (desktopAfter info (History.of es).moves).focused = some 0) :
    ∃ es' s', Trace Paced s es' s' ∧
      (History.of (es ++ es')).ticks ≤
        (History.of es).ticks + s.input.scancodes.stored.length ∧
      (s'.input.scancodes.stored = [] ∨ s'.shell = .halted) := by
  induction hk : s.input.scancodes.stored.length using Nat.strong_induction_on generalizing es s with
  | h k ih =>
    cases hstored : s.input.scancodes.stored with
    | nil =>
      exact ⟨[], s, .nil s, by rw [List.append_nil]; exact Nat.le_add_right _ _, .inl hstored⟩
    | cons scancode rest =>
      have hpos : 0 < k := by
        rw [← hk, hstored]
        exact Nat.succ_pos _
      obtain ⟨es₁, s₁, h₀, htrace, hi₁, hmoves, hticks, hround, hquiet⟩ :=
        hi.exists_paced_round hb hflow hwaiting hmouse hfocus
      rw [hk] at hround
      rw [← hround.input.ticks] at hticks
      rcases hquiet with ⟨hflow₁, hidle₁⟩ | ⟨hflow₁, hhalted⟩
      · -- the round has taken a scancode
        have hlt : s₁.input.scancodes.stored.length < k := by
          rcases hround.taken (by rw [hflow₁, hidle₁]; exact Nat.zero_le 2) with hlt | hnil
          · exact hlt
          · rw [hnil]
            exact hpos
        obtain ⟨es₂, s₂, htrace₂, hle, hdone⟩ := ih _ hlt hi₁ hflow₁ hidle₁ hround.mouse
          (by rw [hround.moves_eq, hmoves]; exact hfocus) rfl
        rw [List.append_assoc] at hle
        refine ⟨es₁ ++ es₂, s₂, htrace.append htrace₂, ?_, hdone⟩
        omega
      · refine ⟨es₁, s₁, htrace, ?_, .inr hhalted⟩
        omega

/-- **With a timer, the shell takes every scancode that waits**, unless one of them halts it: while the
mouse is still and the shell has the focus, at least one in each round. -/
theorem keystrokes_taken (hs : Started info s) (hrun : Trace Step s es s')
    (hmouse : s'.input.mouseEvents.stored = []) (hpending : s'.idle.pending = [])
    (hfocus : (desktopAfter info (History.of es).moves).focused = some 0) :
    ∃ es' s'', Trace Paced s' es' s'' ∧
      (History.of (es ++ es')).ticks ≤
        (History.of es).ticks + s'.input.scancodes.stored.length ∧
      (s''.input.scancodes.stored = [] ∨ s''.shell = .halted) := by
  obtain ⟨⟨fb, hb⟩, -⟩ := hs.booted
  -- the round that is under way comes to its end without a tick
  obtain ⟨es₁, s₁, htrace₁, hi₁, hround, -, hquiet⟩ :=
    (hs.inv hrun).exists_quiet hb (.of_still _ hmouse hpending) hfocus
  have hpaced := paced_of_uninterrupted htrace₁
  rcases hquiet with ⟨hflow, hwaiting⟩ | ⟨-, hhalted⟩
  · obtain ⟨es₂, s₂, htrace₂, hle, hdone⟩ := hi₁.exists_taken hb hflow hwaiting hround.mouse
      (by rw [hround.moves_eq]; exact hfocus)
    rw [List.append_assoc, hround.input.ticks] at hle
    have hlen : s₁.input.scancodes.stored.length ≤ s'.input.scancodes.stored.length := by
      rcases hround.taken (by rw [hflow, hwaiting]; exact Nat.zero_le 2) with hlt | hnil
      · exact Nat.le_of_lt_succ hlt
      · rw [hnil]
        exact Nat.zero_le _
    exact ⟨es₁ ++ es₂, s₂, hpaced.append htrace₂, hle.trans (Nat.add_le_add_left hlen _), hdone⟩
  · exact ⟨es₁, s₁, hpaced, by rw [hround.input.ticks]; exact Nat.le_add_right _ _, .inr hhalted⟩

omit [BasicFonts] in
/-- The key `a` is pressed after the first round. -/
theorem keystrokes_taken_xga :
    let _ := BasicFonts.sample
    ∃ (s s₁ s₂ : System .sample) (es es' : List Event), Started xga s ∧ Trace Step s es s₁ ∧
      s₁.input.scancodes.stored = [0x1e] ∧ Trace Paced s₁ es' s₂ ∧
      (s₂.input.scancodes.stored = [] ∨ s₂.shell = .halted) := by
  intro _
  obtain ⟨s, es, s', hs, hrun, hflow, hidle, hmouse, hempty, hmoves⟩ := exists_first_round .sample
  obtain ⟨q, hkey, hstored⟩ := (hs.inv hrun).exists_keystroke hflow (.inr hidle) hempty 0x1e
  have hrun' := hrun.append (.single hkey)
  obtain ⟨es', s₂, htrace, -, hdone⟩ := keystrokes_taken hs hrun' hmouse rfl
    (by rw [History.of_append]; exact congrArg (fun m => (desktopAfter xga m).focused) hmoves)
  exact ⟨s, _, s₂, _, es', hs, hrun', hstored, htrace, hdone⟩

end System

end ROs
