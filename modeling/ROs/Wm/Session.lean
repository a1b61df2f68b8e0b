import ROs.Wm.Click
import ROs.Lib.Trace

/-!
# Sessions: the focus and the order of the windows

Runs of `create_window`, `focus_window` and `handle_mouse` from a new window manager.

A window without its pixels (`WmWindow.frame`) is what no redrawing changes, so the frames say
what happens to the order.  Every operation either keeps the focus and the list, appends a window,
or gives the focus to another window and moves it to the end (`WindowManager.FocusEffect`).

* `Session.Inv` : what holds in every state of a session: the windows are the created ones, with
  distinct ids, and the focus names one of them.
* `Session.Ready` : what makes calls succeed in every state of a session: the windows are valid
  and the cursor, where it is drawn, is on the screen.
* `click_raises` : a click on a window focuses and raises it, exactly if the hit test does not
  overflow and the window is not the focused one or is already the last.
-/

namespace ROs

variable [BasicFonts] {win win' : WmWindow} {windows windows' : List WmWindow}

namespace WmWindow

omit [BasicFonts] in
/-- The window without its pixels and its console. -/
def frame (win : WmWindow) : WmWindow := { win with buf := #[], console := none, dirty := false }

omit [BasicFonts] in
@[simp] theorem frame_id (win : WmWindow) : win.frame.id = win.id := rfl

omit [BasicFonts] in
@[simp] theorem frame_rect (win : WmWindow) : win.frame.rect = win.rect := rfl

omit [BasicFonts] in
theorem id_eq_of_frame_eq (h : win'.frame = win.frame) : win'.id = win.id := by
  rw [← frame_id, h, frame_id]

omit [BasicFonts] in
theorem rect_eq_of_frame_eq (h : win'.frame = win.frame) : win'.rect = win.rect := by
  rw [← frame_rect, h, frame_rect]

end WmWindow

namespace WindowManager

/-! ### Frames -/

omit [BasicFonts] in
/-- What related windows share, the lists share. -/
theorem map_eq_of_forall₂ {R : WmWindow → WmWindow → Prop} {A : Type*} {f : WmWindow → A}
    (h : List.Forall₂ R windows windows') (hR : ∀ win win', R win win' → f win' = f win) :
    windows'.map f = windows.map f := by
  induction h with
  | nil => rfl
  | cons hwin _ ih => rw [List.map_cons, List.map_cons, ih, hR _ _ hwin]

/-- Redrawing changes pixels only. -/
theorem map_frame_redraw {focused : Bool} {id : ℕ} (h : redraw focused id windows = some windows') :
    windows'.map WmWindow.frame = windows.map WmWindow.frame := by
  refine map_eq_of_forall₂ (forall₂_of_modifyWindow h) fun win win' hrel => ?_
  rcases hrel with rfl | ⟨-, hrel⟩
  · rfl
  · obtain ⟨win₁, hd, hrel⟩ := Option.bind_eq_some_iff.1 hrel
    obtain ⟨buf, rfl⟩ := WmWindow.drawChrome_eq_some hd
    cases hrel
    rfl

theorem map_frame_unfocus {focused : Option ℕ} (h : unfocus focused windows = some windows') :
    windows'.map WmWindow.frame = windows.map WmWindow.frame := by
  cases focused with
  | none =>
    cases h
    rfl
  | some oldId => exact map_frame_redraw h

omit [BasicFonts] in
/-- Raising a window is a matter of the frames. -/
theorem map_frame_bringToFront (id : ℕ) (windows : List WmWindow) :
    (bringToFront id windows).map WmWindow.frame =
      bringToFront id (windows.map WmWindow.frame) := by
  induction windows with
  | nil => rfl
  | cons win windows ih =>
    rw [List.map_cons, bringToFront, bringToFront]
    by_cases hid : win.id = id
    · rw [if_pos hid, if_pos (show win.frame.id = id from hid), List.map_append,
        List.map_singleton]
    · rw [if_neg hid, if_neg (show ¬ win.frame.id = id from hid), List.map_cons, ih]

omit [BasicFonts] in
/-- Among windows with distinct ids, one is moved to the end and the others keep their order. -/
theorem bringToFront_eq (hnodup : (windows.map WmWindow.id).Nodup) (hwin : win ∈ windows) :
    bringToFront win.id windows = (windows.filter fun w => w.id ≠ win.id) ++ [win] := by
  induction windows with
  | nil => cases hwin
  | cons first windows ih =>
    rw [List.map_cons, List.nodup_cons] at hnodup
    rw [bringToFront]
    by_cases hid : first.id = win.id
    · have hfirst : win = first := by
        rcases List.mem_cons.1 hwin with rfl | hmem
        · rfl
        · exact absurd (hid ▸ List.mem_map_of_mem hmem) hnodup.1
      subst hfirst
      have hothers : (windows.filter fun w => w.id ≠ win.id) = windows := by
        rw [List.filter_eq_self]
        intro w hw
        have : w.id ≠ win.id := fun heq => hnodup.1 (heq ▸ List.mem_map_of_mem hw)
        simpa using this
      rw [if_pos rfl, List.filter_cons, if_neg (by simp), hothers]
    · have hmem : win ∈ windows := by
        rcases List.mem_cons.1 hwin with rfl | hmem
        · exact absurd rfl hid
        · exact hmem
      rw [if_neg hid, ih hnodup.2 hmem, List.filter_cons, if_pos (by simpa using hid)]
      rfl

/-! ### What the operations do to the focus -/

/-- What an operation does to the focus and to the list of windows. -/
inductive FocusEffect (wm wm' : WindowManager) : Prop
  | keep (windows : wm'.windows = wm.windows) (focused : wm'.focused = wm.focused)
  /-- The focus goes to another window, which is moved to the end. -/
  | move {win : WmWindow} {redrawn : List WmWindow} (mem : win ∈ wm.windows)
      (change : wm.focused ≠ some win.id) (focused : wm'.focused = some win.id)
      (unfocus : unfocus wm.focused wm.windows = some redrawn)
      (redraw : redraw true win.id (bringToFront win.id redrawn) = some wm'.windows)

/-- **`focus_window`** has no effect on the window that has the focus, and moves every other. -/
theorem focusEffect_of_focusWindow {wm wm' : WindowManager} (hwin : win ∈ wm.windows)
    (h : wm.focusWindow win.id = some wm') :
    FocusEffect wm wm' ∧ wm'.focused = some win.id ∧
      (wm.focused = some win.id → wm'.windows = wm.windows) := by
  unfold focusWindow at h
  split at h
  · rename_i hfocus
    cases h
    exact ⟨.keep rfl rfl, hfocus, fun _ => rfl⟩
  · rename_i hchange
    obtain ⟨redrawn, hunfocus, h⟩ := Option.bind_eq_some_iff.1 h
    obtain ⟨windows, hredraw, h⟩ := Option.bind_eq_some_iff.1 h
    cases h
    exact ⟨.move hwin hchange rfl hunfocus hredraw, rfl, fun hfocus => absurd hfocus hchange⟩

namespace FocusEffect

variable {wm wm' wm₁ wm₁' : WindowManager} {redrawn : List WmWindow}

/-- The effect depends on the windows and the focus only. -/
theorem congr (h : FocusEffect wm₁ wm₁') (hwindows : wm₁.windows = wm.windows)
    (hfocused : wm₁.focused = wm.focused) (hwindows' : wm'.windows = wm₁'.windows)
    (hfocused' : wm'.focused = wm₁'.focused) : FocusEffect wm wm' := by
  cases h with
  | keep windows focused =>
    exact .keep (hwindows'.trans (windows.trans hwindows)) (hfocused'.trans (focused.trans hfocused))
  | move mem change focused unfocus redraw =>
    rw [hwindows] at mem unfocus
    rw [hfocused] at change unfocus
    exact .move mem change (hfocused'.trans focused) unfocus (hwindows' ▸ redraw)

/-- A move raises the frame of the window. -/
theorem map_frame (hunfocus : WindowManager.unfocus wm.focused wm.windows = some redrawn)
    (hredraw : WindowManager.redraw true win.id (bringToFront win.id redrawn) = some wm'.windows) :
    wm'.windows.map WmWindow.frame = bringToFront win.id (wm.windows.map WmWindow.frame) := by
  rw [map_frame_redraw hredraw, map_frame_bringToFront, map_frame_unfocus hunfocus]

/-- With distinct ids, the window that is moved is the last one and the others keep their order. -/
theorem map_frame_eq (hnodup : (wm.windows.map WmWindow.id).Nodup) {raised : WmWindow}
    (hmem : raised ∈ wm.windows) (hid : win.id = raised.id)
    (hunfocus : WindowManager.unfocus wm.focused wm.windows = some redrawn)
    (hredraw : WindowManager.redraw true win.id (bringToFront win.id redrawn) = some wm'.windows) :
    wm'.windows.map WmWindow.frame =
      ((wm.windows.map WmWindow.frame).filter fun w => w.id ≠ raised.id) ++ [raised.frame] := by
  have hids : ((wm.windows.map WmWindow.frame).map WmWindow.id).Nodup := by
    rw [List.map_map]
    exact hnodup
  have hframe : raised.frame ∈ wm.windows.map WmWindow.frame := List.mem_map_of_mem hmem
  rw [map_frame hunfocus hredraw, hid]
  exact bringToFront_eq hids hframe

end FocusEffect

omit [BasicFonts] in
/-- The taskbar sends a click to a window of the list. -/
theorem mem_of_labelAt {mx lx id : ℕ} (h : labelAt mx lx windows = some id) :
    ∃ win ∈ windows, win.id = id := by
  induction windows generalizing lx with
  | nil => cases h
  | cons first windows ih =>
    rw [labelAt] at h
    split at h
    · cases h
      exact ⟨first, List.mem_cons_self, rfl⟩
    · obtain ⟨win, hwin, hid⟩ := ih h
      exact ⟨win, List.mem_cons_of_mem _ hwin, hid⟩

/-- What a click does to the focus, by its target. -/
theorem focusEffect_of_dispatch {wm wm' : WindowManager} {p : ℕ × ℕ} {target : ClickTarget}
    (htarget : wm.clickTarget p = some target) (h : wm.dispatch target = some wm') :
    FocusEffect wm wm' := by
  cases target with
  | taskbar =>
    obtain ⟨wm₁, hclick, h⟩ := Option.bind_eq_some_iff.1 h
    cases h
    rw [handleTaskbarClick_eq] at hclick
    cases hlabel : labelAt (asUsize wm.cursor.x) LABELS_X wm.windows with
    | none =>
      rw [hlabel] at hclick
      cases hclick
      exact .keep rfl rfl
    | some id =>
      rw [hlabel] at hclick
      obtain ⟨win, hwin, rfl⟩ := mem_of_labelAt hlabel
      exact (focusEffect_of_focusWindow hwin hclick).1.congr rfl rfl rfl rfl
  | window id =>
    obtain ⟨-, -, htop⟩ := clickTarget_eq_window.1 htarget
    obtain ⟨win, hwin, rfl⟩ := Option.map_eq_some_iff.1 htop
    exact (focusEffect_of_focusWindow (mem_of_topmost hwin) h).1
  | nothing =>
    cases h
    exact .keep rfl rfl

/-- **What a mouse event does to the focus**: the cursor moves, and a left click is dispatched to
its target. -/
theorem handleMouse_dispatch {wm wm' : WindowManager} {event : MouseEvent} {fb fb' : Buf}
    {info : FrameBufferInfo} (h : wm.handleMouse event fb info = some (wm', fb')) :
    ∃ cursor, wm.cursor.applyDelta event.dx event.dy = some cursor ∧
      wm'.cursor.x = cursor.x ∧ wm'.cursor.y = cursor.y ∧ wm'.nextId = wm.nextId ∧
      wm'.screenInfo = wm.screenInfo ∧
      ((event.left = false ∧ wm'.windows = wm.windows ∧ wm'.focused = wm.focused) ∨
        event.left = true ∧ ∃ target wm₁,
          wm.clickTarget (asUsize cursor.x, asUsize cursor.y) = some target ∧
          ({ wm with cursor } : WindowManager).dispatch target = some wm₁ ∧
          wm'.windows = wm₁.windows ∧ wm'.focused = wm₁.focused) := by
  obtain ⟨fb₁, hrestore, h⟩ := Option.bind_eq_some_iff.1 h
  obtain ⟨cursor, hdelta, h⟩ := Option.bind_eq_some_iff.1 h
  obtain ⟨wm₁, hclick, h⟩ := Option.bind_eq_some_iff.1 h
  refine ⟨cursor, hdelta, ?_⟩
  -- drawing the cursor at its new place changes neither the list nor the focus
  have hdraw : wm'.cursor.x = wm₁.cursor.x ∧ wm'.cursor.y = wm₁.cursor.y ∧
      wm'.nextId = wm₁.nextId ∧ wm'.screenInfo = wm₁.screenInfo ∧ wm'.windows = wm₁.windows ∧
      wm'.focused = wm₁.focused := by
    split at h
    · cases h
      exact ⟨rfl, rfl, rfl, rfl, rfl, rfl⟩
    · obtain ⟨cursor', hsave, h⟩ := Option.bind_eq_some_iff.1 h
      obtain ⟨fb₂, -, h⟩ := Option.bind_eq_some_iff.1 h
      obtain ⟨savedBg, rfl⟩ := CursorState.saveBackground_eq_some hsave
      cases h
      exact ⟨rfl, rfl, rfl, rfl, rfl, rfl⟩
  obtain ⟨hx, hy, hnext, hscreen, hwindows, hfocused⟩ := hdraw
  rw [hx, hy, hnext, hscreen, hwindows, hfocused]
  cases hleft : event.left with
  | false =>
    simp only [hleft, Bool.false_eq_true, if_false] at hclick
    cases hclick
    exact ⟨rfl, rfl, rfl, rfl, .inl ⟨rfl, rfl, rfl⟩⟩
  | true =>
    simp only [hleft, if_true] at hclick
    have hsame := handleClick_eq_some hclick
    rw [handleClick_eq] at hclick
    obtain ⟨target, htarget, hdispatch⟩ := Option.bind_eq_some_iff.1 hclick
    have hright : wm₁.cursor = cursor ∧ wm₁.nextId = wm.nextId ∧
        wm₁.screenInfo = wm.screenInfo := by
      rcases hsame with rfl | ⟨windows, focused, -, rfl⟩ <;> exact ⟨rfl, rfl, rfl⟩
    obtain ⟨hcursor, hnext₁, hscreen₁⟩ := hright
    rw [hcursor, hnext₁, hscreen₁]
    exact ⟨rfl, rfl, rfl, rfl, .inr ⟨rfl, target, wm₁, htarget, hdispatch, rfl, rfl⟩⟩

end WindowManager

/-! ### Sessions -/

/-- The calls of a session. -/
inductive WmCall where
  | createWindow (x y width height : UInt64) (title : String) (ownerTask : UInt64)
  | focusWindow (id : ℕ)
  | handleMouse (event : MouseEvent) (fbBuf : Buf) (fbInfo : FrameBufferInfo)

/-- A window manager, and the frames of the windows created so far. -/
structure Session where
  wm : WindowManager
  created : List WmWindow

namespace Session

variable {screen : FrameBufferInfo} {s s' : Session} {call : WmCall} {calls : List WmCall}

/-- One call.  Only ids that `create_window` has returned are given the focus. -/
inductive Step : Session → WmCall → Session → Prop
  | createWindow {s : Session} {x y width height ownerTask : UInt64} {title : String}
      {wm' : WindowManager} {id : ℕ} :
      s.wm.createWindow x.toNat y.toNat width.toNat height.toNat title ownerTask.toNat =
        some (wm', id) →
      Step s (.createWindow x y width height title ownerTask)
        ⟨wm', s.created ++
          [(s.wm.newWindow x.toNat y.toNat width.toNat height.toNat title ownerTask.toNat).frame]⟩
  | focusWindow {s : Session} {frame : WmWindow} {wm' : WindowManager} :
      frame ∈ s.created → s.wm.focusWindow frame.id = some wm' →
      Step s (.focusWindow frame.id) ⟨wm', s.created⟩
  | handleMouse {s : Session} {event : MouseEvent} {fb fb' : Buf} {info : FrameBufferInfo}
      {wm' : WindowManager} :
      s.wm.handleMouse event fb info = some (wm', fb') →
      Step s (.handleMouse event fb info) ⟨wm', s.created⟩

/-- What holds of the windows and the focus in every state of a session. -/
structure Inv (screen : FrameBufferInfo) (s : Session) : Prop where
  screen_eq : s.wm.screenInfo = screen
  perm : (s.wm.windows.map WmWindow.frame).Perm s.created
  nodup : (s.wm.windows.map WmWindow.id).Nodup
  fresh : ∀ win ∈ s.wm.windows, win.id < s.wm.nextId
  focused_eq_none : s.wm.focused = none ↔ s.wm.windows = []
  focused_mem : ∀ id, s.wm.focused = some id → ∃ win ∈ s.wm.windows, win.id = id

omit [BasicFonts] in
theorem inv_new {wm : WindowManager} (h : WindowManager.new screen = some wm) :
    Inv screen ⟨wm, []⟩ := by
  obtain ⟨bufSize, -, h⟩ := Option.bind_eq_some_iff.1 h
  obtain ⟨bgCache, -, h⟩ := Option.bind_eq_some_iff.1 h
  cases h
  exact ⟨rfl, .nil, .nil, nofun, ⟨fun _ => rfl, fun _ => rfl⟩, nofun⟩

/-- What a call does to the windows and the focus. -/
inductive Effect (s s' : Session) : Prop
  | create {win frame : WmWindow}
      (draw : frame.drawChrome (s.wm.focused = none ∨ s.wm.focused = some s.wm.nextId) = some win)
      (valid : frame.Valid s.wm.screenInfo) (zero : frame.buf = Array.replicate frame.buf.size 0)
      (id : frame.id = s.wm.nextId) (nextId : s'.wm.nextId = s.wm.nextId + 1)
      (windows : s'.wm.windows = s.wm.windows ++ [win])
      (focused : s'.wm.focused = if s.wm.focused = none then some s.wm.nextId else s.wm.focused)
      (created : s'.created = s.created ++ [frame.frame])
      (screen : s'.wm.screenInfo = s.wm.screenInfo)
  | focus (effect : WindowManager.FocusEffect s.wm s'.wm) (nextId : s'.wm.nextId = s.wm.nextId)
      (created : s'.created = s.created) (screen : s'.wm.screenInfo = s.wm.screenInfo)

/-- **What a call does.** -/
theorem Step.effect (hinv : Inv screen s) (h : Step s call s') : Effect s s' := by
  cases h with
  | createWindow h =>
    obtain ⟨-, hsize, win, hdraw, rfl⟩ := WindowManager.createWindow_draws h
    have hvalid := WindowManager.valid_newWindow (Nat.le_pred_of_lt (UInt64.toNat_lt _))
      (Nat.le_pred_of_lt (UInt64.toNat_lt _)) hsize
    exact .create hdraw (hvalid _ _ _ _) (by simp [WindowManager.newWindow]) rfl rfl rfl rfl rfl rfl
  | focusWindow hmem h =>
    -- the windows are the created ones, so the id names one of them
    obtain ⟨win, hwin, rfl⟩ := List.mem_map.1 (hinv.perm.mem_iff.2 hmem)
    have heffect := (WindowManager.focusEffect_of_focusWindow hwin h).1
    rcases WindowManager.focusWindow_eq_some h with rfl | ⟨windows, -, rfl⟩
    · exact .focus heffect rfl rfl rfl
    · exact .focus heffect rfl rfl rfl
  | handleMouse h =>
    obtain ⟨cursor, -, -, -, hnext, hscreen, hcases⟩ := WindowManager.handleMouse_dispatch h
    rcases hcases with ⟨-, hwindows, hfocused⟩ | ⟨-, target, wm₁, htarget, hdispatch, hw, hf⟩
    · exact .focus (.keep hwindows hfocused) hnext rfl hscreen
    · have htarget' : ({ s.wm with cursor } : WindowManager).clickTarget _ = some target := htarget
      have heffect := WindowManager.focusEffect_of_dispatch htarget' hdispatch
      exact .focus (heffect.congr rfl rfl hw hf) hnext rfl hscreen

omit [BasicFonts] in
/-- The windows before a call are there after it, up to their pixels. -/
theorem exists_frame_mem (h : (s'.wm.windows.map WmWindow.frame).Perm
    (s.wm.windows.map WmWindow.frame)) (hwin : win ∈ s.wm.windows) :
    ∃ win' ∈ s'.wm.windows, win'.frame = win.frame :=
  List.mem_map.1 (h.mem_iff.2 (List.mem_map_of_mem hwin))

/-- **Every call keeps the invariant.** -/
theorem Inv.step (hinv : Inv screen s) (h : Step s call s') : Inv screen s' := by
  cases h.effect hinv with
  | @create win frame draw valid zero id nextId windows focused created screen =>
    obtain ⟨buf, rfl⟩ := WmWindow.drawChrome_eq_some draw
    have hfresh : ∀ w ∈ s.wm.windows, w.id ≠ frame.id := fun w hw =>
      id ▸ Nat.ne_of_lt (hinv.fresh w hw)
    refine ⟨screen.trans hinv.screen_eq, ?_, ?_, ?_, ?_, ?_⟩
    · rw [windows, created, List.map_append]
      exact hinv.perm.append (.refl _)
    · rw [windows, List.map_append, List.nodup_append]
      refine ⟨hinv.nodup, List.nodup_singleton _, fun i hi j hj => ?_⟩
      obtain ⟨w, hw, rfl⟩ := List.mem_map.1 hi
      rw [List.mem_singleton.1 hj]
      exact hfresh w hw
    · intro w hw
      rw [windows, List.mem_append, List.mem_singleton] at hw
      rw [nextId]
      rcases hw with hw | rfl
      · exact Nat.lt_succ_of_lt (hinv.fresh w hw)
      · exact id ▸ Nat.lt_succ_self _
    · rw [focused, windows]
      split <;> simp [*]
    · intro i hi
      rw [focused] at hi
      rw [windows]
      split at hi
      · cases hi
        exact ⟨_, List.mem_append_right _ (List.mem_singleton.2 rfl), id⟩
      · obtain ⟨w, hw, hid⟩ := hinv.focused_mem i hi
        exact ⟨w, List.mem_append_left _ hw, hid⟩
  | focus effect nextId created screen =>
    cases effect with
    | keep windows focused =>
      exact ⟨screen.trans hinv.screen_eq, by rw [windows, created]; exact hinv.perm,
        windows ▸ hinv.nodup, by rw [windows, nextId]; exact hinv.fresh,
        by rw [windows, focused]; exact hinv.focused_eq_none,
        by rw [windows, focused]; exact hinv.focused_mem⟩
    | @move win redrawn mem change focused unfocus redraw =>
      have hperm : (s'.wm.windows.map WmWindow.frame).Perm (s.wm.windows.map WmWindow.frame) := by
        rw [WindowManager.FocusEffect.map_frame unfocus redraw]
        exact WindowManager.bringToFront_perm _ _
      have hids := hperm.map WmWindow.id
      simp only [List.map_map] at hids
      obtain ⟨win', hwin', hframe⟩ := exists_frame_mem hperm mem
      refine ⟨screen.trans hinv.screen_eq, created ▸ hperm.trans hinv.perm,
        (hids.nodup_iff).2 hinv.nodup, fun w hw => ?_, ?_, fun i hi => ?_⟩
      · obtain ⟨w', hw', hid⟩ := List.mem_map.1 (hids.mem_iff.1 (List.mem_map_of_mem hw))
        change w'.id = w.id at hid
        rw [nextId, ← hid]
        exact hinv.fresh w' hw'
      · rw [focused]
        constructor
        · intro h
          cases h
        · intro h
          rw [h] at hwin'
          cases hwin'
      · rw [focused] at hi
        cases hi
        exact ⟨win', hwin', WmWindow.id_eq_of_frame_eq hframe⟩

/-- **The invariant holds in every state of a session.** -/
theorem Inv.of_trace {wm : WindowManager} (hnew : WindowManager.new screen = some wm)
    (h : Trace Step ⟨wm, []⟩ calls s) : Inv screen s :=
  h.invariant (fun _ _ _ hinv hst => hinv.step hst) (inv_new hnew)

/-! ### Calls that succeed -/

/-- The windows and the cursor are as the drawing functions need them. -/
structure Ready (screen : FrameBufferInfo) (s : Session) : Prop where
  valid : ∀ win ∈ s.wm.windows, win.Valid screen
  width_lt : s.wm.cursor.screenWidth < 2 ^ 31
  height_lt : s.wm.cursor.screenHeight < 2 ^ 31
  inside : s.wm.cursor.visible = true → s.wm.cursor.Inside

omit [BasicFonts] in
theorem ready_new {wm : WindowManager} (h : WindowManager.new screen = some wm) :
    Ready screen ⟨wm, []⟩ := by
  obtain ⟨hwindows, -, -, -, hcursor, -⟩ := WindowManager.new_eq_some h
  refine ⟨?_, ?_, ?_, ?_⟩
  · intro win hwin
    rw [show (Session.mk wm []).wm.windows = [] from hwindows] at hwin
    cases hwin
  · rw [hcursor]
    exact asI32_lt _
  · rw [hcursor]
    exact asI32_lt _
  · intro hvisible
    rw [hcursor] at hvisible
    cases hvisible

/-- Every call keeps the session ready. -/
theorem Ready.step (hf : screen.FormatFits) (hinv : Inv screen s) (hready : Ready screen s)
    (h : Step s call s') : Ready screen s' := by
  obtain ⟨hvalid, hwidth, hheight, hinside⟩ := hready
  have hredrawn : ∀ windows, WmWindow.Redrawn s.wm.windows windows →
      ∀ win ∈ windows, win.Valid screen := fun _ hw =>
    hw _ (WmWindow.chromeStable_valid hf) hvalid
  cases h with
  | createWindow h =>
    obtain ⟨win, -, -, hwin, rfl⟩ := WindowManager.createWindow_eq_some (hinv.screen_eq ▸ hf)
      (Nat.le_pred_of_lt (UInt64.toNat_lt _)) (Nat.le_pred_of_lt (UInt64.toNat_lt _)) h
    refine ⟨fun w hw => ?_, hwidth, hheight, hinside⟩
    rcases List.mem_append.1 hw with hw | hw
    · exact hvalid w hw
    · rw [List.mem_singleton.1 hw]
      exact hinv.screen_eq ▸ hwin
  | focusWindow hmem h =>
    rcases WindowManager.focusWindow_eq_some h with rfl | ⟨windows, hw, rfl⟩
    · exact ⟨hvalid, hwidth, hheight, hinside⟩
    · exact ⟨hredrawn windows hw, hwidth, hheight, hinside⟩
  | handleMouse h =>
    obtain ⟨fb₁, cursor, -, hdelta, hcases⟩ := WindowManager.handleMouse_eq_some h
    obtain ⟨hin, -⟩ := CursorState.applyDelta_eq_some hwidth hheight hdelta
    rcases hcases with ⟨windows, focused, hw, -, rfl⟩ | ⟨-, cursor', hsave, -, rfl⟩
    · exact ⟨hredrawn windows hw, hin.width_lt, hin.height_lt, fun _ => hin⟩
    · obtain ⟨savedBg, rfl⟩ := CursorState.saveBackground_eq_some hsave
      exact ⟨hvalid, hin.width_lt, hin.height_lt, fun _ =>
        ⟨hin.x_nonneg, hin.x_lt, hin.y_nonneg, hin.y_lt, hin.width_lt, hin.height_lt⟩⟩

/-- Every state of a session is ready. -/
theorem Ready.of_trace (hf : screen.FormatFits) {wm : WindowManager}
    (hnew : WindowManager.new screen = some wm) (h : Trace Step ⟨wm, []⟩ calls s) :
    Ready screen s :=
  (h.invariant (I := fun s => Inv screen s ∧ Ready screen s)
    (fun _ _ _ hs hst => ⟨hs.1.step hst, hs.2.step hf hs.1 hst⟩) ⟨inv_new hnew, ready_new hnew⟩).2

/-- Where the pointer is. -/
def pointer (wm : WindowManager) : ℕ × ℕ := (asUsize wm.cursor.x, asUsize wm.cursor.y)

/-- **A click on a window succeeds** exactly if the hit test does not overflow. -/
theorem Ready.click_iff (hf : screen.FormatFits) (hready : Ready screen s)
    {info : FrameBufferInfo} (hinfo : info.Fits) {event : MouseEvent} {cursor : CursorState}
    (hcursor : s.wm.cursor.applyDelta event.dx event.dy = some cursor) (hleft : event.left = true)
    (habove : (pointer { s.wm with cursor }).2 < s.wm.screenInfo.height - s.wm.taskbarHeight)
    (htop : topmost s.wm.windows (pointer { s.wm with cursor }) = some win) (fb : Buf) :
    (∃ wm' fb', s.wm.handleMouse event fb info = some (wm', fb')) ↔
      Testable (pointer { s.wm with cursor }) s.wm.windows.reverse := by
  obtain ⟨hin, -⟩ := CursorState.applyDelta_eq_some hready.width_lt hready.height_lt hcursor
  constructor
  · rintro ⟨wm', fb', h⟩
    obtain ⟨cursor', hdelta, -, -, -, -, hcases⟩ := WindowManager.handleMouse_dispatch h
    cases hcursor.symm.trans hdelta
    rcases hcases with ⟨hright, -⟩ | ⟨-, target, wm₁, htarget, -⟩
    · rw [hleft] at hright
      cases hright
    · cases WindowManager.eq_window_of_clickTarget habove htop htarget
      exact (WindowManager.clickTarget_eq_window.1 htarget).2.1
  · intro htest
    have htarget : ({ s.wm with cursor } : WindowManager).clickTarget
        (pointer { s.wm with cursor }) = some (.window win.id) :=
      WindowManager.clickTarget_eq_window.2 ⟨habove, htest, by
        rw [show topmost ({ s.wm with cursor } : WindowManager).windows _ = some win from htop]
        rfl⟩
    have hfits : ∀ w ∈ ({ s.wm with cursor } : WindowManager).windows, w.bufInfo.Fits :=
      fun w hw => (hready.valid w hw).fits hf
    obtain ⟨wm₁, hfocus⟩ := WindowManager.exists_focusWindow hfits win.id
    have hclick : ({ s.wm with cursor } : WindowManager).handleClick = some wm₁ := by
      rw [WindowManager.handleClick_eq]
      exact Option.bind_eq_some_iff.2 ⟨_, htarget, hfocus⟩
    obtain ⟨wm', fb', h, -⟩ := WindowManager.exists_handleMouse_of_click hinfo
      (fun hvisible => (hready.inside hvisible).addressable) hcursor hin.addressable
      (fun _ => ⟨wm₁, hclick⟩) fb
    exact ⟨wm', fb', h⟩

/-! ### Raising windows -/

/-- After `wm` became `wm'`, the topmost window at the point has the focus and is the last of the
list, and the others are in the order they had. -/
def Raised (wm wm' : WindowManager) (p : ℕ × ℕ) : Prop :=
  ∃ win', topmost wm'.windows p = some win' ∧ wm'.focused = some win'.id ∧
    wm'.windows.getLast? = some win' ∧
    ((wm'.windows.map WmWindow.frame).filter fun w => w.id ≠ win'.id) =
      (wm.windows.map WmWindow.frame).filter fun w => w.id ≠ win'.id

omit [BasicFonts] in
/-- A window that is moved to the end is raised. -/
theorem raised_of_frames {wm wm' : WindowManager} {p : ℕ × ℕ} (hin : win.rect.Contains p)
    (hfocused : wm'.focused = some win.id)
    (hframes : wm'.windows.map WmWindow.frame =
      ((wm.windows.map WmWindow.frame).filter fun w => w.id ≠ win.id) ++ [win.frame]) :
    Raised wm wm' p := by
  obtain ⟨front, back, hwindows, -, hback⟩ := List.map_eq_append_iff.1 hframes
  obtain ⟨win', rest, rfl, hframe, hrest⟩ := List.map_eq_cons_iff.1 hback
  cases List.map_eq_nil_iff.1 hrest
  have hid := WmWindow.id_eq_of_frame_eq hframe
  refine ⟨win', ?_, by rw [hid]; exact hfocused, by rw [hwindows, List.getLast?_concat], ?_⟩
  · rw [hwindows]
    exact topmost_concat (by rw [WmWindow.rect_eq_of_frame_eq hframe]; exact hin)
  · rw [hframes, hid, List.filter_append, List.filter_filter, List.filter_cons]
    simp

/-- A click on a window raises it, unless it has the focus but is not the last of the list. -/
theorem raised_iff (hinv : Inv screen s) {event : MouseEvent} {fb fb' : Buf}
    {info : FrameBufferInfo} {wm' : WindowManager}
    (h : s.wm.handleMouse event fb info = some (wm', fb')) (hleft : event.left = true)
    (habove : (pointer wm').2 < s.wm.screenInfo.height - s.wm.taskbarHeight)
    (htop : topmost s.wm.windows (pointer wm') = some win) :
    Raised s.wm wm' (pointer wm') ↔
      s.wm.focused ≠ some win.id ∨ s.wm.windows.getLast? = some win := by
  obtain ⟨cursor, -, hx, hy, -, -, hcases⟩ := WindowManager.handleMouse_dispatch h
  rcases hcases with ⟨hright, -⟩ | ⟨-, target, wm₁, htarget, hdispatch, hwindows, hfocused⟩
  · rw [hleft] at hright
    cases hright
  rw [← hx, ← hy] at htarget
  cases WindowManager.eq_window_of_clickTarget habove htop htarget
  have hfocus : ({ s.wm with cursor } : WindowManager).focusWindow win.id = some wm₁ := hdispatch
  have hmem : win ∈ ({ s.wm with cursor } : WindowManager).windows := mem_of_topmost htop
  obtain ⟨heffect, hnew, hsame⟩ := WindowManager.focusEffect_of_focusWindow hmem hfocus
  by_cases hhas : s.wm.focused = some win.id
  · -- the early return: nothing is moved
    have hwin : wm'.windows = s.wm.windows := hwindows.trans (hsame hhas)
    constructor
    · rintro ⟨win', htop', -, hlast, -⟩
      rw [hwin] at htop' hlast
      cases htop.symm.trans htop'
      exact .inr hlast
    · rintro (hne | hlast)
      · exact absurd hhas hne
      · exact ⟨win, by rw [hwin]; exact htop, hfocused.trans hnew, by rw [hwin]; exact hlast,
          by rw [hwin]⟩
  · refine iff_of_true ?_ (.inl hhas)
    have hraised : Raised s.wm wm₁ (pointer wm') := by
      cases heffect with
      | keep _ focused => exact absurd (focused.symm.trans hnew) hhas
      | @move win' redrawn mem change focused unfocus redraw =>
        have hid : win'.id = win.id := Option.some.inj (focused.symm.trans hnew)
        exact raised_of_frames (contains_of_topmost htop) hnew
          (WindowManager.FocusEffect.map_frame_eq hinv.nodup hmem hid unfocus redraw)
    obtain ⟨win', htop', hfocus', hlast, hothers⟩ := hraised
    exact ⟨win', hwindows ▸ htop', hfocused.trans hfocus', hwindows ▸ hlast, hwindows ▸ hothers⟩

end Session

/-! ### Two overlapping windows -/

namespace TwoWindows

/-- A screen of 8 by 40 pixels. -/
def screen : FrameBufferInfo := ⟨8, 40, .rgb, 3, 8⟩

omit [BasicFonts] in
theorem fits_screen : screen.Fits :=
  .of_le (by decide) (Nat.le_refl 3) (by decide) (by decide) (by decide)

/-- A window, and another one over the right half of it. -/
def calls : List WmCall :=
  [.createWindow 0 0 8 12 "" 0, .createWindow 4 0 4 12 "" 0]

/-- A small window can be created. -/
theorem exists_create {wm : WindowManager} (hscreen : wm.screenInfo = screen) {width height : ℕ}
    (hw : width ≤ 8) (hh : height ≤ 12) (x y : ℕ) : ∃ wm' win,
      wm.createWindow x y width height "" 0 = some (wm', wm.nextId) ∧ win.id = wm.nextId ∧
      win.rect = ⟨x, y, width, height⟩ ∧ win.Valid screen ∧ wm' = { wm with
        nextId := wm.nextId + 1
        windows := wm.windows ++ [win]
        focused := if wm.focused = none then some wm.nextId else wm.focused
        needsComposite := true } := by
  have hf : wm.screenInfo.FormatFits := hscreen ▸ fits_screen.formatFits
  have hsize : width * height * wm.screenInfo.bytesPerPixel ≤ USIZE_MAX := by
    rw [hscreen]
    calc width * height * 3 ≤ 8 * 12 * 3 := Nat.mul_le_mul_right _ (Nat.mul_le_mul hw hh)
      _ ≤ USIZE_MAX := by decide
  have hw' : width ≤ USIZE_MAX := Nat.le_trans hw (by decide)
  have hh' : height ≤ USIZE_MAX := Nat.le_trans hh (by decide)
  obtain ⟨wm', id, hcreate⟩ := wm.exists_createWindow x y width height "" 0 hf hw' hh' hsize
  obtain ⟨win, hid, hrect, hvalid, hwm⟩ :=
    WindowManager.createWindow_eq_some hf hw' hh' hcreate
  cases (WindowManager.createWindow_draws hcreate).1
  exact ⟨wm', win, hcreate, hid, hrect, hscreen ▸ hvalid, hwm⟩

/-- Both windows can be created; the lower one has the focus. -/
theorem exists_session : ∃ wm₀ s win₀ win₁, WindowManager.new screen = some wm₀ ∧
    Trace Session.Step ⟨wm₀, []⟩ calls s ∧ s.wm.windows = [win₀, win₁] ∧ win₀.id = 0 ∧
    win₀.rect = ⟨0, 0, 8, 12⟩ ∧ win₁.rect = ⟨4, 0, 4, 12⟩ ∧ win₁.id = 1 ∧
    win₀.Valid screen ∧ win₁.Valid screen ∧ s.wm.focused = some 0 ∧ s.wm.screenInfo = screen ∧
    s.wm.cursor = CursorState.new 8 40 := by
  obtain ⟨wm₀, hnew⟩ := WindowManager.exists_new fits_screen (by decide) (by decide)
  obtain ⟨hwindows, hnext, hscreen, -, hcursor, -, -⟩ := WindowManager.new_eq_some hnew
  have hnone : wm₀.focused = none := (Session.inv_new hnew).focused_eq_none.2 hwindows
  obtain ⟨wm₁, win₀, hcreate₀, hid₀, hrect₀, hvalid₀, hwm₁⟩ :=
    exists_create hscreen (Nat.le_refl 8) (Nat.le_refl 12) 0 0
  obtain ⟨wm₂, win₁, hcreate₁, hid₁, hrect₁, hvalid₁, hwm₂⟩ :=
    @exists_create _ wm₁ (by rw [hwm₁]; exact hscreen) 4 12 (by decide) (Nat.le_refl 12) 4 0
  refine ⟨wm₀, ⟨wm₂, _⟩, win₀, win₁, hnew,
    .cons (.createWindow hcreate₀) (.single (.createWindow hcreate₁)), ?_, ?_, hrect₀, hrect₁, ?_,
    hvalid₀, hvalid₁, ?_, ?_, ?_⟩
  · rw [hwm₂, hwm₁, hwindows]
    rfl
  · rw [hid₀, hnext]
  · rw [hid₁, hwm₁, hnext]
  · rw [hwm₂, hwm₁, hnone, hnext]
    rfl
  · rw [hwm₂, hwm₁]
    exact hscreen
  · rw [hwm₂, hwm₁]
    exact hcursor

omit [BasicFonts] in
/-- Both windows end within `usize`. -/
theorem ends_le {s : Session} {win₀ win₁ : WmWindow} (hwindows : s.wm.windows = [win₀, win₁])
    (hrect₀ : win₀.rect = ⟨0, 0, 8, 12⟩) (hrect₁ : win₁.rect = ⟨4, 0, 4, 12⟩) :
    ∀ win ∈ s.wm.windows, win.x + win.width ≤ USIZE_MAX ∧ win.y + win.height ≤ USIZE_MAX := by
  simp only [WmWindow.rect, Rect.mk.injEq] at hrect₀ hrect₁
  rw [hwindows]
  simp only [List.mem_cons, List.not_mem_nil, or_false, forall_eq_or_imp, forall_eq, USIZE_MAX]
  omega

/-- A click 15 lines above the middle of the screen succeeds. -/
theorem exists_click {s : Session} {win₀ win₁ : WmWindow} (hwindows : s.wm.windows = [win₀, win₁])
    (hrect₀ : win₀.rect = ⟨0, 0, 8, 12⟩) (hrect₁ : win₁.rect = ⟨4, 0, 4, 12⟩)
    (hvalid₀ : win₀.Valid screen) (hvalid₁ : win₁.Valid screen)
    (hcursor : s.wm.cursor = CursorState.new 8 40) {dx : Int16} {cursor : CursorState}
    (hdelta : (CursorState.new 8 40).applyDelta dx 15 = some cursor) :
    ∃ wm' fb', s.wm.handleMouse ⟨dx, 15, true, false, false⟩ #[] screen = some (wm', fb') ∧
      Session.pointer wm' = (asUsize cursor.x, asUsize cursor.y) := by
  have hfits : ∀ win ∈ s.wm.windows, win.bufInfo.Fits := by
    rw [hwindows]
    simp only [List.mem_cons, List.not_mem_nil, or_false, forall_eq_or_imp, forall_eq]
    exact ⟨hvalid₀.fits fits_screen.formatFits, hvalid₁.fits fits_screen.formatFits⟩
  have hrect := ends_le hwindows hrect₀ hrect₁
  obtain ⟨wm', fb', hmouse, -⟩ := WindowManager.exists_handleMouse fits_screen
    (by rw [hcursor]; exact ⟨by decide, by decide, by decide, by decide, by decide, by decide⟩)
    (by rw [hcursor]; decide) (by rw [hcursor]; decide) hfits hrect
    ⟨dx, 15, true, false, false⟩ #[]
  obtain ⟨cursor', hdelta', hx, hy, -⟩ := WindowManager.handleMouse_dispatch hmouse
  rw [hcursor] at hdelta'
  cases hdelta.symm.trans hdelta'
  exact ⟨wm', fb', hmouse, by rw [Session.pointer, hx, hy]⟩

end TwoWindows

/-- **A click focuses and raises the window it hits** exactly if the hit test does not overflow
before it finds the window, and this is not the one that has the focus or is already the last of the
list: `focus_window` returns early for the focused window, and `create_window` puts windows over it
without giving them the focus. -/
theorem click_raises {screen : FrameBufferInfo} (hf : screen.FormatFits) {wm₀ : WindowManager}
    {calls : List WmCall} {s : Session} (hnew : WindowManager.new screen = some wm₀)
    (hrun : Trace Session.Step ⟨wm₀, []⟩ calls s) {info : FrameBufferInfo} (hinfo : info.Fits)
    {event : MouseEvent} {cursor : CursorState}
    (hcursor : s.wm.cursor.applyDelta event.dx event.dy = some cursor) (hleft : event.left = true)
    (habove : (Session.pointer { s.wm with cursor }).2 <
      s.wm.screenInfo.height - s.wm.taskbarHeight)
    (htop : topmost s.wm.windows (Session.pointer { s.wm with cursor }) = some win) (fb : Buf) :
    (∃ wm' fb', s.wm.handleMouse event fb info = some (wm', fb') ∧
        Session.pointer wm' = Session.pointer { s.wm with cursor } ∧
        Session.Raised s.wm wm' (Session.pointer wm')) ↔
      Testable (Session.pointer { s.wm with cursor }) s.wm.windows.reverse ∧
        (s.wm.focused ≠ some win.id ∨ s.wm.windows.getLast? = some win) := by
  have hinv := Session.Inv.of_trace hnew hrun
  have hclick := (Session.Ready.of_trace hf hnew hrun).click_iff hf hinfo hcursor hleft habove htop fb
  have hpointer : ∀ wm' fb', s.wm.handleMouse event fb info = some (wm', fb') →
      Session.pointer wm' = Session.pointer { s.wm with cursor } := by
    intro wm' fb' h
    obtain ⟨cursor', hdelta, hx, hy, -⟩ := WindowManager.handleMouse_dispatch h
    cases hcursor.symm.trans hdelta
    rw [Session.pointer, hx, hy]
    rfl
  have hraised : ∀ wm' fb', s.wm.handleMouse event fb info = some (wm', fb') →
      (Session.Raised s.wm wm' (Session.pointer wm') ↔
        s.wm.focused ≠ some win.id ∨ s.wm.windows.getLast? = some win) := by
    intro wm' fb' h
    rw [← hpointer wm' fb' h] at habove htop
    exact Session.raised_iff hinv h hleft habove htop
  constructor
  · rintro ⟨wm', fb', h, -, hup⟩
    exact ⟨hclick.1 ⟨wm', fb', h⟩, (hraised wm' fb' h).1 hup⟩
  · rintro ⟨htest, hwin⟩
    obtain ⟨wm', fb', h⟩ := hclick.2 htest
    exact ⟨wm', fb', h, hpointer wm' fb' h, (hraised wm' fb' h).2 hwin⟩

omit [BasicFonts] in
theorem click_raises_twoWindows :
    let _ := BasicFonts.sample
    ∃ wm₀ s wm' fb', WindowManager.new TwoWindows.screen = some wm₀ ∧
      Trace Session.Step ⟨wm₀, []⟩ TwoWindows.calls s ∧
      s.wm.handleMouse ⟨2, 15, true, false, false⟩ #[] TwoWindows.screen = some (wm', fb') ∧
      Session.pointer wm' = (6, 5) ∧ Session.Raised s.wm wm' (Session.pointer wm') := by
  intro _
  obtain ⟨wm₀, s, win₀, win₁, hnew, hrun, hwindows, hid₀, hrect₀, hrect₁, hid₁, hvalid₀, hvalid₁,
    hfocused, hscreen, hcursor⟩ := TwoWindows.exists_session
  have hdelta : s.wm.cursor.applyDelta (MouseEvent.mk 2 15 true false false).dx
      (MouseEvent.mk 2 15 true false false).dy =
        some { CursorState.new 8 40 with x := 6, y := 5 } := by
    rw [hcursor]
    rfl
  have htop : topmost s.wm.windows (6, 5) = some win₁ := by
    rw [hwindows]
    exact show topmost ([win₀] ++ [win₁]) _ = _ from topmost_concat (by rw [hrect₁]; decide)
  have htest : Testable (6, 5) s.wm.windows.reverse := by
    refine testable_of_forall fun win hwin => ?_
    exact TwoWindows.ends_le hwindows hrect₀ hrect₁ win (List.mem_reverse.1 hwin)
  have habove : 5 < s.wm.screenInfo.height - s.wm.taskbarHeight := by
    rw [hscreen, s.wm.taskbarHeight_eq]
    decide
  obtain ⟨wm', fb', hmouse, hpointer, hraised⟩ := (click_raises TwoWindows.fits_screen.formatFits hnew
    hrun TwoWindows.fits_screen hdelta rfl habove htop #[]).2
    ⟨htest, .inl (by rw [hfocused, hid₁]; decide)⟩
  exact ⟨wm₀, s, wm', fb', hnew, hrun, hmouse, hpointer, hraised⟩

omit [BasicFonts] in
/-- A click on the part of the lower window that can be seen leaves it under the other one: it has
had the focus since it was created. -/
theorem click_raises_covered :
    let _ := BasicFonts.sample
    ∃ wm₀ s win wm' fb', WindowManager.new TwoWindows.screen = some wm₀ ∧
      Trace Session.Step ⟨wm₀, []⟩ TwoWindows.calls s ∧
      s.wm.handleMouse ⟨-3, 15, true, false, false⟩ #[] TwoWindows.screen = some (wm', fb') ∧
      (Session.pointer wm').2 < s.wm.screenInfo.height - s.wm.taskbarHeight ∧
      topmost s.wm.windows (Session.pointer wm') = some win ∧
      ¬ Session.Raised s.wm wm' (Session.pointer wm') := by
  intro _
  obtain ⟨wm₀, s, win₀, win₁, hnew, hrun, hwindows, hid₀, hrect₀, hrect₁, hid₁, hvalid₀, hvalid₁,
    hfocused, hscreen, hcursor⟩ := TwoWindows.exists_session
  have hdelta : (CursorState.new 8 40).applyDelta (-3) 15 =
      some { CursorState.new 8 40 with x := 1, y := 5 } := rfl
  obtain ⟨wm', fb', hmouse, hpointer⟩ :=
    TwoWindows.exists_click hwindows hrect₀ hrect₁ hvalid₀ hvalid₁ hcursor hdelta
  have habove : (Session.pointer wm').2 < s.wm.screenInfo.height - s.wm.taskbarHeight := by
    rw [hscreen, s.wm.taskbarHeight_eq, hpointer]
    decide
  have htop : topmost s.wm.windows (Session.pointer wm') = some win₀ := by
    have hin₀ : win₀.rect.Contains (1, 5) := by rw [hrect₀]; decide
    have hout₁ : ¬ win₁.rect.Contains (1, 5) := by rw [hrect₁]; decide
    rw [hwindows, hpointer]
    change [win₁, win₀].find? (fun win => win.rect.Contains (1, 5)) = some win₀
    simp [hin₀, hout₁]
  refine ⟨wm₀, s, win₀, wm', fb', hnew, hrun, hmouse, habove, htop, fun hraised => ?_⟩
  rcases (Session.raised_iff (.of_trace hnew hrun) hmouse rfl habove htop).1 hraised with
    hne | hlast
  · exact hne (by rw [hfocused, hid₀])
  · rw [hwindows] at hlast
    have hid := congrArg (Option.map WmWindow.id) hlast
    simp [hid₀, hid₁] at hid

end ROs
