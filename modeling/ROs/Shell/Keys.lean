import ROs.Shell.Echo
import ROs.Shell.Net

/-!
# The shell under any keys

What the shell does with a key, Enter and the commands it runs included, is to hide the cursor, to
write texts without a carriage return on its own console or to clear it (`Shell.TextCalls`), and to
show the cursor again, unless the command halts (`Shell.handleKey_of_edit`,
`Shell.handleKey_of_error`).
So the calls of a key may be made whether the cursor is drawn or not (`Shell.disciplined_handleKey`),
and after them it is drawn (`Shell.showsCursor_handleKey`).

`Editor.press` is the editor for every key.
-/

namespace ROs

/-- A call that may be made for the console of the window while its cursor is hidden. -/
def Statics.Op.IsText (winId : UInt64) : Statics.Op → Prop
  | .consoleWrite id s => id = winId ∧ '\r' ∉ s.toList
  | .consoleClear id => id = winId
  | _ => False

namespace Statics

variable {winId : UInt64} {op : Op} {ops : List Op}

theorem Op.IsText.onConsole (h : op.IsText winId) : op.onConsole winId = true := by
  cases op with
  | consoleWrite id s => exact decide_eq_true h.1
  | consoleClear id => exact decide_eq_true h
  | _ => exact h.elim

/-- Texts may be written before anything that is allowed while the cursor is hidden. -/
theorem disciplined_append_of_isText (h : ∀ op ∈ ops, op.IsText winId) {rest : List Console.Op}
    (hrest : Console.Disciplined false rest) :
    Console.Disciplined false (ops.flatMap Op.console ++ rest) := by
  induction ops with
  | nil => exact hrest
  | cons op ops ih =>
    rw [List.forall_mem_cons] at h
    cases op with
    | consoleWrite id s => exact ⟨rfl, h.1.2, ih h.2⟩
    | consoleClear id => exact ⟨rfl, ih h.2⟩
    | _ => exact h.1.elim

/-- Texts do not draw the cursor. -/
theorem showsCursor_of_isText (h : ∀ op ∈ ops, op.IsText winId) :
    (ops.flatMap Op.console).foldl (fun _ op => op.showsCursor) false = false := by
  induction ops with
  | nil => rfl
  | cons op ops ih =>
    rw [List.forall_mem_cons] at h
    cases op with
    | consoleWrite id s => exact ih h.2
    | consoleClear id => exact ih h.2
    | _ => exact h.1.elim

end Statics

namespace Shell

open Statics

variable {α β : Type} {winId : UInt64} {x : Shell α} {key : DecodedKey} {line line' : Line}
  {c : Char} {cmd : List Char}

/-! ### The texts -/

/-- All calls are texts on the console of the window. -/
def TextCalls (winId : UInt64) (x : Shell α) : Prop := ∀ op ∈ x.calls, op.IsText winId

theorem textCalls_pure (winId : UInt64) (a : α) : TextCalls winId (pure a) := nofun

theorem textCalls_stop (winId : UInt64) (why : Stop) : TextCalls winId (stop why : Shell α) := nofun

theorem textCalls_write {s : String} (hs : '\r' ∉ s.toList) :
    TextCalls winId (call (.consoleWrite winId s)) := by
  intro op hop
  rw [List.mem_singleton.1 hop]
  exact ⟨rfl, hs⟩

theorem textCalls_bind {f : α → Shell β} (hx : TextCalls winId x)
    (hf : ∀ a, x.result = .ok a → TextCalls winId (f a)) : TextCalls winId (x >>= f) := by
  obtain ⟨calls, result⟩ := x
  cases result with
  | error stop => exact hx
  | ok a =>
    intro op hop
    rcases List.mem_append.1 hop with hop | hop
    · exact hx op hop
    · exact hf a rfl op hop

theorem textCalls_printPrompt (winId : UInt64) : TextCalls winId (printPrompt winId) :=
  textCalls_write (by decide)

theorem textCalls_cmdHelp (winId : UInt64) : TextCalls winId (cmdHelp winId) :=
  textCalls_bind (textCalls_write (by decide)) fun _ _ =>
    textCalls_bind (textCalls_write (by decide)) fun _ _ =>
      textCalls_bind (textCalls_write (by decide)) fun _ _ =>
        textCalls_bind (textCalls_write (by decide)) fun _ _ =>
          textCalls_bind (textCalls_write (by decide)) fun _ _ => textCalls_write (by decide)

theorem textCalls_cmdEcho {args : List Char} (hargs : '\r' ∉ args) :
    TextCalls winId (cmdEcho winId args) := by
  refine textCalls_bind (textCalls_write ?_) fun _ _ => textCalls_write (by decide)
  rwa [String.toList_ofList]

theorem cmdMeminfo_calls (winId : UInt64) : (cmdMeminfo winId).calls =
    ["Heap: 0x4444_4444_0000\n", "Size: ", "8192", " KiB\n"].map (.consoleWrite winId) := rfl

theorem textCalls_cmdMeminfo (winId : UInt64) : TextCalls winId (cmdMeminfo winId) := by
  intro op hop
  rw [cmdMeminfo_calls] at hop
  obtain ⟨s, hs, rfl⟩ := List.mem_map.1 hop
  refine ⟨rfl, ?_⟩
  clear hop
  revert s
  decide

theorem mem_of_mem_trim {s : List Char} (h : c ∈ trim s) : c ∈ s :=
  (List.dropWhile_sublist _).subset ((List.rdropWhile_prefix _ _).subset h)

/-- **A command writes texts only.** -/
theorem textCalls_execute (hcmd : '\r' ∉ cmd) : TextCalls winId (execute winId cmd) := by
  have htrim : '\r' ∉ trim cmd := fun h => hcmd (mem_of_mem_trim h)
  unfold execute
  extract_lets cmd'
  split
  rename_i command args hsplit
  have hparts : '\r' ∉ command ∧ '\r' ∉ args := by
    split at hsplit
    · cases hsplit
      exact ⟨fun h => htrim (List.mem_of_mem_take h),
        fun h => htrim (List.mem_of_mem_drop (mem_of_mem_trim h))⟩
    · cases hsplit
      exact ⟨htrim, List.not_mem_nil⟩
  split
  · exact textCalls_cmdHelp winId
  · exact textCalls_cmdEcho hparts.2
  · intro op hop
    rw [List.mem_singleton.1 hop]
    exact rfl
  · exact textCalls_cmdMeminfo winId
  · exact textCalls_stop winId .halt
  · refine textCalls_bind (textCalls_write (by decide)) fun _ _ =>
      textCalls_bind (textCalls_write ?_) fun _ _ => textCalls_write (by decide)
    rw [String.toList_ofList]
    exact hparts.1

/-- **So does a character.** -/
theorem textCalls_handleChar (winId : UInt64) (hline : line.Printable) (c : Char) :
    TextCalls winId (handleChar winId c line) := by
  by_cases hc : IsEnter c
  · have hreturn : '\r' ∉ line.text := fun h =>
      absurd ((Line.printable_iff.1 hline).2 _ h) (by decide)
    rw [handleChar_enter hc hline, enter]
    have hrest : TextCalls winId (printPrompt winId >>= fun _ => pure { line with len := 0 }) :=
      textCalls_bind (textCalls_printPrompt winId) fun _ _ => textCalls_pure winId _
    refine textCalls_bind (textCalls_write (by decide)) fun _ _ => ?_
    by_cases htext : line.text ≠ []
    · rw [if_pos htext]
      exact textCalls_bind (textCalls_execute hreturn) fun _ _ => hrest
    · rw [if_neg htext]
      exact hrest
  · obtain ⟨hn, hr⟩ := not_or.1 hc
    rcases handleChar_cases winId line hn hr with ⟨-, -, heq⟩ | ⟨-, hlen, heq⟩ | ⟨-, -, heq⟩
    · rw [heq]
      exact textCalls_write (by decide)
    · rw [heq]
      exact textCalls_write (by simpa using Ne.symm hr)
    · rw [heq]
      intro op hop
      cases hop

/-! ### A key -/

/-- What the loop does with a key while the cursor is hidden. -/
def edit (winId : UInt64) (key : DecodedKey) (line : Line) : Shell Line :=
  match key with
  | .unicode c => handleChar winId c line
  | .rawKey => pure line

theorem textCalls_edit (winId : UInt64) (hline : line.Printable) (key : DecodedKey) :
    TextCalls winId (edit winId key line) := by
  cases key with
  | unicode c => exact textCalls_handleChar winId hline c
  | rawKey => exact textCalls_pure winId line

theorem handleKey_eq (winId : UInt64) (key : DecodedKey) (line : Line) :
    handleKey winId key line = (call (.consoleHideCursor winId) >>= fun _ =>
      edit winId key line >>= fun line => call (.consoleShowCursor winId) >>= fun _ =>
        call (.markDirty winId) >>= fun _ => pure line) := by
  cases key <;> rfl

/-- A key that the shell returns from. -/
theorem handleKey_of_edit (h : (edit winId key line).result = .ok line') :
    handleKey winId key line = ⟨.consoleHideCursor winId :: ((edit winId key line).calls ++
      [.consoleShowCursor winId, .markDirty winId]), .ok line'⟩ := by
  rw [handleKey_eq]
  generalize edit winId key line = x at h
  obtain ⟨calls, result⟩ := x
  cases h
  rfl

/-- A key that the shell does not return from. -/
theorem handleKey_of_error {why : Stop} (h : (edit winId key line).result = .error why) :
    handleKey winId key line =
      ⟨.consoleHideCursor winId :: (edit winId key line).calls, .error why⟩ := by
  rw [handleKey_eq]
  generalize edit winId key line = x at h
  obtain ⟨calls, result⟩ := x
  cases h
  rfl

/-- A key keeps the line printable, or halts. -/
theorem edit_result (winId : UInt64) (hline : line.Printable) (key : DecodedKey) :
    (∃ line', (edit winId key line).result = .ok line' ∧ line'.Printable) ∨
      (edit winId key line).result = .error .halt := by
  cases key with
  | unicode c =>
    rcases handleChar_result winId hline c with ⟨line', h, hline', -⟩ | h
    · exact .inl ⟨line', h, hline'⟩
    · exact .inr h
  | rawKey => exact .inl ⟨line, rfl, hline⟩

theorem handleKey_result (winId : UInt64) (hline : line.Printable) (key : DecodedKey) :
    (∃ line', (handleKey winId key line).result = .ok line' ∧ line'.Printable) ∨
      (handleKey winId key line).result = .error .halt := by
  rcases edit_result winId hline key with ⟨line', h, hline'⟩ | h
  · exact .inl ⟨line', by rw [handleKey_of_edit h], hline'⟩
  · exact .inr (by rw [handleKey_of_error h])

/-- Only Enter stops the shell. -/
theorem enter_of_error {why : Stop} (h : (handleKey winId key line).result = .error why) :
    ∃ c, key = .unicode c ∧ IsEnter c := by
  cases key with
  | unicode c =>
    refine ⟨c, rfl, ?_⟩
    by_contra hc
    obtain ⟨hn, hr⟩ := not_or.1 hc
    obtain ⟨line', hedit⟩ : ∃ line', (edit winId (.unicode c) line).result = .ok line' := by
      rcases handleChar_cases winId line hn hr with ⟨-, -, heq⟩ | ⟨-, hlen, heq⟩ | ⟨-, -, heq⟩
      · exact ⟨_, congrArg Shell.result heq⟩
      · exact ⟨_, congrArg Shell.result heq⟩
      · exact ⟨_, congrArg Shell.result heq⟩
    rw [handleKey_of_edit hedit] at h
    cases h
  | rawKey =>
    have hedit : (edit winId .rawKey line).result = .ok line := rfl
    rw [handleKey_of_edit hedit] at h
    cases h

/-- **The calls of a key are for the console of the window.** -/
theorem onConsole_handleKey (winId : UInt64) (hline : line.Printable) (key : DecodedKey) :
    ∀ op ∈ (handleKey winId key line).calls, op.onConsole winId = true := by
  have htext : ∀ op ∈ (edit winId key line).calls, op.onConsole winId = true := fun op hop =>
    (textCalls_edit winId hline key op hop).onConsole
  rcases edit_result winId hline key with ⟨line', h, -⟩ | h
  · rw [handleKey_of_edit h]
    refine List.forall_mem_cons.2 ⟨decide_eq_true rfl, List.forall_mem_append.2 ⟨htext, ?_⟩⟩
    simp [Op.onConsole]
  · rw [handleKey_of_error h]
    exact List.forall_mem_cons.2 ⟨decide_eq_true rfl, htext⟩

/-- **They may be made whether the cursor is drawn or not.** -/
theorem disciplined_handleKey (winId : UInt64) (hline : line.Printable) (key : DecodedKey)
    (shown : Bool) :
    Console.Disciplined shown ((handleKey winId key line).calls.flatMap Op.console) := by
  have htext := textCalls_edit winId hline key
  rcases edit_result winId hline key with ⟨line', h, -⟩ | h
  · rw [handleKey_of_edit h, List.flatMap_cons, List.flatMap_append]
    have hshow : Console.Disciplined false
        ([Op.consoleShowCursor winId, .markDirty winId].flatMap Op.console) := trivial
    exact disciplined_append_of_isText htext hshow
  · rw [handleKey_of_error h, List.flatMap_cons]
    rw [← List.append_nil (List.flatMap _ _)]
    exact disciplined_append_of_isText htext trivial

/-- **After them the cursor is drawn.** -/
theorem showsCursor_handleKey (h : (handleKey winId key line).result = .ok line') (shown : Bool) :
    ((handleKey winId key line).calls.flatMap Op.console).foldl (fun _ op => op.showsCursor) shown =
      true := by
  cases hedit : (edit winId key line).result with
  | ok line₁ =>
    rw [handleKey_of_edit hedit, List.flatMap_cons, List.flatMap_append, List.foldl_append,
      List.foldl_append]
    rfl
  | error why =>
    rw [handleKey_of_error hedit] at h
    cases h

/-- What the shell writes when it starts. -/
theorem start_calls (winId : UInt64) : (start winId).calls =
    [.consoleWrite winId "Welcome to r-os shell.\nType 'help' for commands.\n\n",
      .consoleWrite winId PROMPT, .consoleShowCursor winId] := rfl

end Shell

/-! ### The editor -/

namespace Editor

variable {rows cols : ℕ}

/-- What any key does to the grid and to the line. -/
def press (winId : UInt64) (e : Editor rows cols) (key : DecodedKey) : Editor rows cols :=
  let x := Shell.handleKey winId key e.line
  ⟨x.onGrid e.grid, x.result.toOption.getD e.line⟩

/-- The editor of a shell that has started on the grid. -/
def start (winId : UInt64) (g : Grid rows cols) : Editor rows cols :=
  ⟨(Shell.start winId).onGrid g, Line.empty⟩

end Editor

end ROs
