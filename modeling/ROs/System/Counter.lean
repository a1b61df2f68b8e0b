import ROs.Shell.Decimal
import ROs.Shell.Keys

/-!
# The counter

The task of `counter.rs` writes the number of timer interrupts on the console of its window, once
16 of them have come since the last time.  Like the shell, it is modelled by the calls it makes of the
window manager (`Shell`); it writes texts only (`Counter.textCalls_redraw`).

* `Counter.onGrid_redraw` : **what it writes replaces everything that was shown by two decimal
  numbers**, that of the interrupts and that of the seconds.
-/

namespace ROs

namespace Counter

open Statics Shell Numeral

/-! ### The task -/

/-- The text that was formatted: `from_utf8(&buf[..len]).unwrap_or("?")`. -/
def decimal (val : UInt64) : Shell String := do
  let (buf, len) ← orPanic (Counter.formatU64 (Array.replicate 24 0) val)
  let bytes ← orPanic (buf.slice 0 len)
  return (String.fromUTF8? ⟨bytes⟩).getD "?"

/-- The part of `task_main` before its loop. -/
def start (winId : UInt64) : Shell Unit := do
  call (.consoleWrite winId "Tick Counter\n\n")
  call (.consoleWrite winId "This task runs in parallel\n")
  call (.consoleWrite winId "with the shell.\n\n")

/-- `ticks.wrapping_sub(last_displayed) >= 16`. -/
def due (ticks lastDisplayed : UInt64) : Bool := ticks - lastDisplayed ≥ 16

theorem due_self (ticks : UInt64) : due ticks ticks = false := by
  rw [due, UInt64.sub_self]
  decide

/-- What the loop of `task_main` does when it is due. -/
def redraw (winId : UInt64) (ticks : UInt64) : Shell Unit := do
  call (.consoleClear winId)
  call (.consoleWrite winId "Tick Counter\n\n")
  let s ← decimal ticks
  call (.consoleWrite winId "Ticks: ")
  call (.consoleWrite winId s)
  call (.consoleWrite winId "\n\n")
  let seconds := ticks / 18
  let s2 ← decimal seconds
  call (.consoleWrite winId "Uptime: ")
  call (.consoleWrite winId s2)
  call (.consoleWrite winId "s\n")
  call (.markDirty winId)

/-! ### Its texts -/

/-- The decimal number, as characters. -/
def digits (val : UInt64) : List Char :=
  (numeral 10 val.toNat).map fun d => Char.ofUInt8 (digitByte d)

variable {winId ticks : UInt64} {rows cols : ℕ}

theorem numeral_lt {v d : ℕ} (hd : d ∈ numeral 10 v) : d < 10 :=
  (canonical_numeral (by decide) v).digit_lt d hd

theorem forall_mem_digits {P : Char → Prop} (h : ∀ d < 10, P (Char.ofUInt8 (digitByte d)))
    (val : UInt64) : ∀ c ∈ digits val, P c := by
  intro c hc
  obtain ⟨d, hd, rfl⟩ := List.mem_map.1 hc
  exact h d (numeral_lt hd)

theorem return_not_mem_digits (val : UInt64) : '\r' ∉ digits val := fun h =>
  forall_mem_digits (P := fun c => c ≠ '\r') (by decide) val _ h rfl

/-- **A number is written in decimal**, without a panic. -/
theorem decimal_eq (val : UInt64) : decimal val = pure (String.ofList (digits val)) := by
  obtain ⟨ds, h⟩ := exists_decimal val
  obtain rfl : ds = numeral 10 val.toNat :=
    h.canonical.unique (canonical_numeral (by decide) _) (by decide)
      (h.value_eq.trans (value_numeral 10 _).symm)
  have hlen := h.length_le
  have hroom : 20 ≤ (Array.replicate 24 (0 : UInt8)).size := by rw [Array.size_replicate]; decide
  obtain ⟨buf, hformat, hwrites⟩ := h.formatU64 hroom
  have hslice := hwrites.slice (by rw [List.length_map, Array.size_replicate]; omega)
  rw [List.length_map] at hslice
  have hbytes : (digits val).utf8Encode = ⟨((numeral 10 val.toNat).map digitByte).toArray⟩ := by
    have hid : Char.toUInt8 ∘ (fun d => Char.ofUInt8 (digitByte d)) = digitByte :=
      funext fun d => Line.toUInt8_ofUInt8 (digitByte d)
    rw [Line.utf8Encode_of_ascii (forall_mem_digits (P := fun c => isAscii c = true) (by decide) val),
      digits, List.map_map, hid]
  rw [decimal, Counter.formatU64, hformat]
  change (orPanic (buf.slice 0 _) >>= fun bytes => pure ((String.fromUTF8? ⟨bytes⟩).getD "?")) = _
  rw [hslice]
  change (pure ((String.fromUTF8? ⟨((numeral 10 val.toNat).map digitByte).toArray⟩).getD "?") :
    Shell String) = _
  rw [← hbytes, String.fromUTF8?, dif_pos ByteArray.isValidUTF8_utf8Encode]
  rfl

/-- The texts of a redraw. -/
def texts (ticks : UInt64) : List String :=
  ["Tick Counter\n\n", "Ticks: ", String.ofList (digits ticks), "\n\n", "Uptime: ",
    String.ofList (digits (ticks / 18)), "s\n"]

/-- What the window shows after a redraw. -/
def text (ticks : UInt64) : List Char := (texts ticks).flatMap String.toList

/-- The texts before the first redraw. -/
def startTexts : List String :=
  ["Tick Counter\n\n", "This task runs in parallel\n", "with the shell.\n\n"]

theorem start_eq (winId : UInt64) :
    start winId = ⟨startTexts.map (.consoleWrite winId), .ok ()⟩ := rfl

theorem isText_start (winId : UInt64) : ∀ op ∈ (start winId).calls, op.IsText winId := by
  rw [start_eq]
  intro op hop
  obtain ⟨s, hs, rfl⟩ := List.mem_map.1 hop
  refine ⟨rfl, ?_⟩
  clear hop
  revert s
  decide

/-- **A redraw never panics**: it clears the console and writes its texts. -/
theorem redraw_eq (winId ticks : UInt64) : redraw winId ticks =
    ⟨.consoleClear winId :: ((texts ticks).map (.consoleWrite winId) ++ [.markDirty winId]),
      .ok ()⟩ := by
  simp only [redraw, decimal_eq]
  rfl

theorem return_not_mem_texts {s : String} (hs : s ∈ texts ticks) : '\r' ∉ s.toList := by
  simp only [texts, List.mem_cons, List.not_mem_nil, or_false] at hs
  rcases hs with rfl | rfl | rfl | rfl | rfl | rfl | rfl
  · decide
  · decide
  · rw [String.toList_ofList]
    exact return_not_mem_digits ticks
  · decide
  · decide
  · rw [String.toList_ofList]
    exact return_not_mem_digits (ticks / 18)
  · decide

/-- The calls of a redraw are for the console of the window. -/
theorem onConsole_redraw (winId ticks : UInt64) :
    ∀ op ∈ (redraw winId ticks).calls, op.onConsole winId = true := by
  rw [redraw_eq]
  refine List.forall_mem_cons.2 ⟨decide_eq_true rfl, List.forall_mem_append.2 ⟨?_, ?_⟩⟩
  · intro op hop
    obtain ⟨s, -, rfl⟩ := List.mem_map.1 hop
    exact decide_eq_true rfl
  · exact List.forall_mem_singleton.2 (decide_eq_true rfl)

theorem isText_redraw (winId ticks : UInt64) : ∀ op ∈ Op.consoleClear winId ::
    (texts ticks).map (.consoleWrite winId), op.IsText winId := by
  refine List.forall_mem_cons.2 ⟨rfl, ?_⟩
  intro op hop
  obtain ⟨s, hs, rfl⟩ := List.mem_map.1 hop
  exact ⟨rfl, return_not_mem_texts hs⟩

/-- They may be made as long as the cursor is not drawn, and do not draw it. -/
theorem disciplined_redraw (winId ticks : UInt64) :
    Console.Disciplined false ((redraw winId ticks).calls.flatMap Op.console) ∧
      ((redraw winId ticks).calls.flatMap Op.console).foldl (fun _ op => op.showsCursor) false =
        false := by
  rw [redraw_eq, ← List.cons_append, List.flatMap_append]
  refine ⟨disciplined_append_of_isText (isText_redraw winId ticks) trivial, ?_⟩
  rw [List.foldl_append, showsCursor_of_isText (isText_redraw winId ticks)]
  rfl

/-- **Everything that was shown is replaced by the two numbers.** -/
theorem onGrid_redraw (winId ticks : UInt64) (g : Grid rows cols) :
    (redraw winId ticks).onGrid g = (text ticks).foldl Grid.writeChar g.clear := by
  have hcalls : (redraw winId ticks).calls.flatMap Op.console =
      .clear :: (texts ticks).map .writeStr := by
    rw [redraw_eq]
    rfl
  rw [onGrid, hcalls, List.foldl_cons, text, List.foldl_flatMap, List.foldl_map]
  rfl

end Counter

end ROs
