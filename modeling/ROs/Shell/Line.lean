import ROs.Framebuffer.Format
import ROs.Wm.Statics
import Mathlib.Data.List.DropRight

/-!
# The shell

The line editor and the commands of `shell.rs`.  The shell works on its line and on the console of
its window, which it reaches through the functions of `wm.rs` only.  A function of the shell is
modelled by the calls it makes, in order, and by what it returns (`Shell`); `Shell.perform` makes
the calls.

* `Shell.handleChar`, `Shell.execute` : one character, one command line.
* `Shell.handleKey` : what the loop of the task does with a key.
-/

namespace ROs

abbrev MAX_LINE : ℕ := 256

abbrev PROMPT : String := "r-os> "

abbrev HEAP_SIZE : UInt64 := 8 * 1024 * 1024

/-- Why a function of the shell does not return. -/
inductive Stop where
  | halt
  | panic
  deriving Repr, DecidableEq

/-- The functions of the window manager that are called, and the value returned. -/
structure Shell (α : Type) where
  calls : List Statics.Op
  result : Except Stop α

/-- The line being edited: `line_buf` and `line_len`. -/
structure Line where
  buf : Vector UInt8 MAX_LINE
  len : ℕ
  deriving DecidableEq

/-- `DecodedKey`, of which the shell ignores the raw keys. -/
inductive DecodedKey where
  | unicode (c : Char)
  | rawKey
  deriving Repr, DecidableEq

/-! ### Strings -/

/-- `format_u64`. -/
def formatU64 (buf : Buf) (val : UInt64) : Option (Buf × ℕ) :=
  if val = 0 then do
    some (← buf.store 0 '0'.toUInt8, 1)
  else do
    let digits ← decimalDigits 20 val
    some (← buf.storeAll 0 digits.reverse, digits.length)

/-- `char::is_whitespace`: the characters with the Unicode property `White_Space`. -/
def isWhitespace (c : Char) : Bool :=
  let n := c.toNat
  (0x9 ≤ n ∧ n ≤ 0xD) ∨ n ∈ [0x20, 0x85, 0xA0, 0x1680, 0x2028, 0x2029, 0x202F, 0x205F, 0x3000] ∨
    (0x2000 ≤ n ∧ n ≤ 0x200A)

/-- `str::trim`. -/
def trim (s : List Char) : List Char :=
  (s.dropWhile isWhitespace).rdropWhile isWhitespace

/-- `char::is_ascii`. -/
def isAscii (c : Char) : Bool := c.toNat ≤ 0x7F

/-- `char::is_ascii_control`. -/
def isAsciiControl (c : Char) : Bool := c.toNat ≤ 0x1F ∨ c.toNat = 0x7F

namespace Line

/-- The line of a shell that starts. -/
def empty : Line := ⟨Vector.replicate MAX_LINE 0, 0⟩

/-- `from_utf8(&buf[..len]).unwrap_or("")`; the slice panics when the array is too short. -/
def command (line : Line) : Option String := do
  let bytes ← Buf.slice line.buf.toArray 0 line.len
  some ((String.fromUTF8? ⟨bytes⟩).getD "")

/-- The characters of `buf[..len]`. -/
def text (line : Line) : List Char := (line.buf.toList.take line.len).map Char.ofUInt8

end Line

namespace Shell

instance : Monad Shell where
  pure a := ⟨[], .ok a⟩
  bind x f :=
    match x.result with
    | .ok a => ⟨x.calls ++ (f a).calls, (f a).result⟩
    | .error stop => ⟨x.calls, .error stop⟩

/-- A call of the window manager. -/
def call (op : Statics.Op) : Shell Unit := ⟨[op], .ok ()⟩

/-- Not to return. -/
def stop {α : Type} (why : Stop) : Shell α := ⟨[], .error why⟩

/-- A value, the lack of which is a panic. -/
def orPanic {α : Type} : Option α → Shell α
  | some a => pure a
  | none => stop .panic

/-- The calls are made. -/
def perform [BasicFonts] {α : Type} (x : Shell α) (st : Statics) : Option Statics :=
  x.calls.foldlM Statics.perform st

/-! ### The commands -/

/-- `print_prompt`. -/
def printPrompt (winId : UInt64) : Shell Unit := call (.consoleWrite winId PROMPT)

/-- `cmd_help`. -/
def cmdHelp (winId : UInt64) : Shell Unit := do
  call (.consoleWrite winId "Available commands:\n")
  call (.consoleWrite winId "  help  - Show this help\n")
  call (.consoleWrite winId "  echo  - Print arguments\n")
  call (.consoleWrite winId "  clear - Clear screen\n")
  call (.consoleWrite winId "  meminfo - Heap info\n")
  call (.consoleWrite winId "  halt  - Halt CPU\n")

/-- `cmd_echo`. -/
def cmdEcho (winId : UInt64) (args : List Char) : Shell Unit := do
  call (.consoleWrite winId (String.ofList args))
  call (.consoleWrite winId "\n")

/-- `cmd_clear`. -/
def cmdClear (winId : UInt64) : Shell Unit := call (.consoleClear winId)

/-- `cmd_meminfo`. -/
def cmdMeminfo (winId : UInt64) : Shell Unit := do
  call (.consoleWrite winId "Heap: 0x4444_4444_0000\n")
  let sizeKb := HEAP_SIZE / 1024
  let (buf, len) ← orPanic (formatU64 (Array.replicate 24 0) sizeKb)
  call (.consoleWrite winId "Size: ")
  let bytes ← orPanic (buf.slice 0 len)
  call (.consoleWrite winId ((String.fromUTF8? ⟨bytes⟩).getD "?"))
  call (.consoleWrite winId " KiB\n")

/-- `cmd_halt`. -/
def cmdHalt : Shell Unit := stop .halt

/-- `execute`. -/
def execute (winId : UInt64) (cmd : List Char) : Shell Unit :=
  let cmd := trim cmd
  let (command, args) :=
    match cmd.findIdx? (· = ' ') with
    | some pos => (cmd.take pos, trim (cmd.drop (pos + 1)))
    | none => (cmd, [])
  match String.ofList command with
  | "help" => cmdHelp winId
  | "echo" => cmdEcho winId args
  | "clear" => cmdClear winId
  | "meminfo" => cmdMeminfo winId
  | "halt" => cmdHalt
  | command => do
    call (.consoleWrite winId "Unknown command: '")
    call (.consoleWrite winId command)
    call (.consoleWrite winId "'\n")

/-! ### The line editor -/

/-- `handle_char`. -/
def handleChar (winId : UInt64) (c : Char) (line : Line) : Shell Line :=
  if c = '\n' ∨ c = '\r' then do
    call (.consoleWrite winId "\n")
    let cmd ← orPanic line.command
    if cmd ≠ "" then execute winId cmd.toList
    printPrompt winId
    return { line with len := 0 }
  else if c = '\x08' ∨ c = '\x7f' then
    if line.len > 0 then do
      call (.consoleWrite winId "\x08 \x08")
      return { line with len := line.len - 1 }
    else
      return line
  else if isAscii c ∧ ¬ isAsciiControl c then
    if h : line.len < MAX_LINE then do
      call (.consoleWrite winId (String.singleton c))
      return { buf := line.buf.set line.len c.toUInt8, len := line.len + 1 }
    else
      return line
  else
    return line

/-- The part of `task_main` before its loop. -/
def start (winId : UInt64) : Shell Line := do
  call (.consoleWrite winId "Welcome to r-os shell.\nType 'help' for commands.\n\n")
  printPrompt winId
  call (.consoleShowCursor winId)
  return Line.empty

/-- What the loop of `task_main` does with a key. -/
def handleKey (winId : UInt64) (key : DecodedKey) (line : Line) : Shell Line := do
  call (.consoleHideCursor winId)
  let line ←
    match key with
    | .unicode c => handleChar winId c line
    | .rawKey => pure line
  call (.consoleShowCursor winId)
  call (.markDirty winId)
  return line

end Shell

/-! ### The text of a line -/

namespace Line

variable {line : Line}

theorem length_text (h : line.len ≤ MAX_LINE) : line.text.length = line.len := by
  rw [text, List.length_map, List.length_take, Vector.length_toList]
  omega

/-- An ASCII character is stored and read back. -/
theorem ofUInt8_toUInt8 {c : Char} (hc : isAscii c = true) : Char.ofUInt8 c.toUInt8 = c := by
  have hle : c.val.toNat ≤ 0x7F := by simpa [isAscii] using hc
  apply Char.ext
  apply UInt32.toNat_inj.1
  change c.val.toUInt8.toUInt32.toNat = c.val.toNat
  rw [UInt8.toNat_toUInt32, UInt32.toNat_toUInt8]
  omega

/-- The character typed is the last one of the line. -/
theorem text_set {c : Char} (hc : isAscii c = true) (h : line.len < MAX_LINE) :
    (Line.mk (line.buf.set line.len c.toUInt8) (line.len + 1)).text = line.text ++ [c] := by
  rw [text, text, Vector.toList_set, List.take_add_one, List.take_set, List.getElem?_set_self,
    List.map_append, List.set_eq_of_length_le]
  · simp [ofUInt8_toUInt8 hc]
  · rw [List.length_take]
    exact Nat.min_le_left _ _
  · rw [Vector.length_toList]
    exact h

/-- A shorter line has lost its last character. -/
theorem exists_text_eq (hpos : 0 < line.len) (h : line.len ≤ MAX_LINE) :
    ∃ c, line.text = { line with len := line.len - 1 }.text ++ [c] := by
  have hlt : line.len - 1 < line.buf.toList.length := by
    rw [Vector.length_toList]
    omega
  refine ⟨Char.ofUInt8 line.buf.toList[line.len - 1], ?_⟩
  rw [text, text, ← List.map_singleton, ← List.map_append, List.take_append_getElem hlt,
    Nat.sub_add_cancel hpos]

end Line

end ROs
