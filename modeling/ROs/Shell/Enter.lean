import ROs.Shell.Line

/-!
# One character of the shell

`Shell.handleChar_cases` says what a character other than Enter does to the line.  What Enter runs
is a part of an array of bytes: as long as the bytes are printable ASCII characters, they are valid
UTF-8 and Enter runs the text of the line (`Shell.handleChar_enter`).  White space around the text is
trimmed before the command is looked up, but only after the line was found not to be empty.

* `Shell.enter_spaces_iff` : **spaces around the text make no difference to what Enter does, unless
  there is nothing else on the line.**
-/

namespace ROs

/-- The characters that are put on the line: 0x20 to 0x7E. -/
def AsciiPrintable (c : Char) : Prop := isAscii c = true ∧ ¬ isAsciiControl c = true

instance : DecidablePred AsciiPrintable := fun _ => inferInstanceAs (Decidable (_ ∧ _))

theorem asciiPrintable_iff {c : Char} : AsciiPrintable c ↔ 0x20 ≤ c.toNat ∧ c.toNat ≤ 0x7E := by
  simp only [AsciiPrintable, isAscii, isAsciiControl, decide_eq_true_eq]
  omega

/-- The keys that take a character away. -/
def Erases (c : Char) : Prop := c = '\x08' ∨ c = '\x7f'

instance : DecidablePred Erases := fun _ => inferInstanceAs (Decidable (_ ∨ _))

namespace Line

variable {line : Line}

/-- The line holds printable ASCII characters. -/
structure Printable (line : Line) : Prop where
  len_le : line.len ≤ MAX_LINE
  bytes : ∀ b ∈ line.buf.toList.take line.len, 0x20 ≤ b.toNat ∧ b.toNat ≤ 0x7E

theorem toNat_ofUInt8 (b : UInt8) : (Char.ofUInt8 b).toNat = b.toNat := by
  change b.toUInt32.toNat = b.toNat
  exact UInt8.toNat_toUInt32 b

theorem toUInt8_ofUInt8 (b : UInt8) : (Char.ofUInt8 b).toUInt8 = b := by
  apply UInt8.toNat_inj.1
  have hb := b.toNat_lt
  have hc := toNat_ofUInt8 b
  change (Char.ofUInt8 b).val.toNat = b.toNat at hc
  change (Char.ofUInt8 b).val.toUInt8.toNat = b.toNat
  rw [UInt32.toNat_toUInt8, hc]
  omega

/-- The same, as a property of the text. -/
theorem printable_iff :
    line.Printable ↔ line.len ≤ MAX_LINE ∧ ∀ c ∈ line.text, AsciiPrintable c := by
  have htext : (∀ c ∈ line.text, AsciiPrintable c) ↔
      ∀ b ∈ line.buf.toList.take line.len, 0x20 ≤ b.toNat ∧ b.toNat ≤ 0x7E := by
    simp only [text, List.forall_mem_map, asciiPrintable_iff, toNat_ofUInt8]
  rw [htext]
  exact ⟨fun h => ⟨h.len_le, h.bytes⟩, fun h => ⟨h.1, h.2⟩⟩

/-- An ASCII character is its own UTF-8 encoding. -/
theorem utf8Encode_of_ascii {cs : List Char} (h : ∀ c ∈ cs, isAscii c = true) :
    cs.utf8Encode = ⟨(cs.map Char.toUInt8).toArray⟩ := by
  induction cs with
  | nil => rfl
  | cons c cs ih =>
    rw [List.forall_mem_cons] at h
    have hc : c.utf8Size = 1 := by
      have hle : c.val.toNat ≤ 0x7F := by simpa [isAscii] using h.1
      exact Char.utf8Size_eq_one_iff.2 hle
    rw [List.utf8Encode_cons, List.utf8Encode_singleton, ih h.2,
      String.utf8EncodeChar_eq_singleton hc]
    apply ByteArray.ext
    simp

/-- **Enter runs the text of a printable line**: its bytes are valid UTF-8. -/
theorem Printable.exists_bytes (h : line.Printable) :
    ∃ bytes, Buf.slice line.buf.toArray 0 line.len = some bytes ∧
      String.fromUTF8? ⟨bytes⟩ = some (String.ofList line.text) := by
  have hlen : line.len ≤ line.buf.toArray.size := by
    rw [Vector.size_toArray]
    exact h.len_le
  refine ⟨_, Buf.slice_of_le (Nat.zero_le _) hlen, ?_⟩
  have hascii : ∀ c ∈ line.text, isAscii c = true := fun c hc => ((printable_iff.1 h).2 c hc).1
  have hbytes : line.text.utf8Encode = ⟨line.buf.toArray.extract 0 line.len⟩ := by
    rw [utf8Encode_of_ascii hascii, text, List.map_map]
    congr 1
    apply Array.toList_inj.1
    have hid : Char.toUInt8 ∘ Char.ofUInt8 = id := funext toUInt8_ofUInt8
    rw [hid, List.map_id, Array.toList_extract, List.extract_eq_take_drop, Nat.sub_zero,
      List.drop_zero]
    rfl
  rw [← hbytes, String.fromUTF8?, dif_pos ByteArray.isValidUTF8_utf8Encode]
  rfl

theorem Printable.command_eq (h : line.Printable) :
    line.command = some (String.ofList line.text) := by
  obtain ⟨bytes, hslice, hutf8⟩ := h.exists_bytes
  simp only [command, hslice, Option.bind_eq_bind, Option.bind_some, hutf8, Option.getD_some]

end Line

/-! ### Spaces -/

/-- A number of spaces. -/
def spaces (k : ℕ) : List Char := List.replicate k ' '

theorem isWhitespace_of_mem_spaces {k : ℕ} {c : Char} (hc : c ∈ spaces k) :
    isWhitespace c = true := by
  rw [List.eq_of_mem_replicate hc]
  decide

/-- White space before a text is dropped with that of the text. -/
theorem dropWhile_append_of_forall {a b : List Char} (ha : ∀ c ∈ a, isWhitespace c = true) :
    (a ++ b).dropWhile isWhitespace = b.dropWhile isWhitespace := by
  induction a with
  | nil => rfl
  | cons c a ih =>
    rw [List.forall_mem_cons] at ha
    rw [List.cons_append, List.dropWhile_cons_of_pos ha.1, ih ha.2]

/-- White space after a text is dropped with that of the text. -/
theorem rdropWhile_append_of_forall {a b : List Char} (hb : ∀ c ∈ b, isWhitespace c = true) :
    (a ++ b).rdropWhile isWhitespace = a.rdropWhile isWhitespace := by
  rw [List.rdropWhile, List.reverse_append, dropWhile_append_of_forall, List.rdropWhile]
  intro c hc
  exact hb c (List.mem_reverse.1 hc)

/-- `str::trim` takes surrounding white space away. -/
theorem trim_append {a b : List Char} (ha : ∀ c ∈ a, isWhitespace c = true)
    (hb : ∀ c ∈ b, isWhitespace c = true) (s : List Char) : trim (a ++ s ++ b) = trim s := by
  rw [trim, trim, List.append_assoc, dropWhile_append_of_forall ha, List.dropWhile_append]
  split
  · rename_i hs
    -- nothing but white space
    have hnil : s.dropWhile isWhitespace = [] := by simpa using hs
    have hb' := dropWhile_append_of_forall (b := []) hb
    rw [List.append_nil] at hb'
    rw [hnil, hb']
    rfl
  · exact rdropWhile_append_of_forall hb

theorem trim_spaces (k m : ℕ) (s : List Char) : trim (spaces k ++ s ++ spaces m) = trim s :=
  trim_append (fun _ => isWhitespace_of_mem_spaces) (fun _ => isWhitespace_of_mem_spaces) s

namespace Shell

variable {winId : UInt64} {c : Char} {line line' : Line} {s : List Char} {k m : ℕ}

/-! ### One character -/

/-- A character other than Enter takes a character away, adds one, or is ignored. -/
theorem handleChar_cases (winId : UInt64) (line : Line) (hn : c ≠ '\n') (hr : c ≠ '\r') :
    (Erases c ∧ 0 < line.len ∧ handleChar winId c line =
        ⟨["\x08 \x08"].map (.consoleWrite winId), .ok { line with len := line.len - 1 }⟩) ∨
      (AsciiPrintable c ∧ ∃ h : line.len < MAX_LINE, handleChar winId c line =
        ⟨[String.singleton c].map (.consoleWrite winId),
          .ok ⟨line.buf.set line.len c.toUInt8, line.len + 1⟩⟩) ∨
      (¬ (Erases c ∧ 0 < line.len) ∧ ¬ (AsciiPrintable c ∧ line.len < MAX_LINE) ∧
        handleChar winId c line = ⟨[].map (.consoleWrite winId), .ok line⟩) := by
  have henter : ¬ (c = '\n' ∨ c = '\r') := not_or.2 ⟨hn, hr⟩
  rw [handleChar, if_neg henter]
  by_cases herase : c = '\x08' ∨ c = '\x7f'
  · have hcontrol : ¬ AsciiPrintable c := by
      rcases herase with rfl | rfl <;> decide
    rw [if_pos herase]
    by_cases hlen : line.len > 0
    · exact .inl ⟨herase, hlen, by rw [if_pos hlen]; rfl⟩
    · exact .inr (.inr ⟨fun h => hlen h.2, fun h => hcontrol h.1, by rw [if_neg hlen]; rfl⟩)
  · rw [if_neg herase]
    by_cases hprint : isAscii c = true ∧ ¬ isAsciiControl c = true
    · rw [if_pos hprint]
      by_cases hlen : line.len < MAX_LINE
      · exact .inr (.inl ⟨hprint, hlen, by rw [dif_pos hlen]; rfl⟩)
      · exact .inr (.inr ⟨fun h => herase h.1, fun h => hlen h.2, by rw [dif_neg hlen]; rfl⟩)
    · exact .inr (.inr ⟨fun h => herase h.1, fun h => hprint h.1, by rw [if_neg hprint]; rfl⟩)

/-! ### Enter -/

/-- A command line is trimmed before anything else. -/
theorem execute_congr {s s' : List Char} (h : trim s = trim s') :
    execute winId s = execute winId s' := by
  rw [execute, execute, h]

/-- The rest of a computation that begins with a value. -/
theorem pure_bind {α β : Type} (a : α) (f : α → Shell β) : (pure a >>= f) = f a := rfl

/-- What Enter does with the text `s` of a line. -/
def enter (winId : UInt64) (s : List Char) (line : Line) : Shell Line := do
  call (.consoleWrite winId "\n")
  if s ≠ [] then execute winId s
  printPrompt winId
  return { line with len := 0 }

/-- **Enter runs the text of the line**, if it is not empty. -/
theorem handleChar_enter (hc : c = '\n' ∨ c = '\r') (hline : line.Printable) :
    handleChar winId c line = enter winId line.text line := by
  rw [handleChar, if_pos hc, hline.command_eq, enter, orPanic]
  simp only [pure_bind]
  by_cases htext : line.text = []
  · rw [htext]
    rfl
  · have hne : String.ofList line.text ≠ "" := fun h => htext (String.ofList_eq_empty_iff.1 h)
    rw [if_pos hne, if_pos htext, String.toList_ofList]

/-- The same calls, and lines of the same length and text. -/
def SameRun (x y : Shell Line) : Prop :=
  x.calls = y.calls ∧
    x.result.map (fun line => (line.len, line.text)) = y.result.map fun line => (line.len, line.text)

/-- Enter leaves an empty line. -/
theorem sameRun_enter (winId : UInt64) (s : List Char) (line line' : Line) :
    SameRun (enter winId s line) (enter winId s line') := by
  rw [enter, enter]
  by_cases hs : s ≠ []
  · rw [if_pos hs, if_pos hs]
    generalize execute winId s = x
    obtain ⟨calls, result⟩ := x
    cases result with
    | ok a => exact ⟨rfl, rfl⟩
    | error stop => exact ⟨rfl, rfl⟩
  · rw [if_neg hs, if_neg hs]
    exact ⟨rfl, rfl⟩

/-- **Spaces around a line make no difference to Enter, exactly if there is anything else on it, or no
space either.** -/
theorem enter_spaces_iff (hc : c = '\n' ∨ c = '\r') (hs : ∀ ch ∈ s, AsciiPrintable ch)
    (hlen : k + s.length + m ≤ MAX_LINE) (hline : line.len = s.length ∧ line.text = s)
    (hline' : line'.len = k + s.length + m ∧ line'.text = spaces k ++ s ++ spaces m) :
    SameRun (handleChar winId c line') (handleChar winId c line) ↔ s ≠ [] ∨ k + m = 0 := by
  have hprintable : line.Printable := Line.printable_iff.2 ⟨by omega, by rwa [hline.2]⟩
  have hprintable' : line'.Printable := by
    refine Line.printable_iff.2 ⟨by omega, ?_⟩
    intro ch hch
    have hspace : ∀ n, ch ∈ spaces n → AsciiPrintable ch := by
      intro n hn
      rw [List.eq_of_mem_replicate hn]
      decide
    rw [hline'.2, List.mem_append, List.mem_append] at hch
    rcases hch with (hch | hch) | hch
    · exact hspace k hch
    · exact hs ch hch
    · exact hspace m hch
  rw [handleChar_enter hc hprintable, handleChar_enter hc hprintable', hline.2, hline'.2]
  constructor
  · rintro ⟨hcalls, -⟩
    by_contra hno
    rw [not_or, not_not] at hno
    obtain ⟨rfl, hkm⟩ := hno
    -- the spaces alone are run as the empty command
    have hspaces : spaces k ++ [] ++ spaces m ≠ [] := by
      intro hnil
      have := congrArg List.length hnil
      simp [spaces] at this
      omega
    rw [enter, enter, if_pos hspaces, execute_congr (trim_spaces k m [])] at hcalls
    have hlength : 5 = 2 := congrArg List.length hcalls
    exact absurd hlength (by decide)
  · rintro (hne | hkm)
    · have hne' : spaces k ++ s ++ spaces m ≠ [] := by simp [hne]
      have heq : enter winId (spaces k ++ s ++ spaces m) line' = enter winId s line' := by
        rw [enter, enter, if_pos hne', if_pos hne, execute_congr (trim_spaces k m s)]
      rw [heq]
      exact sameRun_enter winId s line' line
    · obtain ⟨rfl, rfl⟩ : k = 0 ∧ m = 0 := by omega
      rw [show spaces 0 ++ s ++ spaces 0 = s by simp [spaces]]
      exact sameRun_enter winId s line' line

namespace Spaced

/-- `" o "` -/
def word : Line := ⟨(Vector.replicate MAX_LINE ' '.toUInt8).set 1 'o'.toUInt8, 3⟩

/-- `"o"`, in a line that was longer before. -/
def trimmed : Line := ⟨(Vector.replicate MAX_LINE 'x'.toUInt8).set 0 'o'.toUInt8, 1⟩

/-- `" "` -/
def blank : Line := ⟨Vector.replicate MAX_LINE ' '.toUInt8, 1⟩

end Spaced

/-- A word between spaces is run like the word. -/
theorem enter_spaces_iff_word :
    Spaced.word.text = [' ', 'o', ' '] ∧ Spaced.trimmed.text = ['o'] ∧
      SameRun (handleChar 0 '\n' Spaced.word) (handleChar 0 '\n' Spaced.trimmed) :=
  ⟨by decide, by decide, (enter_spaces_iff (k := 1) (m := 1) (s := ['o']) (.inl rfl)
    (List.forall_mem_singleton.2 (by decide)) (by decide) ⟨rfl, by decide⟩ ⟨rfl, by decide⟩).2
    (.inl (by decide))⟩

/-- A space alone is run as the empty command, the empty line is not. -/
theorem enter_space :
    Spaced.blank.text = [' '] ∧ Line.empty.text = [] ∧
      (handleChar 0 '\n' Spaced.blank).calls = [.consoleWrite 0 "\n",
        .consoleWrite 0 "Unknown command: '", .consoleWrite 0 "", .consoleWrite 0 "'\n",
        .consoleWrite 0 PROMPT] ∧
      (handleChar 0 '\n' Line.empty).calls = [.consoleWrite 0 "\n", .consoleWrite 0 PROMPT] ∧
      ¬ SameRun (handleChar 0 '\n' Spaced.blank) (handleChar 0 '\n' Line.empty) := by
  have hblank : Spaced.blank.text = [' '] := by decide
  have hempty : Line.empty.text = [] := by decide
  have hcalls : (handleChar 0 '\n' Spaced.blank).calls = [.consoleWrite 0 "\n",
      .consoleWrite 0 "Unknown command: '", .consoleWrite 0 "", .consoleWrite 0 "'\n",
      .consoleWrite 0 PROMPT] := by
    have hprintable : ∀ ch ∈ Spaced.blank.text, AsciiPrintable ch := by
      rw [hblank]
      exact List.forall_mem_singleton.2 (by decide)
    rw [handleChar_enter (.inl rfl) (Line.printable_iff.2 ⟨by decide, hprintable⟩), hblank]
    rfl
  have hcalls' : (handleChar 0 '\n' Line.empty).calls =
      [.consoleWrite 0 "\n", .consoleWrite 0 PROMPT] := by
    rw [handleChar_enter (.inl rfl) (Line.printable_iff.2 ⟨by decide, by rw [hempty]; nofun⟩),
      hempty]
    rfl
  refine ⟨hblank, hempty, hcalls, hcalls', ?_⟩
  intro h
  have hsame := h.1
  rw [hcalls, hcalls'] at hsame
  exact absurd (congrArg List.length hsame) (by decide)

end Shell

end ROs
