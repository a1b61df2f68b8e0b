import ROs.Lib.Brackets
import ROs.Shell.Enter

/-!
# The line that Enter runs

The line editor reads its characters as brackets (`Shell.bracket`): a printable ASCII character
opens, backspace and delete close, and every other character does nothing.  The line is a stack, in
an array that keeps what was taken from it; only the room of the array is missing from the picture.

* `Shell.runs_net` : **the line is made of printable ASCII characters in every state, and what Enter
  runs are the characters typed since the last Enter that were not taken away again**, if there was
  always room for them.
-/

namespace ROs

namespace Shell

open Paren

variable {winId : UInt64} {c : Char} {line line' : Line} {cs seg : List Char}

/-- What a character does to the line. -/
def bracket (c : Char) : Paren :=
  if Erases c then closing else if AsciiPrintable c then opening else other

/-- The two characters that run the line. -/
def IsEnter (c : Char) : Prop := c = '\n' ∨ c = '\r'

/-- Characters passed to `handle_char` one after another, as long as it returns. -/
def feedLine (winId : UInt64) (line : Line) (cs : List Char) : Except Stop Line :=
  cs.foldlM (fun line c => (handleChar winId c line).result) line

theorem feedLine_append (cs cs' : List Char) :
    feedLine winId line (cs ++ cs') =
      (feedLine winId line cs).bind fun line => feedLine winId line cs' := by
  rw [feedLine, List.foldlM_append]
  rfl

/-! ### Between two Enters -/

/-- The letter of a printable character is pushed on the line, if there is room. -/
theorem exists_handleChar (winId : UInt64) (hline : line.Printable) (hc : ¬ IsEnter c) :
    ∃ line', (handleChar winId c line).result = .ok line' ∧ line'.Printable ∧
      ((push bracket line.text c).length ≤ MAX_LINE → line'.text = push bracket line.text c) := by
  have hlen := Line.length_text hline.len_le
  have hprintable := (Line.printable_iff.1 hline).2
  obtain ⟨hn, hr⟩ := not_or.1 hc
  rcases handleChar_cases winId line hn hr with
    ⟨herase, hpos, heq⟩ | ⟨hprint, hlt, heq⟩ | ⟨hnoErase, hnoPrint, heq⟩
  · obtain ⟨x, htext⟩ := Line.exists_text_eq hpos hline.len_le
    refine ⟨_, congrArg Shell.result heq, ?_, ?_⟩
    · refine Line.printable_iff.2 ⟨Nat.le_trans (Nat.sub_le _ _) hline.len_le, ?_⟩
      intro ch hch
      exact hprintable ch (htext ▸ List.mem_append_left _ hch)
    · intro _
      rw [push, bracket, if_pos herase]
      dsimp only
      rw [htext, List.dropLast_concat]
  · have htext := Line.text_set hprint.1 hlt
    have herase : ¬ Erases c := by
      rintro (rfl | rfl)
      · exact absurd hprint (by decide)
      · exact absurd hprint (by decide)
    refine ⟨_, congrArg Shell.result heq, ?_, ?_⟩
    · refine Line.printable_iff.2 ⟨hlt, ?_⟩
      intro ch hch
      rw [htext, List.mem_append, List.mem_singleton] at hch
      rcases hch with hch | rfl
      · exact hprintable ch hch
      · exact hprint
    · intro _
      rw [push, bracket, if_neg herase, if_pos hprint]
      exact htext
  · refine ⟨line, congrArg Shell.result heq, hline, ?_⟩
    intro hroom
    rw [push, bracket] at hroom ⊢
    by_cases herase : Erases c
    · -- nothing to take away
      have hzero : line.len = 0 := Nat.eq_zero_of_not_pos fun h => hnoErase ⟨herase, h⟩
      rw [if_pos herase, List.length_eq_zero_iff.1 (hlen.trans hzero)]
      rfl
    · rw [if_neg herase] at hroom ⊢
      by_cases hprint : AsciiPrintable c
      · -- the line is full
        have hfull : ¬ line.len < MAX_LINE := fun h => hnoPrint ⟨hprint, h⟩
        rw [if_pos hprint] at hroom
        dsimp only at hroom
        rw [List.length_append, hlen, List.length_singleton] at hroom
        omega
      · rw [if_neg hprint]

/-- A part of a run without Enter. -/
theorem exists_feedLine (winId : UInt64) (hline : line.Printable) (hseg : ∀ c ∈ seg, ¬ IsEnter c) :
    ∃ line', feedLine winId line seg = .ok line' ∧ line'.Printable ∧
      ((∀ pre, pre <+: seg → (pre.foldl (push bracket) line.text).length ≤ MAX_LINE) →
        line'.text = seg.foldl (push bracket) line.text) := by
  induction seg generalizing line with
  | nil => exact ⟨line, rfl, hline, fun _ => rfl⟩
  | cons c seg ih =>
    rw [List.forall_mem_cons] at hseg
    obtain ⟨line₁, hchar, hline₁, htext₁⟩ := exists_handleChar winId hline hseg.1
    obtain ⟨line', hrest, hline', htext'⟩ := ih hline₁ hseg.2
    refine ⟨line', ?_, hline', ?_⟩
    · rw [feedLine, List.foldlM_cons, hchar]
      exact hrest
    · intro hroom
      have hfirst := htext₁ (hroom [c] (by simp))
      rw [htext', List.foldl_cons, hfirst]
      intro pre hpre
      rw [hfirst]
      exact hroom (c :: pre) ((List.prefix_cons_inj c).2 hpre)

/-! ### Enter -/

/-- A command does not panic: it returns, or halts. -/
theorem execute_result (winId : UInt64) (cmd : List Char) :
    (execute winId cmd).result = .ok () ∨ (execute winId cmd).result = .error .halt := by
  unfold execute
  dsimp only
  split
  all_goals first | exact .inl rfl | exact .inr rfl

/-- Enter empties the line, or halts. -/
theorem enter_result (winId : UInt64) (s : List Char) (line : Line) :
    (enter winId s line).result = .ok { line with len := 0 } ∨
      (enter winId s line).result = .error .halt := by
  have hexecute := execute_result winId s
  rw [enter]
  by_cases hs : s ≠ []
  · rw [if_pos hs]
    generalize execute winId s = x at hexecute
    obtain ⟨calls, result⟩ := x
    rcases hexecute with rfl | rfl
    · exact .inl rfl
    · exact .inr rfl
  · rw [if_neg hs]
    exact .inl rfl

theorem printable_of_len_eq_zero (h : line.len = 0) : line.Printable := by
  refine ⟨h ▸ Nat.zero_le _, ?_⟩
  rw [h, List.take_zero]
  nofun

/-- A character keeps the line printable, or halts. -/
theorem handleChar_result (winId : UInt64) (hline : line.Printable) (c : Char) :
    (∃ line', (handleChar winId c line).result = .ok line' ∧ line'.Printable ∧
        (IsEnter c → line'.len = 0)) ∨
      (handleChar winId c line).result = .error .halt := by
  by_cases hc : IsEnter c
  · rw [handleChar_enter hc hline]
    rcases enter_result winId line.text line with h | h
    · exact .inl ⟨_, h, printable_of_len_eq_zero rfl, fun _ => rfl⟩
    · exact .inr h
  · obtain ⟨line', h, hline', -⟩ := exists_handleChar winId hline hc
    exact .inl ⟨line', h, hline', fun h => absurd h hc⟩

/-- **A run keeps the line printable, or halts.** -/
theorem feedLine_result (winId : UInt64) (hline : line.Printable) (cs : List Char) :
    (∃ line', feedLine winId line cs = .ok line' ∧ line'.Printable) ∨
      feedLine winId line cs = .error .halt := by
  induction cs generalizing line with
  | nil => exact .inl ⟨line, rfl, hline⟩
  | cons c cs ih =>
    rw [feedLine, List.foldlM_cons]
    rcases handleChar_result winId hline c with ⟨line₁, h, hline₁, -⟩ | h
    · rw [h]
      exact ih hline₁
    · rw [h]
      exact .inr rfl

/-- The line is empty after Enter. -/
theorem len_eq_zero_of_feedLine (hline : line.Printable) (hc : IsEnter c)
    (h : feedLine winId line (cs ++ [c]) = .ok line') : line'.len = 0 := by
  rw [feedLine_append] at h
  rcases feedLine_result winId hline cs with ⟨line₁, h₁, hline₁⟩ | h₁
  · rw [h₁] at h
    rcases handleChar_result winId hline₁ c with ⟨line₂, h₂, -, hzero⟩ | h₂
    · obtain rfl : line₂ = line' := by
        change feedLine winId line₁ [c] = .ok line' at h
        rw [feedLine, List.foldlM_cons, h₂] at h
        exact Except.ok.inj h
      exact hzero hc
    · change feedLine winId line₁ [c] = .ok line' at h
      rw [feedLine, List.foldlM_cons, h₂] at h
      cases h
  · rw [h₁] at h
    cases h

/-- **The line that Enter runs is the net of the characters typed**: the line consists of printable
ASCII characters in every state, which are valid UTF-8; nothing panics; and Enter runs the characters
since the last Enter (or the start) that no later backspace or delete cancels, if there were never
more of them than the line has room for. -/
theorem runs_net (hline : line.len = 0) :
    (∀ cs, feedLine winId line cs ≠ .error .panic ∧
      ∀ line', feedLine winId line cs = .ok line' → line'.Printable ∧
        ∃ bytes, Buf.slice line'.buf.toArray 0 line'.len = some bytes ∧
          (String.fromUTF8? ⟨bytes⟩).isSome) ∧
      ∀ pre seg c line', (pre = [] ∨ ∃ init e, pre = init ++ [e] ∧ IsEnter e) →
        (∀ ch ∈ seg, ¬ IsEnter ch) → IsEnter c → feedLine winId line (pre ++ seg) = .ok line' →
        (∀ part, part <+: seg → (net bracket part).length ≤ MAX_LINE) →
        line'.text = net bracket seg ∧
          handleChar winId c line' = enter winId (net bracket seg) line' := by
  have hprintable := printable_of_len_eq_zero hline
  refine ⟨fun cs => ?_, fun pre seg c line' hpre hseg hc hrun hroom => ?_⟩
  · rcases feedLine_result winId hprintable cs with ⟨line₁, h, hline₁⟩ | h
    · refine ⟨by rw [h]; nofun, fun line' h' => ?_⟩
      obtain rfl : line₁ = line' := Except.ok.inj (h.symm.trans h')
      obtain ⟨bytes, hslice, hutf8⟩ := hline₁.exists_bytes
      exact ⟨hline₁, bytes, hslice, by rw [hutf8]; rfl⟩
    · exact ⟨by rw [h]; nofun, fun line' h' => by rw [h] at h'; cases h'⟩
  · -- the line is empty after `pre`, whatever the buffer holds
    obtain ⟨line₀, h₀, hrest⟩ : ∃ line₀, feedLine winId line pre = .ok line₀ ∧
        feedLine winId line₀ seg = .ok line' := by
      rw [feedLine_append] at hrun
      rcases feedLine_result winId hprintable pre with ⟨line₀, h₀, -⟩ | h₀
      · rw [h₀] at hrun
        exact ⟨line₀, h₀, hrun⟩
      · rw [h₀] at hrun
        cases hrun
    have hzero : line₀.len = 0 := by
      rcases hpre with rfl | ⟨init, e, rfl, he⟩
      · cases h₀
        exact hline
      · exact len_eq_zero_of_feedLine hprintable he h₀
    have htext₀ : line₀.text = [] := by rw [Line.text, hzero, List.take_zero, List.map_nil]
    obtain ⟨line₁, hseg₁, hprintable', htext⟩ :=
      exists_feedLine winId (printable_of_len_eq_zero hzero) hseg
    obtain rfl : line₁ = line' := Except.ok.inj (hseg₁.symm.trans hrest)
    rw [htext₀] at htext
    have hnet : line₁.text = net bracket seg := by
      rw [htext, foldl_push_eq_net]
      intro part hpart
      rw [foldl_push_eq_net]
      exact hroom part hpart
    refine ⟨hnet, ?_⟩
    rw [handleChar_enter hc hprintable', hnet]

/-- What was taken away is not run, nor is what the buffer held before. -/
theorem runs_net_corrected :
    let line : Line := ⟨Vector.replicate MAX_LINE 0x80, 0⟩
    ∃ line', feedLine 0 line ['\x08', 'h', 'x', '\x7f', '\t', 'i'] = .ok line' ∧
      handleChar 0 '\r' line' = enter 0 ['h', 'i'] line' := by
  intro line
  have hnet : net bracket ['\x08', 'h', 'x', '\x7f', '\t', 'i'] = ['h', 'i'] := by
    rw [← foldl_push_eq_net]
    decide
  have hseg : ∀ c ∈ ['\x08', 'h', 'x', '\x7f', '\t', 'i'], ¬ IsEnter c := by simp [IsEnter]
  have hlen : line.len = 0 := rfl
  obtain ⟨line', h, -⟩ := exists_feedLine 0 (printable_of_len_eq_zero hlen) hseg
  refine ⟨line', h, ?_⟩
  rw [← hnet]
  refine ((@runs_net 0 line hlen).2 [] _ '\r' line' (.inl rfl) hseg (.inr rfl) h ?_).2
  intro part hpart
  exact Nat.le_trans ((net_sublist part).trans hpart.sublist).length_le (by decide)

end Shell

end ROs
