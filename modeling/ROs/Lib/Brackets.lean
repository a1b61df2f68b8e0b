import Mathlib.Tactic.Common

/-!
# Brackets

A word over an alphabet in which some letters open and some close.  An opening letter is *cancelled*
by the closing letter that matches it: the one after the shortest balanced word that follows
(`Balanced`, `Cancelled`).  A closing letter without an opening one, and every other letter, cancels
nothing.  What is left of a word are its opening letters that are not cancelled (`net`).

`foldl_push_eq_net` : **a stack, on which every opening letter is pushed and from which every closing
letter takes the last one, if there is one, holds what is left of the word that was read.**
-/

namespace ROs

/-- What a letter does. -/
inductive Paren where
  | opening
  | closing
  | other
  deriving Repr, DecidableEq

namespace Paren

variable {α : Type*} (kind : α → Paren)

/-- Every opening letter is matched by a closing one, and the other way round. -/
inductive Balanced : List α → Prop
  | nil : Balanced []
  | other {a : α} {w : List α} (ha : kind a = other) (hw : Balanced w) : Balanced (a :: w)
  | wrap {a b : α} {w w' : List α} (ha : kind a = opening) (hw : Balanced w) (hb : kind b = closing)
      (hw' : Balanced w') : Balanced (a :: (w ++ b :: w'))

/-- The letter before `l` is matched by a letter of `l`, if it is an opening one. -/
def Cancelled (l : List α) : Prop :=
  ∃ w b rest, l = w ++ b :: rest ∧ Balanced kind w ∧ kind b = closing

open Classical in
/-- The opening letters that are not cancelled. -/
noncomputable def net : List α → List α
  | [] => []
  | a :: l => if kind a = opening ∧ ¬ Cancelled kind l then a :: net l else net l

/-- The stack after another letter. -/
def push (stack : List α) (a : α) : List α :=
  match kind a with
  | opening => stack ++ [a]
  | closing => stack.dropLast
  | other => stack

/-- The number of closing letters that match nothing. -/
def unmatched : List α → ℕ
  | [] => 0
  | a :: l =>
    match kind a with
    | opening => unmatched l - 1
    | closing => unmatched l + 1
    | other => unmatched l

variable {kind} {a : α} {l w : List α}

theorem unmatched_opening (ha : kind a = opening) :
    unmatched kind (a :: l) = unmatched kind l - 1 := by
  rw [unmatched, ha]

theorem unmatched_closing (ha : kind a = closing) :
    unmatched kind (a :: l) = unmatched kind l + 1 := by
  rw [unmatched, ha]

theorem unmatched_other (ha : kind a = other) :
    unmatched kind (a :: l) = unmatched kind l := by
  rw [unmatched, ha]

/-- A balanced word leaves nothing to be matched after it. -/
theorem Balanced.unmatched_append (hw : Balanced kind w) (l : List α) :
    unmatched kind (w ++ l) = unmatched kind l := by
  induction hw generalizing l with
  | nil => rfl
  | other ha _ ih => rw [List.cons_append, unmatched_other ha, ih]
  | wrap ha _ hb _ ih ih' =>
    rw [List.cons_append, unmatched_opening ha, List.append_assoc, ih, List.cons_append,
      unmatched_closing hb, ih', Nat.add_sub_cancel]

theorem Balanced.append {w' : List α} (hw : Balanced kind w) (hw' : Balanced kind w') :
    Balanced kind (w ++ w') := by
  induction hw with
  | nil => exact hw'
  | other ha _ ih => exact .other ha ih
  | wrap ha hw hb _ _ ih =>
    rw [List.cons_append, List.append_assoc, List.cons_append]
    exact .wrap ha hw hb ih

/-- The first closing letter that matches nothing comes after a balanced word. -/
theorem exists_of_unmatched_pos (hl : 0 < unmatched kind l) :
    ∃ w b rest, l = w ++ b :: rest ∧ Balanced kind w ∧ kind b = closing ∧
      unmatched kind rest + 1 = unmatched kind l := by
  induction h : l.length using Nat.strongRecOn generalizing l with
  | ind n ih =>
    cases l with
    | nil => cases hl
    | cons a l =>
      rw [List.length_cons] at h
      cases ha : kind a with
      | closing =>
        exact ⟨[], a, l, rfl, .nil, ha, (unmatched_closing ha).symm⟩
      | other =>
        rw [unmatched_other ha] at hl ⊢
        obtain ⟨w, b, rest, rfl, hw, hb, hrest⟩ := ih l.length (by omega) hl rfl
        exact ⟨a :: w, b, rest, rfl, .other ha hw, hb, hrest⟩
      | opening =>
        -- two closing letters are left over in `l`, the first one matches `a`
        rw [unmatched_opening ha] at hl ⊢
        obtain ⟨w, b, rest, rfl, hw, hb, hrest⟩ := ih l.length (by omega) (by omega) rfl
        rw [List.length_append, List.length_cons] at h
        obtain ⟨w', b', rest', rfl, hw', hb', hrest'⟩ := ih rest.length (by omega) (by omega) rfl
        refine ⟨a :: (w ++ b :: w'), b', rest', ?_, .wrap ha hw hb hw', hb', by omega⟩
        rw [List.cons_append, List.append_assoc, List.cons_append]

theorem cancelled_iff : Cancelled kind l ↔ 0 < unmatched kind l := by
  constructor
  · rintro ⟨w, b, rest, rfl, hw, hb⟩
    rw [hw.unmatched_append, unmatched_closing hb]
    exact Nat.succ_pos _
  · intro hl
    obtain ⟨w, b, rest, rfl, hw, hb, -⟩ := exists_of_unmatched_pos hl
    exact ⟨w, b, rest, rfl, hw, hb⟩

theorem net_opening (ha : kind a = opening) :
    net kind (a :: l) = if unmatched kind l = 0 then a :: net kind l else net kind l := by
  by_cases hl : unmatched kind l = 0
  · rw [if_pos hl]
    exact if_pos ⟨ha, fun hc => Nat.ne_of_gt (cancelled_iff.1 hc) hl⟩
  · rw [if_neg hl]
    exact if_neg fun h => h.2 (cancelled_iff.2 (Nat.pos_of_ne_zero hl))

theorem net_of_ne (ha : kind a ≠ opening) : net kind (a :: l) = net kind l :=
  if_neg fun h => ha h.1

/-- What is left of a word is a part of it. -/
theorem net_sublist (l : List α) : (net kind l).Sublist l := by
  induction l with
  | nil => exact List.Sublist.refl _
  | cons a l ih =>
    rw [net]
    split
    · exact ih.cons_cons a
    · exact ih.cons a

/-- The letters of a word take the last ones of the stack below, as many as they leave unmatched. -/
theorem foldl_push (l stack : List α) :
    l.foldl (push kind) stack = stack.take (stack.length - unmatched kind l) ++ net kind l := by
  induction l generalizing stack with
  | nil => simp [unmatched, net]
  | cons a l ih =>
    rw [List.foldl_cons, ih]
    cases ha : kind a with
    | other =>
      rw [push, ha, unmatched_other ha, net_of_ne (by simp [ha])]
    | closing =>
      have hlen : stack.length - 1 - unmatched kind l = stack.length - (unmatched kind l + 1) := by
        omega
      rw [push, ha, unmatched_closing ha, net_of_ne (by simp [ha]), List.length_dropLast, hlen,
        List.dropLast_eq_take, List.take_take, Nat.min_eq_left (by omega)]
    | opening =>
      rw [push, ha, unmatched_opening ha, net_opening ha]
      dsimp only
      rw [List.length_append, List.length_singleton]
      split
      · rename_i hzero
        rw [hzero, Nat.sub_zero, Nat.zero_sub, Nat.sub_zero, List.take_length, ← List.length_singleton,
          ← List.length_append, List.take_length, List.append_assoc]
        rfl
      · rw [List.take_append_of_le_length (by omega)]
        congr 2
        omega

/-- **A stack holds what is left of the word.** -/
theorem foldl_push_eq_net (l : List α) : l.foldl (push kind) [] = net kind l := by
  rw [foldl_push, List.take_nil, List.nil_append]

end Paren

end ROs
