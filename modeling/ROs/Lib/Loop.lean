import Mathlib.Tactic.Common

/-!
# Loops that may fail

Rules for `List.foldlM` in `Option`: a loop over a list, each step of which may fail.

A loop whose steps all succeed succeeds (`exists_foldlM`), and a loop that succeeds has taken all
its steps (`exists_of_foldlM`).  What every step keeps, the loop keeps: `rel_of_foldlM` for a
relation between the states before and after.
-/

namespace ROs

variable {α β : Type*} {f : β → α → Option β} {l : List α} {b b' : β}

/-- A loop over lists, one after the other. -/
theorem foldlM_flatMap {γ : Type*} {g : γ → List α} (cs : List γ) (b : β) :
    (cs.flatMap g).foldlM f b = cs.foldlM (fun b c => (g c).foldlM f b) b := by
  induction cs generalizing b with
  | nil => rfl
  | cons c cs ih =>
    rw [List.flatMap_cons, List.foldlM_append, List.foldlM_cons]
    exact bind_congr ih

/-- A loop whose steps do not fail. -/
theorem foldlM_some {g : β → α → β} (h : ∀ a ∈ l, ∀ b, f b a = some (g b a)) (b : β) :
    l.foldlM f b = some (l.foldl g b) := by
  induction l generalizing b with
  | nil => rfl
  | cons a l ih =>
    rw [List.foldlM_cons, h a List.mem_cons_self, List.foldl_cons]
    exact ih (fun a' ha' => h a' (List.mem_cons_of_mem _ ha')) _

/-- A loop whose steps do nothing does nothing. -/
theorem foldlM_eq_self (h : ∀ a ∈ l, ∀ b, f b a = some b) (b : β) : l.foldlM f b = some b := by
  induction l with
  | nil => rfl
  | cons a l ih =>
    rw [List.foldlM_cons, h a List.mem_cons_self]
    exact ih fun a' ha' => h a' (List.mem_cons_of_mem _ ha')

/-- A loop whose steps succeed succeeds. -/
theorem exists_foldlM (h : ∀ a ∈ l, ∀ b, ∃ b', f b a = some b') (b : β) :
    ∃ b', l.foldlM f b = some b' := by
  induction l generalizing b with
  | nil => exact ⟨b, rfl⟩
  | cons a l ih =>
    obtain ⟨b', hb⟩ := h a List.mem_cons_self b
    rw [List.foldlM_cons, hb]
    exact ih (fun a' ha' => h a' (List.mem_cons_of_mem _ ha')) b'

/-- A relation that every step keeps. -/
theorem rel_of_foldlM {R : β → β → Prop} (hrefl : ∀ b, R b b)
    (htrans : ∀ {b c d}, R b c → R c d → R b d)
    (hstep : ∀ a ∈ l, ∀ b b', f b a = some b' → R b b') (h : l.foldlM f b = some b') :
    R b b' := by
  induction l generalizing b with
  | nil =>
    obtain rfl : b = b' := Option.some.inj h
    exact hrefl b
  | cons a l ih =>
    rw [List.foldlM_cons] at h
    obtain ⟨c, hc, h⟩ := Option.bind_eq_some_iff.1 h
    exact htrans (hstep a List.mem_cons_self b c hc)
      (ih (fun a' ha' => hstep a' (List.mem_cons_of_mem _ ha')) h)

/-- Every step of a loop that does not fail succeeds, from a state that the steps before it lead
to. -/
theorem exists_rel_of_foldlM {R : β → β → Prop} (hrefl : ∀ b, R b b)
    (htrans : ∀ {b c d}, R b c → R c d → R b d)
    (hstep : ∀ a ∈ l, ∀ b b', f b a = some b' → R b b') (h : l.foldlM f b = some b') {a : α}
    (ha : a ∈ l) : ∃ c c', R b c ∧ f c a = some c' := by
  induction l generalizing b with
  | nil => cases ha
  | cons a' l ih =>
    rw [List.foldlM_cons] at h
    obtain ⟨c, hc, h⟩ := Option.bind_eq_some_iff.1 h
    rcases List.mem_cons.1 ha with rfl | ha
    · exact ⟨b, c, hrefl b, hc⟩
    · obtain ⟨d, d', hd, hd'⟩ := ih (fun a' ha' => hstep a' (List.mem_cons_of_mem _ ha')) h ha
      exact ⟨d, d', htrans (hstep a' List.mem_cons_self b c hc) hd, hd'⟩

theorem exists_of_foldlM (h : l.foldlM f b = some b') {a : α} (ha : a ∈ l) :
    ∃ c c', f c a = some c' := by
  obtain ⟨c, c', -, hc⟩ := exists_rel_of_foldlM (R := fun _ _ => True) (fun _ => trivial)
    (fun _ _ => trivial) (fun _ _ _ _ _ => trivial) h ha
  exact ⟨c, c', hc⟩

end ROs
