import Mathlib.Tactic.Common
import Mathlib.Algebra.Order.Ring.Nat

/-!
# Word-addressed memory and its regions

A word of eight bytes is named by the address of its first byte.  A `Region` is a range of bytes;
a descending stack lives in one, its pointer between the two ends (`Region.Holds`).

* `Region.Disjoint.word_ne`, `Region.Disjoint.not_holds` : disjoint regions share no word and no
  stack pointer.
* `Region.eq_of_holds` : **a stack pointer belongs to one stack** of a list of disjoint ones.
-/

namespace ROs

/-- A word-addressed memory. -/
abbrev Memory := UInt64 → UInt64

namespace Memory

/-- The word at `a` becomes `v`. -/
def write (mem : Memory) (a v : UInt64) : Memory := fun b => if b = a then v else mem b

@[simp] theorem write_self (mem : Memory) (a v : UInt64) : mem.write a v a = v := if_pos rfl

theorem write_of_ne {a b : UInt64} (h : b ≠ a) (mem : Memory) (v : UInt64) :
    mem.write a v b = mem b :=
  if_neg h

end Memory

/-- The bytes from `lo` (inclusive) to `hi` (exclusive). -/
structure Region where
  lo : ℕ
  hi : ℕ
deriving DecidableEq

namespace Region

variable {r r' : Region} {a b sp : UInt64}

/-- The word at `a` lies in the region. -/
def Word (r : Region) (a : UInt64) : Prop := r.lo ≤ a.toNat ∧ a.toNat + 8 ≤ r.hi

/-- `sp` is a stack pointer of a descending stack in the region: its upper end when the stack is
empty, and never its lower end. -/
def Holds (r : Region) (sp : UInt64) : Prop := r.lo < sp.toNat ∧ sp.toNat ≤ r.hi

/-- The two regions have no byte in common. -/
def Disjoint (r r' : Region) : Prop := r.hi ≤ r'.lo ∨ r'.hi ≤ r.lo

instance (r : Region) (a : UInt64) : Decidable (r.Word a) :=
  inferInstanceAs (Decidable (_ ∧ _))

instance (r : Region) (sp : UInt64) : Decidable (r.Holds sp) :=
  inferInstanceAs (Decidable (_ ∧ _))

instance (r r' : Region) : Decidable (r.Disjoint r') :=
  inferInstanceAs (Decidable (_ ∨ _))

theorem Disjoint.symm (h : r.Disjoint r') : r'.Disjoint r := Or.symm h

theorem Disjoint.word_ne (h : r.Disjoint r') (ha : r.Word a) (hb : r'.Word b) : a ≠ b := by
  rintro rfl
  unfold Disjoint Word at *
  omega

theorem Disjoint.not_word (h : r.Disjoint r') (ha : r.Word a) : ¬ r'.Word a :=
  fun hb => h.word_ne ha hb rfl

theorem Disjoint.not_holds (h : r.Disjoint r') (ha : r.Holds sp) : ¬ r'.Holds sp := by
  unfold Disjoint Holds at *
  omega

/-- In a list of disjoint regions, different positions hold disjoint regions. -/
theorem disjoint_of_ne {rs : List Region} (h : rs.Pairwise Disjoint) {i j : ℕ}
    (hi : rs[i]? = some r) (hj : rs[j]? = some r') (hne : i ≠ j) : r.Disjoint r' := by
  rw [List.pairwise_iff_getElem] at h
  obtain ⟨hil, rfl⟩ := List.getElem?_eq_some_iff.1 hi
  obtain ⟨hjl, rfl⟩ := List.getElem?_eq_some_iff.1 hj
  rcases Nat.lt_or_gt_of_ne hne with hlt | hlt
  · exact h i j hil hjl hlt
  · exact (h j i hjl hil hlt).symm

/-- **A stack pointer belongs to one stack.** -/
theorem eq_of_holds {rs : List Region} (h : rs.Pairwise Disjoint) {i j : ℕ}
    (hi : rs[i]? = some r) (hj : rs[j]? = some r') (hr : r.Holds sp) (hr' : r'.Holds sp) :
    i = j := by
  by_contra hne
  exact (disjoint_of_ne h hi hj hne).not_holds hr hr'

end Region

end ROs
