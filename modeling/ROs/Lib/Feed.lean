import Mathlib.Tactic.Common

/-!
# Machines fed a stream

`feed step s inputs` feeds a machine one input after another and collects what it puts out, one
output for each input.  A machine that reads blocks (`feed_flatMap`) starts each of them in a
state of the same kind and is back in one at its end; its output is then the outputs of the
blocks, one after another.
-/

namespace ROs

variable {S I O : Type*}

/-- The last state, and the output for each input. -/
def feed (step : S → I → S × O) (s : S) : List I → S × List O
  | [] => (s, [])
  | i :: is =>
    let next := step s i
    let rest := feed step next.1 is
    (rest.1, next.2 :: rest.2)

variable {step : S → I → S × O} {s : S}

@[simp] theorem feed_nil : feed step s [] = (s, []) := rfl

@[simp] theorem feed_cons (i : I) (is : List I) :
    feed step s (i :: is) =
      ((feed step (step s i).1 is).1, (step s i).2 :: (feed step (step s i).1 is).2) := rfl

theorem feed_append (is js : List I) :
    feed step s (is ++ js) =
      ((feed step (feed step s is).1 js).1,
        (feed step s is).2 ++ (feed step (feed step s is).1 js).2) := by
  induction is generalizing s with
  | nil => rfl
  | cons i is ih => simp only [List.cons_append, feed_cons, ih]

/-- A machine that reads each block from a state in `home`, puts out `out` for it and is back in
`home`, does so for a list of blocks. -/
theorem feed_flatMap {B : Type*} {home : S → Prop} {enc : B → List I} {out : B → List O}
    (hblock : ∀ s b, home s → home (feed step s (enc b)).1 ∧ (feed step s (enc b)).2 = out b)
    (hs : home s) (bs : List B) :
    home (feed step s (bs.flatMap enc)).1 ∧
      (feed step s (bs.flatMap enc)).2 = bs.flatMap out := by
  induction bs generalizing s with
  | nil => exact ⟨hs, rfl⟩
  | cons b bs ih =>
    obtain ⟨hhome, hout⟩ := hblock s b hs
    obtain ⟨hhome', hout'⟩ := ih hhome
    simp only [List.flatMap_cons, feed_append]
    exact ⟨hhome', by rw [hout, hout']⟩

end ROs
