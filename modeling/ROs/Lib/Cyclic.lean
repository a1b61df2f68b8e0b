import Mathlib.Tactic.Common
import Mathlib.Algebra.Order.Ring.Nat

/-!
# Round robin on a ring of positions

A round-robin choice looks at the positions `c + 1, c + 2, …` modulo `n` and takes the first one
that is ready.  `Cyclic.search` is the loop, `Cyclic.Next` says what it finds (`search_some`), and
when it finds nothing then nothing is ready (`search_none`).

Between two visits of one position every other is visited at most once, and exactly once if it was
there and ready all the time.  `Cyclic.Lap` is the invariant behind that: the positions visited
since a lap began at `a` are those the cursor has swept, without the sleeping ones.  The ring may
grow at its end and positions may fall asleep while the lap is going on.

* `Lap.start`, `Lap.mono`, `Lap.move` : the invariant holds at the start of a lap, survives a
  change of the ring, and is kept by one more choice.
* `Lap.finish` : **when the cursor comes back**, every position has been visited or sleeps.
-/

namespace ROs

namespace Cyclic

/-- The first of at most `f` positions from `i` on, round a ring of `n`, at which `p` holds. -/
def search (p : ℕ → Bool) (n : ℕ) : ℕ → ℕ → Option ℕ
  | 0, _ => none
  | f + 1, i => if p i then some i else search p n f ((i + 1) % n)

/-- `i` lies strictly between `c` and `j` on the way round from `c` to `j`. -/
def Passed (c j i : ℕ) : Prop := (c < i ∧ i < j) ∨ (j ≤ c ∧ (c < i ∨ i < j))

/-- `j` is the first position after `c`, going round, at which `p` holds. -/
structure Next (p : ℕ → Prop) (n c j : ℕ) : Prop where
  lt : j < n
  holds : p j
  skipped : ∀ i < n, Passed c j i → ¬ p i

section Search

variable {p : ℕ → Bool} {n f i j c : ℕ}

/-- Where the loop stops, and what it has looked at before. -/
theorem exists_of_search (hi : i < n) (h : search p n f i = some j) :
    ∃ m < f, j = (i + m) % n ∧ p j ∧ ∀ l < m, p ((i + l) % n) = false := by
  induction f generalizing i with
  | zero => cases h
  | succ f ih =>
    rw [search] at h
    split at h
    · rename_i hp
      cases h
      exact ⟨0, by omega, (Nat.mod_eq_of_lt hi).symm, hp, by omega⟩
    · rename_i hp
      obtain ⟨m, hm, hj, hpj, hl⟩ := ih (Nat.mod_lt _ (by omega)) h
      refine ⟨m + 1, by omega, ?_, hpj, fun l hlt => ?_⟩
      · rw [hj, Nat.mod_add_mod, Nat.add_assoc, Nat.add_comm 1]
      · cases l with
        | zero => simpa [Nat.mod_eq_of_lt hi] using hp
        | succ l =>
          have := hl l (by omega)
          rwa [Nat.mod_add_mod, Nat.add_assoc, Nat.add_comm 1] at this

theorem of_search_none (hi : i < n) (h : search p n f i = none) :
    ∀ l < f, p ((i + l) % n) = false := by
  induction f generalizing i with
  | zero => intro l hl; omega
  | succ f ih =>
    rw [search] at h
    split at h
    · cases h
    · rename_i hp
      intro l hlt
      cases l with
      | zero => simpa [Nat.mod_eq_of_lt hi] using hp
      | succ l =>
        have := ih (Nat.mod_lt _ (by omega)) h l (by omega)
        rwa [Nat.mod_add_mod, Nat.add_assoc, Nat.add_comm 1] at this

/-- The position that is `m` steps behind `c + 1`. -/
theorem wrap (hc : c < n) {m : ℕ} (hm : m < n) :
    ((c + 1) % n + m) % n = if c + 1 + m < n then c + 1 + m else c + 1 + m - n := by
  rw [Nat.mod_add_mod]
  split
  · exact Nat.mod_eq_of_lt ‹_›
  · rw [Nat.mod_eq_sub_mod (by omega), Nat.mod_eq_of_lt (by omega)]

/-- **The loop finds the next position**, going once round from `c`. -/
theorem search_some (hc : c < n) (h : search p n n ((c + 1) % n) = some j) :
    Next (fun i => p i) n c j := by
  obtain ⟨m, hm, hj, hpj, hl⟩ := exists_of_search (Nat.mod_lt _ (by omega)) h
  rw [wrap hc hm] at hj
  refine ⟨by split at hj <;> omega, hpj, fun i hi hpass => ?_⟩
  -- `i` is `l` steps behind `c + 1`, with `l` less than `m`
  have key : ∀ l < m, i = (if c + 1 + l < n then c + 1 + l else c + 1 + l - n) →
      ¬ p i = true := fun l hlm hil => by
    have := hl l hlm
    rw [wrap hc (by omega), ← hil] at this
    simp [this]
  by_cases hci : c < i
  · refine key (i - c - 1) ?_ ?_
    · unfold Passed at hpass
      split at hj <;> omega
    · rw [if_pos (by omega)]; omega
  · refine key (i + n - c - 1) ?_ ?_
    · unfold Passed at hpass
      split at hj <;> omega
    · rw [if_neg (by omega)]; omega

/-- A whole round without a hit: `p` holds nowhere. -/
theorem search_none (hc : c < n) (h : search p n n ((c + 1) % n) = none) :
    ∀ i < n, p i = false := by
  intro i hi
  have hl := of_search_none (Nat.mod_lt _ (by omega)) h
  by_cases hci : c < i
  · have := hl (i - c - 1) (by omega)
    rwa [wrap hc (by omega), if_pos (by omega), show c + 1 + (i - c - 1) = i by omega] at this
  · have := hl (i + n - c - 1) (by omega)
    rwa [wrap hc (by omega), if_neg (by omega),
      show c + 1 + (i + n - c - 1) - n = i by omega] at this

end Search

/-- The cursor has come to `i` or past it on its way from `a` to `c`. -/
def Swept (a c i : ℕ) : Prop := (a ≤ c ∧ a < i ∧ i ≤ c) ∨ (c < a ∧ (a < i ∨ i ≤ c))

/-- A lap that began at `a`, on a ring of `m` positions at that time, with the cursor at `c` now:
`seen` are the positions visited since. -/
structure Lap (asleep : ℕ → Prop) (a m c : ℕ) (seen : List ℕ) : Prop where
  /-- No position has been visited twice. -/
  nodup : seen.Nodup
  /-- Only positions that the cursor has swept have been visited. -/
  swept : ∀ v ∈ seen, Swept a c v
  /-- Every position that the cursor has swept has been visited, or sleeps. -/
  covered : ∀ i < m, Swept a c i → i ∈ seen ∨ asleep i

namespace Lap

variable {asleep asleep' : ℕ → Prop} {a m n c j : ℕ} {seen : List ℕ}

theorem start (asleep : ℕ → Prop) (a m : ℕ) : Lap asleep a m a [] where
  nodup := .nil
  swept := by intro v hv; cases hv
  covered := by
    intro i _ h
    unfold Swept at h
    omega

/-- The lap goes on while positions fall asleep and new ones appear. -/
theorem mono (h : Lap asleep a m c seen) (hle : ∀ i < m, asleep i → asleep' i) :
    Lap asleep' a m c seen :=
  ⟨h.nodup, h.swept, fun i hi hs => (h.covered i hi hs).imp_right (hle i hi)⟩

/-- The cursor cannot pass a position that is awake. -/
theorem not_passed (hj : Next (fun i => ¬ asleep i) n c j) (ha : a < n) (hawake : ¬ asleep a) :
    ¬ Passed c j a :=
  fun h => hj.skipped a ha h hawake

/-- **One more choice** that does not end the lap. -/
theorem move (h : Lap asleep a m c seen) (hj : Next (fun i => ¬ asleep i) n c j)
    (ha : a < n) (hm : m ≤ n) (hawake : ¬ asleep a) (hne : j ≠ a) :
    Lap asleep a m j (seen ++ [j]) := by
  have hpass := not_passed hj ha hawake
  unfold Passed at hpass
  have hnew : ¬ Swept a c j := by
    unfold Swept; omega
  refine ⟨?_, fun v hv => ?_, fun i hi hs => ?_⟩
  · rw [List.nodup_append]
    refine ⟨h.nodup, by simp, ?_⟩
    intro v hv w hw hvw
    rw [List.mem_singleton] at hw
    subst hvw hw
    exact hnew (h.swept _ hv)
  · rcases List.mem_append.1 hv with hv | hv
    · have := h.swept v hv
      unfold Swept at this ⊢
      omega
    · rw [List.mem_singleton] at hv
      subst hv
      unfold Swept; omega
  · by_cases hold : Swept a c i
    · exact (h.covered i hi hold).imp_left (List.mem_append_left _)
    by_cases hij : i = j
    · exact .inl (by simp [hij])
    · -- between the old cursor and the new one
      have hp : Passed c j i := by
        unfold Swept at hs hold
        unfold Passed
        omega
      exact .inr (not_not.1 (hj.skipped i (by omega) hp))

/-- **The cursor is back at `a`**: every other position of the lap has been visited or sleeps. -/
theorem finish (h : Lap asleep a m c seen) (hj : Next (fun i => ¬ asleep i) n c a) (hm : m ≤ n)
    {i : ℕ} (hi : i < m) (hne : i ≠ a) : i ∈ seen ∨ asleep i := by
  by_cases hold : Swept a c i
  · exact h.covered i hi hold
  · have hp : Passed c a i := by
      unfold Swept at hold
      unfold Passed
      omega
    exact .inr (not_not.1 (hj.skipped i (by omega) hp))

end Lap

end Cyclic

end ROs
