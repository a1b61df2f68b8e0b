import Mathlib.Tactic.Common
import Mathlib.Data.Nat.Notation

/-!
# Layers and painting programs

A *layer* shows a value at some points and nothing at others; `Layer.atop top bot` puts one layer
over another and `Layer.stack` a whole list, later layers over earlier ones.  At every point a
stack shows what the last layer covering the point shows (`Layer.stack_eq_findSome?`): this is
the painter's algorithm.

A `Surface` says how a buffer `B` shows contents `K` at points `P` and what putting a value on a
point makes of its contents.  `S.Paints l d` says that the program `d` on buffers, which may fail,
succeeds on every buffer of the surface and paints exactly the layer `l`.  Programs compose as
their layers do: `Paints.comp` for a sequence, `Paints.foldlM` for a loop.  `S.Confines s d` says of
`d` only where it paints.
-/

namespace ROs

/-- What is shown at each point, if anything. -/
abbrev Layer (P C : Type*) := P → Option C

namespace Layer

variable {P C A : Type*}

/-- The layer that shows nothing. -/
def clear : Layer P C := fun _ => none

/-- One layer over another. -/
def atop (top bot : Layer P C) : Layer P C := fun p => (top p).or (bot p)

/-- A list of layers, each over the ones before it. -/
def stack : List (Layer P C) → Layer P C
  | [] => clear
  | l :: ls => atop (stack ls) l

/-- One value on a set of points. -/
def fill (s : P → Prop) [DecidablePred s] (c : C) : Layer P C := fun p => if s p then some c else none

@[simp] theorem clear_apply (p : P) : (clear : Layer P C) p = none := rfl

theorem atop_apply (top bot : Layer P C) (p : P) : atop top bot p = (top p).or (bot p) := rfl

theorem fill_apply (s : P → Prop) [DecidablePred s] (c : C) (p : P) :
    fill s c p = if s p then some c else none := rfl

/-- **The painter's algorithm**: the last layer that covers a point is the one shown. -/
theorem stack_eq_findSome? (ls : List (Layer P C)) (p : P) :
    stack ls p = ls.reverse.findSome? (· p) := by
  induction ls with
  | nil => rfl
  | cons l ls ih =>
    rw [stack, atop_apply, ih, List.reverse_cons, List.findSome?_append, List.findSome?_singleton]

/-- A stack of layers that never disagree is their union. -/
theorem stack_map_eq {as : List A} {l : A → Layer P C} {p : P} {o : Option C}
    (h : ∀ a ∈ as, l a p = none ∨ l a p = o) (ho : o = none ∨ ∃ a ∈ as, l a p = o) :
    stack (as.map l) p = o := by
  rw [stack_eq_findSome?]
  cases hf : (as.map l).reverse.findSome? (· p) with
  | some c =>
    obtain ⟨_, hl, hc⟩ := List.exists_of_findSome?_eq_some hf
    obtain ⟨a, ha, rfl⟩ := List.mem_map.1 (List.mem_reverse.1 hl)
    rcases h a ha with hn | he
    · rw [hn] at hc
      cases hc
    · rw [← he, hc]
  | none =>
    rcases ho with rfl | ⟨a, ha, he⟩
    · rfl
    · rw [← he]
      exact (List.findSome?_eq_none_iff.1 hf (l a)
        (List.mem_reverse.2 (List.mem_map_of_mem ha))).symm

end Layer

/-- A kind of buffer that can be painted. -/
structure Surface (B P C K : Type*) where
  /-- The buffers of this surface. -/
  Ok : B → Prop
  /-- The points that can be seen. -/
  Live : P → Prop
  /-- The contents of a point. -/
  look : B → P → K
  /-- The contents of a point after a value is put on it. -/
  mix : C → K → K
  /-- A second value hides the first. -/
  mix_mix : ∀ c c' k, mix c (mix c' k) = mix c k

namespace Surface

variable {B P C K A : Type*} (S : Surface B P C K)

/-- The contents of a point under what a layer shows there. -/
def apply : Option C → K → K
  | none, k => k
  | some c, k => S.mix c k

@[simp] theorem apply_none (k : K) : S.apply none k = k := rfl

@[simp] theorem apply_some (c : C) (k : K) : S.apply (some c) k = S.mix c k := rfl

theorem apply_or (o o' : Option C) (k : K) : S.apply (o.or o') k = S.apply o (S.apply o' k) := by
  cases o <;> cases o' <;> simp [S.mix_mix]

/-- `d` succeeds on every buffer of the surface and paints the layer `l`. -/
def Paints (l : Layer P C) (d : B → Option B) : Prop :=
  ∀ b, S.Ok b → ∃ b', d b = some b' ∧ S.Ok b' ∧
    ∀ p, S.Live p → S.look b' p = S.apply (l p) (S.look b p)

variable {S} {l l' : Layer P C} {d d' : B → Option B}

theorem Paints.skip : S.Paints Layer.clear some :=
  fun b hb => ⟨b, rfl, hb, fun _ _ => rfl⟩

theorem Paints.congr (h : S.Paints l d) (hl : ∀ p, S.Live p → l p = l' p) : S.Paints l' d := by
  intro b hb
  obtain ⟨b', hd, hb', hlook⟩ := h b hb
  exact ⟨b', hd, hb', fun p hp => by rw [hlook p hp, hl p hp]⟩

theorem Paints.comp (h : S.Paints l d) (h' : S.Paints l' d') :
    S.Paints (Layer.atop l' l) fun b => (d b).bind d' := by
  intro b hb
  obtain ⟨b', hd, hb', hlook⟩ := h b hb
  obtain ⟨b'', hd', hb'', hlook'⟩ := h' b' hb'
  refine ⟨b'', by simp [hd, hd'], hb'', fun p hp => ?_⟩
  rw [hlook' p hp, hlook p hp, Layer.atop_apply, S.apply_or]

/-- A loop paints the stack of the layers of its steps. -/
theorem Paints.foldlM {f : B → A → Option B} {g : A → Layer P C} {as : List A}
    (h : ∀ a ∈ as, S.Paints (g a) fun b => f b a) :
    S.Paints (Layer.stack (as.map g)) fun b => as.foldlM f b := by
  induction as with
  | nil => exact Paints.skip
  | cons a as ih =>
    simpa [Layer.stack] using (h a List.mem_cons_self).comp
      (ih fun a' ha' => h a' (List.mem_cons_of_mem _ ha'))

/-- A loop over layers that never disagree paints their union. -/
theorem Paints.foldlM_union {f : B → A → Option B} {g : A → Layer P C} {as : List A}
    (h : ∀ a ∈ as, S.Paints (g a) fun b => f b a)
    (hl : ∀ p, S.Live p → (∀ a ∈ as, g a p = none ∨ g a p = l p) ∧
      (l p = none ∨ ∃ a ∈ as, g a p = l p)) :
    S.Paints l fun b => as.foldlM f b :=
  (Paints.foldlM h).congr fun p hp => Layer.stack_map_eq (hl p hp).1 (hl p hp).2

/-- A loop over single-valued layers paints the union of their points. -/
theorem Paints.foldlM_fill {f : B → A → Option B} {as : List A} {s : A → P → Prop} {t : P → Prop}
    [∀ a, DecidablePred (s a)] [DecidablePred t] {c : C}
    (h : ∀ a ∈ as, S.Paints (Layer.fill (s a) c) fun b => f b a)
    (ht : ∀ p, S.Live p → (t p ↔ ∃ a ∈ as, s a p)) :
    S.Paints (Layer.fill t c) fun b => as.foldlM f b := by
  refine Paints.foldlM_union h fun p hp => ?_
  simp only [Layer.fill_apply]
  by_cases hs : t p
  · obtain ⟨a, ha, hap⟩ := (ht p hp).1 hs
    refine ⟨fun a _ => ?_, .inr ⟨a, ha, by rw [if_pos hap, if_pos hs]⟩⟩
    rw [if_pos hs]
    split
    · exact .inr rfl
    · exact .inl rfl
  · refine ⟨fun a ha => .inl (if_neg fun hap => hs ((ht p hp).2 ⟨a, ha, hap⟩)), .inl (if_neg hs)⟩

/-- `d` succeeds on every buffer of the surface and changes the contents of the points in `s` only. -/
def Confines (S : Surface B P C K) (s : P → Prop) (d : B → Option B) : Prop :=
  ∀ b, S.Ok b → ∃ b', d b = some b' ∧ S.Ok b' ∧ ∀ p, S.Live p → ¬ s p → S.look b' p = S.look b p

/-- A program that paints a layer changes the points that the layer covers. -/
theorem Paints.confines {s : P → Prop} (h : S.Paints l d)
    (hl : ∀ p, S.Live p → ¬ s p → l p = none) : S.Confines s d := by
  intro b hb
  obtain ⟨b', hd, hb', hlook⟩ := h b hb
  refine ⟨b', hd, hb', fun p hp hs => ?_⟩
  rw [hlook p hp, hl p hp hs, S.apply_none]

theorem Confines.comp {s : P → Prop} (h : S.Confines s d) (h' : S.Confines s d') :
    S.Confines s fun b => (d b).bind d' := by
  intro b hb
  obtain ⟨b', hd, hb', hlook⟩ := h b hb
  obtain ⟨b'', hd', hb'', hlook'⟩ := h' b' hb'
  refine ⟨b'', by simp [hd, hd'], hb'', fun p hp hs => ?_⟩
  rw [hlook' p hp hs, hlook p hp hs]

theorem Confines.foldlM {s : P → Prop} {f : B → A → Option B} {as : List A}
    (h : ∀ a ∈ as, S.Confines s fun b => f b a) : S.Confines s fun b => as.foldlM f b := by
  induction as with
  | nil => exact fun b hb => ⟨b, rfl, hb, fun _ _ _ => rfl⟩
  | cons a as ih =>
    simpa using (h a List.mem_cons_self).comp (ih fun a' ha' => h a' (List.mem_cons_of_mem _ ha'))

end Surface

end ROs
