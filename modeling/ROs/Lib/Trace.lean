import Mathlib.Order.WellFounded
import Mathlib.Tactic.Common

/-!
# Traces of a step relation

`Trace step s es s'` says that the events `es`, performed in order, lead from `s` to `s'`.  A
property of all runs is proved from one step: `Trace.invariant` for an invariant,
`Trace.history` for one that mentions the events so far, `Trace.simulate` for a simulation by
another system with the same events.  A run whose steps all meet a condition is a trace of the
restricted relation (`Trace.mono` forgets the condition).  A goal is reached if a variant decreases
until then (`Trace.exists_of_lt`).

For a step function, `forall_prefix_iff` says which runs have a property in all their states: if
every good step keeps it and every bad step breaks it, those without a bad step.
-/

namespace ROs

/-- The runs of `step`, with the list of their events. -/
inductive Trace {S E : Type*} (step : S → E → S → Prop) : S → List E → S → Prop
  | nil (s : S) : Trace step s [] s
  | cons {s s' s'' : S} {e : E} {es : List E} :
      step s e s' → Trace step s' es s'' → Trace step s (e :: es) s''

namespace Trace

variable {S T E : Type*} {step step' : S → E → S → Prop} {s s' s'' : S} {es es' : List E}

theorem single {e : E} (h : step s e s') : Trace step s [e] s' := .cons h (.nil _)

theorem append (h : Trace step s es s') (h' : Trace step s' es' s'') :
    Trace step s (es ++ es') s'' := by
  induction h with
  | nil => exact h'
  | cons hst _ ih => exact .cons hst (ih h')

/-- A predicate kept by every step is kept by every run. -/
theorem invariant {I : S → Prop} (hstep : ∀ s e s', I s → step s e s' → I s')
    (h : Trace step s es s') (hs : I s) : I s' := by
  induction h with
  | nil => exact hs
  | cons hst _ ih => exact ih (hstep _ _ _ hs hst)

/-- An invariant about the state and the events so far, after the events `pre`. -/
theorem history_append {I : List E → S → Prop} {pre : List E}
    (hstep : ∀ pre s e s', I pre s → step s e s' → I (pre ++ [e]) s')
    (h : Trace step s es s') (hs : I pre s) : I (pre ++ es) s' := by
  induction h generalizing pre with
  | nil => rwa [List.append_nil]
  | cons hst _ ih =>
    have := ih (hstep _ _ _ _ hs hst)
    rwa [List.append_assoc] at this

/-- An invariant about the state and the events so far. -/
theorem history {I : List E → S → Prop}
    (hstep : ∀ pre s e s', I pre s → step s e s' → I (pre ++ [e]) s')
    (h : Trace step s es s') (hs : I [] s) : I es s' := by
  have := history_append hstep h hs
  rwa [List.nil_append] at this

/-- Every run of a smaller relation is a run of a larger one. -/
theorem mono (hle : ∀ s e s', step s e s' → step' s e s') (h : Trace step s es s') :
    Trace step' s es s' := by
  induction h with
  | nil => exact .nil _
  | cons hst _ ih => exact .cons (hle _ _ _ hst) ih

/-- A run all of whose events meet a condition is a run of the restricted relation. -/
theorem restrict {P : E → Prop} (h : Trace step s es s') (hes : ∀ e ∈ es, P e) :
    Trace (fun a e b => step a e b ∧ P e) s es s' := by
  induction h with
  | nil => exact .nil _
  | cons hst _ ih =>
    exact .cons ⟨hst, hes _ List.mem_cons_self⟩ (ih fun e he => hes e (List.mem_cons_of_mem _ he))

/-- A step-by-step simulation carries every run over, with the same events. -/
theorem simulate {N : T → E → T → Prop} {R : S → T → Prop}
    (hstep : ∀ s e s' t, R s t → step s e s' → ∃ t', N t e t' ∧ R s' t')
    (h : Trace step s es s') {t : T} (hR : R s t) : ∃ t', Trace N t es t' ∧ R s' t' := by
  induction h generalizing t with
  | nil => exact ⟨t, .nil _, hR⟩
  | cons hst _ ih =>
    obtain ⟨t', ht, hR'⟩ := hstep _ _ _ _ hR hst
    obtain ⟨t'', ht', hR''⟩ := ih hR'
    exact ⟨t'', .cons ht ht', hR''⟩

/-- **A goal is reached** from every state from which a step can be made that decreases a variant, as
long as it is not a goal itself.  `I` is what these steps keep. -/
theorem exists_of_lt {A : Type*} [LT A] [WellFoundedLT A] (variant : S → A)
    {I : List E → S → Prop} {goal : S → Prop} {pre : List E}
    (hstep : ∀ pre s, I pre s → ¬ goal s →
      ∃ e s', step s e s' ∧ I (pre ++ [e]) s' ∧ variant s' < variant s)
    (hs : I pre s) : ∃ es s', Trace step s es s' ∧ I (pre ++ es) s' ∧ goal s' := by
  induction hv : variant s using WellFoundedLT.induction generalizing pre s with
  | ind v ih =>
    by_cases hgoal : goal s
    · exact ⟨[], s, .nil s, by rwa [List.append_nil], hgoal⟩
    · obtain ⟨e, s', hst, hs', hlt⟩ := hstep pre s hs hgoal
      obtain ⟨es, s'', htrace, hs'', hgoal'⟩ := ih _ (hv ▸ hlt) hs' rfl
      refine ⟨e :: es, s'', .cons hst htrace, ?_, hgoal'⟩
      rwa [List.append_assoc] at hs''

end Trace

/-- The property `P` holds after every part of a run exactly if no step of it is bad.  `I` is what
the good steps keep. -/
theorem forall_prefix_iff {S E : Type*} {step : S → E → S} {I P : S → Prop} {Q : E → Prop}
    {bad : S → E → Prop} (hP : ∀ s, I s → P s)
    (hgood : ∀ s e, Q e → I s → ¬ bad s e → I (step s e))
    (hbad : ∀ s e, I s → bad s e → ¬ P (step s e)) {s : S} (hs : I s) {es : List E}
    (hes : ∀ e ∈ es, Q e) :
    (∀ pre, pre <+: es → P (pre.foldl step s)) ↔
      ∀ pre e, pre ++ [e] <+: es → ¬ bad (pre.foldl step s) e := by
  induction es generalizing s with
  | nil =>
    refine ⟨fun _ pre e hpre => ?_, fun _ pre hpre => ?_⟩
    · simp at hpre
    · rw [List.prefix_nil.1 hpre]
      exact hP s hs
  | cons e es ih =>
    rw [List.forall_mem_cons] at hes
    constructor
    · intro hall pre e' hpre
      -- the first step is not bad, since the property holds after it
      have hfirst : ¬ bad s e := fun hb => hbad s e hs hb (hall [e] (by simp))
      have hrest := (ih (hgood s e hes.1 hs hfirst) hes.2).1 fun pre hpre =>
        hall (e :: pre) ((List.prefix_cons_inj e).2 hpre)
      cases pre with
      | nil =>
        obtain ⟨rfl, -⟩ := List.cons_prefix_cons.1 hpre
        exact hfirst
      | cons e₁ pre =>
        obtain ⟨rfl, hpre'⟩ := List.cons_prefix_cons.1 hpre
        exact hrest pre e' hpre'
    · intro hall pre hpre
      have hfirst : ¬ bad s e := hall [] e (by simp)
      have hrest := (ih (hgood s e hes.1 hs hfirst) hes.2).2 fun pre e' hpre =>
        hall (e :: pre) e' ((List.prefix_cons_inj e).2 hpre)
      cases pre with
      | nil => exact hP s hs
      | cons e₁ pre =>
        obtain ⟨rfl, hpre'⟩ := List.cons_prefix_cons.1 hpre
        exact hrest pre hpre'

end ROs
