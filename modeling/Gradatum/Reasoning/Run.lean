import Mathlib.Data.List.Infix

/-!
# Runs of a step function

An interleaving of any number of parties is the list of their events, and `run` is the state it leads to.
`EachStep P` says that every step of the run meets `P` in the state it is taken from, `Always P` that every
state of the run does.
-/

namespace Reasoning

section Run

variable {σ ε : Type} (step : σ → ε → σ)

def run (s : σ) (es : List ε) : σ := es.foldl step s

@[simp] theorem run_nil (s : σ) : run step s [] = s := rfl

@[simp] theorem run_cons (s : σ) (e : ε) (es : List ε) :
    run step s (e :: es) = run step (step s e) es := rfl

theorem run_append (s : σ) (es fs : List ε) : run step s (es ++ fs) = run step (run step s es) fs := by
  simp [run, List.foldl_append]

theorem run_snoc (before es : List ε) : run (fun before e => before ++ [e]) before es = before ++ es := by
  induction es generalizing before with
  | nil => simp
  | cons e es ih => simp [ih]

def EachStep (P : σ → ε → Prop) : σ → List ε → Prop
  | _, [] => True
  | s, e :: es => P s e ∧ EachStep P (step s e) es

instance EachStep.decidable (P : σ → ε → Prop) [∀ s e, Decidable (P s e)] :
    (s : σ) → (es : List ε) → Decidable (EachStep step P s es)
  | _, [] => isTrue trivial
  | s, e :: es => @instDecidableAnd _ _ _ (EachStep.decidable P (step s e) es)

/-- Every state of the run of `es` from `s` meets `P`, the first and the last one included. -/
def Always (P : σ → Prop) (s : σ) (es : List ε) : Prop :=
  ∀ pre, pre <+: es → P (run step s pre)

variable {step} {P Q : σ → ε → Prop} {Inv : σ → Prop} {s : σ} {es fs : List ε}

@[simp] theorem eachStep_nil : EachStep step P s [] := trivial

@[simp] theorem eachStep_cons :
    EachStep step P s (e :: es) ↔ P s e ∧ EachStep step P (step s e) es := Iff.rfl

theorem eachStep_append :
    EachStep step P s (es ++ fs) ↔ EachStep step P s es ∧ EachStep step P (run step s es) fs := by
  induction es generalizing s with
  | nil => simp
  | cons e es ih => simp [ih, and_assoc]

theorem eachStep_iff_forall_append :
    EachStep step P s es ↔ ∀ pre e, pre ++ [e] <+: es → P (run step s pre) e := by
  induction es generalizing s with
  | nil => simp
  | cons e es ih =>
    rw [eachStep_cons, ih]
    constructor
    · rintro ⟨hfirst, hrest⟩ pre e' hpre
      cases pre with
      | nil =>
        obtain ⟨rfl, -⟩ := List.cons_prefix_cons.1 hpre
        exact hfirst
      | cons e₁ pre =>
        obtain ⟨rfl, htail⟩ := List.cons_prefix_cons.1 hpre
        exact hrest pre e' htail
    · intro h
      refine ⟨h [] e (by simp), fun pre e' hpre => ?_⟩
      exact h (e :: pre) e' (by simpa using hpre)

theorem EachStep.mono (h : EachStep step P s es) (hPQ : ∀ s e, P s e → Q s e) :
    EachStep step Q s es := by
  induction es generalizing s with
  | nil => trivial
  | cons e es ih => exact ⟨hPQ s e h.1, ih h.2⟩

theorem EachStep.and (hP : EachStep step P s es) (hQ : EachStep step Q s es) :
    EachStep step (fun s e => P s e ∧ Q s e) s es := by
  induction es generalizing s with
  | nil => trivial
  | cons e es ih => exact ⟨⟨hP.1, hQ.1⟩, ih hP.2 hQ.2⟩

/-- A step property that every event of the list has in the states that meet an invariant of all
steps. -/
theorem EachStep.of_forall_mem (Inv : σ → Prop) (hs : Inv s) (hstep : ∀ s e, Inv s → Inv (step s e))
    (h : ∀ s, Inv s → ∀ e ∈ es, P s e) : EachStep step P s es := by
  induction es generalizing s with
  | nil => trivial
  | cons e es ih =>
    refine ⟨h s hs e (by simp), ih (hstep s e hs) fun s hs e' he' => ?_⟩
    exact h s hs e' (by simp [he'])

theorem eachStep_congr (h : ∀ s, ∀ e ∈ es, (P s e ↔ Q s e)) :
    EachStep step P s es ↔ EachStep step Q s es := by
  induction es generalizing s with
  | nil => simp
  | cons e es ih =>
    rw [eachStep_cons, eachStep_cons, h s e (by simp)]
    rw [ih fun s e' he' => h s e' (by simp [he'])]

/-- The invariant rule: what each step that meets `P` preserves holds after a run of such steps. -/
theorem EachStep.inv_run (hs : Inv s) (hstep : ∀ s e, Inv s → P s e → Inv (step s e))
    (h : EachStep step P s es) : Inv (run step s es) := by
  induction es generalizing s with
  | nil => exact hs
  | cons e es ih => exact ih (hstep s e hs h.1) h.2

theorem EachStep.restrict (h : EachStep step P s es) (hpre : pre <+: es) : EachStep step P s pre := by
  obtain ⟨rest, rfl⟩ := hpre
  exact (eachStep_append.1 h).1

theorem EachStep.always (hs : Inv s) (hstep : ∀ s e, Inv s → P s e → Inv (step s e))
    (h : EachStep step P s es) : Always step Inv s es :=
  fun _ hpre => (h.restrict hpre).inv_run hs hstep

/-- The invariant rule for steps that need no guard. -/
theorem inv_run (hs : Inv s) (hstep : ∀ s e, Inv s → Inv (step s e)) (es : List ε) :
    Inv (run step s es) := by
  induction es generalizing s with
  | nil => exact hs
  | cons e es ih => exact ih (hstep s e hs)

/-- A property of states holds throughout a run just when it holds at first and after every step. -/
theorem always_iff_eachStep :
    Always step Inv s es ↔ Inv s ∧ EachStep step (fun s e => Inv (step s e)) s es := by
  constructor
  · intro h
    refine ⟨h [] List.nil_prefix, eachStep_iff_forall_append.2 fun pre e hpre => ?_⟩
    have hafter := h (pre ++ [e]) hpre
    rw [run_append] at hafter
    exact hafter
  · rintro ⟨hs, h⟩
    exact h.always hs fun _ _ _ hafter => hafter

/-- The rule for a property of steps: a step that meets `P` in a state that meets `Inv` meets `Q`. -/
theorem EachStep.imp_of_inv (hs : Inv s) (hstep : ∀ s e, Inv s → P s e → Inv (step s e))
    (hPQ : ∀ s e, Inv s → P s e → Q s e) (h : EachStep step P s es) : EachStep step Q s es := by
  induction es generalizing s with
  | nil => trivial
  | cons e es ih => exact ⟨hPQ s e hs h.1, ih (hstep s e hs h.1) h.2⟩

/-- The exactness rule: if in a state that meets `Inv` a step is good just when it is guarded, and
good steps keep `Inv`, then the runs of good steps are the runs of guarded ones. -/
theorem eachStep_iff_of_inv (hs : Inv s) (hstep : ∀ s e, Inv s → P s e → Inv (step s e))
    (hPQ : ∀ s e, Inv s → (P s e ↔ Q s e)) : EachStep step P s es ↔ EachStep step Q s es := by
  induction es generalizing s with
  | nil => simp
  | cons e es ih =>
    rw [eachStep_cons, eachStep_cons, hPQ s e hs]
    refine and_congr_right fun hq => ?_
    exact ih (hstep s e hs ((hPQ s e hs).2 hq))

/-- A reflexive and transitive relation holds between any two states of a run, the earlier one first,
just when it holds across every step. -/
theorem eachStep_iff_between {R : σ → σ → Prop} (hrefl : ∀ s, R s s)
    (htrans : ∀ s₁ s₂ s₃, R s₁ s₂ → R s₂ s₃ → R s₁ s₃) :
    EachStep step (fun s e => R s (step s e)) s es ↔
      ∀ pre post, pre ++ post <+: es → R (run step s pre) (run step s (pre ++ post)) := by
  constructor
  · intro h pre post hpre
    have hpost := (eachStep_append.1 (h.restrict hpre)).2
    rw [run_append]
    exact hpost.inv_run (hrefl _) fun s₂ e h₂ hstep => htrans _ s₂ _ h₂ hstep
  · intro h
    rw [eachStep_iff_forall_append]
    intro pre e hpre
    have hR := h pre [e] hpre
    rw [run_append] at hR
    exact hR

end Run

end Reasoning
