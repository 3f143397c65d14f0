import Mathlib.Logic.Function.Basic

/-!
# Referential integrity

A record may provide identities and point at identities; a store is intact if every identity that a record
points at is provided.
-/

namespace Reasoning

open Function

section Reference

variable {κ α ι : Type} (provides points : κ → α → ι → Prop)

def Provided (store : κ → Option α) (i : ι) : Prop := ∃ k a, store k = some a ∧ provides k a i

def Pointed (store : κ → Option α) (i : ι) : Prop := ∃ k a, store k = some a ∧ points k a i

def Intact (store : κ → Option α) : Prop := ∀ i, Pointed points store i → Provided provides store i

variable {provides points} [DecidableEq κ] {store : κ → Option α} {k : κ}

/-- A record may go if nothing points at what it provides. -/
theorem Intact.remove (h : Intact provides points store)
    (hold : ∀ a i, store k = some a → provides k a i → ¬ Pointed points store i) :
    Intact provides points (update store k none) := by
  rintro i ⟨k₁, a₁, hstor, hpts⟩
  have hne : k₁ ≠ k := by
    rintro rfl
    rw [update_self] at hstor
    cases hstor
  rw [update_of_ne hne] at hstor
  have hpoint : Pointed points store i := ⟨k₁, a₁, hstor, hpts⟩
  obtain ⟨k₂, a₂, hstor₂, hprov⟩ := h i hpoint
  refine ⟨k₂, a₂, ?_, hprov⟩
  rw [update_of_ne]
  · exact hstor₂
  · rintro rfl
    exact hold a₂ i hstor₂ hprov hpoint

/-- A record may be stored if what it points at is provided and if it provides what it takes the place
of, as far as anything points at that. -/
theorem Intact.put (h : Intact provides points store)
    (hnew : ∀ i, points k a i → Provided provides store i)
    (hold : ∀ b i, store k = some b → provides k b i →
      provides k a i ∨ ¬ Pointed points store i ∧ ¬ points k a i) :
    Intact provides points (update store k (some a)) := by
  rintro i ⟨k₁, a₁, hstor, hpts⟩
  -- the identity was provided before, and something points at it
  have hboth : Provided provides store i ∧ (Pointed points store i ∨ points k a i) := by
    by_cases hk : k₁ = k
    · subst hk
      rw [update_self] at hstor
      cases hstor
      exact ⟨hnew i hpts, .inr hpts⟩
    · rw [update_of_ne hk] at hstor
      have hpoint : Pointed points store i := ⟨k₁, a₁, hstor, hpts⟩
      exact ⟨h i hpoint, .inl hpoint⟩
  obtain ⟨⟨k₂, a₂, hstor₂, hprov⟩, hused⟩ := hboth
  by_cases hk : k₂ = k
  · subst hk
    rcases hold a₂ i hstor₂ hprov with hagain | ⟨hunpointed, hnot⟩
    · exact ⟨k₂, a, update_self _ _ _, hagain⟩
    · exact absurd hused (not_or.2 ⟨hunpointed, hnot⟩)
  · exact ⟨k₂, a₂, by rw [update_of_ne hk, hstor₂], hprov⟩

end Reference

end Reasoning
