import Mathlib.Logic.Basic

/-!
# Sequences of checks

A handler is a sequence of checks, each of which ends it with an error or lets it go on, and a result.  The
lemmas take a handler that was answered with a result apart.
-/

namespace Reasoning

section Checks

variable {ε α β : Type}

def require (condition : Bool) (e : ε) : Except ε Unit :=
  if condition then .ok () else .error e

@[simp] theorem require_eq_ok_iff : require condition e = .ok u ↔ condition = true := by
  cases condition <;> simp [require]

/-- The value of a lookup, or the error of a lookup that finds nothing. -/
def present (x : Option α) (e : ε) : Except ε α :=
  match x with
  | some a => .ok a
  | none => .error e

@[simp] theorem present_eq_ok_iff : present x e = .ok a ↔ x = some a := by
  cases x with
  | none | some => simp [present]

theorem error_of_present (h : present x e = .error e') : e = e' := by
  cases x with
  | none => exact Except.error.inj h
  | some a => cases h

theorem error_of_require (h : require condition e = .error e') : e = e' := by
  cases condition with
  | false => exact Except.error.inj h
  | true => cases h

@[simp] theorem bind_eq_ok_iff {f : α → Except ε β} :
    (x >>= f) = .ok b ↔ ∃ a, x = .ok a ∧ f a = .ok b := by
  cases x with
  | error e =>
    constructor
    · intro h
      cases h
    · rintro ⟨a, h, -⟩
      cases h
  | ok a =>
    constructor
    · intro h
      exact ⟨a, rfl, h⟩
    · rintro ⟨a', h, hf⟩
      cases h
      exact hf

theorem bind_eq_error_iff {f : α → Except ε β} :
    (x >>= f) = .error e ↔ x = .error e ∨ ∃ a, x = .ok a ∧ f a = .error e := by
  cases x with
  | error | ok => simp [bind, Except.bind]

@[simp] theorem pure_eq_ok_iff : (pure a : Except ε α) = .ok b ↔ a = b := by
  constructor
  · intro h
    cases h
    rfl
  · intro h
    rw [h]
    rfl

theorem map_eq_ok_iff {x : Except ε α} : x.map f = .ok b ↔ ∃ a, x = .ok a ∧ f a = b := by
  cases x with
  | error | ok => simp [Except.map]

theorem mapError_eq_ok_iff {x : Except ε α} : x.mapError f = .ok a ↔ x = .ok a := by
  cases x with
  | error e =>
    constructor
    all_goals intro h; cases h
  | ok b =>
    constructor
    all_goals intro h; cases h; rfl

theorem error_of_mapError {x : Except ε α} (h : x.mapError f = .error e') : ∃ e, f e = e' := by
  cases x with
  | error e => exact ⟨e, Except.error.inj h⟩
  | ok a => cases h

theorem toOption_eq_some_iff {x : Except ε α} : x.toOption = some a ↔ x = .ok a := by
  cases x with
  | error | ok => simp [Except.toOption]

theorem rel_none_left (h : Option.Rel R none r) : r = none := by
  cases h
  rfl

theorem rel_some_left (h : Option.Rel R (some a) r) : ∃ b, r = some b ∧ R a b := by
  cases h with
  | some hab => exact ⟨_, rfl, hab⟩

end Checks

end Reasoning
