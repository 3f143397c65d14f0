import Gradatum.Reasoning.Run

/-!
# Processes over shared state

A process calls operations one after the other and ends with a result; an operation (`Exec`) is an atomic
step on a shared state.  A run of a pool of processes is an interleaving of single operations.  `Conforms`
says that a process keeps to a protocol.
-/

namespace Reasoning

/-! ## 1. Processes -/

inductive Process (Op : Type) (Ans : Op → Type) (α : Type)
  | done (result : α)
  | call (op : Op) (next : Ans op → Process Op Ans α)

namespace Process

variable {Op : Type} {Ans : Op → Type} {α β : Type}

def bind : Process Op Ans α → (α → Process Op Ans β) → Process Op Ans β
  | .done a, f => f a
  | .call op next, f => .call op fun ans => (next ans).bind f

instance : Monad (Process Op Ans) where
  pure := .done
  bind := bind

/-- The process that makes one call and ends with its answer. -/
def request (op : Op) : Process Op Ans (Ans op) := .call op .done

@[simp] theorem pure_eq (a : α) : (pure a : Process Op Ans α) = .done a := rfl

@[simp] theorem done_bind (a : α) (f : α → Process Op Ans β) : (.done a >>= f) = f a := rfl

@[simp] theorem call_bind (op : Op) (next : Ans op → Process Op Ans α) (f : α → Process Op Ans β) :
    (.call op next >>= f) = .call op fun ans => next ans >>= f := rfl

@[simp] theorem request_bind (op : Op) (f : Ans op → Process Op Ans β) :
    (request op >>= f) = .call op f := rfl

def result? : Process Op Ans α → Option α
  | .done a => some a
  | .call _ _ => none

/-! ## 2. Processes on their own -/

section Eval

variable {σ ω : Type} (step : (op : Op) → σ → Ans op × σ)

/-- The result of a process that nothing interferes with, and the state in which it leaves the store. -/
def eval : Process Op Ans α → σ → α × σ
  | .done a, s => (a, s)
  | .call op next, s => (next (step op s).1).eval (step op s).2

@[simp] theorem eval_done (a : α) (s : σ) : eval step (.done a : Process Op Ans α) s = (a, s) := rfl

@[simp] theorem eval_call (op : Op) (next : Ans op → Process Op Ans α) (s : σ) :
    eval step (.call op next) s = eval step (next (step op s).1) (step op s).2 := rfl

theorem eval_bind (x : Process Op Ans α) (f : α → Process Op Ans β) (s : σ) :
    eval step (x >>= f) s = eval step (f (eval step x s).1) (eval step x s).2 := by
  induction x generalizing s with
  | done a => rfl
  | call op next ih => exact ih _ _

def Calls (P : Op → Prop) : Process Op Ans α → Prop
  | .done _ => True
  | .call op next => P op ∧ ∀ ans, Calls P (next ans)

theorem Calls.bind (hx : Calls P x) (hf : ∀ a, Calls P (f a)) : Calls P (x >>= f) := by
  induction x with
  | done a => exact hf a
  | call op next ih => exact ⟨hx.1, fun ans => ih ans (hx.2 ans)⟩

/-- An operation that sees and changes a part of the state, and depends on that part alone. -/
def Within (view : σ → ω) (op : Op) : Prop :=
  ∀ s t, view s = view t → (step op s).1 = (step op t).1 ∧ view (step op s).2 = view (step op t).2

variable {step}

/-- A process within a part of the state does the same from two states that agree on it. -/
theorem eval_congr (hx : Calls (Within step view) x) (h : view s = view t) :
    (eval step x s).1 = (eval step x t).1 ∧ view (eval step x s).2 = view (eval step x t).2 := by
  induction x generalizing s t with
  | done a => exact ⟨rfl, h⟩
  | call op next ih =>
    obtain ⟨hans, hview⟩ := hx.1 s t h
    rw [eval_call, eval_call, hans]
    exact ih _ (hx.2 _) hview

end Eval

section Conforms

variable {π : Type} (protocol : π → (op : Op) → Ans op → Option π) (Post : π → α → Prop)

/-- From the protocol state `q` on the process makes only calls that the protocol has, whatever they
are answered, and its result fits the protocol state in which it ends. -/
def Conforms : π → Process Op Ans α → Prop
  | q, .done a => Post q a
  | q, .call op next => ∀ ans, ∃ q', protocol q op ans = some q' ∧ Conforms q' (next ans)

variable {protocol Post} {Post' : π → β → Prop}

theorem conforms_request_bind
    (h : ∀ ans, ∃ q', protocol q op ans = some q' ∧ Conforms protocol Post q' (f ans)) :
    Conforms protocol Post q (request op >>= f) := h

theorem Conforms.bind (hx : Conforms protocol Post q x)
    (hf : ∀ q' a, Post q' a → Conforms protocol Post' q' (f a)) : Conforms protocol Post' q (x >>= f) := by
  induction x generalizing q with
  | done a => exact hf q a hx
  | call op next ih =>
    intro ans
    obtain ⟨q', hq', hnext⟩ := hx ans
    exact ⟨q', hq', ih ans hnext⟩

end Conforms

end Process

/-! ## 3. Pools -/

section Pool

variable {Op : Type} {Ans : Op → Type} {σ μ ε α : Type}

/-- A process in a pool: what it remembers, and what is left of it. -/
structure Thread (Op : Type) (Ans : Op → Type) (μ α : Type) where
  memo : μ
  rest : Process Op Ans α

/-- Any number of processes over one shared state. -/
structure Pool (Op : Type) (Ans : Op → Type) (σ μ α : Type) where
  shared : σ
  threads : List (Thread Op Ans μ α)

/-- What an operation answers and does, `ε` being what the environment contributes. -/
abbrev Exec (Op : Type) (Ans : Op → Type) (σ μ ε : Type) :=
  ε → (op : Op) → σ → μ → Ans op × σ × μ

namespace Pool

def advance (exec : Exec Op Ans σ μ ε) (s : Pool Op Ans σ μ α) (i : Nat) (env : ε) :
    Pool Op Ans σ μ α :=
  match s.threads[i]? with
  | some ⟨memo, .call op next⟩ =>
    let (ans, shared, memo') := exec env op s.shared memo
    ⟨shared, s.threads.set i ⟨memo', next ans⟩⟩
  | _ => s

def spawn (s : Pool Op Ans σ μ α) (memo : μ) (p : Process Op Ans α) : Pool Op Ans σ μ α :=
  { s with threads := s.threads ++ [⟨memo, p⟩] }

variable {s : Pool Op Ans σ μ α}

theorem advance_call (h : s.threads[i]? = some ⟨memo, .call op next⟩) : s.advance exec i env =
      ⟨(exec env op s.shared memo).2.1,
        s.threads.set i ⟨(exec env op s.shared memo).2.2, next (exec env op s.shared memo).1⟩⟩ := by
  unfold advance
  rw [h]

theorem advance_cases (exec : Exec Op Ans σ μ ε) (s : Pool Op Ans σ μ α) (i : Nat) (env : ε) :
    s.advance exec i env = s ∨ ∃ memo op next, s.threads[i]? = some ⟨memo, .call op next⟩ ∧
        s.advance exec i env = ⟨(exec env op s.shared memo).2.1, s.threads.set i
              ⟨(exec env op s.shared memo).2.2, next (exec env op s.shared memo).1⟩⟩ := by
  rcases h : s.threads[i]? with _ | ⟨memo, _ | ⟨op, next⟩⟩
  · left
    unfold advance
    rw [h]
  · left
    unfold advance
    rw [h]
  · right
    exact ⟨memo, op, next, rfl, advance_call h⟩

theorem getElem?_spawn {j : Nat}
    (h : s.threads[j]? = some t) : (s.spawn memo p).threads[j]? = some t := by
  have hlt : j < s.threads.length := (List.getElem?_eq_some_iff.1 h).1
  show (s.threads ++ [_])[j]? = some t
  rw [List.getElem?_append_left hlt]
  exact h

theorem spawn_cases (h : (s.spawn memo p).threads[j]? = some t) :
    j ≠ s.threads.length ∧ s.threads[j]? = some t ∨ j = s.threads.length ∧ t = ⟨memo, p⟩ := by
  rw [show (s.spawn memo p).threads = s.threads ++ [⟨memo, p⟩] from rfl] at h
  rcases Nat.lt_trichotomy j s.threads.length with hj | hj | hj
  · rw [List.getElem?_append_left hj] at h
    exact .inl ⟨by omega, h⟩
  · rw [hj, List.getElem?_append_right (Nat.le_refl _)] at h
    exact .inr ⟨hj, by simpa using h.symm⟩
  · rw [List.getElem?_eq_none (by simp; omega)] at h
    cases h

end Pool

end Pool

end Reasoning
