import Mathlib.Tactic.TypeStar

/-! Programs that call their surroundings: what holds of every call whatever the earlier ones
returned, and runs over a handler that answers the calls.
-/

namespace Transition

/-- A program over the calls `C`, each answered by a value of its own type. -/
inductive Program (C : Type) (R : C → Type) (α : Type) where
  | ret (value : α)
  | call (request : C) (next : R request → Program C R α)

namespace Program

variable {C : Type} {R : C → Type} {α β M σ ε : Type}

def bind : Program C R α → (α → Program C R β) → Program C R β
  | ret value, f => f value
  | call request next, f => call request (fun reply => bind (next reply) f)

instance : Monad (Program C R) where
  pure := ret
  bind := bind

@[simp] theorem pure_eq (value : α) : (pure value : Program C R α) = ret value := rfl

@[simp] theorem ret_bind (value : α) (f : α → Program C R β)
    : (ret value >>= f) = f value := rfl

@[simp] theorem call_bind (request : C) (next : R request → Program C R α)
    (f : α → Program C R β)
    : (call request next >>= f) = call request (fun reply => next reply >>= f) := rfl

/-- What is kept about the calls made so far, and the calls that it still allows. -/
structure Monitor (C : Type) (R : C → Type) (M : Type) where
  allows : M → C → Prop
  after : M → (request : C) → R request → M

/-- Whatever its calls return, a program makes allowed calls only and ends in `post`. -/
inductive Safe (monitor : Monitor C R M) (post : M → α → Prop) : M → Program C R α → Prop
  | ret {m : M} {value : α} (ends : post m value) : Safe monitor post m (ret value)
  | call {m : M} {request : C} {next : R request → Program C R α}
      (allowed : monitor.allows m request)
      (rest : ∀ reply, Safe monitor post (monitor.after m request reply) (next reply))
      : Safe monitor post m (call request next)

variable {monitor : Monitor C R M}

theorem Safe.of_ret {post : M → α → Prop} {m : M} {value : α}
    (safe : Safe monitor post m (Program.ret value))
    : post m value := by
  cases safe with
  | ret ends => exact ends

theorem Safe.of_call {post : M → α → Prop} {m : M} {request : C}
    {next : R request → Program C R α} (safe : Safe monitor post m (Program.call request next))
    : monitor.allows m request
      ∧ ∀ reply, Safe monitor post (monitor.after m request reply) (next reply) := by
  cases safe with
  | call allowed rest => exact ⟨allowed, rest⟩

/-- A sequence is safe if its first part is and ends where the second part is. -/
theorem Safe.bind {post : M → β → Prop} {m : M} {p : Program C R α}
    {f : α → Program C R β}
    (safe : Safe monitor (fun m value => Safe monitor post m (f value)) m p)
    : Safe monitor post m (p >>= f) := by
  induction safe with
  | ret ends => exact ends
  | call allowed _ ih => exact .call allowed ih

theorem Safe.mono {post post' : M → α → Prop} {m : M} {p : Program C R α}
    (safe : Safe monitor post m p) (weaker : ∀ m value, post m value → post' m value)
    : Safe monitor post' m p := by
  induction safe with
  | ret ends => exact .ret (weaker _ _ ends)
  | call allowed _ ih => exact .call allowed ih

theorem Safe.ite {post : M → α → Prop} {m : M} {c : Prop} [Decidable c] {p q : Program C R α}
    (yes : c → Safe monitor post m p) (no : ¬c → Safe monitor post m q)
    : Safe monitor post m (if c then p else q) := by
  by_cases holds : c
  · rw [if_pos holds]
    exact yes holds
  · rw [if_neg holds]
    exact no holds

/-- A program that is safe under one monitor is safe under another that allows its calls and
moves along with it.
-/
theorem Safe.transport {N : Type} {other : Monitor C R N} {linked : M → N → Prop}
    {post : M → α → Prop} {post' : N → α → Prop} {m : M} {n : N} {p : Program C R α}
    (safe : Safe monitor post m p) (start : linked m n)
    (allowed : ∀ m n request, linked m n → monitor.allows m request → other.allows n request)
    (moved : ∀ m n request reply, linked m n → monitor.allows m request
      → linked (monitor.after m request reply) (other.after n request reply))
    (ends : ∀ m n value, linked m n → post m value → post' n value)
    : Safe other post' n p := by
  induction safe generalizing n with
  | ret holds => exact .ret (ends _ n _ start holds)
  | call allows _ ih =>
      refine .call (allowed _ n _ start allows) ?_
      intro reply
      exact ih reply (moved _ n _ reply start allows)

/-- The run of a program over a handler that answers each call and changes a state. -/
def run (handle : (request : C) → σ → Except ε (R request × σ))
    : Program C R α → σ → Except ε (α × σ)
  | ret value, s => .ok (value, s)
  | call request next, s =>
      match handle request s with
      | .error stop => .error stop
      | .ok (reply, t) => run handle (next reply) t

variable {handle : (request : C) → σ → Except ε (R request × σ)}

@[simp] theorem run_ret (value : α) (s : σ)
    : run handle (ret value : Program C R α) s = .ok (value, s) := rfl

theorem run_call {request : C} {next : R request → Program C R α} {s t : σ}
    {reply : R request} (answer : handle request s = .ok (reply, t))
    : run handle (call request next) s = run handle (next reply) t := by
  rw [run, answer]

theorem run_call_error {request : C} {next : R request → Program C R α} {s : σ} {stop : ε}
    (answer : handle request s = .error stop)
    : run handle (call request next) s = .error stop := by
  rw [run, answer]

/-- A sequence goes on where its first part ends. -/
theorem run_bind {p : Program C R α} {f : α → Program C R β} {s t : σ} {value : α}
    (ran : run handle p s = .ok (value, t))
    : run handle (p >>= f) s = run handle (f value) t := by
  induction p generalizing s with
  | ret result =>
      cases ran
      rfl
  | call request next ih =>
      cases answer : handle request s with
      | error stop => cases (run_call_error answer).symm.trans ran
      | ok result =>
          obtain ⟨reply, u⟩ := result
          have rest := (run_call answer).symm.trans ran
          exact (run_call answer).trans (ih reply rest)

/-- What every answer keeps holds behind a run. -/
theorem run_keeps {holds : σ → Prop}
    (kept : ∀ request s reply t, holds s → handle request s = .ok (reply, t) → holds t)
    {p : Program C R α} {s t : σ} {value : α} (start : holds s)
    (ran : run handle p s = .ok (value, t))
    : holds t := by
  induction p generalizing s with
  | ret result =>
      cases ran
      exact start
  | call request next ih =>
      cases answer : handle request s with
      | error stop => cases (run_call_error answer).symm.trans ran
      | ok result =>
          obtain ⟨reply, u⟩ := result
          have rest := (run_call answer).symm.trans ran
          exact ih reply (kept request s reply u start answer) rest

/-- A safe program under a handler that keeps what links its state to the monitor ends, if it
returns, in the postcondition.
-/
theorem Safe.run_of_ok {linked : M → σ → Prop} {post : M → α → Prop} {m : M} {s t : σ}
    {value : α} {p : Program C R α} (safe : Safe monitor post m p) (start : linked m s)
    (answers : ∀ m s request reply t, linked m s → monitor.allows m request
      → handle request s = .ok (reply, t) → linked (monitor.after m request reply) t)
    (ran : run handle p s = .ok (value, t))
    : ∃ m', linked m' t ∧ post m' value := by
  induction safe generalizing s with
  | ret ends =>
      cases ran
      exact ⟨_, start, ends⟩
  | @call m request next allowed _ ih =>
      cases answer : handle request s with
      | error stop => cases (run_call_error answer).symm.trans ran
      | ok result =>
          obtain ⟨reply, u⟩ := result
          have rest := (run_call answer).symm.trans ran
          exact ih reply (answers m s request reply u start allowed answer) rest

/-- A safe program under a handler that keeps what links its state to the monitor runs to an
end, and ends in the postcondition.
-/
theorem Safe.run_ok {linked : M → σ → Prop} {post : M → α → Prop} {m : M} {s : σ}
    {p : Program C R α} (safe : Safe monitor post m p) (start : linked m s)
    (answers : ∀ m s request, linked m s → monitor.allows m request
      → ∃ reply t, handle request s = .ok (reply, t)
        ∧ linked (monitor.after m request reply) t)
    : ∃ value m' t, run handle p s = .ok (value, t) ∧ linked m' t ∧ post m' value := by
  induction safe generalizing s with
  | ret ends => exact ⟨_, _, s, rfl, start, ends⟩
  | call allowed _ ih =>
      obtain ⟨reply, t, answer, linked'⟩ := answers _ s _ start allowed
      obtain ⟨value, m', u, ran, kept, ends⟩ := ih reply linked'
      exact ⟨value, m', u, (run_call answer).trans ran, kept, ends⟩

end Program

end Transition
