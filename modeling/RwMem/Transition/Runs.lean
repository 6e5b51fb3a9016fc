import Mathlib.Data.List.Induction

/-! Finite runs of a partial step function, and the rules that carry an invariant forward,
a promise up to its event, or a fact back to its cause.
-/

namespace Transition

variable {σ α : Type*} {step : σ → α → Option σ}

/-- The state after the actions, taken in order; `none` once one of them is not enabled. -/
def exec (step : σ → α → Option σ) : σ → List α → Option σ
  | s, [] => some s
  | s, a :: rest => (step s a).bind (fun t => exec step t rest)

/-- Every step of the run satisfies `holds` in the state that it is taken in. -/
def Along (step : σ → α → Option σ) (holds : σ → α → Prop) (s : σ) (acts : List α)
    : Prop :=
  ∀ before a after t,
    acts = before ++ a :: after → exec step s before = some t → holds t a

/-- Every state that the run passes through satisfies `holds`, the first one included. -/
def Throughout (step : σ → α → Option σ) (holds : σ → Prop) (s : σ) (acts : List α)
    : Prop :=
  ∀ before after t, acts = before ++ after → exec step s before = some t → holds t

/-- Some step of the run is an `event` of the state that it is taken in. -/
def Occurs (step : σ → α → Option σ) (event : σ → α → Prop) (s : σ) (acts : List α)
    : Prop :=
  ∃ before a after t,
    acts = before ++ a :: after ∧ exec step s before = some t ∧ event t a

@[simp] theorem exec_nil (s : σ) : exec step s [] = some s := rfl

@[simp] theorem exec_cons (s : σ) (a : α) (rest : List α)
    : exec step s (a :: rest) = (step s a).bind (fun t => exec step t rest) := rfl

/-- A run splits at any point of its actions, by induction on the first part. -/
theorem exec_append (s : σ) (first rest : List α)
    : exec step s (first ++ rest)
      = (exec step s first).bind (fun t => exec step t rest) := by
  induction first generalizing s with
  | nil => rfl
  | cons a first ih =>
      cases h : step s a with
      | none => simp [h]
      | some t => simpa [h] using ih t

/-- A run that reaches `u` over a split list passes through some state at the split. -/
theorem exec_append_eq_some {s u : σ} {first rest : List α}
    : exec step s (first ++ rest) = some u
      ↔ ∃ t, exec step s first = some t ∧ exec step t rest = some u := by
  rw [exec_append, Option.bind_eq_some_iff]

/-- A run whose last action is `a` reaches the state that `a` is taken in. -/
theorem exec_snoc_eq_some {s u : σ} {first : List α} {a : α}
    : exec step s (first ++ [a]) = some u
      ↔ ∃ t, exec step s first = some t ∧ step t a = some u := by
  simp [exec_append_eq_some]

/-- The step that a run takes at a split, and the rest of the run behind it. -/
theorem exists_step_of_split {s t f : σ} {before after : List α} {a : α}
    (run : exec step s (before ++ a :: after) = some f) (reached : exec step s before = some t)
    : ∃ u, step t a = some u ∧ exec step u after = some f := by
  obtain ⟨t', reached', later⟩ := exec_append_eq_some.mp run
  cases reached.symm.trans reached'
  exact Option.bind_eq_some_iff.mp later

/-- A run up to a step, the step, and a run from there on are one run. -/
theorem exec_through {s t u v : σ} {before mid : List α} {a : α}
    (reached : exec step s before = some t) (taken : step t a = some u)
    (rest : exec step u mid = some v)
    : exec step s (before ++ a :: mid) = some v :=
  exec_append_eq_some.mpr ⟨t, reached, Option.bind_eq_some_iff.mpr ⟨u, taken, rest⟩⟩

/-- What holds along a run holds along its prefixes. -/
theorem Along.initial {holds : σ → α → Prop} {s : σ} {first rest : List α}
    (h : Along step holds s (first ++ rest))
    : Along step holds s first := by
  intro before a after t split reached
  subst split
  exact h before a (after ++ rest) t (by simp) reached

/-- The last step of a run is one of its steps. -/
theorem Along.last {holds : σ → α → Prop} {s t : σ} {first : List α} {a : α}
    (h : Along step holds s (first ++ [a])) (reached : exec step s first = some t)
    : holds t a :=
  h first a [] t rfl reached

theorem along_nil (holds : σ → α → Prop) (s : σ) : Along step holds s [] := by
  intro before a after t split
  exact absurd split (by simp)

/-- A run satisfies the condition if its first step does and the rest of it does. -/
theorem along_cons {holds : σ → α → Prop} {s : σ} {a : α} {rest : List α}
    (first : holds s a) (later : ∀ t, step s a = some t → Along step holds t rest)
    : Along step holds s (a :: rest) := by
  intro before b after u split reached
  cases before with
  | nil =>
      cases split
      cases reached
      exact first
  | cons c before =>
      cases split
      obtain ⟨t, taken, reached⟩ := Option.bind_eq_some_iff.mp reached
      exact later t taken before b after u rfl reached

/-- Steps through a run and tests every step. -/
def alongTest (step : σ → α → Option σ) (test : σ → α → Bool) : σ → List α → Bool
  | _, [] => true
  | s, a :: rest => test s a && (step s a).all (fun t => alongTest step test t rest)

/-- A run that passes the test satisfies the condition, by induction on its actions. -/
theorem along_of_alongTest {holds : σ → α → Prop} {test : σ → α → Bool} {s : σ} {acts : List α}
    (sound : ∀ t a, test t a = true → holds t a) (passed : alongTest step test s acts = true)
    : Along step holds s acts := by
  induction acts generalizing s with
  | nil => exact along_nil holds s
  | cons a rest ih =>
      obtain ⟨first, later⟩ := Bool.and_eq_true_iff.mp passed
      refine along_cons (sound s a first) (fun t taken => ih ?_)
      simpa [taken] using later

/-- What every action of a run satisfies in every state holds along the run. -/
theorem along_of_forall {holds : σ → α → Prop} {acts : List α}
    (always : ∀ a ∈ acts, ∀ t, holds t a) (s : σ)
    : Along step holds s acts := by
  intro before a after t split _
  exact always a (by simp [split]) t

/-- A run extended by one step that satisfies the condition still satisfies it. -/
theorem Along.snoc {holds : σ → α → Prop} {s : σ} {first : List α} {a : α}
    (h : Along step holds s first)
    (last : ∀ t, exec step s first = some t → holds t a)
    : Along step holds s (first ++ [a]) := by
  intro before b after t split reached
  rcases List.eq_nil_or_concat after with rfl | ⟨init, c, rfl⟩
  · obtain ⟨rfl, same⟩ := List.append_inj' split rfl
    cases same
    exact last t reached
  · rw [List.concat_eq_append, ← List.cons_append, ← List.append_assoc] at split
    obtain ⟨rfl, -⟩ := List.append_inj' split rfl
    exact h before b init t rfl reached

/-- The final state of a run is one of the states that it passes through. -/
theorem Throughout.final {holds : σ → Prop} {s t : σ} {acts : List α}
    (h : Throughout step holds s acts) (reached : exec step s acts = some t)
    : holds t :=
  h acts [] t (by simp) reached

/-- An event that does not occur is absent from every step. -/
theorem not_occurs_iff {event : σ → α → Prop} {s : σ} {acts : List α}
    : ¬Occurs step event s acts ↔ Along step (fun t a => ¬event t a) s acts := by
  constructor
  · intro absent before a after t split reached happens
    exact absent ⟨before, a, after, t, split, reached, happens⟩
  · intro absent occurs
    obtain ⟨before, a, after, t, split, reached, happens⟩ := occurs
    exact absent before a after t split reached happens

/-- An action that stands in the list of a run is one of its steps. -/
theorem occurs_of_mem {event : σ → α → Prop} {s t : σ} {acts : List α} {a : α}
    (run : exec step s acts = some t) (member : a ∈ acts) (happens : ∀ u, event u a)
    : Occurs step event s acts := by
  obtain ⟨before, after, split⟩ := List.append_of_mem member
  subst split
  obtain ⟨u, reached, _⟩ := exec_append_eq_some.mp run
  exact ⟨before, a, after, u, rfl, reached, happens u⟩

/-- An invariant kept by every guarded step holds throughout a guarded run, by induction on
the prefix that reaches the state.
-/
theorem invariant (guard : σ → α → Prop) {holds : σ → Prop} {s : σ} {acts : List α}
    (start : holds s)
    (kept : ∀ t a u, holds t → guard t a → step t a = some u → holds u)
    (guarded : Along step guard s acts)
    : Throughout step holds s acts := by
  intro before after t split reached
  subst split
  induction before using List.reverseRecOn generalizing after t with
  | nil => cases reached; exact start
  | append_singleton before a ih =>
      obtain ⟨u, earlier, taken⟩ := exec_snoc_eq_some.mp reached
      have holdsBefore := ih (a :: after) u earlier (by simpa using guarded)
      exact kept u a t holdsBefore (guarded.initial.last earlier) taken

/-- An invariant kept by every step holds throughout every run. -/
theorem invariant_of_step {holds : σ → Prop} {s : σ} (acts : List α) (start : holds s)
    (kept : ∀ t a u, holds t → step t a = some u → holds u)
    : Throughout step holds s acts :=
  invariant (fun _ _ => True) start (fun t a u h _ => kept t a u h)
    (fun _ _ _ _ _ _ => trivial)

/-- A run gets to its end if every step can be taken, by induction on its actions. -/
theorem exists_exec {holds : σ → Prop} {s : σ} (acts : List α) (start : holds s)
    (enabled : ∀ t a, holds t → ∃ u, step t a = some u)
    (kept : ∀ t a u, holds t → step t a = some u → holds u)
    : ∃ f, exec step s acts = some f := by
  induction acts generalizing s with
  | nil => exact ⟨s, rfl⟩
  | cons a rest ih =>
      obtain ⟨t, taken⟩ := enabled s a start
      obtain ⟨f, later⟩ := ih (kept s a t start taken)
      exact ⟨f, Option.bind_eq_some_iff.mpr ⟨t, taken, later⟩⟩

/-- Where a step keeps the property exactly under a guard, a run keeps the property
throughout exactly when all its steps meet the guard. What is known of the states and of the
steps of the run may be used for both directions.
-/
theorem throughout_iff_along {inv holds : σ → Prop} {side guard : σ → α → Prop} {s f : σ}
    {acts : List α} (known : Throughout step inv s acts) (allowed : Along step side s acts)
    (start : holds s)
    (exact : ∀ t a u, inv t → side t a → holds t → step t a = some u
      → (holds u ↔ guard t a))
    (run : exec step s acts = some f)
    : Throughout step holds s acts ↔ Along step guard s acts := by
  constructor
  · intro always before a after t split reached
    subst split
    obtain ⟨u, taken, _⟩ := exists_step_of_split run reached
    have next : exec step s (before ++ [a]) = some u :=
      exec_snoc_eq_some.mpr ⟨t, reached, taken⟩
    have invBefore := known before (a :: after) t rfl reached
    have sideBefore := allowed before a after t rfl reached
    have holdsBefore := always before (a :: after) t rfl reached
    have holdsAfter := always (before ++ [a]) after u (by simp) next
    exact (exact t a u invBefore sideBefore holdsBefore taken).mp holdsAfter
  · intro guarded before after t split reached
    subst split
    clear run
    induction before using List.reverseRecOn generalizing after t with
    | nil => cases reached; exact start
    | append_singleton before a ih =>
        obtain ⟨u, earlier, taken⟩ := exec_snoc_eq_some.mp reached
        have holdsBefore := ih (a :: after) u earlier (by simpa using known)
          (by simpa using allowed) (by simpa using guarded)
        have invBefore := known before ([a] ++ after) u (by simp) earlier
        have sideBefore := allowed.initial.last earlier
        exact (exact u a t invBefore sideBefore holdsBefore taken).mpr
          (guarded.initial.last earlier)

/-- A fact that every step keeps unless it is the event holds at the end of a run in which
the event does not occur.
-/
theorem holds_until (holds : σ → Prop) (event : σ → α → Prop) {s t : σ} {acts : List α}
    (start : holds s)
    (kept : Along step (fun u a => holds u → ¬event u a → ∀ v, step u a = some v → holds v)
      s acts)
    (absent : ¬Occurs step event s acts) (run : exec step s acts = some t)
    : holds t := by
  have quiet := not_occurs_iff.mp absent
  refine (invariant (fun u a =>
    (holds u → ¬event u a → ∀ v, step u a = some v → holds v) ∧ ¬event u a) start
    ?_ ?_).final run
  · intro u a v now guarded taken
    exact guarded.1 now guarded.2 v taken
  · intro before a after u split reached
    exact ⟨kept before a after u split reached, quiet before a after u split reached⟩

/-- As long as an event does not occur, a rank that goes down with every counted step, and with no
other, tells how many counted steps there were. Induction on the actions.
-/
theorem countdown (holds : σ → Prop) (rank : σ → Nat) (counts : α → Bool) (event : σ → α → Prop)
    {s t : σ} {acts : List α} (start : holds s)
    (kept : Along step (fun u a => holds u → ¬event u a → ∀ v, step u a = some v →
      holds v ∧ rank v + (if counts a then 1 else 0) = rank u) s acts)
    (absent : ¬Occurs step event s acts) (run : exec step s acts = some t)
    : holds t ∧ rank t + acts.countP counts = rank s := by
  induction acts generalizing s with
  | nil =>
      cases run
      exact ⟨start, rfl⟩
  | cons a rest ih =>
      obtain ⟨u, taken, later⟩ := Option.bind_eq_some_iff.mp run
      have quiet : ¬event s a := fun happens => absent ⟨[], a, rest, s, rfl, rfl, happens⟩
      obtain ⟨now, first⟩ := kept [] a rest s rfl rfl start quiet u taken
      have keptLater : Along step (fun u a => holds u → ¬event u a → ∀ v, step u a = some v →
          holds v ∧ rank v + (if counts a then 1 else 0) = rank u) u rest := by
        intro before b after w split reached
        subst split
        exact kept (a :: before) b after w rfl (Option.bind_eq_some_iff.mpr ⟨u, taken, reached⟩)
      have absentLater : ¬Occurs step event u rest := by
        rintro ⟨before, b, after, w, rfl, reached, happens⟩
        exact absent ⟨a :: before, b, after, w, rfl,
          Option.bind_eq_some_iff.mpr ⟨u, taken, reached⟩, happens⟩
      obtain ⟨holdsNow, whole⟩ := ih now keptLater absentLater later
      refine ⟨holdsNow, ?_⟩
      rw [List.countP_cons]
      omega

/-- A fact that fails at the start and holds at the end was made true by some `cause`, and
no `event` occurred after the last such step. Induction on the run from its end: the last
step either is the cause or keeps the fact without being the event.
-/
theorem holds_since (holds : σ → Prop) (cause event : σ → α → Prop) {s t : σ}
    {acts : List α} (start : ¬holds s)
    (made : Along step (fun u a => ∀ v, step u a = some v → holds v →
      cause u a ∨ (holds u ∧ ¬event u a)) s acts)
    (run : exec step s acts = some t) (now : holds t)
    : ∃ before a after u v,
        acts = before ++ a :: after
        ∧ exec step s before = some u
        ∧ step u a = some v
        ∧ cause u a
        ∧ exec step v after = some t
        ∧ ¬Occurs step event v after := by
  induction acts using List.reverseRecOn generalizing t with
  | nil => cases run; exact absurd now start
  | append_singleton init b ih =>
      obtain ⟨w, earlier, taken⟩ := exec_snoc_eq_some.mp run
      rcases made.last earlier t taken now with caused | ⟨held, quiet⟩
      · refine ⟨init, b, [], w, t, rfl, earlier, taken, caused, rfl, ?_⟩
        intro occurs
        obtain ⟨before, a, after, u, split, -⟩ := occurs
        simp at split
      · obtain ⟨before, a, after, u, v, rfl, reached, first, caused, rest, absent⟩ :=
          ih made.initial earlier held
        refine ⟨before, a, after ++ [b], u, v, by simp, reached, first, caused, ?_, ?_⟩
        · exact exec_snoc_eq_some.mpr ⟨w, rest, taken⟩
        · refine not_occurs_iff.mpr ((not_occurs_iff.mp absent).snoc ?_)
          intro w' reached'
          cases rest.symm.trans reached'
          exact quiet

end Transition
