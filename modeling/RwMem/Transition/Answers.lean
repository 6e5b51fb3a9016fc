import RwMem.Transition.Runs

/-! Machines that answer requests, and when one answers as a machine that has only what the
answers are about.
-/

namespace Transition

variable {σ τ α β γ : Type*}

/-- The answers to the requests, taken in order, and the state behind them. -/
def answers (step : σ → α → Option (β × σ)) : σ → List α → Option (List β × σ)
  | s, [] => some ([], s)
  | s, a :: rest =>
      (step s a).bind fun (b, t) => (answers step t rest).map fun (bs, u) => (b :: bs, u)

/-- The same for a machine that answers every request. -/
def replies (spec : τ → α → γ × τ) : τ → List α → List γ × τ
  | t, [] => ([], t)
  | t, a :: rest =>
      let (c, t) := spec t a
      let (cs, t) := replies spec t rest
      (c :: cs, t)

/-- One step of the machine answers what the other answers in every related state, as far as is
`seen` of it, and the states behind the step are related again.
-/
def Simulates (step : σ → α → Option (β × σ)) (spec : τ → α → γ × τ) (seen : α → β → γ)
    (related : σ → τ → Prop)
    : Prop :=
  ∀ s t a,
    related s t
    → ∃ b u, step s a = some (b, u) ∧ seen a b = (spec t a).1 ∧ related u (spec t a).2

variable {step : σ → α → Option (β × σ)} {spec : τ → α → γ × τ} {seen : α → β → γ}
variable {related : σ → τ → Prop}

@[simp] theorem replies_nil (t : τ) : replies spec t [] = ([], t) := rfl

@[simp] theorem replies_cons (t : τ) (a : α) (rest : List α)
    : replies spec t (a :: rest)
      = ((spec t a).1 :: (replies spec (spec t a).2 rest).1,
          (replies spec (spec t a).2 rest).2) := rfl

/-- A run splits at any point of its requests, by induction on the first part. -/
theorem replies_append (t : τ) (first rest : List α)
    : replies spec t (first ++ rest)
      = ((replies spec t first).1 ++ (replies spec (replies spec t first).2 rest).1,
          (replies spec (replies spec t first).2 rest).2) := by
  induction first generalizing t with
  | nil => rfl
  | cons a first ih =>
      rw [List.cons_append, replies_cons, replies_cons, ih]
      rfl

/-- From related states every run goes to its end, is answered alike and ends in related states,
by induction on the requests.
-/
theorem Simulates.run (simulates : Simulates step spec seen related) {s : σ} {t : τ}
    (start : related s t) (acts : List α)
    : ∃ bs u,
        answers step s acts = some (bs, u)
        ∧ List.zipWith seen acts bs = (replies spec t acts).1
        ∧ related u (replies spec t acts).2 := by
  induction acts generalizing s t with
  | nil => exact ⟨[], s, rfl, rfl, start⟩
  | cons a rest ih =>
      obtain ⟨b, u, taken, same, next⟩ := simulates s t a start
      obtain ⟨bs, v, later, answered, ends⟩ := ih next
      refine ⟨b :: bs, v, ?_, ?_, ends⟩
      · simp [answers, taken, later]
      · simp [same, answered]

/-- Two clients of one state, whose actions come in any order. -/
def both {α' β' : Type*} (step : σ → α → Option (β × σ)) (step' : σ → α' → Option (β' × σ))
    (s : σ)
    : α ⊕ α' → Option ((β ⊕ β') × σ)
  | .inl a => (step s a).map (fun (b, s) => (.inl b, s))
  | .inr a => (step' s a).map (fun (b, s) => (.inr b, s))

/-- The same for machines that answer every action. -/
def bothReply {α' γ' : Type*} (spec : τ → α → γ × τ) (spec' : τ → α' → γ' × τ) (t : τ)
    : α ⊕ α' → (γ ⊕ γ') × τ
  | .inl a => (.inl (spec t a).1, (spec t a).2)
  | .inr a => (.inr (spec' t a).1, (spec' t a).2)

/-- What is seen of an answer to either client. -/
def bothSeen {α' β' γ' : Type*} (seen : α → β → γ) (seen' : α' → β' → γ')
    : α ⊕ α' → β ⊕ β' → Option (γ ⊕ γ')
  | .inl a, .inl b => some (.inl (seen a b))
  | .inr a, .inr b => some (.inr (seen' a b))
  | _, _ => none

/-- Two clients that answer as their machines on related states do so together. -/
theorem Simulates.both {α' β' γ' : Type*} {step' : σ → α' → Option (β' × σ)}
    {spec' : τ → α' → γ' × τ} {seen' : α' → β' → γ'}
    (simulates : Simulates step spec seen related)
    (simulates' : Simulates step' spec' seen' related)
    : Simulates (Transition.both step step')
        (fun t a => (some (bothReply spec spec' t a).1, (bothReply spec spec' t a).2))
        (bothSeen seen seen') related := by
  intro s t a start
  cases a with
  | inl a =>
      obtain ⟨b, u, taken, same, next⟩ := simulates s t a start
      exact ⟨.inl b, u, by simp [Transition.both, taken], by simp [bothSeen, same, bothReply], next⟩
  | inr a =>
      obtain ⟨b, u, taken, same, next⟩ := simulates' s t a start
      exact ⟨.inr b, u, by simp [Transition.both, taken], by simp [bothSeen, same, bothReply], next⟩

theorem length_replies (t : τ) (acts : List α) : (replies spec t acts).1.length = acts.length := by
  induction acts generalizing t with
  | nil => rfl
  | cons a rest ih => simp [ih]

/-- The answer to an action is given in the state that the actions in front of it lead to. -/
theorem getElem?_replies (t : τ) (first rest : List α) (a : α)
    : (replies spec t (first ++ a :: rest)).1[first.length]?
      = some (spec (replies spec t first).2 a).1 := by
  rw [replies_append, replies_cons, List.getElem?_append_right
      (Nat.le_of_eq (length_replies t first)), length_replies, Nat.sub_self]
  rfl

theorem length_answers {s u : σ} {acts : List α} {bs : List β}
    (run : answers step s acts = some (bs, u))
    : bs.length = acts.length := by
  induction acts generalizing s bs with
  | nil =>
      cases run
      rfl
  | cons a rest ih =>
      obtain ⟨⟨b, t⟩, _, later⟩ := Option.bind_eq_some_iff.mp run
      obtain ⟨⟨cs, v⟩, tail, same⟩ := Option.map_eq_some_iff.mp later
      cases same
      simp [ih tail]

/-- What is seen of each answer of a run, also of one in the middle. -/
theorem seen_at {s u : σ} {t : τ} {first rest : List α} {a : α} {bs : List β}
    (run : answers step s (first ++ a :: rest) = some (bs, u))
    (same : List.zipWith seen (first ++ a :: rest) bs
      = (replies spec t (first ++ a :: rest)).1)
    : ∃ b, bs[first.length]? = some b ∧ seen a b = (spec (replies spec t first).2 a).1 := by
  have inside : first.length < bs.length := by
    rw [length_answers run, List.length_append, List.length_cons]
    omega
  have here := congrArg (fun cs => cs[first.length]?) same
  simp only [getElem?_replies, List.getElem?_zipWith, List.getElem?_eq_getElem inside] at here
  exact ⟨_, List.getElem?_eq_getElem inside, by simpa using here⟩

/-- Every action of the run satisfies `guard` in the state that it is taken in. -/
def GuardedReplies (spec : τ → α → γ × τ) (guard : τ → α → Prop) (t : τ) (acts : List α) : Prop :=
  ∀ before a after, acts = before ++ a :: after → guard (replies spec t before).2 a

theorem GuardedReplies.head {guard : τ → α → Prop} {t : τ} {a : α} {rest : List α}
    (guarded : GuardedReplies spec guard t (a :: rest))
    : guard t a :=
  guarded [] a rest rfl

theorem GuardedReplies.tail {guard : τ → α → Prop} {t : τ} {a : α} {rest : List α}
    (guarded : GuardedReplies spec guard t (a :: rest))
    : GuardedReplies spec guard (spec t a).2 rest := by
  intro before b after split
  exact guarded (a :: before) b after (by rw [split, List.cons_append])

theorem guardedReplies_cons {guard : τ → α → Prop} {t : τ} {a : α} {rest : List α}
    (head : guard t a) (tail : GuardedReplies spec guard (spec t a).2 rest)
    : GuardedReplies spec guard t (a :: rest) := by
  intro before b after split
  cases before with
  | nil =>
      cases split
      exact head
  | cons first before =>
      cases split
      exact tail before b after rfl

theorem guardedReplies_cons_iff {guard : τ → α → Prop} {t : τ} {a : α} {rest : List α}
    : GuardedReplies spec guard t (a :: rest)
      ↔ guard t a ∧ GuardedReplies spec guard (spec t a).2 rest :=
  ⟨fun guarded => ⟨guarded.head, guarded.tail⟩, fun parts => guardedReplies_cons parts.1 parts.2⟩

theorem GuardedReplies.imp {guard guard' : τ → α → Prop} {t : τ} {acts : List α}
    (implies : ∀ u a, a ∈ acts → guard u a → guard' u a) (guarded : GuardedReplies spec guard t acts)
    : GuardedReplies spec guard' t acts := by
  intro before a after split
  exact implies _ a (split ▸ List.mem_append_right before List.mem_cons_self)
    (guarded before a after split)

theorem guardedReplies_nil {guard : τ → α → Prop} (t : τ) : GuardedReplies spec guard t [] :=
  fun before _ _ split => absurd split.symm (by simp)

/-- What every guarded action keeps holds behind a guarded run, by induction on the actions. -/
theorem replies_invariant {p : τ → Prop} {guard : τ → α → Prop} {t : τ} (start : p t)
    {acts : List α} (kept : ∀ u a, p u → guard u a → p (spec u a).2)
    (guarded : GuardedReplies spec guard t acts)
    : p (replies spec t acts).2 := by
  induction acts generalizing t with
  | nil => exact start
  | cons a rest ih => exact ih (kept t a start guarded.head) guarded.tail

/-- Every answer of a run is that of one of its steps. -/
theorem exists_step_of_mem_replies {t : τ} {acts : List α} {c : γ}
    (member : c ∈ (replies spec t acts).1)
    : ∃ u a, c = (spec u a).1 := by
  induction acts generalizing t with
  | nil => contradiction
  | cons a rest ih =>
      rcases List.mem_cons.mp member with here | later
      · exact ⟨t, a, here⟩
      · exact ih later

/-- Requests that are made in another form are answered alike in that form. -/
theorem replies_map {α' γ' : Type*} {spec' : τ → α' → γ' × τ} (f : α' → α) (h : γ' → γ)
    (same : ∀ t a, spec t (f a) = (h (spec' t a).1, (spec' t a).2)) (t : τ) (acts : List α')
    : replies spec t (acts.map f) = ((replies spec' t acts).1.map h, (replies spec' t acts).2) := by
  induction acts generalizing t with
  | nil => rfl
  | cons a rest ih =>
      rw [List.map_cons, replies_cons, same, ih]
      rfl

/-- So are their guards, by induction on the requests. -/
theorem guardedReplies_map {α' γ' : Type*} {spec' : τ → α' → γ' × τ} {f : α' → α}
    {guard : τ → α → Prop} (same : ∀ t a, (spec t (f a)).2 = (spec' t a).2) {t : τ}
    {acts : List α'}
    : GuardedReplies spec guard t (acts.map f)
      ↔ GuardedReplies spec' (fun t a => guard t (f a)) t acts := by
  induction acts generalizing t with
  | nil => exact iff_of_true (guardedReplies_nil t) (guardedReplies_nil t)
  | cons a rest ih =>
      rw [List.map_cons, guardedReplies_cons_iff, guardedReplies_cons_iff, same, ih]

/-- The replies that a machine may give to a run, if its steps leave it a choice. -/
inductive MayReply (may : τ → α → γ → τ → Prop) : τ → List α → List γ → τ → Prop where
  | nil (t : τ) : MayReply may t [] [] t
  | cons {t u v : τ} {a : α} {rest : List α} {c : γ} {cs : List γ} (first : may t a c u)
      (later : MayReply may u rest cs v)
      : MayReply may t (a :: rest) (c :: cs) v

/-- If every guarded step is one that the other machine may take, so is every guarded run, by
induction on its actions; and the steps have what else they all have.
-/
theorem GuardedReplies.mayReply {step : σ → α → γ × σ} {guard room : σ → α → Prop}
    {may : τ → α → γ → τ → Prop} {related : σ → τ → Prop}
    (steps
      : ∀ s t a,
          related s t
          → guard s a
          → room s a ∧ ∃ u, may t a (step s a).1 u ∧ related (step s a).2 u)
    {s : σ} {t : τ} (start : related s t) {acts : List α}
    (guarded : GuardedReplies step guard s acts)
    : GuardedReplies step room s acts
      ∧ ∃ u,
          MayReply may t acts (replies step s acts).1 u
          ∧ related (replies step s acts).2 u := by
  induction acts generalizing s t with
  | nil => exact ⟨guardedReplies_nil s, t, .nil t, start⟩
  | cons a rest ih =>
      obtain ⟨here, u, first, next⟩ := steps s t a start guarded.head
      obtain ⟨rooms, v, later, ends⟩ := ih next guarded.tail
      exact ⟨guardedReplies_cons here rooms, v, .cons first later, ends⟩

end Transition
