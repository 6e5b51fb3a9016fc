import RwMem.Breakpoint.Lifetime

/-! Several step entries for one thread. The list is searched by thread only, and each trap
consumes one entry.
-/

namespace RwMem.Breakpoint

open Transition State

/-- No two entries are for the same thread. -/
def PidsNodup (s : State) : Prop := (s.stepList.map StepEntry.pid).Nodup

/-- A step request is accepted only while no entry is for its thread. -/
def StepsAlone (s : State) (a : Act) : Prop :=
  ∀ f call, a = .call f call → s.AcceptsStep f call → ∀ e ∈ s.stepList, e.pid ≠ s.target f

/-- When the step hook returns, no entry for its thread is left. -/
def TrapsClear (s : State) (a : Act) : Prop :=
  ∀ p, a = .trap p → ∀ e ∈ (s.rwmemBpStepHandler p).1.stepList, e.pid ≠ p

/-- A step keeps the threads of the entries distinct exactly if it does not accept a request
for a thread that has one.
-/
theorem pidsNodup_next_iff {s : State} {a : Act} (nodup : PidsNodup s)
    (enabled : s.enabled a = true)
    : PidsNodup (s.next a) ↔ StepsAlone s a := by
  rcases stepList_next enabled with ⟨f, call, act, accepts, _, list⟩ | ⟨p, act, list⟩
    | ⟨f, act, list⟩ | ⟨noStep, _, _, list⟩
  · rw [PidsNodup, list, List.map_cons, List.nodup_cons]
    constructor
    · intro ⟨fresh, _⟩ g call' act' _ e member own
      cases act.symm.trans act'
      exact fresh (List.mem_map.mpr ⟨e, member, own⟩)
    · intro fresh
      refine ⟨?_, nodup⟩
      intro member
      obtain ⟨e, member, own⟩ := List.mem_map.mp member
      exact fresh f call act accepts e member own
  · apply iff_of_true
    · rw [PidsNodup, list]
      exact nodup.sublist (List.eraseP_sublist.map _)
    · intro f call act'
      cases act.symm.trans act'
  · apply iff_of_true
    · rw [PidsNodup, list, map_pid_markRemoved]
      exact nodup
    · intro g call act'
      cases act.symm.trans act'
  · apply iff_of_true
    · rw [PidsNodup, list]
      exact nodup
    · intro g call act' accepts
      exact absurd accepts (noStep g call act')

/-- Every accepted step request is answered at the next trap of its thread with a callback of
its own file, unless the file is closed first.
-/
def StepsAnswered (s : State) (acts : List Act) : Prop :=
  ∀ before f mid p after t u,
    acts = before ++ .call f .bpStep :: (mid ++ .trap p :: after)
    → exec State.step s before = some t
    → t.AcceptsStep f .bpStep
    → p = t.target f
    → exec State.step t (.call f .bpStep :: mid) = some u
    → (∀ a ∈ mid, a ≠ .trap p ∧ a ≠ .close f)
    → ((u.rwmemBpStepHandler p).1.threads p).work = (u.threads p).work ++ [f]

/-- A trap that finds an entry comes from a step request for its thread that was accepted
since the last trap of the thread.
-/
def TrapsAskedFor (s : State) (acts : List Act) : Prop :=
  ∀ before p after t e,
    acts = before ++ .trap p :: after
    → exec State.step s before = some t
    → t.findEntry p = some e
    → ∃ earlier f call later u,
        before = earlier ++ .call f call :: later
        ∧ exec State.step s earlier = some u
        ∧ u.AcceptsStep f call
        ∧ u.target f = p
        ∧ ∀ a ∈ later, a ≠ .trap p

/-- An entry stays until a trap of its thread or the release of its file. -/
theorem mem_stepList_kept {s : State} {a : Act} {e : StepEntry} (enabled : s.enabled a = true)
    (member : e ∈ s.stepList) (noTrap : a ≠ .trap e.pid) (noClose : a ≠ .close e.file)
    : e ∈ (s.next a).stepList := by
  rcases stepList_next enabled with ⟨f, call, _, _, _, list⟩ | ⟨p, act, list⟩
    | ⟨f, act, list⟩ | ⟨_, _, _, list⟩
  · rw [list]
    exact List.mem_cons_of_mem _ member
  · rw [list]
    apply (s.mem_unlinked_of_ne _).mpr member
    intro own
    exact noTrap (own ▸ act)
  · rw [list]
    apply (mem_markRemoved_of_ne _).mpr member
    intro own
    exact noClose (own ▸ act)
  · rw [list]
    exact member

/-- With one entry for each thread every accepted request is answered. -/
theorem stepsAnswered_of_pidsNodup {s : State} {acts : List Act}
    (nodup : Throughout State.step PidsNodup s acts)
    : StepsAnswered s acts := by
  intro before f mid p after t u split reached accepts own later quiet
  obtain ⟨v, taken, rest⟩ := Option.bind_eq_some_iff.mp later
  obtain ⟨enabled, same⟩ := step_eq_some.mp taken
  subst same
  have pushed : (⟨p, f, false⟩ : StepEntry) ∈ (t.next (.call f .bpStep)).stepList := by
    rcases t.stepList_call f .bpStep with ⟨_, list⟩ | ⟨refused, _⟩
    · rw [State.next, list, own]
      exact List.mem_cons_self
    · exact absurd accepts refused
  have present : (⟨p, f, false⟩ : StepEntry) ∈ u.stepList := by
    refine holds_until (fun s => ⟨p, f, false⟩ ∈ s.stepList)
      (fun _ a => a = .trap p ∨ a = .close f) pushed ?_ ?_ rest
    · intro _ a _ w _ _ member absent w' taken
      obtain ⟨enabled, same⟩ := step_eq_some.mp taken
      subst same
      exact mem_stepList_kept enabled member (fun trap => absent (Or.inl trap))
        (fun close => absent (Or.inr close))
    · intro happens
      obtain ⟨first, a, last, _, split, _, event⟩ := happens
      have inside : a ∈ mid := by simp [split]
      rcases event with trap | close
      · exact (quiet a inside).1 trap
      · exact (quiet a inside).2 close
  have nodupThere : PidsNodup u := by
    apply nodup (before ++ .call f .bpStep :: mid) (.trap p :: after) u
    · simp [split]
    · exact exec_append_eq_some.mpr ⟨t, reached, later⟩
  have found := u.findEntry_of_mem nodupThere present
  rcases u.trap_cases p with ⟨none, _⟩ | ⟨e, found', removed, _⟩ | ⟨e, found', _, same⟩
  · rw [found] at none
    contradiction
  · rw [found] at found'
    cases found'
    contradiction
  · rw [found] at found'
    cases found'
    rw [same]
    simp [setThread]

/-- With one entry for each thread no entry is left to capture a later trap. -/
theorem trapsAskedFor_of_pidsNodup {regs : Pid → Regs} {acts : List Act}
    (nodup : Throughout State.step PidsNodup (.initial regs) acts)
    : TrapsAskedFor (.initial regs) acts := by
  intro before p after t e split reached found
  subst split
  obtain ⟨member, own⟩ := t.findEntry_eq_some found
  have made : Along State.step (fun u a => ∀ v, u.step a = some v
      → (∃ e ∈ v.stepList, e.pid = p)
      → (∃ f call, a = .call f call ∧ u.AcceptsStep f call ∧ u.target f = p)
        ∨ (∃ e ∈ u.stepList, e.pid = p) ∧ a ≠ .trap p) (.initial regs) before := by
    intro first a last u split here v taken ⟨e, member, own⟩
    obtain ⟨enabled, same⟩ := step_eq_some.mp taken
    subst same
    rcases stepList_next enabled with ⟨f, call, act, accepts, _, list⟩ | ⟨q, act, list⟩
      | ⟨f, act, list⟩ | ⟨_, noTrap, _, list⟩
    · rw [list] at member
      rcases List.mem_cons.mp member with same | before
      · subst same
        exact Or.inl ⟨f, call, act, accepts, own⟩
      · exact Or.inr ⟨⟨e, before, own⟩, by simp [act]⟩
    · rw [list] at member
      have nodupThere : PidsNodup u := by
        apply nodup first (a :: last ++ .trap p :: after) u _ here
        simp [split]
      refine Or.inr ⟨⟨e, List.mem_of_mem_eraseP member, own⟩, ?_⟩
      intro trap
      cases act.symm.trans trap
      exact u.pid_ne_of_mem_unlinked nodupThere member own
    · have pids := congrArg (List.map StepEntry.pid) list
      rw [map_pid_markRemoved] at pids
      have inPids : p ∈ (u.next a).stepList.map StepEntry.pid :=
        List.mem_map.mpr ⟨e, member, own⟩
      rw [pids] at inPids
      exact Or.inr ⟨List.mem_map.mp inPids, by simp [act]⟩
    · rw [list] at member
      exact Or.inr ⟨⟨e, member, own⟩, noTrap p⟩
  have absentFirst : ¬∃ e ∈ (State.initial regs).stepList, e.pid = p := by
    intro ⟨e, member, _⟩
    contradiction
  obtain ⟨earlier, a, later, u, v, same, here, _, ⟨f, call, act, accepts, target⟩, rest,
      absent⟩ :=
    holds_since (fun s : State => ∃ e ∈ s.stepList, e.pid = p)
      (fun s a => ∃ f call, a = .call f call ∧ s.AcceptsStep f call ∧ s.target f = p)
      (fun _ a => a = .trap p) absentFirst made reached ⟨e, member, own⟩
  subst act
  refine ⟨earlier, f, call, later, u, same, here, accepts, target, ?_⟩
  intro a inside trap
  exact absent (occurs_of_mem rest inside (fun _ => trap))

/-- In every run the step list never holds two entries for one thread, and every trap clears
its thread, exactly if each step request is accepted while no entry is for its thread. Then
every accepted request is answered, and no entry captures a later trap.
-/
theorem pidsNodup_iff (regs : Pid → Regs) (acts : List Act) (final : State)
    (run : exec State.step (.initial regs) acts = some final)
    : (Throughout State.step PidsNodup (.initial regs) acts
          ∧ Along State.step TrapsClear (.initial regs) acts
        ↔ Along State.step StepsAlone (.initial regs) acts)
      ∧ (Throughout State.step PidsNodup (.initial regs) acts
        → StepsAnswered (.initial regs) acts ∧ TrapsAskedFor (.initial regs) acts) := by
  have exactly : Throughout State.step PidsNodup (.initial regs) acts
      ↔ Along State.step StepsAlone (.initial regs) acts := by
    refine throughout_iff_along (marked_throughout regs acts)
      (along_of_forall (fun _ _ _ => trivial) _) List.nodup_nil ?_ run
    intro t a u _ _ nodup taken
    obtain ⟨enabled, same⟩ := step_eq_some.mp taken
    subst same
    exact pidsNodup_next_iff nodup enabled
  refine ⟨?_, ?_⟩
  · constructor
    · intro ⟨nodup, _⟩
      exact exactly.mp nodup
    · intro guarded
      have nodup := exactly.mpr guarded
      refine ⟨nodup, ?_⟩
      intro before a after t split reached p trap e member
      have there := nodup before (a :: after) t split reached
      rcases t.trap_cases p with ⟨none, same⟩ | ⟨_, _, _, same⟩ | ⟨_, _, _, same⟩
      · rw [same] at member
        exact t.findEntry_eq_none.mp none e member
      · rw [same] at member
        exact t.pid_ne_of_mem_unlinked there member
      · rw [same] at member
        exact t.pid_ne_of_mem_unlinked there member
  · intro nodup
    exact ⟨stepsAnswered_of_pidsNodup nodup, trapsAskedFor_of_pidsNodup nodup⟩

theorem pidsNodup_iff_stepSession
    : (Throughout State.step PidsNodup (.initial blankRegs) stepSession
          ∧ Along State.step TrapsClear (.initial blankRegs) stepSession
        ↔ Along State.step StepsAlone (.initial blankRegs) stepSession)
      ∧ (Throughout State.step PidsNodup (.initial blankRegs) stepSession
        → StepsAnswered (.initial blankRegs) stepSession
          ∧ TrapsAskedFor (.initial blankRegs) stepSession) :=
  pidsNodup_iff blankRegs stepSession _ rfl

/-- Two step requests are accepted in one stop, and the target traps. -/
def stepTwice : List Act :=
  stopped ++ .call 0 .bpStep :: .call 0 .bpStep :: goOn ++ [.trap 1]

/-- The trap leaves the entry of the first request behind. -/
theorem stepTwice_not_pidsNodup
    : (exec State.step (.initial blankRegs) stepTwice).isSome
      ∧ ¬Throughout State.step PidsNodup (.initial blankRegs) stepTwice
      ∧ ¬Along State.step TrapsClear (.initial blankRegs) stepTwice := by
  refine ⟨rfl, ?_, ?_⟩
  · intro always
    have nodup := always (stepTwice.take 6) (stepTwice.drop 6) _ rfl rfl
    have fresh := (List.nodup_cons.mp nodup).1
    exact fresh List.mem_cons_self
  · intro clear
    have last := clear (stepTwice.take 10) (.trap 1) [] _ rfl rfl 1 rfl ⟨1, 0, false⟩
      List.mem_cons_self
    contradiction

end RwMem.Breakpoint
