import RwMem.Breakpoint.Lifetime

/-! Single-stepping without a step entry. The step hook has three exits, and only one of them ends
the single-step mode of its thread.
-/

namespace RwMem.Breakpoint

open Transition State

/-- While the thread is single-stepped it has an entry that its next trap will find. -/
def StepsCovered (p : Pid) (s : State) : Prop :=
  (s.threads p).singleStep = true → ∃ e ∈ s.stepList, e.pid = p

/-- Nobody else single-steps the thread. -/
def Alone (p : Pid) (_s : State) (a : Act) : Prop := ∀ on, a ≠ .ptrace p on

/-- A trap of the thread that finds a marked entry leaves another entry for it. -/
def TrapsCovered (p : Pid) (s : State) (a : Act) : Prop :=
  ∀ e, a = .trap p → s.findEntry p = some e → e.removed = true
    → 2 ≤ (s.stepList.filter (fun e => e.pid = p)).length

/-- The step hook handles the trap of the single-stepped thread. -/
def TrapsHandled (p : Pid) (s : State) (a : Act) : Prop :=
  a = .trap p → s.enabled a = true → (s.rwmemBpStepHandler p).2 = .handled

/-- A trap keeps its thread covered exactly if, where it finds a marked entry, it leaves another
one: that exit of the hook does not end the single-step mode.
-/
theorem stepsCovered_trap_iff {s : State} {p : Pid} (covered : StepsCovered p s)
    (enabled : s.enabled (.trap p) = true)
    (list : (s.next (.trap p)).stepList = s.unlinked p)
    : StepsCovered p (s.next (.trap p)) ↔ TrapsCovered p s (.trap p) := by
  rcases singleStep_next enabled p with ⟨g, call, act, _⟩ | ⟨e, _, found, live, ended⟩
    | ⟨on, debugger⟩ | ⟨marked, same⟩
  · cases act
  · apply iff_of_true
    · intro stepped
      rw [stepped] at ended
      contradiction
    · intro e' _ found' removed
      rw [found] at found'
      cases found'
      rw [removed] at live
      contradiction
  · cases debugger
  · simp only [State.enabled, Bool.and_eq_true] at enabled
    constructor
    · intro holds e _ found removed
      have left := holds (same ▸ enabled.1)
      rw [list] at left
      exact (s.exists_mem_unlinked_iff p).mp left
    · intro guard _
      obtain ⟨e, member, own⟩ := covered enabled.1
      obtain ⟨e', found⟩ := s.exists_findEntry member own
      have two := guard e' rfl found (marked e' rfl found)
      rw [list]
      exact (s.exists_mem_unlinked_iff p).mpr two

/-- A step keeps the thread covered exactly if a trap of it on a marked entry leaves another. -/
theorem stepsCovered_next_iff {s : State} {a : Act} {p : Pid} (alone : Alone p s a)
    (covered : StepsCovered p s) (enabled : s.enabled a = true)
    : StepsCovered p (s.next a) ↔ TrapsCovered p s a := by
  by_cases trap : a = .trap p
  · subst trap
    rcases stepList_next enabled with ⟨f, call, act, _⟩ | ⟨q, act, list⟩ | ⟨f, act, _⟩
      | ⟨_, noTrap, _⟩
    · cases act
    · cases act
      exact stepsCovered_trap_iff covered enabled list
    · cases act
    · exact absurd rfl (noTrap p)
  · refine iff_of_true ?_ (fun e act => absurd act trap)
    intro stepped
    -- no other step takes an entry of the thread away
    have kept (before : ∃ e ∈ s.stepList, e.pid = p)
        : ∃ e ∈ (s.next a).stepList, e.pid = p := by
      obtain ⟨e, member, own⟩ := before
      rcases stepList_next enabled with ⟨f, call, _, _, _, list⟩ | ⟨q, act, list⟩
        | ⟨f, _, list⟩ | ⟨_, _, _, list⟩
      · rw [list]
        exact ⟨e, List.mem_cons_of_mem _ member, own⟩
      · have other : e.pid ≠ q := by
          intro same
          exact trap (by rw [act, ← same, own])
        rw [list]
        exact ⟨e, (s.mem_unlinked_of_ne other).mpr member, own⟩
      · have inPids : p ∈ s.stepList.map StepEntry.pid := List.mem_map.mpr ⟨e, member, own⟩
        rw [← map_pid_markRemoved f s.stepList, ← list] at inPids
        exact List.mem_map.mp inPids
      · rw [list]
        exact ⟨e, member, own⟩
    rcases singleStep_next enabled p with ⟨f, call, act, accepts, own⟩ | ⟨e, act, _⟩
      | ⟨on, debugger⟩ | ⟨_, same⟩
    · subst act
      rcases s.stepList_call f call with ⟨_, list⟩ | ⟨refused, _⟩
      · rw [State.next, list]
        exact ⟨_, List.mem_cons_self, own.symm⟩
      · exact absurd accepts refused
    · exact absurd act trap
    · exact absurd debugger (alone on)
    · exact kept (covered (same ▸ stepped))

/-- In every run, a thread that nobody else single-steps stays covered exactly if each of its
traps on a marked entry leaves another one; and then the hook handles every trap of it.
-/
theorem stepsCovered_iff (regs : Pid → Regs) (acts : List Act) (final : State)
    (run : exec State.step (.initial regs) acts = some final) (p : Pid)
    (alone : Along State.step (Alone p) (.initial regs) acts)
    : (Throughout State.step (StepsCovered p) (.initial regs) acts
        ↔ Along State.step (TrapsCovered p) (.initial regs) acts)
      ∧ (Throughout State.step (StepsCovered p) (.initial regs) acts
        → Along State.step (TrapsHandled p) (.initial regs) acts) := by
  refine ⟨?_, ?_⟩
  · refine throughout_iff_along (marked_throughout regs acts) alone ?_ ?_ run
    · intro stepped
      contradiction
    · intro t a u _ side covered taken
      obtain ⟨enabled, same⟩ := step_eq_some.mp taken
      subst same
      exact stepsCovered_next_iff side covered enabled
  · intro always before a after t split reached trap enabled
    subst trap
    have covered := always before (.trap p :: after) t split reached
    simp only [State.enabled, Bool.and_eq_true] at enabled
    obtain ⟨e, member, own⟩ := covered enabled.1
    obtain ⟨e', found⟩ := t.exists_findEntry member own
    rcases t.trap_cases p with ⟨none, _⟩ | ⟨_, _, _, same⟩ | ⟨_, _, _, same⟩
    · rw [found] at none
      contradiction
    · rw [same]
    · rw [same]

theorem stepsCovered_iff_stepSession
    : (Throughout State.step (StepsCovered 1) (.initial blankRegs) stepSession
        ↔ Along State.step (TrapsCovered 1) (.initial blankRegs) stepSession)
      ∧ (Throughout State.step (StepsCovered 1) (.initial blankRegs) stepSession
        → Along State.step (TrapsHandled 1) (.initial blankRegs) stepSession) :=
  stepsCovered_iff blankRegs stepSession _ rfl 1
    (along_of_forall (by simp [stepSession, stopped, goOn, Alone]) _)

/-- The target is stepped, the file is closed before the trap, and the target traps twice. -/
def stepAndClose : List Act :=
  stopped ++ .call 0 .bpStep :: goOn ++ [.close 0, .trap 1, .trap 1]

/-- The first trap leaves the thread in single-step mode without an entry, so that the second
one is not handled.
-/
theorem stepAndClose_not_stepsCovered
    : (exec State.step (.initial blankRegs) stepAndClose).isSome
      ∧ ¬Throughout State.step (StepsCovered 1) (.initial blankRegs) stepAndClose
      ∧ ¬Along State.step (TrapsHandled 1) (.initial blankRegs) stepAndClose := by
  refine ⟨rfl, ?_, ?_⟩
  · intro always
    obtain ⟨e, member, _⟩ := always.final rfl rfl
    contradiction
  · intro handled
    have last := handled (stepAndClose.take 11) (.trap 1) [] _ rfl rfl rfl rfl
    contradiction

end RwMem.Breakpoint
