import RwMem.Breakpoint.Lifetime

/-! Live step entries of closed files. The release searches the global step list for entries of
its file, and stops at the first.
-/

namespace RwMem.Breakpoint

open Transition State

/-- Every entry that is not marked names an open file. -/
def LiveEntriesOpen (s : State) : Prop :=
  ∀ e ∈ s.stepList, e.removed = false → (s.files e.file).status = .opened

/-- The release meets at most one entry of its file. -/
def ClosesSingle (s : State) (a : Act) : Prop :=
  ∀ f, a = .close f → (entriesOf f s.stepList).length ≤ 1

/-- The step hook queues no callback of a file that is not open. -/
def QueuesOpen (s : State) (a : Act) : Prop :=
  ∀ p e, a = .trap p → s.findEntry p = some e → e.removed = false
    → (s.files e.file).status = .opened

/-- A step keeps live entries open exactly if its release meets at most one entry. -/
theorem liveEntriesOpen_next_iff {s : State} {a : Act} (marked : Marked s)
    (open_ : LiveEntriesOpen s) (enabled : s.enabled a = true)
    : LiveEntriesOpen (s.next a) ↔ ClosesSingle s a := by
  -- an entry that stays live keeps its open file, unless that file is closed now
  have stays {e : StepEntry} (live : e.removed = false) (before : e ∈ s.stepList)
      (other : a ≠ .close e.file) : ((s.next a).files e.file).status = .opened :=
    (opened_next enabled).mpr (Or.inl ⟨open_ e before live, other⟩)
  rcases stepList_next enabled with ⟨f, call, act, _, opened, list⟩ | ⟨p, act, list⟩
    | ⟨f, act, list⟩ | ⟨_, _, notClose, list⟩
  · subst act
    apply iff_of_true
    · intro e member live
      rw [list] at member
      rcases List.mem_cons.mp member with same | before
      · subst same
        exact (opened_next enabled).mpr (Or.inl ⟨opened, by simp⟩)
      · exact stays live before (by simp)
    · intro g same
      contradiction
  · subst act
    apply iff_of_true
    · intro e member live
      rw [list] at member
      exact stays live (List.mem_of_mem_eraseP member) (by simp)
    · intro g same
      contradiction
  · subst act
    have opened : (s.files f).status = .opened := by simpa [State.enabled] using enabled
    have own : ∀ e ∈ s.stepList, e.file = f → e.removed = false :=
      fun e member same => marked.live opened member same
    have closed : ((s.next (.close f)).files f).status ≠ .opened := by
      intro still
      have now := (closed_next enabled).mpr (Or.inr rfl)
      rw [still] at now
      contradiction
    constructor
    · intro holds g same
      cases same
      apply (forall_marked_iff own).mp
      intro e member same
      cases removed : e.removed with
      | true => rfl
      | false =>
          have still := holds e (by rw [list]; exact member) removed
          rw [same] at still
          exact absurd still closed
    · intro single e member live
      rw [list] at member
      have before := mem_of_mem_markRemoved member live
      by_cases same : e.file = f
      · have now := (forall_marked_iff own).mpr (single f rfl) e member same
        rw [live] at now
        contradiction
      · apply stays live before
        intro equal
        cases equal
        exact same rfl
  · apply iff_of_true
    · intro e member live
      rw [list] at member
      exact stays live member (notClose e.file)
    · intro g same
      exact absurd same (notClose g)

/-- In every run all live entries name open files exactly if each release meets at most one
entry of its file; and then the step hook never queues a callback of a closed file.
-/
theorem liveEntriesOpen_iff (regs : Pid → Regs) (acts : List Act) (final : State)
    (run : exec State.step (.initial regs) acts = some final)
    : (Throughout State.step LiveEntriesOpen (.initial regs) acts
        ↔ Along State.step ClosesSingle (.initial regs) acts)
      ∧ (Throughout State.step LiveEntriesOpen (.initial regs) acts
        → Along State.step QueuesOpen (.initial regs) acts) := by
  refine ⟨?_, ?_⟩
  · refine throughout_iff_along (marked_throughout regs acts)
      (along_of_forall (fun _ _ _ => trivial) _) ?_ ?_ run
    · intro e member
      contradiction
    · intro t a u marked _ open_ taken
      obtain ⟨enabled, same⟩ := step_eq_some.mp taken
      subst same
      exact liveEntriesOpen_next_iff marked open_ enabled
  · intro always before a after t split reached p e _ found live
    have open_ := always before (a :: after) t split reached
    exact open_ e (t.findEntry_eq_some found).1 live

theorem liveEntriesOpen_iff_stepSession
    : (Throughout State.step LiveEntriesOpen (.initial blankRegs) stepSession
        ↔ Along State.step ClosesSingle (.initial blankRegs) stepSession)
      ∧ (Throughout State.step LiveEntriesOpen (.initial blankRegs) stepSession
        → Along State.step QueuesOpen (.initial blankRegs) stepSession) :=
  liveEntriesOpen_iff blankRegs stepSession _ rfl

/-- Two step requests are accepted in one stop, and the file is closed. -/
def stepTwiceAndClose : List Act :=
  stopped ++ [.call 0 .bpStep, .call 0 .bpStep, .close 0]

/-- The release marks the first of the two entries only. -/
theorem stepTwiceAndClose_not_liveEntriesOpen
    : (exec State.step (.initial blankRegs) stepTwiceAndClose).isSome
      ∧ ¬Throughout State.step LiveEntriesOpen (.initial blankRegs) stepTwiceAndClose := by
  refine ⟨rfl, ?_⟩
  intro always
  have final := always.final rfl
  have opened := final ⟨1, 0, false⟩ (List.mem_cons_of_mem _ List.mem_cons_self) rfl
  contradiction

end RwMem.Breakpoint
