import RwMem.Breakpoint.Steps
import RwMem.Transition.Runs

/-! When `bp_callback_after` stays away from private data that `rwmem_bp_release` has freed.
The release neither cancels queued callbacks nor waits for a running one.
-/

namespace RwMem.Breakpoint

open Transition State

/-- The step belongs to a callback of a file whose private data is freed: it starts it, which
reads the pointer to the data, or goes on in it, which reads or writes the data.
-/
def TouchesFreed (s : State) (a : Act) : Prop :=
  ∃ f,
    (s.files f).status = .closed
    ∧ ((∃ p i, a = .start p i ∧ (s.threads p).work[i]? = some f)
      ∨ ∃ p pc, a = .advance p ∧ (s.threads p).cur = some (f, pc))

/-- No thread has a callback of the file queued or running. -/
def Idle (s : State) (f : FileId) : Prop :=
  ∀ p, f ∉ (s.threads p).work ∧ ∀ pc, (s.threads p).cur ≠ some (f, pc)

/-- The release meets a file without queued or running callbacks and with at most one pending
step request.
-/
def ClosesIdle (s : State) (a : Act) : Prop :=
  ∀ f, a = .close f → Idle s f ∧ (entriesOf f s.stepList).length ≤ 1

/-- Nothing leads back to a closed file: no callback, and no live step entry. -/
def Retired (s : State) : Prop :=
  ∀ f,
    (s.files f).status = .closed
    → Idle s f ∧ ∀ e ∈ s.stepList, e.file = f → e.removed = true

theorem retired_initial (regs : Pid → Regs) : Retired (.initial regs) := by
  intro f closed
  contradiction

/-- A step brings no callback to a file that nothing leads to. -/
theorem Idle.next {s : State} {a : Act} {f : FileId} (idle : Idle s f)
    (enabled : s.enabled a = true) (notOpened : (s.files f).status ≠ .opened ∨ a = .close f)
    (dead : ∀ e ∈ s.stepList, e.file = f → e.removed = true ∨ a = .close f)
    : Idle (s.next a) f := by
  intro p
  obtain ⟨noWork, noCur⟩ := idle p
  refine ⟨?_, ?_⟩
  · intro queued
    rcases mem_work_next enabled queued with before | ⟨hit, opened, _⟩
      | ⟨e, trap, found, live, own⟩
    · exact noWork before
    · rcases notOpened with other | close
      · exact other opened
      · exact Act.noConfusion (hit.symm.trans close)
    · rcases dead e (s.findEntry_eq_some found).1 own with removed | close
      · rw [live] at removed
        contradiction
      · exact Act.noConfusion (trap.symm.trans close)
  · intro pc stands
    rcases cur_next enabled p with ⟨i, g, _, member, _, now⟩ | ⟨g, pc', data, next, _, cur, _, _, now⟩
      | ⟨_, _, now⟩
    · rw [now] at stands
      cases stands
      exact noWork member
    · rw [now] at stands
      cases next with
      | none => cases stands
      | some pc'' =>
          cases stands
          exact noCur pc' cur
    · rw [now] at stands
      exact noCur pc stands

/-- Only entries of closed files are marked. -/
def Marked (s : State) : Prop :=
  ∀ e ∈ s.stepList, e.removed = true → (s.files e.file).status = .closed

theorem marked_initial (regs : Pid → Regs) : Marked (.initial regs) := by
  intro e member
  contradiction

theorem Marked.next {s : State} {a : Act} (marked : Marked s) (enabled : s.enabled a = true)
    : Marked (s.next a) := by
  intro e member removed
  apply (closed_next enabled).mpr
  rcases stepList_next enabled with ⟨f, call, _, _, _, list⟩ | ⟨p, _, list⟩ | ⟨f, close, list⟩
    | ⟨_, _, _, list⟩
  · rw [list] at member
    rcases List.mem_cons.mp member with same | before
    · subst same
      contradiction
    · exact Or.inl (marked e before removed)
  · rw [list] at member
    exact Or.inl (marked e (List.mem_of_mem_eraseP member) removed)
  · rw [list] at member
    by_cases own : e.file = f
    · subst own
      exact Or.inr close
    · exact Or.inl (marked e ((mem_markRemoved_of_ne own).mp member) removed)
  · rw [list] at member
    exact Or.inl (marked e member removed)

/-- The entries of an open file are live. -/
theorem Marked.live {s : State} (marked : Marked s) {f : FileId}
    (opened : (s.files f).status = .opened) {e : StepEntry} (member : e ∈ s.stepList)
    (own : e.file = f)
    : e.removed = false := by
  cases removed : e.removed with
  | false => rfl
  | true =>
      have closed := marked e member removed
      rw [own, opened] at closed
      contradiction

theorem marked_throughout (regs : Pid → Regs) (acts : List Act)
    : Throughout State.step Marked (.initial regs) acts := by
  apply invariant_of_step acts (marked_initial regs)
  intro t a u holds taken
  obtain ⟨enabled, same⟩ := step_eq_some.mp taken
  subst same
  exact holds.next enabled

/-- A step whose release meets an idle file keeps closed files retired. -/
theorem Retired.next {s : State} {a : Act} (retired : Retired s) (marked : Marked s)
    (guard : ClosesIdle s a) (enabled : s.enabled a = true)
    : Retired (s.next a) := by
  intro f closedNow
  rcases (closed_next enabled).mp closedNow with closed | close
  · obtain ⟨idle, dead⟩ := retired f closed
    have notOpened : (s.files f).status ≠ .opened := by
      intro opened
      rw [closed] at opened
      contradiction
    refine ⟨idle.next enabled (Or.inl notOpened) (fun e member own => Or.inl (dead e member own)),
      ?_⟩
    intro e member own
    rcases stepList_next enabled with ⟨g, call, _, _, opened, list⟩ | ⟨p, _, list⟩
      | ⟨g, _, list⟩ | ⟨_, _, _, list⟩
    · rw [list] at member
      rcases List.mem_cons.mp member with same | before
      · subst same
        subst own
        exact absurd opened notOpened
      · exact dead e before own
    · rw [list] at member
      exact dead e (List.mem_of_mem_eraseP member) own
    · rw [list] at member
      cases removed : e.removed with
      | true => rfl
      | false =>
          rw [← removed]
          exact dead e (mem_of_mem_markRemoved member removed) own
    · rw [list] at member
      exact dead e member own
  · subst close
    obtain ⟨idle, single⟩ := guard f rfl
    have opened : (s.files f).status = .opened := by simpa [State.enabled] using enabled
    refine ⟨idle.next enabled (Or.inr rfl) (fun e _ _ => Or.inr rfl), ?_⟩
    exact (forall_marked_iff (fun e member own => marked.live opened member own)).mpr single

/-- No step of a state in which closed files are retired touches freed data. -/
theorem Retired.not_touchesFreed {s : State} (retired : Retired s) (a : Act)
    : ¬TouchesFreed s a := by
  intro ⟨f, closed, touches⟩
  obtain ⟨idle, -⟩ := retired f closed
  rcases touches with ⟨p, i, _, queued⟩ | ⟨p, pc, _, stands⟩
  · exact (idle p).1 (List.mem_of_getElem? queued)
  · exact (idle p).2 pc stands

/-- In every run whose releases all meet an idle file, no step touches freed data. -/
theorem never_touchesFreed (regs : Pid → Regs) (acts : List Act)
    (idle : Along State.step ClosesIdle (.initial regs) acts)
    : Along State.step (fun s a => ¬TouchesFreed s a) (.initial regs) acts := by
  have both : Throughout State.step (fun s => Marked s ∧ Retired s) (.initial regs) acts := by
    refine invariant ClosesIdle ⟨marked_initial regs, retired_initial regs⟩ ?_ idle
    intro t a u holds guard taken
    obtain ⟨enabled, same⟩ := step_eq_some.mp taken
    subst same
    exact ⟨holds.1.next enabled, holds.2.next holds.1 guard enabled⟩
  intro before a after t split reached
  exact (both before (a :: after) t split reached).2.not_touchesFreed a

def blankRegs : Pid → Regs := fun _ => ⟨fun _ => 0, fun _ => 0, 0, 0⟩

/-- A breakpoint is set and hit, its target stops, is continued and clears the flags, and the
file is closed.
-/
def session : List Act :=
  [.addBp 0 1, .hit 0, .start 1 0, .advance 1, .advance 1, .advance 1, .call 0 .bpContinue,
    .advance 1, .advance 1, .advance 1, .close 0]

theorem never_touchesFreed_session
    : Along State.step (fun s a => ¬TouchesFreed s a) (.initial blankRegs) session := by
  apply never_touchesFreed
  have quiet {s : State} {a : Act} (other : ∀ f, a ≠ .close f) : ClosesIdle s a :=
    fun f same => absurd same (other f)
  rw [session]
  iterate 10
    refine along_cons (quiet (by simp)) ?_
    intro t taken
    cases Option.some.inj taken
  refine along_cons ?_ (fun t _ => along_nil _ t)
  intro f same
  cases same
  refine ⟨?_, by decide⟩
  intro p
  rcases p with _ | _ | p <;>
    exact ⟨List.not_mem_nil, fun pc stands => by cases stands⟩

/-- A breakpoint is hit, its target sleeps, the sleeper's file is closed, and it wakes up. -/
def closeWhileAsleep : List Act :=
  [.addBp 0 1, .hit 0, .start 1 0, .advance 1, .advance 1, .advance 1, .close 0, .advance 1]

/-- The woken sleeper reads its condition from freed data. -/
theorem closeWhileAsleep_touchesFreed
    : (exec State.step (.initial blankRegs) closeWhileAsleep).isSome
      ∧ ¬Along State.step (fun s a => ¬TouchesFreed s a) (.initial blankRegs)
          closeWhileAsleep := by
  refine ⟨rfl, ?_⟩
  intro safe
  apply safe (closeWhileAsleep.take 7) (.advance 1) [] _ rfl rfl
  exact ⟨0, rfl, Or.inr ⟨1, .asleep, rfl, rfl⟩⟩

/-- A breakpoint is set and hit, and its target stops. -/
def stopped : List Act := [.addBp 0 1, .hit 0, .start 1 0, .advance 1]

/-- The rest of the callback, once the target is told to go on. -/
def goOn : List Act := [.advance 1, .advance 1, .advance 1, .advance 1]

/-- The target is stepped, traps, and the file is closed. -/
def stepSession : List Act := stopped ++ .call 0 .bpStep :: goOn ++ [.trap 1, .close 0]

end RwMem.Breakpoint
