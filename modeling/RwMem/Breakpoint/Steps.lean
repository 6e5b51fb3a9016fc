import Mathlib.Data.List.Nodup
import RwMem.Breakpoint.System

/-! What each kind of step changes: file states, the placement of callbacks, single-step
modes and the step list. The proofs about runs use these facts only.
-/

namespace RwMem.Breakpoint.State

open RwMem.Driver

variable (s : State)

-----------------------------------------------------------------------------------------
-- Pieces of the state
-----------------------------------------------------------------------------------------

@[simp] theorem status_setData (f g : FileId) (data : PrivateData)
    : ((s.setData f data).files g).status = (s.files g).status := by
  by_cases same : g = f
  · subst same
    simp [setData]
  · simp [setData, same]

@[simp] theorem data_setData (f : FileId) (data : PrivateData)
    : ((s.setData f data).files f).data = data := by
  simp [setData]

theorem data_setData_of_ne {f g : FileId} (data : PrivateData) (other : g ≠ f)
    : ((s.setData f data).files g).data = (s.files g).data := by
  simp [setData, other]

@[simp] theorem stepList_setData (f : FileId) (data : PrivateData)
    : (s.setData f data).stepList = s.stepList := rfl

@[simp] theorem threads_setData (f : FileId) (data : PrivateData)
    : (s.setData f data).threads = s.threads := rfl

@[simp] theorem files_setThread (p : Pid) (thread : Thread)
    : (s.setThread p thread).files = s.files := rfl

@[simp] theorem stepList_setThread (p : Pid) (thread : Thread)
    : (s.setThread p thread).stepList = s.stepList := rfl

@[simp] theorem threads_setThread (p : Pid) (thread : Thread)
    : (s.setThread p thread).threads p = thread := by
  simp [setThread]

theorem threads_setThread_of_ne {p q : Pid} (thread : Thread) (other : q ≠ p)
    : (s.setThread p thread).threads q = s.threads q := by
  simp [setThread, other]

@[simp] theorem files_taskWorkAdd (p : Pid) (f : FileId)
    : (s.taskWorkAdd p f).files = s.files := rfl

@[simp] theorem stepList_taskWorkAdd (p : Pid) (f : FileId)
    : (s.taskWorkAdd p f).stepList = s.stepList := rfl

-----------------------------------------------------------------------------------------
-- Calls
-----------------------------------------------------------------------------------------

/-- The effect of a call leaves every file as it was but for the flags of its own. -/
theorem files_effect (f g : FileId) (call : Call)
    : ((s.effect f call).1.files g).status = (s.files g).status
      ∧ (s.effect f call).1.target g = s.target g
      ∧ (g ≠ f → ((s.effect f call).1.files g).data = (s.files g).data) := by
  by_cases same : g = f
  · subst same
    cases call <;> simp [effect, resume, changeRegs, requestStep, target]
  · cases call <;>
      simp [effect, resume, changeRegs, requestStep, target, data_setData_of_ne, same]

/-- Of the flags of its file a call sets `continue_flag` and clears the poll word. -/
theorem flags_effect (f : FileId) (call : Call)
    : let data := (s.files f).data
      let data' := ((s.effect f call).1.files f).data
      data'.stoppedFlag = data.stoppedFlag
      ∧ data'.continueFlag = (data.continueFlag || call.isResume)
      ∧ (data'.poll = true → data.poll = true) := by
  cases call <;> simp [effect, resume, changeRegs, requestStep, Call.isResume]

/-- The effect of a call moves no callback. -/
theorem place_effect (f : FileId) (call : Call) (p : Pid)
    : ((s.effect f call).1.threads p).work = (s.threads p).work
      ∧ ((s.effect f call).1.threads p).cur = (s.threads p).cur := by
  by_cases same : p = s.target f
  · subst same
    cases call <;> simp [effect, resume, changeRegs, requestStep]
    split <;> exact ⟨rfl, rfl⟩
  · cases call <;>
      simp [effect, resume, changeRegs, requestStep, threads_setThread_of_ne, same]

theorem singleStep_effect (f : FileId) (call : Call) (p : Pid)
    : ((s.effect f call).1.threads p).singleStep = true
      ↔ (s.threads p).singleStep = true ∨ (call = .bpStep ∧ p = s.target f) := by
  by_cases same : p = s.target f
  · subst same
    cases call <;> simp [effect, resume, changeRegs, requestStep]
    split <;> simp [*]
  · cases call <;>
      simp [effect, resume, changeRegs, requestStep, threads_setThread_of_ne, same]

theorem stepList_effect (f : FileId) (call : Call)
    : (call = .bpStep ∧ (s.effect f call).1.stepList = ⟨s.target f, f, false⟩ :: s.stepList)
      ∨ (call ≠ .bpStep ∧ (s.effect f call).1.stepList = s.stepList) := by
  cases call <;> simp [effect, resume, changeRegs, requestStep]

/-- A call has its effect, or fails its test and has none. -/
theorem call_cases (f : FileId) (call : Call)
    : (s.test f call = true ∧ s.call f call = s.effect f call)
      ∨ (s.test f call = false ∧ s.call f call = (s, -EINVAL)) := by
  rw [State.call]
  cases test : s.test f call <;> simp

theorem test_of_isTested {f : FileId} {call : Call} (tested : call.isTested = true)
    : s.test f call = (s.files f).data.stoppedFlag := by
  simp [test, tested]

/-- Of the flags a call changes `continue_flag`, when it resumes a stopped target, and the
poll word, which it can only clear.
-/
theorem flags_call (f : FileId) (call : Call)
    : let data := (s.files f).data
      let data' := ((s.call f call).1.files f).data
      data'.stoppedFlag = data.stoppedFlag
      ∧ data'.continueFlag = (data.continueFlag || (call.isResume && data.stoppedFlag))
      ∧ (data'.poll = true → data.poll = true) := by
  intro data data'
  obtain ⟨stopped, continued, polled⟩ := s.flags_effect f call
  rcases s.call_cases f call with ⟨test, same⟩ | ⟨test, same⟩
  · simp only [data', data, same]
    refine ⟨stopped, ?_, polled⟩
    rw [continued]
    cases resumes : call.isResume with
    | false => simp
    | true =>
        rw [test_of_isTested s (Call.isTested_of_isResume resumes)] at test
        simp [test]
  · have unchanged : data' = data := by simp only [data', data, same]
    rw [unchanged]
    refine ⟨rfl, ?_, id⟩
    cases resumes : call.isResume with
    | false => simp
    | true =>
        rw [test_of_isTested s (Call.isTested_of_isResume resumes)] at test
        simp [data, test]

theorem files_call (f g : FileId) (call : Call)
    : ((s.call f call).1.files g).status = (s.files g).status
      ∧ (s.call f call).1.target g = s.target g
      ∧ (g ≠ f → ((s.call f call).1.files g).data = (s.files g).data) := by
  rcases s.call_cases f call with ⟨_, same⟩ | ⟨_, same⟩
  · rw [same]
    exact s.files_effect f g call
  · rw [same]
    exact ⟨rfl, rfl, fun _ => rfl⟩

theorem place_call (f : FileId) (call : Call) (p : Pid)
    : ((s.call f call).1.threads p).work = (s.threads p).work
      ∧ ((s.call f call).1.threads p).cur = (s.threads p).cur := by
  rcases s.call_cases f call with ⟨_, same⟩ | ⟨_, same⟩
  · rw [same]
    exact s.place_effect f call p
  · rw [same]
    exact ⟨rfl, rfl⟩

/-- A thread is single-stepped after a call if it was before, or if the call is a step
request that is accepted.
-/
theorem singleStep_call (f : FileId) (call : Call) (p : Pid)
    : ((s.call f call).1.threads p).singleStep = true
      ↔ (s.threads p).singleStep = true ∨ (s.AcceptsStep f call ∧ p = s.target f) := by
  rcases s.call_cases f call with ⟨test, same⟩ | ⟨test, same⟩
  · rw [same, singleStep_effect, AcceptsStep]
    apply or_congr_right
    constructor
    · intro ⟨step, own⟩
      subst step
      exact ⟨⟨rfl, test⟩, own⟩
    · intro ⟨⟨step, _⟩, own⟩
      exact ⟨step, own⟩
  · rw [same, AcceptsStep]
    constructor
    · exact Or.inl
    · intro member
      rcases member with before | ⟨⟨step, stopped⟩, _⟩
      · exact before
      · subst step
        rw [test_of_isTested s rfl, stopped] at test
        contradiction

/-- An accepted step request pushes its entry, every other call leaves the list. -/
theorem stepList_call (f : FileId) (call : Call)
    : (s.AcceptsStep f call
        ∧ (s.call f call).1.stepList = ⟨s.target f, f, false⟩ :: s.stepList)
      ∨ (¬s.AcceptsStep f call ∧ (s.call f call).1.stepList = s.stepList) := by
  rcases s.call_cases f call with ⟨test, same⟩ | ⟨test, same⟩
  · rw [same]
    rcases s.stepList_effect f call with ⟨step, pushed⟩ | ⟨other, kept⟩
    · subst step
      exact Or.inl ⟨⟨rfl, test⟩, pushed⟩
    · exact Or.inr ⟨fun accepts => other accepts.1, kept⟩
  · rw [same]
    refine Or.inr ⟨?_, rfl⟩
    intro ⟨step, stopped⟩
    subst step
    rw [test_of_isTested s rfl, stopped] at test
    contradiction

-----------------------------------------------------------------------------------------
-- The step list
-----------------------------------------------------------------------------------------

/-- Marking keeps the threads of the entries, in order. -/
theorem map_pid_markRemoved (f : FileId) (l : List StepEntry)
    : (markRemoved f l).map StepEntry.pid = l.map StepEntry.pid := by
  induction l with
  | nil => rfl
  | cons e rest ih =>
      rw [markRemoved]
      split
      · rfl
      · rw [List.map_cons, List.map_cons, ih]

/-- An entry that is not marked was there before. -/
theorem mem_of_mem_markRemoved {f : FileId} {l : List StepEntry} {e : StepEntry}
    (member : e ∈ markRemoved f l) (live : e.removed = false)
    : e ∈ l := by
  induction l with
  | nil => exact member
  | cons first rest ih =>
      rw [markRemoved] at member
      split at member
      · rcases List.mem_cons.mp member with same | later
        · subst same
          contradiction
        · exact List.mem_cons_of_mem _ later
      · rcases List.mem_cons.mp member with same | later
        · subst same
          exact List.mem_cons_self
        · exact List.mem_cons_of_mem _ (ih later)

/-- Every entry behind the marking was there before, marked or not. -/
theorem exists_mem_of_mem_markRemoved {f : FileId} {l : List StepEntry} {e : StepEntry}
    (member : e ∈ markRemoved f l)
    : ∃ e' ∈ l, e'.file = e.file ∧ e'.pid = e.pid := by
  induction l with
  | nil => contradiction
  | cons first rest ih =>
      rw [markRemoved] at member
      split at member
      · rcases List.mem_cons.mp member with same | later
        · subst same
          exact ⟨first, List.mem_cons_self, rfl, rfl⟩
        · exact ⟨e, List.mem_cons_of_mem _ later, rfl, rfl⟩
      · rcases List.mem_cons.mp member with same | later
        · exact ⟨first, List.mem_cons_self, same ▸ rfl, same ▸ rfl⟩
        · obtain ⟨e', before, same⟩ := ih later
          exact ⟨e', List.mem_cons_of_mem _ before, same⟩

/-- The release marks no entry of another file. -/
theorem mem_markRemoved_of_ne {f : FileId} {l : List StepEntry} {e : StepEntry}
    (other : e.file ≠ f)
    : e ∈ markRemoved f l ↔ e ∈ l := by
  induction l with
  | nil => exact Iff.rfl
  | cons first rest ih =>
      rw [markRemoved]
      split
      · rename_i same
        have fresh : e ≠ { first with removed := true } := by
          intro equal
          exact other (equal ▸ same)
        have old : e ≠ first := by
          intro equal
          exact other (equal ▸ same)
        simp [fresh, old]
      · rw [List.mem_cons, List.mem_cons, ih]

/-- The entries of a file. -/
def entriesOf (f : FileId) (l : List StepEntry) : List StepEntry :=
  l.filter (fun e => e.file = f)

/-- Where all entries of the file are live, the release marks all of them exactly if there is
at most one.
-/
theorem forall_marked_iff {f : FileId} {l : List StepEntry}
    (live : ∀ e ∈ l, e.file = f → e.removed = false)
    : (∀ e ∈ markRemoved f l, e.file = f → e.removed = true)
      ↔ (entriesOf f l).length ≤ 1 := by
  induction l with
  | nil => simp [markRemoved, entriesOf]
  | cons first rest ih =>
      have liveRest (e : StepEntry) (member : e ∈ rest) := live e (List.mem_cons_of_mem _ member)
      rw [markRemoved]
      by_cases own : first.file = f
      · have count : (entriesOf f (first :: rest)).length = (entriesOf f rest).length + 1 := by
          simp [entriesOf, own]
        rw [if_pos own, count]
        constructor
        · intro marked
          have empty : entriesOf f rest = [] := by
            apply List.filter_eq_nil_iff.mpr
            intro e member same
            have same := of_decide_eq_true same
            have now := marked e (List.mem_cons_of_mem _ member) same
            rw [liveRest e member same] at now
            contradiction
          simp [empty]
        · intro single e member same
          rcases List.mem_cons.mp member with here | later
          · subst here
            rfl
          · have empty : entriesOf f rest = [] := List.eq_nil_of_length_eq_zero (by omega)
            have absent := List.filter_eq_nil_iff.mp empty e later
            simp [same] at absent
      · have count : entriesOf f (first :: rest) = entriesOf f rest := by
          simp [entriesOf, own]
        rw [if_neg own, count, ← ih liveRest]
        constructor
        · intro marked e member
          exact marked e (List.mem_cons_of_mem _ member)
        · intro marked e member same
          rcases List.mem_cons.mp member with here | later
          · subst here
            exact absurd same own
          · exact marked e later same

/-- The hook finds nothing exactly when no entry is for the thread. -/
theorem findEntry_eq_none {p : Pid} : s.findEntry p = none ↔ ∀ e ∈ s.stepList, e.pid ≠ p := by
  rw [findEntry, List.find?_eq_none]
  simp

theorem findEntry_eq_some {p : Pid} {e : StepEntry} (found : s.findEntry p = some e)
    : e ∈ s.stepList ∧ e.pid = p :=
  ⟨List.mem_of_find?_eq_some found, by simpa using List.find?_some found⟩

/-- What the hook leaves of the list. -/
def unlinked (p : Pid) : List StepEntry := s.stepList.eraseP (fun e => e.pid = p)

theorem mem_unlinked_of_ne {p : Pid} {e : StepEntry} (other : e.pid ≠ p)
    : e ∈ s.unlinked p ↔ e ∈ s.stepList := by
  rw [unlinked, List.mem_eraseP_of_neg (by simpa using other)]

theorem exists_findEntry {p : Pid} {e : StepEntry} (member : e ∈ s.stepList) (own : e.pid = p)
    : ∃ e', s.findEntry p = some e' := by
  cases found : s.findEntry p with
  | some e' => exact ⟨e', rfl⟩
  | none => exact absurd own (s.findEntry_eq_none.mp found e member)

/-- An entry for the thread is left behind the hook exactly if there were two. -/
theorem exists_mem_unlinked_iff (p : Pid)
    : (∃ e ∈ s.unlinked p, e.pid = p)
      ↔ 2 ≤ (s.stepList.filter (fun e => e.pid = p)).length := by
  rw [unlinked]
  induction s.stepList with
  | nil => simp
  | cons first rest ih =>
      by_cases own : first.pid = p
      · rw [List.eraseP_cons_of_pos (by simpa using own),
          List.filter_cons_of_pos (by simpa using own), List.length_cons,
          Nat.succ_le_succ_iff, Nat.succ_le_iff, List.length_pos_iff_exists_mem]
        simp only [List.mem_filter, decide_eq_true_eq]
      · rw [List.eraseP_cons_of_neg (by simpa using own),
          List.filter_cons_of_neg (by simpa using own), ← ih]
        simp [own]

/-- With one entry for each thread the hook finds the entry of the thread. -/
theorem findEntry_of_mem {e : StepEntry} (nodup : (s.stepList.map StepEntry.pid).Nodup)
    (member : e ∈ s.stepList)
    : s.findEntry e.pid = some e := by
  obtain ⟨e', found⟩ := s.exists_findEntry member rfl
  obtain ⟨member', own⟩ := s.findEntry_eq_some found
  rw [found, List.inj_on_of_nodup_map nodup member' member own]

/-- With one entry for each thread the hook leaves none for the thread. -/
theorem pid_ne_of_mem_unlinked {p : Pid} (nodup : (s.stepList.map StepEntry.pid).Nodup)
    {e : StepEntry} (member : e ∈ s.unlinked p)
    : e.pid ≠ p := by
  intro own
  obtain ⟨e', found⟩ := s.exists_findEntry (List.mem_of_mem_eraseP member) own
  have two := (s.exists_mem_unlinked_iff p).mp ⟨e, member, own⟩
  have one : (s.stepList.filter (fun e => e.pid = p)).length
      = (s.stepList.map StepEntry.pid).count p := by
    rw [List.count, List.countP_map, List.countP_eq_length_filter]
    rfl
  have most := List.nodup_iff_count.mp nodup p
  omega

/-- The hook unlinks one entry of the thread, hands over the callback of a live one, and
ends the single-step mode in that case only.
-/
theorem trap_cases (p : Pid)
    : (s.findEntry p = none ∧ s.rwmemBpStepHandler p = (s, .error))
      ∨ (∃ e,
          s.findEntry p = some e
          ∧ e.removed = true
          ∧ s.rwmemBpStepHandler p = ({ s with stepList := s.unlinked p }, .handled))
      ∨ ∃ e,
          s.findEntry p = some e
          ∧ e.removed = false
          ∧ s.rwmemBpStepHandler p
            = ({ s.setThread p
                  { s.threads p with
                    singleStep := false
                    work := (s.threads p).work ++ [e.file] } with
                stepList := s.unlinked p },
              .handled) := by
  rw [rwmemBpStepHandler]
  cases found : s.findEntry p with
  | none => exact Or.inl ⟨rfl, rfl⟩
  | some e =>
      right
      cases removed : e.removed with
      | true => exact Or.inl ⟨e, rfl, removed, by simp [removed, unlinked]⟩
      | false =>
          refine Or.inr ⟨e, rfl, removed, ?_⟩
          simp [removed, unlinked, taskWorkAdd, setThread]

-----------------------------------------------------------------------------------------
-- One step
-----------------------------------------------------------------------------------------

variable {s} {a : Act}

/-- A step of a running callback, taken apart. -/
theorem advance_cases {p : Pid} (enabled : s.enabled (.advance p) = true)
    : ∃ f pc data next,
        (s.threads p).cur = some (f, pc)
        ∧ bpCallbackAfter (s.files f).data pc = some (data, next)
        ∧ s.advance p
          = (s.setData f data).setThread p
              { s.threads p with cur := next.map (fun pc => (f, pc)) } := by
  cases cur : (s.threads p).cur with
  | none => simp [State.enabled, cur] at enabled
  | some place =>
      obtain ⟨f, pc⟩ := place
      cases steps : bpCallbackAfter (s.files f).data pc with
      | none => simp [State.enabled, cur, steps] at enabled
      | some result =>
          obtain ⟨data, next⟩ := result
          refine ⟨f, pc, data, next, rfl, steps, ?_⟩
          simp [State.advance, cur, steps]

/-- The step hook leaves the files. -/
theorem files_trap (p : Pid) : (s.rwmemBpStepHandler p).1.files = s.files := by
  rcases s.trap_cases p with ⟨_, same⟩ | ⟨_, _, _, same⟩ | ⟨_, _, _, same⟩
  · rw [same]
  · rw [same]
  · rw [same]
    rfl

/-- Steps open new files and close open ones, and change no other status. -/
theorem status_next (enabled : s.enabled a = true) (f : FileId)
    : (∃ p, a = .addBp f p ∧ (s.files f).status = .unused
          ∧ (s.next a).files f = ⟨.opened, .fresh p⟩)
      ∨ (a = .close f ∧ (s.files f).status = .opened
          ∧ ((s.next a).files f).status = .closed ∧ (s.next a).target f = s.target f)
      ∨ ((∀ p, a ≠ .addBp f p) ∧ a ≠ .close f
          ∧ ((s.next a).files f).status = (s.files f).status
          ∧ (s.next a).target f = s.target f) := by
  cases a with
  | addBp g p =>
      by_cases same : f = g
      · subst same
        exact Or.inl ⟨p, rfl, by simpa [State.enabled] using enabled, by simp [next]⟩
      · refine Or.inr (Or.inr ⟨?_, by simp, ?_, ?_⟩)
        · intro q equal
          exact same (by cases equal; rfl)
        · simp [next, same]
        · simp [next, target, same]
  | close g =>
      by_cases same : f = g
      · subst same
        refine Or.inr (Or.inl ⟨rfl, by simpa [State.enabled] using enabled, ?_, ?_⟩)
        · simp [next, rwmemBpRelease]
        · simp [next, rwmemBpRelease, target]
      · refine Or.inr (Or.inr ⟨by simp, ?_, ?_, ?_⟩)
        · intro equal
          exact same (by cases equal; rfl)
        · simp [next, rwmemBpRelease, same]
        · simp [next, rwmemBpRelease, target, same]
  | call g call =>
      obtain ⟨status, target, _⟩ := s.files_call g f call
      exact Or.inr (Or.inr ⟨by simp, by simp, status, target⟩)
  | advance p =>
      obtain ⟨g, pc, data, next, cur, steps, same⟩ := advance_cases enabled
      refine Or.inr (Or.inr ⟨by simp, by simp, ?_, ?_⟩)
      · simp [State.next, same]
      · by_cases own : f = g
        · subst own
          simp [State.next, same, target, targetTask_of_callback steps]
        · simp [State.next, same, target, data_setData_of_ne, own]
  | trap p =>
      have files := s.files_trap p
      exact Or.inr (Or.inr ⟨by simp, by simp, by simp [next, files], by simp [next, target, files]⟩)
  | hit g => exact Or.inr (Or.inr ⟨by simp, by simp, rfl, rfl⟩)
  | start p i => exact Or.inr (Or.inr ⟨by simp, by simp, rfl, rfl⟩)
  | ptrace p on => exact Or.inr (Or.inr ⟨by simp, by simp, rfl, rfl⟩)

theorem opened_next (enabled : s.enabled a = true) {f : FileId}
    : ((s.next a).files f).status = .opened
      ↔ ((s.files f).status = .opened ∧ a ≠ .close f) ∨ ∃ p, a = .addBp f p := by
  rcases status_next enabled f with ⟨p, add, unused, now⟩ | ⟨close, opened, now, _⟩
    | ⟨notAdd, notClose, now, _⟩
  · rw [now]
    simp [add]
  · rw [now]
    simp [close]
  · rw [now]
    simp [notAdd, notClose]

theorem closed_next (enabled : s.enabled a = true) {f : FileId}
    : ((s.next a).files f).status = .closed
      ↔ (s.files f).status = .closed ∨ a = .close f := by
  rcases status_next enabled f with ⟨p, add, unused, now⟩ | ⟨close, opened, now, _⟩
    | ⟨notAdd, notClose, now, _⟩
  · rw [now]
    simp [add, unused]
  · rw [now]
    simp [close]
  · rw [now]
    simp [notClose]

/-- A callback is queued by a hit of its open file, or by the step hook for a live entry. -/
theorem mem_work_next (enabled : s.enabled a = true) {p : Pid} {f : FileId}
    (queued : f ∈ ((s.next a).threads p).work)
    : f ∈ (s.threads p).work
      ∨ (a = .hit f ∧ (s.files f).status = .opened ∧ p = s.target f)
      ∨ ∃ e, a = .trap p ∧ s.findEntry p = some e ∧ e.removed = false ∧ e.file = f := by
  cases a with
  | addBp g q => exact Or.inl queued
  | close g => exact Or.inl queued
  | call g call =>
      rw [next, (s.place_call g call p).1] at queued
      exact Or.inl queued
  | hit g =>
      simp only [State.enabled, Bool.and_eq_true, decide_eq_true_eq] at enabled
      by_cases own : p = s.target g
      · subst own
        simp only [next, taskWorkAdd, threads_setThread, List.mem_append,
          List.mem_singleton] at queued
        rcases queued with before | same
        · exact Or.inl before
        · subst same
          exact Or.inr (Or.inl ⟨rfl, enabled.1, rfl⟩)
      · rw [next, taskWorkAdd, threads_setThread_of_ne _ _ own] at queued
        exact Or.inl queued
  | trap q =>
      rw [next] at queued
      rcases s.trap_cases q with ⟨_, same⟩ | ⟨_, _, _, same⟩ | ⟨e, found, live, same⟩
      · rw [same] at queued
        exact Or.inl queued
      · rw [same] at queued
        exact Or.inl queued
      · rw [same] at queued
        by_cases own : p = q
        · subst own
          simp only [threads_setThread, List.mem_append, List.mem_singleton] at queued
          rcases queued with before | equal
          · exact Or.inl before
          · exact Or.inr (Or.inr ⟨e, rfl, found, live, equal.symm⟩)
        · have kept := threads_setThread_of_ne s { s.threads q with
            singleStep := false, work := (s.threads q).work ++ [e.file] } own
          simp only [kept] at queued
          exact Or.inl queued
  | start q i =>
      by_cases own : p = q
      · subst own
        rw [next, threads_setThread] at queued
        exact Or.inl (List.mem_of_mem_eraseIdx queued)
      · rw [next, threads_setThread_of_ne _ _ own] at queued
        exact Or.inl queued
  | advance q =>
      obtain ⟨g, pc, data, next, cur, steps, same⟩ := advance_cases enabled
      rw [State.next, same] at queued
      by_cases own : p = q
      · subst own
        rw [threads_setThread] at queued
        exact Or.inl queued
      · rw [threads_setThread_of_ne _ _ own] at queued
        exact Or.inl queued
  | ptrace q on =>
      by_cases own : p = q
      · subst own
        rw [next, threads_setThread] at queued
        exact Or.inl queued
      · rw [next, threads_setThread_of_ne _ _ own] at queued
        exact Or.inl queued

/-- Where a thread stands in a callback after a step: it started it, went one step further in
it, or stands where it stood.
-/
theorem cur_next (enabled : s.enabled a = true) (p : Pid)
    : (∃ i f, a = .start p i ∧ f ∈ (s.threads p).work ∧ (s.threads p).cur = none
          ∧ ((s.next a).threads p).cur = some (f, .markStopped))
      ∨ (∃ f pc data next, a = .advance p ∧ (s.threads p).cur = some (f, pc)
          ∧ bpCallbackAfter (s.files f).data pc = some (data, next)
          ∧ ((s.next a).files f).data = data
          ∧ ((s.next a).threads p).cur = next.map (fun pc => (f, pc)))
      ∨ ((∀ i, a ≠ .start p i) ∧ a ≠ .advance p
          ∧ ((s.next a).threads p).cur = (s.threads p).cur) := by
  cases a with
  | addBp g q => exact Or.inr (Or.inr ⟨by simp, by simp, rfl⟩)
  | close g => exact Or.inr (Or.inr ⟨by simp, by simp, rfl⟩)
  | call g call => exact Or.inr (Or.inr ⟨by simp, by simp, (s.place_call g call p).2⟩)
  | hit g =>
      refine Or.inr (Or.inr ⟨by simp, by simp, ?_⟩)
      by_cases own : p = s.target g
      · subst own
        simp [next, taskWorkAdd]
      · simp [next, taskWorkAdd, threads_setThread_of_ne, own]
  | trap q =>
      refine Or.inr (Or.inr ⟨by simp, by simp, ?_⟩)
      rw [next]
      rcases s.trap_cases q with ⟨_, same⟩ | ⟨_, _, _, same⟩ | ⟨e, found, live, same⟩
      · rw [same]
      · rw [same]
      · rw [same]
        by_cases own : p = q
        · subst own
          simp [setThread]
        · simp [setThread, own]
  | start q i =>
      by_cases own : p = q
      · subst own
        simp only [State.enabled, Bool.and_eq_true, decide_eq_true_eq,
          Option.isNone_iff_eq_none] at enabled
        obtain ⟨idle, inside⟩ := enabled
        refine Or.inl ⟨i, (s.threads p).work[i], rfl, List.getElem_mem inside, idle, ?_⟩
        simp [next, inside]
      · refine Or.inr (Or.inr ⟨?_, by simp, ?_⟩)
        · intro j equal
          exact own (by cases equal; rfl)
        · rw [next, threads_setThread_of_ne _ _ own]
  | advance q =>
      by_cases own : p = q
      · subst own
        obtain ⟨g, pc, data, next, cur, steps, same⟩ := advance_cases enabled
        refine Or.inr (Or.inl ⟨g, pc, data, next, rfl, cur, steps, ?_, ?_⟩)
        · simp [State.next, same]
        · simp [State.next, same]
      · obtain ⟨g, pc, data, next, cur, steps, same⟩ := advance_cases enabled
        refine Or.inr (Or.inr ⟨by simp, ?_, ?_⟩)
        · intro equal
          exact own (by cases equal; rfl)
        · rw [State.next, same, threads_setThread_of_ne _ _ own]
          rfl
  | ptrace q on =>
      refine Or.inr (Or.inr ⟨by simp, by simp, ?_⟩)
      by_cases own : p = q
      · subst own
        simp [next]
      · simp [next, threads_setThread_of_ne, own]

/-- The data of a file changes by its creation, its release, a call on it or a step of its
callback.
-/
theorem data_next (enabled : s.enabled a = true) (f : FileId)
    : (∃ p, a = .addBp f p)
      ∨ a = .close f
      ∨ (∃ call, a = .call f call
          ∧ ((s.next a).files f).data = ((s.call f call).1.files f).data)
      ∨ (∃ p pc data next, a = .advance p ∧ (s.threads p).cur = some (f, pc)
          ∧ bpCallbackAfter (s.files f).data pc = some (data, next)
          ∧ ((s.next a).files f).data = data)
      ∨ ((∀ call, a ≠ .call f call)
          ∧ (∀ p pc, a = .advance p → (s.threads p).cur ≠ some (f, pc))
          ∧ ((s.next a).files f).data = (s.files f).data) := by
  cases a with
  | addBp g p =>
      by_cases own : f = g
      · subst own
        exact Or.inl ⟨p, rfl⟩
      · refine Or.inr (Or.inr (Or.inr (Or.inr ⟨by simp, by simp, ?_⟩)))
        simp [next, own]
  | close g =>
      by_cases own : f = g
      · subst own
        exact Or.inr (Or.inl rfl)
      · refine Or.inr (Or.inr (Or.inr (Or.inr ⟨by simp, by simp, ?_⟩)))
        simp [next, rwmemBpRelease, own]
  | call g call =>
      by_cases own : f = g
      · subst own
        exact Or.inr (Or.inr (Or.inl ⟨call, rfl, rfl⟩))
      · refine Or.inr (Or.inr (Or.inr (Or.inr ⟨?_, by simp, ?_⟩)))
        · intro call' same
          exact own (by cases same; rfl)
        · exact (s.files_call g f call).2.2 own
  | advance p =>
      obtain ⟨g, pc, data, next, cur, steps, same⟩ := advance_cases enabled
      by_cases own : f = g
      · subst own
        refine Or.inr (Or.inr (Or.inr (Or.inl ⟨p, pc, data, next, rfl, cur, steps, ?_⟩)))
        simp [State.next, same]
      · refine Or.inr (Or.inr (Or.inr (Or.inr ⟨by simp, ?_, ?_⟩)))
        · intro q pc' act stands
          cases act
          rw [cur] at stands
          cases stands
          exact own rfl
        · simp [State.next, same, data_setData_of_ne, own]
  | trap p =>
      refine Or.inr (Or.inr (Or.inr (Or.inr ⟨by simp, by simp, ?_⟩)))
      simp [next, s.files_trap p]
  | hit g => exact Or.inr (Or.inr (Or.inr (Or.inr ⟨by simp, by simp, rfl⟩)))
  | start p i => exact Or.inr (Or.inr (Or.inr (Or.inr ⟨by simp, by simp, rfl⟩)))
  | ptrace p on => exact Or.inr (Or.inr (Or.inr (Or.inr ⟨by simp, by simp, rfl⟩)))

/-- The step list changes by an accepted step request, a trap or a release. -/
theorem stepList_next (enabled : s.enabled a = true)
    : (∃ f call, a = .call f call ∧ s.AcceptsStep f call ∧ (s.files f).status = .opened
          ∧ (s.next a).stepList = ⟨s.target f, f, false⟩ :: s.stepList)
      ∨ (∃ p, a = .trap p ∧ (s.next a).stepList = s.unlinked p)
      ∨ (∃ f, a = .close f ∧ (s.next a).stepList = markRemoved f s.stepList)
      ∨ ((∀ f call, a = .call f call → ¬s.AcceptsStep f call) ∧ (∀ p, a ≠ .trap p)
          ∧ (∀ f, a ≠ .close f) ∧ (s.next a).stepList = s.stepList) := by
  cases a with
  | call g call =>
      have opened : (s.files g).status = .opened := by simpa [State.enabled] using enabled
      rcases s.stepList_call g call with ⟨accepts, pushed⟩ | ⟨refused, kept⟩
      · exact Or.inl ⟨g, call, rfl, accepts, opened, pushed⟩
      · refine Or.inr (Or.inr (Or.inr ⟨?_, by simp, by simp, kept⟩))
        intro f call' same
        cases same
        exact refused
  | trap p =>
      refine Or.inr (Or.inl ⟨p, rfl, ?_⟩)
      rw [next]
      rcases s.trap_cases p with ⟨none, same⟩ | ⟨_, _, _, same⟩ | ⟨_, _, _, same⟩
      · rw [same, unlinked, List.eraseP_of_forall_not]
        intro e member
        simpa using s.findEntry_eq_none.mp none e member
      · rw [same]
      · rw [same]
  | close g => exact Or.inr (Or.inr (Or.inl ⟨g, rfl, rfl⟩))
  | advance p =>
      obtain ⟨g, pc, data, next, cur, steps, same⟩ := advance_cases enabled
      refine Or.inr (Or.inr (Or.inr ⟨by simp, by simp, by simp, ?_⟩))
      rw [State.next, same]
      rfl
  | addBp g p => exact Or.inr (Or.inr (Or.inr ⟨by simp, by simp, by simp, rfl⟩))
  | hit g => exact Or.inr (Or.inr (Or.inr ⟨by simp, by simp, by simp, rfl⟩))
  | start p i => exact Or.inr (Or.inr (Or.inr ⟨by simp, by simp, by simp, rfl⟩))
  | ptrace p on => exact Or.inr (Or.inr (Or.inr ⟨by simp, by simp, by simp, rfl⟩))

/-- A thread is single-stepped behind a step if it was before, or by an accepted request; a
trap on a live entry ends it, and a debugger sets it at will.
-/
theorem singleStep_next (enabled : s.enabled a = true) (p : Pid)
    : (∃ f call, a = .call f call ∧ s.AcceptsStep f call ∧ p = s.target f)
      ∨ (∃ e, a = .trap p ∧ s.findEntry p = some e ∧ e.removed = false
          ∧ ((s.next a).threads p).singleStep = false)
      ∨ (∃ on, a = .ptrace p on)
      ∨ ((∀ e, a = .trap p → s.findEntry p = some e → e.removed = true)
          ∧ ((s.next a).threads p).singleStep = (s.threads p).singleStep) := by
  cases a with
  | addBp g q => exact Or.inr (Or.inr (Or.inr ⟨by simp, rfl⟩))
  | close g => exact Or.inr (Or.inr (Or.inr ⟨by simp, rfl⟩))
  | call g call =>
      have mode := s.singleStep_call g call p
      by_cases accepts : s.AcceptsStep g call ∧ p = s.target g
      · exact Or.inl ⟨g, call, rfl, accepts.1, accepts.2⟩
      · refine Or.inr (Or.inr (Or.inr ⟨by simp, ?_⟩))
        rw [next, Bool.eq_iff_iff, mode]
        simp only [accepts, or_false]
  | hit g =>
      refine Or.inr (Or.inr (Or.inr ⟨by simp, ?_⟩))
      by_cases own : p = s.target g
      · subst own
        simp [next, taskWorkAdd]
      · simp [next, taskWorkAdd, threads_setThread_of_ne, own]
  | trap q =>
      by_cases own : p = q
      · subst own
        rw [next]
        rcases s.trap_cases p with ⟨found, same⟩ | ⟨e, found, removed, same⟩
          | ⟨e, found, live, same⟩
        · refine Or.inr (Or.inr (Or.inr ⟨?_, by rw [same]⟩))
          intro e _ found'
          rw [found] at found'
          contradiction
        · refine Or.inr (Or.inr (Or.inr ⟨?_, by rw [same]⟩))
          intro e' _ found'
          rw [found] at found'
          cases found'
          exact removed
        · exact Or.inr (Or.inl ⟨e, rfl, found, live, by rw [same]; simp [setThread]⟩)
      · refine Or.inr (Or.inr (Or.inr ⟨?_, ?_⟩))
        · intro e equal
          exact absurd (by cases equal; rfl) own
        · rw [next]
          rcases s.trap_cases q with ⟨_, same⟩ | ⟨_, _, _, same⟩ | ⟨_, _, _, same⟩
          · rw [same]
          · rw [same]
          · rw [same]
            simp [setThread, own]
  | start q i =>
      refine Or.inr (Or.inr (Or.inr ⟨by simp, ?_⟩))
      by_cases own : p = q
      · subst own
        simp [next]
      · rw [next, threads_setThread_of_ne _ _ own]
  | advance q =>
      obtain ⟨g, pc, data, next, cur, steps, same⟩ := advance_cases enabled
      refine Or.inr (Or.inr (Or.inr ⟨by simp, ?_⟩))
      rw [State.next, same]
      by_cases own : p = q
      · subst own
        simp
      · rw [threads_setThread_of_ne _ _ own]
        rfl
  | ptrace q on =>
      by_cases own : p = q
      · subst own
        exact Or.inr (Or.inr (Or.inl ⟨on, rfl⟩))
      · refine Or.inr (Or.inr (Or.inr ⟨by simp, ?_⟩))
        rw [next, threads_setThread_of_ne _ _ own]

end RwMem.Breakpoint.State
