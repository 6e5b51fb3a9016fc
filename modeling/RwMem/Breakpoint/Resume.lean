import RwMem.Breakpoint.Stops

/-! When a stop that was resumed is reported again. The flags and the poll word are cleared
by the target when it gets to run, not by the command that resumes it.
-/

namespace RwMem.Breakpoint

open Transition State RwMem.Driver

/-- The answer of the call reports a stop of the file, or acts on one. -/
def Reports (s : State) (f : FileId) (call : Call) : Prop :=
  match call with
  | .bpIsStopped => (s.call f call).2 = 1
  | .poll => (s.call f call).2 = EPOLLIN
  | .read _ _ _ => 0 ≤ (s.call f call).2
  | .bpOther => False
  | _ => (s.call f call).2 = 0

/-- The call would see a stop: the poll word for `poll`, `stopped_flag` for all others. -/
def Sees (s : State) (f : FileId) (call : Call) : Prop :=
  (call = .poll ∧ (s.files f).data.poll = true)
  ∨ (call.succeeds = true ∧ (s.files f).data.stoppedFlag = true)

/-- The callback of a new stop of the file begins. -/
def BeginsStop (f : FileId) (s : State) (a : Act) : Prop :=
  ∃ p, a = .advance p ∧ (s.threads p).cur = some (f, .markStopped)

/-- Between a `CONTINUE` or `STEP` that returned `0` and a later report on the same file a new
stop begins.
-/
def NotReportedAgain (s : State) (acts : List Act) : Prop :=
  ∀ before f call mid call' after t v u,
    acts = before ++ .call f call :: (mid ++ .call f call' :: after)
    → exec State.step s before = some t
    → call.isResume = true
    → (t.call f call).2 = 0
    → t.step (.call f call) = some v
    → exec State.step v mid = some u
    → Reports u f call'
    → Occurs State.step (BeginsStop f) v mid

/-- While `continue_flag` is still set no call sees a stop. -/
def CallsFresh (s : State) (a : Act) : Prop :=
  ∀ f call, a = .call f call → (s.files f).data.continueFlag = true → ¬Sees s f call

/-- A call reports a stop exactly if it sees one. -/
theorem reports_iff (s : State) (f : FileId) (call : Call)
    : Reports s f call ↔ Sees s f call := by
  cases stopped : (s.files f).data.stoppedFlag with
  | false =>
      cases call <;>
        simp [Reports, Sees, State.call, test, Call.isTested, effect, stopped, EINVAL, EPOLLIN]
  | true =>
      cases call with
      | bpSetReg param =>
          have succeeds := setReg_eq_zero_iff param (s.threads (s.target f)).regs
          simp only [Reports, Sees, State.call, test, Call.isTested, effect, stopped]
          simpa [changeRegs] using succeeds
      | bpSetSimdReg param =>
          have succeeds := setSimdReg_eq_zero_iff param (s.threads (s.target f)).regs
          simp only [Reports, Sees, State.call, test, Call.isTested, effect, stopped]
          simpa [changeRegs] using succeeds
      | read size regsFail fpsimdFail =>
          have succeeds := bpReadResult_nonneg_iff size regsFail fpsimdFail
          simp only [Reports, Sees, State.call, test, Call.isTested, effect, stopped]
          simpa using succeeds
      | _ =>
          simp [Reports, Sees, State.call, test, Call.isTested, effect, stopped, Call.succeeds,
            EPOLLIN]

variable {s : State} {a : Act} {f : FileId}

/-- A call is made on an open file. -/
theorem opened_of_enabled_call {call : Call} (enabled : s.enabled (.call f call) = true)
    : (s.files f).status = .opened := by
  simpa [State.enabled] using enabled

/-- A resuming command that returns `0` finds the target stopped and sets `continue_flag`. -/
theorem continueFlag_of_resumed {call : Call} (resumes : call.isResume = true)
    (accepted : (s.call f call).2 = 0)
    : ((s.call f call).1.files f).data.continueFlag = true := by
  obtain ⟨_, continued, _⟩ := s.flags_call f call
  have tested : s.test f call = (s.files f).data.stoppedFlag :=
    s.test_of_isTested (Call.isTested_of_isResume resumes)
  rcases s.call_cases f call with ⟨test, _⟩ | ⟨_, same⟩
  · rw [continued, resumes, ← tested, test]
    simp
  · rw [same] at accepted
    contradiction

theorem call_eq_zero_of_resumes {call : Call} (resumes : s.Resumes f call)
    : (s.call f call).2 = 0 := by
  obtain ⟨resume, stopped⟩ := resumes
  have test : s.test f call = (s.files f).data.stoppedFlag :=
    s.test_of_isTested (Call.isTested_of_isResume resume)
  rw [State.call, test, stopped, if_pos rfl]
  cases call <;> first | rfl | contradiction

/-- A stop of an open file begins with all flags cleared. -/
theorem flags_of_beginsStop (placed : Placed s) (fit : FlagsFit s)
    (opened : (s.files f).status = .opened) (begins : BeginsStop f s a)
    : (s.files f).data.stoppedFlag = false ∧ (s.files f).data.continueFlag = false
      ∧ (s.files f).data.poll = false := by
  obtain ⟨p, _, stands⟩ := begins
  have fits := fit f opened
  rw [pcOf_eq_some (placed.cur p f _ stands).2 stands] at fits
  exact fits

/-- No stop of an open file begins while its `continue_flag` is set. -/
theorem not_beginsStop_of_continueFlag (placed : Placed s) (fit : FlagsFit s)
    (opened : (s.files f).status = .opened)
    (continued : (s.files f).data.continueFlag = true)
    : ¬BeginsStop f s a := by
  intro begins
  obtain ⟨_, cleared, _⟩ := flags_of_beginsStop placed fit opened begins
  rw [continued] at cleared
  contradiction

/-- `continue_flag` of an open file was set by a resuming command, or before; and no stop
began meanwhile.
-/
theorem continueFlag_cases (placed : Placed s) (fit : FlagsFit s) (enabled : s.enabled a = true)
    (openedNow : ((s.next a).files f).status = .opened)
    (continuedNow : ((s.next a).files f).data.continueFlag = true)
    : (∃ call, a = .call f call ∧ call.isResume = true ∧ (s.call f call).2 = 0)
      ∨ (((s.files f).status = .opened ∧ (s.files f).data.continueFlag = true)
          ∧ ¬BeginsStop f s a) := by
  have before : (s.files f).status = .opened ∨ ∃ p, a = .addBp f p := by
    rcases (opened_next enabled).mp openedNow with ⟨opened, _⟩ | add
    · exact Or.inl opened
    · exact Or.inr add
  have kept (notAdd : ∀ p, a ≠ .addBp f p) (continued : (s.files f).data.continueFlag = true)
      : ((s.files f).status = .opened ∧ (s.files f).data.continueFlag = true)
          ∧ ¬BeginsStop f s a := by
    have opened := before.resolve_right (fun ⟨p, add⟩ => notAdd p add)
    exact ⟨⟨opened, continued⟩, not_beginsStop_of_continueFlag placed fit opened continued⟩
  rcases data_next enabled f with ⟨p, add⟩ | close | ⟨call, act, now⟩
    | ⟨q, pc, data, next, act, cur, steps, now⟩ | ⟨_, _, now⟩
  · subst add
    simp [State.next, PrivateData.fresh] at continuedNow
  · have closed := (closed_next enabled).mpr (Or.inr close)
    rw [openedNow] at closed
    contradiction
  · obtain ⟨_, continued, _⟩ := s.flags_call f call
    rw [← now, continuedNow] at continued
    by_cases held : (s.files f).data.continueFlag = true
    · exact Or.inr (kept (by simp [act]) held)
    · have resumes : call.isResume = true ∧ (s.files f).data.stoppedFlag = true := by
        simpa [held] using continued.symm
      exact Or.inl ⟨call, act, resumes.1, call_eq_zero_of_resumes resumes⟩
  · have held : (s.files f).data.continueFlag = true := by
      rw [now] at continuedNow
      cases pc with
      | asleep =>
          simp only [bpCallbackAfter] at steps
          split at steps
          · assumption
          · cases steps
      | clearFlags =>
          cases steps
          contradiction
      | _ =>
          cases steps
          exact continuedNow
    exact Or.inr (kept (by simp [act]) held)
  · have notAdd (p : Pid) : a ≠ .addBp f p := by
      intro add
      subst add
      simp [State.next, PrivateData.fresh] at continuedNow
    exact Or.inr (kept notAdd (now ▸ continuedNow))

/-- Once a stop is resumed, and until a new one begins, either `continue_flag` tells so or
neither flag shows a stop.
-/
def ResumedOrQuiet (f : FileId) (s : State) : Prop :=
  (s.files f).status = .opened
  → (s.files f).data.continueFlag = true
    ∨ ((s.files f).data.stoppedFlag = false ∧ (s.files f).data.poll = false)

theorem ResumedOrQuiet.next (quiet : ResumedOrQuiet f s) (placed : Placed s) (fit : FlagsFit s)
    (enabled : s.enabled a = true) (noBegin : ¬BeginsStop f s a)
    : ResumedOrQuiet f (s.next a) := by
  intro openedNow
  rcases (opened_next enabled).mp openedNow with ⟨opened, notClose⟩ | ⟨p, add⟩
  · have quiet := quiet opened
    rcases data_next enabled f with ⟨p, add⟩ | close | ⟨call, act, now⟩
      | ⟨q, pc, data, next, act, cur, steps, now⟩ | ⟨_, _, now⟩
    · subst add
      exact Or.inr (by simp [State.next, PrivateData.fresh])
    · exact absurd close notClose
    · obtain ⟨stopped, continued, polled⟩ := s.flags_call f call
      rw [← now] at stopped continued polled
      rcases quiet with held | ⟨off, silent⟩
      · exact Or.inl (by rw [continued, held]; rfl)
      · refine Or.inr ⟨stopped.trans off, ?_⟩
        by_contra poll
        rw [polled (by simpa using poll)] at silent
        contradiction
    · have fits := fit f opened
      rw [pcOf_eq_some (placed.cur q f pc cur).2 cur] at fits
      have after := fits.advance steps
      rw [now]
      -- past the beginning the stop shows, so it is `continue_flag` that tells
      have held (stopped : (s.files f).data.stoppedFlag = true)
          : (s.files f).data.continueFlag = true := by
        rcases quiet with held | ⟨off, _⟩
        · exact held
        · rw [stopped] at off
          contradiction
      cases pc with
      | markStopped => exact absurd ⟨q, act, cur⟩ noBegin
      | announce =>
          cases steps
          exact Or.inl (held fits.1)
      | waitContinue =>
          cases steps
          exact Or.inl (held fits)
      | asleep =>
          simp only [bpCallbackAfter, held fits, if_true] at steps
          cases steps
          exact Or.inl (held fits)
      | clearPoll =>
          cases steps
          exact Or.inl fits.2
      | clearFlags =>
          cases steps
          exact Or.inr ⟨rfl, fits.2.2⟩
    · rw [now]
      exact quiet
  · subst add
    exact Or.inr (by simp [State.next, PrivateData.fresh])

variable {regs : Pid → Regs} {acts : List Act} {final : State}

/-- A call that sees a stop while `continue_flag` is set reports a stop that was resumed. -/
theorem callsFresh_of_notReportedAgain
    (run : exec State.step (.initial regs) acts = some final)
    (never : NotReportedAgain (.initial regs) acts)
    : Along State.step CallsFresh (.initial regs) acts := by
  have known := flagsFit_throughout regs acts
  intro before a after u split reached f call act held sees
  subst act
  subst split
  obtain ⟨_, taken, _⟩ := exists_step_of_split run reached
  have opened := opened_of_enabled_call (step_eq_some.mp taken).1
  -- back from the call to the command that set `continue_flag`
  have made : Along State.step (fun s a => ∀ t, s.step a = some t
      → ((t.files f).status = .opened ∧ (t.files f).data.continueFlag = true)
      → (∃ call, a = .call f call ∧ call.isResume = true ∧ (s.call f call).2 = 0)
        ∨ (((s.files f).status = .opened ∧ (s.files f).data.continueFlag = true)
            ∧ ¬BeginsStop f s a)) (.initial regs) before := by
    intro first b last s split here t taken ⟨openedNow, continuedNow⟩
    obtain ⟨enabled, same⟩ := step_eq_some.mp taken
    subst same
    obtain ⟨placed, fit⟩ := known first (b :: last ++ .call f call :: after) s
      (by simp [split]) here
    exact continueFlag_cases placed fit enabled openedNow continuedNow
  obtain ⟨earlier, b, mid, t, v, same, here, first, ⟨call', act, resumes, accepted⟩, rest,
      absent⟩ :=
    holds_since
      (fun s : State => (s.files f).status = .opened
        ∧ (s.files f).data.continueFlag = true)
      (fun s a => ∃ call, a = .call f call ∧ call.isResume = true ∧ (s.call f call).2 = 0)
      (BeginsStop f) (fun start => by cases start.1) made reached ⟨opened, held⟩
  subst act
  apply absent
  apply never earlier f call' mid call after t v u _ here resumes accepted first rest
  · exact (reports_iff u f call).mpr sees
  · simp [same]

/-- While no call sees a stop that was resumed, none reports it. -/
theorem notReportedAgain_of_callsFresh
    (run : exec State.step (.initial regs) acts = some final)
    (fresh : Along State.step CallsFresh (.initial regs) acts)
    : NotReportedAgain (.initial regs) acts := by
  have known := flagsFit_throughout regs acts
  intro before f call mid call' after t v u split reached resumes accepted taken rest reports
  by_contra absent
  have whole : acts = (before ++ .call f call :: mid) ++ .call f call' :: after := by
    simp [split]
  have there := exec_through reached taken rest
  have quiet : ResumedOrQuiet f u := by
    obtain ⟨enabled, same⟩ := step_eq_some.mp taken
    subst same
    refine holds_until (ResumedOrQuiet f) (BeginsStop f) ?_ ?_ absent rest
    · intro _
      exact Or.inl (continueFlag_of_resumed resumes accepted)
    · intro first b last w split' here quiet noBegin x taken'
      obtain ⟨enabled', same⟩ := step_eq_some.mp taken'
      subst same
      obtain ⟨placed, fit⟩ := known (before ++ .call f call :: first)
        (b :: last ++ .call f call' :: after) w (by simp [whole, split'])
        (exec_through reached taken here)
      exact quiet.next placed fit enabled' noBegin
  have sees := (reports_iff u f call').mp reports
  have opened : (u.files f).status = .opened := by
    subst whole
    obtain ⟨_, taken', _⟩ := exists_step_of_split run there
    exact opened_of_enabled_call (step_eq_some.mp taken').1
  rcases quiet opened with held | ⟨off, silent⟩
  · exact fresh _ (.call f call') after u whole there f call' rfl held sees
  · rcases sees with ⟨_, poll⟩ | ⟨_, stopped⟩
    · rw [silent] at poll
      contradiction
    · rw [off] at stopped
      contradiction

/-- In every run no resumed stop is reported again exactly if no call sees a stop while
`continue_flag` is still set.
-/
theorem notReportedAgain_iff (regs : Pid → Regs) (acts : List Act) (final : State)
    (run : exec State.step (.initial regs) acts = some final)
    : NotReportedAgain (.initial regs) acts
      ↔ Along State.step CallsFresh (.initial regs) acts :=
  ⟨callsFresh_of_notReportedAgain run, notReportedAgain_of_callsFresh run⟩

theorem notReportedAgain_iff_session
    : NotReportedAgain (.initial blankRegs) session
      ↔ Along State.step CallsFresh (.initial blankRegs) session :=
  notReportedAgain_iff blankRegs session _ rfl

/-- A stop is announced and stepped, and the file is polled and read before the target runs. -/
def stepPollAndRead : List Act :=
  [.addBp 0 1, .hit 0, .start 1 0, .advance 1, .advance 1, .call 0 .bpStep, .call 0 .poll,
    .call 0 (.read userRegsSize false false)]

/-- The poll and the read answer for the old stop, although no new one began. -/
theorem stepPollAndRead_reportedAgain
    : (exec State.step (.initial blankRegs) stepPollAndRead).isSome
      ∧ ¬NotReportedAgain (.initial blankRegs) stepPollAndRead := by
  refine ⟨rfl, ?_⟩
  intro never
  have reports (u : State) (stopped : (u.files 0).data.stoppedFlag = true)
      : Reports u 0 (.read userRegsSize false false) :=
    (reports_iff u 0 _).mpr (Or.inr ⟨rfl, stopped⟩)
  obtain ⟨before, a, after, t, split, _, p, act, _⟩ :=
    never (stepPollAndRead.take 5) 0 .bpStep [.call 0 .poll] (.read userRegsSize false false) []
      _ _ _ rfl rfl rfl rfl rfl rfl (reports _ rfl)
  have member : Act.advance p ∈ [Act.call 0 .poll] := by simp [split, act]
  simp at member

end RwMem.Breakpoint
