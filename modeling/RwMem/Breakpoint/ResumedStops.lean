import RwMem.Breakpoint.Races

/-! A stop ends by the command that resumes it, and such a command is never lost: whatever else
happens, the target gets out of its callback in a few steps of its own.
-/

namespace RwMem.Breakpoint

open Transition State

variable {s : State} {a : Act} {f : FileId}

/-- The steps that are left of a callback that was told to continue. -/
def stepsLeft : Option Pc → Nat
  | some .announce => 4
  | some .waitContinue => 3
  | some .asleep => 3
  | some .clearPoll => 2
  | some .clearFlags => 1
  | _ => 0

/-- The target of an open file is stopped and told to continue. -/
structure Resumed (f : FileId) (s : State) : Prop where
  opened : (s.files f).status = .opened
  stopped : (s.files f).data.stoppedFlag = true
  continued : (s.files f).data.continueFlag = true

/-- The thread takes a step in its callback. -/
def Act.advances (p : Pid) : Act → Bool
  | .advance q => q = p
  | _ => false

/-- A resuming command that returns `0` is followed by the end of its stop. Until then the target
can always take its next step, and has taken fewer than four. And no stop of an open file ends
without such a command since it began.
-/
structure EndByResume (s : State) (acts : List Act) : Prop where
  ends
    : ∀ before f call mid after t v u,
        acts = before ++ .call f call :: (mid ++ after)
        → exec State.step s before = some t
        → call.isResume = true
        → (t.call f call).2 = 0
        → t.step (.call f call) = some v
        → exec State.step v mid = some u
        → .close f ∉ mid
        → Occurs State.step (EndsStop f) v mid
          ∨ (u.enabled (.advance (t.target f)) = true
            ∧ mid.countP (Act.advances (t.target f)) < 4)
  caused
    : ∀ before f a after u,
        acts = before ++ a :: after
        → exec State.step s before = some u
        → EndsStop f u a
        → (u.files f).status = .opened
        → ∃ earlier call mid t v,
            before = earlier ++ .call f call :: mid
            ∧ exec State.step s earlier = some t
            ∧ call.isResume = true
            ∧ (t.call f call).2 = 0
            ∧ t.step (.call f call) = some v
            ∧ exec State.step v mid = some u
            ∧ ¬Occurs State.step (BeginsStop f) v mid

/-- A stopped target stands in its callback. -/
theorem exists_cur_of_stopped (fit : FlagsFit s) (opened : (s.files f).status = .opened)
    (stopped : (s.files f).data.stoppedFlag = true)
    : ∃ pc, (s.threads (s.target f)).cur = some (f, pc) ∧ pc ≠ .markStopped := by
  have fits := fit f opened
  cases place : pcOf s f with
  | none =>
      rw [place] at fits
      rw [fits.1] at stopped
      contradiction
  | some pc =>
      rw [place] at fits
      refine ⟨pc, ?_, ?_⟩
      · rw [pcOf] at place
        cases cur : (s.threads (s.target f)).cur with
        | none =>
            rw [cur] at place
            contradiction
        | some stands =>
            obtain ⟨g, pc'⟩ := stands
            simp only [cur] at place
            split at place
            · next own =>
                cases place
                rw [own]
            · contradiction
      · rintro rfl
        rw [fits.1] at stopped
        contradiction

/-- A target that was told to continue can take its next step. -/
theorem Resumed.enabled (resumed : Resumed f s) (fit : FlagsFit s)
    : s.enabled (.advance (s.target f)) = true := by
  obtain ⟨pc, cur, _⟩ := exists_cur_of_stopped fit resumed.opened resumed.stopped
  have continued := resumed.continued
  cases pc <;> simp [State.enabled, cur, bpCallbackAfter, continued]

/-- One step of the callback of a resumed stop. -/
theorem stepsLeft_callback {data data' : PrivateData} {pc : Pc} {next : Option Pc}
    (continued : data.continueFlag = true) (past : pc ≠ .markStopped) (last : pc ≠ .clearFlags)
    (steps : bpCallbackAfter data pc = some (data', next))
    : data'.stoppedFlag = data.stoppedFlag
      ∧ data'.continueFlag = data.continueFlag
      ∧ stepsLeft next + 1 = stepsLeft (some pc) := by
  cases pc with
  | markStopped => exact absurd rfl past
  | clearFlags => exact absurd rfl last
  | announce =>
      cases steps
      exact ⟨rfl, rfl, rfl⟩
  | waitContinue =>
      rw [bpCallbackAfter, continued] at steps
      cases steps
      exact ⟨rfl, rfl, rfl⟩
  | asleep =>
      rw [bpCallbackAfter, if_pos continued] at steps
      cases steps
      exact ⟨rfl, rfl, rfl⟩
  | clearPoll =>
      cases steps
      exact ⟨rfl, rfl, rfl⟩

/-- A step that neither closes the file nor is its target's leaves a resumed stop its flags. -/
theorem Resumed.flags_next (resumed : Resumed f s) (placed : Placed s)
    (enabled : s.enabled a = true) (stays : a ≠ .close f) (other : a ≠ .advance (s.target f))
    : ((s.next a).files f).data.stoppedFlag = true
      ∧ ((s.next a).files f).data.continueFlag = true := by
  rcases data_next enabled f with ⟨p, rfl⟩ | close | ⟨call, _, now⟩ | ⟨q, pc, _, _, act, cur, _⟩
    | ⟨_, _, now⟩
  · simp [State.enabled, resumed.opened] at enabled
  · exact absurd close stays
  · obtain ⟨stopped, continued, _⟩ := s.flags_call f call
    rw [now, stopped, continued, resumed.continued]
    exact ⟨resumed.stopped, rfl⟩
  · obtain ⟨_, own⟩ := placed.cur q f pc cur
    subst own
    exact absurd act other
  · rw [now]
    exact ⟨resumed.stopped, resumed.continued⟩

/-- Every step but the last of the stop leaves it resumed, and only steps of the target count. -/
theorem Resumed.next (resumed : Resumed f s) (placed : Placed s) (fit : FlagsFit s)
    (enabled : s.enabled a = true) (stays : a ≠ .close f) (goes : ¬EndsStop f s a)
    : Resumed f (s.next a)
      ∧ (s.next a).target f = s.target f
      ∧ stepsLeft (pcOf (s.next a) f) + (if a.advances (s.target f) then 1 else 0)
        = stepsLeft (pcOf s f) := by
  obtain ⟨pc, cur, past⟩ := exists_cur_of_stopped fit resumed.opened resumed.stopped
  have opened := (opened_next enabled).mpr (Or.inl ⟨resumed.opened, stays⟩)
  have used : Targets s f (s.target f) := ⟨by rw [resumed.opened]; simp, rfl⟩
  obtain ⟨_, target⟩ := used.next enabled
  have place : pcOf s f = some pc := pcOf_eq_some rfl cur
  rcases cur_next enabled (s.target f) with ⟨_, _, _, _, idle, _⟩
    | ⟨g, pc', data, next, act, cur', steps, stored, now⟩ | ⟨_, other, same⟩
  · rw [cur] at idle
    contradiction
  · -- the target takes its next step
    rw [cur] at cur'
    cases cur'
    have last : pc ≠ .clearFlags := by
      rintro rfl
      exact goes ⟨_, act, cur⟩
    obtain ⟨stopped, continued, left⟩ := stepsLeft_callback resumed.continued past last steps
    have placeNow : pcOf (s.next a) f = next := by
      cases next with
      | none => exact pcOf_eq_none target now
      | some pc' => exact pcOf_eq_some target now
    refine ⟨⟨opened, ?_, ?_⟩, target, ?_⟩
    · rw [stored, stopped, resumed.stopped]
    · rw [stored, continued, resumed.continued]
    · rw [placeNow, place, act]
      simpa [Act.advances] using left
  · -- somebody else takes a step
    have uncounted : a.advances (s.target f) = false := by
      cases a with
      | advance q => simpa [Act.advances] using other
      | _ => rfl
    have placeNow : pcOf (s.next a) f = some pc := pcOf_eq_some target (same.trans cur)
    have flags := resumed.flags_next placed enabled stays other
    refine ⟨⟨opened, flags.1, flags.2⟩, target, ?_⟩
    rw [placeNow, place, uncounted]
    rfl

/-- A resuming command that returns `0` leaves the stop resumed. -/
theorem resumed_of_call {call : Call} (enabled : s.enabled (.call f call) = true)
    (resumes : call.isResume = true) (accepted : (s.call f call).2 = 0)
    : Resumed f (s.next (.call f call)) := by
  have opened := opened_of_enabled_call enabled
  obtain ⟨stopped, _, _⟩ := s.flags_call f call
  have tested : s.test f call = (s.files f).data.stoppedFlag :=
    s.test_of_isTested (Call.isTested_of_isResume resumes)
  refine ⟨(opened_next enabled).mpr (Or.inl ⟨opened, by simp⟩), ?_, ?_⟩
  · rcases s.call_cases f call with ⟨test, _⟩ | ⟨_, same⟩
    · exact stopped.trans (tested.symm.trans test)
    · rw [same] at accepted
      contradiction
  · exact continueFlag_of_resumed resumes accepted

theorem stepsLeft_le (pc : Option Pc) : stepsLeft pc ≤ 4 := by
  rcases pc with _ | pc
  · exact Nat.zero_le 4
  · cases pc <;> decide

/-- Something is left of a stop that has not ended. -/
theorem Resumed.stepsLeft_pos (resumed : Resumed f s) (fit : FlagsFit s)
    : 0 < stepsLeft (pcOf s f) := by
  obtain ⟨pc, cur, past⟩ := exists_cur_of_stopped fit resumed.opened resumed.stopped
  rw [pcOf_eq_some rfl cur]
  cases pc with
  | markStopped => exact absurd rfl past
  | _ => decide

/-- The run from a resumed stop on, as long as the stop does not end. -/
theorem Resumed.run {t : State} {mid : List Act} (resumed : Resumed f s)
    (known : Throughout State.step (fun s => Placed s ∧ FlagsFit s) s mid)
    (stays : .close f ∉ mid) (goes : ¬Occurs State.step (EndsStop f) s mid)
    (run : exec State.step s mid = some t)
    : t.enabled (.advance (s.target f)) = true
      ∧ mid.countP (Act.advances (s.target f)) < 4 := by
  obtain ⟨⟨still, target⟩, whole⟩ := countdown
    (fun u : State => Resumed f u ∧ u.target f = s.target f) (fun u => stepsLeft (pcOf u f))
    (Act.advances (s.target f)) (EndsStop f) ⟨resumed, rfl⟩ (fun before a after u split reached
      now quiet v taken => by
        obtain ⟨enabled, same⟩ := step_eq_some.mp taken
        subst same
        obtain ⟨placed, fit⟩ := known before (a :: after) u split reached
        have other : a ≠ .close f := fun close => stays (by simp [split, close])
        obtain ⟨later, target, left⟩ := now.1.next placed fit enabled other quiet
        rw [now.2] at left
        exact ⟨⟨later, target.trans now.2⟩, left⟩)
    goes run
  obtain ⟨_, fit⟩ := known.final run
  have pos := still.stepsLeft_pos fit
  have bound := stepsLeft_le (pcOf s f)
  exact ⟨target ▸ still.enabled fit, by omega⟩

/-- A file that is told to continue has been told so by a command, with no new stop since. -/
theorem exists_resume {regs : Pid → Regs} {before : List Act} {u : State}
    (reached : exec State.step (.initial regs) before = some u)
    (opened : (u.files f).status = .opened) (continued : (u.files f).data.continueFlag = true)
    : ∃ earlier call mid t v,
        before = earlier ++ .call f call :: mid
        ∧ exec State.step (.initial regs) earlier = some t
        ∧ call.isResume = true
        ∧ (t.call f call).2 = 0
        ∧ t.step (.call f call) = some v
        ∧ exec State.step v mid = some u
        ∧ ¬Occurs State.step (BeginsStop f) v mid := by
  have known := flagsFit_throughout regs before
  -- back from the state to the command that set `continue_flag`
  have made : Along State.step (fun s a => ∀ t, s.step a = some t
      → ((t.files f).status = .opened ∧ (t.files f).data.continueFlag = true)
      → (∃ call, a = .call f call ∧ call.isResume = true ∧ (s.call f call).2 = 0)
        ∨ (((s.files f).status = .opened ∧ (s.files f).data.continueFlag = true)
            ∧ ¬BeginsStop f s a)) (.initial regs) before := by
    intro first b last s split here t taken ⟨openedNow, continuedNow⟩
    obtain ⟨enabled, same⟩ := step_eq_some.mp taken
    subst same
    obtain ⟨placed, fit⟩ := known first (b :: last) s split here
    exact continueFlag_cases placed fit enabled openedNow continuedNow
  obtain ⟨earlier, b, mid, t, v, same, here, taken, ⟨call, act, resumes, accepted⟩, rest,
      absent⟩ :=
    holds_since
      (fun s : State => (s.files f).status = .opened ∧ (s.files f).data.continueFlag = true)
      (fun s a => ∃ call, a = .call f call ∧ call.isResume = true ∧ (s.call f call).2 = 0)
      (BeginsStop f) (fun start => by cases start.1) made reached ⟨opened, continued⟩
  subst act
  exact ⟨earlier, call, mid, t, v, same, here, resumes, accepted, taken, rest, absent⟩

/-- In every run the stops of open files end by the commands that resume them. -/
theorem stops_endByResume (regs : Pid → Regs) (acts : List Act)
    : EndByResume (.initial regs) acts := by
  have known := flagsFit_throughout regs acts
  constructor
  · intro before f call mid after t v u split reached resumes accepted taken rest stays
    by_cases goes : Occurs State.step (EndsStop f) v mid
    · exact Or.inl goes
    · refine Or.inr ?_
      obtain ⟨enabled, same⟩ := step_eq_some.mp taken
      subst same
      have opened := opened_of_enabled_call enabled
      have used : Targets t f (t.target f) := ⟨by rw [opened]; simp, rfl⟩
      obtain ⟨_, target⟩ := used.next enabled
      have knownLater : Throughout State.step (fun s => Placed s ∧ FlagsFit s)
          (t.next (.call f call)) mid := by
        intro first last w split' here
        refine known (before ++ .call f call :: first) (last ++ after) w ?_
          (exec_through reached taken here)
        simp [split, split']
      have run := (resumed_of_call enabled resumes accepted).run knownLater stays goes rest
      rwa [target] at run
  · intro before f a after u split reached ends opened
    obtain ⟨p, act, cur⟩ := ends
    obtain ⟨placed, fit⟩ := known before (a :: after) u split reached
    have fits := fit f opened
    rw [pcOf_eq_some (placed.cur p f _ cur).2 cur] at fits
    exact exists_resume reached opened fits.2.1

end RwMem.Breakpoint
