import RwMem.Breakpoint.Races

/-! What a stop shows and how often it is announced. The flags follow the callback even where
commands take effect long after their test, because only the callback sets and clears them.
-/

namespace RwMem.Breakpoint

open Transition State RwMem.Driver

/-- What the poll word and `stopped_flag` can say while the callback stands at this place. -/
def Shows (data : PrivateData) : Option Pc → Prop
  | none | some .markStopped => data.stoppedFlag = false ∧ data.poll = false
  | some .announce | some .clearFlags => data.stoppedFlag = true ∧ data.poll = false
  | some .waitContinue | some .asleep | some .clearPoll => data.stoppedFlag = true

/-- Only the two flags that no command sets matter. -/
theorem Shows.of_flags {data data' : PrivateData} {pc : Option Pc} (shows : Shows data pc)
    (stopped : data'.stoppedFlag = data.stoppedFlag)
    (polled : data'.poll = true → data.poll = true)
    : Shows data' pc := by
  have quiet (off : data.poll = false) : data'.poll = false := by
    cases now : data'.poll with
    | false => rfl
    | true => exact (polled now).symm.trans off
  rcases pc with _ | pc
  · exact ⟨stopped.trans shows.1, quiet shows.2⟩
  · cases pc with
    | markStopped | announce | clearFlags => exact ⟨stopped.trans shows.1, quiet shows.2⟩
    | waitContinue | asleep | clearPoll => exact stopped.trans shows

theorem Shows.advance {data data' : PrivateData} {pc : Pc} {next : Option Pc}
    (shows : Shows data (some pc)) (steps : bpCallbackAfter data pc = some (data', next))
    : Shows data' next := by
  cases pc with
  | waitContinue =>
      cases steps
      cases data.continueFlag <;> exact shows
  | asleep =>
      simp only [bpCallbackAfter] at steps
      split at steps
      · cases steps
        exact shows
      · contradiction
  | markStopped =>
      cases steps
      exact ⟨rfl, shows.2⟩
  | announce =>
      cases steps
      exact shows.1
  | clearPoll =>
      cases steps
      exact ⟨shows, rfl⟩
  | clearFlags =>
      cases steps
      exact ⟨rfl, shows.2⟩

theorem shows_placeRule : PlaceRule (fun _ => True) Shows where
  fresh _ := ⟨rfl, rfl⟩
  start _ shows := shows
  advance _ _ _ _ _ shows steps := shows.advance steps
  call _ _ _ _ shows stopped _ polled := shows.of_flags stopped polled

/-- No stop is announced, and none is about to be. -/
def Silent (data : PrivateData) (pc : Option Pc) : Prop :=
  data.poll = false ∧ pc ≠ some .announce

theorem Silent.of_flags {data data' : PrivateData} {pc : Option Pc} (silent : Silent data pc)
    (polled : data'.poll = true → data.poll = true)
    : Silent data' pc := by
  refine ⟨?_, silent.2⟩
  cases now : data'.poll with
  | false => rfl
  | true => exact (polled now).symm.trans silent.1

/-- Behind `markStopped` a callback comes to `announce`, and from nowhere else. -/
theorem silent_placeRule : PlaceRule (fun pc => pc ≠ .markStopped) Silent where
  fresh _ := ⟨rfl, by simp⟩
  start _ silent := ⟨silent.1, by simp⟩
  advance data pc data' next notBegin silent steps := by
    cases pc with
    | markStopped => exact absurd rfl notBegin
    | announce => exact absurd rfl silent.2
    | asleep =>
        simp only [bpCallbackAfter] at steps
        split at steps
        · cases steps
          exact ⟨silent.1, by simp⟩
        · contradiction
    | waitContinue =>
        cases steps
        refine ⟨silent.1, ?_⟩
        cases data.continueFlag <;> simp
    | clearPoll =>
        cases steps
        exact ⟨rfl, by simp⟩
    | clearFlags =>
        cases steps
        exact ⟨silent.1, by simp⟩
  call _ _ _ _ silent _ _ polled := silent.of_flags polled

/-- The poll word shows only what `stopped_flag` shows, and this only while exactly one
callback of the file is between its set and its clear.
-/
structure Consistent (s : State) (f : FileId) : Prop where
  polled : (s.files f).data.poll = true → (s.files f).data.stoppedFlag = true
  stopped : (s.files f).data.stoppedFlag = true
    → ∃! p, ∃ pc, (s.threads p).cur = some (f, pc) ∧ pc ≠ .markStopped

/-- Between two calls of `poll` that return `EPOLLIN` a stop of the file begins. -/
def AnnouncedOnce (s : Racing) (acts : List RaceAct) : Prop :=
  ∀ before f mid after t v u,
    acts = before ++ .act (.call f .poll) :: (mid ++ .act (.call f .poll) :: after)
    → exec Racing.step s before = some t
    → (t.sys.call f .poll).2 = EPOLLIN
    → t.step (.act (.call f .poll)) = some v
    → exec Racing.step v mid = some u
    → (u.sys.call f .poll).2 = EPOLLIN
    → (u.step (.act (.call f .poll))).isSome
    → Occurs Racing.step (fun s a => ∃ b, a = .act b ∧ BeginsStop f s.sys b) v mid

theorem consistent_of_shows {s : State} {f : FileId} (placed : Placed s)
    (shows : Shows (s.files f).data (pcOf s f))
    : Consistent s f := by
  refine ⟨?_, ?_⟩
  · intro polled
    cases place : pcOf s f with
    | none => simp [place, Shows, polled] at shows
    | some pc => cases pc <;> simp_all [Shows]
  · intro stopped
    cases cur : (s.threads (s.target f)).cur with
    | none =>
        rw [pcOf_eq_none rfl cur, Shows, stopped] at shows
        exact absurd shows.1 (by simp)
    | some place =>
        obtain ⟨g, pc⟩ := place
        by_cases own : g = f
        · subst own
          refine ⟨s.target g, ⟨pc, cur, ?_⟩, ?_⟩
          · intro begins
            subst begins
            rw [pcOf_eq_some rfl cur, Shows, stopped] at shows
            exact absurd shows.1 (by simp)
          · intro p runs
            obtain ⟨pc', cur', _⟩ := runs
            exact (placed.cur p g pc' cur').2.symm
        · rw [pcOf_eq_none_of_ne (some pc) rfl cur own, Shows, stopped] at shows
          exact absurd shows.1 (by simp)

theorem poll_eq_epollin_iff (s : State) (f : FileId)
    : (s.call f .poll).2 = EPOLLIN ↔ (s.files f).data.poll = true := by
  cases polled : (s.files f).data.poll <;>
    simp [State.call, State.test, Call.isTested, effect, polled, EPOLLIN]

variable {s t : Racing} {a : RaceAct} {f : FileId}

theorem opened_of_polled (called : (s.step (.act (.call f .poll))).isSome)
    : (s.sys.files f).status = .opened := by
  obtain ⟨t, taken⟩ := Option.isSome_iff_exists.mp called
  rcases Racing.step_cases taken with ⟨_, _, act, _⟩ | ⟨_, _, act, _⟩ | ⟨b, act, enabled, _⟩
  · contradiction
  · contradiction
  · cases act
    exact opened_of_enabled_call enabled

/-- The effect of a pending call leaves every file and thread in its place. -/
theorem Placed.effect {s : State} (placed : Placed s) (opened : (s.files f).status = .opened)
    (call : Call)
    : Placed (s.effect f call).1 := by
  have targets {g : FileId} {p : Pid} (used : Targets s g p)
      : Targets (s.effect f call).1 g p := by
    obtain ⟨status, target, _⟩ := s.files_effect f g call
    exact ⟨by rw [status]; exact used.1, target.trans used.2⟩
  refine ⟨?_, ?_, ?_⟩
  · intro p g member
    rw [(s.place_effect f call p).1] at member
    exact targets (placed.work p g member)
  · intro p g pc stands
    rw [(s.place_effect f call p).2] at stands
    exact targets (placed.cur p g pc stands)
  · intro e member
    rcases s.stepList_effect f call with ⟨_, list⟩ | ⟨_, list⟩
    · rw [list] at member
      rcases List.mem_cons.mp member with same | before
      · subst same
        exact targets ⟨by rw [opened]; simp, rfl⟩
      · exact targets (placed.entries e before)
    · rw [list] at member
      exact targets (placed.entries e member)

theorem pcOf_effect (s : State) (g : FileId) (call : Call) (f : FileId)
    : pcOf (s.effect g call).1 f = pcOf s f := by
  rw [pcOf, pcOf, (s.files_effect g f call).2.1, (s.place_effect g call _).2]

/-- A condition that reads only the poll word and `stopped_flag` outlives the effect of a
pending call, whatever the call is.
-/
theorem holds_effect {fits : PrivateData → Option Pc → Prop}
    (ofFlags : ∀ data pc data', fits data pc → data'.stoppedFlag = data.stoppedFlag
      → (data'.poll = true → data.poll = true) → fits data' pc)
    {s : State} (g : FileId) (call : Call)
    (holds : (s.files f).status = .opened → fits (s.files f).data (pcOf s f))
    : ((s.effect g call).1.files f).status = .opened
      → fits ((s.effect g call).1.files f).data (pcOf (s.effect g call).1 f) := by
  intro opened
  rw [(s.files_effect g f call).1] at opened
  rw [pcOf_effect]
  by_cases own : f = g
  · subst own
    obtain ⟨stopped, _, polled⟩ := s.flags_effect f call
    exact ofFlags _ _ _ (holds opened) stopped polled
  · rw [(s.files_effect g f call).2.2 own]
    exact holds opened

/-- What holds in every state, however late calls take effect. -/
structure Announced (s : Racing) : Prop where
  placed : Placed s.sys
  opened : ∀ q ∈ s.pending, (s.sys.files q.file).status = .opened
  shows : ∀ f, (s.sys.files f).status = .opened → Shows (s.sys.files f).data (pcOf s.sys f)

theorem announced_initial (regs : Pid → Regs) : Announced (.initial regs) where
  placed := placed_initial regs
  opened q member := by contradiction
  shows f opened := by contradiction

/-- One step keeps the places, and keeps what the flags show. -/
theorem Announced.next (announced : Announced s) (taken : s.step a = some t)
    : Announced t := by
  rcases Racing.step_cases taken with ⟨f, call, act, opened, passed⟩ | ⟨i, q, act, here, same⟩
    | ⟨b, act, enabled, separate, same⟩
  · rcases passed with ⟨_, same⟩ | same
    · subst same
      refine ⟨announced.placed, ?_, announced.shows⟩
      intro q member
      rcases List.mem_append.mp member with before | same
      · exact announced.opened q before
      · cases List.mem_singleton.mp same
        exact opened
    · subst same
      exact announced
  · subst same
    have opened := announced.opened q (List.mem_of_getElem? here)
    refine ⟨announced.placed.effect opened q.call, ?_, ?_⟩
    · intro r member
      exact (s.sys.files_effect q.file r.file q.call).1.trans
        (announced.opened r (List.mem_of_mem_eraseIdx member))
    · intro f
      exact holds_effect (fun _ _ _ shows stopped polled => shows.of_flags stopped polled)
        q.file q.call (announced.shows f)
  · subst same
    refine ⟨announced.placed.next enabled, ?_, ?_⟩
    · intro q member
      exact (opened_next enabled).mpr
        (Or.inl ⟨announced.opened q member, s.ne_close_of_separate separate member⟩)
    · intro f
      exact shows_placeRule.next announced.placed enabled (fun _ _ _ _ => trivial)
        (announced.shows f)

theorem announced_throughout (regs : Pid → Regs) (acts : List RaceAct)
    : Throughout Racing.step Announced (.initial regs) acts :=
  invariant_of_step acts (announced_initial regs) (fun _ _ _ holds taken => holds.next taken)

/-- As long as no stop of the file begins, none is announced. -/
theorem silent_next (placed : Placed s.sys)
    (silent : (s.sys.files f).status = .opened → Silent (s.sys.files f).data (pcOf s.sys f))
    (noBegin : ¬∃ b, a = .act b ∧ BeginsStop f s.sys b) (taken : s.step a = some t)
    : (t.sys.files f).status = .opened → Silent (t.sys.files f).data (pcOf t.sys f) := by
  rcases Racing.step_cases taken with ⟨g, call, act, _, passed⟩ | ⟨i, q, act, here, same⟩
    | ⟨b, act, enabled, separate, same⟩
  · rcases passed with ⟨_, same⟩ | same
    · subst same
      exact silent
    · subst same
      exact silent
  · subst same
    exact holds_effect (fun _ _ _ silent _ polled => silent.of_flags polled) q.file q.call
      silent
  · subst same
    refine silent_placeRule.next placed enabled ?_ silent
    intro p pc advance cur begins
    subst begins
    exact noBegin ⟨b, act, p, advance, cur⟩

/-- A call of `poll` that returns `EPOLLIN` leaves the file silent. -/
theorem silent_of_polled (announced : Announced s) (polled : (s.sys.call f .poll).2 = EPOLLIN)
    (taken : s.step (.act (.call f .poll)) = some t)
    : (t.sys.files f).status = .opened → Silent (t.sys.files f).data (pcOf t.sys f) := by
  intro openedNow
  have word := (poll_eq_epollin_iff s.sys f).mp polled
  rcases Racing.step_cases taken with ⟨_, _, act, _⟩ | ⟨_, _, act, _⟩
    | ⟨b, act, enabled, separate, same⟩
  · contradiction
  · contradiction
  · cases act
    subst same
    have opened := opened_of_enabled_call enabled
    have shows := announced.shows f opened
    have same : (s.sys.next (.call f .poll)) = (s.sys.effect f .poll).1 := rfl
    rw [Racing.sys_acted, same, pcOf_effect]
    refine ⟨by simp [effect], ?_⟩
    intro place
    rw [place, Shows, word] at shows
    exact absurd shows.2 (by simp)

/-- In every run the flags of every open file are consistent, and every stop is announced at
most once.
-/
theorem stops_announced (regs : Pid → Regs) (acts : List RaceAct)
    : Throughout Racing.step
          (fun s => ∀ f, (s.sys.files f).status = .opened → Consistent s.sys f)
          (.initial regs) acts
        ∧ AnnouncedOnce (.initial regs) acts := by
  have known := announced_throughout regs acts
  refine ⟨?_, ?_⟩
  · intro before after s split reached f opened
    have announced := known before after s split reached
    exact consistent_of_shows announced.placed (announced.shows f opened)
  · intro before f mid after t v u split reached polled taken rest again called
    by_contra absent
    have word := (poll_eq_epollin_iff u.sys f).mp again
    have silent : (u.sys.files f).status = .opened
        → Silent (u.sys.files f).data (pcOf u.sys f) := by
      refine holds_until (fun s : Racing => (s.sys.files f).status = .opened
        → Silent (s.sys.files f).data (pcOf s.sys f)) _ ?_ ?_ absent rest
      · exact silent_of_polled (known before _ t split reached) polled taken
      · intro first b last w split' here silent noBegin x taken'
        have there := exec_through reached taken here
        have announced := known (before ++ .act (.call f .poll) :: first)
          (b :: last ++ .act (.call f .poll) :: after) w (by simp [split, split']) there
        exact silent_next announced.placed silent noBegin taken'
    rw [(silent (opened_of_polled called)).1] at word
    contradiction

end RwMem.Breakpoint
