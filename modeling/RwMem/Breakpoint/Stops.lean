import RwMem.Breakpoint.Lifetime

/-! Where callbacks can stand, and that the flags of an open file tell where its own callback
stands.
-/

namespace RwMem.Breakpoint

open Transition State

variable {s : State} {a : Act}

/-- The file exists or existed, and `p` is its target. -/
def Targets (s : State) (f : FileId) (p : Pid) : Prop :=
  (s.files f).status ≠ .unused ∧ s.target f = p

theorem Targets.next {f : FileId} {p : Pid} (targets : Targets s f p)
    (enabled : s.enabled a = true)
    : Targets (s.next a) f p := by
  obtain ⟨used, target⟩ := targets
  rcases status_next enabled f with ⟨_, _, unused, _⟩ | ⟨_, _, closed, same⟩
    | ⟨_, _, status, same⟩
  · exact absurd unused used
  · exact ⟨by rw [closed]; simp, same.trans target⟩
  · exact ⟨by rw [status]; exact used, same.trans target⟩

/-- Callbacks and step entries are on the target of their file. -/
structure Placed (s : State) : Prop where
  work : ∀ p f, f ∈ (s.threads p).work → Targets s f p
  cur : ∀ p f pc, (s.threads p).cur = some (f, pc) → Targets s f p
  entries : ∀ e ∈ s.stepList, Targets s e.file e.pid

theorem placed_initial (regs : Pid → Regs) : Placed (.initial regs) := by
  refine ⟨?_, ?_, ?_⟩
  · intro p f member
    contradiction
  · intro p f pc stands
    contradiction
  · intro e member
    contradiction

theorem Placed.next (placed : Placed s) (enabled : s.enabled a = true)
    : Placed (s.next a) := by
  refine ⟨?_, ?_, ?_⟩
  · intro p f member
    rcases mem_work_next enabled member with before | ⟨_, opened, own⟩ | ⟨e, _, found, _, own⟩
    · exact (placed.work p f before).next enabled
    · have targets : Targets s f p := ⟨by rw [opened]; simp, own.symm⟩
      exact targets.next enabled
    · obtain ⟨member, thread⟩ := s.findEntry_eq_some found
      have targets := placed.entries e member
      rw [own, thread] at targets
      exact targets.next enabled
  · intro p f pc stands
    rcases cur_next enabled p with ⟨i, g, _, member, _, now⟩
      | ⟨g, pc', data, next, _, cur, _, _, now⟩ | ⟨_, _, now⟩
    · rw [now] at stands
      cases stands
      exact (placed.work p f member).next enabled
    · rw [now] at stands
      cases next with
      | none => cases stands
      | some pc'' =>
          cases stands
          exact (placed.cur p f pc' cur).next enabled
    · rw [now] at stands
      exact (placed.cur p f pc stands).next enabled
  · intro e member
    rcases stepList_next enabled with ⟨f, call, _, _, opened, list⟩ | ⟨p, _, list⟩
      | ⟨f, _, list⟩ | ⟨_, _, _, list⟩
    · rw [list] at member
      rcases List.mem_cons.mp member with same | before
      · subst same
        have targets : Targets s f (s.target f) := ⟨by rw [opened]; simp, rfl⟩
        exact targets.next enabled
      · exact (placed.entries e before).next enabled
    · rw [list] at member
      exact (placed.entries e (List.mem_of_mem_eraseP member)).next enabled
    · rw [list] at member
      obtain ⟨e', before, file, pid⟩ := exists_mem_of_mem_markRemoved member
      rw [← file, ← pid]
      exact (placed.entries e' before).next enabled
    · rw [list] at member
      exact (placed.entries e member).next enabled

/-- Where the target of a file stands in a callback of this file, if it runs one. -/
def pcOf (s : State) (f : FileId) : Option Pc :=
  match (s.threads (s.target f)).cur with
  | none => none
  | some (g, pc) => if g = f then some pc else none

/-- The flags that a file can have while its callback stands at this place. -/
def Fits (data : PrivateData) : Option Pc → Prop
  | none | some .markStopped =>
      data.stoppedFlag = false ∧ data.continueFlag = false ∧ data.poll = false
  | some .announce => data.stoppedFlag = true ∧ data.poll = false
  | some .waitContinue | some .asleep => data.stoppedFlag = true
  | some .clearPoll => data.stoppedFlag = true ∧ data.continueFlag = true
  | some .clearFlags =>
      data.stoppedFlag = true ∧ data.continueFlag = true ∧ data.poll = false

/-- One step of the callback leads from fitting flags to fitting flags. -/
theorem Fits.advance {data data' : PrivateData} {pc : Pc} {next : Option Pc}
    (fits : Fits data (some pc)) (steps : bpCallbackAfter data pc = some (data', next))
    : Fits data' next := by
  cases pc with
  | waitContinue =>
      cases steps
      cases continued : data.continueFlag with
      | true => exact ⟨fits, continued⟩
      | false => exact fits
  | asleep =>
      cases continued : data.continueFlag with
      | true =>
          simp only [bpCallbackAfter, continued, if_true] at steps
          cases steps
          exact ⟨fits, continued⟩
      | false => simp [bpCallbackAfter, continued] at steps
  | markStopped =>
      cases steps
      exact ⟨rfl, fits.2.2⟩
  | announce =>
      cases steps
      exact fits.1
  | clearPoll =>
      cases steps
      exact ⟨fits.1, fits.2, rfl⟩
  | clearFlags =>
      cases steps
      exact ⟨rfl, rfl, fits.2.2⟩

/-- Calls set `continue_flag` of stopped files only, and clear the poll word. -/
theorem Fits.call {data data' : PrivateData} {pc : Option Pc} (resumes : Bool)
    (fits : Fits data pc) (stopped : data'.stoppedFlag = data.stoppedFlag)
    (continued : data'.continueFlag = (data.continueFlag || (resumes && data.stoppedFlag)))
    (polled : data'.poll = true → data.poll = true)
    : Fits data' pc := by
  have quiet (off : data.poll = false) : data'.poll = false := by
    cases now : data'.poll with
    | false => rfl
    | true => exact (polled now).symm.trans off
  rcases pc with _ | pc
  · obtain ⟨off, idle, silent⟩ := fits
    exact ⟨stopped.trans off, by simp [continued, off, idle], quiet silent⟩
  · cases pc with
    | markStopped =>
        obtain ⟨off, idle, silent⟩ := fits
        exact ⟨stopped.trans off, by simp [continued, off, idle], quiet silent⟩
    | announce => exact ⟨stopped.trans fits.1, quiet fits.2⟩
    | waitContinue => exact stopped.trans fits
    | asleep => exact stopped.trans fits
    | clearPoll => exact ⟨stopped.trans fits.1, by simp [continued, fits.2]⟩
    | clearFlags =>
        exact ⟨stopped.trans fits.1, by simp [continued, fits.2.1], quiet fits.2.2⟩

/-- The flags of every open file fit. -/
def FlagsFit (s : State) : Prop :=
  ∀ f, (s.files f).status = .opened → Fits (s.files f).data (pcOf s f)

theorem pcOf_eq_some {f : FileId} {pc : Pc} {p : Pid} (target : s.target f = p)
    (stands : (s.threads p).cur = some (f, pc))
    : pcOf s f = some pc := by
  simp [pcOf, target, stands]

theorem pcOf_eq_none_of_ne {f g : FileId} (pc : Option Pc) {p : Pid} (target : s.target f = p)
    (stands : (s.threads p).cur = pc.map (fun pc => (g, pc))) (other : g ≠ f)
    : pcOf s f = none := by
  cases pc <;> simp [pcOf, target, stands, other]

theorem pcOf_eq_none {f : FileId} {p : Pid} (target : s.target f = p)
    (idle : (s.threads p).cur = none)
    : pcOf s f = none := by
  simp [pcOf, target, idle]

theorem flagsFit_initial (regs : Pid → Regs) : FlagsFit (.initial regs) := by
  intro f opened
  contradiction

/-- A new file has no callback yet. -/
theorem addBp_placed {f : FileId} {p : Pid} (placed : Placed s)
    (enabled : s.enabled (.addBp f p) = true)
    : ((s.next (.addBp f p)).files f).data = .fresh p
      ∧ pcOf (s.next (.addBp f p)) f = none := by
  have unused : (s.files f).status = .unused := by simpa [State.enabled] using enabled
  have data : (s.next (.addBp f p)).files f = ⟨.opened, .fresh p⟩ := by simp [State.next]
  have target : (s.next (.addBp f p)).target f = p := by rw [State.target, data]; rfl
  refine ⟨by rw [data], ?_⟩
  cases cur : (s.threads p).cur with
  | none => exact pcOf_eq_none target cur
  | some place =>
      obtain ⟨g, pc⟩ := place
      apply pcOf_eq_none_of_ne (some pc) target cur
      intro same
      subst same
      exact (placed.cur p g pc cur).1 unused

/-- A condition on the flags at each place of the callback. It holds of a new file, and is
kept as a callback starts, by the steps of the callback at the `allowed` places, and by calls.
-/
structure PlaceRule (allowed : Pc → Prop) (fits : PrivateData → Option Pc → Prop) : Prop where
  fresh : ∀ p, fits (.fresh p) none
  start : ∀ data, fits data none → fits data (some .markStopped)
  advance : ∀ data pc data' next,
    allowed pc → fits data (some pc) → bpCallbackAfter data pc = some (data', next)
    → fits data' next
  call : ∀ data pc data' resumes,
    fits data pc → data'.stoppedFlag = data.stoppedFlag
    → data'.continueFlag = (data.continueFlag || (resumes && data.stoppedFlag))
    → (data'.poll = true → data.poll = true)
    → fits data' pc

/-- Every step keeps such a condition on an open file: a step of the callback and a call by
its own rule, and every other step leaves the flags and the place alone.
-/
theorem PlaceRule.next {allowed : Pc → Prop} {fits : PrivateData → Option Pc → Prop}
    (rule : PlaceRule allowed fits) {f : FileId} (placed : Placed s)
    (enabled : s.enabled a = true)
    (steps : ∀ p pc, a = .advance p → (s.threads p).cur = some (f, pc) → allowed pc)
    (holds : (s.files f).status = .opened → fits (s.files f).data (pcOf s f))
    : ((s.next a).files f).status = .opened
      → fits ((s.next a).files f).data (pcOf (s.next a) f) := by
  intro openedNow
  rcases (opened_next enabled).mp openedNow with ⟨opened, notClose⟩ | ⟨p, add⟩
  · have holds := holds opened
    have used : Targets s f (s.target f) := ⟨by rw [opened]; simp, rfl⟩
    obtain ⟨_, target⟩ := used.next enabled
    have notAdd (p : Pid) : a ≠ .addBp f p := by
      intro same
      subst same
      simp [State.enabled, opened] at enabled
    rcases cur_next enabled (s.target f) with ⟨i, g, act, _, idle, now⟩
      | ⟨g, pc, data, next, act, cur, taken, stored, now⟩ | ⟨_, notAdvance, same⟩
    · subst act
      rw [pcOf_eq_none rfl idle] at holds
      by_cases own : g = f
      · subst own
        rw [pcOf_eq_some target now]
        exact rule.start _ holds
      · rw [pcOf_eq_none_of_ne (some .markStopped) target now own]
        exact holds
    · by_cases own : g = f
      · subst own
        rw [pcOf_eq_some rfl cur] at holds
        have after := rule.advance _ _ _ _ (steps _ pc act cur) holds taken
        rw [stored]
        cases next with
        | none => rw [pcOf_eq_none target now]; exact after
        | some pc' => rw [pcOf_eq_some target now]; exact after
      · rw [pcOf_eq_none_of_ne next target now own]
        rw [pcOf_eq_none_of_ne (some pc) rfl cur own] at holds
        rcases data_next enabled f with ⟨p, add⟩ | close | ⟨call, act', _⟩
          | ⟨q, pc', _, _, act', cur', _⟩ | ⟨_, _, kept⟩
        · exact absurd add (notAdd p)
        · exact absurd close notClose
        · cases act.symm.trans act'
        · cases act.symm.trans act'
          rw [cur] at cur'
          cases cur'
          exact absurd rfl own
        · rw [kept]
          exact holds
    · have place : pcOf (s.next a) f = pcOf s f := by
        rw [pcOf, pcOf, target, same]
      rw [place]
      rcases data_next enabled f with ⟨p, add⟩ | close | ⟨call, _, now⟩
        | ⟨q, pc', _, _, act, cur, _⟩ | ⟨_, _, kept⟩
      · exact absurd add (notAdd p)
      · exact absurd close notClose
      · obtain ⟨stopped, continued, polled⟩ := s.flags_call f call
        rw [← now] at stopped continued polled
        exact rule.call _ _ _ call.isResume holds stopped continued polled
      · obtain ⟨_, own⟩ := placed.cur q f pc' cur
        subst own
        exact absurd act notAdvance
      · rw [kept]
        exact holds
  · subst add
    obtain ⟨data, place⟩ := addBp_placed placed enabled
    rw [data, place]
    exact rule.fresh p

/-- The steps of the callback and the calls keep the flags fitting. -/
theorem fits_placeRule : PlaceRule (fun _ => True) Fits where
  fresh _ := ⟨rfl, rfl, rfl⟩
  start _ fits := fits
  advance _ _ _ _ _ fits steps := fits.advance steps
  call _ _ _ resumes fits stopped continued polled := fits.call resumes stopped continued polled

theorem FlagsFit.next (fit : FlagsFit s) (placed : Placed s) (enabled : s.enabled a = true)
    : FlagsFit (s.next a) :=
  fun f => fits_placeRule.next placed enabled (fun _ _ _ _ => trivial) (fit f)

/-- The flags fit in every state of every run. -/
theorem flagsFit_throughout (regs : Pid → Regs) (acts : List Act)
    : Throughout State.step (fun s => Placed s ∧ FlagsFit s) (.initial regs) acts := by
  refine invariant_of_step acts ⟨placed_initial regs, flagsFit_initial regs⟩ ?_
  intro t a u holds taken
  obtain ⟨enabled, same⟩ := step_eq_some.mp taken
  subst same
  exact ⟨holds.1.next enabled, holds.2.next holds.1 enabled⟩

end RwMem.Breakpoint
