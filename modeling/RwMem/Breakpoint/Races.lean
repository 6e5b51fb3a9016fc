import RwMem.Breakpoint.Resume

/-! Calls whose test of `stopped_flag` and whose effect are two steps, with any number of calls
in between. No lock covers both, so the stop that was tested can be over.
-/

namespace RwMem.Breakpoint

open Transition State RwMem.Driver

/-- A call that has passed its test and has had no effect yet, and the stop it has tested. -/
structure Pending where
  file : FileId
  call : Call
  stop : Nat

/-- The system with the calls between test and effect. The code does not have the last two
fields: how many stops of a file have begun, and which of them the commands had tested that
set `continue_flag` since it was last cleared.
-/
structure Racing where
  sys : State
  pending : List Pending
  stops : FileId → Nat
  resumedBy : FileId → List Nat

/-- A caller tests `stopped_flag`, a call that has passed its test takes effect, or something
else happens.
-/
inductive RaceAct where
  | test (f : FileId) (call : Call)
  | effect (i : Nat)
  | act (a : Act)

namespace Racing

def initial (regs : Pid → Regs) : Racing := ⟨.initial regs, [], fun _ => 0, fun _ => []⟩

variable (s : Racing)

/-- Calls with a test are made in two steps, and the file of a running call is not released. -/
def separate : Act → Bool
  | .call _ call => !call.isTested
  | .close f => s.pending.all (fun q => q.file ≠ f)
  | _ => true

def enabled : RaceAct → Bool
  | .test f call => call.isTested && (s.sys.files f).status = .opened
  | .effect i => i < s.pending.length
  | .act a => s.sys.enabled a && s.separate a

/-- A stop begins as the callback sets `stopped_flag`. -/
def stopsAfter (a : Act) : FileId → Nat :=
  match a with
  | .advance p =>
      match (s.sys.threads p).cur with
      | some (f, .markStopped) => Function.update s.stops f (s.stops f + 1)
      | _ => s.stops
  | _ => s.stops

/-- The record of the commands behind `continue_flag` is cleared along with it. -/
def resumedByAfter (a : Act) : FileId → List Nat :=
  match a with
  | .advance p =>
      match (s.sys.threads p).cur with
      | some (f, .clearFlags) => Function.update s.resumedBy f []
      | _ => s.resumedBy
  | _ => s.resumedBy

def acted (a : Act) : Racing where
  sys := s.sys.next a
  pending := s.pending
  stops := s.stopsAfter a
  resumedBy := s.resumedByAfter a

/-- The pending call at `i` takes effect, whatever has happened since its test. -/
def applied (i : Nat) (q : Pending) : Racing where
  sys := (s.sys.effect q.file q.call).1
  pending := s.pending.eraseIdx i
  stops := s.stops
  resumedBy :=
    if q.call.isResume then
      Function.update s.resumedBy q.file (q.stop :: s.resumedBy q.file)
    else
      s.resumedBy

def next : RaceAct → Racing
  | .test f call =>
      if s.sys.test f call then { s with pending := s.pending ++ [⟨f, call, s.stops f⟩] } else s
  | .effect i =>
      match s.pending[i]? with
      | none => s
      | some q => s.applied i q
  | .act a => s.acted a

def step (a : RaceAct) : Option Racing := if s.enabled a then some (s.next a) else none

end Racing

/-- The target of the file is in a callback of it, behind the step that set `stopped_flag`. -/
def InStop (s : State) (f : FileId) : Prop := ∃ pc, pcOf s f = some pc ∧ pc ≠ .markStopped

/-- The callback clears the flags of the file. -/
def EndsStop (f : FileId) (s : State) (a : Act) : Prop :=
  ∃ p, a = .advance p ∧ (s.threads p).cur = some (f, .clearFlags)

/-- A call takes effect in the stop that it has tested, with the target still in it. -/
def EffectInStop (s : Racing) (a : RaceAct) : Prop :=
  ∀ i q, a = .effect i → s.pending[i]? = some q
    → q.stop = s.stops q.file ∧ InStop s.sys q.file

/-- The target of an open file leaves its wait because of commands that had tested this stop,
and only of such.
-/
def LeavesByOwn (s : Racing) (a : RaceAct) : Prop :=
  ∀ p f pc, a = .act (.advance p) → (s.sys.threads p).cur = some (f, pc)
    → pc = .waitContinue ∨ pc = .asleep
    → (s.sys.files f).status = .opened
    → (s.sys.files f).data.continueFlag = true
    → s.resumedBy f ≠ [] ∧ ∀ k ∈ s.resumedBy f, k = s.stops f

/-- The flags of a file are cleared only while no call on it is between test and effect. -/
def EndsAlone (s : Racing) (a : RaceAct) : Prop :=
  ∀ f b, a = .act b → EndsStop f s.sys b → ∀ q ∈ s.pending, q.file ≠ f

namespace Racing

variable {s t : Racing} {a : RaceAct}

/-- The steps of a race: a test that is passed or not, an effect, or a step of the system. -/
theorem step_cases (taken : s.step a = some t)
    : (∃ f call, a = .test f call ∧ (s.sys.files f).status = .opened
          ∧ (((s.sys.files f).data.stoppedFlag = true
                ∧ t = { s with pending := s.pending ++ [⟨f, call, s.stops f⟩] })
              ∨ t = s))
      ∨ (∃ i q, a = .effect i ∧ s.pending[i]? = some q ∧ t = s.applied i q)
      ∨ (∃ b, a = .act b ∧ s.sys.enabled b = true ∧ s.separate b = true
          ∧ t = s.acted b) := by
  rw [Racing.step] at taken
  split at taken
  · rename_i enabled
    cases taken
    cases a with
    | test f call =>
        simp only [Racing.enabled, Bool.and_eq_true, decide_eq_true_eq] at enabled
        refine Or.inl ⟨f, call, rfl, enabled.2, ?_⟩
        rw [Racing.next]
        split
        · rename_i passed
          rw [s.sys.test_of_isTested enabled.1] at passed
          exact Or.inl ⟨passed, rfl⟩
        · exact Or.inr rfl
    | effect i =>
        simp only [Racing.enabled, decide_eq_true_eq] at enabled
        have here : s.pending[i]? = some s.pending[i] := List.getElem?_eq_getElem enabled
        refine Or.inr (Or.inl ⟨i, s.pending[i], rfl, here, ?_⟩)
        rw [Racing.next, here]
    | act b =>
        simp only [Racing.enabled, Bool.and_eq_true] at enabled
        exact Or.inr (Or.inr ⟨b, rfl, enabled.1, enabled.2, rfl⟩)
  · contradiction

end Racing

/-- What a step that is no resuming command does to the two flags of a file. -/
theorem flags_next {s : State} {a : Act} (enabled : s.enabled a = true)
    (noResume : ∀ f call, a = .call f call → call.isResume = false) (f : FileId)
    : let data := (s.files f).data
      let data' := ((s.next a).files f).data
      (∃ p, a = .addBp f p ∧ data' = .fresh p)
      ∨ (a = .close f ∧ data'.stoppedFlag = data.stoppedFlag)
      ∨ (BeginsStop f s a ∧ data'.stoppedFlag = true
          ∧ data'.continueFlag = data.continueFlag)
      ∨ (EndsStop f s a ∧ data'.stoppedFlag = false ∧ data'.continueFlag = false)
      ∨ (¬BeginsStop f s a ∧ ¬EndsStop f s a ∧ data'.stoppedFlag = data.stoppedFlag
          ∧ data'.continueFlag = data.continueFlag) := by
  intro data data'
  rcases data_next enabled f with ⟨p, add⟩ | close | ⟨call, act, now⟩
    | ⟨p, pc, after, next, act, cur, steps, now⟩ | ⟨_, notOwn, now⟩
  · subst add
    exact Or.inl ⟨p, rfl, by simp [data', State.next]⟩
  · subst close
    exact Or.inr (Or.inl ⟨rfl, by simp [data', data, State.next, rwmemBpRelease]⟩)
  · obtain ⟨stopped, continued, _⟩ := s.flags_call f call
    rw [noResume f call act] at continued
    refine Or.inr (Or.inr (Or.inr (Or.inr ⟨?_, ?_, ?_, ?_⟩)))
    · intro begins
      obtain ⟨p, other, _⟩ := begins
      cases act.symm.trans other
    · intro ends
      obtain ⟨p, other, _⟩ := ends
      cases act.symm.trans other
    · simpa [data', data, now] using stopped
    · simpa [data', data, now] using continued
  · have other {pc' : Pc} (differs : pc ≠ pc')
        : ¬∃ q, a = .advance q ∧ (s.threads q).cur = some (f, pc') := by
      intro advances
      obtain ⟨q, act', stands⟩ := advances
      cases act.symm.trans act'
      rw [cur] at stands
      cases stands
      exact differs rfl
    have same : data' = after := now
    cases pc with
    | markStopped =>
        cases steps
        exact Or.inr (Or.inr (Or.inl ⟨⟨p, act, cur⟩, by simp [same], by simp [same, data]⟩))
    | clearFlags =>
        cases steps
        exact Or.inr (Or.inr (Or.inr (Or.inl ⟨⟨p, act, cur⟩, by simp [same], by simp [same]⟩)))
    | asleep =>
        simp only [bpCallbackAfter] at steps
        split at steps
        · cases steps
          exact Or.inr (Or.inr (Or.inr (Or.inr
            ⟨other (by simp), other (by simp), by simp [same, data], by simp [same, data]⟩)))
        · contradiction
    | _ =>
        cases steps
        exact Or.inr (Or.inr (Or.inr (Or.inr
          ⟨other (by simp), other (by simp), by simp [same, data], by simp [same, data]⟩)))
  · refine Or.inr (Or.inr (Or.inr (Or.inr ⟨?_, ?_, ?_, ?_⟩)))
    · intro begins
      obtain ⟨p, act, stands⟩ := begins
      exact notOwn p _ act stands
    · intro ends
      obtain ⟨p, act, stands⟩ := ends
      exact notOwn p _ act stands
    · simp [data', data, now]
    · simp [data', data, now]

/-- While the flags of an open file fit, `stopped_flag` tells whether its target is in a stop. -/
theorem inStop_iff {s : State} {f : FileId} (fit : FlagsFit s)
    (opened : (s.files f).status = .opened)
    : InStop s f ↔ (s.files f).data.stoppedFlag = true := by
  have fits := fit f opened
  rw [InStop]
  cases place : pcOf s f with
  | none =>
      rw [place] at fits
      simp [fits.1]
  | some pc =>
      rw [place] at fits
      cases pc with
      | markStopped => simp [fits.1]
      | announce => simp [fits.1]
      | waitContinue => exact iff_of_true ⟨_, rfl, by simp⟩ fits
      | asleep => exact iff_of_true ⟨_, rfl, by simp⟩ fits
      | clearPoll => simp [fits.1]
      | clearFlags => simp [fits.1]

namespace Racing

variable {s t : Racing} {a : RaceAct}

@[simp] theorem sys_acted (s : Racing) (b : Act) : (s.acted b).sys = s.sys.next b := rfl

/-- The number of stops of a file grows by one as one begins. -/
theorem stops_acted (s : Racing) (b : Act) (f : FileId)
    : (BeginsStop f s.sys b ∧ (s.acted b).stops f = s.stops f + 1)
      ∨ (¬BeginsStop f s.sys b ∧ (s.acted b).stops f = s.stops f) := by
  cases b with
  | advance p =>
      cases cur : (s.sys.threads p).cur with
      | none => exact Or.inr ⟨by simp [BeginsStop, cur], by simp [acted, stopsAfter, cur]⟩
      | some place =>
          obtain ⟨g, pc⟩ := place
          by_cases same : f = g
          · subst same
            cases pc with
            | markStopped => exact Or.inl ⟨⟨p, rfl, cur⟩, by simp [acted, stopsAfter, cur]⟩
            | _ => exact Or.inr ⟨by simp [BeginsStop, cur], by simp [acted, stopsAfter, cur]⟩
          · refine Or.inr ⟨by simp [BeginsStop, cur, Ne.symm same], ?_⟩
            cases pc <;> simp [acted, stopsAfter, cur, same]
  | _ => exact Or.inr ⟨by simp [BeginsStop], rfl⟩

theorem resumedBy_acted (s : Racing) (b : Act) (f : FileId)
    : (EndsStop f s.sys b ∧ (s.acted b).resumedBy f = [])
      ∨ (¬EndsStop f s.sys b ∧ (s.acted b).resumedBy f = s.resumedBy f) := by
  cases b with
  | advance p =>
      cases cur : (s.sys.threads p).cur with
      | none => exact Or.inr ⟨by simp [EndsStop, cur], by simp [acted, resumedByAfter, cur]⟩
      | some place =>
          obtain ⟨g, pc⟩ := place
          by_cases same : f = g
          · subst same
            cases pc with
            | clearFlags => exact Or.inl ⟨⟨p, rfl, cur⟩, by simp [acted, resumedByAfter, cur]⟩
            | _ => exact Or.inr ⟨by simp [EndsStop, cur], by simp [acted, resumedByAfter, cur]⟩
          · refine Or.inr ⟨by simp [EndsStop, cur, Ne.symm same], ?_⟩
            cases pc <;> simp [acted, resumedByAfter, cur, same]
  | _ => exact Or.inr ⟨by simp [EndsStop], rfl⟩

theorem not_resume_of_separate {b : Act} (separate : s.separate b = true) (f : FileId)
    (call : Call) (act : b = .call f call)
    : call.isResume = false := by
  subst act
  cases resumes : call.isResume with
  | false => rfl
  | true =>
      rw [Racing.separate, Call.isTested_of_isResume resumes] at separate
      contradiction

theorem ne_close_of_separate {b : Act} (separate : s.separate b = true) {q : Pending}
    (member : q ∈ s.pending)
    : b ≠ .close q.file := by
  intro close
  subst close
  simp only [Racing.separate, List.all_eq_true, decide_eq_true_eq] at separate
  exact separate q member rfl

/-- What holds as long as every call takes effect in the stop that it has tested. -/
structure Sound (s : Racing) : Prop where
  placed : Placed s.sys
  fit : FlagsFit s.sys
  opened : ∀ q ∈ s.pending, (s.sys.files q.file).status = .opened
  begun : ∀ q ∈ s.pending, q.stop ≤ s.stops q.file
  unused : ∀ f, (s.sys.files f).status = .unused → s.resumedBy f = []
  resumed : ∀ f, (s.sys.files f).status = .opened
    → ((s.sys.files f).data.continueFlag = true ↔ s.resumedBy f ≠ [])
  own : ∀ f, (s.sys.files f).status = .opened → ∀ k ∈ s.resumedBy f, k = s.stops f

theorem sound_initial (regs : Pid → Regs) : Sound (.initial regs) where
  placed := placed_initial regs
  fit := flagsFit_initial regs
  opened q member := by contradiction
  begun q member := by contradiction
  unused _ _ := rfl
  resumed f opened := by contradiction
  own f opened := by contradiction

/-- An effect in its own stop is that of an undivided call. -/
theorem Sound.effect_eq_next {i : Nat} {q : Pending} (sound : Sound s)
    (here : s.pending[i]? = some q) (inStop : InStop s.sys q.file)
    : s.sys.enabled (.call q.file q.call) = true
      ∧ (s.applied i q).sys = s.sys.next (.call q.file q.call) := by
  have opened := sound.opened q (List.mem_of_getElem? here)
  have stopped := (inStop_iff sound.fit opened).mp inStop
  refine ⟨by simpa [State.enabled] using opened, ?_⟩
  simp [Racing.applied, State.next, State.call, State.test, stopped]

theorem Sound.test (sound : Sound s) {f : FileId} (opened : (s.sys.files f).status = .opened)
    (call : Call)
    : Sound { s with pending := s.pending ++ [⟨f, call, s.stops f⟩] } where
  placed := sound.placed
  fit := sound.fit
  opened q member := by
    rcases List.mem_append.mp member with before | same
    · exact sound.opened q before
    · cases List.mem_singleton.mp same
      exact opened
  begun q member := by
    rcases List.mem_append.mp member with before | same
    · exact sound.begun q before
    · cases List.mem_singleton.mp same
      exact le_rfl
  unused := sound.unused
  resumed := sound.resumed
  own := sound.own

theorem Sound.effect (sound : Sound s) {i : Nat} {q : Pending}
    (here : s.pending[i]? = some q) (current : q.stop = s.stops q.file)
    (inStop : InStop s.sys q.file)
    : Sound (s.applied i q) := by
  obtain ⟨enabled, same⟩ := sound.effect_eq_next here inStop
  have openedFile := sound.opened q (List.mem_of_getElem? here)
  have status (f : FileId)
      : ((s.applied i q).sys.files f).status = (s.sys.files f).status :=
    (s.sys.files_effect q.file f q.call).1
  have otherData (f : FileId) (other : f ≠ q.file)
      : ((s.applied i q).sys.files f).data = (s.sys.files f).data :=
    (s.sys.files_effect q.file f q.call).2.2 other
  have otherRecord (f : FileId) (other : f ≠ q.file)
      : (s.applied i q).resumedBy f = s.resumedBy f := by
    cases resumes : q.call.isResume <;> simp [Racing.applied, resumes, other]
  refine ⟨?_, ?_, ?_, ?_, ?_, ?_, ?_⟩
  · rw [same]
    exact sound.placed.next enabled
  · rw [same]
    exact sound.fit.next sound.placed enabled
  · intro r member
    rw [status]
    exact sound.opened r (List.mem_of_mem_eraseIdx member)
  · intro r member
    exact sound.begun r (List.mem_of_mem_eraseIdx member)
  · intro f unused
    rw [status] at unused
    have other : f ≠ q.file := by
      intro equal
      rw [equal, openedFile] at unused
      contradiction
    rw [otherRecord f other]
    exact sound.unused f unused
  · intro f opened
    rw [status] at opened
    by_cases own : f = q.file
    · subst own
      have continued := (s.sys.flags_effect q.file q.call).2.1
      have before := sound.resumed q.file opened
      simp only [Racing.applied, continued]
      cases resumes : q.call.isResume with
      | false => simpa [resumes] using before
      | true => simp
    · rw [otherData f own, otherRecord f own]
      exact sound.resumed f opened
  · intro f opened k member
    rw [status] at opened
    change k = s.stops f
    by_cases own : f = q.file
    · subst own
      cases resumes : q.call.isResume with
      | false =>
          simp only [Racing.applied, resumes] at member
          exact sound.own q.file opened k member
      | true =>
          simp only [Racing.applied, resumes, if_true, Function.update_self,
            List.mem_cons] at member
          rcases member with tested | before
          · exact tested.trans current
          · exact sound.own q.file opened k before
    · rw [otherRecord f own] at member
      exact sound.own f opened k member

/-- No other step breaks what holds: a stop begins with `continue_flag` cleared, and the record
is cleared with the flag.
-/
theorem Sound.act (sound : Sound s) {b : Act} (enabled : s.sys.enabled b = true)
    (separate : s.separate b = true)
    : Sound (s.acted b) := by
  have flags := flags_next enabled (s.not_resume_of_separate separate)
  have grows (f : FileId) : s.stops f ≤ (s.acted b).stops f := by
    rcases s.stops_acted b f with ⟨_, more⟩ | ⟨_, same⟩
    · omega
    · omega
  -- a file that is created now has neither flag nor record
  have created (f : FileId) (p : Pid) (add : b = .addBp f p)
      : (s.acted b).resumedBy f = [] := by
    have unused : (s.sys.files f).status = .unused := by
      simpa [add, State.enabled] using enabled
    rcases s.resumedBy_acted b f with ⟨_, cleared⟩ | ⟨_, same⟩
    · exact cleared
    · exact same.trans (sound.unused f unused)
  refine ⟨sound.placed.next enabled, sound.fit.next sound.placed enabled, ?_, ?_, ?_, ?_, ?_⟩
  · intro q member
    exact (opened_next enabled).mpr
      (Or.inl ⟨sound.opened q member, s.ne_close_of_separate separate member⟩)
  · intro q member
    exact (sound.begun q member).trans (grows q.file)
  · intro f unused
    rw [sys_acted] at unused
    have before : (s.sys.files f).status = .unused := by
      rcases status_next enabled f with ⟨_, _, was, _⟩ | ⟨_, _, closed, _⟩ | ⟨_, _, same, _⟩
      · exact was
      · rw [closed] at unused
        contradiction
      · exact same ▸ unused
    rcases s.resumedBy_acted b f with ⟨_, cleared⟩ | ⟨_, same⟩
    · exact cleared
    · exact same.trans (sound.unused f before)
  · intro f openedNow
    rw [sys_acted] at openedNow ⊢
    rcases (opened_next enabled).mp openedNow with ⟨opened, notClose⟩ | ⟨p, add⟩
    · have before := sound.resumed f opened
      rcases flags f with ⟨p, add, _⟩ | ⟨close, _⟩ | ⟨⟨p, act, cur⟩, _, continued⟩
        | ⟨ends, _, continued⟩ | ⟨_, notEnd, _, continued⟩
      · simp [add, State.enabled, opened] at enabled
      · exact absurd close notClose
      · rcases s.resumedBy_acted b f with ⟨⟨q, act', cur'⟩, _⟩ | ⟨_, same⟩
        · cases act.symm.trans act'
          rw [cur] at cur'
          cases cur'
        · simpa [continued, same] using before
      · rcases s.resumedBy_acted b f with ⟨_, cleared⟩ | ⟨notEnd, _⟩
        · simp [continued, cleared]
        · exact absurd ends notEnd
      · rcases s.resumedBy_acted b f with ⟨ends, _⟩ | ⟨_, same⟩
        · exact absurd ends notEnd
        · simpa [continued, same] using before
    · have fresh : ((s.sys.next b).files f).data = .fresh p := by simp [add, State.next]
      simp [created f p add, fresh, PrivateData.fresh]
  · intro f openedNow k member
    rcases (opened_next enabled).mp openedNow with ⟨opened, notClose⟩ | ⟨p, add⟩
    · rcases s.resumedBy_acted b f with ⟨_, cleared⟩ | ⟨_, same⟩
      · rw [cleared] at member
        contradiction
      · rw [same] at member
        rcases s.stops_acted b f with ⟨begins, _⟩ | ⟨_, kept⟩
        · -- `continue_flag` is not set as a stop begins, so nothing is on record
          have continued := (sound.resumed f opened).mpr (List.ne_nil_of_mem member)
          exact absurd begins
            (not_beginsStop_of_continueFlag sound.placed sound.fit opened continued)
        · exact (sound.own f opened k member).trans kept.symm
    · rw [created f p add] at member
      contradiction

theorem Sound.next (sound : Sound s) (guard : EffectInStop s a) (taken : s.step a = some t)
    : Sound t := by
  rcases step_cases taken with ⟨f, call, act, opened, passed⟩ | ⟨i, q, act, here, same⟩
    | ⟨b, act, enabled, separate, same⟩
  · rcases passed with ⟨_, same⟩ | same
    · subst same
      exact sound.test opened call
    · subst same
      exact sound
  · subst same
    obtain ⟨current, inStop⟩ := guard i q act here
    exact sound.effect here current inStop
  · subst same
    exact sound.act enabled separate

/-- Every pending call has tested the stop that its target is still in. -/
def Current (s : Racing) : Prop :=
  ∀ q ∈ s.pending,
    q.stop = s.stops q.file ∧ (s.sys.files q.file).data.stoppedFlag = true

theorem Current.effectInStop (current : Current s) (sound : Sound s) : EffectInStop s a := by
  intro i q _ here
  have member := List.mem_of_getElem? here
  obtain ⟨same, stopped⟩ := current q member
  exact ⟨same, (inStop_iff sound.fit (sound.opened q member)).mpr stopped⟩

/-- The effect of a call leaves `stopped_flag` of every file. -/
theorem stoppedFlag_applied (s : Racing) (i : Nat) (q : Pending) (f : FileId)
    : ((s.applied i q).sys.files f).data.stoppedFlag = (s.sys.files f).data.stoppedFlag := by
  by_cases own : f = q.file
  · subst own
    exact (s.sys.flags_effect q.file q.call).1
  · exact congrArg PrivateData.stoppedFlag ((s.sys.files_effect q.file f q.call).2.2 own)

theorem Current.next (current : Current s) (sound : Sound s) (guard : EndsAlone s a)
    (taken : s.step a = some t)
    : Current t := by
  rcases step_cases taken with ⟨f, call, act, _, passed⟩ | ⟨i, q, act, here, same⟩
    | ⟨b, act, enabled, separate, same⟩
  · rcases passed with ⟨stopped, same⟩ | same
    · subst same
      intro q member
      rcases List.mem_append.mp member with before | same
      · exact current q before
      · cases List.mem_singleton.mp same
        exact ⟨rfl, stopped⟩
    · subst same
      exact current
  · subst same
    intro r member
    obtain ⟨tested, stopped⟩ := current r (List.mem_of_mem_eraseIdx member)
    exact ⟨tested, (s.stoppedFlag_applied i q r.file).trans stopped⟩
  · subst same
    intro q member
    change q ∈ s.pending at member
    have opened := sound.opened q member
    obtain ⟨tested, stopped⟩ := current q member
    have noBegin : ¬BeginsStop q.file s.sys b := by
      intro begins
      obtain ⟨off, _⟩ := flags_of_beginsStop sound.placed sound.fit opened begins
      rw [stopped] at off
      contradiction
    rcases s.stops_acted b q.file with ⟨begins, _⟩ | ⟨_, kept⟩
    · exact absurd begins noBegin
    · refine ⟨tested.trans kept.symm, ?_⟩
      rcases flags_next enabled (s.not_resume_of_separate separate) q.file with ⟨p, add, _⟩
        | ⟨close, _⟩ | ⟨begins, _⟩ | ⟨ends, _⟩ | ⟨_, _, same, _⟩
      · simp [add, State.enabled, opened] at enabled
      · exact absurd close (s.ne_close_of_separate separate member)
      · exact absurd begins noBegin
      · exact absurd rfl (guard q.file b act ends q member)
      · exact same.trans stopped

/-- The stop `k` of the file, or the last one before it, is over. -/
def Over (k : Nat) (f : FileId) (s : Racing) : Prop :=
  k ≤ s.stops f ∧ (k = s.stops f → (s.sys.files f).data.stoppedFlag = false)

/-- A stop that is over stays so, whatever happens. -/
theorem Over.next {k : Nat} {f : FileId} (isOver : Over k f s) (taken : s.step a = some t)
    : Over k f t := by
  obtain ⟨begun, off⟩ := isOver
  rcases step_cases taken with ⟨g, call, act, _, passed⟩ | ⟨i, q, act, here, same⟩
    | ⟨b, act, enabled, separate, same⟩
  · rcases passed with ⟨_, same⟩ | same
    · subst same
      exact ⟨begun, off⟩
    · subst same
      exact ⟨begun, off⟩
  · subst same
    refine ⟨begun, ?_⟩
    intro equal
    rw [stoppedFlag_applied]
    exact off equal
  · subst same
    rcases s.stops_acted b f with ⟨_, more⟩ | ⟨noBegin, kept⟩
    · refine ⟨by omega, ?_⟩
      intro equal
      omega
    · refine ⟨kept.symm ▸ begun, ?_⟩
      intro equal
      have off := off (equal.trans kept)
      rw [sys_acted]
      rcases flags_next enabled (s.not_resume_of_separate separate) f with ⟨p, _, fresh⟩
        | ⟨_, same⟩ | ⟨begins, _⟩ | ⟨_, cleared, _⟩ | ⟨_, _, same, _⟩
      · rw [fresh]
        rfl
      · exact same.trans off
      · exact absurd begins noBegin
      · exact cleared
      · exact same.trans off

/-- As the callback clears the flags, the stop that a pending call has tested is over. -/
theorem Sound.over_of_endsStop (sound : Sound s) {b : Act} (enabled : s.sys.enabled b = true)
    (separate : s.separate b = true) {q : Pending} (member : q ∈ s.pending)
    (ends : EndsStop q.file s.sys b)
    : Over q.stop q.file (s.acted b) := by
  have begun := sound.begun q member
  obtain ⟨p, act, cur⟩ := ends
  refine ⟨?_, ?_⟩
  · rcases s.stops_acted b q.file with ⟨_, more⟩ | ⟨_, kept⟩
    · omega
    · omega
  · intro _
    rw [sys_acted]
    rcases flags_next enabled (s.not_resume_of_separate separate) q.file with ⟨_, add, _⟩
      | ⟨close, _⟩ | ⟨⟨p', act', cur'⟩, _⟩ | ⟨_, cleared, _⟩ | ⟨_, notEnd, _⟩
    · cases act.symm.trans add
    · cases act.symm.trans close
    · cases act.symm.trans act'
      rw [cur] at cur'
      cases cur'
    · exact cleared
    · exact absurd ⟨p, act, cur⟩ notEnd

/-- The step is the effect of this pending call. -/
def Takes (q : Pending) (s : Racing) (a : RaceAct) : Prop :=
  ∃ i, a = .effect i ∧ s.pending[i]? = some q

/-- A pending call stays so until its effect. -/
theorem mem_pending_next {q : Pending} (taken : s.step a = some t) (member : q ∈ s.pending)
    (notTaken : ¬Takes q s a)
    : q ∈ t.pending := by
  rcases step_cases taken with ⟨f, call, act, _, passed⟩ | ⟨i, r, act, here, same⟩
    | ⟨b, act, _, _, same⟩
  · rcases passed with ⟨_, same⟩ | same
    · subst same
      exact List.mem_append_left _ member
    · subst same
      exact member
  · subst same
    obtain ⟨j, there⟩ := List.mem_iff_getElem?.mp member
    refine List.mem_eraseIdx_iff_getElem?.mpr ⟨j, ?_, there⟩
    intro equal
    subst equal
    exact notTaken ⟨j, act, there⟩
  · subst same
    exact member

end Racing

/-- While flags are cleared only with no call between test and effect, every call takes effect
in its own stop.
-/
theorem effectInStop_of_endsAlone {regs : Pid → Regs} {acts : List RaceAct}
    (alone : Along Racing.step EndsAlone (.initial regs) acts)
    : Along Racing.step EffectInStop (.initial regs) acts := by
  have both : Throughout Racing.step (fun s => s.Sound ∧ s.Current) (.initial regs) acts := by
    refine invariant EndsAlone ⟨Racing.sound_initial regs, ?_⟩ ?_ alone
    · intro q member
      contradiction
    · intro s a t ⟨sound, current⟩ guard taken
      exact ⟨sound.next (current.effectInStop sound) taken, current.next sound guard taken⟩
  intro before a after s split reached
  obtain ⟨sound, current⟩ := both before (a :: after) s split reached
  exact current.effectInStop sound

theorem sound_throughout {regs : Pid → Regs} {acts : List RaceAct}
    (inStop : Along Racing.step EffectInStop (.initial regs) acts)
    : Throughout Racing.step Racing.Sound (.initial regs) acts :=
  invariant EffectInStop (Racing.sound_initial regs)
    (fun _ _ _ sound guard taken => sound.next guard taken) inStop

/-- While every call takes effect in its own stop, the target leaves none for another. -/
theorem leavesByOwn_of_effectInStop {regs : Pid → Regs} {acts : List RaceAct}
    (inStop : Along Racing.step EffectInStop (.initial regs) acts)
    : Along Racing.step LeavesByOwn (.initial regs) acts := by
  intro before a after s split reached p f pc _ _ _ opened continued
  have sound := sound_throughout inStop before (a :: after) s split reached
  exact ⟨(sound.resumed f opened).mp continued, sound.own f opened⟩

/-- A call that is between test and effect as the flags are cleared takes effect too late. -/
theorem endsAlone_of_effectInStop {regs : Pid → Regs} {acts : List RaceAct} {final : Racing}
    (run : exec Racing.step (.initial regs) acts = some final) (done : final.pending = [])
    (inStop : Along Racing.step EffectInStop (.initial regs) acts)
    : Along Racing.step EndsAlone (.initial regs) acts := by
  have sound := sound_throughout inStop
  intro before a after s split reached f b act ends q member own
  subst split
  subst act
  subst own
  obtain ⟨t, taken, rest⟩ := exists_step_of_split run reached
  have isOver : Racing.Over q.stop q.file t := by
    rcases Racing.step_cases taken with ⟨_, _, other, _⟩ | ⟨_, _, other, _⟩
      | ⟨_, same, enabled, separate, now⟩
    · contradiction
    · contradiction
    · cases same
      subst now
      exact (sound before (.act b :: after) s rfl reached).over_of_endsStop enabled separate
        member ends
  have still : q ∈ t.pending := by
    apply Racing.mem_pending_next taken member
    intro ⟨i, other, _⟩
    contradiction
  -- the run ends with no call pending, so this one takes effect in between
  have effect : Occurs Racing.step (Racing.Takes q) t after := by
    by_contra absent
    have left : q ∈ final.pending :=
      holds_until (fun s : Racing => q ∈ s.pending) (Racing.Takes q) still
        (fun _ _ _ _ _ _ member notTaken _ taken =>
          Racing.mem_pending_next taken member notTaken) absent rest
    rw [done] at left
    contradiction
  obtain ⟨first, c, last, u, split, here, i, act, there⟩ := effect
  subst split
  subst act
  have whole : before ++ .act b :: (first ++ .effect i :: last)
      = (before ++ .act b :: first) ++ .effect i :: last := by simp
  have reachedU := exec_through reached taken here
  obtain ⟨current, inside⟩ := inStop _ _ _ u whole reachedU i q rfl there
  have soundU := sound _ _ u whole reachedU
  have stopped := (inStop_iff soundU.fit
    (soundU.opened q (List.mem_of_getElem? there))).mp inside
  have stays : Throughout Racing.step (Racing.Over q.stop q.file) t (first ++ .effect i :: last) :=
    invariant_of_step _ isOver (fun _ _ _ holds taken => holds.next taken)
  have off := (stays first (.effect i :: last) u rfl here).2 current
  rw [stopped] at off
  contradiction

/-- No call takes effect outside the stop that it has tested, and no target leaves a stop for a
command that had tested another.
-/
def StopsRespected (s : Racing) (acts : List RaceAct) : Prop :=
  Along Racing.step EffectInStop s acts ∧ Along Racing.step LeavesByOwn s acts

/-- In every run that clears the flags only with no call between test and effect, stops are
respected; and in a run that completes its calls, only then.
-/
theorem stopsRespected_iff (regs : Pid → Regs) (acts : List RaceAct) (final : Racing)
    (run : exec Racing.step (.initial regs) acts = some final)
    : (Along Racing.step EndsAlone (.initial regs) acts → StopsRespected (.initial regs) acts)
      ∧ (final.pending = [] → StopsRespected (.initial regs) acts
        → Along Racing.step EndsAlone (.initial regs) acts) := by
  refine ⟨?_, ?_⟩
  · intro alone
    have inStop := effectInStop_of_endsAlone alone
    exact ⟨inStop, leavesByOwn_of_effectInStop inStop⟩
  · intro done ⟨inStop, _⟩
    exact endsAlone_of_effectInStop run done inStop

/-- A breakpoint is set and hit, its target stops, and two callers test for a `CONTINUE`. -/
def bothTest : List RaceAct :=
  [.act (.addBp 0 1), .act (.hit 0), .act (.start 1 0), .act (.advance 1),
    .test 0 .bpContinue, .test 0 .bpContinue]

/-- The target announces the stop, goes on and clears the flags. -/
def leaveStop : List RaceAct :=
  [.act (.advance 1), .act (.advance 1), .act (.advance 1), .act (.advance 1)]

/-- Both callers continue the target while it is stopped. -/
def bothContinue : List RaceAct := bothTest ++ [.effect 0, .effect 0] ++ leaveStop

theorem stopsRespected_iff_bothContinue
    : (Along Racing.step EndsAlone (.initial blankRegs) bothContinue
        → StopsRespected (.initial blankRegs) bothContinue)
      ∧ (([] : List Pending) = [] → StopsRespected (.initial blankRegs) bothContinue
        → Along Racing.step EndsAlone (.initial blankRegs) bothContinue) :=
  stopsRespected_iff blankRegs bothContinue _ rfl

/-- One caller continues the target, which is hit again before the other one does. -/
def continueLate : List RaceAct :=
  bothTest ++ .effect 0 :: leaveStop
    ++ [.act (.hit 0), .act (.start 1 0), .act (.advance 1), .effect 0, .act (.advance 1),
      .act (.advance 1)]

/-- The late command takes effect in a stop that it has not tested, and the target leaves this
stop for no other command.
-/
theorem continueLate_not_stopsRespected
    : (exec Racing.step (.initial blankRegs) continueLate).isSome
      ∧ ¬Along Racing.step EffectInStop (.initial blankRegs) continueLate
      ∧ ¬Along Racing.step LeavesByOwn (.initial blankRegs) continueLate := by
  refine ⟨rfl, ?_, ?_⟩
  · intro inStop
    obtain ⟨same, _⟩ := inStop (continueLate.take 14) (.effect 0) (continueLate.drop 15) _ rfl rfl
      0 _ rfl rfl
    contradiction
  · intro own
    obtain ⟨_, tested⟩ := own (continueLate.take 16) (.act (.advance 1)) [] _ rfl rfl
      1 0 .waitContinue rfl rfl (Or.inl rfl) rfl rfl
    have stale := tested 1 List.mem_cons_self
    contradiction

end RwMem.Breakpoint
