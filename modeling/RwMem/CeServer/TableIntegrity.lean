import RwMem.CeServer.ApiTable
import RwMem.Transition.Runs

/-! The table of handles over any run of calls: which handles are there, what they lead to, and that
a process has one handle.
-/

namespace RwMem.CeServer

open Collections RwMem.Driver Transition

/-- A call of `CApi` with what it is given. -/
structure Invocation where
  call : ApiCall
  env : Environment

def invocationStep (s : ApiState) (a : Invocation) : Option ApiState :=
  (s.answer a.env a.call).map Prod.snd

/-- The search for a process finds its handle, if there is one, by induction on the entries. -/
theorem findInEntries_ne_zero {s : ApiState} {pid : Int} {entries : List ((_ : Int) × HandleInfo)}
    (positive : ∀ entry ∈ entries, 0 < entry.1) {entry : (_ : Int) × HandleInfo}
    {process : CeOpenProcess} (member : entry ∈ entries) (type : entry.2.type = .htProcesHandle)
    (here : s.openProcessAt entry.2.p = some process) (same : process.pid = pid)
    : s.findInEntries pid entries ≠ some 0 := by
  induction entries with
  | nil => cases member
  | cons first rest ih =>
      have later := ih (fun e member => positive e (List.mem_cons_of_mem _ member))
      obtain ⟨handle, info⟩ := first
      have pos : 0 < handle := positive _ List.mem_cons_self
      rw [ApiState.findInEntries]
      rcases List.mem_cons.mp member with rfl | member
      · rw [if_pos type, here, Option.bind_some, if_pos same]
        intro zero
        have zero := Option.some.inj zero
        omega
      · split
        · intro zero
          obtain ⟨other, _, zero⟩ := Option.bind_eq_some_iff.mp zero
          split at zero
          · have zero := Option.some.inj zero
            omega
          · exact later member zero
        · exact later member

/-- No two handles are for one process. -/
def OneHandle (s : ApiState) : Prop :=
  ∀ h h' pid, Refers s h pid → Refers s h' pid → h = h'

/-- A process that the search does not find has no handle. -/
theorem not_refers_of_findHandleByPID {s : ApiState} (ok : TableOk s) {pid : Int}
    (found : s.findHandleByPID pid = some 0) (h : Int)
    : ¬Refers s h pid := by
  intro refers
  obtain ⟨process, ⟨info, listed, type, here⟩, same⟩ := refers
  have positive : ∀ entry ∈ s.handles.entries, 0 < entry.1 := fun entry member =>
    ok.positive entry.1 entry.2 (OrderedMap.mem_entries_iff.mp member)
  have member := OrderedMap.mem_entries_iff.mpr listed
  exact findInEntries_ne_zero positive member type here same found

/-- Behind a new handle every handle is for the process that it was for, or is the new one. -/
theorem Refers.of_insert {s : ApiState} {h j pid : Int} {p : Nat} {object : Object}
    (ok : TableOk s) (absent : s.handles.find? h = none) (fresh : s.heap p = none)
    (refers : Refers
      { handles := s.handles.insert h ⟨p, object.handleType⟩
        heap := Function.update s.heap p (some object) } j pid)
    : (j = h ∧ ∃ process, object = .openProcess process ∧ process.pid = pid)
      ∨ Refers s j pid := by
  obtain ⟨process, ⟨info, found, type, here⟩, same⟩ := refers
  rw [OrderedMap.find?_insert absent] at found
  split at found
  · next new =>
      cases found
      have here := (Function.update_self _ _ _).symm.trans (openProcessAt_eq_some.mp here)
      exact Or.inl ⟨new, process, Option.some.inj here, same⟩
  · have apart : info.p ≠ p := by
      intro one
      have live := ok.typed j info found
      rw [one, fresh] at live
      cases live
    refine Or.inr ⟨process, ⟨info, found, type, ?_⟩, same⟩
    exact (openProcessAt_congr (Function.update_of_ne apart _ _)).symm.trans here

/-- A handle that is left behind a removal is for the process that it was for. -/
theorem Refers.of_removeHandle {s : ApiState} {h j pid : Int}
    (refers : Refers (s.removeHandle h) j pid)
    : Refers s j pid := by
  obtain ⟨process, ⟨info, found, there⟩, same⟩ := refers
  rw [ApiState.removeHandle, OrderedMap.find?_erase] at found
  split at found
  · cases found
  · exact ⟨process, ⟨info, found, there⟩, same⟩

theorem Refers.of_erase {s : ApiState} (ok : TableOk s) {h j pid : Int} {info : HandleInfo}
    (closed : s.handles.find? h = some info)
    (refers : Refers
      { handles := s.handles.erase h, heap := Function.update s.heap info.p none } j pid)
    : Refers s j pid := by
  obtain ⟨process, ⟨info', found, type, here⟩, same⟩ := refers
  rw [OrderedMap.find?_erase] at found
  split at found
  · cases found
  · next other =>
      have apart : info'.p ≠ info.p := fun one => other (ok.apart j h info' info found closed one)
      refine ⟨process, ⟨info', found, type, ?_⟩, same⟩
      exact (openProcessAt_congr (Function.update_of_ne apart _ _)).symm.trans here

/-- So is every handle behind a change of one object. -/
theorem Refers.of_update {s : ApiState} {j pid : Int} {info : HandleInfo} {object : Object}
    (process : ∀ process, object = .openProcess process →
      ∃ old, s.heap info.p = some (.openProcess old) ∧ process.pid = old.pid
        ∧ process.u64DriverProcessHandle = old.u64DriverProcessHandle)
    (refers : Refers { s with heap := Function.update s.heap info.p (some object) } j pid)
    : Refers s j pid := by
  obtain ⟨process', ⟨info', found, type, here⟩, same⟩ := refers
  by_cases one : info'.p = info.p
  · have here := openProcessAt_eq_some.mp here
    dsimp only at here
    rw [one, Function.update_self] at here
    obtain ⟨old, live, pid', _⟩ := process process' (Option.some.inj here)
    refine ⟨old, ⟨info', found, type, ?_⟩, pid'.symm.trans same⟩
    rw [one]
    exact openProcessAt_eq_some.mpr live
  · refine ⟨process', ⟨info', found, type, ?_⟩, same⟩
    exact (openProcessAt_congr (Function.update_of_ne one _ _)).symm.trans here

/-- Every call leaves a process with at most one handle. -/
theorem Effect.oneHandle {s t : ApiState} (effect : Effect s t) (ok : TableOk s)
    (one : OneHandle s)
    : OneHandle t := by
  intro j j' pid refers refers'
  cases effect with
  | unchanged => exact one j j' pid refers refers'
  | removed absent => exact one j j' pid refers.of_removeHandle refers'.of_removeHandle
  | closed found => exact one j j' pid (refers.of_erase ok found) (refers'.of_erase ok found)
  | changed found type process =>
      exact one j j' pid (refers.of_update process) (refers'.of_update process)
  | @created h p object absent pos fresh process =>
      have unopened {process' : CeOpenProcess} (same : object = .openProcess process')
          (named : process'.pid = pid) (i : Int) : ¬Refers s i pid := by
        have searched := (process process' same).2
        rw [named] at searched
        exact not_refers_of_findHandleByPID ok searched i
      rcases refers.of_insert ok absent fresh with ⟨new, opened, same, named⟩ | old
      · rcases refers'.of_insert ok absent fresh with ⟨new', _⟩ | old'
        · rw [new, new']
        · exact absurd old' (unopened same named j')
      · rcases refers'.of_insert ok absent fresh with ⟨_, opened, same, named⟩ | old'
        · exact absurd old (unopened same named j)
        · exact one j j' pid old old'

/-- The numbers of the handles are positive and they lead to different live objects of their types,
a process has at most one handle, which is what the search for it finds, and every call is answered
that is given what it needs; `threadList` stands for a read without a test.
-/
structure TableIntegrity (s : ApiState) : Prop where
  positive : ∀ h info, s.handles.find? h = some info → 0 < h
  typed : ∀ h info, s.handles.find? h = some info →
    (s.heap info.p).map Object.handleType = some info.type
  apart : ∀ h h' info info', s.handles.find? h = some info → s.handles.find? h' = some info' →
    info.p = info'.p → h = h'
  one : ∀ h h' pid, Refers s h pid → Refers s h' pid → h = h'
  searched : ∀ h pid, h ≠ 0 → (s.findHandleByPID pid = some h ↔ Refers s h pid)
  answered : ∀ env call, (ApiCall.creates call = true → Supplied s env.supply) →
    (∀ h, call ≠ .threadList h) → ∃ result, s.answer env call = some result

/-- A call keeps every handle with its pointer and type but the one that it closes; a handle that is
there only behind it was not there before, and leads to an object that no handle led to.
-/
structure KeepsHandles (s : ApiState) (call : ApiCall) (t : ApiState) : Prop where
  kept : ∀ h info, s.handles.find? h = some info → call ≠ .closeHandle h →
    t.handles.find? h = some info
  closed : ∀ h, call = .closeHandle h → t.handles.find? h = none
  made : ∀ h info, t.handles.find? h = some info → s.handles.find? h = some info
    ∨ (s.handles.find? h = none ∧ call.creates = true ∧ s.heap info.p = none
      ∧ ∀ h' info', s.handles.find? h' = some info' → info'.p ≠ info.p)

/-- A call made this number for an object: it was no handle before, and is one with the pointer and
the type of the object, which lies where nothing lay.
-/
structure IsNew (s t : ApiState) (address : Nat) (object : Object) (h : Int) : Prop where
  positive : 0 < h
  absent : s.handles.find? h = none
  free : s.heap address = none
  listed : t.handles.find? h = some ⟨address, object.handleType⟩
  lives : t.heap address = some object

/-- What the calls that make handles answer. `OpenProcess` gives the handle that the process has,
and only for one that has none a new handle, or 0 for the process 0; a snapshot is new, or 0 with
nothing made.
-/
def AnswersHandle (env : Environment) (s t : ApiState) : (call : ApiCall) → call.Reply → Prop
  | .openProcess pid, (h : Int) =>
      (Refers s h pid ∧ t = s)
      ∨ ((∀ j, ¬Refers s j pid) ∧ toUint64 pid = 0 ∧ h = 0 ∧ t = s)
      ∨ ((∀ j, ¬Refers s j pid)
        ∧ IsNew s t env.supply.address (.openProcess ⟨pid, toUint64 pid, [], 0⟩) h)
  | .createToolhelp32Snapshot dwFlags _, (h : Int) =>
      (h = 0 ∧ t = s)
      ∨ ∃ object,
          object.handleType = snapshotType dwFlags ∧ IsNew s t env.supply.address object h
  | _, _ => True

theorem TableOk.integrity {s : ApiState} (ok : TableOk s) (one : OneHandle s)
    : TableIntegrity s := by
  refine ⟨ok.positive, ok.typed, ok.apart, one, fun h pid present => ?_,
    fun env call supplied other => ok.exists_answer supplied other⟩
  constructor
  · intro found
    obtain ⟨process, here, same⟩ := findHandleByPID_spec found present
    exact ⟨process, here, same⟩
  · intro refers
    obtain ⟨hm, found⟩ := ok.exists_findInEntries pid (fun _ member => member)
    have searched : s.findHandleByPID pid = some hm := found
    have opened : hm ≠ 0 := by
      intro zero
      rw [zero] at searched
      exact not_refers_of_findHandleByPID ok searched h refers
    obtain ⟨process, here, same⟩ := findHandleByPID_spec searched opened
    rw [searched, one hm h pid ⟨process, here, same⟩ refers]

theorem handles_of_moveIter {α : Type} {kind : SnapshotKind α} {s t : ApiState} {h : Int}
    {move : Nat → Nat} {behind : Nat → α} {reply : Option α}
    (moved : s.moveIter kind move behind h = some (reply, t))
    : t.handles = s.handles := by
  rw [ApiState.moveIter] at moved
  split at moved
  · obtain ⟨_, _, same⟩ := Option.map_eq_some_iff.mp moved
    cases same
    rfl
  · cases moved
    rfl

theorem handles_of_onlyCache {s t : ApiState} (cache : OnlyCache s t) : t.handles = s.handles := by
  rcases cache with rfl | ⟨_, _, _, _, _, _, rfl⟩
  · rfl
  · rfl

/-- The table is changed only by calls that make or close a handle. -/
theorem handles_of_answer {env : Environment} {call : ApiCall} {s t : ApiState}
    {reply : call.Reply} (ok : TableOk s) (answered : s.answer env call = some (reply, t))
    (creates : call.creates = false) (closes : ∀ h, call ≠ .closeHandle h)
    : t.handles = s.handles := by
  cases call with
  | closeHandle h => exact absurd rfl (closes h)
  | createToolhelp32Snapshot dwFlags pid => cases creates
  | openProcess pid => cases creates
  | process32First h =>
      have moved : s.moveIter processSnapshot (fun _ => 0) env.processBehind h = some (reply, t) :=
        answered
      exact handles_of_moveIter moved
  | process32Next h =>
      have moved : s.moveIter processSnapshot (fun readIter => readIter + 1) env.processBehind h
          = some (reply, t) := answered
      exact handles_of_moveIter moved
  | module32First h =>
      have moved : s.moveIter moduleSnapshot (fun _ => 0) env.moduleBehind h = some (reply, t) :=
        answered
      exact handles_of_moveIter moved
  | module32Next h =>
      have moved : s.moveIter moduleSnapshot (fun readIter => readIter + 1) env.moduleBehind h
          = some (reply, t) := answered
      exact handles_of_moveIter moved
  | moduleEntries h =>
      by_cases typed : s.getHandleType h = .htTHSModule
      · have typed : s.getHandleType h = moduleSnapshot.type := typed
        obtain ⟨_, _, snapshot⟩ := ok.exists_snapshot typed
        cases (moduleEntries_eq snapshot).symm.trans answered
        rfl
      · cases (moduleEntries_of_type_ne typed).symm.trans answered
        rfl
  | virtualQueryExFull h flags => exact handles_of_onlyCache (virtualQueryExFull_onlyCache answered)
  | virtualQueryEx h address => exact handles_of_onlyCache (virtualQueryEx_onlyCache answered)
  | threadList h =>
      obtain ⟨_, _, same⟩ := Option.map_eq_some_iff.mp answered
      cases same
      rfl
  | readProcessMemory h address size =>
      obtain ⟨_, _, same⟩ := Option.map_eq_some_iff.mp answered
      cases same
      rfl
  | writeProcessMemory h address buffer =>
      obtain ⟨_, _, same⟩ := Option.map_eq_some_iff.mp answered
      cases same
      rfl
  | deflate level input =>
      cases answered
      rfl
  | uninitialized =>
      cases answered
      rfl

theorem keepsHandles_of_handles {s t : ApiState} {call : ApiCall} (same : t.handles = s.handles)
    (closes : ∀ h, call ≠ .closeHandle h)
    : KeepsHandles s call t := by
  refine ⟨fun h info found _ => ?_, fun h isClose => absurd isClose (closes h),
    fun h info found => ?_⟩
  · rw [same, found]
  · rw [same] at found
    exact Or.inl found

/-- A new handle stands beside the others. -/
theorem keepsHandles_of_newHandle {s t : ApiState} (ok : TableOk s) {supply : Supply}
    {object : Object} {call : ApiCall} {h : Int}
    (made : s.newHandle supply object = some (h, t)) (creates : call.creates = true)
    (closes : ∀ h, call ≠ .closeHandle h)
    : KeepsHandles s call t := by
  obtain ⟨absent, _, fresh, rfl⟩ := newHandle_cases made
  refine ⟨fun j info found _ => ?_, fun j isClose => absurd isClose (closes j),
    fun j info found => ?_⟩
  · have other : j ≠ h := by
      intro same
      rw [same, absent] at found
      cases found
    rw [OrderedMap.find?_insert absent, if_neg other, found]
  · rw [OrderedMap.find?_insert absent] at found
    split at found
    · next new =>
        cases found
        rw [new]
        refine Or.inr ⟨absent, creates, fresh, fun i info' listed same => ?_⟩
        have live := ok.typed i info' listed
        rw [same, fresh] at live
        cases live
    · exact Or.inl found

theorem isNew_of_newHandle {s t : ApiState} {supply : Supply} {object : Object} {h : Int}
    (made : s.newHandle supply object = some (h, t))
    : IsNew s t supply.address object h := by
  obtain ⟨absent, positive, free, rfl⟩ := newHandle_cases made
  refine ⟨positive, absent, free, ?_, Function.update_self _ _ _⟩
  rw [OrderedMap.find?_insert absent, if_pos rfl]

theorem answersHandle_of_openProcess {s t : ApiState} (ok : TableOk s) {env : Environment}
    {pid h : Int} (opened : s.openProcess env.supply pid = some (h, t))
    : AnswersHandle env s t (.openProcess pid) h := by
  obtain ⟨hm, found, opened⟩ := Option.bind_eq_some_iff.mp opened
  split at opened
  · next present =>
      cases opened
      exact Or.inl ⟨findHandleByPID_spec found present, rfl⟩
  · next absent =>
      rw [not_not.mp absent] at found
      have unknown := not_refers_of_findHandleByPID ok found
      dsimp only at opened
      split at opened
      · next zero =>
          cases opened
          exact Or.inr (Or.inl ⟨unknown, zero, rfl, rfl⟩)
      · exact Or.inr (Or.inr ⟨unknown, isNew_of_newHandle opened⟩)

/-- The number that is answered is the one that stands in the table. -/
theorem answersHandle_of_answer {env : Environment} {call : ApiCall} {s t : ApiState}
    {reply : call.Reply} (ok : TableOk s) (answered : s.answer env call = some (reply, t))
    : AnswersHandle env s t call reply := by
  cases call with
  | openProcess pid => exact answersHandle_of_openProcess ok answered
  | createToolhelp32Snapshot dwFlags pid =>
      rcases createToolhelp32Snapshot_cases answered with nothing | ⟨object, type, made⟩
      · exact Or.inl nothing
      · exact Or.inr ⟨object, type, isNew_of_newHandle made⟩
  | _ => trivial

theorem keepsHandles_of_closeHandle {s t : ApiState} (ok : TableOk s) {h : Int}
    (closed : s.closeHandle h = some t)
    : KeepsHandles s (.closeHandle h) t := by
  have erased : t.handles = s.handles.erase h := by
    cases found : s.handles.find? h with
    | none =>
        cases (closeHandle_of_absent found).symm.trans closed
        rfl
    | some info =>
        cases (closeHandle_of_find ok found).symm.trans closed
        rfl
  refine ⟨fun j info found other => ?_, fun j same => ?_, fun j info found => ?_⟩
  · rw [erased, OrderedMap.find?_erase, if_neg (fun same => other (by rw [same])), found]
  · cases same
    rw [erased, OrderedMap.find?_erase, if_pos rfl]
  · rw [erased, OrderedMap.find?_erase] at found
    split at found
    · cases found
    · exact Or.inl found

/-- The calls that make a handle answer with one or leave everything as it is. -/
theorem keepsHandles_of_creates {env : Environment} {call : ApiCall} {s t : ApiState}
    {reply : call.Reply} (ok : TableOk s) (answered : s.answer env call = some (reply, t))
    (creates : call.creates = true) (closes : ∀ h, call ≠ .closeHandle h)
    : KeepsHandles s call t := by
  cases call with
  | createToolhelp32Snapshot dwFlags pid =>
      rcases createToolhelp32Snapshot_cases answered with ⟨_, rfl⟩ | ⟨object, _, made⟩
      · exact keepsHandles_of_handles rfl closes
      · exact keepsHandles_of_newHandle ok made creates closes
  | openProcess pid =>
      rcases openProcess_newHandle answered with rfl | ⟨_, made⟩
      · exact keepsHandles_of_handles rfl closes
      · exact keepsHandles_of_newHandle ok made creates closes
  | _ => cases creates

theorem keepsHandles_of_invocationStep {s t : ApiState} (ok : TableOk s) {a : Invocation}
    (taken : invocationStep s a = some t)
    : KeepsHandles s a.call t := by
  obtain ⟨call, env⟩ := a
  obtain ⟨⟨reply, t'⟩, answered, same⟩ := Option.map_eq_some_iff.mp taken
  obtain rfl : t' = t := same
  by_cases closes : ∃ h, call = .closeHandle h
  · obtain ⟨h, rfl⟩ := closes
    obtain ⟨_, closed, same⟩ := Option.map_eq_some_iff.mp answered
    cases same
    exact keepsHandles_of_closeHandle ok closed
  · have closes : ∀ h, call ≠ .closeHandle h := fun h same => closes ⟨h, same⟩
    cases creates : call.creates with
    | true => exact keepsHandles_of_creates ok answered creates closes
    | false => exact keepsHandles_of_handles (handles_of_answer ok answered creates closes) closes

theorem effect_of_invocationStep {s t : ApiState} (ok : TableOk s) {a : Invocation}
    (taken : invocationStep s a = some t)
    : Effect s t := by
  obtain ⟨⟨reply, t'⟩, answered, same⟩ := Option.map_eq_some_iff.mp taken
  obtain rfl : t' = t := same
  exact effect_of_answer ok answered

theorem oneHandle_initial : OneHandle .initial := by
  intro h h' pid refers
  obtain ⟨_, ⟨_, found, _⟩, _⟩ := refers
  cases found

/-- Over every run of calls with any operands and any random words the table keeps its integrity in
every state, every call keeps the handles that it does not close, and a call that makes a handle
answers the number of it.
-/
theorem tableIntegrity_throughout (acts : List Invocation)
    : Throughout invocationStep TableIntegrity .initial acts
      ∧ Along invocationStep
          (fun s a => ∀ t, invocationStep s a = some t → KeepsHandles s a.call t) .initial acts
      ∧ Along invocationStep
          (fun s a => ∀ reply t, s.answer a.env a.call = some (reply, t)
            → AnswersHandle a.env s t a.call reply)
          .initial acts := by
  have known : Throughout invocationStep (fun s => TableOk s ∧ OneHandle s) .initial acts := by
    refine invariant_of_step acts ⟨tableOk_initial, oneHandle_initial⟩ ?_
    intro s a t before taken
    have effect := effect_of_invocationStep before.1 taken
    exact ⟨effect.tableOk before.1, effect.oneHandle before.1 before.2⟩
  refine ⟨?_, ?_, ?_⟩
  · intro before after t split reached
    obtain ⟨ok, one⟩ := known before after t split reached
    exact ok.integrity one
  · intro before a after s split reached t taken
    obtain ⟨ok, _⟩ := known before (a :: after) s split reached
    exact keepsHandles_of_invocationStep ok taken
  · intro before a after s split reached reply t answered
    obtain ⟨ok, _⟩ := known before (a :: after) s split reached
    exact answersHandle_of_answer ok answered

end RwMem.CeServer
