import RwMem.CeServer.Handles

/-! What every operation keeps of the table of handles, and what it does to the handles and to the
objects behind them.
-/

namespace RwMem.CeServer

open Collections RwMem.Driver

/-- The handles are positive, lead to live objects of their types, and no two lead to one object;
an open process is known to the driver under its number.
-/
structure TableOk (s : ApiState) : Prop where
  positive : ∀ h info, s.handles.find? h = some info → 0 < h
  typed : ∀ h info, s.handles.find? h = some info →
    (s.heap info.p).map Object.handleType = some info.type
  apart : ∀ h h' info info', s.handles.find? h = some info → s.handles.find? h' = some info' →
    info.p = info'.p → h = h'
  driver : ∀ p process, s.openProcessAt p = some process →
    process.u64DriverProcessHandle = toUint64 process.pid

theorem tableOk_initial : TableOk .initial where
  positive _ _ found := by cases found
  typed _ _ found := by cases found
  apart _ _ _ _ found := by cases found
  driver _ _ found := by cases found

/-- The handle is that of an open process. -/
def IsProcess (s : ApiState) (h : Int) (process : CeOpenProcess) : Prop :=
  ∃ info, s.handles.find? h = some info ∧ info.type = .htProcesHandle
    ∧ s.openProcessAt info.p = some process

theorem openProcessAt_eq_some {s : ApiState} {p : Nat} {process : CeOpenProcess}
    : s.openProcessAt p = some process ↔ s.heap p = some (.openProcess process) := by
  rw [ApiState.openProcessAt]
  split
  · next found => simp [found]
  · next other =>
      constructor
      · intro none
        cases none
      · intro found
        exact absurd found (other process)

theorem openProcessAt_congr {s t : ApiState} {p : Nat} (same : t.heap p = s.heap p)
    : t.openProcessAt p = s.openProcessAt p := by
  rw [ApiState.openProcessAt, ApiState.openProcessAt, same]

theorem getHandleType_of_find {s : ApiState} {h : Int} {info : HandleInfo}
    (found : s.handles.find? h = some info)
    : s.getHandleType h = info.type := by
  rw [ApiState.getHandleType, found]
  rfl

theorem getPointerFromHandle_of_find {s : ApiState} {h : Int} {info : HandleInfo}
    (found : s.handles.find? h = some info)
    : s.getPointerFromHandle h = info.p := by
  rw [ApiState.getPointerFromHandle, found]
  rfl

/-- The handles of a type have it in the table. -/
theorem exists_find_of_type {s : ApiState} {h : Int} {type : HandleType}
    (typed : s.getHandleType h = type) (nonempty : type ≠ .htEmpty)
    : ∃ info, s.handles.find? h = some info ∧ info.type = type := by
  rw [ApiState.getHandleType] at typed
  cases found : s.handles.find? h with
  | none =>
      rw [found] at typed
      exact absurd typed.symm nonempty
  | some info =>
      rw [found] at typed
      exact ⟨info, rfl, typed⟩

theorem find_of_getHandleType {s : ApiState} {h : Int} (process : s.getHandleType h = .htProcesHandle)
    : ∃ info, s.handles.find? h = some info ∧ info.type = .htProcesHandle :=
  exists_find_of_type process (by decide)

/-- The check in front of the functions on a process lets exactly the open processes pass. -/
theorem processOf_eq_some {s : ApiState} {h : Int} {process : CeOpenProcess}
    : s.processOf h = some (some process) ↔ IsProcess s h process := by
  rw [ApiState.processOf]
  by_cases isProcess : s.getHandleType h = .htProcesHandle
  · obtain ⟨info, found, type⟩ := find_of_getHandleType isProcess
    rw [if_neg (not_not.mpr isProcess), getPointerFromHandle_of_find found]
    constructor
    · intro passed
      obtain ⟨process', here, same⟩ := Option.map_eq_some_iff.mp passed
      cases same
      exact ⟨info, found, type, here⟩
    · intro passed
      obtain ⟨info', found', _, here⟩ := passed
      cases found.symm.trans found'
      rw [here]
      rfl
  · rw [if_pos isProcess]
    constructor
    · intro passed
      cases passed
    · intro passed
      obtain ⟨info, found, type, _⟩ := passed
      exact absurd ((getHandleType_of_find found).trans type) isProcess

/-- The numbers made of random words are positive. -/
theorem handleOf_pos (rd : UInt32) : 0 < handleOf rd := by
  have bound := rd.toNat_lt
  have small : toInt ((10000 + rd.toNat / 1000 : Nat) : Int) = (10000 + rd.toNat / 1000 : Nat) :=
    Int.bmod_eq_of_le (by omega) (by omega)
  rw [handleOf, small, if_neg (by omega)]
  omega

/-- The number picked is new and was made of a random word. -/
theorem pickHandle_spec {handles : OrderedMap Int HandleInfo} {random : List UInt32} {h : Int}
    (picked : pickHandle handles random = some h)
    : handles.find? h = none ∧ 0 < h := by
  induction random with
  | nil => cases picked
  | cons rd rest ih =>
      rw [pickHandle] at picked
      split at picked
      · exact ih picked
      · next absent =>
          obtain rfl := Option.some.inj picked
          exact ⟨Option.not_isSome_iff_eq_none.mp absent, handleOf_pos rd⟩

/-- The search answers 0 or the handle of an open process with the number. -/
theorem findInEntries_spec {s : ApiState} {pid hm : Int} {entries : List ((_ : Int) × HandleInfo)}
    (found : s.findInEntries pid entries = some hm) (other : hm ≠ 0)
    : ∃ info process, ⟨hm, info⟩ ∈ entries ∧ info.type = .htProcesHandle
        ∧ s.openProcessAt info.p = some process ∧ process.pid = pid := by
  induction entries with
  | nil => exact absurd (Option.some.inj found).symm other
  | cons entry rest ih =>
      obtain ⟨handle, info⟩ := entry
      rw [ApiState.findInEntries] at found
      have later (found : s.findInEntries pid rest = some hm)
          : ∃ info' process, ⟨hm, info'⟩ ∈ (⟨handle, info⟩ :: rest : List ((_ : Int) × HandleInfo))
            ∧ info'.type = .htProcesHandle ∧ s.openProcessAt info'.p = some process
            ∧ process.pid = pid := by
        obtain ⟨info', process, member, rest⟩ := ih found
        exact ⟨info', process, List.mem_cons_of_mem _ member, rest⟩
      split at found
      · next isProcess =>
          obtain ⟨process, here, found⟩ := Option.bind_eq_some_iff.mp found
          split at found
          · next same =>
              obtain rfl := Option.some.inj found
              exact ⟨info, process, List.mem_cons_self, isProcess, here, same⟩
          · exact later found
      · exact later found

theorem findHandleByPID_spec {s : ApiState} {pid hm : Int}
    (found : s.findHandleByPID pid = some hm) (other : hm ≠ 0)
    : ∃ process, IsProcess s hm process ∧ process.pid = pid := by
  obtain ⟨info, process, member, type, here, same⟩ := findInEntries_spec found other
  exact ⟨process, ⟨info, OrderedMap.mem_entries_iff.mp member, type, here⟩, same⟩

/-- The pointer of a handle for a process leads to an open process. -/
theorem TableOk.exists_process {s : ApiState} (ok : TableOk s) {h : Int} {info : HandleInfo}
    (found : s.handles.find? h = some info) (type : info.type = .htProcesHandle)
    : ∃ process, s.openProcessAt info.p = some process := by
  have live := ok.typed h info found
  rw [type] at live
  obtain ⟨object, there, same⟩ := Option.map_eq_some_iff.mp live
  cases object with
  | openProcess process => exact ⟨process, openProcessAt_eq_some.mpr there⟩
  | processList list => cases same
  | moduleList list => cases same
  | threadList threads => cases same

/-- The check in front of the functions on a process never reads a pointer as what it is not. -/
theorem TableOk.exists_processOf {s : ApiState} (ok : TableOk s) (h : Int)
    : ∃ found, s.processOf h = some found := by
  rw [ApiState.processOf]
  split
  · exact ⟨none, rfl⟩
  · next isProcess =>
      obtain ⟨info, found, type⟩ := find_of_getHandleType (not_not.mp isProcess)
      obtain ⟨process, here⟩ := ok.exists_process found type
      rw [getPointerFromHandle_of_find found, here]
      exact ⟨some process, rfl⟩

/-- Nor does the search for a process, by induction on the entries. -/
theorem TableOk.exists_findInEntries {s : ApiState} (ok : TableOk s) (pid : Int)
    {entries : List ((_ : Int) × HandleInfo)}
    (listed : ∀ entry ∈ entries, entry ∈ s.handles.entries)
    : ∃ hm, s.findInEntries pid entries = some hm := by
  induction entries with
  | nil => exact ⟨0, rfl⟩
  | cons entry rest ih =>
      obtain ⟨handle, info⟩ := entry
      have later := ih (fun e member => listed e (List.mem_cons_of_mem _ member))
      rw [ApiState.findInEntries]
      split
      · next type =>
          have found := OrderedMap.mem_entries_iff.mp (listed ⟨handle, info⟩ List.mem_cons_self)
          obtain ⟨process, here⟩ := ok.exists_process found type
          rw [here, Option.bind_some]
          split
          · exact ⟨handle, rfl⟩
          · exact later
      · exact later

/-- With room for an object and a word for a new number, `OpenProcess` answers. -/
theorem TableOk.exists_openProcess {s : ApiState} (ok : TableOk s) {supply : Supply} (pid : Int)
    (room : supply.address ≠ 0 ∧ s.heap supply.address = none)
    (number : ∃ h, pickHandle s.handles supply.random = some h)
    : ∃ result, s.openProcess supply pid = some result := by
  obtain ⟨hm, found⟩ := ok.exists_findInEntries pid (fun _ member => member)
  have searched : s.findHandleByPID pid = some hm := found
  rw [ApiState.openProcess, searched, Option.bind_some]
  split
  · exact ⟨_, rfl⟩
  · dsimp only
    split
    · exact ⟨_, rfl⟩
    · obtain ⟨h, picked⟩ := number
      rw [ApiState.allocate, if_pos room, Option.bind_some, ApiState.createHandleFromPointer,
        picked]
      exact ⟨_, rfl⟩

/-- What `OpenProcess` can do: answer 0 or the handle that the process has, or make a new handle
for a new object.
-/
theorem openProcess_cases {s t : ApiState} {supply : Supply} {pid h : Int}
    (opened : s.openProcess supply pid = some (h, t))
    : (t = s ∧ (h ≠ 0 → ∃ process, IsProcess s h process ∧ process.pid = pid))
      ∨ (s.handles.find? h = none ∧ 0 < h ∧ s.heap supply.address = none
        ∧ t = { handles := s.handles.insert h ⟨supply.address, .htProcesHandle⟩
                heap := Function.update s.heap supply.address
                  (some (.openProcess ⟨pid, toUint64 pid, [], 0⟩)) }) := by
  obtain ⟨hm, found, opened⟩ := Option.bind_eq_some_iff.mp opened
  split at opened
  · next present =>
      cases opened
      exact Or.inl ⟨rfl, fun _ => findHandleByPID_spec found present⟩
  · dsimp only at opened
    split at opened
    · cases opened
      exact Or.inl ⟨rfl, fun nonzero => absurd rfl nonzero⟩
    · obtain ⟨s', allocated, opened⟩ := Option.bind_eq_some_iff.mp opened
      obtain ⟨fresh, same⟩ := Option.ite_none_right_eq_some.mp allocated
      cases same
      obtain ⟨handle, picked, same⟩ := Option.map_eq_some_iff.mp opened
      cases same
      obtain ⟨absent, pos⟩ := pickHandle_spec picked
      exact Or.inr ⟨absent, pos, fresh.2, rfl⟩

/-- A state with a new handle for a new object. -/
theorem TableOk.insert {s : ApiState} (ok : TableOk s) (object : Object) {h : Int} {p : Nat}
    (absent : s.handles.find? h = none) (pos : 0 < h) (fresh : s.heap p = none)
    (driver : ∀ process, object = .openProcess process →
      process.u64DriverProcessHandle = toUint64 process.pid)
    : TableOk
        { handles := s.handles.insert h ⟨p, object.handleType⟩
          heap := Function.update s.heap p (some object) } := by
  have apartOf {j : Int} {info : HandleInfo} (found : s.handles.find? j = some info)
      : info.p ≠ p := by
    intro same
    have live := ok.typed j info found
    rw [same, fresh] at live
    cases live
  refine ⟨fun j info found => ?_, fun j info found => ?_, fun j j' info info' found found' => ?_,
    fun q process found => ?_⟩
  · rw [OrderedMap.find?_insert absent] at found
    split at found
    · next same => rwa [same]
    · exact ok.positive j info found
  · rw [OrderedMap.find?_insert absent] at found
    split at found
    · cases found
      simp
    · exact (congrArg _ (Function.update_of_ne (apartOf found) _ _)).trans (ok.typed j info found)
  · rw [OrderedMap.find?_insert absent] at found found'
    intro same
    split at found <;> split at found'
    · next here here' => rw [here, here']
    · cases found
      exact absurd same.symm (apartOf found')
    · cases found'
      exact absurd same (apartOf found)
    · exact ok.apart j j' info info' found found' same
  · have there := openProcessAt_eq_some.mp found
    dsimp only at there
    by_cases here : q = p
    · rw [here, Function.update_self] at there
      exact driver process (Option.some.inj there)
    · rw [Function.update_of_ne here] at there
      exact ok.driver q process (openProcessAt_eq_some.mpr there)

/-- A handle that is not in the table has nothing to be deleted. -/
theorem closeHandle_of_absent {s : ApiState} {h : Int} (absent : s.handles.find? h = none)
    : s.closeHandle h = some (s.removeHandle h) := by
  have type : s.getHandleType h = .htEmpty := by
    rw [ApiState.getHandleType, absent]
    rfl
  rw [ApiState.closeHandle, ApiState.deleteObject, type]
  rfl

/-- A handle of the table is removed with its object, which is what its type says. -/
theorem closeHandle_of_find {s : ApiState} (ok : TableOk s) {h : Int} {info : HandleInfo}
    (found : s.handles.find? h = some info)
    : s.closeHandle h
      = some { handles := s.handles.erase h, heap := Function.update s.heap info.p none } := by
  have live := ok.typed h info found
  obtain ⟨object, _, type⟩ := Option.map_eq_some_iff.mp live
  have owned : info.type = .htTHSModule ∨ info.type = .htTHSProcess
      ∨ info.type = .htProcesHandle ∨ info.type = .htTHSThread := by
    rw [← type]
    cases object <;> simp [Object.handleType]
  rw [ApiState.closeHandle, getHandleType_of_find found, getPointerFromHandle_of_find found,
    ApiState.deleteObject, if_pos owned, if_pos live]
  rfl

theorem TableOk.exists_closeHandle {s : ApiState} (ok : TableOk s) (h : Int)
    : ∃ t, s.closeHandle h = some t := by
  cases found : s.handles.find? h with
  | none => exact ⟨_, closeHandle_of_absent found⟩
  | some info => exact ⟨_, closeHandle_of_find ok found⟩

/-- The state without a handle and its object. -/
theorem TableOk.erase {s : ApiState} (ok : TableOk s) {h : Int} {info : HandleInfo}
    (found : s.handles.find? h = some info)
    : TableOk { handles := s.handles.erase h, heap := Function.update s.heap info.p none } := by
  have kept {j : Int} {info' : HandleInfo}
      (found' : (s.handles.erase h).find? j = some info')
      : s.handles.find? j = some info' ∧ info'.p ≠ info.p := by
    rw [OrderedMap.find?_erase] at found'
    split at found'
    · cases found'
    · next other => exact ⟨found', fun same => other (ok.apart j h info' info found' found same)⟩
  refine ⟨fun j info' found' => ?_, fun j info' found' => ?_,
    fun j j' info' info'' found' found'' => ?_, fun q process there => ?_⟩
  · exact ok.positive j info' (kept found').1
  · exact (congrArg _ (Function.update_of_ne (kept found').2 _ _)).trans
      (ok.typed j info' (kept found').1)
  · exact ok.apart j j' info' info'' (kept found').1 (kept found'').1
  · have there := openProcessAt_eq_some.mp there
    dsimp only at there
    by_cases here : q = info.p
    · rw [here, Function.update_self] at there
      cases there
    · rw [Function.update_of_ne here] at there
      exact ok.driver q process (openProcessAt_eq_some.mpr there)

theorem TableOk.removeHandle {s : ApiState} (ok : TableOk s) (h : Int)
    : TableOk (s.removeHandle h) := by
  have kept {j : Int} {info : HandleInfo} (found : (s.handles.erase h).find? j = some info)
      : s.handles.find? j = some info := by
    rw [OrderedMap.find?_erase] at found
    split at found
    · cases found
    · exact found
  exact ⟨fun j info found => ok.positive j info (kept found),
    fun j info found => ok.typed j info (kept found),
    fun j j' info info' found found' => ok.apart j j' info info' (kept found) (kept found'),
    ok.driver⟩

/-- The object of a handle may be replaced by one of its type. -/
theorem TableOk.update {s : ApiState} (ok : TableOk s) {h : Int} {info : HandleInfo}
    {object : Object} (found : s.handles.find? h = some info)
    (type : object.handleType = info.type)
    (driver : ∀ process, object = .openProcess process →
      process.u64DriverProcessHandle = toUint64 process.pid)
    : TableOk { s with heap := Function.update s.heap info.p (some object) } := by
  refine ⟨ok.positive, fun j info' found' => ?_, ok.apart, fun q process live => ?_⟩
  · by_cases same : info'.p = info.p
    · have one := ok.apart j h info' info found' found same
      rw [one, found] at found'
      obtain rfl := Option.some.inj found'
      exact (congrArg _ (Function.update_self _ _ _)).trans (congrArg some type)
    · exact (congrArg _ (Function.update_of_ne same _ _)).trans (ok.typed j info' found')
  · have live := openProcessAt_eq_some.mp live
    dsimp only at live
    by_cases same : q = info.p
    · rw [same, Function.update_self] at live
      exact driver process (Option.some.inj live)
    · rw [Function.update_of_ne same] at live
      exact ok.driver q process (openProcessAt_eq_some.mpr live)

/-- Another cache of an open process keeps the table. -/
theorem TableOk.setProcess {s : ApiState} (ok : TableOk s) {h : Int}
    {process process' : CeOpenProcess} (here : IsProcess s h process)
    (pid : process'.pid = process.pid)
    (driver : process'.u64DriverProcessHandle = process.u64DriverProcessHandle)
    : TableOk (s.setProcess h process') := by
  obtain ⟨info, found, type, there⟩ := here
  rw [ApiState.setProcess, getPointerFromHandle_of_find found]
  refine ok.update found type.symm ?_
  intro process'' same
  cases same
  rw [driver, pid]
  exact ok.driver info.p process there

/-- The handle is that of an open process with the number. -/
def Refers (s : ApiState) (h pid : Int) : Prop :=
  ∃ process, IsProcess s h process ∧ process.pid = pid

/-- A new object leaves the processes of the other handles. -/
theorem Refers.insert {s : ApiState} {h j pid : Int} {p : Nat} (refers : Refers s j pid)
    (object : Object) (absent : s.handles.find? h = none) (fresh : s.heap p = none)
    : Refers
        { handles := s.handles.insert h ⟨p, object.handleType⟩
          heap := Function.update s.heap p (some object) }
        j pid := by
  obtain ⟨process, ⟨info, found, type, here⟩, same⟩ := refers
  have other : j ≠ h := by
    intro one
    rw [one, absent] at found
    cases found
  have apart : info.p ≠ p := by
    intro one
    rw [openProcessAt_eq_some, one, fresh] at here
    cases here
  refine ⟨process, ⟨info, ?_, type, ?_⟩, same⟩
  · rw [OrderedMap.find?_insert absent, if_neg other]
    exact found
  · exact (openProcessAt_congr (Function.update_of_ne apart _ _)).trans here

theorem refers_insert {s : ApiState} {h : Int} {p : Nat} (process : CeOpenProcess)
    (absent : s.handles.find? h = none)
    : Refers
        { handles := s.handles.insert h ⟨p, .htProcesHandle⟩
          heap := Function.update s.heap p (some (.openProcess process)) }
        h process.pid := by
  refine ⟨process, ⟨⟨p, .htProcesHandle⟩, ?_, rfl, ?_⟩, rfl⟩
  · rw [OrderedMap.find?_insert absent, if_pos rfl]
  · exact openProcessAt_eq_some.mpr (Function.update_self _ _ _)

/-- A closed handle takes only its own object with it. -/
theorem Refers.erase {s : ApiState} (ok : TableOk s) {h j pid : Int} {info : HandleInfo}
    (found : s.handles.find? h = some info) (other : j ≠ h) (refers : Refers s j pid)
    : Refers { handles := s.handles.erase h, heap := Function.update s.heap info.p none }
        j pid := by
  obtain ⟨process, ⟨info', found', type, here⟩, same⟩ := refers
  have apart : info'.p ≠ info.p := fun one => other (ok.apart j h info' info found' found one)
  refine ⟨process, ⟨info', ?_, type, ?_⟩, same⟩
  · rw [OrderedMap.find?_erase, if_neg other]
    exact found'
  · exact (openProcessAt_congr (Function.update_of_ne apart _ _)).trans here

theorem Refers.removeHandle {s : ApiState} {h j pid : Int} (refers : Refers s j pid)
    (other : j ≠ h)
    : Refers (s.removeHandle h) j pid := by
  obtain ⟨process, ⟨info, found, there⟩, same⟩ := refers
  refine ⟨process, ⟨info, ?_, there⟩, same⟩
  rw [ApiState.removeHandle, OrderedMap.find?_erase, if_neg other]
  exact found

theorem not_refers_erase {s : ApiState} {h pid : Int} {heap : Nat → Option Object}
    : ¬Refers { handles := s.handles.erase h, heap := heap } h pid := by
  intro refers
  obtain ⟨process, ⟨info, found, _⟩, _⟩ := refers
  rw [OrderedMap.find?_erase, if_pos rfl] at found
  cases found

/-- Another cache of a process leaves all handles with their processes. -/
theorem Refers.setProcess {s : ApiState} {h j pid : Int}
    {process process' : CeOpenProcess} (here : IsProcess s h process)
    (same : process'.pid = process.pid) (refers : Refers s j pid)
    : Refers (s.setProcess h process') j pid := by
  obtain ⟨info, found, type, there⟩ := here
  obtain ⟨process'', ⟨info', found', type', there'⟩, named⟩ := refers
  rw [ApiState.setProcess, getPointerFromHandle_of_find found]
  by_cases one : info'.p = info.p
  · refine ⟨process', ⟨info', found', type', ?_⟩, ?_⟩
    · rw [one]
      exact openProcessAt_eq_some.mpr (Function.update_self _ _ _)
    · rw [one, there] at there'
      rw [same, Option.some.inj there', named]
  · exact ⟨process'', ⟨info', found', type',
      (openProcessAt_congr (Function.update_of_ne one _ _)).trans there'⟩, named⟩

theorem refreshed_pid (driver : Surroundings) (process : CeOpenProcess)
    : (ApiState.refreshed driver process).pid = process.pid := by
  rw [ApiState.refreshed]
  split <;> rfl

theorem refreshed_driver (driver : Surroundings) (process : CeOpenProcess)
    : (ApiState.refreshed driver process).u64DriverProcessHandle
      = process.u64DriverProcessHandle := by
  rw [ApiState.refreshed]
  split <;> rfl

/-- A state that differs from another one at most in the cache of one of its processes. -/
def OnlyCache (s t : ApiState) : Prop :=
  t = s ∨ ∃ h process process', IsProcess s h process ∧ process'.pid = process.pid
    ∧ process'.u64DriverProcessHandle = process.u64DriverProcessHandle
    ∧ t = s.setProcess h process'

theorem OnlyCache.tableOk {s t : ApiState} (cache : OnlyCache s t) (ok : TableOk s)
    : TableOk t := by
  rcases cache with rfl | ⟨h, process, process', here, pid, driver, rfl⟩
  · exact ok
  · exact ok.setProcess here pid driver

theorem OnlyCache.refers {s t : ApiState} (cache : OnlyCache s t) {j pid : Int}
    (refers : Refers s j pid)
    : Refers t j pid := by
  rcases cache with rfl | ⟨h, process, process', here, same, _, rfl⟩
  · exact refers
  · exact refers.setProcess here same

theorem virtualQueryEx_onlyCache {s t : ApiState} {driver : Surroundings} {h : Int}
    {address : Nat} {rinfo : RegionInfo} {result : QueryResult}
    (queried : s.virtualQueryEx driver h address rinfo = some (result, t))
    : OnlyCache s t := by
  obtain ⟨found, passed, answered⟩ := Option.map_eq_some_iff.mp queried
  cases found with
  | none =>
      cases answered
      exact Or.inl rfl
  | some process =>
      cases answered
      exact Or.inr ⟨h, process, _, processOf_eq_some.mp passed, refreshed_pid driver process,
        refreshed_driver driver process, rfl⟩

theorem virtualQueryExFull_onlyCache {s t : ApiState} {driver : Surroundings} {h : Int}
    {flags : Nat} {result : Option (List RegionInfo)}
    (queried : s.virtualQueryExFull driver h flags = some (result, t))
    : OnlyCache s t := by
  obtain ⟨found, passed, answered⟩ := Option.map_eq_some_iff.mp queried
  cases found with
  | none =>
      cases answered
      exact Or.inl rfl
  | some process =>
      cases answered
      exact Or.inr ⟨h, process, ApiState.queried driver process, processOf_eq_some.mp passed,
        rfl, rfl, rfl⟩

end RwMem.CeServer
