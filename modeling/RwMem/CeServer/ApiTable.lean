import RwMem.CeServer.HandleTable
import RwMem.CeServer.Snapshots

/-! What a call of `CApi` can do to the table of handles and to the objects behind them, and when it
answers.
-/

namespace RwMem.CeServer

open Collections RwMem.Driver

theorem Object.handleType_ne_htEmpty (object : Object) : object.handleType ≠ .htEmpty := by
  cases object <;> exact fun same => HandleType.noConfusion same

theorem SnapshotKind.type_ne_htEmpty {α : Type} (kind : SnapshotKind α) : kind.type ≠ .htEmpty := by
  rw [← kind.object_type [] 0]
  exact Object.handleType_ne_htEmpty _

/-- The handle is that of a snapshot with these entries and this iterator. -/
structure IsSnapshot {α : Type} (kind : SnapshotKind α) (s : ApiState) (h : Int)
    (entries : List α) (readIter : Nat)
    : Prop where
  typed : s.getHandleType h = kind.type
  live : s.heap (s.getPointerFromHandle h) = some (kind.object entries readIter)

/-- The handles of a kind of snapshot lead to snapshots of the kind. -/
theorem TableOk.exists_snapshot {α : Type} {kind : SnapshotKind α} {s : ApiState}
    (ok : TableOk s) {h : Int} (typed : s.getHandleType h = kind.type)
    : ∃ entries readIter, IsSnapshot kind s h entries readIter := by
  obtain ⟨info, found, type⟩ := exists_find_of_type typed kind.type_ne_htEmpty
  obtain ⟨object, live, same⟩ := Option.map_eq_some_iff.mp (ok.typed h info found)
  obtain ⟨entries, readIter, rfl⟩ := kind.exists_object object (same.trans type)
  exact ⟨entries, readIter, typed, by rw [getPointerFromHandle_of_find found, live]⟩

/-- A request on the iterator of a snapshot answers with the entry at its new place. -/
theorem IsSnapshot.moveIter {α : Type} {kind : SnapshotKind α} {s : ApiState} {h : Int}
    {entries : List α} {readIter : Nat} (snapshot : IsSnapshot kind s h entries readIter)
    (move : Nat → Nat) (behind : Nat → α)
    : s.moveIter kind move behind h
      = some (entryAt behind entries (move readIter),
          s.setObject h (kind.object entries (move readIter))) := by
  rw [ApiState.moveIter, if_pos snapshot.typed, snapshot.live, Option.bind_some,
    kind.list?_object]
  rfl

/-- It fails on every other handle and changes nothing. -/
theorem moveIter_of_type_ne {α : Type} {kind : SnapshotKind α} {s : ApiState} {h : Int}
    (other : s.getHandleType h ≠ kind.type) (move : Nat → Nat) (behind : Nat → α)
    : s.moveIter kind move behind h = some (none, s) := by
  rw [ApiState.moveIter, if_neg other]

/-- Afterwards the handle is that of the same snapshot with the iterator moved. -/
theorem IsSnapshot.setObject {α : Type} {kind : SnapshotKind α} {s : ApiState} {h : Int}
    {entries : List α} {readIter : Nat} (snapshot : IsSnapshot kind s h entries readIter)
    (readIter' : Nat)
    : IsSnapshot kind (s.setObject h (kind.object entries readIter')) h entries readIter' :=
  ⟨snapshot.typed, Function.update_self _ _ _⟩

theorem setObject_setObject (s : ApiState) (h : Int) (first second : Object)
    : (s.setObject h first).setObject h second = s.setObject h second := by
  simp [ApiState.setObject, ApiState.getPointerFromHandle]

/-- The calls of `Module32Next` gather the entries behind the iterator, by induction on the entries
that are left.
-/
theorem moduleEntriesLoop_eq {env : Environment} {s : ApiState} {h : Int}
    {before rest : List ModuleListEntry} {turns : Nat}
    (snapshot : IsSnapshot moduleSnapshot s h (before ++ rest) before.length)
    (enough : rest.length ≤ turns)
    : ApiState.moduleEntriesLoop env h turns
        (entryAt env.moduleBehind (before ++ rest) before.length, s)
      = some (rest, s.setObject h
          (moduleSnapshot.object (before ++ rest) (before ++ rest).length)) := by
  induction rest generalizing s before turns with
  | nil =>
      rw [List.append_nil] at snapshot ⊢
      have same : s.setObject h (moduleSnapshot.object before before.length) = s :=
        congrArg (ApiState.mk s.handles) (by rw [← snapshot.live, Function.update_eq_self])
      rw [same, entryAt, if_neg (not_not.mpr rfl), ApiState.moduleEntriesLoop]
  | cons me rest ih =>
      have here : entryAt env.moduleBehind (before ++ me :: rest) before.length = some me := by
        rw [entryAt, if_pos (by simp), List.getElem?_append_right (Nat.le_refl _)]
        simp
      obtain ⟨turns, rfl⟩ : ∃ n, turns = n + 1 := ⟨turns - 1, by simp at enough; omega⟩
      have moved := snapshot.setObject (before.length + 1)
      have split : before ++ me :: rest = (before ++ [me]) ++ rest := by simp
      have later : before.length + 1 = (before ++ [me]).length := by simp
      have next : s.module32Next env h
          = some (entryAt env.moduleBehind (before ++ me :: rest) (before.length + 1),
              s.setObject h
                (moduleSnapshot.object (before ++ me :: rest) (before.length + 1))) :=
        snapshot.moveIter (fun readIter => readIter + 1) env.moduleBehind
      rw [here, ApiState.moduleEntriesLoop, next, Option.bind_some]
      rw [split, later] at moved ⊢
      rw [ih moved (by simpa using enough), Option.map_some]
      rw [setObject_setObject]

/-- The entries of a snapshot of modules, all of them and in their order; the iterator is at the
end.
-/
theorem moduleEntries_eq {env : Environment} {s : ApiState} {h : Int}
    {entries : List ModuleListEntry} {readIter : Nat}
    (snapshot : IsSnapshot moduleSnapshot s h entries readIter)
    : s.moduleEntries env h
      = some (entries, s.setObject h (moduleSnapshot.object entries entries.length)) := by
  have first : s.module32First env h
      = some (entryAt env.moduleBehind entries 0,
          s.setObject h (moduleSnapshot.object entries 0)) :=
    snapshot.moveIter (fun _ => 0) env.moduleBehind
  have count : s.moduleCount h = entries.length := by
    rw [ApiState.moduleCount, snapshot.live]
    rfl
  have start : IsSnapshot moduleSnapshot (s.setObject h (moduleSnapshot.object entries 0)) h
      ([] ++ entries) ([] : List ModuleListEntry).length := snapshot.setObject 0
  rw [ApiState.moduleEntries, first, Option.bind_some, count]
  refine (moduleEntriesLoop_eq start (Nat.le_refl entries.length)).trans ?_
  rw [setObject_setObject]
  rfl

theorem moduleEntries_of_type_ne {env : Environment} {s : ApiState} {h : Int}
    (other : s.getHandleType h ≠ .htTHSModule)
    : s.moduleEntries env h = some ([], s) := by
  have first : s.module32First env h = some (none, s) := moveIter_of_type_ne other _ _
  rw [ApiState.moduleEntries, first, Option.bind_some, ApiState.moduleEntriesLoop]

/-- A new object lies at a new address and has a new positive number. -/
theorem newHandle_cases {s t : ApiState} {supply : Supply} {object : Object} {h : Int}
    (made : s.newHandle supply object = some (h, t))
    : s.handles.find? h = none ∧ 0 < h ∧ s.heap supply.address = none
      ∧ t = { handles := s.handles.insert h ⟨supply.address, object.handleType⟩
              heap := Function.update s.heap supply.address (some object) } := by
  obtain ⟨s', allocated, opened⟩ := Option.bind_eq_some_iff.mp made
  obtain ⟨fresh, same⟩ := Option.ite_none_right_eq_some.mp allocated
  cases same
  obtain ⟨handle, picked, same⟩ := Option.map_eq_some_iff.mp opened
  cases same
  obtain ⟨absent, pos⟩ := pickHandle_spec picked
  exact ⟨absent, pos, fresh.2, rfl⟩

/-- The address is free, and one of the words makes a new number. -/
structure Supplied (s : ApiState) (supply : Supply) : Prop where
  nonnull : supply.address ≠ 0
  free : s.heap supply.address = none
  number : (pickHandle s.handles supply.random).isSome

instance (s : ApiState) (supply : Supply) : Decidable (Supplied s supply) :=
  decidable_of_iff
    (supply.address ≠ 0 ∧ s.heap supply.address = none
      ∧ (pickHandle s.handles supply.random).isSome)
    ⟨fun holds => ⟨holds.1, holds.2.1, holds.2.2⟩,
      fun supplied => ⟨supplied.nonnull, supplied.free, supplied.number⟩⟩

theorem Supplied.exists_newHandle {s : ApiState} {supply : Supply} (supplied : Supplied s supply)
    (object : Object)
    : ∃ result, s.newHandle supply object = some result := by
  obtain ⟨h, picked⟩ := Option.isSome_iff_exists.mp supplied.number
  rw [ApiState.newHandle, ApiState.allocate, if_pos ⟨supplied.nonnull, supplied.free⟩,
    Option.bind_some, ApiState.createHandleFromPointer, picked]
  exact ⟨_, rfl⟩

/-- The type of the snapshot that the flags ask for: the first test that is met decides. -/
def snapshotType (dwFlags : UInt32) : HandleType :=
  if dwFlags &&& TH32CS_SNAPPROCESS ≠ 0 then .htTHSProcess
  else if dwFlags &&& TH32CS_SNAPMODULE ≠ 0 then .htTHSModule
  else .htTHSThread

theorem snapshotType_ne (dwFlags : UInt32) : snapshotType dwFlags ≠ .htProcesHandle := by
  rw [snapshotType]
  split
  · decide
  · split <;> decide

/-- What a snapshot can be: none, with answer 0 and nothing changed, or a new object of the type
that the flags ask for.
-/
theorem createToolhelp32Snapshot_cases {env : Environment} {s t : ApiState} {dwFlags : UInt32}
    {pid h : Int} (made : s.createToolhelp32Snapshot env dwFlags pid = some (h, t))
    : (h = 0 ∧ t = s) ∨ ∃ object, object.handleType = snapshotType dwFlags
        ∧ s.newHandle env.supply object = some (h, t) := by
  have nothing (same : some ((0 : Int), s) = some (h, t)) : h = 0 ∧ t = s := by
    cases same
    exact ⟨rfl, rfl⟩
  rw [ApiState.createToolhelp32Snapshot] at made
  rw [snapshotType]
  split at made
  · next process =>
      rw [if_pos process]
      exact Or.inr ⟨_, rfl, made⟩
  · next process =>
      rw [if_neg process]
      split at made
      · next module =>
          rw [if_pos module]
          obtain ⟨hm, _, made⟩ := Option.bind_eq_some_iff.mp made
          split at made
          · exact Or.inl (nothing made)
          · obtain ⟨process, _, made⟩ := Option.bind_eq_some_iff.mp made
            dsimp only at made
            split at made
            · exact Or.inl (nothing made)
            · exact Or.inr ⟨_, rfl, made⟩
      · next module =>
          rw [if_neg module]
          split at made
          · split at made
            · exact Or.inl (nothing made)
            · split at made
              · exact Or.inr ⟨_, rfl, made⟩
              · exact Or.inl (nothing made)
          · exact Or.inl (nothing made)

/-- A handle that was made is in the table with the type of its object. -/
theorem getHandleType_of_newHandle {s t : ApiState} {supply : Supply} {object : Object} {h : Int}
    (made : s.newHandle supply object = some (h, t))
    : h ≠ 0 ∧ t.getHandleType h = object.handleType := by
  obtain ⟨absent, pos, _, rfl⟩ := newHandle_cases made
  refine ⟨by omega, ?_⟩
  rw [ApiState.getHandleType, OrderedMap.find?_insert absent, if_pos rfl]
  rfl

/-- The handle of a snapshot has the type that the flags ask for. -/
theorem getHandleType_of_createToolhelp32Snapshot {env : Environment} {s t : ApiState}
    {dwFlags : UInt32} {pid h : Int}
    (made : s.createToolhelp32Snapshot env dwFlags pid = some (h, t)) (present : h ≠ 0)
    : t.getHandleType h = snapshotType dwFlags := by
  rcases createToolhelp32Snapshot_cases made with ⟨absent, _⟩ | ⟨object, type, made⟩
  · exact absurd absent present
  · rw [(getHandleType_of_newHandle made).2, type]

/-- With the flag for processes there is always a snapshot. -/
theorem createToolhelp32Snapshot_process {env : Environment} {s t : ApiState} {dwFlags : UInt32}
    {pid h : Int} (process : dwFlags &&& TH32CS_SNAPPROCESS ≠ 0)
    (made : s.createToolhelp32Snapshot env dwFlags pid = some (h, t))
    : h ≠ 0 := by
  rw [ApiState.createToolhelp32Snapshot, if_pos process] at made
  exact (getHandleType_of_newHandle made).1

/-- With the flag for modules, if the process is open and the driver lists a region of it. -/
theorem createToolhelp32Snapshot_module {env : Environment} {s t : ApiState} (ok : TableOk s)
    {dwFlags : UInt32} {pid h : Int} (process : ¬dwFlags &&& TH32CS_SNAPPROCESS ≠ 0)
    (module : dwFlags &&& TH32CS_SNAPMODULE ≠ 0)
    (made : s.createToolhelp32Snapshot env dwFlags pid = some (h, t))
    : h ≠ 0 ↔ s.findHandleByPID pid ≠ some 0
        ∧ env.virtualQueryExFull (toUint64 pid) false ≠ [] := by
  rw [ApiState.createToolhelp32Snapshot, if_neg process, if_pos module] at made
  obtain ⟨hm, found, made⟩ := Option.bind_eq_some_iff.mp made
  rw [found]
  split at made
  · next closed =>
      cases made
      exact iff_of_false (fun present => present rfl)
        (fun listed => listed.1 (congrArg some closed))
  · next opened =>
      obtain ⟨there, ⟨info, listed, _, here⟩, same⟩ := findHandleByPID_spec found opened
      rw [getPointerFromHandle_of_find listed, here, Option.bind_some,
        ok.driver info.p there here, same] at made
      dsimp only at made
      have searched : some hm ≠ some 0 := fun zero => opened (Option.some.inj zero)
      split at made
      · next empty =>
          cases made
          exact iff_of_false (fun present => present rfl) (fun listed => listed.2 empty)
      · next some_ => exact iff_of_true (getHandleType_of_newHandle made).1 ⟨searched, some_⟩

/-- All that a call can do to the state. -/
inductive Effect (s : ApiState) : ApiState → Prop
  | unchanged : Effect s s
  | removed {h : Int} (absent : s.handles.find? h = none) : Effect s (s.removeHandle h)
  | closed {h : Int} {info : HandleInfo} (found : s.handles.find? h = some info)
      : Effect s { handles := s.handles.erase h, heap := Function.update s.heap info.p none }
  | changed {h : Int} {info : HandleInfo} {object : Object}
      (found : s.handles.find? h = some info) (type : object.handleType = info.type)
      (process : ∀ process, object = .openProcess process →
        ∃ old, s.heap info.p = some (.openProcess old) ∧ process.pid = old.pid
          ∧ process.u64DriverProcessHandle = old.u64DriverProcessHandle)
      : Effect s { s with heap := Function.update s.heap info.p (some object) }
  | created {h : Int} {p : Nat} {object : Object} (absent : s.handles.find? h = none)
      (pos : 0 < h) (fresh : s.heap p = none)
      (process : ∀ process, object = .openProcess process →
        process.u64DriverProcessHandle = toUint64 process.pid
          ∧ s.findHandleByPID process.pid = some 0)
      : Effect s
          { handles := s.handles.insert h ⟨p, object.handleType⟩
            heap := Function.update s.heap p (some object) }

/-- Every call keeps the table in order. -/
theorem Effect.tableOk {s t : ApiState} (effect : Effect s t) (ok : TableOk s) : TableOk t := by
  cases effect with
  | unchanged => exact ok
  | removed absent => exact ok.removeHandle _
  | closed found => exact ok.erase found
  | changed found type process =>
      refine ok.update found type (fun process' same => ?_)
      obtain ⟨old, live, pid, driver⟩ := process process' same
      rw [driver, pid]
      exact ok.driver _ old (openProcessAt_eq_some.mpr live)
  | created absent pos fresh process =>
      exact ok.insert _ absent pos fresh (fun process' same => (process process' same).1)

theorem effect_of_newHandle {s t : ApiState} {supply : Supply} {object : Object} {h : Int}
    (made : s.newHandle supply object = some (h, t))
    (process : ∀ process, object = .openProcess process →
      process.u64DriverProcessHandle = toUint64 process.pid
        ∧ s.findHandleByPID process.pid = some 0)
    : Effect s t := by
  obtain ⟨absent, pos, fresh, rfl⟩ := newHandle_cases made
  exact .created absent pos fresh process

theorem effect_of_createToolhelp32Snapshot {env : Environment} {s t : ApiState}
    {dwFlags : UInt32} {pid h : Int}
    (made : s.createToolhelp32Snapshot env dwFlags pid = some (h, t))
    : Effect s t := by
  rcases createToolhelp32Snapshot_cases made with ⟨_, rfl⟩ | ⟨object, type, made⟩
  · exact .unchanged
  · refine effect_of_newHandle made (fun process same => ?_)
    rw [same] at type
    exact absurd type.symm (snapshotType_ne dwFlags)

/-- `OpenProcess` makes a handle only for a process that has none. -/
theorem openProcess_newHandle {s t : ApiState} {supply : Supply} {pid h : Int}
    (opened : s.openProcess supply pid = some (h, t))
    : t = s ∨ (s.findHandleByPID pid = some 0
        ∧ s.newHandle supply (.openProcess ⟨pid, toUint64 pid, [], 0⟩) = some (h, t)) := by
  obtain ⟨hm, found, opened⟩ := Option.bind_eq_some_iff.mp opened
  split at opened
  · cases opened
    exact Or.inl rfl
  · next absent =>
      rw [not_not.mp absent] at found
      dsimp only at opened
      split at opened
      · cases opened
        exact Or.inl rfl
      · exact Or.inr ⟨found, opened⟩

theorem effect_of_openProcess {s t : ApiState} {supply : Supply} {pid h : Int}
    (opened : s.openProcess supply pid = some (h, t))
    : Effect s t := by
  rcases openProcess_newHandle opened with rfl | ⟨found, made⟩
  · exact .unchanged
  · refine effect_of_newHandle made (fun process same => ?_)
    cases same
    exact ⟨rfl, found⟩

theorem effect_of_closeHandle {s t : ApiState} {h : Int} (ok : TableOk s)
    (closed : s.closeHandle h = some t)
    : Effect s t := by
  cases found : s.handles.find? h with
  | none =>
      cases (closeHandle_of_absent found).symm.trans closed
      exact .removed found
  | some info =>
      cases (closeHandle_of_find ok found).symm.trans closed
      exact .closed found

/-- Only the iterator of a snapshot changes. -/
theorem IsSnapshot.effect {α : Type} {kind : SnapshotKind α} {s : ApiState} {h : Int}
    {entries : List α} {readIter : Nat} (snapshot : IsSnapshot kind s h entries readIter)
    (readIter' : Nat)
    : Effect s (s.setObject h (kind.object entries readIter')) := by
  obtain ⟨info, found, type⟩ := exists_find_of_type snapshot.typed kind.type_ne_htEmpty
  rw [ApiState.setObject, getPointerFromHandle_of_find found]
  refine .changed found ((kind.object_type _ _).trans type.symm) (fun process same => ?_)
  have isProcess := (congrArg Object.handleType same).symm.trans (kind.object_type _ _)
  exact absurd isProcess.symm kind.not_process

theorem effect_of_moveIter {α : Type} {kind : SnapshotKind α} {s t : ApiState} {h : Int}
    {move : Nat → Nat} {behind : Nat → α} {reply : Option α} (ok : TableOk s)
    (moved : s.moveIter kind move behind h = some (reply, t))
    : Effect s t := by
  by_cases typed : s.getHandleType h = kind.type
  · obtain ⟨entries, readIter, snapshot⟩ := ok.exists_snapshot typed
    cases (snapshot.moveIter move behind).symm.trans moved
    exact snapshot.effect (move readIter)
  · cases (moveIter_of_type_ne typed move behind).symm.trans moved
    exact .unchanged

theorem effect_of_moduleEntries {env : Environment} {s t : ApiState} {h : Int}
    {entries : List ModuleListEntry} (ok : TableOk s)
    (gathered : s.moduleEntries env h = some (entries, t))
    : Effect s t := by
  by_cases typed : s.getHandleType h = .htTHSModule
  · have typed : s.getHandleType h = moduleSnapshot.type := typed
    obtain ⟨_, _, snapshot⟩ := ok.exists_snapshot typed
    cases (moduleEntries_eq snapshot).symm.trans gathered
    exact snapshot.effect entries.length
  · cases (moduleEntries_of_type_ne typed).symm.trans gathered
    exact .unchanged

theorem OnlyCache.effect {s t : ApiState} (cache : OnlyCache s t) : Effect s t := by
  rcases cache with rfl | ⟨h, process, process', ⟨info, found, type, here⟩, pid, driver, rfl⟩
  · exact .unchanged
  · rw [ApiState.setProcess, getPointerFromHandle_of_find found]
    refine .changed found type.symm (fun process'' same => ?_)
    cases same
    exact ⟨process, openProcessAt_eq_some.mp here, pid, driver⟩

/-- A call has one of the effects. -/
theorem effect_of_answer {env : Environment} {call : ApiCall} {s t : ApiState}
    {reply : call.Reply} (ok : TableOk s) (answered : s.answer env call = some (reply, t))
    : Effect s t := by
  cases call with
  | closeHandle h =>
      obtain ⟨t', closed, same⟩ := Option.map_eq_some_iff.mp answered
      cases same
      exact effect_of_closeHandle ok closed
  | createToolhelp32Snapshot dwFlags pid => exact effect_of_createToolhelp32Snapshot answered
  | process32First h =>
      have moved : s.moveIter processSnapshot (fun _ => 0) env.processBehind h = some (reply, t) :=
        answered
      exact effect_of_moveIter ok moved
  | process32Next h =>
      have moved : s.moveIter processSnapshot (fun readIter => readIter + 1) env.processBehind h
          = some (reply, t) :=
        answered
      exact effect_of_moveIter ok moved
  | module32First h =>
      have moved : s.moveIter moduleSnapshot (fun _ => 0) env.moduleBehind h = some (reply, t) :=
        answered
      exact effect_of_moveIter ok moved
  | module32Next h =>
      have moved : s.moveIter moduleSnapshot (fun readIter => readIter + 1) env.moduleBehind h
          = some (reply, t) :=
        answered
      exact effect_of_moveIter ok moved
  | moduleEntries h => exact effect_of_moduleEntries ok answered
  | openProcess pid => exact effect_of_openProcess answered
  | virtualQueryExFull h flags => exact (virtualQueryExFull_onlyCache answered).effect
  | virtualQueryEx h address => exact (virtualQueryEx_onlyCache answered).effect
  | threadList h =>
      obtain ⟨_, _, same⟩ := Option.map_eq_some_iff.mp answered
      cases same
      exact .unchanged
  | readProcessMemory h address size =>
      obtain ⟨_, _, same⟩ := Option.map_eq_some_iff.mp answered
      cases same
      exact .unchanged
  | writeProcessMemory h address buffer =>
      obtain ⟨_, _, same⟩ := Option.map_eq_some_iff.mp answered
      cases same
      exact .unchanged
  | deflate level input =>
      cases answered
      exact .unchanged
  | uninitialized =>
      cases answered
      exact .unchanged

theorem TableOk.exists_moveIter {α : Type} {kind : SnapshotKind α} {s : ApiState} (ok : TableOk s)
    (move : Nat → Nat) (behind : Nat → α) (h : Int)
    : ∃ result, s.moveIter kind move behind h = some result := by
  by_cases typed : s.getHandleType h = kind.type
  · obtain ⟨entries, readIter, snapshot⟩ := ok.exists_snapshot typed
    exact ⟨_, snapshot.moveIter move behind⟩
  · exact ⟨_, moveIter_of_type_ne typed move behind⟩

theorem TableOk.exists_moduleEntries {env : Environment} {s : ApiState} (ok : TableOk s) (h : Int)
    : ∃ result, s.moduleEntries env h = some result := by
  by_cases typed : s.getHandleType h = .htTHSModule
  · have typed : s.getHandleType h = moduleSnapshot.type := typed
    obtain ⟨entries, readIter, snapshot⟩ := ok.exists_snapshot typed
    exact ⟨_, moduleEntries_eq snapshot⟩
  · exact ⟨_, moduleEntries_of_type_ne typed⟩

/-- The pointer of the handle that is found for a process leads to an open process. -/
theorem TableOk.exists_openProcessAt {s : ApiState} {pid hm : Int}
    (found : s.findHandleByPID pid = some hm) (present : hm ≠ 0)
    : ∃ process, s.openProcessAt (s.getPointerFromHandle hm) = some process := by
  obtain ⟨process, ⟨info, listed, _, here⟩, _⟩ := findHandleByPID_spec found present
  exact ⟨process, by rw [getPointerFromHandle_of_find listed, here]⟩

theorem TableOk.exists_createToolhelp32Snapshot {env : Environment} {s : ApiState}
    (ok : TableOk s) (supplied : Supplied s env.supply) (dwFlags : UInt32) (pid : Int)
    : ∃ result, s.createToolhelp32Snapshot env dwFlags pid = some result := by
  rw [ApiState.createToolhelp32Snapshot]
  split
  · exact supplied.exists_newHandle _
  · split
    · obtain ⟨hm, found⟩ := ok.exists_findInEntries pid (fun _ member => member)
      have searched : s.findHandleByPID pid = some hm := found
      rw [searched, Option.bind_some]
      split
      · exact ⟨_, rfl⟩
      · next present =>
          obtain ⟨process, here⟩ := TableOk.exists_openProcessAt searched present
          rw [here, Option.bind_some]
          dsimp only
          split
          · exact ⟨_, rfl⟩
          · exact supplied.exists_newHandle _
    · split
      · split
        · exact ⟨_, rfl⟩
        · split
          · exact supplied.exists_newHandle _
          · exact ⟨_, rfl⟩
      · exact ⟨_, rfl⟩

/-- The pointer of the handle of a thread list leads to one. -/
theorem TableOk.threadList_isSome {s : ApiState} (ok : TableOk s) {h : Int}
    : (s.threadList h).isSome ↔ s.getHandleType h = .htTHSThread := by
  rw [ApiState.threadList]
  split
  · next typed =>
      obtain ⟨info, found, type⟩ := exists_find_of_type typed (by decide)
      obtain ⟨object, live, same⟩ := Option.map_eq_some_iff.mp (ok.typed h info found)
      rw [getPointerFromHandle_of_find found, live]
      cases object with
      | threadList threads => exact iff_of_true rfl typed
      | _ => exact HandleType.noConfusion (same.trans type)
  · next other => exact iff_of_false (by decide) other

/-- The calls that make a new handle. -/
def ApiCall.creates : ApiCall → Bool
  | .createToolhelp32Snapshot _ _ => true
  | .openProcess _ => true
  | _ => false

theorem exists_map_eq_some {α β : Type} {o : Option α} (f : α → β) (found : ∃ a, o = some a)
    : ∃ b, o.map f = some b := by
  obtain ⟨a, rfl⟩ := found
  exact ⟨f a, rfl⟩

/-- Every other call is answered. -/
theorem TableOk.exists_answer {env : Environment} {s : ApiState} (ok : TableOk s)
    {call : ApiCall} (supplied : call.creates = true → Supplied s env.supply)
    (other : ∀ h, call ≠ .threadList h)
    : ∃ result, s.answer env call = some result := by
  cases call with
  | threadList h => exact absurd rfl (other h)
  | closeHandle h => exact exists_map_eq_some _ (ok.exists_closeHandle h)
  | createToolhelp32Snapshot dwFlags pid =>
      exact ok.exists_createToolhelp32Snapshot (supplied rfl) dwFlags pid
  | process32First h => exact ok.exists_moveIter (fun _ => 0) env.processBehind h
  | process32Next h =>
      exact ok.exists_moveIter (fun readIter => readIter + 1) env.processBehind h
  | module32First h => exact ok.exists_moveIter (fun _ => 0) env.moduleBehind h
  | module32Next h =>
      exact ok.exists_moveIter (fun readIter => readIter + 1) env.moduleBehind h
  | moduleEntries h => exact ok.exists_moduleEntries h
  | openProcess pid =>
      have supplied := supplied rfl
      exact ok.exists_openProcess pid ⟨supplied.nonnull, supplied.free⟩
        (Option.isSome_iff_exists.mp supplied.number)
  | readProcessMemory h address size =>
      exact exists_map_eq_some _ (exists_map_eq_some _ (ok.exists_processOf h))
  | writeProcessMemory h address buffer =>
      exact exists_map_eq_some _ (exists_map_eq_some _ (ok.exists_processOf h))
  | virtualQueryExFull h flags => exact exists_map_eq_some _ (ok.exists_processOf h)
  | virtualQueryEx h address => exact exists_map_eq_some _ (ok.exists_processOf h)
  | deflate level input => exact ⟨_, rfl⟩
  | uninitialized => exact ⟨_, rfl⟩

end RwMem.CeServer
