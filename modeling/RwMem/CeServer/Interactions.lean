import RwMem.CeServer.ApiTable
import RwMem.CeServer.Framing

/-! Calls of `CApi` over one table of handles, and when the pointer of every handle is read only as
what the table records for it.
-/

namespace RwMem.CeServer

open Collections Memory RwMem.Driver Transition Transition.Program

/-- A call of `CApi` in the state that it found, with its reply. -/
structure Interaction where
  before : ApiState
  call : ApiCall
  reply : Option call.Reply

/-- The state of `CApi`, and the calls made so far, the last one first. -/
structure ServerState where
  api : ApiState
  log : List Interaction

def ServerState.initial : ServerState := { api := .initial, log := [] }

/-- Behind a pointer that was read as something else the reply means nothing. -/
def serve (env : Environment) (call : ApiCall) (s : ServerState) : call.Reply × ServerState :=
  let answered := s.api.answer env call
  ((answered.map Prod.fst).getD (failAll call ()).1,
    { api := (answered.map Prod.snd).getD s.api
      log := ⟨s.api, call, answered.map Prod.fst⟩ :: s.log })

namespace ApiState

/-- The handle is read as the type behind a test of its type. -/
def tested (s : ApiState) (h : Int) (type : HandleType) : List (Int × HandleType) :=
  if s.getHandleType h = type then [(h, type)] else []

/-- The handles that `FindHandleByPID` may read the pointers of. -/
def searched (s : ApiState) : List (Int × HandleType) :=
  (s.handles.entries.filter (fun item => item.2.type = .htProcesHandle)).map
    (fun item => (item.1, .htProcesHandle))

/-- The handles whose pointers a call reads, and what it reads them as. -/
def reads (s : ApiState) : ApiCall → List (Int × HandleType)
  | .closeHandle h =>
      [.htTHSModule, .htTHSProcess, .htProcesHandle, .htTHSThread].flatMap (s.tested h)
  | .createToolhelp32Snapshot dwFlags _ =>
      if dwFlags &&& TH32CS_SNAPPROCESS ≠ 0 then []
      else if dwFlags &&& TH32CS_SNAPMODULE ≠ 0 then s.searched
      else []
  | .process32First hSnapshot => s.tested hSnapshot .htTHSProcess
  | .process32Next hSnapshot => s.tested hSnapshot .htTHSProcess
  | .module32First hSnapshot => s.tested hSnapshot .htTHSModule
  | .module32Next hSnapshot => s.tested hSnapshot .htTHSModule
  | .moduleEntries hSnapshot => s.tested hSnapshot .htTHSModule
  | .threadList h => [(h, .htTHSThread)]
  | .openProcess _ => s.searched
  | .readProcessMemory hProcess _ _ => s.tested hProcess .htProcesHandle
  | .writeProcessMemory hProcess _ _ => s.tested hProcess .htProcesHandle
  | .virtualQueryExFull hProcess _ => s.tested hProcess .htProcesHandle
  | .virtualQueryEx hProcess _ => s.tested hProcess .htProcesHandle
  | _ => []

/-- The table records the type for the handle, and its pointer leads to a live object of it. -/
structure RecordsLive (s : ApiState) (h : Int) (type : HandleType) : Prop where
  recorded : s.getHandleType h = type
  live : (s.heap (s.getPointerFromHandle h)).map Object.handleType = some type

end ApiState

namespace ApiCall

/-- The handle that a call is given, and the types that it is for. -/
def operand : ApiCall → Option (Int × List HandleType)
  | .closeHandle h => some (h, [.htTHSModule, .htTHSProcess, .htProcesHandle, .htTHSThread])
  | .process32First hSnapshot => some (hSnapshot, [.htTHSProcess])
  | .process32Next hSnapshot => some (hSnapshot, [.htTHSProcess])
  | .module32First hSnapshot => some (hSnapshot, [.htTHSModule])
  | .module32Next hSnapshot => some (hSnapshot, [.htTHSModule])
  | .moduleEntries hSnapshot => some (hSnapshot, [.htTHSModule])
  | .threadList h => some (h, [.htTHSThread])
  | .readProcessMemory hProcess _ _ => some (hProcess, [.htProcesHandle])
  | .writeProcessMemory hProcess _ _ => some (hProcess, [.htProcesHandle])
  | .virtualQueryExFull hProcess _ => some (hProcess, [.htProcesHandle])
  | .virtualQueryEx hProcess _ => some (hProcess, [.htProcesHandle])
  | _ => none

/-- The replies that say that the call failed. `CloseHandle` has no result, and its command is
answered with 1 for every handle.
-/
def Failed : (call : ApiCall) → call.Reply → Prop
  | .process32First _, (reply : Option ProcessListEntry) => reply = none
  | .process32Next _, (reply : Option ProcessListEntry) => reply = none
  | .module32First _, (reply : Option ModuleListEntry) => reply = none
  | .module32Next _, (reply : Option ModuleListEntry) => reply = none
  | .moduleEntries _, (reply : List ModuleListEntry) => reply = []
  | .readProcessMemory _ _ _, (reply : ReadResult) => reply.read = 0
  | .writeProcessMemory _ _ _, (reply : Int) => reply = 0
  | .virtualQueryExFull _ _, (reply : Option (List RegionInfo)) => reply = none
  | .virtualQueryEx _ _, (reply : QueryResult) => reply.found = 0
  | _, _ => False

end ApiCall

/-- Every pointer was read as what the table records for its handle, and was live; the call was
answered, with a failure if its handle is unknown, closed or of another type.
-/
structure Respected (i : Interaction) : Prop where
  typed : ∀ h type, (h, type) ∈ i.before.reads i.call → i.before.RecordsLive h type
  answered : i.reply.isSome
  failed : ∀ h types, i.call.operand = some (h, types) → i.before.getHandleType h ∉ types
    → ∀ reply, i.reply = some reply → i.call.Failed reply

/-- The calls that go by the types of the table: a thread list is read only from the handle of one,
and a handle is closed only if it is there.
-/
def KeepsType (s : ApiState) : ApiCall → Prop
  | .threadList h => s.getHandleType h = .htTHSThread
  | .closeHandle h => s.getHandleType h ≠ .htEmpty
  | _ => True

theorem TableOk.recordsLive {s : ApiState} (ok : TableOk s) {h : Int} {type : HandleType}
    (recorded : s.getHandleType h = type) (nonempty : type ≠ .htEmpty)
    : s.RecordsLive h type := by
  obtain ⟨info, found, same⟩ := exists_find_of_type recorded nonempty
  refine ⟨recorded, ?_⟩
  rw [getPointerFromHandle_of_find found, ok.typed h info found, same]

theorem mem_tested {s : ApiState} {h j : Int} {type type' : HandleType}
    : (j, type') ∈ s.tested h type ↔ s.getHandleType h = type ∧ j = h ∧ type' = type := by
  rw [ApiState.tested]
  split
  · next typed => simp [typed]
  · next other => simp [other]

/-- A handle that is searched has the type that it is read as. -/
theorem getHandleType_of_searched {s : ApiState} {h : Int} {type : HandleType}
    (read : (h, type) ∈ s.searched)
    : s.getHandleType h = type ∧ type ≠ .htEmpty := by
  obtain ⟨item, member, same⟩ := List.mem_map.mp read
  obtain ⟨listed, typed⟩ := List.mem_filter.mp member
  cases same
  have found := OrderedMap.mem_entries_iff.mp listed
  exact ⟨(getHandleType_of_find found).trans (of_decide_eq_true typed), by decide⟩

/-- Every call but the read of a thread list tests what it reads. -/
theorem getHandleType_of_reads {s : ApiState} {call : ApiCall} (keeps : KeepsType s call) {h : Int}
    {type : HandleType} (read : (h, type) ∈ s.reads call)
    : s.getHandleType h = type ∧ type ≠ .htEmpty := by
  have oneOf {j : Int} {asked : HandleType} (nonempty : asked ≠ .htEmpty)
      (read : (h, type) ∈ s.tested j asked)
      : s.getHandleType h = type ∧ type ≠ .htEmpty := by
    obtain ⟨typed, rfl, rfl⟩ := mem_tested.mp read
    exact ⟨typed, nonempty⟩
  cases call with
  | closeHandle j =>
      obtain ⟨asked, member, read⟩ := List.mem_flatMap.mp read
      refine oneOf ?_ read
      intro empty
      rw [empty] at member
      exact absurd member (by decide)
  | createToolhelp32Snapshot dwFlags pid =>
      rw [ApiState.reads] at read
      split at read
      · cases read
      · split at read
        · exact getHandleType_of_searched read
        · cases read
  | threadList j =>
      cases List.mem_singleton.mp read
      exact ⟨keeps, by decide⟩
  | openProcess pid => exact getHandleType_of_searched read
  | deflate level input => cases read
  | uninitialized => cases read
  | _ => exact oneOf (by decide) read

theorem processOf_of_type_ne {s : ApiState} {h : Int} (other : s.getHandleType h ≠ .htProcesHandle)
    : s.processOf h = some none := by
  rw [ApiState.processOf, if_pos other]

/-- Two answers of one call are the same. -/
theorem failed_of_answer {env : Environment} {s s' t : ApiState} {call : ApiCall}
    {refusal reply : call.Reply} (refused : s.answer env call = some (refusal, s'))
    (failed : call.Failed refusal) (answered : s.answer env call = some (reply, t))
    : call.Failed reply := by
  cases refused.symm.trans answered
  exact failed

/-- A handle of another type makes the call fail. -/
theorem failed_of_type_not_mem {env : Environment} {s t : ApiState} {call : ApiCall}
    {reply : call.Reply} (keeps : KeepsType s call) {h : Int} {types : List HandleType}
    (given : call.operand = some (h, types)) (other : s.getHandleType h ∉ types)
    (answered : s.answer env call = some (reply, t)) (lists : ∀ j, call ≠ .threadList j)
    (closes : ∀ j, call ≠ .closeHandle j)
    : call.Failed reply := by
  cases call with
  | closeHandle j => exact absurd rfl (closes j)
  | threadList j => exact absurd rfl (lists j)
  | process32First j =>
      cases given
      have refused : s.process32First env h = some (none, s) :=
        moveIter_of_type_ne (mt List.mem_singleton.mpr other) _ _
      exact failed_of_answer refused rfl answered
  | process32Next j =>
      cases given
      have refused : s.process32Next env h = some (none, s) :=
        moveIter_of_type_ne (mt List.mem_singleton.mpr other) _ _
      exact failed_of_answer refused rfl answered
  | module32First j =>
      cases given
      have refused : s.module32First env h = some (none, s) :=
        moveIter_of_type_ne (mt List.mem_singleton.mpr other) _ _
      exact failed_of_answer refused rfl answered
  | module32Next j =>
      cases given
      have refused : s.module32Next env h = some (none, s) :=
        moveIter_of_type_ne (mt List.mem_singleton.mpr other) _ _
      exact failed_of_answer refused rfl answered
  | moduleEntries j =>
      cases given
      have refused : s.moduleEntries env h = some ([], s) :=
        moduleEntries_of_type_ne (mt List.mem_singleton.mpr other)
      exact failed_of_answer refused rfl answered
  | readProcessMemory j address size =>
      cases given
      have failed := processOf_of_type_ne (mt List.mem_singleton.mpr other)
      have refused : s.answer env (.readProcessMemory h address size)
          = some ((⟨0, List.replicate size 0⟩ : ReadResult), s) := by
        rw [ApiState.answer, ApiState.readProcessMemory, failed]
        rfl
      exact failed_of_answer refused rfl answered
  | writeProcessMemory j address buffer =>
      cases given
      have failed := processOf_of_type_ne (mt List.mem_singleton.mpr other)
      have refused : s.answer env (.writeProcessMemory h address buffer) = some ((0 : Int), s) := by
        rw [ApiState.answer, ApiState.writeProcessMemory, failed]
        rfl
      exact failed_of_answer refused rfl answered
  | virtualQueryExFull j flags =>
      cases given
      have failed := processOf_of_type_ne (mt List.mem_singleton.mpr other)
      have refused : s.answer env (.virtualQueryExFull h flags)
          = some ((none : Option (List RegionInfo)), s) := by
        rw [ApiState.answer, ApiState.virtualQueryExFull, failed]
        rfl
      exact failed_of_answer refused rfl answered
  | virtualQueryEx j address =>
      cases given
      have failed := processOf_of_type_ne (mt List.mem_singleton.mpr other)
      have refused : s.answer env (.virtualQueryEx h address)
          = some ((⟨0, env.rinfo, []⟩ : QueryResult), s) := by
        rw [ApiState.answer, ApiState.virtualQueryEx, failed]
        rfl
      exact failed_of_answer refused rfl answered
  | createToolhelp32Snapshot dwFlags pid => cases given
  | openProcess pid => cases given
  | deflate level input => cases given
  | uninitialized => cases given

/-- The types of the handles of the table are those of the objects. -/
theorem TableOk.mem_types {s : ApiState} (ok : TableOk s) {h : Int}
    (present : s.getHandleType h ≠ .htEmpty)
    : s.getHandleType h ∈ [HandleType.htTHSModule, .htTHSProcess, .htProcesHandle, .htTHSThread] := by
  obtain ⟨object, _, type⟩ := Option.map_eq_some_iff.mp (ok.recordsLive rfl present).live
  rw [← type]
  cases object <;> simp [Object.handleType]

theorem exists_answer_of_keepsType {env : Environment} {s : ApiState} (ok : TableOk s)
    {call : ApiCall} (supplied : call.creates = true → Supplied s env.supply)
    (keeps : KeepsType s call)
    : ∃ result, s.answer env call = some result := by
  by_cases lists : ∃ h, call = .threadList h
  · obtain ⟨h, rfl⟩ := lists
    exact exists_map_eq_some _ (Option.isSome_iff_exists.mp (ok.threadList_isSome.mpr keeps))
  · exact ok.exists_answer supplied (fun h same => lists ⟨h, same⟩)

/-- A call is respected exactly if it goes by the types of the table. -/
theorem respected_iff {env : Environment} {s : ApiState} (ok : TableOk s) {call : ApiCall}
    (supplied : call.creates = true → Supplied s env.supply)
    : Respected ⟨s, call, (s.answer env call).map Prod.fst⟩ ↔ KeepsType s call := by
  constructor
  · intro respected
    cases call with
    | threadList h => exact (respected.typed h .htTHSThread List.mem_cons_self).recorded
    | closeHandle h =>
        intro absent
        obtain ⟨reply, answered⟩ := Option.isSome_iff_exists.mp respected.answered
        refine respected.failed h _ rfl ?_ reply answered
        dsimp only
        rw [absent]
        decide
    | _ => trivial
  · intro keeps
    obtain ⟨⟨reply, t⟩, answered⟩ := exists_answer_of_keepsType ok supplied keeps
    refine ⟨fun h type read => ?_, ?_, fun h types given other reply' same => ?_⟩
    · obtain ⟨recorded, nonempty⟩ := getHandleType_of_reads keeps read
      exact ok.recordsLive recorded nonempty
    · rw [answered]
      rfl
    · rw [answered] at same
      cases same
      refine failed_of_type_not_mem keeps given other answered (fun j lists => ?_)
        (fun j closes => ?_)
      · subst lists
        cases given
        exact other (List.mem_singleton.mpr keeps)
      · subst closes
        cases given
        exact other (ok.mem_types keeps)

/-- All calls of the log were respected. -/
def AllRespected (s : ServerState) : Prop := ∀ i ∈ s.log, Respected i

theorem serve_tableOk {env : Environment} {call : ApiCall} {s : ServerState} (ok : TableOk s.api)
    : TableOk (serve env call s).2.api := by
  rw [serve]
  cases answered : s.api.answer env call with
  | none => exact ok
  | some result => exact (effect_of_answer ok answered).tableOk ok

/-- A call keeps all calls respected exactly if it goes by the types. -/
theorem allRespected_serve_iff {env : Environment} {call : ApiCall} {s : ServerState}
    (ok : TableOk s.api) (supplied : call.creates = true → Supplied s.api env.supply)
    : AllRespected (serve env call s).2 ↔ AllRespected s ∧ KeepsType s.api call := by
  rw [← respected_iff ok supplied, and_comm]
  exact List.forall_mem_cons

/-- The calls of before stay in the log. -/
theorem allRespected_of_serve {env : Environment} {call : ApiCall} {s : ServerState}
    (later : AllRespected (serve env call s).2)
    : AllRespected s :=
  (List.forall_mem_cons.mp later).2

end RwMem.CeServer
