import RwMem.CeServer.HandleTable
import RwMem.Transition.Runs

/-! Clients that open and close processes by handles of one table, and when a handle stays valid for
everyone who opened it.
-/

namespace RwMem.CeServer

open Collections Transition RwMem.Driver

/-- The requests on processes. `rinfo` is what the output of a query holds before it. -/
inductive ProcessRequest where
  | openProcess (pid : Int)
  | closeHandle (h : Int)
  | readProcessMemory (hProcess : Int) (address size : Nat)
  | writeProcessMemory (hProcess : Int) (address : Nat) (buffer : List UInt8)
  | virtualQueryEx (hProcess : Int) (address : Nat) (rinfo : RegionInfo)
  | virtualQueryExFull (hProcess : Int) (flags : Nat)

/-- A request of a client, with what its surroundings give to it. -/
structure ClientRequest where
  client : Nat
  request : ProcessRequest
  supply : Supply
  driver : Surroundings

/-- A handle that a client was given for a process and has not closed. -/
structure Open where
  client : Nat
  handle : Int
  pid : Int
deriving DecidableEq

structure HandleState where
  api : ApiState
  opens : List Open

def HandleState.initial : HandleState := { api := .initial, opens := [] }

/-- The opens that stay when a client closes a handle: the call matches one open of its own. -/
def closeOwn (client : Nat) (h : Int) (opens : List Open) : List Open :=
  opens.eraseP (fun o => o.client = client ∧ o.handle = h)

/-- The requests are handled one after the other. -/
def handleStep (s : HandleState) (a : ClientRequest) : Option HandleState :=
  match a.request with
  | .openProcess pid =>
      (s.api.openProcess a.supply pid).map (fun (h, api) =>
        { api := api
          opens := if h = 0 then s.opens else ⟨a.client, h, pid⟩ :: s.opens })
  | .closeHandle h =>
      (s.api.closeHandle h).map (fun api =>
        { api := api, opens := closeOwn a.client h s.opens })
  | .readProcessMemory hProcess address size =>
      (s.api.readProcessMemory a.driver hProcess address size).map (fun _ => s)
  | .writeProcessMemory hProcess address buffer =>
      (s.api.writeProcessMemory a.driver hProcess address buffer).map (fun _ => s)
  | .virtualQueryEx hProcess address rinfo =>
      (s.api.virtualQueryEx a.driver hProcess address rinfo).map (fun result =>
        { s with api := result.2 })
  | .virtualQueryExFull hProcess flags =>
      (s.api.virtualQueryExFull a.driver hProcess flags).map (fun result =>
        { s with api := result.2 })

/-- What a read of a process answers when the driver client is asked. -/
def driverRead (driver : Surroundings) (pid : Int) (address size : Nat) : ReadResult :=
  let (bread, buffer) := driver.readProcessMemory (toUint64 pid) address (toUint64 (toInt size))
    (List.replicate size 0)
  ⟨toInt bread, buffer⟩

/-- Every handle that is open is in the table as that of a process, with the process that it was
opened for, and reads and writes on it are those of the driver client on that process.
-/
structure HandlesValid (s : HandleState) : Prop where
  typed : ∀ o ∈ s.opens, s.api.getHandleType o.handle = .htProcesHandle
  same : ∀ o ∈ s.opens, ∃ process,
    s.api.openProcessAt (s.api.getPointerFromHandle o.handle) = some process
    ∧ process.pid = o.pid
  reads : ∀ o ∈ s.opens, ∀ driver address size,
    s.api.readProcessMemory driver o.handle address size
      = some (driverRead driver o.pid address size)
  writes : ∀ o ∈ s.opens, ∀ (driver : Surroundings) address buffer,
    s.api.writeProcessMemory driver o.handle address buffer
      = some (toInt (driver.writeProcessMemory (toUint64 o.pid) address buffer))

/-- A client closes a handle only if no other open of it is left, by whichever client. -/
def ClosesLast (s : HandleState) (a : ClientRequest) : Prop :=
  match a.request with
  | .closeHandle h => ∀ o ∈ closeOwn a.client h s.opens, o.handle ≠ h
  | _ => True

/-- With the table in order, the handles are valid if they refer to the processes that they were
opened for: the check in front of every function on a process lets them pass.
-/
theorem handlesValid_iff_refers {s : HandleState} (ok : TableOk s.api)
    : HandlesValid s ↔ ∀ o ∈ s.opens, Refers s.api o.handle o.pid := by
  constructor
  · intro valid o member
    obtain ⟨info, found, type⟩ := find_of_getHandleType (valid.typed o member)
    obtain ⟨process, here, same⟩ := valid.same o member
    rw [getPointerFromHandle_of_find found] at here
    exact ⟨process, ⟨info, found, type, here⟩, same⟩
  · intro refers
    have served : ∀ o ∈ s.opens, ∃ process, s.api.processOf o.handle = some (some process)
        ∧ process.u64DriverProcessHandle = toUint64 o.pid := by
      intro o member
      obtain ⟨process, here, same⟩ := refers o member
      have passed := processOf_eq_some.mpr here
      obtain ⟨info, _, _, there⟩ := here
      refine ⟨process, passed, ?_⟩
      rw [ok.driver info.p process there, same]
    refine ⟨fun o member => ?_, fun o member => ?_, fun o member driver address size => ?_,
      fun o member driver address buffer => ?_⟩
    · obtain ⟨process, ⟨info, found, type, _⟩, _⟩ := refers o member
      exact (getHandleType_of_find found).trans type
    · obtain ⟨process, ⟨info, found, _, here⟩, same⟩ := refers o member
      rw [getPointerFromHandle_of_find found]
      exact ⟨process, here, same⟩
    · obtain ⟨process, passed, named⟩ := served o member
      rw [ApiState.readProcessMemory, passed, driverRead, ← named]
      rfl
    · obtain ⟨process, passed, named⟩ := served o member
      rw [ApiState.writeProcessMemory, passed, ← named]
      rfl

/-- A request keeps the table in order. -/
theorem tableOk_next {s t : HandleState} {a : ClientRequest} (ok : TableOk s.api)
    (taken : handleStep s a = some t)
    : TableOk t.api := by
  obtain ⟨client, request, supply, driver⟩ := a
  cases request with
  | openProcess pid =>
      obtain ⟨⟨h, api⟩, opened, same⟩ := Option.map_eq_some_iff.mp taken
      cases same
      rcases openProcess_cases opened with ⟨rfl, _⟩ | ⟨absent, pos, fresh, rfl⟩
      · exact ok
      · refine ok.insert (.openProcess ⟨pid, toUint64 pid, [], 0⟩) absent pos fresh ?_
        intro process same
        cases same
        rfl
  | closeHandle h =>
      obtain ⟨api, closed, same⟩ := Option.map_eq_some_iff.mp taken
      cases same
      cases found : s.api.handles.find? h with
      | none =>
          cases (closeHandle_of_absent found).symm.trans closed
          exact ok.removeHandle h
      | some info =>
          cases (closeHandle_of_find ok found).symm.trans closed
          exact ok.erase found
  | readProcessMemory hProcess address size =>
      obtain ⟨_, _, same⟩ := Option.map_eq_some_iff.mp taken
      cases same
      exact ok
  | writeProcessMemory hProcess address buffer =>
      obtain ⟨_, _, same⟩ := Option.map_eq_some_iff.mp taken
      cases same
      exact ok
  | virtualQueryEx hProcess address rinfo =>
      obtain ⟨result, queried, same⟩ := Option.map_eq_some_iff.mp taken
      cases same
      exact (virtualQueryEx_onlyCache queried).tableOk ok
  | virtualQueryExFull hProcess flags =>
      obtain ⟨result, queried, same⟩ := Option.map_eq_some_iff.mp taken
      cases same
      exact (virtualQueryExFull_onlyCache queried).tableOk ok

/-- A request is always handled: no pointer is read as what it is not. -/
theorem exists_handleStep {s : HandleState} (ok : TableOk s.api) (a : ClientRequest)
    (room : a.supply.address ≠ 0 ∧ s.api.heap a.supply.address = none)
    (number : ∃ h, pickHandle s.api.handles a.supply.random = some h)
    : ∃ t, handleStep s a = some t := by
  obtain ⟨client, request, supply, driver⟩ := a
  cases request with
  | openProcess pid =>
      obtain ⟨result, opened⟩ := ok.exists_openProcess pid room number
      exact ⟨_, congrArg (Option.map _) opened⟩
  | closeHandle h =>
      obtain ⟨api, closed⟩ := ok.exists_closeHandle h
      exact ⟨_, congrArg (Option.map _) closed⟩
  | readProcessMemory hProcess address size =>
      obtain ⟨found, passed⟩ := ok.exists_processOf hProcess
      simp [handleStep, ApiState.readProcessMemory, passed]
  | writeProcessMemory hProcess address buffer =>
      obtain ⟨found, passed⟩ := ok.exists_processOf hProcess
      simp [handleStep, ApiState.writeProcessMemory, passed]
  | virtualQueryEx hProcess address rinfo =>
      obtain ⟨found, passed⟩ := ok.exists_processOf hProcess
      simp [handleStep, ApiState.virtualQueryEx, passed]
  | virtualQueryExFull hProcess flags =>
      obtain ⟨found, passed⟩ := ok.exists_processOf hProcess
      simp [handleStep, ApiState.virtualQueryExFull, passed]

/-- What the opens refer to after a step, one request at a time. A close leaves valid exactly the
other handles.
-/
theorem refers_next_iff {s t : HandleState} {a : ClientRequest} (ok : TableOk s.api)
    (valid : ∀ o ∈ s.opens, Refers s.api o.handle o.pid) (taken : handleStep s a = some t)
    : (∀ o ∈ t.opens, Refers t.api o.handle o.pid) ↔ ClosesLast s a := by
  obtain ⟨client, request, supply, driver⟩ := a
  cases request with
  | openProcess pid =>
      refine iff_of_true ?_ trivial
      obtain ⟨⟨h, api⟩, opened, same⟩ := Option.map_eq_some_iff.mp taken
      cases same
      intro o member
      dsimp only at member
      rcases openProcess_cases opened with ⟨rfl, answered⟩ | ⟨absent, pos, fresh, rfl⟩
      · split at member
        · exact valid o member
        · next nonzero =>
            rcases List.mem_cons.mp member with rfl | old
            · exact answered nonzero
            · exact valid o old
      · rw [if_neg (by omega)] at member
        rcases List.mem_cons.mp member with rfl | old
        · exact refers_insert ⟨pid, toUint64 pid, [], 0⟩ absent
        · exact (valid o old).insert (.openProcess ⟨pid, toUint64 pid, [], 0⟩) absent fresh
  | closeHandle h =>
      obtain ⟨api, closed, same⟩ := Option.map_eq_some_iff.mp taken
      cases same
      have stay {o : Open} (member : o ∈ closeOwn client h s.opens) : o ∈ s.opens :=
        List.mem_of_mem_eraseP member
      cases found : s.api.handles.find? h with
      | none =>
          cases (closeHandle_of_absent found).symm.trans closed
          have other {o : Open} (member : o ∈ closeOwn client h s.opens) : o.handle ≠ h := by
            intro same
            obtain ⟨process, ⟨info, present, _⟩, _⟩ := valid o (stay member)
            rw [same, found] at present
            cases present
          refine iff_of_true ?_ (fun o member => other member)
          intro o member
          exact (valid o (stay member)).removeHandle (other member)
      | some info =>
          cases (closeHandle_of_find ok found).symm.trans closed
          constructor
          · intro later o member same
            have refers := later o member
            rw [same] at refers
            exact not_refers_erase refers
          · intro last o member
            exact (valid o (stay member)).erase ok found (last o member)
  | readProcessMemory hProcess address size =>
      refine iff_of_true ?_ trivial
      obtain ⟨_, _, same⟩ := Option.map_eq_some_iff.mp taken
      cases same
      exact valid
  | writeProcessMemory hProcess address buffer =>
      refine iff_of_true ?_ trivial
      obtain ⟨_, _, same⟩ := Option.map_eq_some_iff.mp taken
      cases same
      exact valid
  | virtualQueryEx hProcess address rinfo =>
      refine iff_of_true ?_ trivial
      obtain ⟨result, queried, same⟩ := Option.map_eq_some_iff.mp taken
      cases same
      intro o member
      exact (virtualQueryEx_onlyCache queried).refers (valid o member)
  | virtualQueryExFull hProcess flags =>
      refine iff_of_true ?_ trivial
      obtain ⟨result, queried, same⟩ := Option.map_eq_some_iff.mp taken
      cases same
      intro o member
      exact (virtualQueryExFull_onlyCache queried).refers (valid o member)

/-- In every run of requests of any clients in any order, every handle stays valid until it is
closed by everyone who opened it exactly if no client ever closes a handle of which another open
is left.
-/
theorem handlesValid_iff (acts : List ClientRequest) (t : HandleState)
    (run : exec handleStep .initial acts = some t)
    : Throughout handleStep HandlesValid .initial acts
      ↔ Along handleStep ClosesLast .initial acts := by
  have known : Throughout handleStep (fun s => TableOk s.api) .initial acts :=
    invariant_of_step acts tableOk_initial (fun _ _ _ ok taken => tableOk_next ok taken)
  have start : HandlesValid .initial :=
    (handlesValid_iff_refers tableOk_initial).mpr (fun o member => by cases member)
  have allowed : Along handleStep (fun _ _ => True) .initial acts :=
    along_of_forall (fun _ _ _ => trivial) _
  refine throughout_iff_along known allowed start ?_ run
  intro s a u ok _ valid taken
  rw [handlesValid_iff_refers (tableOk_next ok taken)]
  exact refers_next_iff ok ((handlesValid_iff_refers ok).mp valid) taken

def request (client : Nat) (request : ProcessRequest) (address : Nat) : ClientRequest :=
  { client := client, request := request, supply := ⟨address, [0, 1000]⟩, driver := idleDriver }

/-- Two clients open two processes and close them. -/
def openAndClose : List ClientRequest :=
  [request 0 (.openProcess 7) 64, request 1 (.openProcess 8) 128,
    request 0 (.readProcessMemory 10000 0 4) 192, request 0 (.closeHandle 10000) 192,
    request 1 (.readProcessMemory 10001 0 4) 192, request 1 (.closeHandle 10001) 192]

theorem handlesValid_iff_openAndClose
    : (exec handleStep .initial openAndClose).isSome
      ∧ (Throughout handleStep HandlesValid .initial openAndClose
        ↔ Along handleStep ClosesLast .initial openAndClose) := by
  have ran : (exec handleStep .initial openAndClose).isSome := by decide +kernel
  obtain ⟨t, run⟩ := Option.isSome_iff_exists.mp ran
  exact ⟨ran, handlesValid_iff openAndClose t run⟩

/-- Two clients open one process, and one of them closes it. -/
def openTwiceCloseOnce : List ClientRequest :=
  [request 0 (.openProcess 7) 64, request 1 (.openProcess 7) 128,
    request 0 (.closeHandle 10000) 192]

/-- The handle of the other client is gone. -/
theorem not_handlesValid
    : ¬∀ acts t, exec handleStep .initial acts = some t
        → Throughout handleStep HandlesValid .initial acts := by
  intro always
  have ran : (exec handleStep .initial openTwiceCloseOnce).map
      (fun t => (t.opens, t.api.getHandleType 10000)) = some ([⟨1, 10000, 7⟩], .htEmpty) := by
    decide +kernel
  obtain ⟨t, run, ends⟩ := Option.map_eq_some_iff.mp ran
  obtain ⟨opens, type⟩ := Prod.mk.inj ends
  have valid := (always openTwiceCloseOnce t run).final run
  have typed := valid.typed ⟨1, 10000, 7⟩ (by rw [opens]; exact List.mem_cons_self)
  exact absurd (type.symm.trans typed) (by decide)

end RwMem.CeServer
