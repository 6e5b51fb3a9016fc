import RwMem.CeServer.Interactions
import RwMem.Transition.Runs

/-! Commands with any operands over one table of handles, and when all their calls are respected. -/

namespace RwMem.CeServer

open Collections Memory RwMem.Driver Transition Transition.Program

/-- A command byte with the packets that follow it, and what its calls are given. -/
structure ClientCommand where
  command : UInt8
  packets : List (List UInt8)
  env : Environment

/-- A command is handled whole before the next one. The process ends with `CMD_TERMINATESERVER`. -/
def commandStep (s : ServerState) (a : ClientCommand) : Option ServerState :=
  if Supplied s.api a.env.supply then
    match run (Connection.handle (serve a.env)) (dispatchCommand a.command)
      ⟨a.packets, false, s⟩ with
    | .ok (_, c) => some c.state
    | .error _ => none
  else none

/-- The flag for threads stands beside one by which a snapshot of something else is made. -/
def MixesThreads (s : ApiState) (env : Environment) (dwFlags : UInt32) (th32ProcessID : Int)
    : Prop :=
  dwFlags &&& TH32CS_SNAPTHREAD = TH32CS_SNAPTHREAD
    ∧ (dwFlags &&& TH32CS_SNAPPROCESS ≠ 0
      ∨ (dwFlags &&& TH32CS_SNAPMODULE ≠ 0 ∧ s.findHandleByPID th32ProcessID ≠ some 0
        ∧ env.virtualQueryExFull (toUint64 th32ProcessID) false ≠ []))

/-- The command neither asks for threads together with another list that is made, nor closes a
handle that is not there.
-/
def KeepsTypes (s : ServerState) (a : ClientCommand) : Prop :=
  let bytes := a.packets.flatten
  match CeCommand.ofByte a.command with
  | some .createToolhelp32SnapshotEx =>
      8 ≤ bytes.length →
        ¬MixesThreads s.api a.env (UInt32.ofNat (wordAt (bytes.take 8) 0 4))
          (intAt (bytes.take 8) 4)
  | some .closeHandle =>
      4 ≤ bytes.length → s.api.getHandleType (intAt (bytes.take 4) 0) ≠ .htEmpty
  | _ => True

/-- Allows the calls that keep the types in every state, with at most one that makes a handle, in
front of all others.
-/
def typeMonitor : Monitor ServerCall ServerCall.Reply Bool where
  allows fresh request :=
    match request with
    | .api asked => (∀ s, KeepsType s asked) ∧ (asked.creates = true → fresh = true)
    | _ => True
  after fresh request :=
    match request with
    | .api _ => fun _ => false
    | _ => fun _ => fresh

/-- A program that keeps the types whatever it reads and is answered. -/
def Quiet (fresh : Bool) (p : Handler) : Prop := Safe typeMonitor (fun _ _ => True) fresh p

theorem quiet_ret (fresh : Bool) : Quiet fresh (.ret ()) := .ret trivial

theorem quiet_sendall (fresh : Bool) (bytes : List UInt8) : Quiet fresh (sendall bytes) :=
  .call trivial (fun _ => .ret trivial)

theorem quiet_close (fresh : Bool) : Quiet fresh close := .call trivial (fun _ => .ret trivial)

theorem Quiet.sendall {fresh : Bool} {bytes : List UInt8} {rest : Handler}
    (later : Quiet fresh rest)
    : Quiet fresh (CeServer.sendall bytes >>= fun _ => rest) :=
  .call trivial (fun _ => later)

/-- A call, and what is done with its answer. -/
theorem quiet_api {fresh : Bool} {call : ApiCall} {rest : call.Reply → Handler}
    (keeps : ∀ s, KeepsType s call) (may : call.creates = true → fresh = true)
    (later : ∀ reply, Quiet false (rest reply))
    : Quiet fresh (api call >>= rest) :=
  .call ⟨keeps, may⟩ later

/-- One call that keeps the types, answered in one piece. -/
theorem quiet_answer {call : ApiCall} {bytes : call.Reply → List UInt8}
    (keeps : ∀ s, KeepsType s call)
    : Quiet true (api call >>= fun reply => CeServer.sendall (bytes reply)) :=
  quiet_api keeps (fun _ => rfl) (fun _ => quiet_sendall _ _)

theorem quiet_readOrSkip {fresh : Bool} {size : Int} {body : List UInt8 → Handler}
    (served : ∀ operand, Quiet fresh (body operand))
    : Quiet fresh (readOrSkip size body) := by
  refine .call trivial (fun reply => ?_)
  cases reply with
  | some operand => exact served operand
  | none => exact quiet_ret fresh

theorem quiet_readOrClose {fresh : Bool} {size : Int} {body : List UInt8 → Handler}
    (served : ∀ operand, Quiet fresh (body operand))
    : Quiet fresh (readOrClose size body) := by
  refine .call trivial (fun reply => ?_)
  cases reply with
  | some operand => exact served operand
  | none => exact quiet_close fresh

theorem quiet_sendEach (fresh : Bool) (blocks : List (List UInt8))
    : Quiet fresh (sendEach blocks) := by
  induction blocks with
  | nil => exact quiet_ret fresh
  | cons bytes rest ih => exact ih.sendall

/-- Every case of the switch but two keeps the types. -/
theorem quiet_handlerOf {command : CeCommand} (ex : command ≠ .createToolhelp32SnapshotEx)
    (closes : command ≠ .closeHandle)
    : Quiet true (handlerOf command) := by
  cases command with
  | createToolhelp32SnapshotEx => exact absurd rfl ex
  | closeHandle => exact absurd rfl closes
  | getVersion => exact quiet_sendall _ _
  | getArchitecture => exact .call trivial (fun _ => quiet_sendall _ _)
  | closeConnection => exact quiet_close _
  | terminateServer => exact .call trivial (fun _ => .call trivial (fun never => nomatch never))
  | createToolhelp32Snapshot =>
      refine quiet_readOrClose (fun params => ?_)
      exact quiet_answer (fun _ => trivial)
  | process32First =>
      refine quiet_readOrSkip (fun operand => ?_)
      exact quiet_answer (fun _ => trivial)
  | process32Next =>
      refine quiet_readOrSkip (fun operand => ?_)
      exact quiet_answer (fun _ => trivial)
  | module32First =>
      refine quiet_readOrSkip (fun operand => ?_)
      exact quiet_answer (fun _ => trivial)
  | module32Next =>
      refine quiet_readOrSkip (fun operand => ?_)
      exact quiet_answer (fun _ => trivial)
  | openProcess =>
      refine quiet_readOrClose (fun operand => ?_)
      exact quiet_answer (fun _ => trivial)
  | readProcessMemory =>
      refine quiet_readOrSkip (fun c => ?_)
      refine quiet_api (fun _ => trivial) (fun _ => rfl) (fun o => ?_)
      refine Safe.ite (fun _ => Safe.ite (fun _ => ?_)
        (fun _ => .call trivial (fun never => nomatch never))) (fun _ => quiet_sendall _ _)
      refine quiet_api (fun _ => trivial) (fun creates => creates) (fun deflated => ?_)
      exact (quiet_sendEach _ _).sendall.sendall
  | writeProcessMemory =>
      refine quiet_readOrSkip (fun c => Safe.ite (fun _ => ?_) (fun _ => quiet_sendall _ _))
      refine quiet_readOrSkip (fun buf => ?_)
      exact quiet_answer (fun _ => trivial)
  | virtualQueryExFull =>
      refine quiet_readOrSkip (fun c => ?_)
      refine quiet_api (fun _ => trivial) (fun _ => rfl) (fun listed => ?_)
      cases listed with
      | some vRinfo => exact (quiet_sendEach _ _).sendall
      | none => exact quiet_sendall _ _
  | virtualQueryEx =>
      refine quiet_readOrSkip (fun c => ?_)
      exact quiet_answer (fun _ => trivial)
  | getRegionInfo =>
      refine quiet_readOrSkip (fun c => ?_)
      refine quiet_api (fun _ => trivial) (fun _ => rfl) (fun query => ?_)
      have name : Quiet false
          (if query.memName.length % 2 ^ 8 ≠ 0 then
            CeServer.sendall (query.memName.take (query.memName.length % 2 ^ 8))
          else return ()) :=
        Safe.ite (fun _ => quiet_sendall _ _) (fun _ => quiet_ret _)
      exact name.sendall.sendall
  | getSymbolListFromFile =>
      refine quiet_readOrSkip (fun c => Safe.ite (fun _ => ?_) (fun _ => ?_))
      · exact .call trivial (fun never => nomatch never)
      · exact quiet_readOrClose (fun _ => quiet_sendall _ _)
  | aobScan =>
      refine quiet_readOrSkip (fun c => Safe.ite (fun _ => ?_) (fun _ => ?_))
      · exact quiet_readOrSkip (fun _ => (quiet_sendall _ _).sendall)
      · exact .call trivial (fun never => nomatch never)
  | getOptions => exact quiet_sendall _ _
  | getAbi => exact quiet_sendall _ _
  | isAndroid => exact quiet_sendall _ _
  | _ => exact quiet_ret _

/-- The table stays in order behind every program. -/
theorem run_tableOk {env : Environment} {p : Handler} {c c' : Connection ServerState}
    (ok : TableOk c.state.api)
    (ran : run (Connection.handle (serve env)) p c = .ok ((), c'))
    : TableOk c'.state.api := by
  have kept : ∀ (request : ServerCall) (c : Connection ServerState) reply c',
      TableOk c.state.api → Connection.handle (serve env) request c = .ok (reply, c')
        → TableOk c'.state.api := by
    intro request c reply c' ok answered
    rw [Connection.state_of_handle (serve env) answered]
    cases request with
    | api asked => exact serve_tableOk ok
    | _ => exact ok
  have holds : (fun c : Connection ServerState => TableOk c.state.api) c := ok
  exact run_keeps kept holds ran

/-- What a command does if its process goes on. -/
theorem commandStep_eq_some {s t : ServerState} {a : ClientCommand}
    : commandStep s a = some t ↔ Supplied s.api a.env.supply
        ∧ ∃ c, run (Connection.handle (serve a.env)) (dispatchCommand a.command)
            ⟨a.packets, false, s⟩ = .ok ((), c) ∧ c.state = t := by
  rw [commandStep]
  split
  · next supplied =>
      cases ran : run (Connection.handle (serve a.env)) (dispatchCommand a.command)
        ⟨a.packets, false, s⟩ with
      | ok result =>
          obtain ⟨⟨⟩, c⟩ := result
          simp [supplied]
      | error stop => simp
  · next supplied => simp [supplied]

theorem tableOk_commandStep {s t : ServerState} {a : ClientCommand} (ok : TableOk s.api)
    (taken : commandStep s a = some t)
    : TableOk t.api := by
  obtain ⟨_, c, ran, rfl⟩ := commandStep_eq_some.mp taken
  have start : TableOk (⟨a.packets, false, s⟩ : Connection ServerState).state.api := ok
  exact run_tableOk start ran

/-- A quiet program keeps all calls respected. -/
theorem Quiet.allRespected {env : Environment} {p : Handler} {c c' : Connection ServerState}
    (quiet : Quiet true p) (ok : TableOk c.state.api) (all : AllRespected c.state)
    (supplied : Supplied c.state.api env.supply)
    (ran : run (Connection.handle (serve env)) p c = .ok ((), c'))
    : AllRespected c'.state := by
  let linked : Bool → Connection ServerState → Prop := fun fresh c =>
    TableOk c.state.api ∧ AllRespected c.state
      ∧ (fresh = true → Supplied c.state.api env.supply)
  have start : linked true c := ⟨ok, all, fun _ => supplied⟩
  have answers : ∀ fresh (c : Connection ServerState) request reply c', linked fresh c →
      typeMonitor.allows fresh request →
      Connection.handle (serve env) request c = .ok (reply, c') →
      linked (typeMonitor.after fresh request reply) c' := by
    intro fresh c request reply c' before allowed answered
    obtain ⟨ok, all, supplied⟩ := before
    dsimp only [linked]
    rw [Connection.state_of_handle (serve env) answered]
    cases request with
    | api asked =>
        obtain ⟨keeps, may⟩ := allowed
        have served := (allRespected_serve_iff ok (fun creates => supplied (may creates))).mpr
          ⟨all, keeps c.state.api⟩
        exact ⟨serve_tableOk ok, served, fun fresh => nomatch fresh⟩
    | _ => exact ⟨ok, all, supplied⟩
  obtain ⟨_, ended, _⟩ := Safe.run_of_ok quiet start answers ran
  exact ended.2.1

/-- `CMD_CLOSEHANDLE` keeps all calls respected exactly if its handle is there. -/
theorem allRespected_closeHandle {env : Environment} {s : ServerState}
    {packets : List (List UInt8)} {c : Connection ServerState} (ok : TableOk s.api)
    (all : AllRespected s)
    (ran : run (Connection.handle (serve env)) closeHandle ⟨packets, false, s⟩ = .ok ((), c))
    : AllRespected c.state ↔ (4 ≤ packets.flatten.length →
        s.api.getHandleType (intAt (packets.flatten.take 4) 0) ≠ .htEmpty) := by
  have here : (⟨packets, false, s⟩ : Connection ServerState).At packets.flatten := ⟨rfl, rfl⟩
  by_cases long : 4 ≤ packets.flatten.length
  · obtain ⟨rest, served⟩ := here.run_readOrClose (serve env) (by decide) long _
    cases served.symm.trans ran
    rw [forall_prop_of_true long]
    have one : (ApiCall.closeHandle (intAt (packets.flatten.take 4) 0)).creates = false := rfl
    refine (allRespected_serve_iff ok (fun creates => ?_)).trans (and_iff_right all)
    rw [one] at creates
    exact absurd creates Bool.false_ne_true
  · obtain ⟨rest, served⟩ := here.run_readOrClose_short (serve env) (Nat.lt_of_not_le long) _
    cases served.symm.trans ran
    exact iff_of_true all (fun enough => absurd enough long)

/-- The stream of modules is sent and nothing else is done, by induction on the modules. -/
theorem run_sendModules {σ : Type} {answer : (call : ApiCall) → σ → call.Reply × σ}
    (modules : List ModuleListEntry) (outputstream : List UInt8) (c : Connection σ)
    : run (Connection.handle answer) (sendModules modules outputstream) c = .ok ((), c) := by
  induction modules generalizing outputstream with
  | nil =>
      rw [sendModules]
      split <;> rfl
  | cons me rest ih =>
      rw [sendModules]
      split
      · exact ih _
      · exact ih _

/-- The state behind calls that are made one after the other. -/
def serveAll (env : Environment) (s : ServerState) (calls : List ApiCall) : ServerState :=
  calls.foldl (fun s call => (serve env call s).2) s

/-- The calls with which the reply to `CMD_CREATETOOLHELP32SNAPSHOTEX` is made. -/
def replyCalls (dwFlags : UInt32) (r : Int) : List ApiCall :=
  if dwFlags &&& TH32CS_SNAPTHREAD = TH32CS_SNAPTHREAD then
    if r ≠ 0 then [.threadList r, .closeHandle r] else []
  else if dwFlags &&& TH32CS_SNAPMODULE = TH32CS_SNAPMODULE then
    if r ≠ 0 then [.moduleEntries r, .uninitialized, .closeHandle r] else [.uninitialized]
  else []

/-- The reply to `CMD_CREATETOOLHELP32SNAPSHOTEX`. -/
def snapshotReply (dwFlags : UInt32) (r : Int) : Handler :=
  if dwFlags &&& TH32CS_SNAPTHREAD = TH32CS_SNAPTHREAD then sendThreadList r
  else if dwFlags &&& TH32CS_SNAPMODULE = TH32CS_SNAPMODULE then sendModuleList r
  else sendall (intBytes r)

theorem run_sendThreadList {env : Environment} (r : Int) (c : Connection ServerState)
    : run (Connection.handle (serve env)) (sendThreadList r) c
      = .ok ((), { c with
          state := serveAll env c.state
            (if r ≠ 0 then [.threadList r, .closeHandle r] else []) }) := by
  by_cases present : r ≠ 0
  · rw [if_pos present]
    exact congrArg (run (Connection.handle (serve env)) · c) (if_pos present)
  · rw [if_neg present]
    exact congrArg (run (Connection.handle (serve env)) · c) (if_neg present)

theorem run_sendModuleList {env : Environment} (r : Int) (c : Connection ServerState)
    : run (Connection.handle (serve env)) (sendModuleList r) c
      = .ok ((), { c with
          state := serveAll env c.state
            (if r ≠ 0 then [.moduleEntries r, .uninitialized, .closeHandle r]
              else [.uninitialized]) }) := by
  by_cases present : r ≠ 0
  · rw [if_pos present]
    have modules : run (Connection.handle (serve env)) (modulesOf r) c
        = .ok ((serve env (.moduleEntries r) c.state).1,
          { c with state := (serve env (.moduleEntries r) c.state).2 }) :=
      congrArg (run (Connection.handle (serve env)) · c) (if_pos present)
    refine (run_bind modules).trans ((run_bind (run_sendModules _ _ _)).trans ?_)
    exact congrArg (run (Connection.handle (serve env)) · _) (if_pos present)
  · rw [if_neg present]
    have modules : run (Connection.handle (serve env)) (modulesOf r) c = .ok ([], c) :=
      congrArg (run (Connection.handle (serve env)) · c) (if_neg present)
    refine (run_bind modules).trans ((run_bind (run_sendModules _ _ _)).trans ?_)
    exact congrArg (run (Connection.handle (serve env)) · _) (if_neg present)

theorem run_snapshotReply {env : Environment} (dwFlags : UInt32) (r : Int)
    (c : Connection ServerState)
    : run (Connection.handle (serve env)) (snapshotReply dwFlags r) c
      = .ok ((), { c with state := serveAll env c.state (replyCalls dwFlags r) }) := by
  rw [snapshotReply, replyCalls]
  split
  · exact run_sendThreadList r c
  · split
    · exact run_sendModuleList r c
    · rfl

theorem serve_of_answer {env : Environment} {call : ApiCall} {s : ServerState} {t : ApiState}
    {reply : call.Reply} (answered : s.api.answer env call = some (reply, t))
    : (serve env call s).1 = reply ∧ (serve env call s).2.api = t := by
  rw [serve, answered]
  exact ⟨rfl, rfl⟩

theorem handles_serve_threadList {env : Environment} {s : ServerState} (r : Int)
    : (serve env (.threadList r) s).2.api = s.api := by
  rw [serve, ApiState.answer]
  cases s.api.threadList r <;> rfl

theorem handles_serve_moduleEntries {env : Environment} {s : ServerState} (ok : TableOk s.api)
    (r : Int)
    : (serve env (.moduleEntries r) s).2.api.handles = s.api.handles := by
  by_cases typed : s.api.getHandleType r = .htTHSModule
  · have typed : s.api.getHandleType r = moduleSnapshot.type := typed
    obtain ⟨entries, readIter, snapshot⟩ := ok.exists_snapshot typed
    rw [serve, ApiState.answer, moduleEntries_eq snapshot]
    rfl
  · rw [serve, ApiState.answer, moduleEntries_of_type_ne typed]
    rfl

theorem getHandleType_congr {s t : ApiState} (same : t.handles = s.handles) (h : Int)
    : t.getHandleType h = s.getHandleType h := by
  rw [ApiState.getHandleType, ApiState.getHandleType, same]

/-- Beside the flag for threads, the snapshot made is another one exactly if the flags are mixed. -/
theorem mixesThreads_iff {env : Environment} {s t : ApiState} (ok : TableOk s) {dwFlags : UInt32}
    {pid r : Int} (made : s.createToolhelp32Snapshot env dwFlags pid = some (r, t))
    (threads : dwFlags &&& TH32CS_SNAPTHREAD = TH32CS_SNAPTHREAD)
    : MixesThreads s env dwFlags pid ↔ r ≠ 0 ∧ snapshotType dwFlags ≠ .htTHSThread := by
  rw [MixesThreads, snapshotType]
  by_cases process : dwFlags &&& TH32CS_SNAPPROCESS ≠ 0
  · rw [if_pos process]
    exact iff_of_true ⟨threads, Or.inl process⟩
      ⟨createToolhelp32Snapshot_process process made, by decide⟩
  · rw [if_neg process]
    by_cases module : dwFlags &&& TH32CS_SNAPMODULE ≠ 0
    · rw [if_pos module, createToolhelp32Snapshot_module ok process module made]
      constructor
      · intro mixes
        rcases mixes.2 with other | listed
        · exact absurd other process
        · exact ⟨listed.2, by decide⟩
      · intro present
        exact ⟨threads, Or.inr ⟨module, present.1⟩⟩
    · rw [if_neg module]
      refine iff_of_false (fun mixes => ?_) (fun other => other.2 rfl)
      rcases mixes.2 with other | listed
      · exact process other
      · exact module listed.1

/-- A call that keeps the types is one more that is respected. -/
theorem AllRespected.serve {env : Environment} {call : ApiCall} {s : ServerState}
    (all : AllRespected s) (ok : TableOk s.api) (creates : call.creates = false)
    (keeps : KeepsType s.api call)
    : AllRespected (CeServer.serve env call s).2 := by
  refine (allRespected_serve_iff ok (fun new => ?_)).mpr ⟨all, keeps⟩
  rw [creates] at new
  exact absurd new Bool.false_ne_true

theorem AllRespected.keepsType {env : Environment} {call : ApiCall} {s : ServerState}
    (later : AllRespected (CeServer.serve env call s).2) (ok : TableOk s.api)
    (creates : call.creates = false)
    : KeepsType s.api call := by
  refine ((allRespected_serve_iff ok (fun new => ?_)).mp later).2
  rw [creates] at new
  exact absurd new Bool.false_ne_true

/-- The calls of the reply are respected exactly if the handle is not read as a thread list without
being one.
-/
theorem allRespected_replyCalls {env : Environment} {s : ServerState} (ok : TableOk s.api)
    (all : AllRespected s) {dwFlags : UInt32} {r : Int}
    (typed : r ≠ 0 → s.api.getHandleType r = snapshotType dwFlags)
    : AllRespected (serveAll env s (replyCalls dwFlags r))
      ↔ ¬(dwFlags &&& TH32CS_SNAPTHREAD = TH32CS_SNAPTHREAD ∧ r ≠ 0
          ∧ snapshotType dwFlags ≠ .htTHSThread) := by
  have nonempty : r ≠ 0 → s.api.getHandleType r ≠ .htEmpty := by
    intro present
    rw [typed present, snapshotType]
    split
    · decide
    · split <;> decide
  rw [replyCalls]
  by_cases threads : dwFlags &&& TH32CS_SNAPTHREAD = TH32CS_SNAPTHREAD
  · rw [if_pos threads]
    by_cases present : r ≠ 0
    · rw [if_pos present]
      have same : (serve env (.threadList r) s).2.api = s.api := handles_serve_threadList r
      constructor
      · intro respected mixed
        have read : AllRespected (serve env (.threadList r) s).2 := allRespected_of_serve respected
        exact mixed.2.2 ((typed present).symm.trans (read.keepsType ok rfl))
      · intro pure
        have isThread : snapshotType dwFlags = .htTHSThread := by
          by_contra other
          exact pure ⟨threads, present, other⟩
        have read : AllRespected (serve env (.threadList r) s).2 :=
          all.serve ok rfl ((typed present).trans isThread)
        refine read.serve (serve_tableOk ok) rfl ?_
        rw [same]
        exact nonempty present
    · rw [if_neg present]
      exact iff_of_true all (fun mixed => present mixed.2.1)
  · rw [if_neg threads]
    refine iff_of_true ?_ (fun mixed => threads mixed.1)
    split
    · by_cases present : r ≠ 0
      · rw [if_pos present]
        have listed : AllRespected (serve env (.moduleEntries r) s).2 := all.serve ok rfl trivial
        have ended : AllRespected (serve env .uninitialized (serve env (.moduleEntries r) s).2).2 :=
          listed.serve (serve_tableOk ok) rfl trivial
        refine ended.serve (serve_tableOk (serve_tableOk ok)) rfl ?_
        have same : (serve env .uninitialized (serve env (.moduleEntries r) s).2).2.api.handles
            = s.api.handles := handles_serve_moduleEntries ok r
        exact (getHandleType_congr same r).trans_ne (nonempty present)
      · rw [if_neg present]
        exact all.serve ok rfl trivial
    · exact all

/-- A snapshot and its reply are respected exactly if the flags are not mixed. -/
theorem allRespected_snapshot_iff {env : Environment} {s : ServerState} (ok : TableOk s.api)
    (all : AllRespected s) (supplied : Supplied s.api env.supply) {dwFlags : UInt32} {pid : Int}
    : AllRespected (serveAll env (serve env (.createToolhelp32Snapshot dwFlags pid) s).2
          (replyCalls dwFlags (serve env (.createToolhelp32Snapshot dwFlags pid) s).1))
      ↔ ¬MixesThreads s.api env dwFlags pid := by
  have keeps : KeepsType s.api (.createToolhelp32Snapshot dwFlags pid) := trivial
  obtain ⟨⟨(r : Int), t⟩, made⟩ := exists_answer_of_keepsType ok (fun _ => supplied) keeps
  obtain ⟨replied, api⟩ := serve_of_answer made
  have listed : AllRespected (serve env (.createToolhelp32Snapshot dwFlags pid) s).2 :=
    (allRespected_serve_iff ok (fun _ => supplied)).mpr ⟨all, keeps⟩
  have typed : r ≠ 0 → (serve env (.createToolhelp32Snapshot dwFlags pid) s).2.api.getHandleType r
      = snapshotType dwFlags := by
    intro present
    rw [api]
    exact getHandleType_of_createToolhelp32Snapshot made present
  rw [replied, allRespected_replyCalls (serve_tableOk ok) listed typed, not_iff_not]
  by_cases threads : dwFlags &&& TH32CS_SNAPTHREAD = TH32CS_SNAPTHREAD
  · rw [and_iff_right threads]
    exact (mixesThreads_iff ok made threads).symm
  · exact iff_of_false (fun mixed => threads mixed.1) (fun mixed => threads mixed.1)

/-- `CMD_CREATETOOLHELP32SNAPSHOTEX` keeps all calls respected exactly if its flags are not mixed. -/
theorem allRespected_createToolhelp32SnapshotEx {env : Environment} {s : ServerState}
    {packets : List (List UInt8)} {c : Connection ServerState} (ok : TableOk s.api)
    (all : AllRespected s) (supplied : Supplied s.api env.supply)
    (ran : run (Connection.handle (serve env)) createToolhelp32SnapshotEx ⟨packets, false, s⟩
      = .ok ((), c))
    : AllRespected c.state ↔ (8 ≤ packets.flatten.length →
        ¬MixesThreads s.api env (UInt32.ofNat (wordAt (packets.flatten.take 8) 0 4))
          (intAt (packets.flatten.take 8) 4)) := by
  have here : (⟨packets, false, s⟩ : Connection ServerState).At packets.flatten := ⟨rfl, rfl⟩
  by_cases long : 8 ≤ packets.flatten.length
  · let body : List UInt8 → Handler := fun params =>
      snapshotCall params >>= snapshotReply (UInt32.ofNat (wordAt params 0 4))
    obtain ⟨rest, served⟩ := here.run_readOrClose (serve env) (by decide) long body
    rw [forall_prop_of_true long]
    cases (served.trans (run_snapshotReply _ _ _)).symm.trans ran
    exact allRespected_snapshot_iff ok all supplied
  · obtain ⟨rest, served⟩ := here.run_readOrClose_short (serve env) (Nat.lt_of_not_le long) _
    cases served.symm.trans ran
    exact iff_of_true all (fun enough => absurd enough long)

/-- A command keeps all calls respected exactly if it keeps the types. -/
theorem allRespected_commandStep_iff {s t : ServerState} {a : ClientCommand} (ok : TableOk s.api)
    (all : AllRespected s) (taken : commandStep s a = some t)
    : AllRespected t ↔ KeepsTypes s a := by
  obtain ⟨supplied, c, ran, rfl⟩ := commandStep_eq_some.mp taken
  rw [dispatchCommand] at ran
  rw [KeepsTypes]
  cases selected : CeCommand.ofByte a.command with
  | none =>
      rw [selected] at ran
      cases ran
      exact iff_of_true all trivial
  | some command =>
      rw [selected] at ran
      dsimp only at ran
      by_cases ex : command = .createToolhelp32SnapshotEx
      · subst ex
        exact allRespected_createToolhelp32SnapshotEx ok all supplied ran
      · by_cases closes : command = .closeHandle
        · subst closes
          exact allRespected_closeHandle ok all ran
        · have kept : AllRespected c.state :=
            (quiet_handlerOf ex closes).allRespected ok all supplied ran
          refine iff_of_true kept ?_
          cases command with
          | createToolhelp32SnapshotEx => exact absurd rfl ex
          | closeHandle => exact absurd rfl closes
          | _ => trivial

/-- In every run of commands with any operands all calls are respected exactly if no command mixes
the flag for threads with another snapshot or closes a handle that is not there.
-/
theorem allRespected_iff (acts : List ClientCommand) (t : ServerState)
    (run : exec commandStep .initial acts = some t)
    : Throughout commandStep AllRespected .initial acts
      ↔ Along commandStep KeepsTypes .initial acts := by
  have known : Throughout commandStep (fun s => TableOk s.api) .initial acts :=
    invariant_of_step acts tableOk_initial (fun _ _ _ ok taken => tableOk_commandStep ok taken)
  have allowed : Along commandStep (fun _ _ => True) .initial acts :=
    along_of_forall (fun _ _ _ => trivial) _
  have start : AllRespected .initial := fun i member => by cases member
  refine throughout_iff_along known allowed start ?_ run
  intro s a u ok _ all taken
  exact allRespected_commandStep_iff ok all taken

/-- A process is opened and a snapshot of its threads made, and both handles are used as what they
are not.
-/
def openAndSnapshot : List ClientCommand :=
  [⟨3, [[7, 0, 0, 0]], quietEnvironment 64 0⟩,
    ⟨4, [[4, 0, 0, 0, 7, 0, 0, 0]], quietEnvironment 128 1000⟩,
    ⟨6, [[16, 39, 0, 0]], quietEnvironment 192 2000⟩,
    ⟨9, [[17, 39, 0, 0], List.replicate 13 0], quietEnvironment 192 2000⟩,
    ⟨7, [[17, 39, 0, 0]], quietEnvironment 192 2000⟩]

theorem allRespected_iff_openAndSnapshot
    : (exec commandStep .initial openAndSnapshot).isSome
      ∧ (Throughout commandStep AllRespected .initial openAndSnapshot
        ↔ Along commandStep KeepsTypes .initial openAndSnapshot) := by
  have ran : (exec commandStep .initial openAndSnapshot).isSome := by decide +kernel
  obtain ⟨t, run⟩ := Option.isSome_iff_exists.mp ran
  exact ⟨ran, allRespected_iff openAndSnapshot t run⟩

/-- A snapshot of processes is asked for together with threads. -/
def processesWithThreads : List ClientCommand :=
  [⟨35, [[6, 0, 0, 0, 7, 0, 0, 0]], quietEnvironment 64 0⟩]

/-- The pointer of the list of processes is read as a list of threads. -/
theorem not_allRespected
    : ¬∀ acts t, exec commandStep .initial acts = some t
        → Throughout commandStep AllRespected .initial acts := by
  intro always
  have ran : (exec commandStep .initial processesWithThreads).map
      (fun t => t.log.all (fun i => i.reply.isSome)) = some false := by decide +kernel
  obtain ⟨t, run, misread⟩ := Option.map_eq_some_iff.mp ran
  have all := (always processesWithThreads t run).final run
  have answered : t.log.all (fun i => i.reply.isSome) = true :=
    List.all_eq_true.mpr (fun i member => (all i member).answered)
  rw [misread] at answered
  exact absurd answered Bool.false_ne_true

end RwMem.CeServer
