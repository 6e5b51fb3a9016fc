import RwMem.CeServer.Cursors
import RwMem.CeServer.Replies
import RwMem.CeServer.TypedHandles
import RwMem.Memory.Bytes

/-! The modules of a snapshot as they go through the buffer of `CMD_CREATETOOLHELP32SNAPSHOTEX`, and
what a client reads from them.
-/

namespace RwMem.CeServer

open Collections Memory Memory.Decoder RwMem.Driver RwMem.Server Transition Transition.Program

-----------------------------------------------------------------------------------------
-- The buffer
-----------------------------------------------------------------------------------------

/-- A store into `outputstream`; `none` if it reaches behind the 65536 bytes. -/
def storeInside (outputstream : Nat → UInt8) (at_ : Nat) (bytes : List UInt8)
    : Option (Nat → UInt8) :=
  if at_ + bytes.length ≤ 65536 then some (store outputstream at_ bytes) else none

/-- The fields of the record in the order in which they are stored, and the name behind them. -/
def writeRecord (outputstream : Nat → UInt8) (pos : Nat) (me : ModuleListEntry)
    : Option (Nat → UInt8) := do
  let m ← storeInside outputstream (pos + 4) (leBytes 8 me.baseAddress)
  let m ← storeInside m (pos + 16) (intBytes me.moduleSize)
  let m ← storeInside m (pos + 24) (intBytes me.moduleName.length)
  let m ← storeInside m (pos + 20) (leBytes 4 0)
  let m ← storeInside m (pos + 12) (intBytes 0)
  let m ← storeInside m pos (intBytes 1)
  storeInside m (pos + 28) me.moduleName

/-- `outputstream` and `pos`, with what was flushed so far. -/
structure ModuleStream where
  outputstream : Nat → UInt8
  pos : Nat
  flushed : List (List UInt8)

/-- The buffer comes from `calloc`. -/
def ModuleStream.start : ModuleStream := { outputstream := fun _ => 0, pos := 0, flushed := [] }

/-- The stream is flushed if the next record does not fit. -/
def ModuleStream.flushFor (s : ModuleStream) (namelen : Nat) : ModuleStream :=
  if s.pos + 28 + namelen > 65536 then
    { s with flushed := s.flushed ++ [cells s.outputstream 0 s.pos], pos := 0 }
  else s

/-- A turn of the loop over the modules. -/
def moduleTurn (s : ModuleStream) (me : ModuleListEntry) : Option ModuleStream :=
  let namelen := me.moduleName.length
  let s := s.flushFor namelen
  (writeRecord s.outputstream s.pos me).map (fun outputstream =>
    { s with outputstream, pos := s.pos + 28 + namelen })

/-- All that is sent of the modules: the flushes in the loop and the one behind it. -/
def ModuleStream.sends (s : ModuleStream) : List (List UInt8) :=
  s.flushed ++ if s.pos ≠ 0 then [cells s.outputstream 0 s.pos] else []

/-- The bytes of the stream so far. -/
def ModuleStream.written (s : ModuleStream) : List UInt8 :=
  s.flushed.flatten ++ cells s.outputstream 0 s.pos

theorem ModuleStream.flatten_sends (s : ModuleStream) : s.sends.flatten = s.written := by
  rw [ModuleStream.sends, ModuleStream.written, List.flatten_append]
  split
  · simp
  · next nothing =>
      rw [not_not.mp nothing]
      rfl

/-- The buffer with a record in it. -/
def withRecord (outputstream : Nat → UInt8) (pos : Nat) (me : ModuleListEntry) : Nat → UInt8 :=
  let m := store outputstream (pos + 4) (leBytes 8 me.baseAddress)
  let m := store m (pos + 16) (intBytes me.moduleSize)
  let m := store m (pos + 24) (intBytes me.moduleName.length)
  let m := store m (pos + 20) (leBytes 4 0)
  let m := store m (pos + 12) (intBytes 0)
  let m := store m pos (intBytes 1)
  store m (pos + 28) me.moduleName

/-- All fields of a record that fits are stored inside of the buffer. -/
theorem writeRecord_of_fits (outputstream : Nat → UInt8) {pos : Nat} {me : ModuleListEntry}
    (fits : pos + 28 + me.moduleName.length ≤ 65536)
    : writeRecord outputstream pos me = some (withRecord outputstream pos me) := by
  have inside (m : Nat → UInt8) (at_ : Nat) {bytes : List UInt8}
      (there : at_ + bytes.length ≤ pos + 28 + me.moduleName.length)
      : storeInside m at_ bytes = some (store m at_ bytes) :=
    if_pos (there.trans fits)
  have field (offset : Nat) {bytes : List UInt8} (short : offset + bytes.length ≤ 28)
      : pos + offset + bytes.length ≤ pos + 28 + me.moduleName.length := by omega
  rw [writeRecord, withRecord, inside _ _ (field 4 (by simp)), Option.bind_eq_bind, Option.bind_some,
    inside _ _ (field 16 (by simp [length_intBytes])), Option.bind_some,
    inside _ _ (field 24 (by simp [length_intBytes])), Option.bind_some,
    inside _ _ (field 20 (by simp)), Option.bind_some,
    inside _ _ (field 12 (by simp [length_intBytes])), Option.bind_some,
    inside _ pos (field 0 (by simp [length_intBytes])), Option.bind_some,
    inside _ _ (Nat.le_refl _)]

/-- The stores of a record leave what is in front of it and do not overlap, whatever their order. -/
theorem fields_withRecord (outputstream : Nat → UInt8) (pos : Nat) (me : ModuleListEntry)
    : let m := withRecord outputstream pos me
      cells m 0 pos = cells outputstream 0 pos
      ∧ cells m pos 4 = intBytes 1
      ∧ cells m (pos + 4) 8 = leBytes 8 me.baseAddress
      ∧ cells m (pos + 12) 4 = intBytes 0
      ∧ cells m (pos + 16) 4 = intBytes me.moduleSize
      ∧ cells m (pos + 20) 4 = leBytes 4 0
      ∧ cells m (pos + 24) 4 = intBytes me.moduleName.length
      ∧ cells m (pos + 28) me.moduleName.length = me.moduleName := by
  refine ⟨?_, ?_, ?_, ?_, ?_, ?_, ?_, cells_store _ _ _⟩
  all_goals
    simp (disch := simp [length_intBytes]) only [withRecord, cells_store_apart, cells_store_here]

/-- The record stands behind what is there, with its fields in the order of `CeModuleEntry`. -/
theorem cells_withRecord (outputstream : Nat → UInt8) (pos : Nat) (me : ModuleListEntry)
    : cells (withRecord outputstream pos me) 0 (pos + 28 + me.moduleName.length)
      = cells outputstream 0 pos ++ ceModuleEntry (some me) := by
  obtain ⟨before, result, base, part, size, offset, namesize, name⟩ :=
    fields_withRecord outputstream pos me
  have header : cells (withRecord outputstream pos me) pos 28
      = ceModuleHeader 1 me.baseAddress 0 me.moduleSize 0 me.moduleName.length := by
    have split : 28 = 4 + 8 + 4 + 4 + 4 + 4 := rfl
    rw [split, cells_add, cells_add, cells_add, cells_add, cells_add, result, base, part, size,
      offset, namesize, ceModuleHeader]
  rw [cells_add, cells_add, Nat.zero_add, Nat.zero_add, before, header, name, ceModuleEntry,
    List.append_assoc]

-----------------------------------------------------------------------------------------
-- The stream
-----------------------------------------------------------------------------------------

/-- What the modules are in plain, one record behind the other. -/
def plainModules (modules : List ModuleListEntry) : List UInt8 :=
  modules.flatMap (fun me => ceModuleEntry (some me))

/-- The place of a stream in its buffer. -/
def InsideBuffer (s : ModuleStream) : Prop := s.pos ≤ 65536

theorem ModuleStream.flushFor_written (s : ModuleStream) (namelen : Nat)
    : (s.flushFor namelen).written = s.written := by
  rw [ModuleStream.flushFor]
  split
  · simp [ModuleStream.written, cells]
  · rfl

/-- Behind the test there is room for a record with a name that is short enough. -/
theorem ModuleStream.flushFor_fits (s : ModuleStream) {namelen : Nat} (short : namelen ≤ 511)
    : (s.flushFor namelen).pos + 28 + namelen ≤ 65536 := by
  rw [ModuleStream.flushFor]
  split
  · dsimp only
    omega
  · next fits => exact Nat.le_of_not_lt fits

/-- What a turn makes of a stream. -/
theorem moduleTurn_eq (s : ModuleStream) {me : ModuleListEntry} (short : me.moduleName.length ≤ 511)
    : moduleTurn s me
      = some
          { flushed := (s.flushFor me.moduleName.length).flushed
            outputstream :=
              withRecord (s.flushFor me.moduleName.length).outputstream
                (s.flushFor me.moduleName.length).pos me
            pos := (s.flushFor me.moduleName.length).pos + 28 + me.moduleName.length } := by
  rw [moduleTurn, writeRecord_of_fits _ (s.flushFor_fits short)]
  rfl

/-- A turn appends the record to the stream, and stays in the buffer. -/
theorem moduleTurn_spec (s : ModuleStream) {me : ModuleListEntry}
    (short : me.moduleName.length ≤ 511)
    : ∃ t, moduleTurn s me = some t ∧ InsideBuffer t
        ∧ t.written = s.written ++ ceModuleEntry (some me) := by
  refine ⟨_, moduleTurn_eq s short, s.flushFor_fits short, ?_⟩
  rw [ModuleStream.written, cells_withRecord, ← List.append_assoc,
    ← s.flushFor_written me.moduleName.length]
  rfl

/-- What is in the buffer behind a turn. -/
theorem cells_moduleTurn (s : ModuleStream) {me : ModuleListEntry} {t : ModuleStream}
    (short : me.moduleName.length ≤ 511) (turn : moduleTurn s me = some t)
    : cells t.outputstream 0 t.pos
      = cells (s.flushFor me.moduleName.length).outputstream 0 (s.flushFor me.moduleName.length).pos
        ++ ceModuleEntry (some me) := by
  cases (moduleTurn_eq s short).symm.trans turn
  exact cells_withRecord _ _ me

/-- The handler sends what the turns flush, and then what is left in the buffer, by induction on the
modules.
-/
theorem sendModules_eq_sendEach {modules : List ModuleListEntry} (s : ModuleStream)
    (short : ∀ me ∈ modules, me.moduleName.length ≤ 511)
    : ∃ t more, exec moduleTurn s modules = some t ∧ t.sends = s.flushed ++ more
        ∧ t.written = s.written ++ plainModules modules
        ∧ sendModules modules (cells s.outputstream 0 s.pos) = sendEach more := by
  induction modules generalizing s with
  | nil =>
      refine ⟨s, _, rfl, rfl, (List.append_nil _).symm, ?_⟩
      have empty : cells s.outputstream 0 s.pos = [] ↔ s.pos = 0 := by
        rw [← List.length_eq_zero_iff, length_cells]
      rw [sendModules]
      by_cases nothing : s.pos = 0
      · rw [if_neg (not_not.mpr (empty.mpr nothing)), if_neg (not_not.mpr nothing)]
        rfl
      · rw [if_pos (fun none => nothing (empty.mp none)), if_pos nothing]
        rfl
  | cons me rest ih =>
      have fits := short me List.mem_cons_self
      obtain ⟨s', turn, _, appended⟩ := moduleTurn_spec s fits
      obtain ⟨t, more, run, sends, written, sent⟩ :=
        ih s' (fun m member => short m (List.mem_cons_of_mem me member))
      have whole : t.written = s.written ++ plainModules (me :: rest) := by
        rw [written, appended, List.append_assoc]
        rfl
      have taken : exec moduleTurn s (me :: rest) = some t := by
        rw [exec_cons, turn, Option.bind_some, run]
      rw [cells_moduleTurn s fits turn] at sent
      have flushed : s'.flushed = (s.flushFor me.moduleName.length).flushed := by
        cases (moduleTurn_eq s fits).symm.trans turn
        rfl
      rw [flushed] at sends
      rw [sendModules, length_cells]
      by_cases full : s.pos + 28 + me.moduleName.length > 65536
      · rw [ModuleStream.flushFor, if_pos full] at sends sent
        rw [if_pos full]
        refine ⟨t, cells s.outputstream 0 s.pos :: more, taken, ?_, whole, ?_⟩
        · rw [sends, List.append_assoc, List.singleton_append]
        · exact congrArg (fun later => sendall (cells s.outputstream 0 s.pos) >>= fun _ => later) sent
      · rw [ModuleStream.flushFor, if_neg full] at sends sent
        rw [if_neg full]
        exact ⟨t, more, taken, sends, whole, sent⟩

/-- Every place that the stream takes in its buffer is inside of it. -/
theorem insideBuffer_throughout {modules : List ModuleListEntry}
    (short : ∀ me ∈ modules, me.moduleName.length ≤ 511)
    : Throughout moduleTurn InsideBuffer .start modules := by
  refine invariant (fun _ me => me.moduleName.length ≤ 511) (Nat.zero_le _) ?_
    (along_of_forall (fun me member _ => short me member) _)
  intro s me t _ fits turn
  obtain ⟨t', turn', inside, _⟩ := moduleTurn_spec s fits
  cases turn'.symm.trans turn
  exact inside

-----------------------------------------------------------------------------------------
-- The command
-----------------------------------------------------------------------------------------

/-- A module with values of the types that it has, and with a name that the driver can give. -/
def ModuleListEntry.Fits (me : ModuleListEntry) : Prop :=
  me.baseAddress < 2 ^ 64 ∧ IsInt me.moduleSize ∧ me.moduleName.length ≤ 511

/-- Whatever bytes there are, they are some word. -/
theorem decodes_anyWord {front : List UInt8} {n : Nat} (length : front.length = n)
    : Decodes (word n) front (leValue front) :=
  (decodes_bytes length).map leValue

theorem decodes_anyInt {front : List UInt8} (length : front.length = 4)
    : Decodes intWord front (toInt (leValue front)) :=
  (decodes_anyWord length).map (fun w : Nat => toInt w)

/-- The record behind the modules says that there are no more, whatever its other fields hold. -/
theorem decodes_endOfModules (eol : Nat → UInt8) : Decodes moduleEntry (endOfModules eol) none := by
  have fields : endOfModules eol
      = intBytes 0 ++ (cells eol 4 8 ++ (cells eol 12 4 ++ (cells eol 16 4 ++ (cells eol 20 4
        ++ (intBytes 0 ++ []))))) := by
    have split : 20 = 8 + 4 + 4 + 4 := rfl
    rw [endOfModules, split, cells_add, cells_add, cells_add]
    simp only [List.append_assoc, List.append_nil]
  rw [fields]
  refine (decodes_intWord isInt_zero).bind ?_
  refine (decodes_anyWord (length_cells _ _ _)).bind ?_
  refine (decodes_anyInt (length_cells _ _ _)).bind ?_
  refine (decodes_anyInt (length_cells _ _ _)).bind ?_
  refine (decodes_anyWord (length_cells _ _ _)).bind ?_
  refine (decodes_intWord isInt_zero).bind ?_
  exact decodes_noName.map _

/-- A client that reads records up to the end reads the modules. -/
theorem decodes_modules {modules : List ModuleListEntry} (fits : ∀ me ∈ modules, me.Fits)
    (eol : Nat → UInt8) {turns : Nat} (enough : modules.length < turns)
    : Decodes (untilNone moduleEntry turns) (plainModules modules ++ endOfModules eol) modules := by
  refine decodes_untilNone enough (fun me member => ?_) (decodes_endOfModules eol)
  exact decodes_moduleEntry (fun e same => by cases same; exact fits me member)

/-- Blocks are sent one behind the other, by induction on them. -/
theorem run_sendEach {σ : Type} (answer : (call : ApiCall) → σ → call.Reply × σ)
    (blocks : List (List UInt8)) (x : Exchange σ)
    : run (Exchange.handle answer) (sendEach blocks) x
      = .ok ((), { x with sent := x.sent ++ blocks.flatten }) := by
  induction blocks generalizing x with
  | nil => simp [sendEach]
  | cons bytes rest ih =>
      have first : run (Exchange.handle answer) (sendall bytes) x
          = .ok ((), { x with sent := x.sent ++ bytes }) := rfl
      rw [sendEach, run_bind first, ih, List.flatten_cons, List.append_assoc]

/-- The flags ask for modules, and for neither processes nor threads. -/
def AsksModules (dwFlags : UInt32) : Prop :=
  dwFlags &&& TH32CS_SNAPMODULE = TH32CS_SNAPMODULE ∧ dwFlags &&& TH32CS_SNAPPROCESS = 0
    ∧ dwFlags &&& TH32CS_SNAPTHREAD = 0

/-- The modules of the snapshot that was made; there are none without one. -/
def HasModules (s : ApiState) (r : Int) (modules : List ModuleListEntry) : Prop :=
  if r = 0 then modules = [] else ∃ readIter, IsSnapshot moduleSnapshot s r modules readIter

/-- The entries of the snapshot are asked for. -/
theorem run_modulesOf (env : Environment) {r : Int} {modules : List ModuleListEntry}
    {x : Exchange ServerState} (taken : HasModules x.connection.state.api r modules)
    : ∃ state, run (Exchange.handle (serve env)) (modulesOf r) x
        = .ok (modules, { x with connection.state := state }) := by
  by_cases absent : r = 0
  · rw [HasModules, if_pos absent] at taken
    rw [taken]
    exact ⟨_, congrArg (run (Exchange.handle (serve env)) · x) (if_neg (not_not.mpr absent))⟩
  · rw [HasModules, if_neg absent] at taken
    obtain ⟨readIter, snapshot⟩ := taken
    have answered : x.connection.state.api.answer env (.moduleEntries r)
        = some (modules, x.connection.state.api.setObject r
          (moduleSnapshot.object modules modules.length)) := moduleEntries_eq snapshot
    have asked : run (Exchange.handle (serve env)) (modulesOf r) x
        = .ok ((serve env (.moduleEntries r) x.connection.state).1,
          { x with connection.state := (serve env (.moduleEntries r) x.connection.state).2 }) :=
      congrArg (run (Exchange.handle (serve env)) · x) (if_pos absent)
    exact ⟨_, asked.trans (congrArg (fun entries => Except.ok (entries, _))
      (serve_of_answer answered).1)⟩

/-- The part of `sendModuleList` behind the modules. -/
def sendModuleEnd (r : Int) : Handler := do
  let eol ← api .uninitialized
  sendall (endOfModules eol)
  if r ≠ 0 then api (.closeHandle r) else return ()

theorem run_sendModuleEnd (env : Environment) (r : Int) (x : Exchange ServerState)
    : ∃ eol x', run (Exchange.handle (serve env)) (sendModuleEnd r) x = .ok ((), x')
        ∧ x'.sent = x.sent ++ endOfModules eol := by
  by_cases absent : r = 0
  · exact ⟨_, _, congrArg (run (Exchange.handle (serve env)) · _) (if_neg (not_not.mpr absent)), rfl⟩
  · exact ⟨_, _, congrArg (run (Exchange.handle (serve env)) · _) (if_pos absent), rfl⟩

/-- The modules are sent as the stream, and then their end. -/
theorem run_moduleList (env : Environment) {r : Int} {modules : List ModuleListEntry}
    {x : Exchange ServerState} (taken : HasModules x.connection.state.api r modules)
    (short : ∀ me ∈ modules, me.moduleName.length ≤ 511)
    : ∃ s eol x', exec moduleTurn .start modules = some s
        ∧ run (Exchange.handle (serve env)) (sendModuleList r) x = .ok ((), x')
        ∧ x'.sent = x.sent ++ (s.sends.flatten ++ endOfModules eol)
        ∧ s.sends.flatten = plainModules modules := by
  obtain ⟨state, asked⟩ := run_modulesOf env taken
  obtain ⟨s, more, filled, sends, written, sent⟩ := sendModules_eq_sendEach .start short
  have sends : s.sends = more := sends
  have plain : s.sends.flatten = plainModules modules := by
    rw [s.flatten_sends, written]
    rfl
  have streamed : run (Exchange.handle (serve env)) (sendModules modules [])
      { x with connection.state := state }
      = .ok ((), { { x with connection.state := state } with sent := x.sent ++ more.flatten }) :=
    (congrArg (run (Exchange.handle (serve env)) · _) sent).trans (run_sendEach (serve env) more _)
  obtain ⟨eol, x', ended, last⟩ := run_sendModuleEnd env r
    { { x with connection.state := state } with sent := x.sent ++ more.flatten }
  refine ⟨s, eol, x', filled, ?_, ?_, plain⟩
  · exact (run_bind asked).trans ((run_bind streamed).trans ended)
  · rw [last, sends, List.append_assoc]

/-- With flags that ask for modules the list of modules is the reply. -/
theorem snapshotReply_of_asksModules {dwFlags : UInt32} (asks : AsksModules dwFlags) (r : Int)
    : snapshotReply dwFlags r = sendModuleList r := by
  obtain ⟨module, _, thread⟩ := asks
  have noThread : ¬dwFlags &&& TH32CS_SNAPTHREAD = TH32CS_SNAPTHREAD := by
    rw [thread]
    decide
  rw [snapshotReply, if_neg noThread, if_pos module]

/-- For every snapshot of modules with names that the driver can give, the handler sends what the
turns of its loop flush and the end behind it: the records of all modules in their order, whatever
the flushes cut. Every record is stored inside of the buffer, the place in it never passes 65536,
and a client that reads records up to the end reads exactly the modules.
-/
theorem moduleStream_plain {env : Environment} {x : Exchange ServerState}
    {params behind : List UInt8} {r : Int} {t : ApiState} {modules : List ModuleListEntry}
    (here : x.connection.At (params ++ behind)) (long : params.length = 8)
    (asks : AsksModules (UInt32.ofNat (wordAt params 0 4)))
    (made : x.connection.state.api.createToolhelp32Snapshot env (UInt32.ofNat (wordAt params 0 4))
      (intAt params 4) = some (r, t))
    (taken : HasModules t r modules) (fits : ∀ me ∈ modules, me.Fits)
    : ∃ s eol x', exec moduleTurn .start modules = some s
        ∧ Throughout moduleTurn InsideBuffer .start modules
        ∧ run (Exchange.handle (serve env)) createToolhelp32SnapshotEx x = .ok ((), x')
        ∧ x'.sent = x.sent ++ (s.sends.flatten ++ endOfModules eol)
        ∧ s.sends.flatten = plainModules modules
        ∧ ∀ turns > modules.length,
          Decodes (untilNone moduleEntry turns) (s.sends.flatten ++ endOfModules eol) modules := by
  have short : ∀ me ∈ modules, me.moduleName.length ≤ 511 := fun me member => (fits me member).2.2
  obtain ⟨packets, took, _⟩ := Exchange.exists_recvall (serve env) here
    (List.ne_nil_of_length_pos (by omega))
  rw [long] at took
  let y : Exchange ServerState := { x with connection.packets := packets }
  have answered : y.connection.state.api.answer env
      (.createToolhelp32Snapshot (UInt32.ofNat (wordAt params 0 4)) (intAt params 4)) = some (r, t) :=
    made
  obtain ⟨handle, api⟩ := serve_of_answer answered
  let z : Exchange ServerState := { y with connection.state := (serve env
    (.createToolhelp32Snapshot (UInt32.ofNat (wordAt params 0 4)) (intAt params 4))
    y.connection.state).2 }
  have called : run (Exchange.handle (serve env)) (snapshotCall params) y = .ok (r, z) :=
    congrArg (fun n => Except.ok (n, z)) handle
  have there : HasModules z.connection.state.api r modules := api.symm ▸ taken
  obtain ⟨s, eol, x', filled, ran, sent, plain⟩ := run_moduleList env there short
  rw [← snapshotReply_of_asksModules asks] at ran
  refine ⟨s, eol, x', filled, insideBuffer_throughout short, ?_, sent, plain, ?_⟩
  · exact (run_call took).trans ((run_bind called).trans ran)
  · intro turns enough
    rw [plain]
    exact decodes_modules fits eol enough

/-- The flag for modules, and the number of a process. -/
def moduleParams : List UInt8 := [8, 0, 0, 0, 1, 0, 0, 0]

/-- A client that asks for the modules of process 1, which is open. -/
def moduleClient : Exchange ServerState where
  connection :=
    { packets := [moduleParams]
      closed := false
      state :=
        { api :=
            { handles := OrderedMap.empty.insert 7 ⟨32, .htProcesHandle⟩
              heap := fun p => if p = 32 then some (.openProcess ⟨1, 1, [], 0⟩) else none }
          log := [] } }
  sent := []

/-- The process has one region, which is that of a module. -/
def oneModuleDevice : Environment :=
  { quietEnvironment 64 0 with
    virtualQueryExFull := fun _ _ => [⟨4096, 4096, PAGE_EXECUTE_READ, MEM_PRIVATE, [97]⟩]
    readMagic := fun _ _ => some elfMagic }

theorem moduleStream_plain_oneModule
    : ∃ s eol x', exec moduleTurn .start [⟨4096, 4096, [97]⟩] = some s
        ∧ Throughout moduleTurn InsideBuffer .start [⟨4096, 4096, [97]⟩]
        ∧ run (Exchange.handle (serve oneModuleDevice)) createToolhelp32SnapshotEx moduleClient
          = .ok ((), x')
        ∧ x'.sent = moduleClient.sent ++ (s.sends.flatten ++ endOfModules eol)
        ∧ s.sends.flatten = plainModules [⟨4096, 4096, [97]⟩]
        ∧ ∀ turns > 1,
          Decodes (untilNone moduleEntry turns) (s.sends.flatten ++ endOfModules eol)
            [⟨4096, 4096, [97]⟩] := by
  have taken : (moduleClient.connection.state.api.createToolhelp32Snapshot oneModuleDevice
      (UInt32.ofNat (wordAt moduleParams 0 4)) (intAt moduleParams 4)).map
        (fun p => (p.1, p.2.getHandleType p.1, p.2.heap (p.2.getPointerFromHandle p.1)))
      = some (10000, .htTHSModule, some (.moduleList ⟨[⟨4096, 4096, [97]⟩], 0⟩)) := by
    decide +kernel
  obtain ⟨⟨r, t⟩, made, same⟩ := Option.map_eq_some_iff.mp taken
  simp only [Prod.mk.injEq] at same
  obtain ⟨rfl, typed, live⟩ := same
  have here : moduleClient.connection.At (moduleParams ++ []) := ⟨rfl, rfl⟩
  refine moduleStream_plain here rfl ⟨by decide, by decide, by decide⟩ made ?_ ?_
  · rw [HasModules, if_neg (by decide)]
    exact ⟨0, typed, live⟩
  · intro me member
    rw [List.mem_singleton.mp member]
    have named : [(97 : UInt8)].length ≤ 511 := by
      rw [List.length_singleton]
      omega
    exact ⟨by simp, ⟨by simp, by simp⟩, named⟩

end RwMem.CeServer
