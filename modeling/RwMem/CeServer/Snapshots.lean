import RwMem.CeServer.Handles

/-! Snapshots of processes, modules and threads with their iterators, and all calls of `CApi` on one
state.
-/

namespace RwMem.CeServer

open Memory RwMem.Driver RwMem.Server

/-- An entry of `/proc`, with what its `cmdline` holds. -/
structure ProcEntry where
  d_name : List UInt8
  isDirectory : Bool
  cmdline : List UInt8

/-- All that a call is given. A directory that cannot be opened and a read that fails are `none`.
`tasks` are the numbers that `atoi` makes of the names in the directory; `readMagic` is the word
after a read of four bytes; `processBehind` and `moduleBehind` are what is read at a position
behind a list.
-/
structure Environment extends Surroundings where
  supply : Supply
  proc : Option (List ProcEntry)
  tasks : (th32ProcessID : Int) → Option (List Int)
  readMagic : (hProcess address : Nat) → Option Nat
  processBehind : Nat → ProcessListEntry
  moduleBehind : Nat → ModuleListEntry
  rinfo : RegionInfo
  deflate : (level : Nat) → List UInt8 → Deflated
  uninitialized : Nat → UInt8

/-- A device on which nothing happens, with an address and a word for one object. -/
def quietEnvironment (address : Nat) (word : UInt32) : Environment :=
  { idleDriver with
    supply := ⟨address, [word]⟩
    proc := some [⟨[49], true, [97, 0]⟩]
    tasks := fun _ => some [1, 0, 2]
    readMagic := fun _ _ => none
    processBehind := fun _ => ⟨0, []⟩
    moduleBehind := fun _ => ⟨0, 0, []⟩
    rinfo := ⟨0, 0, 0, 0⟩
    deflate := fun _ _ => ⟨0, []⟩
    uninitialized := fun _ => 0 }

/-- `atoi` of a string of digits. -/
def atoi (digits : List UInt8) : Int :=
  toInt (digits.foldl (fun n c => n * 10 + (c.toNat - 48)) 0 : Nat)

/-- The bytes of a command line that fit, with blanks for the terminators of its arguments. -/
def processName (cmdline : List UInt8) : List UInt8 :=
  let read := cmdline.take 500
  if read.length > 1 then read.map (fun c => if c = 0 then 32 else c) else read

/-- The directories of `/proc` that have a number as their name. -/
def getProcessListInfo (proc : Option (List ProcEntry)) : List ProcessListEntry :=
  ((proc.getD []).filter (fun ptr =>
    ptr.isDirectory ∧ ptr.d_name.all (fun c => 48 ≤ c ∧ c ≤ 57))).map
    (fun ptr => { PID := atoi ptr.d_name, ProcessName := processName ptr.cmdline })

def asciiBytes (text : String) : List UInt8 := text.toList.map (fun c => UInt8.ofNat c.toNat)

/-- Square brackets conflict with the notation for pointers. -/
def stripBrackets (name : List UInt8) : List UInt8 :=
  if name = asciiBytes "[vdso]" then name
  else name.map (fun c => if c = 91 ∨ c = 93 then 95 else c)

/-- The first module of the name grows by the size. -/
def growModule (moduleName : List UInt8) (size : Nat) : List ModuleListEntry → List ModuleListEntry
  | [] => []
  | me :: rest =>
      if me.moduleName = moduleName then
        { me with moduleSize := toInt (toUint64 me.moduleSize + size : Nat) } :: rest
      else me :: growModule moduleName size rest

/-- `\x7fELF` as a word. -/
def elfMagic : Nat := 0x464c457f

/-- The loop over the regions that fills the list of modules. -/
def addModules (readMagic : (address : Nat) → Option Nat)
    : List Server.RegionInfo → List ModuleListEntry → List ModuleListEntry
  | [], modules => modules
  | rinfo :: rest, modules =>
      if rinfo.protection = PAGE_NOACCESS ∨ rinfo.type = MEM_MAPPED ∨ rinfo.name = []
          ∨ rinfo.name = asciiBytes "[heap]" then
        addModules readMagic rest modules
      else
        let name := stripBrackets rinfo.name
        if modules.any (fun me => me.moduleName = name) then
          addModules readMagic rest (growModule name rinfo.size modules)
        else if readMagic rinfo.baseaddress = some elfMagic then
          addModules readMagic rest (modules ++ [⟨rinfo.baseaddress, toInt rinfo.size, name⟩])
        else addModules readMagic rest modules

/-- A kind of snapshot with entries and an iterator: the type of its handles, and its lists among
the objects.
-/
structure SnapshotKind (α : Type) where
  type : HandleType
  object : (entries : List α) → (readIter : Nat) → Object
  list? : Object → Option (List α × Nat)
  object_type : ∀ entries readIter, (object entries readIter).handleType = type
  list?_object : ∀ entries readIter, list? (object entries readIter) = some (entries, readIter)
  exists_object : ∀ o : Object, o.handleType = type → ∃ entries readIter, o = object entries readIter
  not_process : type ≠ .htProcesHandle

def processSnapshot : SnapshotKind ProcessListEntry where
  type := .htTHSProcess
  object entries readIter := .processList ⟨entries, readIter⟩
  list?
    | .processList list => some (list.vProcessList, list.readIter)
    | _ => none
  object_type _ _ := rfl
  list?_object _ _ := rfl
  exists_object o type := by
    cases o with
    | processList list => exact ⟨_, _, rfl⟩
    | _ => cases type
  not_process := by decide

def moduleSnapshot : SnapshotKind ModuleListEntry where
  type := .htTHSModule
  object entries readIter := .moduleList ⟨entries, readIter⟩
  list?
    | .moduleList list => some (list.vModuleList, list.readIter)
    | _ => none
  object_type _ _ := rfl
  list?_object _ _ := rfl
  exists_object o type := by
    cases o with
    | moduleList list => exact ⟨_, _, rfl⟩
    | _ => cases type
  not_process := by decide

/-- The entry at an iterator that is not at the end; behind the end, whatever is there. -/
def entryAt {α : Type} (behind : Nat → α) (entries : List α) (readIter : Nat) : Option α :=
  if readIter ≠ entries.length then some (entries[readIter]?.getD (behind readIter)) else none

namespace ApiState

/-- The object at the address of a handle is replaced. -/
def setObject (s : ApiState) (h : Int) (object : Object) : ApiState :=
  { s with heap := Function.update s.heap (s.getPointerFromHandle h) (some object) }

/-- The requests on an iterator: it is moved, and then compared with the end. `none` if the pointer
does not lead to such a list.
-/
def moveIter {α : Type} (kind : SnapshotKind α) (move : Nat → Nat) (behind : Nat → α)
    (s : ApiState) (hSnapshot : Int)
    : Option (Option α × ApiState) :=
  if s.getHandleType hSnapshot = kind.type then
    ((s.heap (s.getPointerFromHandle hSnapshot)).bind kind.list?).map (fun (entries, readIter) =>
      (entryAt behind entries (move readIter),
        s.setObject hSnapshot (kind.object entries (move readIter))))
  else some (none, s)

/-- A new object with a new handle for it. -/
def newHandle (s : ApiState) (supply : Supply) (object : Object) : Option (Int × ApiState) :=
  (s.allocate supply.address object).bind
    (fun s => s.createHandleFromPointer supply.random supply.address object.handleType)

variable (env : Environment)

def createToolhelp32Snapshot (s : ApiState) (dwFlags : UInt32) (th32ProcessID : Int)
    : Option (Int × ApiState) :=
  if dwFlags &&& TH32CS_SNAPPROCESS ≠ 0 then
    s.newHandle env.supply (.processList ⟨getProcessListInfo env.proc, 0⟩)
  else if dwFlags &&& TH32CS_SNAPMODULE ≠ 0 then
    (s.findHandleByPID th32ProcessID).bind (fun hm =>
      if hm = 0 then some (0, s)
      else
        (s.openProcessAt (s.getPointerFromHandle hm)).bind (fun process =>
          let vMaps := env.virtualQueryExFull process.u64DriverProcessHandle false
          if vMaps = [] then some (0, s)
          else
            s.newHandle env.supply
              (.moduleList ⟨addModules (env.readMagic process.u64DriverProcessHandle) vMaps [], 0⟩)))
  else if dwFlags &&& TH32CS_SNAPTHREAD ≠ 0 then
    if th32ProcessID = 0 then some (0, s)
    else
      match env.tasks th32ProcessID with
      | some tids => s.newHandle env.supply (.threadList (tids.filter (fun tid => tid ≠ 0)))
      | none => some (0, s)
  else some (0, s)

def process32First (s : ApiState) (hSnapshot : Int) : Option (Option ProcessListEntry × ApiState) :=
  moveIter processSnapshot (fun _ => 0) env.processBehind s hSnapshot

def process32Next (s : ApiState) (hSnapshot : Int) : Option (Option ProcessListEntry × ApiState) :=
  moveIter processSnapshot (fun readIter => readIter + 1) env.processBehind s hSnapshot

def module32First (s : ApiState) (hSnapshot : Int) : Option (Option ModuleListEntry × ApiState) :=
  moveIter moduleSnapshot (fun _ => 0) env.moduleBehind s hSnapshot

def module32Next (s : ApiState) (hSnapshot : Int) : Option (Option ModuleListEntry × ApiState) :=
  moveIter moduleSnapshot (fun readIter => readIter + 1) env.moduleBehind s hSnapshot

/-- The calls of `Module32Next` up to the one that answers `FALSE`, at most `turns` of them. -/
def moduleEntriesLoop (hSnapshot : Int)
    : Nat → Option ModuleListEntry × ApiState → Option (List ModuleListEntry × ApiState)
  | _, (none, s) => some ([], s)
  | 0, (some _, _) => none
  | turns + 1, (some me, s) =>
      (s.module32Next env hSnapshot).bind (fun result =>
        (moduleEntriesLoop hSnapshot turns result).map (fun (rest, s) => (me :: rest, s)))

/-- The number of modules that the pointer of a handle leads to. -/
def moduleCount (s : ApiState) (hSnapshot : Int) : Nat :=
  (((s.heap (s.getPointerFromHandle hSnapshot)).bind moduleSnapshot.list?).map
    (fun list => list.1.length)).getD 0

def moduleEntries (s : ApiState) (hSnapshot : Int) : Option (List ModuleListEntry × ApiState) :=
  (s.module32First env hSnapshot).bind
    (moduleEntriesLoop env hSnapshot (s.moduleCount hSnapshot))

/-- The threads at the pointer of a handle. The code tests nothing here; `none` if the handle is
not that of a thread list.
-/
def threadList (s : ApiState) (h : Int) : Option (List Int) :=
  if s.getHandleType h = .htTHSThread then
    match s.heap (s.getPointerFromHandle h) with
    | some (.threadList threads) => some threads
    | _ => none
  else none

/-- What a call answers; `none` if it reads a pointer as something that is not there, or is given
no new address or number.
-/
def answer : (call : ApiCall) → ApiState → Option (call.Reply × ApiState)
  | .closeHandle h, s => (s.closeHandle h).map (fun t => ((), t))
  | .createToolhelp32Snapshot dwFlags th32ProcessID, s =>
      s.createToolhelp32Snapshot env dwFlags th32ProcessID
  | .process32First hSnapshot, s => s.process32First env hSnapshot
  | .process32Next hSnapshot, s => s.process32Next env hSnapshot
  | .module32First hSnapshot, s => s.module32First env hSnapshot
  | .module32Next hSnapshot, s => s.module32Next env hSnapshot
  | .moduleEntries hSnapshot, s => s.moduleEntries env hSnapshot
  | .threadList h, s => (s.threadList h).map (fun threads => (threads, s))
  | .openProcess pid, s => s.openProcess env.supply pid
  | .readProcessMemory hProcess address size, s =>
      (s.readProcessMemory env.toSurroundings hProcess address size).map (fun o => (o, s))
  | .writeProcessMemory hProcess address buffer, s =>
      (s.writeProcessMemory env.toSurroundings hProcess address buffer).map
        (fun written => (written, s))
  | .virtualQueryExFull hProcess flags, s =>
      s.virtualQueryExFull env.toSurroundings hProcess flags
  | .virtualQueryEx hProcess address, s =>
      s.virtualQueryEx env.toSurroundings hProcess address env.rinfo
  | .deflate level input, s => some (env.deflate level input, s)
  | .uninitialized, s => some (env.uninitialized, s)

end ApiState

end RwMem.CeServer
