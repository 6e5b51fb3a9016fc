import Mathlib.Logic.Function.Basic
import RwMem.CeServer.Dispatch
import RwMem.Collections.OrderedMap
import RwMem.Server.MemoryReaderWriter

/-! The table of handles, the objects that its pointers lead to, and the functions of `CApi` on
processes.
-/

namespace RwMem.CeServer

open Collections Memory RwMem.Driver RwMem.Server

inductive HandleType where
  | htEmpty
  | htProcesHandle
  | htThreadHandle
  | htTHSProcess
  | htTHSModule
  | htTHSThread
  | htNativeThreadHandle
deriving DecidableEq

/-- `vLastMaps` and the time at which it was asked for, in milliseconds, are the cache of the
queries.
-/
structure CeOpenProcess where
  pid : Int
  u64DriverProcessHandle : Nat
  vLastMaps : List Server.RegionInfo
  nLastGetMapsTime : Nat
deriving DecidableEq

structure CeProcessList where
  vProcessList : List ProcessListEntry
  readIter : Nat
deriving DecidableEq

structure CeModuleList where
  vModuleList : List ModuleListEntry
  readIter : Nat
deriving DecidableEq

/-- What the pointer of a handle leads to. -/
inductive Object where
  | openProcess (process : CeOpenProcess)
  | processList (list : CeProcessList)
  | moduleList (list : CeModuleList)
  | threadList (threads : List Int)
deriving DecidableEq

/-- The type of the handles for the object. -/
def Object.handleType : Object → HandleType
  | .openProcess _ => .htProcesHandle
  | .processList _ => .htTHSProcess
  | .moduleList _ => .htTHSModule
  | .threadList _ => .htTHSThread

structure HandleInfo where
  p : Nat
  type : HandleType
deriving DecidableEq

/-- `m_HandlePointList`, and the objects at their addresses. -/
structure ApiState where
  handles : OrderedMap Int HandleInfo
  heap : Nat → Option Object

def ApiState.initial : ApiState := { handles := .empty, heap := fun _ => none }

namespace ApiState

def getHandleType (s : ApiState) (handle : Int) : HandleType :=
  ((s.handles.find? handle).map HandleInfo.type).getD .htEmpty

def getPointerFromHandle (s : ApiState) (handle : Int) : Nat :=
  ((s.handles.find? handle).map HandleInfo.p).getD 0

def removeHandle (s : ApiState) (handle : Int) : ApiState :=
  { s with handles := s.handles.erase handle }

/-- The open process at an address; `none` if there is something else or nothing, which the
code would read all the same.
-/
def openProcessAt (s : ApiState) (p : Nat) : Option CeOpenProcess :=
  match s.heap p with
  | some (.openProcess process) => some process
  | _ => none

/-- The loop of `FindHandleByPID`; it answers 0 if no handle is for the process. -/
def findInEntries (s : ApiState) (pid : Int) : List ((_ : Int) × HandleInfo) → Option Int
  | [] => some 0
  | ⟨handle, info⟩ :: rest =>
      if info.type = .htProcesHandle then
        (s.openProcessAt info.p).bind (fun process =>
          if process.pid = pid then some handle else findInEntries s pid rest)
      else findInEntries s pid rest

def findHandleByPID (s : ApiState) (pid : Int) : Option Int :=
  s.findInEntries pid s.handles.entries

end ApiState

/-- The number made of a random word. -/
def handleOf (rd : UInt32) : Int :=
  let handle := toInt ((10000 + rd.toNat / 1000 : Nat) : Int)
  if handle < 0 then -handle else handle

/-- The first number that is not a handle yet; `none` if none of the words makes one. -/
def pickHandle (handles : OrderedMap Int HandleInfo) : List UInt32 → Option Int
  | [] => none
  | rd :: rest =>
      if (handles.find? (handleOf rd)).isSome then pickHandle handles rest
      else some (handleOf rd)

/-- What a request is given: the address of a new object and the words of the random device. -/
structure Supply where
  address : Nat
  random : List UInt32

namespace ApiState

def createHandleFromPointer (s : ApiState) (random : List UInt32) (p : Nat) (type : HandleType)
    : Option (Int × ApiState) :=
  (pickHandle s.handles random).map (fun handle =>
    (handle, { s with handles := s.handles.insert handle ⟨p, type⟩ }))

/-- A new object lies at an address at which there is none. -/
def allocate (s : ApiState) (address : Nat) (object : Object) : Option ApiState :=
  if address ≠ 0 ∧ s.heap address = none then
    some { s with heap := Function.update s.heap address (some object) }
  else none

/-- `OpenProcess` of the driver client returns the process number. -/
def openProcess (s : ApiState) (supply : Supply) (pid : Int) : Option (Int × ApiState) :=
  (s.findHandleByPID pid).bind (fun hm =>
    if hm ≠ 0 then some (hm, s)
    else
      let u64DriverProcessHandle := toUint64 pid
      if u64DriverProcessHandle = 0 then some (0, s)
      else
        (s.allocate supply.address
          (.openProcess { pid, u64DriverProcessHandle, vLastMaps := [], nLastGetMapsTime := 0 })).bind
          (fun s => s.createHandleFromPointer supply.random supply.address .htProcesHandle))

/-- The object is deleted as what the type says it is; `none` if it is not that. -/
def deleteObject (s : ApiState) (ht : HandleType) (pl : Nat) : Option ApiState :=
  if ht = .htTHSModule ∨ ht = .htTHSProcess ∨ ht = .htProcesHandle ∨ ht = .htTHSThread then
    if (s.heap pl).map Object.handleType = some ht then
      some { s with heap := Function.update s.heap pl none }
    else none
  else some s

def closeHandle (s : ApiState) (h : Int) : Option ApiState :=
  (s.deleteObject (s.getHandleType h) (s.getPointerFromHandle h)).map (fun s => s.removeHandle h)

/-- The check in front of the functions on a process, and the process; `some none` if the handle
fails the check.
-/
def processOf (s : ApiState) (hProcess : Int) : Option (Option CeOpenProcess) :=
  if s.getHandleType hProcess ≠ .htProcesHandle then some none
  else (s.openProcessAt (s.getPointerFromHandle hProcess)).map some

/-- The process of the handle with another cache. -/
def setProcess (s : ApiState) (hProcess : Int) (process : CeOpenProcess) : ApiState :=
  { s with
    heap := Function.update s.heap (s.getPointerFromHandle hProcess) (some (.openProcess process)) }

end ApiState

/-- What the driver client answers, and the clock before and after a query, in milliseconds. -/
structure Surroundings where
  readProcessMemory : (hProcess address nSize : Nat) → List UInt8 → Nat × List UInt8
  writeProcessMemory : (hProcess address : Nat) → List UInt8 → Nat
  virtualQueryExFull : (hProcess : Nat) → (showPhy : Bool) → List Server.RegionInfo
  nowTime : Nat
  thenTime : Nat

/-- A driver client that reads and writes nothing. -/
def idleDriver : Surroundings where
  readProcessMemory _ _ _ buffer := (0, buffer)
  writeProcessMemory _ _ _ := 0
  virtualQueryExFull _ _ := []
  nowTime := 0
  thenTime := 0

def VQE_NOSHARED : Nat := 4

/-- The record of `api.h` for a region of the driver. -/
def regionInfo (r : Server.RegionInfo) : RegionInfo :=
  { baseaddress := r.baseaddress, size := r.size, protection := r.protection.toNat,
    type := r.type.toNat }

/-- The regions that a full query lists. -/
def listedRegions (flags : Nat) (maps : List Server.RegionInfo) : List RegionInfo :=
  (maps.filter (fun r =>
    r.protection ≠ PAGE_NOACCESS ∧ ¬(r.type = MEM_MAPPED ∧ flags &&& VQE_NOSHARED ≠ 0))).map
    regionInfo

/-- The loop over the regions of the cache, with the address rounded down to its page. -/
def queryRegions (rinfo : RegionInfo) : List Server.RegionInfo → QueryResult
  | [] => ⟨0, rinfo, []⟩
  | r :: rest =>
      let stop := wrap (r.baseaddress + r.size)
      if stop > rinfo.baseaddress then
        if rinfo.baseaddress ≥ r.baseaddress then
          ⟨1, { rinfo with
                protection := r.protection.toNat
                type := r.type.toNat
                size := diff stop rinfo.baseaddress }, r.name⟩
        else
          ⟨1, { rinfo with
                size := diff r.baseaddress rinfo.baseaddress
                protection := PAGE_NOACCESS.toNat
                type := 0 }, r.name⟩
      else queryRegions rinfo rest

namespace ApiState

variable (driver : Surroundings)

/-- The buffer is zero before, and its size is passed on as an `int`. -/
def readProcessMemory (s : ApiState) (hProcess : Int) (address size : Nat) : Option ReadResult :=
  (s.processOf hProcess).map (fun found =>
    match found with
    | none => ⟨0, List.replicate size 0⟩
    | some process =>
        let (bread, buffer) := driver.readProcessMemory process.u64DriverProcessHandle address
          (toUint64 (toInt size)) (List.replicate size 0)
        ⟨toInt bread, buffer⟩)

def writeProcessMemory (s : ApiState) (hProcess : Int) (address : Nat) (buffer : List UInt8)
    : Option Int :=
  (s.processOf hProcess).map (fun found =>
    match found with
    | none => 0
    | some process =>
        toInt (driver.writeProcessMemory process.u64DriverProcessHandle address buffer))

/-- The process with the answer of the driver in its cache. -/
def queried (process : CeOpenProcess) : CeOpenProcess :=
  let maps := driver.virtualQueryExFull process.u64DriverProcessHandle true
  { process with vLastMaps := maps, nLastGetMapsTime := if maps = [] then 0 else driver.thenTime }

def virtualQueryExFull (s : ApiState) (hProcess : Int) (flags : Nat)
    : Option (Option (List RegionInfo) × ApiState) :=
  (s.processOf hProcess).map (fun found =>
    match found with
    | none => (none, s)
    | some process =>
        let process := queried driver process
        (if process.vLastMaps = [] then none else some (listedRegions flags process.vLastMaps),
          s.setProcess hProcess process))

/-- The cache is older than 60 seconds, in unsigned arithmetic. -/
def IsStale (process : CeOpenProcess) : Prop :=
  diff driver.nowTime process.nLastGetMapsTime > 1000 * 60

instance (process : CeOpenProcess) : Decidable (IsStale driver process) :=
  inferInstanceAs (Decidable (_ > _))

/-- The process as a query finds it, with a cache that is not stale. -/
def refreshed (process : CeOpenProcess) : CeOpenProcess :=
  if IsStale driver process then queried driver process else process

/-- The output keeps what was in `rinfo` where nothing is written to it. -/
def virtualQueryEx (s : ApiState) (hProcess : Int) (lpAddress : Nat) (rinfo : RegionInfo)
    : Option (QueryResult × ApiState) :=
  (s.processOf hProcess).map (fun found =>
    match found with
    | none => (⟨0, rinfo, []⟩, s)
    | some process =>
        let maps := (refreshed driver process).vLastMaps
        let page := { rinfo with protection := 0, baseaddress := lpAddress - lpAddress % 4096 }
        (if IsStale driver process ∧ maps = [] then ⟨0, rinfo, []⟩ else queryRegions page maps,
          s.setProcess hProcess (refreshed driver process)))

end ApiState

end RwMem.CeServer
