import RwMem.Driver.Ioctl

/-! The command bytes that `DispatchCommand` has a case for, and the records that a connection
carries.
-/

namespace RwMem.CeServer

open Memory RwMem.Driver

inductive CeCommand where
  | getVersion
  | closeConnection
  | terminateServer
  | openProcess
  | createToolhelp32Snapshot
  | process32First
  | process32Next
  | closeHandle
  | virtualQueryEx
  | readProcessMemory
  | writeProcessMemory
  | startDebug
  | waitForDebugEvent
  | continueFromDebugEvent
  | setBreakpoint
  | removeBreakpoint
  | suspendThread
  | resumeThread
  | getThreadContext
  | setThreadContext
  | getArchitecture
  | module32First
  | module32Next
  | getSymbolListFromFile
  | loadExtension
  | alloc
  | free
  | createThread
  | loadModule
  | speedhackSetSpeed
  | virtualQueryExFull
  | getRegionInfo
  | getAbi
  | createToolhelp32SnapshotEx
  | getOptions
  | isAndroid
  | aobScan
deriving DecidableEq

/-- The number that `ceserver.h` gives to a command. -/
def CeCommand.code : CeCommand → UInt8
  | .getVersion => 0
  | .closeConnection => 1
  | .terminateServer => 2
  | .openProcess => 3
  | .createToolhelp32Snapshot => 4
  | .process32First => 5
  | .process32Next => 6
  | .closeHandle => 7
  | .virtualQueryEx => 8
  | .readProcessMemory => 9
  | .writeProcessMemory => 10
  | .startDebug => 11
  | .waitForDebugEvent => 13
  | .continueFromDebugEvent => 14
  | .setBreakpoint => 15
  | .removeBreakpoint => 16
  | .suspendThread => 17
  | .resumeThread => 18
  | .getThreadContext => 19
  | .setThreadContext => 20
  | .getArchitecture => 21
  | .module32First => 22
  | .module32Next => 23
  | .getSymbolListFromFile => 24
  | .loadExtension => 25
  | .alloc => 26
  | .free => 27
  | .createThread => 28
  | .loadModule => 29
  | .speedhackSetSpeed => 30
  | .virtualQueryExFull => 31
  | .getRegionInfo => 32
  | .getAbi => 33
  | .createToolhelp32SnapshotEx => 35
  | .getOptions => 37
  | .isAndroid => 45
  | .aobScan => 200

/-- The cases of the switch. -/
def CeCommand.cases : List CeCommand :=
  [.getVersion, .getArchitecture, .closeConnection, .terminateServer, .startDebug,
    .waitForDebugEvent, .continueFromDebugEvent, .setBreakpoint, .removeBreakpoint,
    .getThreadContext, .setThreadContext, .suspendThread, .resumeThread, .closeHandle,
    .createToolhelp32Snapshot, .process32First, .process32Next, .module32First, .module32Next,
    .openProcess, .readProcessMemory, .writeProcessMemory, .virtualQueryExFull, .getRegionInfo,
    .virtualQueryEx, .getSymbolListFromFile, .loadExtension, .alloc, .free, .createThread,
    .loadModule, .speedhackSetSpeed, .aobScan, .createToolhelp32SnapshotEx, .getOptions,
    .getAbi, .isAndroid]

/-- The case that a byte selects; every other byte is an unknown command. -/
def CeCommand.ofByte (byte : UInt8) : Option CeCommand :=
  CeCommand.cases.find? (fun command => command.code = byte)

/-- Every command is selected by its own number. -/
theorem CeCommand.ofByte_code (command : CeCommand) : ofByte command.code = some command := by
  cases command <;> decide

/-- An `int` in four bytes. -/
def intBytes (n : Int) : List UInt8 := leBytes 4 (n % 2 ^ 32).toNat

theorem length_intBytes (n : Int) : (intBytes n).length = 4 := length_leBytes 4 _

/-- The `int` at an offset of a record. -/
def intAt (bytes : List UInt8) (offset : Nat) : Int := toInt (wordAt bytes offset 4)

structure ProcessListEntry where
  PID : Int
  ProcessName : List UInt8
deriving DecidableEq

structure ModuleListEntry where
  baseAddress : Nat
  moduleSize : Int
  moduleName : List UInt8
deriving DecidableEq

/-- The packed `RegionInfo` of `api.h`. -/
structure RegionInfo where
  baseaddress : Nat
  size : Nat
  protection : Nat
  type : Nat
deriving DecidableEq

def RegionInfo.bytes (r : RegionInfo) : List UInt8 :=
  leBytes 8 r.baseaddress ++ leBytes 8 r.size ++ leBytes 4 r.protection ++ leBytes 4 r.type

def versionstring : List UInt8 :=
  "CHEATENGINE Network 2.3".toList.map (fun c => UInt8.ofNat c.toNat)

/-- `CeVersion` with the string behind it. -/
def ceVersion : List UInt8 :=
  intBytes 6 ++ leBytes 1 versionstring.length ++ versionstring

/-- `CeProcessEntry` with the name behind it; `none` is the answer `FALSE`. -/
def ceProcessEntry : Option ProcessListEntry → List UInt8
  | some pe =>
      intBytes 1 ++ intBytes pe.PID ++ intBytes pe.ProcessName.length ++ pe.ProcessName
  | none => intBytes 0 ++ intBytes 0 ++ intBytes 0

/-- The fields of `CeModuleEntry` in their order. -/
def ceModuleHeader (result : Int) (modulebase : Nat) (modulepart modulesize : Int)
    (modulefileoffset : Nat) (modulenamesize : Int)
    : List UInt8 :=
  intBytes result ++ leBytes 8 modulebase ++ intBytes modulepart ++ intBytes modulesize
    ++ leBytes 4 modulefileoffset ++ intBytes modulenamesize

/-- `CeModuleEntry` with the name behind it; `none` is the answer `FALSE`. -/
def ceModuleEntry : Option ModuleListEntry → List UInt8
  | some me =>
      ceModuleHeader 1 me.baseAddress 0 me.moduleSize 0 me.moduleName.length ++ me.moduleName
  | none => ceModuleHeader 0 0 0 0 0 0

/-- `CeVirtualQueryExOutput`; the `int` result is cut to a byte. -/
def ceVirtualQueryExOutput (result : Int) (r : RegionInfo) : List UInt8 :=
  leBytes 1 (result % 2 ^ 8).toNat ++ leBytes 4 r.protection ++ leBytes 4 r.type
    ++ leBytes 8 r.baseaddress ++ leBytes 8 r.size

end RwMem.CeServer
