import RwMem.CeServer.Commands
import RwMem.Transition.Program

/-! `DispatchCommand` as a program over the socket of its connection and the functions of `CApi`. -/

namespace RwMem.CeServer

open Memory RwMem.Driver Transition

/-- What the handlers call besides the socket. `moduleEntries` stands for `Module32First` and
the calls of `Module32Next` behind it, `threadList` for reading a handle's pointer as a
`ThreadList`, `deflate` for the two loops over zlib's function, and `uninitialized` for reading
a local that was not written.
-/
inductive ApiCall where
  | closeHandle (h : Int)
  | createToolhelp32Snapshot (dwFlags : UInt32) (th32ProcessID : Int)
  | process32First (hSnapshot : Int)
  | process32Next (hSnapshot : Int)
  | module32First (hSnapshot : Int)
  | module32Next (hSnapshot : Int)
  | moduleEntries (hSnapshot : Int)
  | threadList (h : Int)
  | openProcess (pid : Int)
  | readProcessMemory (hProcess : Int) (address size : Nat)
  | writeProcessMemory (hProcess : Int) (address : Nat) (buffer : List UInt8)
  | virtualQueryExFull (hProcess : Int) (flags : Nat)
  | virtualQueryEx (hProcess : Int) (address : Nat)
  | deflate (level : Nat) (input : List UInt8)
  | uninitialized

/-- What `ReadProcessMemory` returns, and the buffer of the asked size after it. -/
structure ReadResult where
  read : Int
  buffer : List UInt8

/-- What `VirtualQueryEx` returns, and its two outputs after it. -/
structure QueryResult where
  found : Int
  rinfo : RegionInfo
  memName : List UInt8

/-- `total_out`, and the blocks that were filled. -/
structure Deflated where
  totalOut : Nat
  blocks : List (List UInt8)

/-- What a call answers; `none` stands for the answer `FALSE`. -/
def ApiCall.Reply : ApiCall → Type
  | .closeHandle _ => Unit
  | .createToolhelp32Snapshot _ _ => Int
  | .process32First _ => Option ProcessListEntry
  | .process32Next _ => Option ProcessListEntry
  | .module32First _ => Option ModuleListEntry
  | .module32Next _ => Option ModuleListEntry
  | .moduleEntries _ => List ModuleListEntry
  | .threadList _ => List Int
  | .openProcess _ => Int
  | .readProcessMemory _ _ _ => ReadResult
  | .writeProcessMemory _ _ _ => Int
  | .virtualQueryExFull _ _ => Option (List RegionInfo)
  | .virtualQueryEx _ _ => QueryResult
  | .deflate _ _ => Deflated
  | .uninitialized => Nat → UInt8

/-- The calls of a handler. `recvall`, `sendall` and `close` are on the connection's socket. -/
inductive ServerCall where
  | recvall (size : Int)
  | sendall (bytes : List UInt8)
  | close
  | exit
  | undefined
  | api (call : ApiCall)

/-- `recvall` answers with the bytes if its result is positive. Nothing comes back from `exit`
and from undefined behaviour.
-/
def ServerCall.Reply : ServerCall → Type
  | .recvall _ => Option (List UInt8)
  | .sendall _ => Unit
  | .close => Unit
  | .exit => Empty
  | .undefined => Empty
  | .api call => call.Reply

abbrev Handler := Program ServerCall ServerCall.Reply Unit

def recvall (size : Int) : Program ServerCall ServerCall.Reply (Option (List UInt8)) :=
  .call (.recvall size) .ret

def sendall (bytes : List UInt8) : Handler := .call (.sendall bytes) .ret

def close : Handler := .call .close .ret

def exit : Handler := .call .exit (fun never => nomatch never)

def undefinedBehaviour : Handler := .call .undefined (fun never => nomatch never)

def api (call : ApiCall) : Program ServerCall ServerCall.Reply call.Reply :=
  .call (.api call) .ret

/-- Handlers that read their operand and close the connection if that fails. -/
def readOrClose (size : Int) (body : List UInt8 → Handler) : Handler := do
  match ← recvall size with
  | some operand => body operand
  | none => close

/-- Handlers that read their operand and do nothing if that fails. -/
def readOrSkip (size : Int) (body : List UInt8 → Handler) : Handler := do
  match ← recvall size with
  | some operand => body operand
  | none => return ()

/-- Handlers that print that the command is not supported. -/
def notSupported : Handler := return ()

def getVersion : Handler := sendall ceVersion

/-- The server runs on aarch64. The handle is read and not looked at. -/
def getArchitecture : Handler := do
  let _ ← recvall 4
  sendall [3]

def closeConnection : Handler := close

def terminateServer : Handler := do
  close
  exit

def closeHandle : Handler :=
  readOrClose 4 (fun operand => do
    api (.closeHandle (intAt operand 0))
    sendall (intBytes 1))

/-- The call that `CeCreateToolhelp32Snapshot` asks for. -/
def snapshotCall (params : List UInt8) : Program ServerCall ServerCall.Reply Int :=
  api (.createToolhelp32Snapshot (UInt32.ofNat (wordAt params 0 4)) (intAt params 4))

def createToolhelp32Snapshot : Handler :=
  readOrClose 8 (fun params => do
    let result ← snapshotCall params
    sendall (intBytes result))

def process32First : Handler :=
  readOrSkip 4 (fun operand => do
    let pe ← api (.process32First (intAt operand 0))
    sendall (ceProcessEntry pe))

def process32Next : Handler :=
  readOrSkip 4 (fun operand => do
    let pe ← api (.process32Next (intAt operand 0))
    sendall (ceProcessEntry pe))

def module32First : Handler :=
  readOrSkip 4 (fun operand => do
    let me ← api (.module32First (intAt operand 0))
    sendall (ceModuleEntry me))

def module32Next : Handler :=
  readOrSkip 4 (fun operand => do
    let me ← api (.module32Next (intAt operand 0))
    sendall (ceModuleEntry me))

def openProcess : Handler :=
  readOrClose 4 (fun operand => do
    let processhandle ← api (.openProcess (intAt operand 0))
    sendall (intBytes processhandle))

def sendEach : List (List UInt8) → Handler
  | [] => return ()
  | bytes :: rest => do
      sendall bytes
      sendEach rest

/-- The reply with the bytes that were read compressed at the level asked for. -/
def sendCompressed (compress : Nat) (o : ReadResult) : Handler := do
  let uncompressedSize := (o.read % 2 ^ 32).toNat
  let deflated ← api (.deflate compress (o.buffer.take uncompressedSize))
  sendall (leBytes 4 uncompressedSize)
  sendall (leBytes 4 deflated.totalOut)
  sendEach deflated.blocks

/-- Above the level 9 `deflateInit` fails, which nobody looks at, and the loops run on a stream that
was never set.
-/
def readProcessMemory : Handler :=
  readOrSkip 17 (fun c => do
    let compress := wordAt c 16 1
    let o ← api (.readProcessMemory (intAt c 0) (wordAt c 4 8) (wordAt c 12 4))
    if compress ≠ 0 then
      if compress ≤ 9 then sendCompressed compress o else undefinedBehaviour
    else sendall ((intBytes o.read ++ o.buffer).take (4 + o.read).toNat))

def writeProcessMemory : Handler :=
  readOrSkip 16 (fun c =>
    let size := intAt c 12
    if size ≠ 0 then
      readOrSkip size (fun buf => do
        let written ← api (.writeProcessMemory (intAt c 0) (wordAt c 4 8) buf)
        sendall (intBytes written))
    else sendall (intBytes 0))

def virtualQueryExFull : Handler :=
  readOrSkip 5 (fun c => do
    match ← api (.virtualQueryExFull (intAt c 0) (wordAt c 4 1)) with
    | some vRinfo =>
        sendall (leBytes 4 vRinfo.length)
        sendEach (vRinfo.map RegionInfo.bytes)
    | none => sendall (leBytes 4 0))

def virtualQueryEx : Handler :=
  readOrSkip 12 (fun c => do
    let query ← api (.virtualQueryEx (intAt c 0) (wordAt c 4 8))
    sendall (ceVirtualQueryExOutput query.found query.rinfo))

/-- As `virtualQueryEx`, with the name behind it under a length of one byte. -/
def getRegionInfo : Handler :=
  readOrSkip 12 (fun c => do
    let query ← api (.virtualQueryEx (intAt c 0) (wordAt c 4 8))
    let size := query.memName.length % 2 ^ 8
    sendall (ceVirtualQueryExOutput query.found query.rinfo)
    sendall (leBytes 1 size)
    if size ≠ 0 then sendall (query.memName.take size) else return ())

/-- The buffer has `symbolpathsize + 1` bytes in 32 bits, and its terminator is stored behind
`symbolpathsize` bytes. No symbol list is ever made: every path is answered with eight zeros.
-/
def getSymbolListFromFile : Handler :=
  readOrSkip 4 (fun c =>
    let symbolpathsize := wordAt c 0 4
    if (symbolpathsize + 1) % 2 ^ 32 ≤ symbolpathsize then undefinedBehaviour
    else readOrClose symbolpathsize (fun _ => sendall (leBytes 8 0)))

/-- The pattern and its mask are read and not looked for: the count of hits is always 0. The
`int` expression `n * 2` overflows outside of its range.
-/
def aobScan : Handler :=
  readOrSkip 32 (fun c =>
    let n := intAt c 28
    if -2 ^ 31 ≤ n * 2 ∧ n * 2 < 2 ^ 31 then
      readOrSkip (n * 2) (fun _ => do
        sendall (intBytes 0)
        sendall [])
    else undefinedBehaviour)

/-- The modules of the list, gathered in a stream of 65536 bytes that is flushed when the next
record does not fit and at the end.
-/
def sendModules : List ModuleListEntry → List UInt8 → Handler
  | [], outputstream => if outputstream ≠ [] then sendall outputstream else return ()
  | me :: rest, outputstream =>
      if outputstream.length + 28 + me.moduleName.length > 65536 then do
        sendall outputstream
        sendModules rest (ceModuleEntry (some me))
      else sendModules rest (outputstream ++ ceModuleEntry (some me))

/-- The end of the list: a record in which only the result and the length are written. -/
def endOfModules (eol : Nat → UInt8) : List UInt8 := intBytes 0 ++ cells eol 4 20 ++ intBytes 0

def TH32CS_SNAPPROCESS : UInt32 := 0x2
def TH32CS_SNAPTHREAD : UInt32 := 0x4
def TH32CS_SNAPMODULE : UInt32 := 0x8

def sendThreadList (r : Int) : Handler := do
  if r ≠ 0 then do
    let tl ← api (.threadList r)
    sendall (intBytes tl.length)
    sendall (tl.flatMap intBytes)
    api (.closeHandle r)
  else sendall (intBytes 0)

def modulesOf (r : Int) : Program ServerCall ServerCall.Reply (List ModuleListEntry) :=
  if r ≠ 0 then api (.moduleEntries r) else .ret []

def sendModuleList (r : Int) : Handler := do
  sendModules (← modulesOf r) []
  let eol ← api .uninitialized
  sendall (endOfModules eol)
  if r ≠ 0 then api (.closeHandle r) else return ()

def createToolhelp32SnapshotEx : Handler :=
  readOrClose 8 (fun params => do
    let dwFlags := UInt32.ofNat (wordAt params 0 4)
    let r ← snapshotCall params
    if dwFlags &&& TH32CS_SNAPTHREAD = TH32CS_SNAPTHREAD then sendThreadList r
    else if dwFlags &&& TH32CS_SNAPMODULE = TH32CS_SNAPMODULE then sendModuleList r
    else sendall (intBytes r))

def getOptions : Handler := sendall (leBytes 2 0)

def getAbi : Handler := sendall [1]

/-- The compiler that the server is built with is not Android's. -/
def isAndroid : Handler := sendall [0]

def handlerOf : CeCommand → Handler
  | .getVersion => getVersion
  | .getArchitecture => getArchitecture
  | .closeConnection => closeConnection
  | .terminateServer => terminateServer
  | .startDebug => notSupported
  | .waitForDebugEvent => notSupported
  | .continueFromDebugEvent => notSupported
  | .setBreakpoint => notSupported
  | .removeBreakpoint => notSupported
  | .getThreadContext => notSupported
  | .setThreadContext => notSupported
  | .suspendThread => notSupported
  | .resumeThread => notSupported
  | .closeHandle => closeHandle
  | .createToolhelp32Snapshot => createToolhelp32Snapshot
  | .process32First => process32First
  | .process32Next => process32Next
  | .module32First => module32First
  | .module32Next => module32Next
  | .openProcess => openProcess
  | .readProcessMemory => readProcessMemory
  | .writeProcessMemory => writeProcessMemory
  | .virtualQueryExFull => virtualQueryExFull
  | .getRegionInfo => getRegionInfo
  | .virtualQueryEx => virtualQueryEx
  | .getSymbolListFromFile => getSymbolListFromFile
  | .loadExtension => notSupported
  | .alloc => notSupported
  | .free => notSupported
  | .createThread => notSupported
  | .loadModule => notSupported
  | .speedhackSetSpeed => notSupported
  | .aobScan => aobScan
  | .createToolhelp32SnapshotEx => createToolhelp32SnapshotEx
  | .getOptions => getOptions
  | .getAbi => getAbi
  | .isAndroid => isAndroid

/-- An unknown command is printed. -/
def dispatchCommand (command : UInt8) : Handler :=
  match CeCommand.ofByte command with
  | some case => handlerOf case
  | none => return ()

end RwMem.CeServer
