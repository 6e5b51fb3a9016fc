import RwMem.Breakpoint.OpenBreakpoints
import RwMem.Client.Registers
import RwMem.Transition.Program

/-! The calls of the client library that add, use and drop a breakpoint, as programs over system
calls.
-/

namespace RwMem.Cli

open Memory RwMem.Breakpoint RwMem.Client Transition

inductive BreakpointType where
  | read
  | write
  | readWrite
  | execute
deriving DecidableEq

/-- The byte of a type in a request. -/
def BreakpointType.code : BreakpointType → UInt8
  | .read => 1
  | .write => 2
  | .readWrite => 3
  | .execute => 4

/-- An owned descriptor of a breakpoint file. -/
structure Breakpoint where
  fd : Int32
deriving DecidableEq

/-- The calls of the library on the memory of a process, which are modelled apart. -/
inductive MemoryCall where
  | getMemMap (pid : Int32) (phyOnly : Bool)
  | writeMem (pid : Int32) (addr : UInt64) (buf : List UInt8)
  | readMem (pid : Int32) (addr : UInt64) (size : UInt64)

/-- `IOCTL_ADD_BP` with its buffer, a call on the file of a descriptor, what the async runtime does
to be built and to wait for such a file to be readable, and `close`.
-/
inductive Syscall where
  | addBp (buf : List UInt8)
  | bp (fd : Int32) (call : Call)
  | buildRuntime
  | waitReadable (fd : Int32)
  | close (fd : Int32)
  | memory (call : MemoryCall)

/-- What a system call answers: its result and, for a read, the registers that it copied. A call
on memory answers what the library makes of it, which is of any type.
-/
abbrev Syscall.Reply (M : Type) : Syscall → Type
  | .addBp _ => Int
  | .bp _ _ => Int × RwMem.Breakpoint.Regs
  | .buildRuntime => Int
  | .waitReadable _ => Int
  | .close _ => Int
  | .memory _ => M

abbrev Sys (M : Type) := Program Syscall (Syscall.Reply M)

def sys {M : Type} (call : Syscall) : Sys M (call.Reply M) := .call call .ret

/-- The 16 bytes of a request for a breakpoint. -/
def addBpBuf (pid : Int32) (bpType : BreakpointType) (len : UInt8) (addr : UInt64) : List UInt8 :=
  leBytes 4 pid.toUInt32.toNat ++ [bpType.code, len, 0, 0] ++ leBytes 8 addr.toNat

variable {M : Type}

def addBp (pid : Int32) (bpType : BreakpointType) (len : UInt8) (addr : UInt64)
    : Sys M (Except RegisterError Breakpoint) := do
  let fd ← sys (.addBp (addBpBuf pid bpType len addr))
  pure (errnoOf fd ⟨Int32.ofInt fd⟩)

namespace Breakpoint

variable (bp : Breakpoint)

def asRawFd : Int32 := bp.fd

def cont : Sys M (Except RegisterError Int) := do
  let (num, _) ← sys (.bp bp.fd .bpContinue)
  pure (errnoOf num num)

def setReg (reg : UInt8) (value : UInt64) : Sys M (Except RegisterError Unit) :=
  if reg ≥ 34 then pure (.error (.invalidRegister reg.toNat))
  else do
    let (ret, _) ← sys (.bp bp.fd (.bpSetReg (some ⟨UInt64.ofNat reg.toNat, value⟩)))
    pure (errnoOf ret ())

def setSimdReg (reg : UInt8) (value : BitVec 128) : Sys M (Except RegisterError Unit) :=
  if reg ≥ 34 then pure (.error (.invalidRegister reg.toNat))
  else do
    let (ret, _) ← sys (.bp bp.fd (.bpSetSimdReg (some ⟨UInt64.ofNat reg.toNat, value⟩)))
    pure (errnoOf ret ())

/-- The buffer of the size of the record is one that can be written. -/
def getRegs : Sys M (Except RegisterError RwMem.Breakpoint.Regs) := do
  let (ret, regs) ← sys (.bp bp.fd (.read userRegsSize false false))
  pure (errnoOf ret regs)

def getRegsWithSimd : Sys M (Except RegisterError RwMem.Breakpoint.Regs) := do
  let (ret, regs) ← sys (.bp bp.fd (.read (userRegsSize + userFpsimdStateSize) false false))
  pure (errnoOf ret regs)

/-- The error is that of an `io::Error`. -/
def wait : Sys M (Except Int Unit) := do
  let ret ← sys (.waitReadable bp.fd)
  pure (if ret < 0 then .error (-ret) else .ok ())

def step : Sys M (Except RegisterError Int) := do
  let (num, _) ← sys (.bp bp.fd .bpStep)
  pure (errnoOf num num)

def isStopped : Sys M (Except RegisterError Bool) := do
  let (stopped, _) ← sys (.bp bp.fd .bpIsStopped)
  pure (errnoOf stopped (stopped != 0))

/-- What the end of the life of a breakpoint does. -/
def drop : Sys M Unit := do
  let _ ← sys (.close bp.fd)
  pure ()

end Breakpoint

end RwMem.Cli
