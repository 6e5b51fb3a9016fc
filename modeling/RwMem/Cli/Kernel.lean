import RwMem.Breakpoint.Steps
import RwMem.Cli.Commands
import RwMem.Client.Device
import RwMem.Transition.Answers

/-! Sessions of the shell on a kernel: what its process holds there, the breakpoint files of all
processes, and the threads that they stop.
-/

namespace RwMem.Cli

open RwMem.Breakpoint RwMem.Client RwMem.Driver Transition

def EBADF : Int := 9

structure Kernel where
  held : Resources
  files : State

/-- The rest of the world during one command: what the kernel finds for a new breakpoint, what a
file of another kind answers, what the library makes of a call on memory, what comes of building a
runtime, and what others do before each poll of a wait.
-/
structure Env (M : Type) where
  adding : AddBpEnv
  otherFile : Call → Int × RwMem.Breakpoint.Regs
  memory : MemoryCall → M
  building : Int
  meanwhile : List (List Act)

/-- The async runtime, with the polls that the kernel makes for it: from what the polls of a wait
have found so far, it has its file polled once more, or lets the wait return.
-/
abbrev Runtime := List Int → Option Int

/-- A wait succeeds only when the last poll has found its file readable. -/
def Runtime.Reports (runtime : Runtime) : Prop :=
  ∀ seen ret, runtime seen = some ret → 0 ≤ ret → seen.getLast? = some EPOLLIN

/-- The file that a call or a close is for. -/
def uses : Act → Option FileId
  | .call f _ => some f
  | .close f => some f
  | _ => none

/-- A buffer for registers before anything is copied to it. -/
def zeroRegs : RwMem.Breakpoint.Regs := ⟨fun _ => 0, fun _ => 0, 0, 0⟩

/-- The registers that a call leaves in the buffer of its caller. -/
def copied (call : Call) (ret : Int) (regs : RwMem.Breakpoint.Regs) : RwMem.Breakpoint.Regs :=
  match call with
  | .read size _ _ =>
      if ret < 0 then zeroRegs
      else if userRegsSize + userFpsimdStateSize ≤ size then regs
      else { zeroRegs with user := regs.user }
  | _ => zeroRegs

namespace Kernel

variable {M : Type} (k : Kernel)

/-- What a descriptor stands for. -/
def descriptor (fd : Int32) : Option Descriptor :=
  if 0 ≤ fd then k.held.fds.lookup fd.toNatClampNeg else none

/-- The numbers that the kernel gives are not in use, and a descriptor is an `int`. -/
def Fresh (env : AddBpEnv) : Prop :=
  env.Fresh k.held ∧ env.fd < 2 ^ 31 ∧ (k.files.files env.data).status = .unused

instance (env : AddBpEnv) : Decidable (k.Fresh env) :=
  inferInstanceAs (Decidable (_ ∧ _))

/-- `IOCTL_ADD_BP` up to the return to user mode; `none` if the kernel faults. -/
def addBp (env : AddBpEnv) (buf : List UInt8) : Option (Int × Kernel) :=
  if k.Fresh env then
    (RwMem.Breakpoint.addBp env k.held 0 (userBuf buf)).map (fun (ret, held) =>
      let held := held.runPending
      match held.targetOf env.data with
      | some task => (ret, ⟨held, k.files.next (.addBp env.data task)⟩)
      | none => (ret, ⟨held, k.files⟩))
  else none

def bp (env : Env M) (fd : Int32) (call : Call) : (Int × RwMem.Breakpoint.Regs) × Kernel :=
  match k.descriptor fd with
  | some (.bpFile data) =>
      let regs := (k.files.threads (k.files.target data)).regs
      let (files, ret) := k.files.call data call
      ((ret, copied call ret regs), { k with files := files })
  | some .other => (env.otherFile call, k)
  | _ => ((-EBADF, zeroRegs), k)

/-- `close`, with the release that it leads to. -/
def close (fd : Int32) : Int × Kernel :=
  match k.descriptor fd with
  | some (.bpFile data) =>
      (0, ⟨(k.held.closeFd fd.toNatClampNeg).runPending, k.files.next (.close data)⟩)
  | some .other => (0, { k with held := k.held.closeFd fd.toNatClampNeg })
  | _ => (-EBADF, k)

/-- A step that the process of the shell does not take. -/
def elsewhere (act : Act) : Option Kernel :=
  if ∀ f ∈ uses act, f ∉ k.held.openFiles then
    (k.files.step act).map (fun files => { k with files := files })
  else none

variable (runtime : Runtime)

/-- The wait for a file: it is polled as long as the runtime wants, and others go on in between. -/
def waitReadable (env : Env M) (fd : Int32)
    : List Int → List (List Act) → Kernel → Option (Int × Kernel)
  | seen, meanwhile, k =>
      match runtime seen with
      | some ret => some (ret, k)
      | none =>
          match meanwhile with
          | [] => none
          | acts :: rest =>
              (exec elsewhere k acts).bind fun k =>
                let ((ret, _), k) := k.bp env fd .poll
                waitReadable env fd (seen ++ [ret]) rest k

/-- The answer to a system call; none if the kernel faults or the wait does not end. -/
def handle (env : Env M) : (call : Syscall) → Kernel → Except Unit (call.Reply M × Kernel)
  | .addBp buf, k =>
      match k.addBp env.adding buf with
      | some result => .ok result
      | none => .error ()
  | .bp fd call, k => .ok (k.bp env fd call)
  | .buildRuntime, k => .ok (env.building, k)
  | .waitReadable fd, k =>
      match waitReadable runtime env fd [] env.meanwhile k with
      | some result => .ok result
      | none => .error ()
  | .close fd, k => .ok (k.close fd)
  | .memory call, k => .ok (env.memory call, k)

end Kernel

/-- The shell with its breakpoints, on a kernel. -/
structure Session where
  bps : Bps
  kernel : Kernel

/-- A command is read and run, or a step is taken elsewhere. -/
inductive Event (M : Type) where
  | command (env : Env M) (cmd : Commands)
  | elsewhere (act : Act)

namespace Session

/-- A shell without breakpoints, whose process has some other descriptors. -/
def start (others : List Nat) (regs : Pid → RwMem.Breakpoint.Regs) : Session :=
  ⟨fun _ => none, ⟨.holding others [], .initial regs⟩⟩

def step {M : Type} (runtime : Runtime) (s : Session)
    : Event M → Option (Option (Answer M) × Session)
  | .command env cmd =>
      match (runCmd cmd s.bps).run (Kernel.handle runtime env) s.kernel with
      | .ok ((answer, bps), kernel) => some (some answer, ⟨bps, kernel⟩)
      | .error () => none
  | .elsewhere act =>
      (s.kernel.elsewhere act).map (fun kernel => (none, { s with kernel := kernel }))

end Session

end RwMem.Cli
