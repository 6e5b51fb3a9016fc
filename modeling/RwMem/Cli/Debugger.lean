import RwMem.Breakpoint.HeldData
import RwMem.Cli.Kernel

/-! What the shell is for: breakpoints that are known by their numbers, with nothing but their
files and the threads that they stop.
-/

namespace RwMem.Cli

open RwMem.Breakpoint RwMem.Client RwMem.Driver Transition

structure Debugger where
  named : Int32 → Option FileId
  files : State

/-- The breakpoint that a command names. -/
def Commands.id : Commands → Option Int32
  | .addBp _ _ _ _ => none
  | .delBp id => some id
  | .cont id => some id
  | .setReg id _ _ => some id
  | .setSimdReg id _ _ => some id
  | .getRegs id _ => some id
  | .wait id => some id
  | .getMemMap _ => none
  | .writeMem _ _ _ => none
  | .readMem _ _ _ => none
  | .step id => some id
  | .isStopped id => some id

/-- A call that names one of the 34 registers. -/
def registerCall (reg : UInt8) (call : Call) : Except RegisterError Call :=
  if reg ≥ 34 then .error (.invalidRegister reg.toNat) else .ok call

/-- The call that a command stands for on the file of its breakpoint, or why there is none. -/
def Commands.call : Commands → Option (Except RegisterError Call)
  | .cont _ => some (.ok .bpContinue)
  | .setReg _ reg value =>
      some (registerCall reg (.bpSetReg (some ⟨UInt64.ofNat reg.toNat, value⟩)))
  | .setSimdReg _ reg value =>
      some (registerCall reg (.bpSetSimdReg (some ⟨UInt64.ofNat reg.toNat, value⟩)))
  | .getRegs _ simd =>
      some (.ok (.read (userRegsSize + if simd then userFpsimdStateSize else 0) false false))
  | .step _ => some (.ok .bpStep)
  | .isStopped _ => some (.ok .bpIsStopped)
  | _ => none

/-- The memory call that a command stands for. -/
def Commands.memoryCall : Commands → Option MemoryCall
  | .getMemMap pid => some (.getMemMap pid true)
  | .writeMem pid addr value => some (.writeMem pid addr value)
  | .readMem pid addr size => some (.readMem pid addr size)
  | _ => none

variable {M : Type}

/-- What is printed of a call, from its result and the registers of the target. -/
def Commands.output (ret : Int) (regs : RwMem.Breakpoint.Regs) : Commands → Output M
  | .getRegs _ simd => .regs (if simd then regs else { zeroRegs with user := regs.user }) simd
  | .isStopped _ => .stopped (ret != 0)
  | _ => .silent

/-- What is answered to a call on the file of a breakpoint. -/
def Commands.report (cmd : Commands) (ret : Int) (regs : RwMem.Breakpoint.Regs) : Answer M :=
  if ret < 0 then .error (.library (.errno (-ret))) else .ok (cmd.output ret regs)

namespace Debugger

def start (regs : Pid → RwMem.Breakpoint.Regs) : Debugger := ⟨fun _ => none, .initial regs⟩

/-- A step that leaves the breakpoints that have names alone. -/
def Foreign (d : Debugger) (act : Act) : Prop := ∀ f ∈ uses act, ∀ id, d.named id ≠ some f

/-- The file of a breakpoint is polled some times, with steps of others before each poll, and this
is what the polls find.
-/
inductive Polled (foreign : Act → Prop) (f : FileId) : State → List Int → State → Prop where
  | done (s : State) : Polled foreign f s [] s
  | poll {s t u : State} {acts : List Act} {rets : List Int} (others : ∀ act ∈ acts, foreign act)
      (meanwhile : exec State.step s acts = some t)
      (rest : Polled foreign f (t.call f .poll).1 rets u)
    : Polled foreign f s ((t.call f .poll).2 :: rets) u

/-- The registers of the thread that a breakpoint stops. -/
def regsOf (d : Debugger) (f : FileId) : RwMem.Breakpoint.Regs :=
  (d.files.threads (d.files.target f)).regs

/-- What a debugger may do and answer. A new breakpoint, unless something fails, gets a number that
no other has, a file of its own, and a perf event of the kind that was asked for on the thread that
was asked for. Every other command is for the breakpoint that has its number.
-/
inductive May : Debugger → Event M → Option (Answer M) → Debugger → Prop where
  | unknown {d : Debugger} {env : Env M} {cmd : Commands} {id : Int32} (names : cmd.id = some id)
      (absent : d.named id = none)
    : May d (.command env cmd) (some (.error .breakpointNotFound)) d
  | refused {d : Debugger} {env : Env M} {pid : Int32} {bpType : BreakpointType} {len : UInt8}
      {addr : UInt64} {error : Int} (positive : 0 < error)
      (denied : ¬env.adding.Grants ⟨pid, bpType.code.toNat, len.toNat, addr.toNat⟩)
    : May d (.command env (.addBp pid bpType len addr))
        (some (.error (.library (.errno error)))) d
  | added {d : Debugger} {env : Env M} {pid : Int32} {bpType : BreakpointType} {len : UInt8}
      {addr : UInt64} {id : Int32} {f : FileId} {task : Pid} (absent : d.named id = none)
      (unused : (d.files.files f).status = .unused)
      (found : (env.adding.findGetPid pid).bind env.adding.getPidTask = some task)
      (event
        : env.adding.perfEventFails ⟨addr.toNat, len.toNat, bpType.code.toNat⟩ task = none)
    : May d (.command env (.addBp pid bpType len addr)) (some (.ok (.added id)))
        ⟨Function.update d.named id (some f), d.files.next (.addBp f task)⟩
  | deleted {d : Debugger} {env : Env M} {id : Int32} {f : FileId} (found : d.named id = some f)
    : May d (.command env (.delBp id)) (some (.ok .silent))
        ⟨Function.update d.named id none, d.files.next (.close f)⟩
  | invalid {d : Debugger} {env : Env M} {cmd : Commands} {id : Int32} {f : FileId}
      {error : RegisterError} (names : cmd.id = some id) (found : d.named id = some f)
      (call : cmd.call = some (.error error))
    : May d (.command env cmd) (some (.error (.library error))) d
  | called {d : Debugger} {env : Env M} {cmd : Commands} {id : Int32} {f : FileId} {call : Call}
      (names : cmd.id = some id) (found : d.named id = some f) (call_ : cmd.call = some (.ok call))
    : May d (.command env cmd) (some (cmd.report (d.files.call f call).2 (d.regsOf f)))
        ⟨d.named, (d.files.call f call).1⟩
  | waited {d : Debugger} {env : Env M} {id : Int32} {f : FileId} {rets : List Int} {s : State}
      (found : d.named id = some f) (polled : Polled d.Foreign f d.files rets s)
      (readable : rets.getLast? = some EPOLLIN)
    : May d (.command env (.wait id)) (some (.ok .silent)) ⟨d.named, s⟩
  | notWaited {d : Debugger} {env : Env M} {id : Int32} {f : FileId} {rets : List Int} {s : State}
      {error : Int} (found : d.named id = some f) (polled : Polled d.Foreign f d.files rets s)
      (positive : 0 < error)
    : May d (.command env (.wait id)) (some (.error (.mapsParseError error))) ⟨d.named, s⟩
  | notBuilt {d : Debugger} {env : Env M} {id : Int32} {f : FileId} {error : Int}
      (found : d.named id = some f) (positive : 0 < error)
    : May d (.command env (.wait id)) (some (.error (.io error))) d
  | memory {d : Debugger} {env : Env M} {cmd : Commands} {call : MemoryCall}
      (call_ : cmd.memoryCall = some call)
    : May d (.command env cmd) (some (.ok (.memory (env.memory call)))) d
  | elsewhere {d : Debugger} {act : Act} {s : State} (foreign : d.Foreign act)
      (taken : d.files.step act = some s)
    : May d (.elsewhere act) none ⟨d.named, s⟩

end Debugger

end RwMem.Cli
