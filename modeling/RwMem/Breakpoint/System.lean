import RwMem.Breakpoint.File

/-! All breakpoint files, the threads they stop and the global step list, as one step
function. Each step is what one party does in one go; any order of them is a run.
-/

namespace RwMem.Breakpoint

open RwMem.Driver

/-- `struct step_list_entry`. -/
structure StepEntry where
  pid : Pid
  file : FileId
  removed : Bool
deriving DecidableEq

inductive FileStatus where
  | unused
  | opened
  | closed
deriving DecidableEq

/-- A breakpoint file. Behind `rwmem_bp_release` the data is freed memory, which keeps its
last content until something else is stored there.
-/
structure File where
  status : FileStatus
  data : PrivateData

/-- A thread: `TIF_SINGLESTEP`, `suspended_step`, its registers, the callbacks queued by
`task_work_add`, and the callback that runs now.
-/
structure Thread where
  singleStep : Bool
  suspendedStep : Bool
  regs : Regs
  work : List FileId
  cur : Option (FileId × Pc)

structure State where
  files : FileId → File
  stepList : List StepEntry
  threads : Pid → Thread

/-- No breakpoint is set, and no thread is single-stepped. -/
def State.initial (regs : Pid → Regs) : State where
  files _ := ⟨.unused, .fresh 0⟩
  stepList := []
  threads p := ⟨false, false, regs p, [], none⟩

namespace State

variable (s : State)

def target (f : FileId) : Pid := (s.files f).data.targetTask

def setData (f : FileId) (data : PrivateData) : State :=
  { s with files := Function.update s.files f { s.files f with data := data } }

def setThread (p : Pid) (thread : Thread) : State :=
  { s with threads := Function.update s.threads p thread }

/-- `task_work_add` of a callback of the file. Linux runs queued callbacks in an order of its
own, so the list says only which are queued.
-/
def taskWorkAdd (p : Pid) (f : FileId) : State :=
  s.setThread p { s.threads p with work := (s.threads p).work ++ [f] }

/-- `DBG_HOOK_HANDLED` or `DBG_HOOK_ERROR`. -/
inductive HookResult where
  | handled
  | error
deriving DecidableEq

/-- The entry that the step hook finds for a thread. -/
def findEntry (p : Pid) : Option StepEntry := s.stepList.find? (fun e => e.pid = p)

/-- The step hook on thread `p`. The exit for an entry of a closed file comes before
`user_disable_single_step`.
-/
def rwmemBpStepHandler (p : Pid) : State × HookResult :=
  match s.findEntry p with
  | none => (s, .error)
  | some entry =>
      let rest : State := { s with stepList := s.stepList.eraseP (fun e => e.pid = p) }
      if entry.removed then
        (rest, .handled)
      else
        let queued := rest.taskWorkAdd p entry.file
        (queued.setThread p { queued.threads p with singleStep := false }, .handled)

/-- The loop of `rwmem_bp_release` stops at the first entry of the file. -/
def markRemoved (f : FileId) : List StepEntry → List StepEntry
  | [] => []
  | e :: rest =>
      if e.file = f then { e with removed := true } :: rest else e :: markRemoved f rest

def rwmemBpRelease (f : FileId) : State :=
  let data := { (s.files f).data with continueFlag := true }
  { s with
    files := Function.update s.files f ⟨.closed, data⟩
    stepList := markRemoved f s.stepList }

/-- The test in front of a call. -/
def test (f : FileId) (call : Call) : Bool := !call.isTested || (s.files f).data.stoppedFlag

/-- What both resuming commands end with. -/
def resume (f : FileId) : State := s.setData f { (s.files f).data with continueFlag := true }

/-- The registers of the target, changed by one of the two setters. -/
def changeRegs (f : FileId) (change : Regs → Regs × Int) : State × Int :=
  let thread := s.threads (s.target f)
  let (regs, ret) := change thread.regs
  (s.setThread (s.target f) { thread with regs := regs }, ret)

/-- The step entry and the single-step mode of `IOCTL_BP_STEP`. -/
def requestStep (f : FileId) : State :=
  let p := s.target f
  let thread := s.threads p
  { s.setThread p
      (if thread.singleStep then { thread with suspendedStep := true }
      else { thread with singleStep := true }) with
    stepList := ⟨p, f, false⟩ :: s.stepList }

/-- What a call does and returns once its test has passed. -/
def effect (f : FileId) : Call → State × Int
  | .bpContinue => (s.resume f, 0)
  | .bpSetReg param => s.changeRegs f (setReg param)
  | .bpSetSimdReg param => s.changeRegs f (setSimdReg param)
  | .bpStep => ((s.requestStep f).resume f, 0)
  | .bpIsStopped => (s, if (s.files f).data.stoppedFlag then 1 else 0)
  | .bpOther => (s, -EINVAL)
  | .read size regsFail fpsimdFail => (s, bpReadResult size regsFail fpsimdFail)
  | .poll =>
      (s.setData f { (s.files f).data with poll := false },
        if (s.files f).data.poll then EPOLLIN else 0)

/-- `rwmem_bp_ioctl`, `rwmem_bp_read` and `rwmem_bp_poll`. -/
def call (f : FileId) (call : Call) : State × Int :=
  if s.test f call then s.effect f call else (s, -EINVAL)

/-- The call is a `CONTINUE` or a `STEP` that passes its test, so it returns `0`. -/
def Resumes (f : FileId) (call : Call) : Prop :=
  call.isResume = true ∧ (s.files f).data.stoppedFlag = true

/-- The call is a `STEP` that passes its test. -/
def AcceptsStep (f : FileId) (call : Call) : Prop :=
  call = .bpStep ∧ (s.files f).data.stoppedFlag = true

end State

/-- What can happen: a breakpoint is set, is hit, or a single-stepped thread traps; a thread
starts one of its queued callbacks or goes one step further in one; a user calls or closes
a file; a debugger turns single-stepping of a thread on or off.
-/
inductive Act where
  | addBp (f : FileId) (p : Pid)
  | hit (f : FileId)
  | trap (p : Pid)
  | start (p : Pid) (i : Nat)
  | advance (p : Pid)
  | call (f : FileId) (call : Call)
  | close (f : FileId)
  | ptrace (p : Pid) (on : Bool)

namespace State

variable (s : State)

/-- Breakpoints and traps come from user mode, so not out of a running callback. -/
def enabled : Act → Bool
  | .addBp f _ => (s.files f).status = .unused
  | .hit f => (s.files f).status = .opened && (s.threads (s.target f)).cur.isNone
  | .trap p => (s.threads p).singleStep && (s.threads p).cur.isNone
  | .start p i => (s.threads p).cur.isNone && i < (s.threads p).work.length
  | .advance p =>
      match (s.threads p).cur with
      | none => false
      | some (f, pc) => (bpCallbackAfter (s.files f).data pc).isSome
  | .call f _ => (s.files f).status = .opened
  | .close f => (s.files f).status = .opened
  | .ptrace _ _ => true

/-- One step of the callback that runs on thread `p`. -/
def advance (p : Pid) : State :=
  match (s.threads p).cur with
  | none => s
  | some (f, pc) =>
      match bpCallbackAfter (s.files f).data pc with
      | none => s
      | some (data, next) =>
          (s.setData f data).setThread p
            { s.threads p with cur := next.map (fun pc => (f, pc)) }

def next : Act → State
  | .addBp f p => { s with files := Function.update s.files f ⟨.opened, .fresh p⟩ }
  | .hit f => s.taskWorkAdd (s.target f) f
  | .trap p => (s.rwmemBpStepHandler p).1
  | .start p i =>
      s.setThread p
        { s.threads p with
          work := (s.threads p).work.eraseIdx i
          cur := (s.threads p).work[i]?.map (fun f => (f, .markStopped)) }
  | .advance p => s.advance p
  | .call f call => (s.call f call).1
  | .close f => s.rwmemBpRelease f
  | .ptrace p on => s.setThread p { s.threads p with singleStep := on }

def step (a : Act) : Option State := if s.enabled a then some (s.next a) else none

theorem step_eq_some {s : State} {a : Act} {t : State}
    : s.step a = some t ↔ s.enabled a = true ∧ s.next a = t := by
  rw [step]
  split <;> simp_all

end State

end RwMem.Breakpoint
