import RwMem.Breakpoint.File
import RwMem.Driver.Ioctl
import RwMem.Transition.Runs

/-! `IOCTL_ADD_BP` and the closing of its files, with all that they hold of the kernel: references
on pids and tasks, descriptors, private data and perf events.
-/

namespace RwMem.Breakpoint

open Memory RwMem.Driver

-----------------------------------------------------------------------------------------
-- What is held
-----------------------------------------------------------------------------------------

/-- What a used descriptor stands for: nothing yet, a breakpoint file with its private data, or
some other file of the process.
-/
inductive Descriptor where
  | reserved
  | bpFile (privateData : Nat)
  | other
deriving DecidableEq

/-- The fields of the private data that own something; the record is zeroed at first. -/
structure OwnedData where
  event : Option Nat
  targetTask : Option Nat
deriving DecidableEq

def OwnedData.zeroed : OwnedData := ⟨none, none⟩

/-- What the driver and the process hold. Descriptors, private data and perf events have numbers;
a perf event comes with its task. `pending` are the private data of closed files whose release has
not run yet.
-/
structure Resources where
  pidRefs : Nat → Nat
  taskRefs : Nat → Nat
  fds : List (Nat × Descriptor)
  data : List (Nat × OwnedData)
  events : List (Nat × Nat)
  pending : List Nat

namespace Resources

variable (s : Resources)

def getPid (pid : Nat) : Resources :=
  { s with pidRefs := Function.update s.pidRefs pid (s.pidRefs pid + 1) }

def putPid (pid : Nat) : Resources :=
  { s with pidRefs := Function.update s.pidRefs pid (s.pidRefs pid - 1) }

def getTaskStruct (task : Nat) : Resources :=
  { s with taskRefs := Function.update s.taskRefs task (s.taskRefs task + 1) }

def putTaskStruct (task : Nat) : Resources :=
  { s with taskRefs := Function.update s.taskRefs task (s.taskRefs task - 1) }

def reserveFd (fd : Nat) : Resources := { s with fds := (fd, .reserved) :: s.fds }

def putUnusedFd (fd : Nat) : Resources := { s with fds := s.fds.filter (·.1 ≠ fd) }

def fdInstall (fd privateData : Nat) : Resources :=
  { s with fds := s.fds.map (fun e => if e.1 = fd then (fd, .bpFile privateData) else e) }

/-- The last reference to the file is dropped, and its release is left for later. -/
def closeFd (fd : Nat) : Resources :=
  match s.fds.lookup fd with
  | some (.bpFile privateData) =>
      { s with fds := s.fds.filter (·.1 ≠ fd), pending := privateData :: s.pending }
  | _ => { s with fds := s.fds.filter (·.1 ≠ fd) }

def kzallocData (privateData : Nat) : Resources :=
  { s with data := (privateData, .zeroed) :: s.data }

def kfreeData (privateData : Nat) : Resources :=
  { s with data := s.data.filter (·.1 ≠ privateData) }

def createEvent (event task : Nat) : Resources := { s with events := (event, task) :: s.events }

def unregisterHwBreakpoint (event : Nat) : Resources :=
  { s with events := s.events.filter (·.1 ≠ event) }

/-- `private_data->event = bp; private_data->target_task = task` -/
def setData (privateData event task : Nat) : Resources :=
  { s with
    data := s.data.map (fun e =>
      if e.1 = privateData then (privateData, ⟨some event, some task⟩) else e) }

/-- `rwmem_bp_release`, of which the wake-up of the target and the step list are modelled apart. -/
def rwmemBpRelease (privateData : Nat) : Resources :=
  match s.data.lookup privateData with
  | none => s
  | some data =>
      let s := data.event.elim s s.unregisterHwBreakpoint
      let s := data.targetTask.elim s s.putTaskStruct
      s.kfreeData privateData

/-- The process returns to user mode: the releases that were left for later run. -/
def runPending : Resources :=
  s.pending.foldl rwmemBpRelease { s with pending := [] }

end Resources

-----------------------------------------------------------------------------------------
-- The calls
-----------------------------------------------------------------------------------------

/-- The attributes of a perf event that differ between breakpoints. -/
structure PerfEventAttr where
  bpAddr : Nat
  bpLen : Nat
  bpType : Nat

/-- An error code of the kernel, which is returned with its sign changed. -/
structure Errno where
  code : Nat
  positive : 0 < code

/-- The rest of the kernel during one call: what it finds, the errors with which its parts fail if
they do, and the numbers that it gives if they do not.
-/
structure AddBpEnv where
  fromUserLeft : Nat
  findGetPid : Int32 → Option Nat
  getPidTask : Nat → Option Nat
  unusedFdFails : Option Errno
  fd : Nat
  kzallocFails : Bool
  data : Nat
  anonInodeGetfileFails : Option Errno
  perfEventFails : PerfEventAttr → Nat → Option Errno
  event : Nat

/-- The numbers that the kernel gives are not in use. -/
def AddBpEnv.Fresh (env : AddBpEnv) (s : Resources) : Prop :=
  env.fd ∉ s.fds.map Prod.fst
  ∧ env.data ∉ s.data.map Prod.fst
  ∧ env.event ∉ s.events.map Prod.fst

instance (env : AddBpEnv) (s : Resources) : Decidable (env.Fresh s) :=
  inferInstanceAs (Decidable (_ ∧ _))

/-- `create_rwmem_bp_file`. Without memory the kernel faults where it sets up the first queue; the
private data stays where the file cannot be made.
-/
def createRwmemBpFile (env : AddBpEnv) (s : Resources) : Option (Except Errno Nat × Resources) :=
  if env.kzallocFails then none
  else
    let s := s.kzallocData env.data
    match env.anonInodeGetfileFails with
    | some error => some (.error error, s)
    | none => some (.ok env.data, s)

/-- The parameters of `IOCTL_ADD_BP`. -/
structure AddBpParam where
  pid : Int32
  type : Nat
  len : Nat
  virtAddr : Nat

def AddBpParam.ofBytes (bytes : List UInt8) : AddBpParam where
  pid := Int32.ofNat (wordAt bytes 0 4)
  type := wordAt bytes 4 1
  len := wordAt bytes 5 1
  virtAddr := wordAt bytes 8 8

/-- `IOCTL_ADD_BP`: the result and what is held behind it; `none` if the kernel faults. -/
def addBp (env : AddBpEnv) (s : Resources) (arg : Nat) (mem : Nat → UInt8)
    : Option (Int × Resources) :=
  if env.fromUserLeft ≠ 0 then some (-EFAULT, s)
  else
    let param := AddBpParam.ofBytes (cells mem arg 16)
    if param.type > 4 then some (-EINVAL, s)
    else if param.len ≠ 1 ∧ param.len ≠ 2 ∧ param.len ≠ 4 ∧ param.len ≠ 8 then
      some (-EINVAL, s)
    else
      match env.findGetPid param.pid with
      | none => some (-EINVAL, s)
      | some pidStruct =>
          let s := s.getPid pidStruct
          match env.getPidTask pidStruct with
          | none => some (-EINVAL, s.putPid pidStruct)
          | some task =>
              let s := (s.getTaskStruct task).putPid pidStruct
              let attr : PerfEventAttr := ⟨param.virtAddr, param.len, param.type⟩
              match env.unusedFdFails with
              | some error => some (-error.code, s.putTaskStruct task)
              | none =>
                  let fd := env.fd
                  let s := s.reserveFd fd
                  match createRwmemBpFile env s with
                  | none => none
                  | some (.error error, s) =>
                      some (-error.code, (s.putTaskStruct task).putUnusedFd fd)
                  | some (.ok data, s) =>
                      let s := s.fdInstall fd data
                      match env.perfEventFails attr task with
                      | some error => some (-error.code, (s.putTaskStruct task).closeFd fd)
                      | none =>
                          let bp := env.event
                          some (fd, (s.createEvent bp task).setData data bp task)

/-- The process adds a breakpoint or closes a breakpoint file. -/
inductive BpAct where
  | addBp (env : AddBpEnv) (arg : Nat) (mem : Nat → UInt8)
  | close (fd : Nat)

/-- The descriptor is one of a breakpoint file. -/
def Resources.isBpFile (s : Resources) (fd : Nat) : Bool :=
  match s.fds.lookup fd with
  | some (.bpFile _) => true
  | _ => false

/-- A system call of the process up to its return to user mode. -/
def Resources.step (s : Resources) : BpAct → Option Resources
  | .addBp env arg mem =>
      if env.Fresh s then
        (Breakpoint.addBp env s arg mem).map (fun answer => answer.2.runPending)
      else none
  | .close fd => if s.isBpFile fd then some (s.closeFd fd).runPending else none

end RwMem.Breakpoint
