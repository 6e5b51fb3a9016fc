import RwMem.Driver.PhyMem

/-! One breakpoint file: its private data, the callback that stops the target, and the calls
of its user.
-/

namespace RwMem.Breakpoint

open RwMem.Driver

/-- Breakpoint files and threads are named by numbers; a number is never used again. -/
abbrev FileId := Nat
abbrev Pid := Nat

def EPOLLIN : Int := 1

/-- `struct rwmem_bp_private_data`. The poll word holds `EPOLLIN` or `0`. -/
structure PrivateData where
  targetTask : Pid
  poll : Bool
  continueFlag : Bool
  stoppedFlag : Bool
deriving DecidableEq

/-- The data of `create_rwmem_bp_file`, once the target is stored in it. -/
def PrivateData.fresh (targetTask : Pid) : PrivateData := ⟨targetTask, false, false, false⟩

/-- Where a thread stands in `bp_callback_after`. -/
inductive Pc where
  | markStopped
  | announce
  | waitContinue
  | asleep
  | clearPoll
  | clearFlags
deriving DecidableEq

/-- One step of `bp_callback_after`, and where the thread goes next: `none` behind the last
step. There is no step for a sleeper that nobody has told to continue.
-/
def bpCallbackAfter (data : PrivateData) : Pc → Option (PrivateData × Option Pc)
  | .markStopped => some ({ data with stoppedFlag := true }, some .announce)
  | .announce => some ({ data with poll := true }, some .waitContinue)
  | .waitContinue => some (data, some (if data.continueFlag then .clearPoll else .asleep))
  | .asleep => if data.continueFlag then some (data, some .clearPoll) else none
  | .clearPoll => some ({ data with poll := false }, some .clearFlags)
  | .clearFlags =>
      some ({ data with continueFlag := false, stoppedFlag := false }, none)

/-- No step of the callback changes the target of the file. -/
theorem targetTask_of_callback {data data' : PrivateData} {pc : Pc} {next : Option Pc}
    (steps : bpCallbackAfter data pc = some (data', next))
    : data'.targetTask = data.targetTask := by
  cases pc with
  | asleep =>
      simp only [bpCallbackAfter] at steps
      split at steps <;> cases steps
      rfl
  | _ =>
      cases steps
      rfl

/-- `user_regs` of a thread, as the 34 words that `regs[id]` reaches, and its
`user_fpsimd_state`.
-/
structure Regs where
  user : Nat → UInt64
  vregs : Nat → BitVec 128
  fpsr : UInt32
  fpcr : UInt32

structure SetRegParam where
  id : UInt64
  value : UInt64

structure SetSimdRegParam where
  id : UInt64
  value : BitVec 128

/-- `IOCTL_BP_SET_REG` behind its first test; a `param` that cannot be copied is `none`. -/
def setReg (param : Option SetRegParam) (regs : Regs) : Regs × Int :=
  match param with
  | none => (regs, -EFAULT)
  | some param =>
      if param.id ≥ 34 then (regs, -EINVAL)
      else ({ regs with user := Function.update regs.user param.id.toNat param.value }, 0)

/-- `IOCTL_BP_SET_SIMD_REG` behind its first test. -/
def setSimdReg (param : Option SetSimdRegParam) (regs : Regs) : Regs × Int :=
  match param with
  | none => (regs, -EFAULT)
  | some param =>
      if param.id < 32 then
        ({ regs with vregs := Function.update regs.vregs param.id.toNat param.value }, 0)
      else if param.id = 32 then
        ({ regs with fpsr := UInt32.ofNat param.value.toNat }, 0)
      else if param.id = 33 then
        ({ regs with fpcr := UInt32.ofNat param.value.toNat }, 0)
      else
        (regs, -EINVAL)

/-- `sizeof` of `user_regs`, of `struct user_fpsimd_state` and of `struct pt_regs`. -/
def userRegsSize : Nat := 272
def userFpsimdStateSize : Nat := 528
def ptRegsSize : Nat := 336

/-- What `rwmem_bp_read` answers behind its first test; `regsFail` and `fpsimdFail` tell
which of its copies leave bytes.
-/
def bpReadResult (size : Nat) (regsFail fpsimdFail : Bool) : Int :=
  if userRegsSize + userFpsimdStateSize ≤ size then
    if regsFail then -EFAULT
    else if fpsimdFail then -EFAULT
    else ptRegsSize + userFpsimdStateSize
  else if userRegsSize ≤ size then
    if regsFail then -EFAULT else ptRegsSize
  else
    -EINVAL

/-- The calls on a breakpoint file: the five commands of `rwmem_bp_ioctl`, any other
command, `rwmem_bp_read` and `rwmem_bp_poll`.
-/
inductive Call where
  | bpContinue
  | bpSetReg (param : Option SetRegParam)
  | bpSetSimdReg (param : Option SetSimdRegParam)
  | bpStep
  | bpIsStopped
  | bpOther
  | read (size : Nat) (regsFail fpsimdFail : Bool)
  | poll

/-- The calls that start with the test of `stopped_flag`. -/
def Call.isTested : Call → Bool
  | .bpContinue => true
  | .bpSetReg _ => true
  | .bpSetSimdReg _ => true
  | .bpStep => true
  | .read _ _ _ => true
  | .bpIsStopped => false
  | .bpOther => false
  | .poll => false

/-- The calls that let the target go on. -/
def Call.isResume : Call → Bool
  | .bpContinue => true
  | .bpStep => true
  | _ => false

/-- The parameters of the call pass every check behind the test of `stopped_flag`. -/
def Call.succeeds : Call → Bool
  | .bpContinue => true
  | .bpStep => true
  | .bpIsStopped => true
  | .bpSetReg none => false
  | .bpSetReg (some param) => param.id < 34
  | .bpSetSimdReg none => false
  | .bpSetSimdReg (some param) => param.id < 32 || param.id = 32 || param.id = 33
  | .read size regsFail fpsimdFail =>
      if userRegsSize + userFpsimdStateSize ≤ size then !regsFail && !fpsimdFail
      else userRegsSize ≤ size && !regsFail
  | .bpOther => false
  | .poll => false

theorem setReg_eq_zero_iff (param : Option SetRegParam) (regs : Regs)
    : (setReg param regs).2 = 0 ↔ (Call.bpSetReg param).succeeds = true := by
  cases param with
  | none => simp [setReg, Call.succeeds, EFAULT]
  | some param =>
      by_cases low : param.id < 34
      · have inside : ¬param.id ≥ 34 := UInt64.not_le.mpr low
        simp [setReg, Call.succeeds, inside, low]
      · have outside : param.id ≥ 34 := UInt64.not_lt.mp low
        simp [setReg, Call.succeeds, outside, low, EINVAL]

theorem setSimdReg_eq_zero_iff (param : Option SetSimdRegParam) (regs : Regs)
    : (setSimdReg param regs).2 = 0 ↔ (Call.bpSetSimdReg param).succeeds = true := by
  cases param with
  | none => simp [setSimdReg, Call.succeeds, EFAULT]
  | some param =>
      by_cases vector : param.id < 32
      · simp [setSimdReg, Call.succeeds, vector]
      · by_cases status : param.id = 32
        · simp [setSimdReg, Call.succeeds, status]
        · by_cases control : param.id = 33
          · simp [setSimdReg, Call.succeeds, control]
          · simp [setSimdReg, Call.succeeds, vector, status, control, EINVAL]

theorem bpReadResult_nonneg_iff (size : Nat) (regsFail fpsimdFail : Bool)
    : 0 ≤ bpReadResult size regsFail fpsimdFail
      ↔ (Call.read size regsFail fpsimdFail).succeeds = true := by
  rw [bpReadResult, Call.succeeds]
  split
  · cases regsFail <;> cases fpsimdFail <;> simp [EFAULT, ptRegsSize, userFpsimdStateSize]
  · cases regsFail <;>
      by_cases fits : userRegsSize ≤ size <;> simp [fits, EFAULT, EINVAL, ptRegsSize]

theorem Call.isTested_of_isResume {call : Call} (resumes : call.isResume = true)
    : call.isTested = true := by
  cases call <;> first | rfl | contradiction

end RwMem.Breakpoint
