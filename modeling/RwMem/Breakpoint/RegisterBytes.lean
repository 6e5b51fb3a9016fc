import RwMem.Breakpoint.File
import RwMem.Driver.Ioctl
import RwMem.Memory.Bytes

/-! The registers of a stopped target as the bytes of `struct user_pt_regs` and of
`struct user_fpsimd_state`, and the calls of the driver that read and change them.
-/

namespace RwMem.Breakpoint

open Memory RwMem.Driver

def rwmemBpMajorNum : Nat := 101

/-- `sizeof` of `struct set_reg_param`, and of `struct set_simd_reg_param`, whose second field is
aligned to 16 bytes.
-/
def setRegParamSize : Nat := 16
def setSimdRegParamSize : Nat := 32

def IOCTL_BP_SET_REG : UInt32 := ioc .write rwmemBpMajorNum 1 setRegParamSize
def IOCTL_BP_SET_SIMD_REG : UInt32 := ioc .write rwmemBpMajorNum 2 setSimdRegParamSize

/-- What the calls use of a target and its file: the flag of the file, and the memory from
`user_regs` and from `fpsimd_state` on.
-/
structure TargetRegs where
  stoppedFlag : Bool
  userRegs : Nat → UInt8
  fpsimdState : Nat → UInt8

namespace TargetRegs

variable (t : TargetRegs)

/-- `user_regs.regs[id]` and `vregs[id]`, `fpsr` and `fpcr`, which stand behind `vregs`. -/
def storeReg (id value : Nat) : TargetRegs :=
  { t with userRegs := store t.userRegs (8 * id) (leBytes 8 value) }

def storeVreg (id value : Nat) : TargetRegs :=
  { t with fpsimdState := store t.fpsimdState (16 * id) (leBytes 16 value) }

def storeFpsr (value : Nat) : TargetRegs :=
  { t with fpsimdState := store t.fpsimdState 512 (leBytes 4 value) }

def storeFpcr (value : Nat) : TargetRegs :=
  { t with fpsimdState := store t.fpsimdState 516 (leBytes 4 value) }

/-- `IOCTL_BP_SET_REG` with the parameter that was copied. An id of 31 and above is behind
`user_regs.regs`, where `sp`, `pc` and `pstate` stand.
-/
def ioctlSetReg (param : List UInt8) : Int × TargetRegs :=
  let id := wordAt param 0 8
  if id ≥ 34 then (-EINVAL, t) else (0, t.storeReg id (wordAt param 8 8))

/-- `IOCTL_BP_SET_SIMD_REG` with the parameter that was copied. -/
def ioctlSetSimdReg (param : List UInt8) : Int × TargetRegs :=
  let id := wordAt param 0 8
  let value := wordAt param 16 16
  if id < 32 then (0, t.storeVreg id value)
  else if id = 32 then (0, t.storeFpsr value)
  else if id = 33 then (0, t.storeFpcr value)
  else (-EINVAL, t)

/-- The commands of `rwmem_bp_ioctl` that change registers, over the memory at `arg`. -/
def rwmemBpIoctl (cmd : UInt32) (arg : Nat → UInt8) : Int × TargetRegs :=
  if cmd = IOCTL_BP_SET_REG then
    if t.stoppedFlag then t.ioctlSetReg (cells arg 0 setRegParamSize) else (-EINVAL, t)
  else if cmd = IOCTL_BP_SET_SIMD_REG then
    if t.stoppedFlag then t.ioctlSetSimdReg (cells arg 0 setSimdRegParamSize) else (-EINVAL, t)
  else (-EINVAL, t)

theorem ioctl_set_reg_ne : IOCTL_BP_SET_SIMD_REG ≠ IOCTL_BP_SET_REG := by
  decide +kernel

theorem rwmemBpIoctl_setReg (stopped : t.stoppedFlag = true) (arg : Nat → UInt8)
    : t.rwmemBpIoctl IOCTL_BP_SET_REG arg = t.ioctlSetReg (cells arg 0 setRegParamSize) := by
  rw [rwmemBpIoctl, if_pos rfl, if_pos stopped]

theorem rwmemBpIoctl_setSimdReg (stopped : t.stoppedFlag = true) (arg : Nat → UInt8)
    : t.rwmemBpIoctl IOCTL_BP_SET_SIMD_REG arg
      = t.ioctlSetSimdReg (cells arg 0 setSimdRegParamSize) := by
  rw [rwmemBpIoctl, if_neg ioctl_set_reg_ne, if_pos rfl, if_pos stopped]

/-- `rwmem_bp_read`: what it returns, and the bytes that it copies to the user. The count is that
of the larger `struct pt_regs`.
-/
def rwmemBpRead (size : Nat) : Int × List UInt8 :=
  if !t.stoppedFlag then (-EINVAL, [])
  else if userRegsSize + userFpsimdStateSize ≤ size then
    (ptRegsSize + userFpsimdStateSize,
      cells t.userRegs 0 userRegsSize ++ cells t.fpsimdState 0 userFpsimdStateSize)
  else if userRegsSize ≤ size then (ptRegsSize, cells t.userRegs 0 userRegsSize)
  else (-EINVAL, [])

/-- The registers that the bytes stand for. -/
def regs : Regs where
  user i := UInt64.ofNat (field t.userRegs (8 * i) 8)
  vregs i := if i < 32 then BitVec.ofNat 128 (field t.fpsimdState (16 * i) 16) else 0
  fpsr := UInt32.ofNat (field t.fpsimdState 512 4)
  fpcr := UInt32.ofNat (field t.fpsimdState 516 4)

/-- `__reserved` -/
def reserved (i : Fin 2) : UInt32 := UInt32.ofNat (field t.fpsimdState (520 + 4 * i) 4)

/-- A store in the general part changes one of its words. -/
theorem regs_storeReg (id value : Nat)
    : (t.storeReg id value).regs
      = { t.regs with user := Function.update t.regs.user id (UInt64.ofNat value) } := by
  have words : (t.storeReg id value).regs.user
      = Function.update t.regs.user id (UInt64.ofNat value) := by
    funext i
    by_cases same : i = id
    · subst same
      rw [Function.update_self]
      simp only [regs, storeReg, field_store]
      exact UInt64.toNat_inj.mp (by simp)
    · rw [Function.update_of_ne same]
      simp only [regs, storeReg]
      rw [field_store_apart]
      rw [length_leBytes]
      omega
  exact congrArg (fun user => { t.regs with user := user }) words

/-- A store in a vector changes one of them. -/
theorem regs_storeVreg {id : Nat} (vector : id < 32) (value : Nat)
    : (t.storeVreg id value).regs
      = { t.regs with vregs := Function.update t.regs.vregs id (BitVec.ofNat 128 value) } := by
  have words : (t.storeVreg id value).regs.vregs
      = Function.update t.regs.vregs id (BitVec.ofNat 128 value) := by
    funext i
    by_cases same : i = id
    · subst same
      rw [Function.update_self]
      simp only [regs, storeVreg, field_store, if_pos vector]
      exact BitVec.eq_of_toNat_eq (by simp)
    · rw [Function.update_of_ne same]
      simp only [regs, storeVreg]
      rw [field_store_apart]
      rw [length_leBytes]
      omega
  have behind {b : Nat} (status : 512 ≤ b)
      : field (t.storeVreg id value).fpsimdState b 4 = field t.fpsimdState b 4 :=
    field_store_apart t.fpsimdState (Or.inr (by rw [length_leBytes]; omega))
  change Regs.mk _ (t.storeVreg id value).regs.vregs _ _ = _
  rw [words, behind (Nat.le_refl 512), behind (by decide : 512 ≤ 516)]
  rfl

/-- The vectors stand in front of the status words. -/
theorem vregs_of_store {at_ : Nat} {src : List UInt8} (status : 512 ≤ at_)
    : (fun i => if i < 32 then
          BitVec.ofNat 128 (field (store t.fpsimdState at_ src) (16 * i) 16) else 0)
      = t.regs.vregs := by
  funext i
  by_cases vector : i < 32
  · simp only [regs, if_pos vector]
    rw [field_store_apart t.fpsimdState (Or.inl (by omega))]
  · simp only [regs, if_neg vector]

/-- A status word keeps the low 32 bits. -/
theorem ofNat_field_store (mem : Nat → UInt8) (at_ value : Nat)
    : UInt32.ofNat (field (store mem at_ (leBytes 4 value)) at_ 4) = UInt32.ofNat value := by
  rw [field_store]
  exact UInt32.toNat_inj.mp (by simp)

theorem regs_storeFpsr (value : Nat)
    : (t.storeFpsr value).regs = { t.regs with fpsr := UInt32.ofNat value } := by
  have fpcr : field (t.storeFpsr value).fpsimdState 516 4 = field t.fpsimdState 516 4 :=
    field_store_apart t.fpsimdState (Or.inr (by rw [length_leBytes]))
  change Regs.mk _ (fun i => if i < 32 then
    BitVec.ofNat 128 (field (store t.fpsimdState 512 (leBytes 4 value)) (16 * i) 16) else 0)
    (UInt32.ofNat (field (store t.fpsimdState 512 (leBytes 4 value)) 512 4)) _ = _
  rw [t.vregs_of_store (Nat.le_refl 512), ofNat_field_store, fpcr]
  rfl

theorem regs_storeFpcr (value : Nat)
    : (t.storeFpcr value).regs = { t.regs with fpcr := UInt32.ofNat value } := by
  have fpsr : field (t.storeFpcr value).fpsimdState 512 4 = field t.fpsimdState 512 4 :=
    field_store_apart t.fpsimdState (Or.inl (Nat.le_refl 516))
  change Regs.mk _ (fun i => if i < 32 then
    BitVec.ofNat 128 (field (store t.fpsimdState 516 (leBytes 4 value)) (16 * i) 16) else 0)
    _ (UInt32.ofNat (field (store t.fpsimdState 516 (leBytes 4 value)) 516 4)) = _
  rw [t.vregs_of_store (by decide : 512 ≤ 516), ofNat_field_store, fpsr]
  rfl

/-- The reserved words stand behind everything that is stored. -/
theorem reserved_of_store {at_ : Nat} {src : List UInt8} (front : at_ + src.length ≤ 520)
    : { t with fpsimdState := store t.fpsimdState at_ src }.reserved = t.reserved := by
  funext i
  simp only [reserved]
  rw [field_store_apart t.fpsimdState (Or.inr (by omega))]

/-- A call on the bytes follows one on the words: it returns the same and leaves the same words,
and nothing else changes.
-/
structure Follows (outcome : Int × TargetRegs) (words : Regs × Int) : Prop where
  ret : outcome.1 = words.2
  regs : outcome.2.regs = words.1
  reserved : outcome.2.reserved = t.reserved
  stoppedFlag : outcome.2.stoppedFlag = t.stoppedFlag

/-- `struct set_reg_param` and `struct set_simd_reg_param` -/
def setRegParam (param : List UInt8) : SetRegParam :=
  ⟨UInt64.ofNat (wordAt param 0 8), UInt64.ofNat (wordAt param 8 8)⟩

def setSimdRegParam (param : List UInt8) : SetSimdRegParam :=
  ⟨UInt64.ofNat (wordAt param 0 8), BitVec.ofNat 128 (wordAt param 16 16)⟩

theorem toNat_id (param : List UInt8)
    : (UInt64.ofNat (wordAt param 0 8)).toNat = wordAt param 0 8 :=
  UInt64.toNat_ofNat_of_lt' (wordAt_lt param 0 8)

theorem ioctlSetReg_follows (param : List UInt8)
    : t.Follows (t.ioctlSetReg param) (setReg (some (setRegParam param)) t.regs) := by
  have id := toNat_id param
  have same : (setRegParam param).id ≥ 34 ↔ wordAt param 0 8 ≥ 34 := by
    rw [ge_iff_le, UInt64.le_iff_toNat_le, setRegParam, id]
    rfl
  rw [ioctlSetReg, setReg]
  by_cases large : wordAt param 0 8 ≥ 34
  · rw [if_pos (same.mpr large)]
    simp only [if_pos large]
    exact ⟨rfl, rfl, rfl, rfl⟩
  · rw [if_neg (mt same.mp large)]
    simp only [if_neg large]
    refine ⟨rfl, ?_, rfl, rfl⟩
    rw [regs_storeReg, setRegParam, id]

theorem ioctlSetSimdReg_follows (param : List UInt8)
    : t.Follows (t.ioctlSetSimdReg param) (setSimdReg (some (setSimdRegParam param)) t.regs) := by
  have id := toNat_id param
  have value : (BitVec.ofNat 128 (wordAt param 16 16)).toNat = wordAt param 16 16 :=
    Nat.mod_eq_of_lt (wordAt_lt param 16 16)
  have vector : (setSimdRegParam param).id < 32 ↔ wordAt param 0 8 < 32 := by
    rw [UInt64.lt_iff_toNat_lt, setSimdRegParam, id]
    rfl
  have fpsr : (setSimdRegParam param).id = 32 ↔ wordAt param 0 8 = 32 := by
    rw [← UInt64.toNat_inj, setSimdRegParam, id]
    rfl
  have fpcr : (setSimdRegParam param).id = 33 ↔ wordAt param 0 8 = 33 := by
    rw [← UInt64.toNat_inj, setSimdRegParam, id]
    rfl
  rw [ioctlSetSimdReg, setSimdReg]
  simp only [vector, fpsr, fpcr]
  split
  · next small =>
      refine ⟨rfl, ?_, t.reserved_of_store (by rw [length_leBytes]; omega), rfl⟩
      rw [regs_storeVreg t small, setSimdRegParam, id]
  · split
    · refine ⟨rfl, ?_, t.reserved_of_store (by rw [length_leBytes]; omega), rfl⟩
      rw [regs_storeFpsr, setSimdRegParam, value]
    · split
      · refine ⟨rfl, ?_, t.reserved_of_store (by rw [length_leBytes]), rfl⟩
        rw [regs_storeFpcr, setSimdRegParam, value]
      · exact ⟨rfl, rfl, rfl, rfl⟩

end TargetRegs

end RwMem.Breakpoint
