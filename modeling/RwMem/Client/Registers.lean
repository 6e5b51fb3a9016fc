import RwMem.Breakpoint.RegisterBytes

/-! The calls of the client library that change single registers of a stopped target, and those
that read all of them.
-/

namespace RwMem.Client

open Memory RwMem.Driver RwMem.Breakpoint

def RWMEM_BP_MAGIC : Nat := 101

/-- The request codes, with the sizes of the two `SetRegParam` and `SetSimdRegParam` records. -/
def bpSetReg : UInt32 := ioc .write RWMEM_BP_MAGIC 1 16
def bpSetSimdReg : UInt32 := ioc .write RWMEM_BP_MAGIC 2 32

structure Regs where
  regs : Fin 31 → UInt64
  sp : UInt64
  pc : UInt64
  pstate : UInt64

structure SimdRegs where
  regs : Fin 32 → BitVec 128
  fpsr : UInt32
  fpcr : UInt32
  reserved : Fin 2 → UInt32

abbrev AllRegs := Regs × SimdRegs

inductive RegisterError where
  | invalidRegister (reg : Nat)
  | errno (e : Int)
deriving DecidableEq

/-- A negative result of a system call is an error. -/
def errnoOf {α : Type} (ret : Int) (value : α) : Except RegisterError α :=
  if ret < 0 then .error (.errno (-ret)) else .ok value

theorem errnoOf_zero {α : Type} (value : α) : errnoOf 0 value = .ok value := rfl

/-- `set_reg`. The record is made in memory that holds anything before. -/
def setReg (reg : UInt8) (value : UInt64) (stack : Nat → UInt8) (t : TargetRegs)
    : Except RegisterError Unit × TargetRegs :=
  if reg ≥ 34 then (.error (.invalidRegister reg.toNat), t)
  else
    let param := store (store stack 0 (leBytes 8 reg.toNat)) 8 (leBytes 8 value.toNat)
    let (ret, t) := t.rwmemBpIoctl bpSetReg param
    (errnoOf ret (), t)

/-- `set_simd_reg`. Between the two fields of the record are 8 bytes of padding. -/
def setSimdReg (reg : UInt8) (value : BitVec 128) (stack : Nat → UInt8) (t : TargetRegs)
    : Except RegisterError Unit × TargetRegs :=
  if reg ≥ 34 then (.error (.invalidRegister reg.toNat), t)
  else
    let param := store (store stack 0 (leBytes 8 reg.toNat)) 16 (leBytes 16 value.toNat)
    let (ret, t) := t.rwmemBpIoctl bpSetSimdReg param
    (errnoOf ret (), t)

/-- The bytes of `Regs`, as `transmute` takes them. -/
def Regs.ofBytes (buf : List UInt8) : Regs where
  regs i := UInt64.ofNat (wordAt buf (8 * i) 8)
  sp := UInt64.ofNat (wordAt buf 248 8)
  pc := UInt64.ofNat (wordAt buf 256 8)
  pstate := UInt64.ofNat (wordAt buf 264 8)

def SimdRegs.ofBytes (buf : List UInt8) : SimdRegs where
  regs i := BitVec.ofNat 128 (wordAt buf (16 * i) 16)
  fpsr := UInt32.ofNat (wordAt buf 512 4)
  fpcr := UInt32.ofNat (wordAt buf 516 4)
  reserved i := UInt32.ofNat (wordAt buf (520 + 4 * i) 4)

/-- `get_regs` -/
def getRegs (t : TargetRegs) : Except RegisterError Regs :=
  let (ret, bytes) := t.rwmemBpRead 272
  errnoOf ret (Regs.ofBytes (overwrite (List.replicate 272 0) 0 bytes))

/-- `get_regs_with_simd`. The second record of the tuple stands behind the first. -/
def getRegsWithSimd (t : TargetRegs) : Except RegisterError AllRegs :=
  let (ret, bytes) := t.rwmemBpRead 800
  let buf := overwrite (List.replicate 800 0) 0 bytes
  errnoOf ret (Regs.ofBytes buf, SimdRegs.ofBytes (buf.drop 272))

-----------------------------------------------------------------------------------------
-- Register files
-----------------------------------------------------------------------------------------

/-- The register file of a target. -/
def fileOf (words : Breakpoint.Regs) (reserved : Fin 2 → UInt32) : AllRegs :=
  ({ regs i := words.user i
     sp := words.user 31
     pc := words.user 32
     pstate := words.user 33 },
    { regs i := words.vregs i
      fpsr := words.fpsr
      fpcr := words.fpcr
      reserved := reserved })

/-- A call of `set_reg` or `set_simd_reg`. -/
inductive SetCall where
  | reg (id : UInt8) (value : UInt64) (stack : Nat → UInt8)
  | simdReg (id : UInt8) (value : BitVec 128) (stack : Nat → UInt8)

def SetCall.run : SetCall → TargetRegs → Except RegisterError Unit × TargetRegs
  | .reg id value stack, t => setReg id value stack t
  | .simdReg id value stack, t => setSimdReg id value stack t

/-- The answers to calls made one after the other, and the target behind them. -/
def runCalls : List SetCall → TargetRegs → List (Except RegisterError Unit) × TargetRegs
  | [], t => ([], t)
  | call :: rest, t =>
      let (answer, t) := call.run t
      let (answers, t) := runCalls rest t
      (answer :: answers, t)

/-- The registers by their names. -/
inductive Register where
  | x (n : Fin 31)
  | sp
  | pc
  | pstate
  | v (n : Fin 32)
  | fpsr
  | fpcr
deriving DecidableEq

/-- The width of a register. -/
def Register.bits : Register → Nat
  | .x _ => 64
  | .sp => 64
  | .pc => 64
  | .pstate => 64
  | .v _ => 128
  | .fpsr => 32
  | .fpcr => 32

def AllRegs.get (file : AllRegs) : Register → Nat
  | .x n => (file.1.regs n).toNat
  | .sp => file.1.sp.toNat
  | .pc => file.1.pc.toNat
  | .pstate => file.1.pstate.toNat
  | .v n => (file.2.regs n).toNat
  | .fpsr => file.2.fpsr.toNat
  | .fpcr => file.2.fpcr.toNat

def SetCall.id : SetCall → Nat
  | .reg id _ _ => id.toNat
  | .simdReg id _ _ => id.toNat

def SetCall.value : SetCall → Nat
  | .reg _ value _ => value.toNat
  | .simdReg _ value _ => value.toNat

/-- The register that a call names: 34 and above name none. -/
def SetCall.register : SetCall → Option Register
  | .reg id _ _ =>
      if h : id.toNat < 31 then some (.x ⟨id.toNat, h⟩)
      else if id = 31 then some .sp
      else if id = 32 then some .pc
      else if id = 33 then some .pstate
      else none
  | .simdReg id _ _ =>
      if h : id.toNat < 32 then some (.v ⟨id.toNat, h⟩)
      else if id = 32 then some .fpsr
      else if id = 33 then some .fpcr
      else none

/-- A register gets the value, cut to its width. -/
def AllRegs.set (file : AllRegs) (value : Nat) : Register → AllRegs
  | .x n => ({ file.1 with regs := Function.update file.1.regs n (UInt64.ofNat value) }, file.2)
  | .sp => ({ file.1 with sp := UInt64.ofNat value }, file.2)
  | .pc => ({ file.1 with pc := UInt64.ofNat value }, file.2)
  | .pstate => ({ file.1 with pstate := UInt64.ofNat value }, file.2)
  | .v n => (file.1, { file.2 with regs := Function.update file.2.regs n (BitVec.ofNat 128 value) })
  | .fpsr => (file.1, { file.2 with fpsr := UInt32.ofNat value })
  | .fpcr => (file.1, { file.2 with fpcr := UInt32.ofNat value })

/-- What a call makes of a register file. -/
def SetCall.update (call : SetCall) (file : AllRegs) : AllRegs :=
  match call.register with
  | some r => file.set call.value r
  | none => file

/-- What is in a register behind a call, from what was in it before. -/
def SetCall.updateOf (call : SetCall) (r : Register) (old : Nat) : Nat :=
  if call.register = some r then call.value % 2 ^ r.bits else old

theorem AllRegs.get_set_self (file : AllRegs) (value : Nat) (r : Register)
    : (file.set value r).get r = value % 2 ^ r.bits := by
  cases r <;> simp [AllRegs.set, AllRegs.get, Register.bits]

/-- The other registers are left. -/
theorem AllRegs.get_set_of_ne (file : AllRegs) (value : Nat) {r s : Register} (other : s ≠ r)
    : (file.set value s).get r = file.get r := by
  cases s with
  | x n =>
      cases r with
      | x m =>
          have apart : m ≠ n := fun same => other (congrArg Register.x same.symm)
          exact congrArg UInt64.toNat (Function.update_of_ne apart _ _)
      | _ => rfl
  | v n =>
      cases r with
      | v m =>
          have apart : m ≠ n := fun same => other (congrArg Register.v same.symm)
          exact congrArg BitVec.toNat (Function.update_of_ne apart _ _)
      | _ => rfl
  | _ => cases r <;> first | rfl | exact absurd rfl other

/-- A call changes the register that it names only. -/
theorem SetCall.get_update (file : AllRegs) (call : SetCall) (r : Register)
    : (call.update file).get r = call.updateOf r (file.get r) := by
  rw [update, updateOf]
  cases named : call.register with
  | none => rfl
  | some s =>
      by_cases same : s = r
      · rw [same, if_pos rfl]
        exact file.get_set_self call.value r
      · rw [if_neg (fun both => same (Option.some.inj both))]
        exact file.get_set_of_ne call.value same

/-- So a register is left with the last value that it was given, by induction on the calls. -/
theorem get_foldl_update (calls : List SetCall) (file : AllRegs) (r : Register)
    : AllRegs.get (calls.foldl (fun file call => call.update file) file) r
      = calls.foldl (fun old call => call.updateOf r old) (file.get r) := by
  induction calls generalizing file with
  | nil => rfl
  | cons call rest ih =>
      rw [List.foldl_cons, List.foldl_cons, ih, SetCall.get_update]

-----------------------------------------------------------------------------------------
-- The calls of the library
-----------------------------------------------------------------------------------------

/-- The register file of a target, by the layout of its two records. -/
def targetFile (t : TargetRegs) : AllRegs := fileOf t.regs t.reserved

/-- A word of the general part is the register of its number: those behind `X30` are `sp`, `pc`
and `pstate`.
-/
theorem fileOf_update_user (words : Breakpoint.Regs) (reserved : Fin 2 → UInt32) {id : UInt8}
    (small : id < 34) (value : UInt64) (stack : Nat → UInt8)
    : fileOf { words with user := Function.update words.user id.toNat value } reserved
      = (SetCall.reg id value stack).update (fileOf words reserved) := by
  have bound : id.toNat < 34 := UInt8.lt_iff_toNat_lt.mp small
  have names (n : UInt8) : id = n ↔ id.toNat = n.toNat := UInt8.toNat_inj.symm
  by_cases general : id.toNat < 31
  · have x : (fun i : Fin 31 => Function.update words.user id.toNat value i)
        = Function.update (fun i : Fin 31 => words.user i) ⟨id.toNat, general⟩ value := by
      funext i
      simp [Function.update_apply, Fin.ext_iff]
    have others {n : Nat} (behind : 31 ≤ n)
        : Function.update words.user id.toNat value n = words.user n :=
      Function.update_of_ne (by omega) _ _
    simp only [SetCall.update, SetCall.register, dif_pos general, AllRegs.set, SetCall.value,
      UInt64.ofNat_toNat, fileOf, x, others (Nat.le_refl 31), others (by decide : 31 ≤ 32),
      others (by decide : 31 ≤ 33)]
  · have x : (fun i : Fin 31 => Function.update words.user id.toNat value i)
        = fun i : Fin 31 => words.user i := by
      funext i
      exact Function.update_of_ne (by omega) _ _
    have other {n : Nat} (apart : n ≠ id.toNat)
        : Function.update words.user id.toNat value n = words.user n :=
      Function.update_of_ne apart _ _
    have written : Function.update words.user id.toNat value id.toNat
        = UInt64.ofNat value.toNat := by
      rw [Function.update_self, UInt64.ofNat_toNat]
    have behind : id = 31 ∨ id = 32 ∨ id = 33 := by
      simp only [names]
      exact (by omega : id.toNat = 31 ∨ id.toNat = 32 ∨ id.toNat = 33)
    obtain rfl | rfl | rfl := behind
    · change _ = (fileOf words reserved).set value.toNat .sp
      simp only [fileOf, AllRegs.set, x, ← written, other (by decide : 32 ≠ (31 : UInt8).toNat),
        other (by decide : 33 ≠ (31 : UInt8).toNat)]
      rfl
    · change _ = (fileOf words reserved).set value.toNat .pc
      simp only [fileOf, AllRegs.set, x, ← written, other (by decide : 31 ≠ (32 : UInt8).toNat),
        other (by decide : 33 ≠ (32 : UInt8).toNat)]
      rfl
    · change _ = (fileOf words reserved).set value.toNat .pstate
      simp only [fileOf, AllRegs.set, x, ← written, other (by decide : 31 ≠ (33 : UInt8).toNat),
        other (by decide : 32 ≠ (33 : UInt8).toNat)]
      rfl

/-- A vector is the register of its number. -/
theorem fileOf_update_vregs (words : Breakpoint.Regs) (reserved : Fin 2 → UInt32) {id : UInt8}
    (vector : id.toNat < 32) (value : BitVec 128) (stack : Nat → UInt8)
    : fileOf { words with vregs := Function.update words.vregs id.toNat value } reserved
      = (SetCall.simdReg id value stack).update (fileOf words reserved) := by
  have v : (fun i : Fin 32 => Function.update words.vregs id.toNat value i)
      = Function.update (fun i : Fin 32 => words.vregs i) ⟨id.toNat, vector⟩ value := by
    funext i
    simp [Function.update_apply, Fin.ext_iff]
  simp only [SetCall.update, SetCall.register, dif_pos vector, AllRegs.set, SetCall.value,
    BitVec.ofNat_toNat, BitVec.setWidth_eq, fileOf, v]

theorem id_lt (id : UInt8) : id.toNat < 256 ^ 8 :=
  Nat.lt_of_lt_of_le id.toNat_lt (by decide)

theorem toNat_ofNat_id (id : UInt8) : (UInt64.ofNat id.toNat).toNat = id.toNat := by
  exact UInt64.toNat_ofNat_of_lt' (id_lt id)

/-- On the words, `set_simd_reg` changes the vector or the status word of its id. -/
theorem setSimdReg_words (words : Breakpoint.Regs) (reserved : Fin 2 → UInt32) {id : UInt8}
    (small : id.toNat < 34) (value : BitVec 128) (stack : Nat → UInt8)
    : let changed := Breakpoint.setSimdReg (some ⟨UInt64.ofNat id.toNat, value⟩) words
      changed.2 = 0
      ∧ fileOf changed.1 reserved = (SetCall.simdReg id value stack).update (fileOf words reserved)
      := by
  intro changed
  by_cases vector : id.toNat < 32
  · have inside : UInt64.ofNat id.toNat < 32 := by
      rw [UInt64.lt_iff_toNat_lt, toNat_ofNat_id]
      exact vector
    rw [← fileOf_update_vregs words reserved vector value stack, ← toNat_ofNat_id]
    simp only [changed, Breakpoint.setSimdReg, if_pos inside]
    exact ⟨trivial, trivial⟩
  · have status : id = 32 ∨ id = 33 := by
      rw [← UInt8.toNat_inj, ← UInt8.toNat_inj]
      exact (by omega : id.toNat = 32 ∨ id.toNat = 33)
    obtain rfl | rfl := status
    · exact ⟨rfl, rfl⟩
    · exact ⟨rfl, rfl⟩

/-- An id of 34 and above names no register. -/
theorem SetCall.register_of_large {call : SetCall} (large : 34 ≤ call.id)
    : call.register = none := by
  cases call with
  | reg id value stack =>
      have bound : 34 ≤ id.toNat := large
      have other (n : UInt8) (small : n.toNat < 34) : id ≠ n := fun same => by
        rw [same] at bound
        omega
      rw [register, dif_neg (by omega), if_neg (other 31 (by decide)),
        if_neg (other 32 (by decide)), if_neg (other 33 (by decide))]
  | simdReg id value stack =>
      have bound : 34 ≤ id.toNat := large
      have other (n : UInt8) (small : n.toNat < 34) : id ≠ n := fun same => by
        rw [same] at bound
        omega
      rw [register, dif_neg (by omega), if_neg (other 32 (by decide)),
        if_neg (other 33 (by decide))]

theorem wordAt_cells (mem : Nat → UInt8) {offset n length : Nat} (inside : offset + n ≤ length)
    : wordAt (cells mem 0 length) offset n = field mem offset n := by
  rw [wordAt, take_drop_cells mem 0 inside, Nat.zero_add]
  rfl

/-- The driver reads the fields of a record where the library has put them. -/
theorem field_param (stack : Nat → UInt8) {at_ n id value : Nat} (behind : 8 ≤ at_)
    (idFits : id < 256 ^ 8) (valueFits : value < 256 ^ n)
    : field (store (store stack 0 (leBytes 8 id)) at_ (leBytes n value)) 0 8 = id
      ∧ field (store (store stack 0 (leBytes 8 id)) at_ (leBytes n value)) at_ n = value := by
  constructor
  · rw [field_store_apart _ (Or.inl (by omega)), field_store, Nat.mod_eq_of_lt idFits]
  · rw [field_store, Nat.mod_eq_of_lt valueFits]

/-- What is left of a call of the library: its answer, a target that is still stopped, and the
register file that the call makes.
-/
structure SetCall.Answered (call : SetCall) (t : TargetRegs)
    (result : Except RegisterError Unit × TargetRegs)
    : Prop where
  answer : result.1 = if call.id < 34 then .ok () else .error (.invalidRegister call.id)
  stopped : result.2.stoppedFlag = true
  file : targetFile result.2 = call.update (targetFile t)

theorem SetCall.answered_of_large {call : SetCall} {t : TargetRegs} (large : 34 ≤ call.id)
    (stopped : t.stoppedFlag = true)
    : call.Answered t (.error (.invalidRegister call.id), t) := by
  refine ⟨(if_neg (by omega)).symm, stopped, ?_⟩
  rw [update, register_of_large large]

/-- A request that the driver follows leaves what is left of its call of the library. -/
theorem SetCall.answered_of_called {call : SetCall} {t : TargetRegs} {request : UInt32}
    {param : Nat → UInt8} {outcome : Int × TargetRegs} (small : call.id < 34)
    (called : t.rwmemBpIoctl request param = outcome) (accepted : outcome.1 = 0)
    (stopped : outcome.2.stoppedFlag = true)
    (file : targetFile outcome.2 = call.update (targetFile t))
    : call.Answered t
        (errnoOf (t.rwmemBpIoctl request param).1 (), (t.rwmemBpIoctl request param).2) := by
  rw [called]
  refine ⟨?_, stopped, file⟩
  rw [accepted, errnoOf_zero]
  exact (if_pos small).symm

/-- The driver stores the value of `set_reg` in the word that it is for. -/
theorem answered_setReg (id : UInt8) (value : UInt64) (stack : Nat → UInt8) {t : TargetRegs}
    (stopped : t.stoppedFlag = true)
    : (SetCall.reg id value stack).Answered t (setReg id value stack t) := by
  rw [setReg]
  split
  · next large => exact SetCall.answered_of_large (UInt8.le_iff_toNat_le.mp large) stopped
  · next notLarge =>
      have small : id < 34 := UInt8.not_le.mp notLarge
      let param := store (store stack 0 (leBytes 8 id.toNat)) 8 (leBytes 8 value.toNat)
      have valueFits : value.toNat < 256 ^ 8 := value.toNat_lt
      obtain ⟨idField, valueField⟩ := field_param stack (Nat.le_refl 8) (id_lt id) valueFits
      have record : TargetRegs.setRegParam (cells param 0 16) = ⟨UInt64.ofNat id.toNat, value⟩ := by
        rw [TargetRegs.setRegParam, wordAt_cells param (by decide), wordAt_cells param (by decide),
          idField, valueField, UInt64.ofNat_toNat]
      have called : t.rwmemBpIoctl bpSetReg param = t.ioctlSetReg (cells param 0 16) :=
        t.rwmemBpIoctl_setReg stopped param
      obtain ⟨ret, regs, reserved, flag⟩ := t.ioctlSetReg_follows (cells param 0 16)
      have accepted : ¬UInt64.ofNat id.toNat ≥ 34 := by
        rw [ge_iff_le, UInt64.le_iff_toNat_le, toNat_ofNat_id]
        exact Nat.not_le_of_lt (UInt8.lt_iff_toNat_lt.mp small)
      rw [record, Breakpoint.setReg, if_neg accepted] at ret regs
      have inside : (SetCall.reg id value stack).id < 34 := UInt8.lt_iff_toNat_lt.mp small
      change SetCall.Answered _ t (errnoOf (t.rwmemBpIoctl bpSetReg param).1 (),
        (t.rwmemBpIoctl bpSetReg param).2)
      refine SetCall.answered_of_called inside called ret (flag.trans stopped) ?_
      rw [targetFile, regs, reserved, toNat_ofNat_id]
      exact fileOf_update_user t.regs t.reserved small value stack

/-- The driver stores the value of `set_simd_reg` in the vector or the status word it is for. -/
theorem answered_setSimdReg (id : UInt8) (value : BitVec 128) (stack : Nat → UInt8)
    {t : TargetRegs} (stopped : t.stoppedFlag = true)
    : (SetCall.simdReg id value stack).Answered t (setSimdReg id value stack t) := by
  rw [setSimdReg]
  split
  · next large => exact SetCall.answered_of_large (UInt8.le_iff_toNat_le.mp large) stopped
  · next notLarge =>
      have small : id.toNat < 34 := UInt8.lt_iff_toNat_lt.mp (UInt8.not_le.mp notLarge)
      let param := store (store stack 0 (leBytes 8 id.toNat)) 16 (leBytes 16 value.toNat)
      have valueFits : value.toNat < 256 ^ 16 := value.isLt
      obtain ⟨idField, valueField⟩ := field_param stack (by decide : 8 ≤ 16) (id_lt id)
        valueFits
      have record : TargetRegs.setSimdRegParam (cells param 0 32)
          = ⟨UInt64.ofNat id.toNat, value⟩ := by
        rw [TargetRegs.setSimdRegParam, wordAt_cells param (by decide),
          wordAt_cells param (by decide), idField, valueField, BitVec.ofNat_toNat,
          BitVec.setWidth_eq]
      have called : t.rwmemBpIoctl bpSetSimdReg param = t.ioctlSetSimdReg (cells param 0 32) :=
        t.rwmemBpIoctl_setSimdReg stopped param
      obtain ⟨ret, regs, reserved, flag⟩ := t.ioctlSetSimdReg_follows (cells param 0 32)
      rw [record] at ret regs
      obtain ⟨accepted, words⟩ := setSimdReg_words t.regs t.reserved small value stack
      have inside : (SetCall.simdReg id value stack).id < 34 := small
      change SetCall.Answered _ t (errnoOf (t.rwmemBpIoctl bpSetSimdReg param).1 (),
        (t.rwmemBpIoctl bpSetSimdReg param).2)
      refine SetCall.answered_of_called inside called (ret.trans accepted) (flag.trans stopped) ?_
      rw [targetFile, regs, reserved]
      exact words

/-- A buffer that is filled whole has what it is filled with. -/
theorem overwrite_whole {n : Nat} {bytes : List UInt8} (whole : bytes.length = n)
    : overwrite (List.replicate n 0) 0 bytes = bytes := by
  rw [overwrite_zero, List.drop_of_length_le (by rw [List.length_replicate, whole]),
    List.append_nil]

theorem wordAt_append {front behind : List UInt8} {offset n : Nat}
    (inside : offset + n ≤ front.length)
    : wordAt (front ++ behind) offset n = wordAt front offset n := by
  rw [wordAt, wordAt, List.drop_append_of_le_length (by omega),
    List.take_append_of_le_length (by rw [List.length_drop]; omega)]

/-- The library's records have the fields where the driver's have them. -/
theorem ofBytes_userRegs (t : TargetRegs) (behind : List UInt8)
    : Regs.ofBytes (cells t.userRegs 0 272 ++ behind) = (targetFile t).1 := by
  have word {offset : Nat} (inside : offset + 8 ≤ 272)
      : wordAt (cells t.userRegs 0 272 ++ behind) offset 8 = field t.userRegs offset 8 := by
    rw [wordAt_append (by rw [length_cells]; exact inside), wordAt_cells t.userRegs inside]
  have x : (fun i : Fin 31 => UInt64.ofNat
        (wordAt (cells t.userRegs 0 272 ++ behind) (8 * i) 8))
      = fun i : Fin 31 => UInt64.ofNat (field t.userRegs (8 * i) 8) := by
    funext i
    rw [word (by omega)]
  rw [Regs.ofBytes, x, word (by decide), word (by decide), word (by decide)]
  rfl

theorem ofBytes_fpsimdState (t : TargetRegs)
    : SimdRegs.ofBytes (cells t.fpsimdState 0 528) = (targetFile t).2 := by
  have v : (fun i : Fin 32 => BitVec.ofNat 128 (wordAt (cells t.fpsimdState 0 528) (16 * i) 16))
      = fun i : Fin 32 => t.regs.vregs i := by
    funext i
    rw [wordAt_cells t.fpsimdState (by omega)]
    exact (if_pos i.isLt).symm
  have reserved : (fun i : Fin 2 => UInt32.ofNat
      (wordAt (cells t.fpsimdState 0 528) (520 + 4 * i) 4)) = t.reserved := by
    funext i
    rw [wordAt_cells t.fpsimdState (by omega)]
    rfl
  rw [SimdRegs.ofBytes, v, reserved, wordAt_cells t.fpsimdState (by decide),
    wordAt_cells t.fpsimdState (by decide)]
  rfl

theorem getRegs_eq {t : TargetRegs} (stopped : t.stoppedFlag = true)
    : getRegs t = .ok (targetFile t).1 := by
  have read : t.rwmemBpRead 272 = (336, cells t.userRegs 0 272) := by
    rw [TargetRegs.rwmemBpRead, stopped]
    rfl
  have regs := ofBytes_userRegs t []
  rw [List.append_nil] at regs
  rw [getRegs, read]
  dsimp only
  rw [overwrite_whole (length_cells _ _ _), regs]
  rfl

theorem getRegsWithSimd_eq {t : TargetRegs} (stopped : t.stoppedFlag = true)
    : getRegsWithSimd t = .ok (targetFile t) := by
  have read : t.rwmemBpRead 800
      = (864, cells t.userRegs 0 272 ++ cells t.fpsimdState 0 528) := by
    rw [TargetRegs.rwmemBpRead, stopped]
    rfl
  have whole : (cells t.userRegs 0 272 ++ cells t.fpsimdState 0 528).length = 800 := by
    rw [List.length_append, length_cells, length_cells]
  rw [getRegsWithSimd, read]
  dsimp only
  rw [overwrite_whole whole, List.drop_left' (length_cells _ _ _), ofBytes_userRegs,
    ofBytes_fpsimdState]
  rfl

theorem SetCall.answered (call : SetCall) {t : TargetRegs} (stopped : t.stoppedFlag = true)
    : call.Answered t (call.run t) := by
  cases call with
  | reg id value stack => exact answered_setReg id value stack stopped
  | simdReg id value stack => exact answered_setSimdReg id value stack stopped

/-- A run of calls, by induction on them. -/
theorem runCalls_eq (calls : List SetCall) {t : TargetRegs} (stopped : t.stoppedFlag = true)
    : (runCalls calls t).1
        = calls.map (fun call =>
            if call.id < 34 then .ok () else .error (.invalidRegister call.id))
      ∧ (runCalls calls t).2.stoppedFlag = true
      ∧ targetFile (runCalls calls t).2
        = calls.foldl (fun file call => call.update file) (targetFile t) := by
  induction calls generalizing t with
  | nil => exact ⟨rfl, stopped, rfl⟩
  | cons call rest ih =>
      obtain ⟨answer, still, file⟩ := call.answered stopped
      obtain ⟨answers, stays, files⟩ := ih still
      rw [List.map_cons, List.foldl_cons, ← answer, ← answers, ← file, ← files]
      exact ⟨rfl, stays, rfl⟩

/-- The reserved words are left, by induction on the calls. -/
theorem reserved_foldl_update (calls : List SetCall) (file : AllRegs)
    : (calls.foldl (fun file call => call.update file) file).2.reserved = file.2.reserved := by
  induction calls generalizing file with
  | nil => rfl
  | cons call rest ih =>
      have left : (call.update file).2.reserved = file.2.reserved := by
        rw [SetCall.update]
        cases call.register with
        | none => rfl
        | some r => cases r <;> rfl
      rw [List.foldl_cons, ih, left]

/-- For every register file of a stopped target and all calls that set registers, those of ids
below 34 are accepted. What is read behind them is the register file with the accepted values
stored one after the other, so each register is left with the last value that it was given.
-/
theorem getRegs_after_sets (userRegs fpsimdState : Nat → UInt8) (calls : List SetCall)
    : let target : TargetRegs := ⟨true, userRegs, fpsimdState⟩
      let file := calls.foldl (fun file call => call.update file) (targetFile target)
      (runCalls calls target).1
          = calls.map (fun call =>
              if call.id < 34 then .ok () else .error (.invalidRegister call.id))
        ∧ getRegsWithSimd (runCalls calls target).2 = .ok file
        ∧ getRegs (runCalls calls target).2 = .ok file.1
        ∧ file.2.reserved = (targetFile target).2.reserved
        ∧ ∀ r : Register, AllRegs.get file r
          = calls.foldl (fun old call => call.updateOf r old) ((targetFile target).get r) := by
  intro target file
  obtain ⟨answers, stopped, files⟩ := runCalls_eq calls (t := target) rfl
  refine ⟨answers, ?_, ?_, ?_, ?_⟩
  · rw [getRegsWithSimd_eq stopped, files]
  · rw [getRegs_eq stopped, files]
  · exact reserved_foldl_update calls (targetFile target)
  · exact get_foldl_update calls (targetFile target)

end RwMem.Client
