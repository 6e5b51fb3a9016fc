import RwMem.Breakpoint.RegisterBytes

/-! The count that `rwmem_bp_read` returns, against the bytes that it stores. -/

namespace RwMem.Breakpoint

open Memory RwMem.Driver

/-- `sizeof(struct pt_regs)`, whose first member `user_regs` is not its only one. -/
structure PtRegsSize where
  size : Nat
  larger : userRegsSize < size

/-- What a read leaves: its result, the bytes that it stored from the start of the buffer on, and
the memory from there on. The code does not keep the number of bytes stored.
-/
structure RegisterRead where
  ret : Int
  stored : Nat
  mem : Nat → UInt8

namespace TargetRegs

variable (t : TargetRegs)

def userRegsBytes : List UInt8 := cells t.userRegs 0 userRegsSize

def fpsimdBytes : List UInt8 := cells t.fpsimdState 0 userFpsimdStateSize

/-- `rwmem_bp_read` of `size` bytes, whose `n`-th copy to the user leaves `left n` bytes. -/
def rwmemBpReadInto (pt : PtRegsSize) (left : Nat → Nat) (size : Nat) (mem : Nat → UInt8)
    : RegisterRead :=
  if !t.stoppedFlag then ⟨-EINVAL, 0, mem⟩
  else if userRegsSize + userFpsimdStateSize ≤ size then
    let (remaining, mem) := xCopyToUser (left 0) mem 0 t.userRegsBytes
    if remaining ≠ 0 then ⟨-EFAULT, userRegsSize - remaining, mem⟩
    else
      let (remaining, mem) := xCopyToUser (left 1) mem userRegsSize t.fpsimdBytes
      if remaining ≠ 0 then ⟨-EFAULT, userRegsSize + (userFpsimdStateSize - remaining), mem⟩
      else ⟨pt.size + userFpsimdStateSize, userRegsSize + userFpsimdStateSize, mem⟩
  else if userRegsSize ≤ size then
    let (remaining, mem) := xCopyToUser (left 0) mem 0 t.userRegsBytes
    if remaining ≠ 0 then ⟨-EFAULT, userRegsSize - remaining, mem⟩
    else ⟨pt.size, userRegsSize, mem⟩
  else ⟨-EINVAL, 0, mem⟩

/-- The records that fit in a buffer. -/
def recordsFor (size : Nat) : List UInt8 :=
  if userRegsSize + userFpsimdStateSize ≤ size then t.userRegsBytes ++ t.fpsimdBytes
  else if userRegsSize ≤ size then t.userRegsBytes
  else []

/-- A read that does not fail returns the number of bytes that it stored, which are the records
that fit. A buffer of the size of one or both records is filled, and one that is too small for
the first is left alone.
-/
structure ReportsStored (size : Nat) (mem : Nat → UInt8) (read : RegisterRead) : Prop where
  count : read.ret < 0 ∨ read.ret = read.stored
  le : read.stored ≤ size
  records
    : 0 ≤ read.ret
      → read.stored = (t.recordsFor size).length ∧ read.mem = store mem 0 (t.recordsFor size)
  filled
    : size = userRegsSize ∨ size = userRegsSize + userFpsimdStateSize
      → 0 ≤ read.ret
      → read.ret = size
  tooSmall : size < userRegsSize → read.ret < 0 ∧ read.stored = 0 ∧ read.mem = mem

/-- Some copy that a read of this size makes fails. -/
def CopyFails (left : Nat → Nat) (size : Nat) : Prop :=
  left 0 ≠ 0 ∨ userRegsSize + userFpsimdStateSize ≤ size ∧ left 1 ≠ 0

variable {t} {pt : PtRegsSize} {left : Nat → Nat} {size : Nat} {mem : Nat → UInt8}

@[simp] theorem length_userRegsBytes : t.userRegsBytes.length = userRegsSize := length_cells _ _ _

@[simp] theorem length_fpsimdBytes : t.fpsimdBytes.length = userFpsimdStateSize :=
  length_cells _ _ _

/-- A copy of one record leaves nothing exactly if it does not fail. -/
theorem copy_record {left at_ : Nat} {src : List UInt8} (nonempty : 0 < src.length)
    (mem : Nat → UInt8)
    : (xCopyToUser left mem at_ src).1 = 0 ↔ left = 0 := by
  rw [xCopyToUser_eq_zero]
  refine or_iff_left ?_
  rintro rfl
  contradiction

theorem rwmemBpReadInto_tooSmall (stopped : t.stoppedFlag = true) (small : size < userRegsSize)
    : t.rwmemBpReadInto pt left size mem = ⟨-EINVAL, 0, mem⟩ := by
  rw [rwmemBpReadInto, stopped, if_neg (by decide), if_neg (by omega), if_neg (by omega)]

theorem rwmemBpReadInto_fails (stopped : t.stoppedFlag = true) (fits : userRegsSize ≤ size)
    (fails : CopyFails left size)
    : let read := t.rwmemBpReadInto pt left size mem
      read.ret = -EFAULT ∧ read.stored ≤ size := by
  have regs : 0 < t.userRegsBytes.length := by rw [length_userRegsBytes]; decide
  have simd : 0 < t.fpsimdBytes.length := by rw [length_fpsimdBytes]; decide
  simp only [rwmemBpReadInto, stopped, Bool.not_true, Bool.false_eq_true, if_false]
  split
  · next both =>
      split
      · exact ⟨rfl, by simp only; omega⟩
      · next copied =>
          have first : left 0 = 0 := (copy_record regs mem).mp (not_not.mp copied)
          have second : left 1 ≠ 0 := (fails.resolve_left (fun bad => bad first)).2
          rw [if_pos (mt (copy_record simd _).mp second)]
          exact ⟨rfl, by simp only; omega⟩
  · next notBoth =>
      have first : left 0 ≠ 0 := fails.resolve_right (fun bad => notBoth bad.1)
      rw [if_pos (mt (copy_record regs _).mp first)]
      exact ⟨rfl, by simp only; omega⟩

/-- A read that does not fail stores the records that fit, and counts the whole `struct pt_regs`
for the first.
-/
theorem rwmemBpReadInto_ok (stopped : t.stoppedFlag = true) (fits : userRegsSize ≤ size)
    (copies : ¬CopyFails left size)
    : t.rwmemBpReadInto pt left size mem
      = ⟨pt.size + ((t.recordsFor size).length - userRegsSize : Nat), (t.recordsFor size).length,
          store mem 0 (t.recordsFor size)⟩ := by
  obtain ⟨first, second⟩ := not_or.mp copies
  have first : left 0 = 0 := not_not.mp first
  rw [rwmemBpReadInto, stopped, if_neg (by decide), recordsFor]
  split
  · next both =>
      have second : left 1 = 0 := by simpa [both] using second
      simp only [first, second, xCopyToUser_zero, ne_eq, not_true, if_false, List.length_append,
        length_userRegsBytes, length_fpsimdBytes, Nat.add_sub_cancel_left, store_append,
        Nat.zero_add]
  · simp only [first, xCopyToUser_zero, ne_eq, not_true, if_false, length_userRegsBytes,
      Nat.sub_self, Nat.cast_zero, Int.add_zero]

/-- With the sizes that the library is built for, a read whose copies succeed returns and stores
what `rwmemBpRead` says.
-/
theorem rwmemBpReadInto_eq (larger : userRegsSize < ptRegsSize) (size : Nat) (mem : Nat → UInt8)
    : let read := t.rwmemBpReadInto ⟨ptRegsSize, larger⟩ (fun _ => 0) size mem
      read.ret = (t.rwmemBpRead size).1 ∧ read.mem = store mem 0 (t.rwmemBpRead size).2 := by
  have nothing : mem = store mem 0 [] := by
    funext i
    exact (store_outside (Or.inr (Nat.zero_le i))).symm
  simp only [rwmemBpReadInto, rwmemBpRead, xCopyToUser_zero, ne_eq, not_true, if_false]
  split
  · exact ⟨rfl, nothing⟩
  · split
    · refine ⟨rfl, ?_⟩
      rw [store_append, length_cells, Nat.zero_add]
      rfl
    · split
      · exact ⟨rfl, rfl⟩
      · exact ⟨rfl, nothing⟩

/-- A read that fails reports what it stored, since it reports nothing. -/
theorem reportsStored_of_neg {read : RegisterRead} (negative : read.ret < 0)
    (le : read.stored ≤ size) (tooSmall : size < userRegsSize → read.stored = 0 ∧ read.mem = mem)
    : t.ReportsStored size mem read := by
  refine ⟨Or.inl negative, le, ?_, ?_, fun small => ⟨negative, tooSmall small⟩⟩
  · intro good
    omega
  · intro _ good
    omega

/-- For every size, a read of the registers of a stopped target reports what it stored if and only
if it fails: the buffer is too small for the general registers or a copy leaves bytes.
-/
theorem reportsStored_iff (stopped : t.stoppedFlag = true)
    : t.ReportsStored size mem (t.rwmemBpReadInto pt left size mem)
      ↔ size < userRegsSize ∨ CopyFails left size := by
  have larger := pt.larger
  constructor
  · intro reports
    by_contra neither
    obtain ⟨large, copies⟩ := not_or.mp neither
    have fits := Nat.le_of_not_lt large
    have count := reports.count
    rw [rwmemBpReadInto_ok stopped fits copies] at count
    simp only at count
    have some_ : userRegsSize ≤ (t.recordsFor size).length := by
      rw [recordsFor]
      split
      · simp
      · simp
    omega
  · intro fails
    by_cases small : size < userRegsSize
    · rw [rwmemBpReadInto_tooSmall stopped small]
      exact reportsStored_of_neg (Int.neg_neg_of_pos (by decide)) (Nat.zero_le _)
        (fun _ => ⟨rfl, rfl⟩)
    · have failed : (t.rwmemBpReadInto pt left size mem).ret = -EFAULT
          ∧ (t.rwmemBpReadInto pt left size mem).stored ≤ size :=
        rwmemBpReadInto_fails stopped (Nat.le_of_not_lt small) (fails.resolve_left small)
      obtain ⟨ret, stored⟩ := failed
      refine reportsStored_of_neg ?_ stored (fun less => absurd less small)
      rw [ret]
      exact Int.neg_neg_of_pos (by decide)

/-- A stopped target whose registers are all zero, under a kernel where `struct pt_regs` has 336
bytes.
-/
def zeroRegs : TargetRegs := ⟨true, fun _ => 0, fun _ => 0⟩

def ptRegs336 : PtRegsSize := ⟨336, by decide⟩

theorem reportsStored_iff_zeroRegs
    : zeroRegs.ReportsStored 100 (fun _ => 7)
        (zeroRegs.rwmemBpReadInto ptRegs336 (fun _ => 0) 100 (fun _ => 7))
      ↔ 100 < userRegsSize ∨ CopyFails (fun _ => 0) 100 :=
  reportsStored_iff rfl

/-- A read of the general registers alone stores 272 bytes and returns 336. -/
theorem not_reportsStored_zeroRegs
    : ¬zeroRegs.ReportsStored 272 (fun _ => 7)
        (zeroRegs.rwmemBpReadInto ptRegs336 (fun _ => 0) 272 (fun _ => 7)) := by
  intro reports
  have returned : (zeroRegs.rwmemBpReadInto ptRegs336 (fun _ => 0) 272 (fun _ => 7)).ret = 336 := by
    simp [rwmemBpReadInto, zeroRegs, ptRegs336, xCopyToUser_zero, userRegsSize,
      userFpsimdStateSize]
  have filled := reports.filled (Or.inl rfl)
  rw [returned] at filled
  exact absurd (filled (by decide)) (by decide)

end TargetRegs

end RwMem.Breakpoint
