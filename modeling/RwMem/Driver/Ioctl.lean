import RwMem.Driver.ProcMaps
import RwMem.Driver.Sys

/-! `rwmem_ioctl`: its request codes, the three commands that describe an address space, with the
residency bitmap block by block, and what the C library makes of their results.
-/

namespace RwMem.Driver

open Memory

def ENOMEM : Int := 12

/-- The direction bits of a request code. -/
inductive IocDir where
  | none
  | write
  | read
  | readWrite
deriving DecidableEq

def IocDir.bits : IocDir → Nat
  | .none => 0
  | .write => 1
  | .read => 2
  | .readWrite => 3

/-- `_IOC`, which `_IO`, `_IOW` and `_IOWR` are short for. -/
def ioc (dir : IocDir) (type nr size : Nat) : UInt32 :=
  UInt32.ofNat (dir.bits <<< 30 ||| size <<< 16 ||| type <<< 8 ||| nr)

/-- The commands of `rwmem_ioctl`. -/
inductive Command where
  | getProcessMapsCount
  | getProcessMapsList
  | checkProcessAddrPhy
  | addBp
  | getNumBrps
  | getNumWrps
deriving DecidableEq

def rwmemMajorNum : Nat := 100

/-- The request codes of the driver; `size_t` and `char *` have eight bytes. -/
def Command.code : Command → UInt32
  | .getProcessMapsCount => ioc .write rwmemMajorNum 0 8
  | .getProcessMapsList => ioc .readWrite rwmemMajorNum 1 8
  | .checkProcessAddrPhy => ioc .readWrite rwmemMajorNum 2 8
  | .addBp => ioc .readWrite rwmemMajorNum 3 8
  | .getNumBrps => ioc .none rwmemMajorNum 4 0
  | .getNumWrps => ioc .none rwmemMajorNum 5 0

/-- A call that returns, with the memory of the caller afterwards, or one that faults in the
kernel.
-/
inductive IoctlResult where
  | returned (ret : Int) (mem : Nat → UInt8)
  | oops

/-- The rest of the kernel during one call. `fromUserLeft` is what the copy of the parameters
leaves, `toUserLeft n` what the `n`-th copy to the user leaves, `noBuffer` says that `kmalloc`
fails, and `breakpoints` stands for the commands that concern breakpoints.
-/
structure IoctlKernel (P : Type) where
  geometry : PageGeometry
  findGetPid : Int32 → Option (Option (TaskStruct P))
  ptes : P → PteBits
  fromUserLeft : Nat
  toUserLeft : Nat → Nat
  noBuffer : Bool
  breakpoints : Command → Nat → (Nat → UInt8) → IoctlResult

-----------------------------------------------------------------------------------------
-- The residency bitmap
-----------------------------------------------------------------------------------------

/-- `MAX_MALLOC_SIZE`. -/
def maxMallocSize : Nat := 1024

/-- A page is resident if it is translated and its entry can be read. -/
def isResident {P : Type} (task : TaskStruct P) (ptes : P → PteBits) (procVirtAddr : Nat)
    : Bool :=
  let (ret, pte) := task.getTaskProcPhyAddr procVirtAddr
  ret ≠ 0 && isPteCanRead ptes pte

/-- `retBuf[i / 8] |= 1 << (i % 8)`. -/
def setBit (retBuf : Nat → UInt8) (i : Nat) : Nat → UInt8 :=
  Function.update retBuf (i / 8) (retBuf (i / 8) ||| UInt8.ofNat (1 <<< (i % 8)))

/-- A run of the block loop: whether all its copies succeeded, how many there were, the index
in the last block, the output position, and both buffers.
-/
structure CheckRun where
  ok : Bool
  copies : Nat
  i : Nat
  arg : Nat
  retBuf : Nat → UInt8
  mem : Nat → UInt8

/-- The loop over the pages of a range whose ends are whole pages, so the address does not
wrap before the end.
-/
def checkPhyLoop (g : PageGeometry) (resident : Nat → Bool) (left : Nat → Nat)
    (bufLen virtAddrEnd procVirtAddr : Nat) (run : CheckRun)
    : CheckRun :=
  if _more : procVirtAddr < virtAddrEnd then
    let retBuf := if resident procVirtAddr then setBit run.retBuf run.i else run.retBuf
    let i := run.i + 1
    if i = maxMallocSize * 8 then
      let (remaining, mem) := xCopyToUser (left run.copies) run.mem run.arg
        (cells retBuf 0 bufLen)
      if remaining ≠ 0 then ⟨false, run.copies + 1, i, run.arg, retBuf, mem⟩
      else
        checkPhyLoop g resident left bufLen virtAddrEnd (procVirtAddr + g.pageSize)
          ⟨true, run.copies + 1, 0, wrap (run.arg + maxMallocSize), fun _ => 0, mem⟩
    else
      checkPhyLoop g resident left bufLen virtAddrEnd (procVirtAddr + g.pageSize)
        { run with i := i, retBuf := retBuf }
  else
    run
termination_by virtAddrEnd - procVirtAddr
decreasing_by
  all_goals
    have := g.pageSize_pos
    omega

-----------------------------------------------------------------------------------------
-- The commands
-----------------------------------------------------------------------------------------

variable {P : Type} (k : IoctlKernel P)

/-- The word at an offset of a buffer. -/
def wordAt (bytes : List UInt8) (offset n : Nat) : Nat := leValue ((bytes.drop offset).take n)

/-- A word has the bytes that it is read from. -/
theorem wordAt_lt (bytes : List UInt8) (offset n : Nat) : wordAt bytes offset n < 256 ^ n :=
  Nat.lt_of_lt_of_le (leValue_lt _) (Nat.pow_le_pow_right (by omega) (List.length_take_le _ _))

/-- A word is found between what stands in front of it and what stands behind it. -/
theorem wordAt_leBytes {w n : Nat} (fits : w < 256 ^ n) (front behind : List UInt8)
    : wordAt (front ++ (leBytes n w ++ behind)) front.length n = w := by
  rw [wordAt, List.drop_left, List.take_append_of_le_length (by rw [length_leBytes]),
    List.take_of_length_le (by rw [length_leBytes]), leValue_leBytes fits]

/-- The words of a request are found where they were stored. -/
theorem wordAt_words {a b c : Nat} (aFits : a < 2 ^ 64) (bFits : b < 2 ^ 64) (cFits : c < 2 ^ 64)
    : wordAt (leBytes 8 a ++ leBytes 8 b ++ leBytes 8 c) 0 8 = a
      ∧ wordAt (leBytes 8 a ++ leBytes 8 b ++ leBytes 8 c) 8 8 = b
      ∧ wordAt (leBytes 8 a ++ leBytes 8 b ++ leBytes 8 c) 16 8 = c := by
  have front (x : Nat) (rest : List UInt8) (fits : x < 2 ^ 64)
      : leValue ((leBytes 8 x ++ rest).take 8) = x := by
    rw [List.take_append_of_le_length (by simp), List.take_of_length_le (by simp),
      leValue_leBytes_word fits]
  have behind (x : Nat) (rest : List UInt8) (n : Nat)
      : (leBytes 8 x ++ rest).drop (n + 8) = rest.drop n := by
    rw [List.drop_append, length_leBytes, List.drop_of_length_le (by simp)]
    simp
  simp only [wordAt, List.append_assoc]
  refine ⟨?_, ?_, ?_⟩
  · exact front a _ aFits
  · rw [behind a _ 0]
    exact front b _ bFits
  · rw [behind a _ 8, behind b _ 0, List.drop_zero, ← List.append_nil (leBytes 8 c)]
    exact front c [] cFits

/-- `IOCTL_GET_PROCESS_MAPS_COUNT`. -/
def rwmemMapsCount (arg : Nat) (mem : Nat → UInt8) : IoctlResult :=
  match k.findGetPid (Int32.ofNat arg) with
  | none => .returned (-EINVAL) mem
  | some task => .returned (getProcMapCount task) mem

/-- The conversion of an `int` to a `uint64_t`. -/
def toUint64 (n : Int) : Nat := (n % 2 ^ 64).toNat

/-- The listing that a request leads to, unless it cannot be read or names no process. -/
def mapsListCall (arg : Nat) (mem : Nat → UInt8) : Option MapsList :=
  if k.fromUserLeft ≠ 0 then none
  else
    let buf := cells mem arg 24
    let pid := Int32.ofNat (wordAt buf 0 8)
    let nameLen := wordAt buf 8 8
    let bufSize := wordAt buf 16 8
    (k.findGetPid pid).map (fun task =>
      getProcMapsList task k.toUserLeft nameLen (wrap (arg + 8)) (wrap (bufSize + 2 ^ 64 - 8))
        mem)

/-- `IOCTL_GET_PROCESS_MAPS_LIST`. The count is copied last, to where the request stood. -/
def rwmemMapsList (arg : Nat) (mem : Nat → UInt8) : IoctlResult :=
  match mapsListCall k arg mem with
  | none => .returned (-EINVAL) mem
  | some list =>
      if list.run.oops then .oops
      else
        let count := toUint64 list.ret
        let (remaining, mem) := xCopyToUser (k.toUserLeft list.run.copies) list.run.mem arg
          (leBytes 8 count)
        if remaining ≠ 0 then .returned (-EFAULT) mem
        else .returned (if list.run.havePass then 1 else 0) mem

/-- `IOCTL_CHECK_PROCESS_ADDR_PHY`. -/
def rwmemCheckPhy (arg : Nat) (mem : Nat → UInt8) : IoctlResult :=
  if k.fromUserLeft ≠ 0 then .returned (-EFAULT) mem
  else
    let param := cells mem arg 24
    let pid := Int32.ofNat (wordAt param 0 4)
    let virtAddrStart := wordAt param 8 8
    let virtAddrEnd := wordAt param 16 8
    if (virtAddrStart ||| virtAddrEnd) &&& (k.geometry.pageSize - 1) ≠ 0 then
      .returned (-EINVAL) mem
    else if virtAddrStart ≥ virtAddrEnd then .returned (-EINVAL) mem
    else
      match k.findGetPid pid with
      | none => .returned (-EINVAL) mem
      | some none => .returned (-EINVAL) mem
      | some (some task) =>
          let pages := (virtAddrEnd - virtAddrStart) / k.geometry.pageSize
          let bufLen := min ((pages + 7) / 8) maxMallocSize
          if k.noBuffer then .returned (-ENOMEM) mem
          else
            let run := checkPhyLoop k.geometry (isResident task k.ptes) k.toUserLeft bufLen
              virtAddrEnd virtAddrStart ⟨true, 0, 0, arg, fun _ => 0, mem⟩
            if !run.ok then .returned (-EFAULT) run.mem
            else if run.i = 0 then .returned pages run.mem
            else
              let (remaining, mem) := xCopyToUser (k.toUserLeft run.copies) run.mem run.arg
                (cells run.retBuf 0 ((run.i + 7) / 8))
              if remaining ≠ 0 then .returned (-EFAULT) mem
              else .returned pages mem

/-- A kernel in which every process id names this task, and nothing fails. -/
def quietIoctl (g : PageGeometry) (ptes : P → PteBits) (task : Option (TaskStruct P))
    : IoctlKernel P where
  geometry := g
  findGetPid _ := some task
  ptes := ptes
  fromUserLeft := 0
  toUserLeft _ := 0
  noBuffer := false
  breakpoints _ _ mem := .returned (-EINVAL) mem

/-- What a command does once its code is recognised. -/
def Command.handle : Command → Nat → (Nat → UInt8) → IoctlResult
  | .getProcessMapsCount => rwmemMapsCount k
  | .getProcessMapsList => rwmemMapsList k
  | .checkProcessAddrPhy => rwmemCheckPhy k
  | .addBp => k.breakpoints .addBp
  | .getNumBrps => k.breakpoints .getNumBrps
  | .getNumWrps => k.breakpoints .getNumWrps

/-- The cases of the switch. -/
def commandOf (cmd : UInt32) : Option Command :=
  [.getProcessMapsCount, .getProcessMapsList, .checkProcessAddrPhy, .addBp, .getNumBrps,
    .getNumWrps].find? (fun command : Command => command.code = cmd)

def rwmemIoctl (cmd : UInt32) (arg : Nat) (mem : Nat → UInt8) : IoctlResult :=
  match commandOf cmd with
  | some command => command.handle k arg mem
  | none => .returned (-EINVAL) mem

/-- A `long` cut to an `int`. -/
def toInt (n : Int) : Int := n.bmod (2 ^ 32)

/-- `ioctl` of the C library: `-1` for an error, else the result as an `int`. -/
def libcIoctl (ret : Int) : Int := if -4095 ≤ ret ∧ ret < 0 then -1 else toInt ret

/-- Every code is recognised as its command: the codes differ. -/
theorem commandOf_code (command : Command) : commandOf command.code = some command := by
  cases command <;> decide

/-- A count of mappings is an `int`. -/
theorem getProcMapCount_lt (task : Option (TaskStruct P)) : getProcMapCount task < 2 ^ 31 := by
  cases task with
  | none => exact Nat.two_pow_pos 31
  | some task =>
      cases space : task.mm with
      | none =>
          simp only [getProcMapCount, space]
          exact Nat.two_pow_pos 31
      | some mm =>
          simp only [getProcMapCount, space]
          exact mm.length_lt

/-- An `int` that is not negative survives its conversions. -/
theorem toUint64_natCast {n : Nat} (small : n < 2 ^ 31) : toUint64 n = n := by
  rw [toUint64]
  omega

theorem libcIoctl_natCast {n : Nat} (small : n < 2 ^ 31) : libcIoctl n = n := by
  rw [libcIoctl, if_neg (by omega), toInt]
  exact Int.bmod_eq_of_le (by omega) (by omega)

/-- What the C library answers is an `int`. -/
theorem libcIoctl_bounds (ret : Int) : -2 ^ 31 ≤ libcIoctl ret ∧ libcIoctl ret < 2 ^ 31 := by
  rw [libcIoctl]
  split
  · decide
  · have least := Int.le_bmod (x := ret) (show 0 < 2 ^ 32 by decide)
    have greatest := Int.bmod_lt (x := ret) (show 0 < 2 ^ 32 by decide)
    rw [toInt]
    omega

end RwMem.Driver
