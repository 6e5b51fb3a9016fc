import Mathlib.Data.Nat.Bitwise
import RwMem.Memory.Bytes

/-! Error codes, pages and `size_t` arithmetic, as all code of the driver uses them, and the copy
loops between a user buffer and physical memory, with every failure point that the source tests.
A user buffer is a memory indexed from the pointer that the call was given.
-/

namespace RwMem.Driver

open Memory

def EFAULT : Int := 14
def EINVAL : Int := 22

/-- `PAGE_SHIFT` of the kernel that the driver is built for. -/
structure PageGeometry where
  pageShift : Nat
  pageShift_le : pageShift ≤ 64

/-- `PAGE_SIZE`. -/
def PageGeometry.pageSize (g : PageGeometry) : Nat := 2 ^ g.pageShift

/-- Additions of `size_t` and of pointers wrap modulo `2 ^ 64`. -/
def wrap (n : Nat) : Nat := n % 2 ^ 64

/-- The part of `[start, start + size)` that lies in the page of `start`. -/
def sizeInsidePage (g : PageGeometry) (start size : Nat) : Nat :=
  let sz := g.pageSize - (start &&& (g.pageSize - 1))
  min sz size

section Pages

variable (g : PageGeometry)

theorem PageGeometry.pageSize_pos : 0 < g.pageSize := Nat.two_pow_pos _

/-- The page size divides the size of the address space. -/
theorem PageGeometry.pageSize_dvd : g.pageSize ∣ 2 ^ 64 :=
  Nat.pow_dvd_pow 2 g.pageShift_le

/-- Masking with `PAGE_SIZE - 1` takes the offset in the page. -/
theorem PageGeometry.and_mask (n : Nat) : n &&& (g.pageSize - 1) = n % g.pageSize :=
  Nat.and_two_pow_sub_one_eq_mod n g.pageShift

theorem sizeInsidePage_eq (start size : Nat)
    : sizeInsidePage g start size = min (g.pageSize - start % g.pageSize) size := by
  simp only [sizeInsidePage, g.and_mask]

/-- A nonempty range has a nonempty part in its first page. -/
theorem sizeInsidePage_pos (start : Nat) {size : Nat} (nonempty : 0 < size)
    : 0 < sizeInsidePage g start size := by
  have inside := Nat.mod_lt start g.pageSize_pos
  rw [sizeInsidePage_eq]
  omega

/-- Wrapping an address keeps its offset in the page. -/
theorem wrap_mod_pageSize (n : Nat) : wrap n % g.pageSize = n % g.pageSize :=
  Nat.mod_mod_of_dvd n g.pageSize_dvd

theorem wrap_of_lt {n : Nat} (h : n < 2 ^ 64) : wrap n = n := Nat.mod_eq_of_lt h

theorem wrap_lt (n : Nat) : wrap n < 2 ^ 64 := Nat.mod_lt n (by decide)

end Pages

-----------------------------------------------------------------------------------------
-- Copies
-----------------------------------------------------------------------------------------

/-- What fails during one call of a copy helper: the bounce buffer allocation, and for each
chunk the mapping of its physical address, the kernel probe, and a user copy that leaves
some bytes. `zeroTail` tells whether `x_copy_from_user` is the checked copy, which zeroes
the bytes it leaves, or the direct one, which keeps them.
-/
structure Access where
  noBounce : Bool
  noPtr : Nat → Bool
  probe : Nat → Bool
  remaining : Nat → Nat
  zeroTail : Bool

/-- A call in which nothing fails. -/
def Access.success : Access := ⟨false, fun _ => false, fun _ => false, fun _ => 0, true⟩

/-- The record of one loop iteration. Of the `size` bytes between the buffer at `lpBuf` and
physical memory at `phyAddr`, the copy really moved the first `moved`.
-/
structure Chunk where
  lpBuf : Nat
  phyAddr : Nat
  size : Nat
  moved : Nat
deriving DecidableEq, Repr

/-- The returned count, the memory that was copied into, and the chunks in order. The
chunks are a history that the code does not keep.
-/
structure RamCopy where
  done : Nat
  mem : Nat → UInt8
  chunks : List Chunk

variable (g : PageGeometry)

/-- `total` is `g_phy_total_memory_size`, which is computed once. -/
def checkPhysAddrValidRange (total addr count : Nat) : Bool :=
  wrap (addr + count) ≤ total

/-- The loop of `read_ram_physical_addr`, with `j` chunks behind it. -/
def readRamLoop (acc : Access) (phys : Nat → UInt8) (isKernelBuf : Bool)
    (j phyAddr lpBuf readSize realRead : Nat) (buf : Nat → UInt8)
    : RamCopy :=
  if _nonempty : 0 < readSize then
    let sz := sizeInsidePage g phyAddr readSize
    if acc.noPtr j || acc.probe j then
      ⟨realRead, buf, [⟨lpBuf, phyAddr, sz, 0⟩]⟩
    else
      let remaining := if isKernelBuf then 0 else min (acc.remaining j) sz
      let buf := blit buf lpBuf phys phyAddr (sz - remaining)
      let chunk : Chunk := ⟨lpBuf, phyAddr, sz, sz - remaining⟩
      if remaining ≠ 0 then
        ⟨realRead, buf, [chunk]⟩
      else
        let rest := readRamLoop acc phys isKernelBuf (j + 1) (wrap (phyAddr + sz))
          (lpBuf + sz) (readSize - sz) (realRead + sz) buf
        { rest with chunks := chunk :: rest.chunks }
  else
    ⟨realRead, buf, []⟩
termination_by readSize
decreasing_by
  have := sizeInsidePage_pos g phyAddr _nonempty
  omega

def readRamPhysicalAddr (total : Nat) (acc : Access) (phyAddr lpBuf : Nat)
    (isKernelBuf : Bool) (readSize : Nat) (phys buf : Nat → UInt8)
    : RamCopy :=
  if !checkPhysAddrValidRange total phyAddr readSize then
    ⟨0, buf, []⟩
  else if acc.noBounce then
    ⟨0, buf, []⟩
  else
    readRamLoop g acc phys isKernelBuf 0 phyAddr lpBuf readSize 0 buf

/-- A user copy to physical memory that leaves its last `copied` bytes. -/
def xCopyFromUser (acc : Access) (phys : Nat → UInt8) (phyAddr : Nat) (buf : Nat → UInt8)
    (lpBuf sz copied : Nat)
    : Nat → UInt8 :=
  let kept :=
    if acc.zeroTail then blit phys (phyAddr + (sz - copied)) (fun _ => 0) 0 copied else phys
  blit kept phyAddr buf lpBuf (sz - copied)

/-- The loop of `write_ram_physical_addr`. A user copy that stops part-way is counted for
the bytes that it stored.
-/
def writeRamLoop (acc : Access) (buf : Nat → UInt8) (isKernelBuf : Bool)
    (j phyAddr lpBuf writeSize realWrite : Nat) (phys : Nat → UInt8)
    : RamCopy :=
  if _nonempty : 0 < writeSize then
    let sz := sizeInsidePage g phyAddr writeSize
    if acc.noPtr j then
      ⟨realWrite, phys, [⟨lpBuf, phyAddr, sz, 0⟩]⟩
    else
      let copied := if isKernelBuf then 0 else min (acc.remaining j) sz
      let phys := xCopyFromUser acc phys phyAddr buf lpBuf sz copied
      let chunk : Chunk := ⟨lpBuf, phyAddr, sz, sz - copied⟩
      if copied ≠ 0 then
        ⟨realWrite + (sz - copied), phys, [chunk]⟩
      else
        let rest := writeRamLoop acc buf isKernelBuf (j + 1) (wrap (phyAddr + sz))
          (lpBuf + sz) (writeSize - sz) (realWrite + sz) phys
        { rest with chunks := chunk :: rest.chunks }
  else
    ⟨realWrite, phys, []⟩
termination_by writeSize
decreasing_by
  have := sizeInsidePage_pos g phyAddr _nonempty
  omega

def writeRamPhysicalAddr (total : Nat) (acc : Access) (phyAddr lpBuf : Nat)
    (isKernelBuf : Bool) (writeSize : Nat) (buf phys : Nat → UInt8)
    : RamCopy :=
  if !checkPhysAddrValidRange total phyAddr writeSize then
    ⟨0, phys, []⟩
  else
    writeRamLoop g acc buf isKernelBuf 0 phyAddr lpBuf writeSize 0 phys

/-- The bytes that a read call moves when its range lies in one page. -/
def Access.readMoves (acc : Access) (total phyAddr size : Nat) : Nat :=
  if !checkPhysAddrValidRange total phyAddr size || acc.noBounce || acc.noPtr 0
      || acc.probe 0 then
    0
  else
    size - min (acc.remaining 0) size

/-- The bytes that a write call moves when its range lies in one page. -/
def Access.writeMoves (acc : Access) (total phyAddr size : Nat) : Nat :=
  if !checkPhysAddrValidRange total phyAddr size || acc.noPtr 0 then
    0
  else
    size - min (acc.remaining 0) size

/-- None of the failures that a read of one page can meet happens. -/
def Access.ReadOk (acc : Access) (total phyAddr size : Nat) : Prop :=
  checkPhysAddrValidRange total phyAddr size
  ∧ acc.noBounce = false
  ∧ acc.noPtr 0 = false
  ∧ acc.probe 0 = false
  ∧ acc.remaining 0 = 0

/-- None of the failures that a write of one page can meet happens. -/
def Access.WriteOk (acc : Access) (total phyAddr size : Nat) : Prop :=
  checkPhysAddrValidRange total phyAddr size
  ∧ acc.noPtr 0 = false
  ∧ acc.remaining 0 = 0

variable (acc : Access) (total : Nat) {phyAddr size : Nat}

theorem Access.readMoves_le : acc.readMoves total phyAddr size ≤ size := by
  unfold Access.readMoves
  split <;> omega

theorem Access.writeMoves_le : acc.writeMoves total phyAddr size ≤ size := by
  unfold Access.writeMoves
  split <;> omega

/-- A read moves its whole nonempty range exactly when nothing fails. -/
theorem Access.readMoves_eq_iff (nonempty : 0 < size)
    : acc.readMoves total phyAddr size = size ↔ acc.ReadOk total phyAddr size := by
  unfold Access.readMoves Access.ReadOk
  split
  · rename_i fails
    simp only [Bool.or_eq_true, Bool.not_eq_true'] at fails
    constructor
    · omega
    · intro ok
      obtain ⟨range, bounce, ptr, probe, -⟩ := ok
      simp [range, bounce, ptr, probe] at fails
  · rename_i passes
    simp only [Bool.or_eq_true, Bool.not_eq_true', not_or, Bool.not_eq_false,
      Bool.not_eq_true] at passes
    obtain ⟨⟨⟨range, bounce⟩, ptr⟩, probe⟩ := passes
    simp only [range, bounce, ptr, probe, true_and]
    omega

/-- A write moves its whole nonempty range exactly when nothing fails. -/
theorem Access.writeMoves_eq_iff (nonempty : 0 < size)
    : acc.writeMoves total phyAddr size = size ↔ acc.WriteOk total phyAddr size := by
  unfold Access.writeMoves Access.WriteOk
  split
  · rename_i fails
    simp only [Bool.or_eq_true, Bool.not_eq_true'] at fails
    constructor
    · omega
    · intro ok
      obtain ⟨range, ptr, -⟩ := ok
      simp [range, ptr] at fails
  · rename_i passes
    simp only [Bool.or_eq_true, Bool.not_eq_true', not_or, Bool.not_eq_false,
      Bool.not_eq_true] at passes
    obtain ⟨range, ptr⟩ := passes
    simp only [range, ptr, true_and]
    omega

/-- The read loop ends at once when nothing is left. -/
@[simp] theorem readRamLoop_zero (acc : Access) (phys buf : Nat → UInt8) (isKernelBuf : Bool)
    (j phyAddr lpBuf realRead : Nat)
    : readRamLoop g acc phys isKernelBuf j phyAddr lpBuf 0 realRead buf
      = ⟨realRead, buf, []⟩ := by
  rw [readRamLoop]
  rfl

/-- The write loop ends at once when nothing is left. -/
@[simp] theorem writeRamLoop_zero (acc : Access) (buf phys : Nat → UInt8)
    (isKernelBuf : Bool) (j phyAddr lpBuf realWrite : Nat)
    : writeRamLoop g acc buf isKernelBuf j phyAddr lpBuf 0 realWrite phys
      = ⟨realWrite, phys, []⟩ := by
  rw [writeRamLoop]
  rfl

/-- Without failures every range of a full physical memory is copied. -/
theorem Access.readOk_success : Access.success.ReadOk (2 ^ 64) phyAddr size :=
  ⟨decide_eq_true (Nat.le_of_lt (wrap_lt _)), rfl, rfl, rfl, rfl⟩

theorem Access.writeOk_success : Access.success.WriteOk (2 ^ 64) phyAddr size :=
  ⟨decide_eq_true (Nat.le_of_lt (wrap_lt _)), rfl, rfl⟩

/-- A range that lies in one page is one chunk. -/
theorem sizeInsidePage_of_inPage (inPage : size ≤ g.pageSize - phyAddr % g.pageSize)
    : sizeInsidePage g phyAddr size = size := by
  rw [sizeInsidePage_eq]
  exact Nat.min_eq_right inPage

/-- A read within one page moves a prefix of it to the buffer; its only chunks are copies
between this buffer range and this physical range.
-/
theorem readRamPhysicalAddr_inPage (lpBuf : Nat) (phys buf : Nat → UInt8) (nonempty : 0 < size)
    (inPage : size ≤ g.pageSize - phyAddr % g.pageSize)
    : let r := readRamPhysicalAddr g total acc phyAddr lpBuf false size phys buf
      let moved := acc.readMoves total phyAddr size
      r.mem = blit buf lpBuf phys phyAddr moved
      ∧ (∀ i, (∃ c ∈ r.chunks, c.lpBuf ≤ i ∧ i < c.lpBuf + c.moved)
          ↔ lpBuf ≤ i ∧ i < lpBuf + moved) := by
  intro r moved
  have whole := sizeInsidePage_of_inPage g inPage
  simp only [r, moved, readRamPhysicalAddr, Access.readMoves]
  cases range : checkPhysAddrValidRange total phyAddr size
  · simp
  cases bounce : acc.noBounce
  case true => simp
  rw [readRamLoop]
  cases ptr : acc.noPtr 0
  case true => simp [nonempty]
  cases probe : acc.probe 0
  case true => simp [nonempty]
  by_cases rest : min (acc.remaining 0) size = 0
  · simp [nonempty, whole, rest]
  · simp [nonempty, whole, rest]

/-- A user copy changes nothing outside its range. -/
theorem xCopyFromUser_outside (phys buf : Nat → UInt8) {phyAddr lpBuf sz copied a : Nat}
    (le : copied ≤ sz) (outside : a < phyAddr ∨ phyAddr + sz ≤ a)
    : xCopyFromUser acc phys phyAddr buf lpBuf sz copied a = phys a := by
  rw [xCopyFromUser, blit_outside (by omega)]
  split
  · exact blit_outside (by omega)
  · rfl

theorem xCopyFromUser_inside (phys buf : Nat → UInt8) {phyAddr lpBuf sz copied i : Nat}
    (inside : i < sz - copied)
    : xCopyFromUser acc phys phyAddr buf lpBuf sz copied (phyAddr + i) = buf (lpBuf + i) := by
  rw [xCopyFromUser, blit_inside (by omega) (by omega), Nat.add_sub_cancel_left]

/-- A write within one page moves a prefix of it to physical memory, and keeps everything
outside its range.
-/
theorem writeRamPhysicalAddr_inPage (lpBuf : Nat) (buf phys : Nat → UInt8) (nonempty : 0 < size)
    (inPage : size ≤ g.pageSize - phyAddr % g.pageSize)
    : let r := writeRamPhysicalAddr g total acc phyAddr lpBuf false size buf phys
      let moved := acc.writeMoves total phyAddr size
      (∀ i < moved, r.mem (phyAddr + i) = buf (lpBuf + i))
      ∧ (∀ a, (a < phyAddr ∨ phyAddr + size ≤ a) → r.mem a = phys a)
      ∧ (∀ i, (∃ c ∈ r.chunks, c.lpBuf ≤ i ∧ i < c.lpBuf + c.moved)
          ↔ lpBuf ≤ i ∧ i < lpBuf + moved) := by
  intro r moved
  have whole := sizeInsidePage_of_inPage g inPage
  have le := Nat.min_le_right (acc.remaining 0) size
  simp only [r, moved, writeRamPhysicalAddr, Access.writeMoves]
  cases range : checkPhysAddrValidRange total phyAddr size
  · simp
  rw [writeRamLoop]
  cases ptr : acc.noPtr 0
  case true => simp [nonempty]
  refine ⟨?_, ?_, ?_⟩
  · intro i inside
    simp only [Bool.not_true, Bool.or_self, Bool.false_eq_true, if_false] at inside
    by_cases rest : min (acc.remaining 0) size = 0
    · rw [rest] at inside
      simp [nonempty, whole, rest, xCopyFromUser_inside acc phys buf inside]
    · simp [nonempty, whole, rest, xCopyFromUser_inside acc phys buf inside]
  · intro a outside
    by_cases rest : min (acc.remaining 0) size = 0
    · simp [nonempty, whole, rest,
        xCopyFromUser_outside acc phys buf (Nat.zero_le size) outside]
    · simp [nonempty, whole, rest, xCopyFromUser_outside acc phys buf le outside]
  · intro i
    by_cases rest : min (acc.remaining 0) size = 0
    · simp [nonempty, whole, rest]
    · simp [nonempty, whole, rest]

end RwMem.Driver
