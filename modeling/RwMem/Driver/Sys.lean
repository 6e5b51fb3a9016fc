import RwMem.Driver.AddressSpace
import RwMem.Driver.PhyMem
import RwMem.Driver.ProcMaps

/-! The `read` and `write` entry points of the driver: the 17-byte request header and the
page-by-page transfer loops.
-/

namespace RwMem.Driver

open Memory

-----------------------------------------------------------------------------------------
-- Requests
-----------------------------------------------------------------------------------------

/-- What the 17 bytes at the start of a request say. -/
structure Header where
  pid : Int32
  addr : Nat
  force : Bool
deriving DecidableEq

/-- `(pid_t)` keeps the low 32 bits of the first word. -/
def decodeHeader (data : List UInt8) : Header where
  pid := Int32.ofNat (leValue (data.take 8))
  addr := leValue ((data.drop 8).take 8)
  force := data[16]? == some 1

/-- A call of `read` or `write`. Linux refuses counts that are negative as `ssize_t` before
the driver is called.
-/
structure Request where
  buf : Nat → UInt8
  size : Nat
  size_lt : size < 2 ^ 63

def Request.header (req : Request) : Header := decodeHeader (cells req.buf 0 17)

/-- The conversion of a `size_t` to the `ssize_t` that is returned. -/
def toSsize (n : Nat) : Int := if n < 2 ^ 63 then n else n - 2 ^ 64

theorem toSsize_of_lt {n : Nat} (small : n < 2 ^ 63) : toSsize n = n := if_pos small

/-- A target: its mappings, if it still has an address space, and its page walk. -/
structure Proc (P : Type) where
  mm : Option (List Vma)
  getProcPhyAddr : Nat → Nat × Option P

/-- The rest of the kernel during one call. `headerLeft` is what the copy of the header
leaves, and `access n` tells what fails in the `n`-th physical access of the call.
-/
structure Kernel (P : Type) where
  geometry : PageGeometry
  findGetPid : Int32 → Option (Proc P)
  phyTotalMemorySize : Nat
  headerLeft : Nat
  access : Nat → Access

/-- The target whose walk looks the page up in its address space. -/
def AddressSpace.proc (g : PageGeometry) (space : AddressSpace) : Proc Nat :=
  ⟨none, space.walk g⟩

/-- A forced request for 5000 bytes of process 42, at 0x1000. -/
def forcedRequest : Request where
  buf i := if i = 0 then 42 else if i = 9 then 0x10 else if i = 16 then 1 else 0
  size := 5000
  size_lt := by decide

/-- A kernel with one target, in which nothing fails. -/
def quietKernel {P : Type} (g : PageGeometry) (proc : Proc P) : Kernel P where
  geometry := g
  findGetPid _ := some proc
  phyTotalMemorySize := 2 ^ 64
  headerLeft := 0
  access _ := Access.success

-----------------------------------------------------------------------------------------
-- Page-table entries
-----------------------------------------------------------------------------------------

variable {P : Type}

def isPteCanRead (ptes : P → PteBits) : Option P → Bool
  | none => false
  | some pte => (ptes pte).canRead

def isPteCanWrite (ptes : P → PteBits) : Option P → Bool
  | none => false
  | some pte => (ptes pte).canWrite

/-- The read status of an entry cannot be changed, only its presence is reported. -/
def changePteReadStatus (pte : Option P) (_canRead : Bool) : Bool := pte.isSome

/-- `pte_mkwrite` or `pte_wrprotect` on the entry; fails without an entry. -/
def changePteWriteStatus [DecidableEq P] (ptes : P → PteBits) (pte : Option P)
    (canWrite : Bool)
    : Bool × (P → PteBits) :=
  match pte with
  | none => (false, ptes)
  | some pte => (true, Function.update ptes pte { ptes pte with canWrite := canWrite })

/-- `pfn_sz`, the part of the next physical page that is still wanted. -/
def pfnSize (g : PageGeometry) (phyAddr left : Nat) : Nat :=
  sizeInsidePage g phyAddr (if left > g.pageSize then g.pageSize else left)

theorem pfnSize_eq (g : PageGeometry) (phyAddr left : Nat)
    : pfnSize g phyAddr left = min (g.pageSize - phyAddr % g.pageSize) left := by
  rw [pfnSize, sizeInsidePage_eq]
  split <;> omega

theorem pfnSize_pos (g : PageGeometry) (phyAddr : Nat) {left : Nat} (more : 0 < left)
    : 0 < pfnSize g phyAddr left := by
  have inside := Nat.mod_lt phyAddr g.pageSize_pos
  rw [pfnSize_eq]
  omega

-----------------------------------------------------------------------------------------
-- `rwmem_read`
-----------------------------------------------------------------------------------------

variable (k : Kernel P)

/-- The loop of `rwmem_read`, with `n` physical accesses behind it. The value returned by
the copy helper is not looked at.
-/
def rwmemReadLoop (proc : Proc P) (ptes : P → PteBits) (phys : Nat → UInt8)
    (procVirtAddr size : Nat) (isForceRead : Bool) (n readSize : Nat) (buf : Nat → UInt8)
    : RamCopy :=
  if _more : readSize < size then
    let (phyAddr, pte) := proc.getProcPhyAddr (wrap (procVirtAddr + readSize))
    if phyAddr = 0 then
      ⟨readSize, buf, []⟩
    else
      let oldPteCanRead := isPteCanRead ptes pte
      if (if isForceRead then !oldPteCanRead && !changePteReadStatus pte true
          else !oldPteCanRead) then
        ⟨readSize, buf, []⟩
      else
        let pfnSz := pfnSize k.geometry phyAddr (size - readSize)
        let copy := readRamPhysicalAddr k.geometry k.phyTotalMemorySize (k.access n) phyAddr
          readSize false pfnSz phys buf
        let rest := rwmemReadLoop proc ptes phys procVirtAddr size isForceRead (n + 1)
          (readSize + pfnSz) copy.mem
        { rest with chunks := copy.chunks ++ rest.chunks }
  else
    ⟨readSize, buf, []⟩
termination_by size - readSize
decreasing_by
  have : 0 < pfnSz := pfnSize_pos k.geometry phyAddr (by omega)
  omega

structure ReadResult where
  ret : Int
  buf : Nat → UInt8
  chunks : List Chunk

def rwmemRead (ptes : P → PteBits) (phys : Nat → UInt8) (req : Request) : ReadResult :=
  if k.headerLeft = 0 then
    let header := req.header
    match k.findGetPid header.pid with
    | none => ⟨-EINVAL, req.buf, []⟩
    | some proc =>
        if header.force = false && !checkProcMapCanRead proc.mm header.addr req.size then
          ⟨-EFAULT, req.buf, []⟩
        else
          let run := rwmemReadLoop k proc ptes phys header.addr req.size header.force 0 0
            req.buf
          ⟨toSsize run.done, run.mem, run.chunks⟩
  else
    ⟨-EFAULT, req.buf, []⟩

-----------------------------------------------------------------------------------------
-- `rwmem_write`
-----------------------------------------------------------------------------------------

structure WriteRun (P : Type) where
  done : Nat
  phys : Nat → UInt8
  ptes : P → PteBits
  chunks : List Chunk

/-- The loop of `rwmem_write`. A forced write opens a protected page before its chunk and
closes it afterwards; the value returned by the copy helper is not looked at.
-/
def rwmemWriteLoop [DecidableEq P] (proc : Proc P) (buf : Nat → UInt8)
    (procVirtAddr size : Nat) (isForceWrite : Bool) (n writeSize : Nat)
    (ptes : P → PteBits) (phys : Nat → UInt8)
    : WriteRun P :=
  if _more : writeSize < size then
    let (phyAddr, pte) := proc.getProcPhyAddr (wrap (procVirtAddr + writeSize))
    if phyAddr = 0 then
      ⟨writeSize, phys, ptes, []⟩
    else
      let oldPteCanWrite := isPteCanWrite ptes pte
      let opened :=
        if isForceWrite && !oldPteCanWrite then changePteWriteStatus ptes pte true
        else (oldPteCanWrite, ptes)
      if !opened.1 then
        ⟨writeSize, phys, opened.2, []⟩
      else
        let pfnSz := pfnSize k.geometry phyAddr (size - writeSize)
        let copy := writeRamPhysicalAddr k.geometry k.phyTotalMemorySize (k.access n) phyAddr
          (17 + writeSize) false pfnSz buf phys
        let closed :=
          if isForceWrite && !oldPteCanWrite then
            (changePteWriteStatus opened.2 pte false).2
          else opened.2
        let rest := rwmemWriteLoop proc buf procVirtAddr size isForceWrite (n + 1)
          (writeSize + pfnSz) closed copy.mem
        { rest with chunks := copy.chunks ++ rest.chunks }
  else
    ⟨writeSize, phys, ptes, []⟩
termination_by size - writeSize
decreasing_by
  have : 0 < pfnSz := pfnSize_pos k.geometry phyAddr (by omega)
  omega

structure WriteResult (P : Type) where
  ret : Int
  phys : Nat → UInt8
  ptes : P → PteBits
  chunks : List Chunk

def rwmemWrite [DecidableEq P] (ptes : P → PteBits) (phys : Nat → UInt8) (req : Request)
    : WriteResult P :=
  if k.headerLeft = 0 then
    let header := req.header
    match k.findGetPid header.pid with
    | none => ⟨-EINVAL, phys, ptes, []⟩
    | some proc =>
        if header.force = false && !checkProcMapCanWrite proc.mm header.addr req.size then
          ⟨-EFAULT, phys, ptes, []⟩
        else
          let run := rwmemWriteLoop k proc req.buf header.addr req.size header.force 0 0 ptes
            phys
          ⟨toSsize run.done, run.phys, run.ptes, run.chunks⟩
  else
    ⟨-EFAULT, phys, ptes, []⟩

end RwMem.Driver
