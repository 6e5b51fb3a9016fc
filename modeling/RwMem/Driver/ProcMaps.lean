import RwMem.Driver.PhyMem

/-! The mappings of a target: the permission check of the transfers that are not forced, and the
list that `get_proc_maps_list` writes to a user buffer.
-/

namespace RwMem.Driver

open Memory

/-- A mapping of the target, with the `vm_flags` that the check tests. -/
structure Vma where
  vmStart : Nat
  vmEnd : Nat
  vmRead : Bool
  vmWrite : Bool

/-- Linux returns the first mapping that ends above the address. -/
def findVma (mmap : List Vma) (addr : Nat) : Option Vma :=
  mmap.find? (fun vma => addr < vma.vmEnd)

/-- The two checks differ in the flag only; `mm` is missing when the task or its address
space is gone.
-/
def checkProcMap (flag : Vma → Bool) (mm : Option (List Vma)) (procVirtAddr size : Nat)
    : Bool :=
  match mm with
  | none => false
  | some mmap =>
      match findVma mmap procVirtAddr with
      | none => false
      | some vma =>
          if flag vma then
            let readEnd := wrap (procVirtAddr + size)
            decide (readEnd ≤ vma.vmEnd)
          else
            false

def checkProcMapCanRead : Option (List Vma) → Nat → Nat → Bool := checkProcMap Vma.vmRead

def checkProcMapCanWrite : Option (List Vma) → Nat → Nat → Bool := checkProcMap Vma.vmWrite

-----------------------------------------------------------------------------------------
-- The list of the mappings
-----------------------------------------------------------------------------------------

/-- A mapping with what the list says of it. `vmFile` is the text that Linux has for the path
of the mapped file, whether or not it fits a path buffer.
-/
structure VmArea extends Vma where
  vmExec : Bool
  vmMayShare : Bool
  vmFile : Option (List UInt8)
  start_lt : vmStart < 2 ^ 64
  end_lt : vmEnd < 2 ^ 64

/-- `struct mm_struct`. Its number of mappings is an `int`. -/
structure MmStruct where
  mmap : List VmArea
  length_lt : mmap.length < 2 ^ 31
  vdso : Nat
  startBrk : Nat
  brk : Nat
  startStack : Nat

/-- A task. A kernel thread and a zombie have no address space. -/
structure TaskStruct (P : Type) where
  mm : Option MmStruct
  getTaskProcPhyAddr : Nat → Nat × Option P

variable {P : Type}

def getProcMapCount (task : Option (TaskStruct P)) : Nat :=
  match task with
  | none => 0
  | some task =>
      match task.mm with
      | none => 0
      | some mm => mm.mmap.length

/-- `MY_PATH_MAX_LEN`. -/
def myPathMaxLen : Nat := 512

/-- `d_path` into a buffer of this many bytes: the text, or an error pointer if the text and
its terminator do not fit.
-/
def dPath (text : List UInt8) (size : Nat) : Option (List UInt8) :=
  if text.length + 1 ≤ size then some text else none

/-- The characters of a string literal. -/
def ascii (s : String) : List UInt8 := s.toList.map (fun c => UInt8.ofNat c.toNat)

def isStack (mm : MmStruct) (vma : VmArea) : Bool :=
  vma.vmStart ≤ mm.startStack && mm.startStack ≤ vma.vmEnd

/-- The name of a mapping without a file. -/
def anonName (mm : MmStruct) (vma : VmArea) : List UInt8 :=
  if vma.vmStart = mm.vdso then ascii "[vdso]"
  else if vma.vmStart ≤ mm.brk && mm.startBrk ≤ vma.vmEnd then ascii "[heap]"
  else if isStack mm vma then ascii "[stack]"
  else []

/-- The string that ends up in `new_path`. An error pointer is greater than zero too, so it is
copied from: `none` is the fault of this copy.
-/
def pathName (mm : MmStruct) (vma : VmArea) : Option (List UInt8) :=
  match vma.vmFile with
  | some text =>
      (dPath text myPathMaxLen).map (fun path =>
        (path.takeWhile (fun b => b ≠ 0)).take (myPathMaxLen - 1))
  | none => some (anonName mm vma)

/-- `new_path`, which is zeroed first. -/
def newPath (name : List UInt8) : List UInt8 :=
  name ++ List.replicate (myPathMaxLen - name.length) 0

def flagByte (flag : Bool) : UInt8 := if flag then 1 else 0

def flagBytes (vma : VmArea) : List UInt8 :=
  [flagByte vma.vmRead, flagByte vma.vmWrite, flagByte vma.vmExec, flagByte vma.vmMayShare]

/-- How many bytes of `new_path` are copied. -/
def nameBytes (maxPathLength : Nat) : Nat :=
  if maxPathLength > myPathMaxLen then myPathMaxLen else maxPathLength - 1

/-- The four copies of an entry, each with what it adds to the position. -/
def fields (vma : VmArea) (name : List UInt8) (maxPathLength : Nat) : List (List UInt8 × Nat) :=
  [(leBytes 8 vma.vmStart, 8), (leBytes 8 vma.vmEnd, 8), (flagBytes vma, 4),
    ((newPath name).take (nameBytes maxPathLength), maxPathLength)]

/-- `x_copy_to_user` that leaves the last `left` bytes: what it returns, and the memory. -/
def xCopyToUser (left : Nat) (mem : Nat → UInt8) (dst : Nat) (src : List UInt8)
    : Nat × (Nat → UInt8) :=
  let remaining := min left src.length
  (remaining, store mem dst (src.take (src.length - remaining)))

theorem xCopyToUser_zero (mem : Nat → UInt8) (dst : Nat) (src : List UInt8)
    : xCopyToUser 0 mem dst src = (0, store mem dst src) := by
  simp [xCopyToUser]

theorem xCopyToUser_eq_zero {left dst : Nat} {mem : Nat → UInt8} {src : List UInt8}
    : (xCopyToUser left mem dst src).1 = 0 ↔ left = 0 ∨ src = [] := by
  rw [xCopyToUser, ← List.length_eq_zero_iff]
  simp only
  omega

/-- A copy that leaves nothing is one that does not fail. -/
theorem xCopyToUser_of_zero {left dst : Nat} {mem : Nat → UInt8} {src : List UInt8}
    (copied : ¬(xCopyToUser left mem dst src).1 ≠ 0)
    : xCopyToUser left mem dst src = xCopyToUser 0 mem dst src := by
  have nothing : min left src.length = 0 := not_not.mp copied
  simp only [xCopyToUser, nothing, Nat.zero_min]

/-- Some copies that were made: whether all succeeded, how many there were, the position
behind them, and the memory.
-/
structure Copies where
  ok : Bool
  count : Nat
  pos : Nat
  mem : Nat → UInt8

/-- Copies one after the other, up to the first that leaves bytes. `left n` is what the `n`-th
copy of the call leaves.
-/
def copyFields (left : Nat → Nat) (n copyPos : Nat) (mem : Nat → UInt8)
    : List (List UInt8 × Nat) → Copies
  | [] => ⟨true, n, copyPos, mem⟩
  | (src, advance) :: rest =>
      let (remaining, mem) := xCopyToUser (left n) mem copyPos src
      if remaining ≠ 0 then ⟨false, n + 1, copyPos, mem⟩
      else copyFields left (n + 1) (wrap (copyPos + advance)) mem rest

/-- How the listing of the mappings ended; `oops` if it copied from an error pointer. -/
structure MapsRun where
  success : Nat
  havePass : Bool
  oops : Bool
  copies : Nat
  mem : Nat → UInt8

/-- The loop of `get_proc_maps_list`. -/
def mapsLoop (mm : MmStruct) (left : Nat → Nat) (maxPathLength endPos : Nat)
    (success n copyPos : Nat) (mem : Nat → UInt8)
    : List VmArea → MapsRun
  | [] => ⟨success, false, false, n, mem⟩
  | vma :: rest =>
      if copyPos ≥ endPos then ⟨success, true, false, n, mem⟩
      else
        match pathName mm vma with
        | none => ⟨success, false, true, n, mem⟩
        | some name =>
            let entry := copyFields left n copyPos mem (fields vma name maxPathLength)
            if entry.ok then
              mapsLoop mm left maxPathLength endPos (success + 1) entry.count entry.pos
                entry.mem rest
            else
              ⟨success, true, false, entry.count, entry.mem⟩

/-- The returned count or error, and the rest of the run. -/
structure MapsList where
  ret : Int
  run : MapsRun

/-- `get_proc_maps_list` to a user buffer. -/
def getProcMapsList (task : Option (TaskStruct P)) (left : Nat → Nat)
    (maxPathLength lpBuf bufSize : Nat) (mem : Nat → UInt8)
    : MapsList :=
  let failed (code : Int) : MapsList := ⟨code, ⟨0, false, false, 0, mem⟩⟩
  if maxPathLength = 0 then failed (-1)
  else
    match task with
    | none => failed (-2)
    | some task =>
        match task.mm with
        | none => failed (-3)
        | some mm =>
            let run := mapsLoop mm left maxPathLength (wrap (lpBuf + bufSize)) 0 0 lpBuf mem
              mm.mmap
            ⟨run.success, run⟩

end RwMem.Driver
