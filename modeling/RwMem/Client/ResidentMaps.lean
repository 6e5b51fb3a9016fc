import RwMem.Client.Residency
import RwMem.Memory.BitRuns

/-! With `phy_only` the client library lists the maximal resident runs of each mapping. -/

namespace RwMem.Client

open Memory RwMem.Driver

variable {P : Type}

/-- No `ioctl` of a kernel fails by itself. -/
structure NoFailures (k : IoctlKernel P) : Prop where
  read : k.fromUserLeft = 0
  copied : ∀ n, k.toUserLeft n = 0
  allocated : k.noBuffer = false

/-- The `ioctl`s of a client for the list and for pages are made in this kernel. -/
structure DescribedBy (sys : Ioctls) (k : IoctlKernel P) : Prop where
  lists : sys.ioctl 1 .getProcessMapsList = rwmemMapsList k
  checks : ∀ n, sys.ioctl n .checkProcessAddrPhy = rwmemCheckPhy k

/-- Every `ioctl` of a client is made in this kernel. -/
structure ServedBy (sys : Ioctls) (k : IoctlKernel P) : Prop extends DescribedBy sys k where
  counts : sys.ioctl 0 .getProcessMapsCount = rwmemMapsCount k

/-- The number of pages of a mapping. -/
def pagesOf (vma : VmArea) : Nat := (vma.vmEnd - vma.vmStart) / 4096

/-- A mapping of whole pages, whose number is an `int`. -/
structure WholePages (vma : VmArea) : Prop where
  startAligned : 4096 ∣ vma.vmStart
  endAligned : 4096 ∣ vma.vmEnd
  nonempty : vma.vmStart < vma.vmEnd
  small : pagesOf vma < 2 ^ 31

/-- The residency of the pages of a mapping, by their index. -/
def pageBit (resident : Nat → Bool) (vma : VmArea) (j : Nat) : Bool :=
  resident (vma.vmStart + j * 4096)

/-- The address ranges of the maximal runs of resident pages of a mapping. -/
def residentRuns (resident : Nat → Bool) (vma : VmArea) : List (Nat × Nat) :=
  (runs (pageBit resident vma) (pagesOf vma)).map
    (fun r => (vma.vmStart + r.1 * 4096, vma.vmStart + r.2 * 4096))

/-- The part of an entry that a run of its pages is. -/
def runEntry (entry : MapsEntry) (r : Nat × Nat) : MapsEntry :=
  { entry with start := entry.start + r.1 * 0x1000, end_ := entry.start + r.2 * 0x1000 }

/-- What the loop remembers of the run that is open. -/
def Remembers (entry : MapsEntry) (isLastPhy : Bool) (beginPhy : Nat) : Option Nat → Prop
  | none => isLastPhy = false
  | some c => isLastPhy = true ∧ beginPhy = entry.start + c * 0x1000

/-- The loop over the pages of an entry scans for runs. Induction on the pages left. -/
theorem phyEntries_runs {entry : MapsEntry} (bit : Nat → Bool) {i m : Nat} {start : Option Nat}
    {isLastPhy : Bool} {beginPhy : Nat} (remembers : Remembers entry isLastPhy beginPhy start)
    (finish : entry.end_ = entry.start + (i + m) * 0x1000)
    : phyEntries entry i isLastPhy beginPhy ((List.range' i m).map bit)
      = (runsFrom bit i start m).map (runEntry entry) := by
  induction m generalizing i start isLastPhy beginPhy with
  | zero =>
      rw [Nat.add_zero] at finish
      cases start with
      | none =>
          have closed : isLastPhy = false := remembers
          subst closed
          rfl
      | some c =>
          obtain ⟨isOpen, since⟩ := remembers
          subst isOpen since
          simp [phyEntries, runsFrom, runEntry, finish]
  | succ m ih =>
      have later : entry.end_ = entry.start + (i + 1 + m) * 0x1000 := by
        rw [finish]
        omega
      rw [List.range'_succ, List.map_cons, phyEntries, runsFrom]
      cases start with
      | none =>
          have closed : isLastPhy = false := remembers
          subst closed
          split
          · have opened : Remembers entry true (entry.start + i * 0x1000) (some i) := ⟨rfl, rfl⟩
            exact ih opened later
          · have none : Remembers entry false beginPhy none := rfl
            exact ih none later
      | some c =>
          obtain ⟨isOpen, since⟩ := remembers
          subst isOpen since
          split
          · have opened : Remembers entry true (entry.start + c * 0x1000) (some c) := ⟨rfl, rfl⟩
            exact ih opened later
          · have none : Remembers entry false (entry.start + c * 0x1000) none := rfl
            have rest := ih none later
            simp only [if_true, rest, Option.toList_some, List.map_cons, List.map_nil,
              List.cons_append, List.nil_append]
            rfl

variable {k : IoctlKernel P} {task : TaskStruct P} {mm : MmStruct} {sys : Ioctls} {pid : Int32}
  {count : Nat} {nameOf : VmArea → List UInt8}

theorem WholePages.end_eq {vma : VmArea} (whole : WholePages vma)
    : vma.vmEnd = vma.vmStart + pagesOf vma * 4096 := by
  have start := whole.startAligned
  have finish := whole.endAligned
  have nonempty := whole.nonempty
  rw [pagesOf]
  omega

/-- A mapping of whole pages is a range that the driver accepts. -/
theorem WholePages.pageRange {vma : VmArea} (whole : WholePages vma) {g : PageGeometry}
    (pages4K : g.pageSize = 4096)
    : PageRange g vma.vmStart vma.vmEnd (pagesOf vma) := by
  have finish := whole.end_eq
  have nonempty := whole.nonempty
  refine ⟨?_, ?_, ?_, vma.end_lt⟩
  · rw [pages4K]
    exact whole.startAligned
  · rw [pages4K]
    exact finish
  · by_contra none
    rw [Nat.eq_zero_of_not_pos none] at finish
    omega

/-- The entries of a mapping with this name. -/
def runEntries (resident : Nat → Bool) (vma : VmArea) (name : List UInt8) : List MapsEntry :=
  (residentRuns resident vma).map
    (fun r => { mapsEntry vma name with start := r.1, end_ := r.2 })

/-- The decoding loop asks for the pages of every entry. Induction on the entries. -/
theorem readEntries_phyOnly (pages4K : k.geometry.pageSize = 4096)
    (checks : ∀ n, sys.ioctl n .checkProcessAddrPhy = rwmemCheckPhy k) (quiet : NoFailures k)
    (found : k.findGetPid pid = some (some task)) (n : Nat) {vmas : List VmArea}
    (carried : ∀ vma ∈ vmas, Terminated (nameOf vma)) (whole : ∀ vma ∈ vmas, WholePages vma)
    (rest : List UInt8)
    : readEntries sys pid true vmas.length n
        (vmas.flatMap (fun vma => entryBytes 512 vma (nameOf vma) ++ List.replicate (532 - 531) 0)
          ++ rest)
      = .ok (vmas.flatMap (fun vma =>
          runEntries (isResident task k.ptes) vma (fromUtf8Lossy (nameOf vma)))) := by
  induction vmas generalizing n with
  | nil => rfl
  | cons vma vmas ih =>
      have later := ih (n + 1) (fun v member => carried v (List.mem_cons_of_mem _ member))
        (fun v member => whole v (List.mem_cons_of_mem _ member))
      have here := whole vma List.mem_cons_self
      have bits := isMemPhy_eq n pages4K (checks n) (here.pageRange pages4K) here.small quiet.read
        quiet.copied quiet.allocated found
      have closed : Remembers (mapsEntry vma (fromUtf8Lossy (nameOf vma))) false 0 none := rfl
      have entries := phyEntries_runs (pageBit (isResident task k.ptes) vma) (i := 0)
        (m := pagesOf vma) closed (by rw [Nat.zero_add]; exact here.end_eq)
      rw [← List.range_eq_range'] at entries
      rw [List.length_cons, readEntries, List.flatMap_cons, List.append_assoc,
        readEntry_append (carried vma List.mem_cons_self)]
      simp only [Outcome.bind, if_true, List.flatMap_cons]
      have asked : isMemPhy sys n pid (mapsEntry vma (fromUtf8Lossy (nameOf vma))).start
          (mapsEntry vma (fromUtf8Lossy (nameOf vma))).end_
          = .ok ((List.range (pagesOf vma)).map (pageBit (isResident task k.ptes) vma)) := bits
      simp only [asked, later, entries]
      rw [runEntries, residentRuns, List.map_map]
      rfl

/-- With `phy_only`, and room for all mappings, the client library returns the resident runs of
each mapping in order.
-/
theorem getMemMap_phyOnly (pages4K : k.geometry.pageSize = 4096) (described : DescribedBy sys k)
    (quiet : NoFailures k) (counted : Counted sys pid count) (room : mm.mmap.length ≤ count + 50)
    (found : k.findGetPid pid = some (some task))
    (space : task.mm = some mm) (named : ∀ vma ∈ mm.mmap, pathName mm vma = some (nameOf vma))
    (whole : ∀ vma ∈ mm.mmap, WholePages vma)
    : getMemMap sys pid true
      = .ok (mm.mmap.flatMap (fun vma =>
          runEntries (isResident task k.ptes) vma (fromUtf8Lossy (nameOf vma)))) := by
  have int := mm.length_lt
  obtain ⟨rest, called⟩ := call_mapsRequest counted.lt described.lists quiet.read quiet.copied found
    space named
  have all : ¬count + 50 < mm.mmap.length := by omega
  have bounded : ¬2 ^ 63 ≤ mm.mmap.length * mapsEntrySize := by
    rw [mapsEntrySize]
    omega
  rw [if_neg all] at called
  rw [getMemMap_of_counted true counted, called]
  simp only [Outcome.bind, ne_eq, not_true, if_false, decodeMaps, mapsReply, List.append_assoc,
    Nat.min_eq_right room, List.take_of_length_le room]
  rw [readU64_append (by omega)]
  simp only [if_neg bounded]
  exact readEntries_phyOnly pages4K described.checks quiet found 2
    (fun vma member => terminated_pathName (named vma member)) whole rest

/-- A driver that is asked for the count gives the number of mappings. -/
theorem ServedBy.counted (served : ServedBy sys k) (found : k.findGetPid pid = some (some task))
    (space : task.mm = some mm)
    : Counted sys pid mm.mmap.length := by
  have counted := counted_of_served served.counts found
  rw [getProcMapCount, space] at counted
  exact counted

end RwMem.Client
