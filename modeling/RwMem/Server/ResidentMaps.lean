import RwMem.Client.ResidentMaps
import RwMem.Server.MapsFailure
import RwMem.Server.RequestCodes

/-! With `showPhy` the server lists the same maximal resident runs as the client library. -/

namespace RwMem.Server

open Memory RwMem.Driver RwMem.Client

variable {P : Type} {sys : Ioctls} {k : IoctlKernel P} {g : PageGeometry} {task : TaskStruct P}
  {mm : MmStruct} {nameOf : VmArea → List UInt8}

/-- One round of the decoding loop takes one entry. -/
theorem regionAt_entryBytes {vma : VmArea} {name : List UInt8} (carried : Terminated name)
    : regionAt (entryBytes 512 vma name ++ List.replicate (532 - 531) 0)
      = (vma.vmEnd, vmRegion vma name) := by
  have length : (newPath name).length = 512 := length_newPath (Nat.le_succ_of_le carried.short)
  have front (rest : List UInt8)
      : wordAt (leBytes 8 vma.vmStart ++ rest) 0 8 = vma.vmStart := by
    rw [wordAt, List.drop_zero, List.take_append_of_le_length (by simp),
      List.take_of_length_le (by simp), leValue_leBytes_word vma.start_lt]
  have second (rest : List UInt8)
      : wordAt (leBytes 8 vma.vmStart ++ (leBytes 8 vma.vmEnd ++ rest)) 8 8 = vma.vmEnd := by
    rw [wordAt, List.drop_left' (by simp), List.take_append_of_le_length (by simp),
      List.take_of_length_le (by simp), leValue_leBytes_word vma.end_lt]
  have behind (rest : List UInt8) (i : Nat)
      : (leBytes 8 vma.vmStart ++ (leBytes 8 vma.vmEnd ++ rest))[16 + i]? = rest[i]? := by
    rw [List.getElem?_append_right (by simp; omega), List.getElem?_append_right (by simp; omega)]
    congr 1
    simp
    omega
  have flags (i : Nat) (below : i < 4)
      : (flagBytes vma ++ newPath name)[i]? = (flagBytes vma)[i]? :=
    List.getElem?_append_left below
  have path : (leBytes 8 vma.vmStart ++ (leBytes 8 vma.vmEnd ++ (flagBytes vma ++ newPath name))).drop
      20 = newPath name := by
    rw [← List.append_assoc, ← List.append_assoc]
    exact List.drop_left' (by simp [flagBytes])
  have terminated : ((newPath name).take 511).takeWhile (fun b => b ≠ 0) = name := by
    rw [newPath, List.take_append, List.take_of_length_le carried.short, List.take_replicate,
      List.takeWhile_append_of_pos (nonzero_of_not_mem carried.noNul)]
    simp
  have flag (b : Bool) : (some (flagByte b) == some 1) = b := by
    cases b <;> rfl
  rw [entryBytes_append vma carried, List.append_assoc, List.append_assoc, regionAt]
  simp only [front, second, behind, flags _ (show 0 < 4 by decide), flags _ (show 1 < 4 by decide),
    flags _ (show 2 < 4 by decide), flags _ (show 3 < 4 by decide), path,
    List.take_of_length_le (Nat.le_of_eq length), terminated, vmRegion]
  simp only [flagBytes, List.getElem?_cons_zero, List.getElem?_cons_succ, flag]

/-- The part of a region that a run of its pages is. -/
def runRegion (region : RegionInfo) (r : Nat × Nat) : RegionInfo :=
  { region with
    baseaddress := region.baseaddress + r.1 * 4096
    size := (r.2 - r.1) * 4096 }

/-- What the loop remembers of the run that is open. -/
def Remembers (region : RegionInfo) (isPhyRegion : Bool) (base i : Nat) : Option Nat → Prop
  | none => isPhyRegion = false
  | some c => isPhyRegion = true ∧ base = region.baseaddress + c * 4096 ∧ c ≤ i

theorem size_runRegion {start i c : Nat} (before : c ≤ i) (small : start + i * 4096 < 2 ^ 64)
    : diff (start + i * 4096) (start + c * 4096) = (i - c) * 4096 := by
  rw [diff_of_le (by omega) small]
  omega

/-- The loop over the pages of a region scans for runs. Induction on the pages left. -/
theorem phyRegions_runs (pages4K : g.pageSize = 4096) (region : RegionInfo) {isphy : List UInt8}
    {vmaEnd : Nat} (bit : Nat → Bool) {i m : Nat} {start : Option Nat} {isPhyRegion : Bool}
    {base : Nat} (remembers : Remembers region isPhyRegion base i start)
    (finish : vmaEnd = region.baseaddress + (i + m) * 4096) (small : i + m < 2 ^ 31)
    (fits : vmaEnd < 2 ^ 64)
    (bits : ∀ j < i + m, ∃ b : UInt8, isphy[j / 8]? = some b ∧ b.toNat.testBit (j % 8) = bit j)
    : phyRegions g region isphy vmaEnd (region.baseaddress + i * 4096) i isPhyRegion base
      = .ok ((runsFrom bit i start m).map (runRegion region)) := by
  induction m generalizing i start isPhyRegion base with
  | zero =>
      have done : ¬region.baseaddress + i * 4096 < vmaEnd := by omega
      rw [phyRegions, dif_neg done]
      cases start with
      | none =>
          have closed : isPhyRegion = false := remembers
          subst closed
          rfl
      | some c =>
          obtain ⟨isOpen, since, before⟩ := remembers
          subst isOpen since
          rw [Nat.add_zero] at finish
          have size := size_runRegion before (finish ▸ fits)
          simp [runsFrom, runRegion, finish, size]
  | succ m ih =>
      have shift : i + (m + 1) = i + 1 + m := (Nat.add_right_comm i 1 m).symm
      rw [shift] at finish small bits
      have more : region.baseaddress + i * 4096 < vmaEnd := by omega
      have inInt : ¬2 ^ 31 ≤ i + 1 := by omega
      have advance : region.baseaddress + i * 4096 + g.pageSize
          = region.baseaddress + (i + 1) * 4096 := by
        rw [pages4K]
        omega
      have rest (start : Option Nat) (isPhyRegion : Bool) (base : Nat)
          (remembers : Remembers region isPhyRegion base (i + 1) start) :=
        ih remembers finish small bits
      obtain ⟨b, byte, one⟩ := bits i (by omega)
      rw [phyRegions, dif_pos more, if_neg inInt, advance, byte, runsFrom]
      simp only [one]
      cases start with
      | none =>
          have closed : isPhyRegion = false := remembers
          subst closed
          split
          · exact rest (some i) true _ ⟨rfl, rfl, Nat.le_succ i⟩
          · exact rest none false base rfl
      | some c =>
          obtain ⟨isOpen, since, before⟩ := remembers
          subst isOpen since
          split
          · exact rest (some c) true _ ⟨rfl, rfl, Nat.le_succ_of_le before⟩
          · have gap := rest none false (region.baseaddress + c * 4096) rfl
            have size : diff (region.baseaddress + i * 4096) (region.baseaddress + c * 4096)
                = (i - c) * 4096 :=
              size_runRegion before (by omega)
            simp only [if_true, gap, Run.bind, size, Option.toList_some, List.map_cons,
              List.map_nil, List.cons_append, List.nil_append]
            rfl

variable {hProcess : Nat}

/-- The buffer for the bits of a mapping holds them, and a request. -/
theorem phyBufSize_eq {vma : VmArea} (pages4K : g.pageSize = 4096) (whole : WholePages vma)
    : phyBufSize g vma.vmStart vma.vmEnd = max 24 ((pagesOf vma + 7) / 8) := by
  have startAligned := whole.startAligned
  have finish := whole.end_eq
  have small := whole.small
  have inside := vma.end_lt
  have pages : diff (vma.vmEnd / g.pageSize) (vma.vmStart / g.pageSize) = pagesOf vma := by
    rw [pages4K, diff_of_le (by omega) (by omega)]
    omega
  have int : toInt ((pagesOf vma + 7) / 8 : Nat) = ((pagesOf vma + 7) / 8 : Nat) := by
    rw [toInt]
    exact Int.bmod_eq_of_le (by omega) (by omega)
  have word : wrap (pagesOf vma + 7) = pagesOf vma + 7 := wrap_of_lt (by omega)
  rw [phyBufSize]
  simp only [pages, word, int]
  omega

/-- Bits that were written to a buffer are read back from it. -/
theorem testBit_cells {page : Nat → Bool} {mem : Nat → UInt8} {p size pages : Nat}
    (room : (pages + 7) / 8 ≤ size)
    (bits : ∀ j < 8 * ((pages + 7) / 8), bitAt mem p j = (decide (j < pages) && page j))
    : ∀ j < pages, ∃ b : UInt8,
        (cells mem p size)[j / 8]? = some b ∧ b.toNat.testBit (j % 8) = page j := by
  intro j below
  refine ⟨mem (p + j / 8), ?_, ?_⟩
  · have inside : j / 8 < size := by omega
    simp [cells, inside]
  · have one := bits j (by omega)
    rw [decide_eq_true below, Bool.true_and] at one
    exact one

/-- The server is given the bits of the pages of a mapping. -/
theorem checkMemAddrIsValid_bits (pages4K : k.geometry.pageSize = 4096)
    (clientPages4K : g.pageSize = 4096) (fits : hProcess < 2 ^ 64) (handle : hProcess ≠ 0)
    (checks : ∀ n, sys.ioctl n .checkProcessAddrPhy = rwmemCheckPhy k) (quiet : NoFailures k)
    (found : k.findGetPid (Int32.ofNat hProcess) = some (some task)) (n : Nat) {vma : VmArea}
    (whole : WholePages vma)
    : ∃ isphy,
        checkMemAddrIsValid sys g n hProcess vma.vmStart vma.vmEnd = .ok (some isphy)
        ∧ ∀ j < pagesOf vma, ∃ b : UInt8,
            isphy[j / 8]? = some b
            ∧ b.toNat.testBit (j % 8) = pageBit (isResident task k.ptes) vma j := by
  have range := whole.pageRange pages4K
  have small := whole.small
  have bytes := phyBufSize_eq clientPages4K whole
  obtain ⟨mem, p, passed, bits⟩ := pass_storeWords n
    (cells sys.fresh 0 (phyBufSize g vma.vmStart vma.vmEnd)) fits
    (by rw [length_cells, bytes]; omega) (by rw [length_cells, bytes]; omega)
    (by rw [length_cells, bytes]; omega) (checks n) range quiet.read quiet.copied quiet.allocated
    found
  have positive : libcIoctl (pagesOf vma) > 0 := by
    have := range.nonempty
    rw [libcIoctl_natCast small]
    omega
  rw [length_cells] at passed
  refine ⟨cells mem p (phyBufSize g vma.vmStart vma.vmEnd), ?_, ?_⟩
  · simp only [checkMemAddrIsValid, if_neg handle, myIoctl, passed, Run.bind, if_pos positive]
  · rw [pages4K] at bits
    exact testBit_cells (by rw [bytes]; omega) bits

/-- The regions of a mapping with this name. -/
def runRegions (resident : Nat → Bool) (vma : VmArea) (name : List UInt8) : List RegionInfo :=
  (residentRuns resident vma).map
    (fun r => { vmRegion vma name with baseaddress := r.1, size := r.2 - r.1 })

/-- The loop over the pages of a mapping finds its resident runs. -/
theorem phyRegions_runRegions (clientPages4K : g.pageSize = 4096) {vma : VmArea}
    (whole : WholePages vma) (name : List UInt8) {resident : Nat → Bool} {isphy : List UInt8}
    (bits : ∀ j < pagesOf vma, ∃ b : UInt8,
      isphy[j / 8]? = some b ∧ b.toNat.testBit (j % 8) = pageBit resident vma j)
    : phyRegions g (vmRegion vma name) isphy vma.vmEnd (vmRegion vma name).baseaddress 0 false 0
      = .ok (runRegions resident vma name) := by
  have closed : Remembers (vmRegion vma name) false 0 0 none := rfl
  have scanned := phyRegions_runs clientPages4K (vmRegion vma name) (pageBit resident vma)
    (m := pagesOf vma) closed (by rw [Nat.zero_add]; exact whole.end_eq)
    (by rw [Nat.zero_add]; exact whole.small) vma.end_lt (by rw [Nat.zero_add]; exact bits)
  rw [Nat.zero_mul, Nat.add_zero] at scanned
  rw [scanned, runRegions, residentRuns, List.map_map]
  congr 1
  apply List.map_congr_left
  intro r _
  have size : vma.vmStart + r.2 * 4096 - (vma.vmStart + r.1 * 4096) = (r.2 - r.1) * 4096 := by
    omega
  simp only [runRegion, Function.comp_apply, size]
  rfl

section Queries

variable {ks : Nat → IoctlKernel P} {resident : Nat → Bool}

/-- The `n`-th `ioctl` about pages is made in the `n`-th of these kernels. Each may fail, and
those that find the target agree on its pages.
-/
structure PhyServed (sys : Ioctls) (ks : Nat → IoctlKernel P) (pid : Int32)
    (resident : Nat → Bool)
    : Prop where
  checks : ∀ n, sys.ioctl n .checkProcessAddrPhy = rwmemCheckPhy (ks n)
  pages4K : ∀ n, (ks n).geometry.pageSize = 4096
  agrees : ∀ n task, (ks n).findGetPid pid = some (some task)
    → isResident task (ks n).ptes = resident

/-- The query for the pages of a mapping, made with the `n`-th `ioctl`, fails. -/
def QueryFails (sys : Ioctls) (g : PageGeometry) (hProcess n : Nat) (vma : VmArea) : Prop :=
  checkMemAddrIsValid sys g n hProcess vma.vmStart vma.vmEnd = .ok none

instance (sys : Ioctls) (g : PageGeometry) (hProcess n : Nat) (vma : VmArea)
    : Decidable (QueryFails sys g hProcess n vma) :=
  inferInstanceAs (Decidable (_ = _))

/-- A query that does not fail brings the bits of the pages. -/
theorem queryFails_or_bits (clientPages4K : g.pageSize = 4096) (fits : hProcess < 2 ^ 64)
    (handle : hProcess ≠ 0) (phyServed : PhyServed sys ks (Int32.ofNat hProcess) resident)
    (n : Nat) {vma : VmArea} (whole : WholePages vma)
    : QueryFails sys g hProcess n vma
      ∨ ∃ isphy,
          checkMemAddrIsValid sys g n hProcess vma.vmStart vma.vmEnd = .ok (some isphy)
          ∧ ∀ j < pagesOf vma, ∃ b : UInt8,
              isphy[j / 8]? = some b ∧ b.toNat.testBit (j % 8) = pageBit resident vma j := by
  have range := whole.pageRange (phyServed.pages4K n)
  have small := whole.small
  have bytes := phyBufSize_eq clientPages4K whole
  have long : 24 ≤ (cells sys.fresh 0 (phyBufSize g vma.vmStart vma.vmEnd)).length := by
    rw [length_cells, bytes]
    omega
  have length := length_storeWords (a := hProcess) (b := vma.vmStart) (c := vma.vmEnd) long
  have place := sys.place_lt n (phyBufSize g vma.vmStart vma.vmEnd) (by rw [bytes]; omega)
  have request := phyRequest_storeWords (p := sys.place n (phyBufSize g vma.vmStart vma.vmEnd))
    (cells sys.fresh 0 (phyBufSize g vma.vmStart vma.vmEnd)) fits vma.start_lt vma.end_lt
  rw [length_cells] at length
  rw [QueryFails]
  simp only [checkMemAddrIsValid, if_neg handle, myIoctl, Ioctls.pass, phyServed.checks, length]
  obtain ⟨ret, mem, returned, least⟩ := rwmemCheckPhy_answers (ks n)
    (sys.place n (phyBufSize g vma.vmStart vma.vmEnd))
    (store (fun _ => 0) (sys.place n (phyBufSize g vma.vmStart vma.vmEnd))
      (storeWords hProcess vma.vmStart vma.vmEnd
        (cells sys.fresh 0 (phyBufSize g vma.vmStart vma.vmEnd))))
  simp only [returned, Run.bind]
  by_cases accepted : libcIoctl ret > 0
  · have counted : 0 ≤ ret := by
      by_contra negative
      rw [libcIoctl, if_pos (by omega)] at accepted
      omega
    obtain ⟨read, allocated, found, quiet⟩ := rwmemCheckPhy_of_accepted request returned counted
    obtain ⟨task, found⟩ := found
    obtain ⟨mem', returned', bits, _⟩ := rwmemCheckPhy_bits
      (k := { ks n with toUserLeft := fun _ => 0 }) range request
      (by rw [bytes] at place ⊢; omega) read (fun _ => rfl) allocated found
    rw [quiet] at returned'
    cases returned'
    simp only [phyServed.pages4K n, phyServed.agrees n task found] at bits
    rw [if_pos accepted]
    exact Or.inr ⟨_, rfl, testBit_cells (by rw [bytes]; omega) bits⟩
  · rw [if_neg accepted]
    exact Or.inl rfl

theorem length_entry (vma : VmArea) {name : List UInt8} (carried : Terminated name)
    : (entryBytes 512 vma name ++ List.replicate (532 - 531) 0).length = 532 := by
  rw [List.length_append, length_entryBytes (Nat.le_succ_of_le carried.short)]
  rfl

/-- The regions of the mappings whose query does not fail, the first with the `n`-th `ioctl`. -/
def queriedRegions (sys : Ioctls) (g : PageGeometry) (hProcess : Nat) (resident : Nat → Bool)
    (nameOf : VmArea → List UInt8) (n : Nat) (vmas : List VmArea)
    : List RegionInfo :=
  (vmas.zipIdx n).flatMap (fun query =>
    if QueryFails sys g hProcess query.2 query.1 then []
    else runRegions resident query.1 (nameOf query.1))

/-- With `showPhy` the decoding loop passes over the entries whose query fails. Induction on the
entries.
-/
theorem readRegions_queried (clientPages4K : g.pageSize = 4096) (fits : hProcess < 2 ^ 64)
    (handle : hProcess ≠ 0) (phyServed : PhyServed sys ks (Int32.ofNat hProcess) resident)
    (n : Nat) {vmas : List VmArea} (carried : ∀ vma ∈ vmas, Terminated (nameOf vma))
    (whole : ∀ i vma, vmas[i]? = some vma → QueryFails sys g hProcess (n + i) vma ∨ WholePages vma)
    (rest : List UInt8)
    : readRegions sys g hProcess true vmas.length n
        (vmas.flatMap (fun vma => entryBytes 512 vma (nameOf vma) ++ List.replicate (532 - 531) 0)
          ++ rest)
      = .ok (queriedRegions sys g hProcess resident nameOf n vmas) := by
  induction vmas generalizing n with
  | nil => rfl
  | cons vma vmas ih =>
      have later := ih (n + 1) (fun v member => carried v (List.mem_cons_of_mem _ member))
        (fun i v member => by
          rw [Nat.add_right_comm, Nat.add_assoc]
          exact whole (i + 1) v member)
      have name := carried vma List.mem_cons_self
      have length := length_entry vma name
      rw [List.length_cons, readRegions, List.flatMap_cons, List.append_assoc,
        if_neg (by rw [List.length_append, length]; omega), List.take_left' length,
        List.drop_left' length, regionAt_entryBytes name, queriedRegions, List.zipIdx_cons,
        List.flatMap_cons]
      have asks : QueryFails sys g hProcess n vma
          ∨ WholePages vma ∧ ∃ isphy,
              checkMemAddrIsValid sys g n hProcess vma.vmStart vma.vmEnd = .ok (some isphy)
              ∧ ∀ j < pagesOf vma, ∃ b : UInt8,
                  isphy[j / 8]? = some b ∧ b.toNat.testBit (j % 8) = pageBit resident vma j := by
        rcases whole 0 vma rfl with fails | here
        · exact Or.inl fails
        · exact (queryFails_or_bits clientPages4K fits handle phyServed n here).imp_right
            (fun answered => ⟨here, answered⟩)
      rcases asks with fails | answered
      · have asked : checkMemAddrIsValid sys g n hProcess
            (vmRegion vma (nameOf vma)).baseaddress vma.vmEnd = .ok none := fails
        simp only [if_true, asked, Run.bind, later, if_pos fails, List.nil_append]
        rfl
      · obtain ⟨here, isphy, valid, bits⟩ := answered
        have asked : checkMemAddrIsValid sys g n hProcess
            (vmRegion vma (nameOf vma)).baseaddress vma.vmEnd = .ok (some isphy) := valid
        have succeeds : ¬QueryFails sys g hProcess n vma := by
          intro fails
          rw [QueryFails, valid] at fails
          cases fails
        have scanned : phyRegions g (vmRegion vma (nameOf vma)) isphy vma.vmEnd
            (vmRegion vma (nameOf vma)).baseaddress 0 false 0
            = .ok (runRegions resident vma (nameOf vma)) :=
          phyRegions_runRegions clientPages4K here (nameOf vma) bits
        simp only [if_true, asked, Run.bind, scanned, later, if_neg succeeds]
        rfl

end Queries

/-- Without failures no query fails. Induction on the entries. -/
theorem queriedRegions_showPhy (pages4K : k.geometry.pageSize = 4096)
    (clientPages4K : g.pageSize = 4096) (fits : hProcess < 2 ^ 64) (handle : hProcess ≠ 0)
    (checks : ∀ n, sys.ioctl n .checkProcessAddrPhy = rwmemCheckPhy k) (quiet : NoFailures k)
    (found : k.findGetPid (Int32.ofNat hProcess) = some (some task)) (n : Nat)
    {vmas : List VmArea} (whole : ∀ vma ∈ vmas, WholePages vma)
    : queriedRegions sys g hProcess (isResident task k.ptes) nameOf n vmas
      = vmas.flatMap (fun vma => runRegions (isResident task k.ptes) vma (nameOf vma)) := by
  induction vmas generalizing n with
  | nil => rfl
  | cons vma vmas ih =>
      have later := ih (n + 1) (fun v member => whole v (List.mem_cons_of_mem _ member))
      obtain ⟨isphy, valid, _⟩ := checkMemAddrIsValid_bits pages4K clientPages4K fits handle checks
        quiet found n (whole vma List.mem_cons_self)
      have succeeds : ¬QueryFails sys g hProcess n vma := by
        intro fails
        rw [QueryFails, valid] at fails
        cases fails
      rw [queriedRegions, List.zipIdx_cons, List.flatMap_cons, ← queriedRegions, later,
        if_neg succeeds, List.flatMap_cons]

/-- The decoding loop asks for the pages of every entry. -/
theorem readRegions_showPhy (pages4K : k.geometry.pageSize = 4096)
    (clientPages4K : g.pageSize = 4096) (fits : hProcess < 2 ^ 64) (handle : hProcess ≠ 0)
    (checks : ∀ n, sys.ioctl n .checkProcessAddrPhy = rwmemCheckPhy k) (quiet : NoFailures k)
    (found : k.findGetPid (Int32.ofNat hProcess) = some (some task)) (n : Nat)
    {vmas : List VmArea} (carried : ∀ vma ∈ vmas, Terminated (nameOf vma))
    (whole : ∀ vma ∈ vmas, WholePages vma) (rest : List UInt8)
    : readRegions sys g hProcess true vmas.length n
        (vmas.flatMap (fun vma => entryBytes 512 vma (nameOf vma) ++ List.replicate (532 - 531) 0)
          ++ rest)
      = .ok (vmas.flatMap (fun vma =>
          runRegions (isResident task k.ptes) vma (nameOf vma))) := by
  have phyServed : PhyServed sys (fun _ => k) (Int32.ofNat hProcess) (isResident task k.ptes) := by
    refine ⟨checks, fun _ => pages4K, ?_⟩
    intro _ task' found'
    rw [found] at found'
    cases found'
    rfl
  rw [readRegions_queried clientPages4K fits handle phyServed n carried
      (fun _ vma member => Or.inr (whole vma (List.mem_of_getElem? member))) rest,
    queriedRegions_showPhy pages4K clientPages4K fits handle checks quiet found n whole]

/-- The count that the driver gives the server. -/
theorem queryCount_eq {task : Option (TaskStruct P)}
    (counts : sys.ioctl 0 .getProcessMapsCount = rwmemMapsCount k)
    (found : k.findGetPid (Int32.ofNat hProcess) = some task)
    : queryCount sys hProcess = .ok (getProcMapCount task) := by
  rw [queryCount, counts, rwmemMapsCount, found]
  simp only [libcIoctl_natCast (getProcMapCount_lt task)]

/-- With `showPhy` the server returns the resident runs of each mapping in order, if the length
of its buffer is an `int`; without mappings it fails.
-/
theorem virtualQueryExFull_showPhy {nDriverLink : Int} (pages4K : k.geometry.pageSize = 4096)
    (clientPages4K : g.pageSize = 4096) (opened : 0 ≤ nDriverLink) (fits : hProcess < 2 ^ 64)
    (handle : hProcess ≠ 0) (served : ServedBy sys k) (quiet : NoFailures k)
    (found : k.findGetPid (Int32.ofNat hProcess) = some (some task)) (space : task.mm = some mm)
    (named : ∀ vma ∈ mm.mmap, pathName mm vma = some (nameOf vma))
    (whole : ∀ vma ∈ mm.mmap, WholePages vma)
    : virtualQueryExFull sys g nDriverLink hProcess true
      = if mm.mmap = [] then .ok .failed
        else if 2 ^ 31 ≤ 8 + 532 * (mm.mmap.length + 50) then .undefined
        else
          .ok
            ⟨true,
              mm.mmap.flatMap (fun vma =>
                runRegions (isResident task k.ptes) vma (nameOf vma)),
              some 0⟩ := by
  have int := mm.length_lt
  have count : getProcMapCount (some task) = mm.mmap.length := by
    simp only [getProcMapCount, space]
  have counted := queryCount_eq served.counts found
  rw [count] at counted
  by_cases empty : mm.mmap = []
  · rw [if_pos empty, virtualQueryExFull, if_neg (by omega), if_neg handle, counted, empty]
    rfl
  · have positive := List.length_pos_iff.mpr empty
    have listed : Listed sys nDriverLink hProcess mm.mmap.length :=
      ⟨opened, handle, counted, by omega⟩
    rw [if_neg empty, virtualQueryExFull_of_listed true listed]
    by_cases long : 2 ^ 31 ≤ 8 + 532 * (mm.mmap.length + 50)
    · rw [if_pos long, if_pos (by omega)]
    · obtain ⟨rest, passed⟩ := pass_requestBuf fits int served.lists quiet.read quiet.copied found
        space named
      have room : ¬mm.mmap.length + 50 < mm.mmap.length := by omega
      rw [if_neg room] at passed
      have front : wordAt (mapsReply mm nameOf (mm.mmap.length + 50) ++ rest) 0 8
          = mm.mmap.length := by
        rw [mapsReply, Nat.min_eq_right (Nat.le_add_right _ 50), wordAt, List.drop_zero,
          List.append_assoc, List.take_append_of_le_length (by simp),
          List.take_of_length_le (by simp), leValue_leBytes_word (by omega)]
      have behind : (mapsReply mm nameOf (mm.mmap.length + 50) ++ rest).drop 8
          = mm.mmap.flatMap (fun vma =>
              entryBytes 512 vma (nameOf vma) ++ List.replicate (532 - 531) 0) ++ rest := by
        rw [mapsReply, List.append_assoc, List.take_of_length_le (Nat.le_add_right _ 50)]
        exact List.drop_left' (by simp)
      have regions := readRegions_showPhy pages4K clientPages4K fits handle served.checks quiet
        found 2 (fun vma member => terminated_pathName (named vma member)) whole rest
      rw [if_neg long, if_neg (by omega), Int.toNat_natCast, myIoctl, passed]
      simp only [Run.bind]
      rw [if_neg (by decide), front, behind, regions]
      rfl

/-- A range of whole resident pages of a mapping, with no such page next to it. -/
structure IsResidentRun (resident : Nat → Bool) (vma : VmArea) (a b : Nat) : Prop where
  low : vma.vmStart ≤ a
  high : b ≤ vma.vmEnd
  startAligned : 4096 ∣ a
  endAligned : 4096 ∣ b
  nonempty : a < b
  pages : ∀ page, 4096 ∣ page → a ≤ page → page < b → resident page = true
  left : a = vma.vmStart ∨ resident (a - 4096) = false
  right : b = vma.vmEnd ∨ resident b = false

/-- These are the ranges of resident pages of a mapping, the lowest first, with gaps between
them.
-/
structure AreResidentRuns (resident : Nat → Bool) (vma : VmArea) (ranges : List (Nat × Nat))
    : Prop where
  maximal : ∀ a b, (a, b) ∈ ranges ↔ IsResidentRun resident vma a b
  separated : ranges.Pairwise (fun r s => r.2 < s.1)
  covers : ∀ va, vma.vmStart ≤ va → va < vma.vmEnd
    → ((∃ r ∈ ranges, r.1 ≤ va ∧ va < r.2) ↔ resident (va / 4096 * 4096) = true)

section Runs

variable {resident : Nat → Bool} {vma : VmArea}

theorem isResidentRun_iff (whole : WholePages vma) {i j : Nat}
    : IsResidentRun resident vma (vma.vmStart + i * 4096) (vma.vmStart + j * 4096)
      ↔ IsRun (pageBit resident vma) (pagesOf vma) i j := by
  have aligned := whole.startAligned
  have finish := whole.end_eq
  constructor
  · intro run
    have nonempty := run.nonempty
    have high := run.high
    refine ⟨by omega, by omega, ?_, ?_, ?_⟩
    · intro page low below
      exact run.pages _ (by omega) (Nat.add_le_add_left (Nat.mul_le_mul_right 4096 low) _)
        (Nat.add_lt_add_left (Nat.mul_lt_mul_of_pos_right below (by decide)) _)
    · rcases run.left with first | gap
      · exact Or.inl (by omega)
      · by_cases first : i = 0
        · exact Or.inl first
        · have before : vma.vmStart + i * 4096 - 4096 = vma.vmStart + (i - 1) * 4096 := by omega
          rw [before] at gap
          exact Or.inr gap
    · rcases run.right with last | gap
      · exact Or.inl (by omega)
      · exact Or.inr gap
  · intro run
    have nonempty := run.nonempty
    have inside := run.inside
    refine ⟨by omega, by omega, by omega, by omega, by omega, ?_, ?_, ?_⟩
    · intro page pageAligned low below
      have index : page = vma.vmStart + (page - vma.vmStart) / 4096 * 4096 := by omega
      rw [index]
      exact run.ones _ (by omega) (by omega)
    · rcases run.left with first | gap
      · exact Or.inl (by omega)
      · by_cases first : i = 0
        · exact Or.inl (by omega)
        · have before : vma.vmStart + i * 4096 - 4096 = vma.vmStart + (i - 1) * 4096 := by omega
          rw [before]
          exact Or.inr gap
    · rcases run.right with last | gap
      · exact Or.inl (by omega)
      · exact Or.inr gap

theorem areResidentRuns (whole : WholePages vma)
    : AreResidentRuns resident vma (residentRuns resident vma) := by
  have aligned := whole.startAligned
  have finish := whole.end_eq
  refine ⟨?_, ?_, ?_⟩
  · intro a b
    rw [residentRuns, List.mem_map]
    constructor
    · intro member
      obtain ⟨r, found, same⟩ := member
      cases same
      exact (isResidentRun_iff whole).mpr (mem_runs.mp found)
    · intro run
      have low := run.low
      have nonempty := run.nonempty
      have first := run.startAligned
      have last := run.endAligned
      have start : a = vma.vmStart + (a - vma.vmStart) / 4096 * 4096 := by omega
      have stop : b = vma.vmStart + (b - vma.vmStart) / 4096 * 4096 := by omega
      rw [start, stop] at run
      exact ⟨_, mem_runs.mpr ((isResidentRun_iff whole).mp run), by rw [← start, ← stop]⟩
  · refine List.pairwise_map.mpr ((pairwise_runs _ _).imp ?_)
    intro r s gap
    omega
  · intro va low high
    have page : va / 4096 * 4096 = vma.vmStart + (va - vma.vmStart) / 4096 * 4096 := by omega
    have inside : (va - vma.vmStart) / 4096 < pagesOf vma := by omega
    have covered
        : (∃ r ∈ runs (pageBit resident vma) (pagesOf vma),
            r.1 ≤ (va - vma.vmStart) / 4096 ∧ (va - vma.vmStart) / 4096 < r.2)
          ↔ pageBit resident vma ((va - vma.vmStart) / 4096) = true :=
      exists_mem_runs inside
    rw [page]
    refine Iff.trans ?_ covered
    rw [residentRuns]
    constructor
    · intro found
      obtain ⟨_, member, around⟩ := found
      obtain ⟨r, run, same⟩ := List.mem_map.mp member
      subst same
      exact ⟨r, run, by omega, by omega⟩
    · intro found
      obtain ⟨r, run, around⟩ := found
      exact ⟨_, List.mem_map_of_mem run, by omega, by omega⟩

end Runs

/-- Both clients list, of each mapping in order, exactly its resident runs, with its permissions
and its name; the ranges are disjoint, and ascending if the mappings are.
-/
structure ListResidentRuns (library : Outcome (List MapsEntry)) (server : Run QueryResult)
    (resident : Nat → Bool) (mm : MmStruct) (nameOf : VmArea → List UInt8)
    : Prop where
  library : library
    = .ok (mm.mmap.flatMap (fun vma => runEntries resident vma (fromUtf8Lossy (nameOf vma))))
  server : ∃ result,
    server = .ok result
    ∧ result.vOutput = mm.mmap.flatMap (fun vma => runRegions resident vma (nameOf vma))
    ∧ (mm.mmap ≠ [] → result.ret = true)
  runs : ∀ vma ∈ mm.mmap, AreResidentRuns resident vma (residentRuns resident vma)
  disjoint : (mm.mmap.flatMap (residentRuns resident)).Pairwise
    (fun r s => r.2 ≤ s.1 ∨ s.2 ≤ r.1)
  ascending : mm.mmap.Pairwise (fun v w => v.vmEnd ≤ w.vmStart)
    → (mm.mmap.flatMap (residentRuns resident)).Pairwise (fun r s => r.2 ≤ s.1)

theorem mem_residentRuns_inside {resident : Nat → Bool} {vma : VmArea} (whole : WholePages vma)
    {r : Nat × Nat} (member : r ∈ residentRuns resident vma)
    : vma.vmStart ≤ r.1 ∧ r.2 ≤ vma.vmEnd := by
  have run := ((areResidentRuns whole).maximal r.1 r.2).mp member
  exact ⟨run.low, run.high⟩

/-- A relation between the ranges of mappings that holds inside each and between two of them. -/
theorem pairwise_residentRuns {resident : Nat → Bool} (whole : ∀ vma ∈ mm.mmap, WholePages vma)
    {apart : VmArea → VmArea → Prop} {R : Nat × Nat → Nat × Nat → Prop}
    (separate : mm.mmap.Pairwise apart) (gap : ∀ r s, r.2 < s.1 → R r s)
    (between : ∀ v w r s, apart v w → v.vmStart ≤ r.1 → r.2 ≤ v.vmEnd → w.vmStart ≤ s.1
      → s.2 ≤ w.vmEnd → R r s)
    : (mm.mmap.flatMap (residentRuns resident)).Pairwise R := by
  refine List.pairwise_flatMap.mpr ⟨?_, ?_⟩
  · intro vma member
    exact (areResidentRuns (whole vma member)).separated.imp (fun {r s} => gap r s)
  · refine separate.imp_of_mem ?_
    intro v w first second separated r inFirst s inSecond
    have low := mem_residentRuns_inside (whole v first) inFirst
    have high := mem_residentRuns_inside (whole w second) inSecond
    exact between v w r s separated low.1 low.2 high.1 high.2

/-- Both clients list exactly the resident runs of a process if and only if the length of the
server's buffer is an `int`.
-/
theorem residentMaps_iff {P : Type} (library server : Ioctls) (k : IoctlKernel P)
    (g : PageGeometry) (nDriverLink : Int) (hProcess : Nat) (task : TaskStruct P) (mm : MmStruct)
    (nameOf : VmArea → List UInt8) (pages4K : k.geometry.pageSize = 4096)
    (clientPages4K : g.pageSize = 4096) (opened : 0 ≤ nDriverLink) (fits : hProcess < 2 ^ 64)
    (handle : hProcess ≠ 0) (libraryServed : ServedBy library k) (serverServed : ServedBy server k)
    (quiet : NoFailures k) (found : k.findGetPid (Int32.ofNat hProcess) = some (some task))
    (space : task.mm = some mm) (named : ∀ vma ∈ mm.mmap, pathName mm vma = some (nameOf vma))
    (whole : ∀ vma ∈ mm.mmap, WholePages vma)
    (separate : mm.mmap.Pairwise (fun v w => v.vmEnd ≤ w.vmStart ∨ w.vmEnd ≤ v.vmStart))
    : ListResidentRuns (getMemMap library (Int32.ofNat hProcess) true)
        (virtualQueryExFull server g nDriverLink hProcess true) (isResident task k.ptes) mm nameOf
      ↔ 8 + 532 * (mm.mmap.length + 50) < 2 ^ 31 := by
  have fromLibrary := getMemMap_phyOnly pages4K libraryServed.toDescribedBy quiet
    (libraryServed.counted found space) (Nat.le_add_right _ 50) found space named whole
  have fromServer := virtualQueryExFull_showPhy pages4K clientPages4K opened fits handle
    serverServed quiet found space named whole
  constructor
  · intro lists
    obtain ⟨result, returned, _⟩ := lists.server
    rw [fromServer] at returned
    split at returned
    · next empty =>
        rw [empty, List.length_nil]
        omega
    · split at returned
      · cases returned
      · next small => exact Nat.lt_of_not_le small
  · intro small
    refine ⟨fromLibrary, ?_, fun vma member => areResidentRuns (whole vma member), ?_, ?_⟩
    · rw [fromServer]
      by_cases empty : mm.mmap = []
      · rw [if_pos empty, empty]
        exact ⟨_, rfl, rfl, fun some => absurd rfl some⟩
      · rw [if_neg empty, if_neg (Nat.not_le_of_lt small)]
        exact ⟨_, rfl, rfl, fun _ => rfl⟩
    · apply pairwise_residentRuns whole separate
      · intro r s gap
        exact Or.inl (Nat.le_of_lt gap)
      · intro v w r s apart _ _ _ _
        omega
    · intro sorted
      apply pairwise_residentRuns whole sorted
      · intro r s gap
        exact Nat.le_of_lt gap
      · intro v w r s apart _ _ _ _
        omega

theorem servedBy_deliveredIoctls (k : IoctlKernel P)
    : ServedBy (deliveredIoctls (fun _ => k)) k where
  counts := (ioctl_countingIoctls _ _ 0).1
  lists := (ioctl_countingIoctls _ _ 1).2.1
  checks n := (ioctl_countingIoctls _ _ n).2.2

theorem noFailures_quietIoctl (ptes : P → PteBits) (task : Option (TaskStruct P))
    : NoFailures (quietIoctl g ptes task) :=
  ⟨rfl, fun _ => rfl, rfl⟩

theorem residentMaps_iff_twoMaps
    : ListResidentRuns (getMemMap (deliveredIoctls (fun _ => quietTwoMaps)) 42 true)
        (virtualQueryExFull (deliveredIoctls (fun _ => quietTwoMaps)) arm64.toPageGeometry 3 42
          true)
        (isResident ⟨some twoMaps, AddressSpace.oneUp.walk arm64.toPageGeometry⟩
          AddressSpace.oneUp.ptes)
        twoMaps (mapsName twoMaps) := by
  refine (residentMaps_iff (deliveredIoctls (fun _ => quietTwoMaps))
    (deliveredIoctls (fun _ => quietTwoMaps)) quietTwoMaps arm64.toPageGeometry 3 42
    ⟨some twoMaps, AddressSpace.oneUp.walk arm64.toPageGeometry⟩ twoMaps (mapsName twoMaps)
    (by decide) (by decide) (by decide) (by decide) (by decide) (servedBy_deliveredIoctls _)
    (servedBy_deliveredIoctls _) (noFailures_quietIoctl _ _) rfl rfl
    (fun vma member => pathName_eq (transportable_twoMaps vma member)) ?_ ?_).mpr (by decide)
  · intro vma member
    simp only [twoMaps, List.mem_cons, List.not_mem_nil, or_false] at member
    rcases member with same | same
    · subst same
      exact ⟨by decide, by decide, by decide, by decide⟩
    · subst same
      exact ⟨by decide, by decide, by decide, by decide⟩
  · decide

/-- One of many mappings of a page each, with a page between them. -/
def pageMap (i : Nat) : VmArea where
  vmStart := i % 2 ^ 40 * 8192
  vmEnd := i % 2 ^ 40 * 8192 + 4096
  vmRead := true
  vmWrite := true
  vmExec := false
  vmMayShare := false
  vmFile := none
  start_lt := by omega
  end_lt := by omega

/-- A program with this many mappings. -/
def pageMaps (n : Nat) (small : n < 2 ^ 31) : MmStruct where
  mmap := (List.range n).map pageMap
  length_lt := by rw [List.length_map, List.length_range]; exact small
  vdso := 0
  startBrk := 0
  brk := 0
  startStack := 0

theorem wholePages_pageMap (i : Nat) : WholePages (pageMap i) := by
  have one : pagesOf (pageMap i) = 1 := by
    simp only [pagesOf, pageMap]
    omega
  refine ⟨?_, ?_, ?_, by rw [one]; decide⟩
  all_goals
    simp only [pageMap]
    omega

theorem mem_pageMaps {n : Nat} {small : n < 2 ^ 31} {vma : VmArea}
    (member : vma ∈ (pageMaps n small).mmap)
    : ∃ i, pageMap i = vma := by
  obtain ⟨i, _, same⟩ := List.mem_map.mp member
  exact ⟨i, same⟩

theorem wholePages_pageMaps {n : Nat} (small : n < 2 ^ 31)
    : ∀ vma ∈ (pageMaps n small).mmap, WholePages vma := by
  intro vma member
  obtain ⟨i, same⟩ := mem_pageMaps member
  exact same ▸ wholePages_pageMap i

theorem separate_pageMaps {n : Nat} (small : n < 2 ^ 31)
    : (pageMaps n small).mmap.Pairwise
        (fun v w => v.vmEnd ≤ w.vmStart ∨ w.vmEnd ≤ v.vmStart) := by
  refine List.pairwise_map.mpr (List.pairwise_lt_range.imp_of_mem ?_)
  intro i j _ below ascending
  have inside := List.mem_range.mp below
  simp only [pageMap]
  omega

theorem length_pageMaps {n : Nat} (small : n < 2 ^ 31) : (pageMaps n small).mmap.length = n := by
  rw [pageMaps, List.length_map, List.length_range]

/-- A kernel without failures in which the only program has this many mappings. -/
def quietPageMaps (n : Nat) (small : n < 2 ^ 31) : IoctlKernel Nat :=
  quietIoctl arm64.toPageGeometry AddressSpace.oneUp.ptes
    (some ⟨some (pageMaps n small), AddressSpace.oneUp.walk arm64.toPageGeometry⟩)

/-- Past four million mappings the length of the server's buffer overflows. -/
theorem virtualQueryExFull_pageMaps {n : Nat} (small : n < 2 ^ 31)
    (long : 2 ^ 31 ≤ 8 + 532 * (n + 50))
    : virtualQueryExFull (deliveredIoctls (fun _ => quietPageMaps n small)) arm64.toPageGeometry 3 42
        true
      = .undefined := by
  have length := length_pageMaps small
  have some_ : ¬(pageMaps n small).mmap = [] := by
    intro empty
    rw [empty, List.length_nil] at length
    omega
  have named : ∀ vma ∈ (pageMaps n small).mmap,
      pathName (pageMaps n small) vma = some (mapsName (pageMaps n small) vma) := by
    intro vma member
    obtain ⟨i, same⟩ := mem_pageMaps member
    subst same
    rfl
  rw [virtualQueryExFull_showPhy (k := quietPageMaps n small) rfl rfl (by decide) (by decide)
      (by decide) (servedBy_deliveredIoctls _) (noFailures_quietIoctl _ _) rfl rfl named
      (wholePages_pageMaps small),
    if_neg some_, length, if_pos long]

/-- Five million mappings of a page each, all resident. -/
theorem not_listResidentRuns_pageMaps
    : let small : 5000000 < 2 ^ 31 := by decide
      let mm := pageMaps 5000000 small
      (∀ vma ∈ mm.mmap, WholePages vma)
      ∧ mm.mmap.Pairwise (fun v w => v.vmEnd ≤ w.vmStart ∨ w.vmEnd ≤ v.vmStart)
      ∧ ¬ListResidentRuns
          (getMemMap (deliveredIoctls (fun _ => quietPageMaps 5000000 small)) 42 true)
          (virtualQueryExFull (deliveredIoctls (fun _ => quietPageMaps 5000000 small))
            arm64.toPageGeometry 3 42 true)
          (isResident ⟨some mm, AddressSpace.oneUp.walk arm64.toPageGeometry⟩
            AddressSpace.oneUp.ptes)
          mm (mapsName mm) := by
  intro small mm
  refine ⟨wholePages_pageMaps small, separate_pageMaps small, ?_⟩
  intro lists
  have long : 2 ^ 31 ≤ 8 + 532 * (5000000 + 50) := by decide
  obtain ⟨result, returned, _⟩ := lists.server
  rw [virtualQueryExFull_pageMaps small long] at returned
  cases returned

end RwMem.Server
