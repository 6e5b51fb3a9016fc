import RwMem.Transfer.WriteLoop

/-! Which page-table entries `rwmem_write` sets, at every moment of the call. -/

namespace RwMem.Transfer

open Memory RwMem.Driver

variable {P : Type} [DecidableEq P]

/-- A call of `set_pte`: the entry that it sets, and all entries behind it. -/
structure PteSet (P : Type) where
  pte : P
  ptes : P → PteBits

/-- The calls of `set_pte` that `change_pte_write_status` makes. -/
def changePteWriteStatusSets (ptes : P → PteBits) (pte : Option P) (canWrite : Bool)
    : List (PteSet P) :=
  match pte with
  | none => []
  | some entry => [⟨entry, (changePteWriteStatus ptes pte canWrite).2⟩]

/-- The loop of `rwmem_write`, which also tells its calls of `set_pte` in order. -/
def rwmemWriteLoopSets (k : Kernel P) (proc : Proc P) (buf : Nat → UInt8)
    (procVirtAddr size : Nat) (isForceWrite : Bool) (n writeSize : Nat)
    (ptes : P → PteBits) (phys : Nat → UInt8)
    : WriteRun P × List (PteSet P) :=
  if _more : writeSize < size then
    let (phyAddr, pte) := proc.getProcPhyAddr (wrap (procVirtAddr + writeSize))
    if phyAddr = 0 then
      (⟨writeSize, phys, ptes, []⟩, [])
    else
      let oldPteCanWrite := isPteCanWrite ptes pte
      let changes := isForceWrite && !oldPteCanWrite
      let opened :=
        if changes then changePteWriteStatus ptes pte true else (oldPteCanWrite, ptes)
      let openSets := if changes then changePteWriteStatusSets ptes pte true else []
      if !opened.1 then
        (⟨writeSize, phys, opened.2, []⟩, openSets)
      else
        let pfnSz := pfnSize k.geometry phyAddr (size - writeSize)
        let copy := writeRamPhysicalAddr k.geometry k.phyTotalMemorySize (k.access n) phyAddr
          (17 + writeSize) false pfnSz buf phys
        let closed :=
          if changes then (changePteWriteStatus opened.2 pte false).2 else opened.2
        let closeSets := if changes then changePteWriteStatusSets opened.2 pte false else []
        let rest := rwmemWriteLoopSets k proc buf procVirtAddr size isForceWrite (n + 1)
          (writeSize + pfnSz) closed copy.mem
        ({ rest.1 with chunks := copy.chunks ++ rest.1.chunks },
          openSets ++ closeSets ++ rest.2)
  else
    (⟨writeSize, phys, ptes, []⟩, [])
termination_by size - writeSize
decreasing_by
  have : 0 < pfnSz := pfnSize_pos k.geometry phyAddr (by omega)
  omega

/-- `rwmem_write`, with its calls of `set_pte`. -/
def rwmemWriteSets (k : Kernel P) (ptes : P → PteBits) (phys : Nat → UInt8) (req : Request)
    : WriteResult P × List (PteSet P) :=
  if k.headerLeft = 0 then
    let header := req.header
    match k.findGetPid header.pid with
    | none => (⟨-EINVAL, phys, ptes, []⟩, [])
    | some proc =>
        if header.force = false && !checkProcMapCanWrite proc.mm header.addr req.size then
          (⟨-EFAULT, phys, ptes, []⟩, [])
        else
          let run := rwmemWriteLoopSets k proc req.buf header.addr req.size header.force 0 0
            ptes phys
          (⟨toSsize run.1.done, run.1.phys, run.1.ptes, run.1.chunks⟩, run.2)
  else
    (⟨-EFAULT, phys, ptes, []⟩, [])

/-- The walk names the entry for an address of the range. -/
def EntryInRange (proc : Proc P) (addr size : Nat) (pte : P) : Prop :=
  ∃ i < size, (proc.getProcPhyAddr (wrap (addr + i))).2 = some pte

/-- The page of an address holds no address of the range. -/
def PageOutside (g : PageGeometry) (addr size va : Nat) : Prop :=
  ∀ i < size, pageNumber g va ≠ pageNumber g (addr + i)

/-- Each page has an entry of its own. -/
def EntriesApart (g : PageGeometry) (proc : Proc P) : Prop :=
  ∀ va va' pte, (proc.getProcPhyAddr va).2 = some pte → (proc.getProcPhyAddr va').2 = some pte
    → pageNumber g va = pageNumber g va'

/-- The entry that is set belongs to the range, and all others are at this moment as they were.
So no page outside of the range has its entry set, if each page has an entry of its own.
-/
structure SetInRange (g : PageGeometry) (proc : Proc P) (addr size : Nat) (ptes : P → PteBits)
    (set : PteSet P)
    : Prop where
  inRange : EntryInRange proc addr size set.pte
  others : ∀ pte, ¬EntryInRange proc addr size pte → set.ptes pte = ptes pte
  pages
    : EntriesApart g proc
      → ∀ va, PageOutside g addr size va → (proc.getProcPhyAddr va).2 ≠ some set.pte

variable {k : Kernel P} {proc : Proc P} {ptes : P → PteBits} {addr size : Nat} {force : Bool}

/-- The loop sets nothing where it stops. -/
theorem rwmemWriteLoopSets_stop {m : Nat} (n : Nat) (buf phys : Nat → UInt8)
    (stop : size ≤ (scan k proc addr size).start m
      ∨ ¬(scan k proc addr size).Allowed PteBits.canWrite ptes force m)
    : rwmemWriteLoopSets k proc buf addr size force n ((scan k proc addr size).start m) ptes phys
      = (⟨(scan k proc addr size).start m, phys, ptes, []⟩, []) := by
  rw [rwmemWriteLoopSets]
  by_cases reached : (scan k proc addr size).start m < size
  · have refused := stop.resolve_left (Nat.not_le_of_lt reached)
    have walk : proc.getProcPhyAddr (wrap (addr + (scan k proc addr size).start m))
        = ((scan k proc addr size).phyAddr m, ((scan k proc addr size).translation m).2) := rfl
    rcases Scan.refused_cases refused with zero | ⟨nonzero, absent⟩ | ⟨nonzero, pte, entry, denied⟩
    · simp [reached, walk, zero]
    · cases force <;>
        simp [reached, walk, nonzero, absent, isPteCanWrite, changePteWriteStatus,
          changePteWriteStatusSets]
    · simp [reached, walk, nonzero, entry, isPteCanWrite, denied]
  · simp only [reached, ↓reduceDIte]

/-- The calls of `set_pte` for one chunk: a protected page is opened and closed again. -/
def chunkSets (ptes : P → PteBits) (force : Bool) (pte : P) : List (PteSet P) :=
  if force && !(ptes pte).canWrite then
    [⟨pte, Function.update ptes pte { ptes pte with canWrite := true }⟩, ⟨pte, ptes⟩]
  else []

/-- At an allowed chunk the loop sets the entry of this chunk only. -/
theorem rwmemWriteLoopSets_next {j : Nat} (n : Nat) (buf phys : Nat → UInt8)
    (reached : (scan k proc addr size).start j < size)
    (allowed : (scan k proc addr size).Allowed PteBits.canWrite ptes force j)
    : let s := scan k proc addr size
      let copy := writeRamPhysicalAddr k.geometry k.phyTotalMemorySize (k.access n)
        (s.phyAddr j) (17 + s.start j) false (s.part j) buf phys
      let rest := rwmemWriteLoopSets k proc buf addr size force (n + 1) (s.start (j + 1)) ptes
        copy.mem
      ∃ pte,
        (s.translation j).2 = some pte
        ∧ rwmemWriteLoopSets k proc buf addr size force n (s.start j) ptes phys
          = ({ rest.1 with chunks := copy.chunks ++ rest.1.chunks },
              chunkSets ptes force pte ++ rest.2) := by
  obtain ⟨translated, pte, entry, bit⟩ := allowed
  intro s copy rest
  have inside : s.start j < size := reached
  have nonzero : s.phyAddr j ≠ 0 := translated
  have walk : proc.getProcPhyAddr (wrap (addr + s.start j)) = (s.phyAddr j, some pte) :=
    Prod.ext rfl entry
  refine ⟨pte, entry, ?_⟩
  rw [rwmemWriteLoopSets]
  cases writable : (ptes pte).canWrite with
  | true =>
      simp only [inside, ↓reduceDIte, walk, nonzero, if_false, isPteCanWrite, writable,
        Bool.not_true, Bool.and_false, Bool.false_eq_true, List.append_assoc, chunkSets]
      rfl
  | false =>
      have forced : force = true := by simpa [writable] using bit
      subst forced
      have restored := changePteWriteStatus_restore writable
      have opens : (changePteWriteStatus ptes (some pte) true).1 = true := rfl
      simp only [inside, ↓reduceDIte, walk, nonzero, if_false, isPteCanWrite, writable,
        Bool.not_false, Bool.and_self, if_true, opens, Bool.not_true, Bool.false_eq_true,
        restored, changePteWriteStatusSets, chunkSets]
      rfl

omit [DecidableEq P] in
/-- An entry of the range is the entry of no page outside, where the pages have their own. -/
theorem EntryInRange.pages {g : PageGeometry} {pte : P} (inRange : EntryInRange proc addr size pte)
    (apart : EntriesApart g proc) {va : Nat} (outside : PageOutside g addr size va)
    : (proc.getProcPhyAddr va).2 ≠ some pte := by
  intro entry
  obtain ⟨i, inside, named⟩ := inRange
  have same := apart va (wrap (addr + i)) pte entry named
  apply outside i inside
  rw [same, pageNumber, pageNumber, wrap_of_lt (wrap_lt _)]

theorem setInRange_of_mem_chunkSets (g : PageGeometry) {pte : P}
    (inRange : EntryInRange proc addr size pte) {set : PteSet P}
    (member : set ∈ chunkSets ptes force pte)
    : SetInRange g proc addr size ptes set := by
  rw [chunkSets] at member
  split at member
  · rcases List.mem_pair.mp member with opens | closes
    · rw [opens]
      refine ⟨inRange, ?_, fun apart va => inRange.pages apart⟩
      intro other outside
      have apart : other ≠ pte := by
        rintro rfl
        exact outside inRange
      exact Function.update_of_ne apart _ _
    · rw [closes]
      exact ⟨inRange, fun _ _ => rfl, fun apart va => inRange.pages apart⟩
  · contradiction

/-- The loop from any chunk on: the record is of the loop itself, and only entries of the range
are set. Induction on the chunks left before the stop.
-/
theorem rwmemWriteLoopSets_outcome {m : Nat}
    (stop : StopsAt (scan k proc addr size).start size
      ((scan k proc addr size).Allowed PteBits.canWrite ptes force) m)
    {j d : Nat} (split : j + d = m) (buf phys : Nat → UInt8)
    : let run := rwmemWriteLoopSets k proc buf addr size force j
        ((scan k proc addr size).start j) ptes phys
      run.1 = rwmemWriteLoop k proc buf addr size force j ((scan k proc addr size).start j) ptes
        phys
      ∧ ∀ set ∈ run.2, SetInRange k.geometry proc addr size ptes set := by
  induction d generalizing j phys with
  | zero =>
      have same : j = m := split
      subst same
      rw [rwmemWriteLoopSets_stop j buf phys stop.here, rwmemWriteLoop_stop j buf phys stop.here]
      exact ⟨rfl, fun _ member => by contradiction⟩
  | succ d ih =>
      obtain ⟨reached, allowed⟩ := stop.before j (by omega)
      obtain ⟨pte, entry, next⟩ := rwmemWriteLoopSets_next j buf phys reached allowed
      have inRange : EntryInRange proc addr size pte :=
        ⟨(scan k proc addr size).start j, reached, entry⟩
      obtain ⟨same, later⟩ := ih (show (j + 1) + d = m by omega)
        (writeRamPhysicalAddr k.geometry k.phyTotalMemorySize (k.access j)
          ((scan k proc addr size).phyAddr j) (17 + (scan k proc addr size).start j) false
          ((scan k proc addr size).part j) buf phys).mem
      rw [next, rwmemWriteLoop_next j buf phys reached allowed]
      refine ⟨by simp only [same], ?_⟩
      intro set member
      rcases List.mem_append.mp member with here | behind
      · exact setInRange_of_mem_chunkSets k.geometry inRange here
      · exact later set behind

/-- Every way in which `rwmem_write` can end leaves all page-table entries as they were. While it
runs, it sets entries of the pages of the range only, and no others change.
-/
theorem rwmemWrite_keeps_entries (k : Kernel P) (ptes : P → PteBits) (phys : Nat → UInt8)
    (req : Request)
    : let call := rwmemWriteSets k ptes phys req
      call.1 = rwmemWrite k ptes phys req
      ∧ call.1.ptes = ptes
      ∧ ∀ set ∈ call.2,
          ∃ proc,
            k.findGetPid req.header.pid = some proc
            ∧ SetInRange k.geometry proc req.header.addr req.size ptes set := by
  simp only [rwmemWriteSets, rwmemWrite]
  split
  · cases found : k.findGetPid req.header.pid with
    | none =>
        simp only
        exact ⟨trivial, trivial, fun _ member => by contradiction⟩
    | some proc =>
        simp only
        split
        · exact ⟨rfl, rfl, fun _ member => by contradiction⟩
        · obtain ⟨m, stop, outcome⟩ := exists_writeStop k proc ptes req.header.addr req.size
            req.header.force req.buf phys
          obtain ⟨same, inRange⟩ :=
            rwmemWriteLoopSets_outcome stop (Nat.zero_add m) req.buf phys
          rw [Scan.start_zero] at same inRange
          refine ⟨by rw [same], by rw [same, outcome.ptes], ?_⟩
          intro set member
          exact ⟨proc, rfl, inRange set member⟩
  · exact ⟨rfl, rfl, fun _ member => by contradiction⟩

end RwMem.Transfer
