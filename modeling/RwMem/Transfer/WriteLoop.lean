import RwMem.Transfer.ReadLoop

/-! The loop of `rwmem_write` for any page walk and any failures of the physical accesses. -/

namespace RwMem.Transfer

open Memory RwMem.Driver

variable {P : Type} (k : Kernel P) (proc : Proc P) (addr size : Nat)

/-- How many bytes of its chunk the `l`-th write access moves. -/
def writeMoved (l : Nat) : Nat :=
  (k.access l).writeMoves k.phyTotalMemorySize ((scan k proc addr size).phyAddr l)
    ((scan k proc addr size).part l)

theorem writeMoved_le (l : Nat)
    : writeMoved k proc addr size l ≤ (scan k proc addr size).part l :=
  Access.writeMoves_le _ _

/-- The physical addresses that the `l`-th write access may store to. -/
def StoresAt (l a : Nat) : Prop :=
  (scan k proc addr size).phyAddr l ≤ a
  ∧ a < (scan k proc addr size).phyAddr l + (scan k proc addr size).part l

variable [DecidableEq P] {k proc addr size} {ptes : P → PteBits} {force : Bool}

/-- Opening a protected entry and closing it again leaves the entries as they were. -/
theorem changePteWriteStatus_restore {pte : P} (closed : (ptes pte).canWrite = false)
    : (changePteWriteStatus (changePteWriteStatus ptes (some pte) true).2 (some pte) false).2
      = ptes := by
  have same : { ptes pte with canWrite := false } = ptes pte := by rw [← closed]
  simp only [changePteWriteStatus, Function.update_self, Function.update_idem, same,
    Function.update_eq_self]

/-- The write loop stops at a chunk that is not allowed and at the end of the range. -/
theorem rwmemWriteLoop_stop {m : Nat} (n : Nat) (buf phys : Nat → UInt8)
    (stop : size ≤ (scan k proc addr size).start m
      ∨ ¬(scan k proc addr size).Allowed PteBits.canWrite ptes force m)
    : rwmemWriteLoop k proc buf addr size force n ((scan k proc addr size).start m) ptes phys
      = ⟨(scan k proc addr size).start m, phys, ptes, []⟩ := by
  rw [rwmemWriteLoop]
  by_cases reached : (scan k proc addr size).start m < size
  · have refused := stop.resolve_left (Nat.not_le_of_lt reached)
    have walk : proc.getProcPhyAddr (wrap (addr + (scan k proc addr size).start m))
        = ((scan k proc addr size).phyAddr m, ((scan k proc addr size).translation m).2) := rfl
    rcases Scan.refused_cases refused with zero | ⟨nonzero, absent⟩ | ⟨nonzero, pte, entry, denied⟩
    · simp [reached, walk, zero]
    · cases force <;> simp [reached, walk, nonzero, absent, isPteCanWrite, changePteWriteStatus]
    · simp [reached, walk, nonzero, entry, isPteCanWrite, denied]
  · simp only [reached, ↓reduceDIte]

/-- At an allowed chunk the write loop makes one physical access and goes on behind it, with
the page-table entries as before.
-/
theorem rwmemWriteLoop_next {j : Nat} (n : Nat) (buf phys : Nat → UInt8)
    (reached : (scan k proc addr size).start j < size)
    (allowed : (scan k proc addr size).Allowed PteBits.canWrite ptes force j)
    : let s := scan k proc addr size
      let copy := writeRamPhysicalAddr k.geometry k.phyTotalMemorySize (k.access n)
        (s.phyAddr j) (17 + s.start j) false (s.part j) buf phys
      let rest := rwmemWriteLoop k proc buf addr size force (n + 1) (s.start (j + 1)) ptes
        copy.mem
      rwmemWriteLoop k proc buf addr size force n (s.start j) ptes phys
        = { rest with chunks := copy.chunks ++ rest.chunks } := by
  obtain ⟨translated, pte, entry, bit⟩ := allowed
  cases writable : (ptes pte).canWrite with
  | true =>
      intro s copy rest
      have inside : s.start j < size := reached
      have nonzero : s.phyAddr j ≠ 0 := translated
      have walk : proc.getProcPhyAddr (wrap (addr + s.start j)) = (s.phyAddr j, some pte) :=
        Prod.ext rfl entry
      rw [rwmemWriteLoop]
      simp only [inside, ↓reduceDIte, walk, nonzero, if_false, isPteCanWrite, writable,
        Bool.not_true, Bool.and_false, Bool.false_eq_true]
      rfl
  | false =>
      have forced : force = true := by simpa [writable] using bit
      subst forced
      have restored := changePteWriteStatus_restore writable
      have opens : (changePteWriteStatus ptes (some pte) true).1 = true := rfl
      intro s copy rest
      have inside : s.start j < size := reached
      have nonzero : s.phyAddr j ≠ 0 := translated
      have walk : proc.getProcPhyAddr (wrap (addr + s.start j)) = (s.phyAddr j, some pte) :=
        Prod.ext rfl entry
      rw [rwmemWriteLoop]
      simp only [inside, ↓reduceDIte, walk, nonzero, if_false, isPteCanWrite, writable,
        Bool.not_false, Bool.and_self, if_true, opens, Bool.not_true, Bool.false_eq_true,
        restored]
      rfl

/-- The result of the write loop entered at the `j`-th chunk, when the run stops at chunk
`m`. A byte that was moved stays, unless a later access stores to the same place.
-/
structure WriteOutcome (k : Kernel P) (proc : Proc P) (addr size : Nat)
    (ptes : P → PteBits) (buf : Nat → UInt8) (m j : Nat) (phys : Nat → UInt8)
    (r : WriteRun P)
    : Prop where
  done : r.done = (scan k proc addr size).start m
  ptes : r.ptes = ptes
  moved
    : ∀ i,
        Moved 17 r.chunks i
        ↔ ∃ l, j ≤ l ∧ l < m
            ∧ (scan k proc addr size).Within l (writeMoved k proc addr size l) i
  stored
    : ∀ l,
        j ≤ l
        → l < m
        → ∀ i,
            (scan k proc addr size).Within l (writeMoved k proc addr size l) i
            → let a := (scan k proc addr size).phyAddr l
                + (i - (scan k proc addr size).start l)
              (∀ l', l < l' → l' < m → ¬StoresAt k proc addr size l' a)
              → r.phys a = buf (17 + i)
  kept
    : ∀ a, (∀ l, j ≤ l → l < m → ¬StoresAt k proc addr size l a) → r.phys a = phys a

omit [DecidableEq P] in
/-- One access stores the start of its chunk, and exactly that. -/
theorem writeAccess_outcome {j : Nat} (buf phys : Nat → UInt8)
    (reached : (scan k proc addr size).start j < size)
    : let s := scan k proc addr size
      let copy := writeRamPhysicalAddr k.geometry k.phyTotalMemorySize (k.access j)
        (s.phyAddr j) (17 + s.start j) false (s.part j) buf phys
      (∀ i, s.Within j (writeMoved k proc addr size j) i
        → copy.mem (s.phyAddr j + (i - s.start j)) = buf (17 + i))
      ∧ (∀ a, ¬StoresAt k proc addr size j a → copy.mem a = phys a)
      ∧ ∀ i, Moved 17 copy.chunks i ↔ s.Within j (writeMoved k proc addr size j) i := by
  intro s copy
  obtain ⟨stored, kept, chunks⟩ := writeRamPhysicalAddr_inPage k.geometry (k.access j)
    k.phyTotalMemorySize (17 + s.start j) buf phys (Scan.part_pos reached) (s.part_inPage j)
  refine ⟨?_, ?_, ?_⟩
  · intro i inside
    have low := inside.1
    have high := inside.2
    have below : i - s.start j < writeMoved k proc addr size j := by omega
    have source : 17 + s.start j + (i - s.start j) = 17 + i := by omega
    rw [← source]
    exact stored (i - s.start j) below
  · intro a outside
    have range : ¬(s.phyAddr j ≤ a ∧ a < s.phyAddr j + s.part j) := outside
    exact kept a (show a < s.phyAddr j ∨ s.phyAddr j + s.part j ≤ a by omega)
  · intro i
    rw [Moved, Scan.Within]
    refine (chunks (17 + i)).trans ?_
    rw [Nat.add_assoc, Nat.add_le_add_iff_left, Nat.add_lt_add_iff_left]
    rfl

/-- The write loop from any chunk on, by induction on the chunks left before the stop. -/
theorem rwmemWriteLoop_outcome {m : Nat}
    (stop : StopsAt (scan k proc addr size).start size
      ((scan k proc addr size).Allowed PteBits.canWrite ptes force) m)
    {j d : Nat} (split : j + d = m) (buf phys : Nat → UInt8)
    : WriteOutcome k proc addr size ptes buf m j phys
        (rwmemWriteLoop k proc buf addr size force j ((scan k proc addr size).start j) ptes
          phys) := by
  induction d generalizing j phys with
  | zero =>
      have same : j = m := split
      subst same
      rw [rwmemWriteLoop_stop j buf phys stop.here]
      refine ⟨rfl, rfl, ?_, ?_, ?_⟩
      · intro i
        apply iff_of_false (not_moved_nil 17 i)
        intro ⟨l, low, high, _⟩
        omega
      · intro l low high
        omega
      · intro a _
        rfl
  | succ d ih =>
      obtain ⟨reached, allowed⟩ := stop.before j (by omega)
      obtain ⟨stored, kept, moved⟩ := writeAccess_outcome buf phys reached
      have rest := ih (show (j + 1) + d = m by omega)
      rw [rwmemWriteLoop_next j buf phys reached allowed]
      generalize writeRamPhysicalAddr k.geometry k.phyTotalMemorySize (k.access j) _ _ false _
        buf phys = copy at stored kept moved
      have rest := rest copy.mem
      refine ⟨rest.done, rest.ptes, ?_, ?_, ?_⟩
      · intro i
        rw [Moved.append, moved, rest.moved]
        exact exists_from_iff (show j < m by omega)
          (fun l => (scan k proc addr size).Within l (writeMoved k proc addr size l) i)
      · intro l after before i inside a untouched
        rcases Nat.eq_or_lt_of_le after with same | behind
        · subst same
          rw [rest.kept a untouched]
          exact stored i inside
        · exact rest.stored l behind before i inside untouched
      · intro a untouched
        rw [rest.kept a (fun l after before => untouched l (by omega) before)]
        exact kept a (untouched j (Nat.le_refl j) (by omega))

/-- A write that gets past its checks returns what its loop counts. -/
theorem rwmemWrite_of_entered {req : Request} {phys : Nat → UInt8}
    (found : k.findGetPid req.header.pid = some proc) (copied : k.headerLeft = 0)
    (permitted : req.header.force = false
      → checkProcMapCanWrite proc.mm req.header.addr req.size = true)
    : rwmemWrite k ptes phys req
      = let run := rwmemWriteLoop k proc req.buf req.header.addr req.size req.header.force 0
          0 ptes phys
        ⟨toSsize run.done, run.phys, run.ptes, run.chunks⟩ := by
  have passes : (req.header.force = false
      && !checkProcMapCanWrite proc.mm req.header.addr req.size) = false := by
    cases force : req.header.force
    · simp [permitted force]
    · simp
  simp only [rwmemWrite, copied, if_true, found, passes, Bool.false_eq_true, if_false]

/-- Every write request runs to a stop, with the outcome of its loop. -/
theorem exists_writeStop (k : Kernel P) (proc : Proc P) (ptes : P → PteBits)
    (addr size : Nat) (force : Bool) (buf phys : Nat → UInt8)
    : ∃ m,
        StopsAt (scan k proc addr size).start size
          ((scan k proc addr size).Allowed PteBits.canWrite ptes force) m
        ∧ WriteOutcome k proc addr size ptes buf m 0 phys
            (rwmemWriteLoop k proc buf addr size force 0 0 ptes phys) := by
  obtain ⟨m, stop⟩ := exists_stopsAt
    ((scan k proc addr size).Allowed PteBits.canWrite ptes force) Scan.start_advances
  exact ⟨m, stop, rwmemWriteLoop_outcome stop (Nat.zero_add m) buf phys⟩

end RwMem.Transfer
