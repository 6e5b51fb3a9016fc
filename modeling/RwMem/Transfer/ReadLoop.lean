import RwMem.Transfer.Chunks

/-! The loop of `rwmem_read` for any page walk and any failures of the physical accesses. -/

namespace RwMem.Transfer

open Memory RwMem.Driver

variable {P : Type} (k : Kernel P) (proc : Proc P) (addr size : Nat)

/-- The range of a transfer, translated by the walk of the target. -/
def scan : Scan P := ⟨k.geometry, proc.getProcPhyAddr, addr, size⟩

/-- How many bytes of its chunk the `l`-th read access moves. -/
def readMoved (l : Nat) : Nat :=
  (k.access l).readMoves k.phyTotalMemorySize ((scan k proc addr size).phyAddr l)
    ((scan k proc addr size).part l)

theorem readMoved_le (l : Nat) : readMoved k proc addr size l ≤ (scan k proc addr size).part l :=
  Access.readMoves_le _ _

variable {k proc addr size} {ptes : P → PteBits} {force : Bool}

/-- The read loop stops at a chunk that is not allowed and at the end of the range. -/
theorem rwmemReadLoop_stop {m : Nat} (n : Nat) (phys buf : Nat → UInt8)
    (stop : size ≤ (scan k proc addr size).start m
      ∨ ¬(scan k proc addr size).Allowed PteBits.canRead ptes force m)
    : rwmemReadLoop k proc ptes phys addr size force n ((scan k proc addr size).start m) buf
      = ⟨(scan k proc addr size).start m, buf, []⟩ := by
  rw [rwmemReadLoop]
  by_cases reached : (scan k proc addr size).start m < size
  · have refused := stop.resolve_left (Nat.not_le_of_lt reached)
    have walk : proc.getProcPhyAddr (wrap (addr + (scan k proc addr size).start m))
        = ((scan k proc addr size).phyAddr m, ((scan k proc addr size).translation m).2) := rfl
    rcases Scan.refused_cases refused with zero | ⟨nonzero, absent⟩ | ⟨nonzero, pte, entry, denied⟩
    · simp [reached, walk, zero]
    · simp [reached, walk, nonzero, absent, isPteCanRead, changePteReadStatus]
    · simp [reached, walk, nonzero, entry, isPteCanRead, denied]
  · simp only [reached, ↓reduceDIte]

/-- At an allowed chunk the read loop makes one physical access and goes on behind it. -/
theorem rwmemReadLoop_next {j : Nat} (n : Nat) (phys buf : Nat → UInt8)
    (reached : (scan k proc addr size).start j < size)
    (allowed : (scan k proc addr size).Allowed PteBits.canRead ptes force j)
    : let s := scan k proc addr size
      let copy := readRamPhysicalAddr k.geometry k.phyTotalMemorySize (k.access n)
        (s.phyAddr j) (s.start j) false (s.part j) phys buf
      let rest := rwmemReadLoop k proc ptes phys addr size force (n + 1) (s.start (j + 1))
        copy.mem
      rwmemReadLoop k proc ptes phys addr size force n (s.start j) buf
        = { rest with chunks := copy.chunks ++ rest.chunks } := by
  intro s copy rest
  obtain ⟨translated, pte, entry, bit⟩ := allowed
  have inside : s.start j < size := reached
  have nonzero : s.phyAddr j ≠ 0 := translated
  have walk : proc.getProcPhyAddr (wrap (addr + s.start j)) = (s.phyAddr j, some pte) :=
    Prod.ext rfl entry
  have passes : (if force = true then !(ptes pte).canRead && !true
      else !(ptes pte).canRead) = false := by
    cases force <;> simp_all
  rw [rwmemReadLoop]
  simp only [inside, ↓reduceDIte, walk, nonzero, if_false, isPteCanRead,
    changePteReadStatus, Option.isSome_some, passes, Bool.false_eq_true]
  rfl

/-- The result of the read loop entered at the `j`-th chunk, when the run stops at chunk `m`.
The count depends on the walk alone; what was moved depends on the accesses too.
-/
structure ReadOutcome (k : Kernel P) (proc : Proc P) (addr size : Nat) (phys : Nat → UInt8)
    (m j : Nat) (buf : Nat → UInt8) (r : RamCopy)
    : Prop where
  done : r.done = (scan k proc addr size).start m
  moved
    : ∀ i,
        Moved 0 r.chunks i
        ↔ ∃ l, j ≤ l ∧ l < m
            ∧ (scan k proc addr size).Within l (readMoved k proc addr size l) i
  delivered
    : ∀ l,
        j ≤ l
        → l < m
        → ∀ i,
            (scan k proc addr size).Within l (readMoved k proc addr size l) i
            → r.mem i
              = phys ((scan k proc addr size).phyAddr l
                  + (i - (scan k proc addr size).start l))
  kept : ∀ i, ¬Moved 0 r.chunks i → r.mem i = buf i

/-- One access moves the start of its chunk, and exactly that. -/
theorem readAccess_outcome {j : Nat} (phys buf : Nat → UInt8)
    (reached : (scan k proc addr size).start j < size)
    : let s := scan k proc addr size
      let copy := readRamPhysicalAddr k.geometry k.phyTotalMemorySize (k.access j)
        (s.phyAddr j) (s.start j) false (s.part j) phys buf
      copy.mem = blit buf (s.start j) phys (s.phyAddr j) (readMoved k proc addr size j)
      ∧ ∀ i, Moved 0 copy.chunks i ↔ s.Within j (readMoved k proc addr size j) i := by
  intro s copy
  obtain ⟨mem, chunks⟩ := readRamPhysicalAddr_inPage k.geometry (k.access j)
    k.phyTotalMemorySize (s.start j) phys buf (Scan.part_pos reached) (s.part_inPage j)
  refine ⟨mem, ?_⟩
  intro i
  rw [Moved, Nat.zero_add]
  exact chunks i

/-- The read loop from any chunk on. Induction on the chunks left before the stop: the first
access serves its own chunk, and the rest of the run never touches those bytes again.
-/
theorem rwmemReadLoop_outcome {m : Nat}
    (stop : StopsAt (scan k proc addr size).start size
      ((scan k proc addr size).Allowed PteBits.canRead ptes force) m)
    {j d : Nat} (split : j + d = m) (phys buf : Nat → UInt8)
    : ReadOutcome k proc addr size phys m j buf
        (rwmemReadLoop k proc ptes phys addr size force j ((scan k proc addr size).start j)
          buf) := by
  induction d generalizing j buf with
  | zero =>
      have same : j = m := split
      subst same
      rw [rwmemReadLoop_stop j phys buf stop.here]
      refine ⟨rfl, ?_, ?_, ?_⟩
      · intro i
        apply iff_of_false (not_moved_nil 0 i)
        intro ⟨l, low, high, _⟩
        omega
      · intro l low high
        omega
      · intro i _
        rfl
  | succ d ih =>
      obtain ⟨reached, allowed⟩ := stop.before j (by omega)
      obtain ⟨mem, moved⟩ := readAccess_outcome phys buf reached
      have rest := ih (show (j + 1) + d = m by omega)
      rw [rwmemReadLoop_next j phys buf reached allowed]
      generalize readRamPhysicalAddr k.geometry k.phyTotalMemorySize (k.access j) _ _ false _
        phys buf = copy at mem moved
      have rest := rest copy.mem
      -- the rest of the run moves bytes behind the chunk of the first access only
      have later {i : Nat}
          (member : (scan k proc addr size).Within j (readMoved k proc addr size j) i)
          : ¬Moved 0 (rwmemReadLoop k proc ptes phys addr size force (j + 1)
              ((scan k proc addr size).start (j + 1)) copy.mem).chunks i := by
        intro again
        obtain ⟨l, after, _, low, _⟩ := (rest.moved i).mp again
        have order := (scan k proc addr size).start_mono after
        have part := readMoved_le k proc addr size j
        have high := member.2
        rw [Scan.start_succ] at order
        omega
      refine ⟨rest.done, ?_, ?_, ?_⟩
      · intro i
        rw [Moved.append, moved, rest.moved]
        exact exists_from_iff (show j < m by omega)
          (fun l => (scan k proc addr size).Within l (readMoved k proc addr size l) i)
      · intro l after before i inside
        rcases Nat.eq_or_lt_of_le after with same | behind
        · subst same
          rw [rest.kept i (later inside), mem, blit_inside inside.1 inside.2]
        · exact rest.delivered l behind before i inside
      · intro i absent
        have neither := mt Moved.append.mpr absent
        rw [not_or] at neither
        rw [rest.kept i neither.2, mem]
        apply blit_outside
        have outside := mt (moved i).mpr neither.1
        simp only [Scan.Within] at outside
        omega

/-- A read that gets past its checks returns what its loop counts. -/
theorem rwmemRead_of_entered {req : Request} {phys : Nat → UInt8}
    (found : k.findGetPid req.header.pid = some proc) (copied : k.headerLeft = 0)
    (permitted : req.header.force = false
      → checkProcMapCanRead proc.mm req.header.addr req.size = true)
    : rwmemRead k ptes phys req
      = let run := rwmemReadLoop k proc ptes phys req.header.addr req.size req.header.force 0
          0 req.buf
        ⟨toSsize run.done, run.mem, run.chunks⟩ := by
  have passes : (req.header.force = false
      && !checkProcMapCanRead proc.mm req.header.addr req.size) = false := by
    cases force : req.header.force
    · simp [permitted force]
    · simp
  simp only [rwmemRead, copied, if_true, found, passes, Bool.false_eq_true, if_false]

/-- Every read request runs to a stop, with the outcome of its loop. -/
theorem exists_readStop (k : Kernel P) (proc : Proc P) (ptes : P → PteBits)
    (addr size : Nat) (force : Bool) (phys buf : Nat → UInt8)
    : ∃ m,
        StopsAt (scan k proc addr size).start size
          ((scan k proc addr size).Allowed PteBits.canRead ptes force) m
        ∧ ReadOutcome k proc addr size phys m 0 buf
            (rwmemReadLoop k proc ptes phys addr size force 0 0 buf) := by
  obtain ⟨m, stop⟩ := exists_stopsAt
    ((scan k proc addr size).Allowed PteBits.canRead ptes force) Scan.start_advances
  exact ⟨m, stop, rwmemReadLoop_outcome stop (Nat.zero_add m) phys buf⟩

end RwMem.Transfer
