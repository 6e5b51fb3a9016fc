import RwMem.Driver.RamChunks

/-! What `read_ram_physical_addr` and `write_ram_physical_addr` count, for every range and every
failure.
-/

namespace RwMem.Driver

open Memory

/-- Of the range, a write changes no byte behind those that it counts, except that a checked user
copy that stops part-way zeroes what it leaves of its chunk.
-/
def StoresNoMore (acc : Access) (phyAddr size : Nat) (phys : Nat → UInt8) (r : RamCopy) : Prop :=
  ∀ i, r.done ≤ i → i < size
    → r.mem (phyAddr + i) = phys (phyAddr + i)
      ∨ acc.zeroTail = true ∧ r.mem (phyAddr + i) = 0

/-- Nothing fails at the `k`-th chunk of a read. -/
def Access.ReadsChunk (acc : Access) (isKernelBuf : Bool) (k : Nat) : Prop :=
  acc.noPtr k = false ∧ acc.probe k = false ∧ (isKernelBuf = false → acc.remaining k = 0)

/-- A read fails at its `k`-th chunk, where it fails at every chunk if its range is rejected or
there is no bounce buffer.
-/
def Access.ReadFails (acc : Access) (total phyAddr size : Nat) (isKernelBuf : Bool) (k : Nat)
    : Prop :=
  (checkPhysAddrValidRange total phyAddr size = false ∨ acc.noBounce = true)
  ∨ ¬acc.ReadsChunk isKernelBuf k

/-- The bytes of its `k`-th chunk that a read copies to the buffer. -/
def Access.readPart (acc : Access) (isKernelBuf : Bool) (chunk : Nat → Nat) (k : Nat) : Nat :=
  if acc.noPtr k || acc.probe k then 0
  else chunk k - (if isKernelBuf then 0 else min (acc.remaining k) (chunk k))

/-- Nothing fails at the `k`-th chunk of a write. -/
def Access.WritesChunk (acc : Access) (isKernelBuf : Bool) (k : Nat) : Prop :=
  acc.noPtr k = false ∧ (isKernelBuf = false → acc.remaining k = 0)

/-- A write fails at its `k`-th chunk, where it fails at every chunk if its range is rejected. -/
def Access.WriteFails (acc : Access) (total phyAddr size : Nat) (isKernelBuf : Bool) (k : Nat)
    : Prop :=
  checkPhysAddrValidRange total phyAddr size = false ∨ ¬acc.WritesChunk isKernelBuf k

/-- The bytes of its `k`-th chunk that a write stores. -/
def Access.writePart (acc : Access) (isKernelBuf : Bool) (chunk : Nat → Nat) (k : Nat) : Nat :=
  if acc.noPtr k then 0
  else chunk k - (if isKernelBuf then 0 else min (acc.remaining k) (chunk k))

variable {g : PageGeometry} {total phyAddr lpBuf size : Nat} {acc : Access} {isKernelBuf : Bool}
  {buf phys : Nat → UInt8}

/-- The loop of `read_ram_physical_addr`. -/
def readLoop (g : PageGeometry) (acc : Access) (isKernelBuf : Bool) (phyAddr lpBuf size : Nat)
    (phys : Nat → UInt8)
    : CopyLoop where
  geometry := g
  lpBuf := lpBuf
  phyAddr := phyAddr
  size := size
  dst := lpBuf
  start := phyAddr
  src := phys
  good := acc.ReadsChunk isKernelBuf
  moved := acc.readPart isKernelBuf (chunkSize g phyAddr size)
  counted _ := 0
  zeroed := false
  copy k mem :=
    blit mem (lpBuf + chunkOffset g phyAddr size k) phys (phyAddr + chunkOffset g phyAddr size k)
      (acc.readPart isKernelBuf (chunkSize g phyAddr size) k)
  loop k mem :=
    readRamLoop g acc phys isKernelBuf k (wrap (phyAddr + chunkOffset g phyAddr size k))
      (lpBuf + chunkOffset g phyAddr size k) (size - chunkOffset g phyAddr size k)
      (chunkOffset g phyAddr size k) mem

theorem Access.ReadsChunk.part {k : Nat} (reads : acc.ReadsChunk isKernelBuf k)
    (chunk : Nat → Nat)
    : acc.noPtr k = false ∧ acc.probe k = false
      ∧ (if isKernelBuf then 0 else min (acc.remaining k) (chunk k)) = 0
      ∧ acc.readPart isKernelBuf chunk k = chunk k := by
  obtain ⟨ptr, probe, left⟩ := reads
  have nothing : (if isKernelBuf then 0 else min (acc.remaining k) (chunk k)) = 0 := by
    cases isKernelBuf with
    | true => rfl
    | false => simp [left rfl]
  refine ⟨ptr, probe, nothing, ?_⟩
  simp [readPart, ptr, probe, nothing]

/-- The read loop at a chunk at which something fails. -/
theorem readRamLoop_fails (fits : phyAddr + size ≤ 2 ^ 64) {k : Nat}
    (reached : chunkOffset g phyAddr size k < size) (fails : ¬acc.ReadsChunk isKernelBuf k)
    : let c := readLoop g acc isKernelBuf phyAddr lpBuf size phys
      c.loop k buf = ⟨chunkOffset g phyAddr size k, c.copy k buf, [c.record k]⟩ := by
  intro c
  have more : 0 < size - chunkOffset g phyAddr size k := Nat.sub_pos_of_lt reached
  have positive := chunkSize_pos g reached
  simp only [c, readLoop, CopyLoop.record, chunkAt, wrap_chunk g fits reached]
  rw [readRamLoop]
  simp only [more, ↓reduceDIte, ← chunkSize.eq_def, Access.readPart]
  cases fault : acc.noPtr k || acc.probe k with
  | true => simp
  | false =>
      simp only [Bool.or_eq_false_iff] at fault
      have user : isKernelBuf = false ∧ acc.remaining k ≠ 0 := by
        simpa [Access.ReadsChunk, fault] using fails
      have left : min (acc.remaining k) (chunkSize g phyAddr size k) ≠ 0 := by
        have some_ := user.2
        omega
      simp [user.1, left]

/-- The read loop at a chunk at which nothing fails. -/
theorem readRamLoop_next (fits : phyAddr + size ≤ 2 ^ 64) {k : Nat}
    (reached : chunkOffset g phyAddr size k < size) (reads : acc.ReadsChunk isKernelBuf k)
    : let c := readLoop g acc isKernelBuf phyAddr lpBuf size phys
      c.loop k buf
      = { c.loop (k + 1) (c.copy k buf) with
          chunks := c.record k :: (c.loop (k + 1) (c.copy k buf)).chunks } := by
  intro c
  have more : 0 < size - chunkOffset g phyAddr size k := Nat.sub_pos_of_lt reached
  have next := chunkOffset_succ g phyAddr size k
  obtain ⟨ptr, probe, nothing, whole⟩ := reads.part (chunkSize g phyAddr size)
  have left : size - chunkOffset g phyAddr size k - chunkSize g phyAddr size k
      = size - chunkOffset g phyAddr size (k + 1) := by
    rw [next, Nat.sub_sub]
  simp only [c, readLoop, CopyLoop.record, chunkAt, wrap_chunk g fits reached]
  rw [readRamLoop]
  simp only [more, ↓reduceDIte, ← chunkSize.eq_def, ptr, probe, Bool.or_self, Bool.false_eq_true,
    if_false, nothing, Nat.sub_zero, ne_eq, not_true, whole, left, Nat.add_assoc, ← next]

/-- The loop of `read_ram_physical_addr` follows its chunks. -/
theorem follows_readLoop (fits : phyAddr + size ≤ 2 ^ 64)
    : (readLoop g acc isKernelBuf phyAddr lpBuf size phys).Follows := by
  refine ⟨?_, ?_, ?_, ?_, ?_, ?_, ?_, ?_, ?_⟩
  · intro k _ reads
    exact (Access.ReadsChunk.part reads _).2.2.2
  · intro k
    change acc.readPart isKernelBuf _ k ≤ _
    rw [Access.readPart]
    split
    · exact Nat.zero_le _
    · exact Nat.sub_le _ _
  · intro k reached _
    exact chunkSize_pos g reached
  · intro k
    exact Nat.zero_le _
  · intro k mem i inside
    refine (blit_inside (Nat.le_add_right _ _) (Nat.add_lt_add_left inside _)).trans ?_
    rw [Nat.add_sub_cancel_left]
    rfl
  · intro k mem a outside
    exact Or.inl (blit_outside outside)
  · intro k mem past
    have past : size ≤ chunkOffset g phyAddr size k := past
    change readRamLoop _ _ _ _ _ _ _ (size - chunkOffset g phyAddr size k) _ _ = _
    rw [Nat.sub_eq_zero_of_le past, readRamLoop_zero]
    rfl
  · intro k mem reached fails
    exact readRamLoop_fails fits reached fails
  · intro k mem reached reads
    exact readRamLoop_next fits reached reads

/-- The loop of `write_ram_physical_addr`. -/
def writeLoop (g : PageGeometry) (acc : Access) (isKernelBuf : Bool) (phyAddr lpBuf size : Nat)
    (buf : Nat → UInt8)
    : CopyLoop where
  geometry := g
  lpBuf := lpBuf
  phyAddr := phyAddr
  size := size
  dst := phyAddr
  start := lpBuf
  src := buf
  good := acc.WritesChunk isKernelBuf
  moved := acc.writePart isKernelBuf (chunkSize g phyAddr size)
  counted := acc.writePart isKernelBuf (chunkSize g phyAddr size)
  zeroed := acc.zeroTail
  copy k mem :=
    if acc.noPtr k then mem
    else
      xCopyFromUser acc mem (phyAddr + chunkOffset g phyAddr size k) buf
        (lpBuf + chunkOffset g phyAddr size k) (chunkSize g phyAddr size k)
        (if isKernelBuf then 0 else min (acc.remaining k) (chunkSize g phyAddr size k))
  loop k mem :=
    writeRamLoop g acc buf isKernelBuf k (wrap (phyAddr + chunkOffset g phyAddr size k))
      (lpBuf + chunkOffset g phyAddr size k) (size - chunkOffset g phyAddr size k)
      (chunkOffset g phyAddr size k) mem

theorem Access.WritesChunk.part {k : Nat} (writes : acc.WritesChunk isKernelBuf k)
    (chunk : Nat → Nat)
    : acc.noPtr k = false
      ∧ (if isKernelBuf then 0 else min (acc.remaining k) (chunk k)) = 0
      ∧ acc.writePart isKernelBuf chunk k = chunk k := by
  obtain ⟨ptr, left⟩ := writes
  have nothing : (if isKernelBuf then 0 else min (acc.remaining k) (chunk k)) = 0 := by
    cases isKernelBuf with
    | true => rfl
    | false => simp [left rfl]
  refine ⟨ptr, nothing, ?_⟩
  simp [writePart, ptr, nothing]

/-- A chunk at which something fails is not stored whole. -/
theorem Access.writePart_lt {k : Nat} {chunk : Nat → Nat} (positive : 0 < chunk k)
    (fails : ¬acc.WritesChunk isKernelBuf k)
    : acc.writePart isKernelBuf chunk k < chunk k := by
  rw [writePart]
  cases ptr : acc.noPtr k with
  | true => exact positive
  | false =>
      have user : isKernelBuf = false ∧ acc.remaining k ≠ 0 := by
        simpa [WritesChunk, ptr] using fails
      have some_ := user.2
      simp only [user.1, Bool.false_eq_true, if_false]
      omega

/-- The write loop at a chunk at which something fails. -/
theorem writeRamLoop_fails (fits : phyAddr + size ≤ 2 ^ 64) {k : Nat}
    (reached : chunkOffset g phyAddr size k < size) (fails : ¬acc.WritesChunk isKernelBuf k)
    : let c := writeLoop g acc isKernelBuf phyAddr lpBuf size buf
      c.loop k phys
      = ⟨chunkOffset g phyAddr size k + c.counted k, c.copy k phys, [c.record k]⟩ := by
  intro c
  have more : 0 < size - chunkOffset g phyAddr size k := Nat.sub_pos_of_lt reached
  have positive := chunkSize_pos g reached
  simp only [c, writeLoop, CopyLoop.record, chunkAt, wrap_chunk g fits reached]
  rw [writeRamLoop]
  simp only [more, ↓reduceDIte, ← chunkSize.eq_def, Access.writePart]
  cases ptr : acc.noPtr k with
  | true => simp
  | false =>
      have user : isKernelBuf = false ∧ acc.remaining k ≠ 0 := by
        simpa [Access.WritesChunk, ptr] using fails
      have left : min (acc.remaining k) (chunkSize g phyAddr size k) ≠ 0 := by
        have some_ := user.2
        omega
      simp [user.1, left]

/-- The write loop at a chunk at which nothing fails. -/
theorem writeRamLoop_next (fits : phyAddr + size ≤ 2 ^ 64) {k : Nat}
    (reached : chunkOffset g phyAddr size k < size) (writes : acc.WritesChunk isKernelBuf k)
    : let c := writeLoop g acc isKernelBuf phyAddr lpBuf size buf
      c.loop k phys
      = { c.loop (k + 1) (c.copy k phys) with
          chunks := c.record k :: (c.loop (k + 1) (c.copy k phys)).chunks } := by
  intro c
  have more : 0 < size - chunkOffset g phyAddr size k := Nat.sub_pos_of_lt reached
  have next := chunkOffset_succ g phyAddr size k
  obtain ⟨ptr, nothing, whole⟩ := writes.part (chunkSize g phyAddr size)
  have left : size - chunkOffset g phyAddr size k - chunkSize g phyAddr size k
      = size - chunkOffset g phyAddr size (k + 1) := by
    rw [next, Nat.sub_sub]
  simp only [c, writeLoop, CopyLoop.record, chunkAt, wrap_chunk g fits reached]
  rw [writeRamLoop]
  simp only [more, ↓reduceDIte, ← chunkSize.eq_def, ptr, Bool.false_eq_true, if_false, nothing,
    Nat.sub_zero, ne_eq, not_true, whole, left, Nat.add_assoc, ← next]

/-- Outside of the bytes that it moves, a user copy keeps the memory or zeroes what it leaves. -/
theorem xCopyFromUser_around {mem : Nat → UInt8} {at_ lpBuf sz copied a : Nat} (le : copied ≤ sz)
    (outside : a < at_ ∨ at_ + (sz - copied) ≤ a)
    : xCopyFromUser acc mem at_ buf lpBuf sz copied a = mem a
      ∨ acc.zeroTail = true ∧ at_ + (sz - copied) ≤ a ∧ a < at_ + sz
        ∧ xCopyFromUser acc mem at_ buf lpBuf sz copied a = 0 := by
  rw [xCopyFromUser, blit_outside outside]
  cases zeroed : acc.zeroTail with
  | false => exact Or.inl rfl
  | true =>
      simp only [if_true, true_and]
      by_cases tail : at_ + (sz - copied) ≤ a ∧ a < at_ + sz
      · exact Or.inr ⟨tail.1, tail.2, blit_inside tail.1 (by omega)⟩
      · exact Or.inl (blit_outside (by omega))

/-- The loop of `write_ram_physical_addr` follows its chunks. -/
theorem follows_writeLoop (fits : phyAddr + size ≤ 2 ^ 64)
    : (writeLoop g acc isKernelBuf phyAddr lpBuf size buf).Follows := by
  have left_le (k : Nat)
      : (if isKernelBuf then 0 else min (acc.remaining k) (chunkSize g phyAddr size k))
        ≤ chunkSize g phyAddr size k := by
    split
    · exact Nat.zero_le _
    · exact Nat.min_le_right _ _
  refine ⟨?_, ?_, ?_, ?_, ?_, ?_, ?_, ?_, ?_⟩
  · intro k _ writes
    exact (Access.WritesChunk.part writes _).2.2
  · intro k
    change acc.writePart isKernelBuf _ k ≤ _
    rw [Access.writePart]
    split
    · exact Nat.zero_le _
    · exact Nat.sub_le _ _
  · intro k reached fails
    exact Access.writePart_lt (chunkSize_pos g reached) fails
  · intro k
    exact Nat.le_refl _
  · intro k mem i inside
    have inside : i < acc.writePart isKernelBuf (chunkSize g phyAddr size) k := inside
    rw [Access.writePart] at inside
    simp only [writeLoop, CopyLoop.offset]
    split
    · next ptr =>
        rw [if_pos ptr] at inside
        contradiction
    · next ptr =>
        rw [if_neg ptr] at inside
        exact xCopyFromUser_inside acc mem buf inside
  · intro k mem a outside
    simp only [writeLoop, CopyLoop.offset, CopyLoop.chunk, Access.writePart] at outside ⊢
    split
    · exact Or.inl rfl
    · next ptr =>
        rw [if_neg ptr] at outside
        exact xCopyFromUser_around (left_le k) outside
  · intro k mem past
    have past : size ≤ chunkOffset g phyAddr size k := past
    change writeRamLoop _ _ _ _ _ _ _ (size - chunkOffset g phyAddr size k) _ _ = _
    rw [Nat.sub_eq_zero_of_le past, writeRamLoop_zero]
    rfl
  · intro k mem reached fails
    exact writeRamLoop_fails fits reached fails
  · intro k mem reached writes
    exact writeRamLoop_next fits reached writes

theorem readRamPhysicalAddr_counts (fits : phyAddr + size ≤ 2 ^ 64)
    : let r := readRamPhysicalAddr g total acc phyAddr lpBuf isKernelBuf size phys buf
      CountsChunks g lpBuf phyAddr size (acc.ReadFails total phyAddr size isKernelBuf)
        (acc.readPart isKernelBuf (chunkSize g phyAddr size)) (fun _ => 0) r
      ∧ CopiesCounted lpBuf phyAddr size phys buf r := by
  rw [readRamPhysicalAddr]
  cases range : checkPhysAddrValidRange total phyAddr size with
  | false =>
      exact ⟨countsChunks_refused (fun _ => Or.inl (Or.inl range)) (fun _ => rfl) buf,
        copiesCounted_refused buf⟩
  | true =>
      cases bounce : acc.noBounce with
      | true =>
          exact ⟨countsChunks_refused (fun _ => Or.inl (Or.inr bounce)) (fun _ => rfl) buf,
            copiesCounted_refused buf⟩
      | false =>
          have fails : acc.ReadFails total phyAddr size isKernelBuf
              = fun k => ¬acc.ReadsChunk isKernelBuf k := by
            funext k
            simp [Access.ReadFails, range, bounce]
          have entered : readRamLoop g acc phys isKernelBuf 0 phyAddr lpBuf size 0 buf
              = (readLoop g acc isKernelBuf phyAddr lpBuf size phys).loop 0 buf := by
            simp only [readLoop, chunkOffset_zero, Nat.add_zero, Nat.sub_zero]
            rcases Nat.eq_zero_or_pos size with rfl | positive
            · rw [readRamLoop_zero, readRamLoop_zero]
            · rw [wrap_of_lt (by omega)]
          have follows : (readLoop g acc isKernelBuf phyAddr lpBuf size phys).Follows :=
            follows_readLoop fits
          simp only [Bool.not_true, Bool.false_eq_true, if_false, fails, entered]
          exact follows.counts buf

theorem writeRamPhysicalAddr_counts (fits : phyAddr + size ≤ 2 ^ 64)
    : let part := acc.writePart isKernelBuf (chunkSize g phyAddr size)
      let counted := fun k => if checkPhysAddrValidRange total phyAddr size then part k else 0
      let r := writeRamPhysicalAddr g total acc phyAddr lpBuf isKernelBuf size buf phys
      CountsChunks g lpBuf phyAddr size (acc.WriteFails total phyAddr size isKernelBuf) part
        counted r
      ∧ CopiesCounted phyAddr lpBuf size buf phys r
      ∧ StoresNoMore acc phyAddr size phys r := by
  simp only [writeRamPhysicalAddr]
  cases range : checkPhysAddrValidRange total phyAddr size with
  | false =>
      refine ⟨countsChunks_refused (fun _ => Or.inl range) (fun _ => rfl) phys,
        copiesCounted_refused phys, ?_⟩
      intro i _ _
      exact Or.inl rfl
  | true =>
      have fails : acc.WriteFails total phyAddr size isKernelBuf
          = fun k => ¬acc.WritesChunk isKernelBuf k := by
        funext k
        simp [Access.WriteFails, range]
      have entered : writeRamLoop g acc buf isKernelBuf 0 phyAddr lpBuf size 0 phys
          = (writeLoop g acc isKernelBuf phyAddr lpBuf size buf).loop 0 phys := by
        simp only [writeLoop, chunkOffset_zero, Nat.add_zero, Nat.sub_zero]
        rcases Nat.eq_zero_or_pos size with rfl | positive
        · rw [writeRamLoop_zero, writeRamLoop_zero]
        · rw [wrap_of_lt (by omega)]
      have follows : (writeLoop g acc isKernelBuf phyAddr lpBuf size buf).Follows :=
        follows_writeLoop fits
      simp only [Bool.not_true, Bool.false_eq_true, if_false, if_true, fails, entered]
      obtain ⟨counts, copies⟩ := follows.counts phys
      refine ⟨counts, copies, ?_⟩
      obtain ⟨m, _, run⟩ := follows.exists_outcome phys
      have reach_eq : (writeLoop g acc isKernelBuf phyAddr lpBuf size buf).reach m
          = ((writeLoop g acc isKernelBuf phyAddr lpBuf size buf).loop 0 phys).done :=
        run.done.symm
      intro i behind inside
      rcases run.kept (phyAddr + i) (Or.inr (by rw [reach_eq]; exact Nat.add_le_add_left behind _))
        with same | ⟨zeroed, _, _, zero⟩
      · exact Or.inl same
      · exact Or.inr ⟨zeroed, zero⟩

/-- Both copy loops cut their range into consecutive chunks inside the pages. They count the whole
size exactly if nothing fails, else a read counts the chunks in front of the first that fails, and
a write also the bytes of this chunk that it stored.
-/
structure CountExactly (g : PageGeometry) (total : Nat) (acc : Access) (phyAddr lpBuf size : Nat)
    (isKernelBuf : Bool) (phys buf : Nat → UInt8) (read write : RamCopy)
    : Prop where
  pieces : CutIntoPages g phyAddr size
  readCounts
    : CountsChunks g lpBuf phyAddr size (acc.ReadFails total phyAddr size isKernelBuf)
        (acc.readPart isKernelBuf (chunkSize g phyAddr size)) (fun _ => 0) read
  readCopies : CopiesCounted lpBuf phyAddr size phys buf read
  writeCounts
    : CountsChunks g lpBuf phyAddr size (acc.WriteFails total phyAddr size isKernelBuf)
        (acc.writePart isKernelBuf (chunkSize g phyAddr size))
        (fun k =>
          if checkPhysAddrValidRange total phyAddr size then
            acc.writePart isKernelBuf (chunkSize g phyAddr size) k
          else 0)
        write
  writeCopies : CopiesCounted phyAddr lpBuf size buf phys write
  writesNoMore : StoresNoMore acc phyAddr size phys write

/-- Whatever fails, both copy loops count exactly, if the range does not wrap. -/
theorem ramCopies_countExactly (g : PageGeometry) (total : Nat) (acc : Access)
    (phyAddr lpBuf size : Nat) (isKernelBuf : Bool) (phys buf : Nat → UInt8)
    (fits : phyAddr + size ≤ 2 ^ 64)
    : CountExactly g total acc phyAddr lpBuf size isKernelBuf phys buf
        (readRamPhysicalAddr g total acc phyAddr lpBuf isKernelBuf size phys buf)
        (writeRamPhysicalAddr g total acc phyAddr lpBuf isKernelBuf size buf phys) := by
  obtain ⟨readCounts, readCopies⟩ := readRamPhysicalAddr_counts fits
  obtain ⟨writeCounts, writeCopies, writesNoMore⟩ := writeRamPhysicalAddr_counts fits
  exact ⟨cutIntoPages g phyAddr size, readCounts, readCopies, writeCounts, writeCopies,
    writesNoMore⟩

/-- Two pages of which the user copy of the second one leaves five bytes. -/
def secondLeavesFive : Access :=
  ⟨false, fun _ => false, fun _ => false, fun k => if k = 1 then 5 else 0, true⟩

theorem ramCopies_countExactly_secondLeavesFive
    : CountExactly ⟨12, by decide⟩ (2 ^ 30) secondLeavesFive 0x1ff0 0x40 0x20 false
        (fun _ => 1) (fun _ => 2)
        (readRamPhysicalAddr ⟨12, by decide⟩ (2 ^ 30) secondLeavesFive 0x1ff0 0x40 false 0x20
          (fun _ => 1) (fun _ => 2))
        (writeRamPhysicalAddr ⟨12, by decide⟩ (2 ^ 30) secondLeavesFive 0x1ff0 0x40 false 0x20
          (fun _ => 2) (fun _ => 1)) :=
  ramCopies_countExactly ⟨12, by decide⟩ (2 ^ 30) secondLeavesFive 0x1ff0 0x40 0x20 false
    (fun _ => 1) (fun _ => 2) (by decide)

end RwMem.Driver
