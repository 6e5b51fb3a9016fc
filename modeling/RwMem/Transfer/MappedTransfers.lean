import RwMem.Memory.Mapping
import RwMem.Transfer.ReadExact
import RwMem.Transfer.WriteExact

/-! The transfer loops as accesses to the target's mapping, byte after byte and without pages.
-/

namespace RwMem.Driver

open Memory

variable (g : PageGeometry) (space : AddressSpace)

/-- The entry of an address has a bit. -/
def AddressSpace.permits (bit : PteBits → Bool) (a : UInt64) : Bool :=
  (space.pageOf g a.toNat).any (fun p => bit p.bits)

/-- The mapping of an address space: the physical addresses of its bytes, and the bits of their
entries.
-/
def AddressSpace.mapping : Mapping UInt64 Nat where
  place a := space.phyAddr? g a.toNat
  canRead := space.permits g PteBits.canRead
  canWrite := space.permits g PteBits.canWrite

/-- The addresses from one on, which wrap at the end of the address space. -/
def addrRange (addr : UInt64) (i : Nat) : UInt64 := addr + UInt64.ofNat i

theorem toNat_addrRange (addr : UInt64) (i : Nat)
    : (addrRange addr i).toNat = wrap (addr.toNat + i) := by
  rw [addrRange, UInt64.toNat_add, UInt64.toNat_ofNat', wrap, Nat.add_mod_mod]

theorem pageOf_addrRange (addr : UInt64) (i : Nat)
    : space.pageOf g (addrRange addr i).toNat = space.pageOf g (addr.toNat + i) := by
  rw [AddressSpace.pageOf, AddressSpace.pageOf, toNat_addrRange, pageNumber, pageNumber,
    wrap_of_lt (wrap_lt _)]

@[simp] theorem place_mapping (addr : UInt64) (i : Nat)
    : (space.mapping g).place (addrRange addr i) = space.phyAddr? g (addr.toNat + i) := by
  change space.phyAddr? g (addrRange addr i).toNat = _
  rw [AddressSpace.phyAddr?, AddressSpace.phyAddr?, pageOf_addrRange, toNat_addrRange,
    wrap_mod_pageSize]

end RwMem.Driver

namespace RwMem.Transfer

open Memory RwMem.Driver

variable {P : Type}

section Pages

variable {g : PageGeometry} {space : AddressSpace} {addr : UInt64}

/-- The addresses of a page go on as the page is allowed. -/
theorem goesOn_iff_pageAllowed (bit : PteBits → Bool) (force : Bool) {k i : Nat}
    (low : pageOffset g addr.toNat k ≤ i) (high : i < pageOffset g addr.toNat (k + 1))
    : (space.mapping g).goesOn (addrRange addr) (space.permits g bit) force i = true
      ↔ PageAllowed g space addr.toNat bit force k := by
  have page : space.pageOf g (addr.toNat + i)
      = space.pageOf g (addr.toNat + pageOffset g addr.toNat k) := by
    rw [AddressSpace.pageOf, pageNumber_of_mem_piece g low high, ← AddressSpace.pageOf]
  rw [Mapping.goesOn, place_mapping, AddressSpace.phyAddr?, AddressSpace.permits,
    pageOf_addrRange, page, PageAllowed]
  cases space.pageOf g (addr.toNat + pageOffset g addr.toNat k) with
  | none => simp
  | some p => simp

/-- A prefix of allowed pages is as long as an access to the mapping gets. -/
theorem eq_frontLength_of_goodPrefix {size n : Nat} {bit : PteBits → Bool} {force : Bool}
    (counted : GoodPrefix (pageOffset g addr.toNat) size
      (PageAllowed g space addr.toNat bit force) n)
    : n = frontLength
        ((space.mapping g).goesOn (addrRange addr) (space.permits g bit) force) size := by
  have front := counted.isFront pieceStart_zero (pieceStart_strictMono g.pageSize_pos addr.toNat)
    (fun k i low high => goesOn_iff_pageAllowed bit force low high)
  exact front.unique (isFront_frontLength _ size)

end Pages

/-- No access to a frame of the address space fails. -/
structure FramesServed (k : Kernel P) (space : AddressSpace) : Prop where
  reads
    : ∀ l number p,
        space.page number = some p
        → ∀ offset size,
            offset + size ≤ k.geometry.pageSize
            → (k.access l).ReadOk k.phyTotalMemorySize
                (p.frame * k.geometry.pageSize + offset) size
  writes
    : ∀ l number p,
        space.page number = some p
        → ∀ offset size,
            offset + size ≤ k.geometry.pageSize
            → (k.access l).WriteOk k.phyTotalMemorySize
                (p.frame * k.geometry.pageSize + offset) size

/-- Where a transfer stops whose accesses all move their chunks. -/
structure Served (s : Scan P) (space : AddressSpace) (bit : PteBits → Bool) (force : Bool)
    (addr : UInt64) (moved : Nat → Nat) (m : Nat)
    : Prop where
  length
    : s.start m
      = frontLength
          ((space.mapping s.geometry).goesOn (addrRange addr) (space.permits s.geometry bit) force)
          s.size
  within : ∀ i, (∃ l, 0 ≤ l ∧ l < m ∧ s.Within l (moved l) i) ↔ i < s.start m
  pages : ∀ l < m, FollowsPage s space bit force l
  whole : ∀ l < m, moved l = s.part l

/-- A page's part of a range lies in the frame of the page. -/
theorem FollowsPage.inFrame {s : Scan P} {space : AddressSpace} {bit : PteBits → Bool}
    {force : Bool} {l : Nat} (page : FollowsPage s space bit force l)
    : ∃ number p offset,
        space.page number = some p
        ∧ s.phyAddr l = p.frame * s.geometry.pageSize + offset
        ∧ offset + s.part l ≤ s.geometry.pageSize := by
  obtain ⟨p, mapped, -⟩ := page.allowed
  have inside := Nat.mod_lt (s.addr + pageOffset s.geometry s.addr l) s.geometry.pageSize_pos
  have part := s.part_inPage l
  rw [page.phyAddr, piecePhyAddr_mod mapped] at part
  refine ⟨_, p, (s.addr + pageOffset s.geometry s.addr l) % s.geometry.pageSize, mapped, ?_, ?_⟩
  · rw [page.phyAddr, piecePhyAddr_of_mapped mapped]
  · omega

theorem served_of_stop {s : Scan P} {space : AddressSpace} {bit : PteBits → Bool} {force : Bool}
    {ptes : P → PteBits} {addr : UInt64} {moved : Nat → Nat} {m : Nat}
    (realizes : Realizes s.geometry s.walk ptes space) (start : s.addr = addr.toNat)
    (stop : StopsAt s.start s.size (s.Allowed bit ptes force) m)
    (le : ∀ l, moved l ≤ s.part l)
    (succeed : ∀ l < m, FollowsPage s space bit force l → moved l = s.part l)
    : Served s space bit force addr moved m := by
  obtain ⟨last, pages⟩ := chunks_follow_pages realizes stop.before
  have positive := s.geometry.pageSize_pos
  have whole : ∀ l < m, moved l = s.part l := fun l before => succeed l before (pages l before)
  have served := (Scan.forall_within_iff le (fun l before => (stop.before l before).1)).mpr whole
  have counted := (stopsAt_pages realizes stop).goodPrefix
    (pieceStart_strictMono positive s.addr).monotone
  refine ⟨?_, ?_, pages, whole⟩
  · rw [last]
    rw [start] at counted ⊢
    exact eq_frontLength_of_goodPrefix counted
  · intro i
    refine ⟨?_, served i⟩
    intro ⟨l, _, before, inside⟩
    exact Scan.Within.lt_start le before inside

-----------------------------------------------------------------------------------------
-- Reads
-----------------------------------------------------------------------------------------

variable {k : Kernel P} {proc : Proc P} {ptes : P → PteBits} {space : AddressSpace}
variable {pid : Int32} {addr : UInt64} {force : Bool}

/-- A read request is the read of the mapping: it returns how far it gets, and delivers exactly
the bytes up to there.
-/
structure ReadIsMapped (g : PageGeometry) (space : AddressSpace) (phys : Nat → UInt8)
    (addr : UInt64) (force : Bool) (size : Nat) (result : ReadResult)
    : Prop where
  ret : result.ret = (space.mapping g).readLength (addrRange addr) force size
  moved
    : ∀ i,
        Moved 0 result.chunks i
        ↔ i < (space.mapping g).readLength (addrRange addr) force size
  delivered
    : ∀ i < (space.mapping g).readLength (addrRange addr) force size,
        ((space.mapping g).place (addrRange addr i)).map phys = some (result.buf i)

theorem rwmemRead_isMapped (phys : Nat → UInt8) {req : Request}
    (header : req.header = ⟨pid, addr.toNat, force⟩) (found : k.findGetPid pid = some proc)
    (realizes : Realizes k.geometry proc.getProcPhyAddr ptes space) (copied : k.headerLeft = 0)
    (permitted : force = false → checkProcMapCanRead proc.mm addr.toNat req.size = true)
    (served : FramesServed k space)
    : ReadIsMapped k.geometry space phys addr force req.size (rwmemRead k ptes phys req) := by
  obtain ⟨m, stop, outcome⟩ := exists_readStop k proc ptes addr.toNat req.size force phys req.buf
  have upTo := served_of_stop realizes rfl stop (readMoved_le k proc addr.toNat req.size)
    (fun l before page => by
      obtain ⟨number, p, offset, mapped, phyAddr, inPage⟩ := page.inFrame
      apply (Access.readMoves_eq_iff _ _ (Scan.part_pos (stop.before l before).1)).mpr
      rw [phyAddr]
      exact served.reads l number p mapped offset _ inPage)
  have length : (scan k proc addr.toNat req.size).start m
      = (space.mapping k.geometry).readLength (addrRange addr) force req.size := upTo.length
  have within : (scan k proc addr.toNat req.size).start m ≤ req.size := Scan.start_le _ m
  have target : k.findGetPid req.header.pid = some proc := header ▸ found
  have entered : rwmemRead k ptes phys req = _ :=
    rwmemRead_of_entered target copied (header ▸ permitted)
  rw [entered, header]
  refine { ret := ?_, moved := ?_, delivered := ?_ }
  · rw [← length]
    simp only [outcome.done]
    exact toSsize_of_lt (Nat.lt_of_le_of_lt within req.size_lt)
  · intro i
    rw [← length]
    exact (outcome.moved i).trans (upTo.within i)
  · intro i below
    rw [← length] at below
    obtain ⟨l, low, before, inside⟩ := (upTo.within i).mpr below
    have place := (upTo.pages l before).phyAddr? (upTo.whole l before ▸ inside)
    rw [place_mapping]
    refine (congrArg (Option.map phys) place).trans ?_
    exact congrArg some (outcome.delivered l low before i inside).symm

-----------------------------------------------------------------------------------------
-- Writes
-----------------------------------------------------------------------------------------

variable [DecidableEq P]

/-- A write request is the write of its payload to the mapping, and leaves the entries. Where two
addresses share a byte the later one of the range counts.
-/
structure WriteIsMapped (g : PageGeometry) (space : AddressSpace) (ptes : P → PteBits)
    (phys : Nat → UInt8) (addr : UInt64) (force : Bool) (payload : List UInt8)
    (result : WriteResult P)
    : Prop where
  ret : result.ret = ((space.mapping g).write (addrRange addr) phys force payload).1
  phys : result.phys = ((space.mapping g).write (addrRange addr) phys force payload).2
  entries : result.ptes = ptes

theorem rwmemWrite_isMapped (phys : Nat → UInt8) {req : Request} {payload : List UInt8}
    (header : req.header = ⟨pid, addr.toNat, force⟩) (found : k.findGetPid pid = some proc)
    (realizes : Realizes k.geometry proc.getProcPhyAddr ptes space) (copied : k.headerLeft = 0)
    (permitted : force = false → checkProcMapCanWrite proc.mm addr.toNat req.size = true)
    (served : FramesServed k space) (length : payload.length = req.size)
    (behind : ∀ i < req.size, payload[i]? = some (req.buf (17 + i)))
    : WriteIsMapped k.geometry space ptes phys addr force payload
        (rwmemWrite k ptes phys req) := by
  obtain ⟨m, stop, outcome⟩ := exists_writeStop k proc ptes addr.toNat req.size force req.buf phys
  have le := writeMoved_le k proc addr.toNat req.size
  have upTo := served_of_stop realizes rfl stop le
    (fun l before page => by
      obtain ⟨number, p, offset, mapped, phyAddr, inPage⟩ := page.inFrame
      apply (Access.writeMoves_eq_iff _ _ (Scan.part_pos (stop.before l before).1)).mpr
      rw [phyAddr]
      exact served.writes l number p mapped offset _ inPage)
  have reach : (scan k proc addr.toNat req.size).start m
      = (space.mapping k.geometry).writeLength (addrRange addr) force payload.length :=
    length ▸ upTo.length
  have within : (scan k proc addr.toNat req.size).start m ≤ req.size := Scan.start_le _ m
  have target : k.findGetPid req.header.pid = some proc := header ▸ found
  have entered : rwmemWrite k ptes phys req = _ :=
    rwmemWrite_of_entered target copied (header ▸ permitted)
  have place {l i : Nat} (before : l < m)
      (inside : (scan k proc addr.toNat req.size).Within l
        ((scan k proc addr.toNat req.size).part l) i)
      : (space.mapping k.geometry).place (addrRange addr i)
        = some ((scan k proc addr.toNat req.size).phyAddr l
            + (i - (scan k proc addr.toNat req.size).start l)) := by
    rw [place_mapping]
    exact (upTo.pages l before).phyAddr? inside
  have taken : (payload.take ((scan k proc addr.toNat req.size).start m)).length
      = (scan k proc addr.toNat req.size).start m :=
    List.length_take_of_le (length ▸ within)
  rw [entered, header]
  refine { ret := ?_, phys := ?_, entries := outcome.ptes }
  · rw [Mapping.write, ← reach]
    simp only [outcome.done]
    exact toSsize_of_lt (Nat.lt_of_le_of_lt within req.size_lt)
  · rw [Mapping.write, ← reach]
    apply Mapping.eq_save
    · intro i a below here last
      rw [taken] at below last
      obtain ⟨l, low, before, inside⟩ := (upTo.within i).mpr below
      have inPart := upTo.whole l before ▸ inside
      have byte : payload[i]? = some (req.buf (17 + i)) :=
        behind i (Nat.lt_of_lt_of_le below within)
      have same := Option.some.inj ((place before inPart).symm.trans here)
      subst same
      have stored := outcome.stored l low before i inside ?_
      · rw [List.getElem_take]
        rw [List.getElem?_eq_getElem (by rw [length]; exact Nat.lt_of_lt_of_le below within)] at byte
        exact stored.trans (Option.some.inj byte).symm
      · -- a later access that stores here does so for a later address
        intro l' later before' stores
        obtain ⟨j, inside', there⟩ := exists_offset_of_storesAt stores
        have below' := Scan.Within.lt_start (fun l => Nat.le_refl _) before' inside'
        have ordered : i < (scan k proc addr.toNat req.size).start (l + 1) :=
          Scan.Within.lt_start le (Nat.lt_succ_self l) inside
        have order : (scan k proc addr.toNat req.size).start (l + 1)
            ≤ (scan k proc addr.toNat req.size).start l' := Scan.start_mono _ later
        have start' := inside'.1
        refine last j (by omega) below' ?_
        exact (place before' inside').trans (congrArg some there)
    · intro a outside
      rw [taken] at outside
      apply outcome.kept a
      intro l _ before stores
      obtain ⟨i, inside, here⟩ := exists_offset_of_storesAt stores
      apply outside i (Scan.Within.lt_start (fun l => Nat.le_refl _) before inside)
      exact (place before inside).trans (congrArg some here)

end RwMem.Transfer
