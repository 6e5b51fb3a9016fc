import RwMem.Transfer.PagePieces

/-! What `rwmem_write` stores in an address space with any mix of mapped, unmapped and
protected pages.
-/

namespace RwMem.Transfer

open Memory RwMem.Driver

variable {P : Type} {space : AddressSpace} {addr size : Nat}

/-- No two offsets of the range share a physical address. -/
def BytesApart (g : PageGeometry) (space : AddressSpace) (addr size : Nat) : Prop :=
  ∀ i < size, ∀ j < size, ∀ a,
    space.phyAddr? g (addr + i) = some a → space.phyAddr? g (addr + j) = some a → i = j

/-- The pages that the range touches have pairwise distinct frames. -/
def FramesDistinct (g : PageGeometry) (space : AddressSpace) (addr size : Nat) : Prop :=
  ∀ i < size, ∀ j < size, ∀ p q,
    space.pageOf g (addr + i) = some p
    → space.pageOf g (addr + j) = some q
    → p.frame = q.frame
    → pageNumber g (addr + i) = pageNumber g (addr + j)

/-- Distinct frames keep the bytes of the range apart, since a range of less than `2 ^ 63`
bytes does not meet an address twice.
-/
theorem FramesDistinct.bytesApart {g : PageGeometry}
    (distinct : FramesDistinct g space addr size) (small : size < 2 ^ 63)
    : BytesApart g space addr size := by
  intro i below j below' a place place'
  obtain ⟨p, page, here⟩ := Option.map_eq_some_iff.mp place
  obtain ⟨q, page', here'⟩ := Option.map_eq_some_iff.mp place'
  have offset : (addr + i) % g.pageSize = (addr + j) % g.pageSize := by
    have both := congrArg (fun n => n % g.pageSize) (here.trans here'.symm)
    simpa only [Nat.mul_add_mod_self_right, Nat.mod_mod] using both
  have frame : p.frame = q.frame := by
    have both := here.trans here'.symm
    rw [offset] at both
    exact Nat.eq_of_mul_eq_mul_right g.pageSize_pos (Nat.add_right_cancel both)
  have number := distinct i below j below' p q page page' frame
  have same : wrap (addr + i) = wrap (addr + j) := by
    rw [← Nat.div_add_mod (wrap (addr + i)) g.pageSize,
      ← Nat.div_add_mod (wrap (addr + j)) g.pageSize, wrap_mod_pageSize, wrap_mod_pageSize,
      offset]
    exact congrArg (fun n => g.pageSize * n + (addr + j) % g.pageSize) number
  simp only [wrap] at same
  omega

/-- Every physical access that the write makes succeeds. -/
def WritesSucceed (k : Kernel P) (space : AddressSpace) (addr size : Nat) (force : Bool)
    : Prop :=
  ∀ l,
    pageOffset k.geometry addr l < size
    → PageAllowed k.geometry space addr PteBits.canWrite force l
    → (k.access l).WriteOk k.phyTotalMemorySize (piecePhyAddr k.geometry space addr l)
        (piecePart k.geometry addr size l)

/-- A write of the `size` bytes behind the header of `buf` returns `n`, the length of the
range's prefix of translated and (unless forced) writable pages. Exactly that prefix is
stored, and the page-table entries are as before.
-/
structure WriteIsExact (g : PageGeometry) (space : AddressSpace) (ptes : P → PteBits)
    (phys : Nat → UInt8) (addr : Nat) (force : Bool) (payload : List UInt8)
    (result : WriteResult P) (n : Nat)
    : Prop where
  count
    : GoodPrefix (pageOffset g addr) payload.length
        (PageAllowed g space addr PteBits.canWrite force) n
  ret : result.ret = n
  stored : ∀ i < n, space.byte? g result.phys (addr + i) = payload[i]?
  kept : ∀ a, (∀ i < n, space.phyAddr? g (addr + i) ≠ some a) → result.phys a = phys a
  entries : result.ptes = ptes

variable {k : Kernel P} {proc : Proc P} {ptes : P → PteBits}

/-- Every place that an access may store to belongs to an offset of its chunk. -/
theorem exists_offset_of_storesAt {l a : Nat} (stores : StoresAt k proc addr size l a)
    : ∃ i,
        (scan k proc addr size).Within l ((scan k proc addr size).part l) i
        ∧ (scan k proc addr size).phyAddr l + (i - (scan k proc addr size).start l) = a := by
  obtain ⟨low, high⟩ := stores
  refine ⟨(scan k proc addr size).start l + (a - (scan k proc addr size).phyAddr l),
    ⟨?_, ?_⟩, ?_⟩ <;> omega

variable [DecidableEq P]

/-- A write whose accesses succeed is exact for the payload behind its header, and the bytes
that were moved are those it counts.
-/
theorem rwmemWrite_isExact (phys : Nat → UInt8) {req : Request} {h : Header}
    {payload : List UInt8}
    (header : req.header = h) (found : k.findGetPid h.pid = some proc)
    (realizes : Realizes k.geometry proc.getProcPhyAddr ptes space)
    (distinct : FramesDistinct k.geometry space h.addr req.size)
    (copied : k.headerLeft = 0)
    (permitted : h.force = false → checkProcMapCanWrite proc.mm h.addr req.size = true)
    (succeed : WritesSucceed k space h.addr req.size h.force)
    (length : payload.length = req.size)
    (behind : ∀ i < req.size, payload[i]? = some (req.buf (17 + i)))
    : ∃ n ≤ req.size,
        WriteIsExact k.geometry space ptes phys h.addr h.force payload
          (rwmemWrite k ptes phys req) n
        ∧ ∀ i, Moved 17 (rwmemWrite k ptes phys req).chunks i ↔ i < n := by
  subst header
  obtain ⟨m, stop, outcome⟩ := exists_writeStop k proc ptes req.header.addr req.size
    req.header.force req.buf phys
  obtain ⟨last, pages⟩ := chunks_follow_pages realizes stop.before
  have stopPages := stopsAt_pages realizes stop
  have positive := k.geometry.pageSize_pos
  have whole : ∀ l < m, writeMoved k proc req.header.addr req.size l
      = (scan k proc req.header.addr req.size).part l := by
    intro l before
    obtain ⟨reached, allowed, -, phyAddr, part⟩ := pages l before
    apply (Access.writeMoves_eq_iff _ _ (Scan.part_pos (stop.before l before).1)).mpr
    rw [phyAddr, part]
    exact succeed l reached allowed
  have le := writeMoved_le k proc req.header.addr req.size
  have served := (Scan.forall_within_iff le (fun l before => (stop.before l before).1)).mpr whole
  have within := (scan k proc req.header.addr req.size).start_le m
  have place {l i : Nat} (before : l < m)
      (inside : (scan k proc req.header.addr req.size).Within l
        ((scan k proc req.header.addr req.size).part l) i)
      : space.phyAddr? k.geometry (req.header.addr + i)
        = some ((scan k proc req.header.addr req.size).phyAddr l
            + (i - (scan k proc req.header.addr req.size).start l)) :=
    (pages l before).phyAddr? inside
  rw [rwmemWrite_of_entered found copied permitted]
  refine ⟨(scan k proc req.header.addr req.size).start m, within,
    ⟨?_, ?_, ?_, ?_, outcome.ptes⟩, ?_⟩
  · rw [length, last]
    exact stopPages.goodPrefix (pieceStart_strictMono positive _).monotone
  · have small := req.size_lt
    simp only [outcome.done]
    exact toSsize_of_lt (Nat.lt_of_le_of_lt within small)
  · intro i counted
    obtain ⟨l, low, before, inside⟩ := served i counted
    have inPart := whole l before ▸ inside
    rw [behind i (Nat.lt_of_lt_of_le counted within), AddressSpace.byte?, place before inPart]
    apply congrArg some
    apply outcome.stored l low before i inside
    -- a later access stores to other offsets, so to other places
    intro l' later before' stores
    obtain ⟨i', inside', here⟩ := exists_offset_of_storesAt stores
    have counted' := Scan.Within.lt_start (fun l => Nat.le_refl _) before' inside'
    have same := distinct.bytesApart req.size_lt i (Nat.lt_of_lt_of_le counted within) i'
      (Nat.lt_of_lt_of_le counted' within) _ (place before inPart)
      ((place before' inside').trans (congrArg some here))
    have ordered := Scan.Within.lt_start le (Nat.lt_succ_self l) inside
    have order := (scan k proc req.header.addr req.size).start_mono (Nat.succ_le_of_lt later)
    have start' := inside'.1
    omega
  · intro a outside
    apply outcome.kept a
    intro l _ before stores
    obtain ⟨i, inside, here⟩ := exists_offset_of_storesAt stores
    apply outside i (Scan.Within.lt_start (fun l => Nat.le_refl _) before inside)
    exact (place before inside).trans (congrArg some here)
  · intro i
    refine (outcome.moved i).trans ⟨?_, served i⟩
    intro ⟨l, _, before, inside⟩
    exact Scan.Within.lt_start le before inside

end RwMem.Transfer
