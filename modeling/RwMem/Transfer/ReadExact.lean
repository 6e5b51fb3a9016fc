import RwMem.Transfer.PagePieces

/-! What `rwmem_read` delivers from an address space with any mix of mapped, unmapped and
unreadable pages.
-/

namespace RwMem.Transfer

open Memory RwMem.Driver

/-- A read request returns `n`, the length of its range's prefix of translated and (unless
forced) readable pages, with that prefix in the buffer.
-/
structure ReadIsExact (g : PageGeometry) (space : AddressSpace) (phys : Nat → UInt8)
    (req : Request) (result : ReadResult) (n : Nat)
    : Prop where
  count
    : GoodPrefix (pageOffset g req.header.addr) req.size
        (PageAllowed g space req.header.addr PteBits.canRead req.header.force) n
  ret : result.ret = n
  delivered : ∀ i < n, space.byte? g phys (req.header.addr + i) = some (result.buf i)
  kept : ∀ i, n ≤ i → result.buf i = req.buf i

variable {P : Type}

/-- Every read request of an existing target is exact, for every address space, memory,
range, header and mode, when the header arrives, the permission check of the mode passes and
the physical accesses succeed.
-/
theorem rwmemRead_exact (k : Kernel P) (proc : Proc P) (ptes : P → PteBits)
    (space : AddressSpace) (phys : Nat → UInt8) (req : Request)
    (found : k.findGetPid req.header.pid = some proc)
    (realizes : Realizes k.geometry proc.getProcPhyAddr ptes space)
    (copied : k.headerLeft = 0)
    (permitted : req.header.force = false
      → checkProcMapCanRead proc.mm req.header.addr req.size = true)
    (succeed : ∀ l, pageOffset k.geometry req.header.addr l < req.size
      → PageAllowed k.geometry space req.header.addr PteBits.canRead req.header.force l
      → (k.access l).ReadOk k.phyTotalMemorySize
          (piecePhyAddr k.geometry space req.header.addr l)
          (piecePart k.geometry req.header.addr req.size l))
    : ∃ n, ReadIsExact k.geometry space phys req (rwmemRead k ptes phys req) n := by
  obtain ⟨m, stop, outcome⟩ := exists_readStop k proc ptes req.header.addr req.size
    req.header.force phys req.buf
  obtain ⟨last, pages⟩ := chunks_follow_pages realizes stop.before
  have stopPages := stopsAt_pages realizes stop
  have positive := k.geometry.pageSize_pos
  have whole : ∀ l < m, readMoved k proc req.header.addr req.size l
      = (scan k proc req.header.addr req.size).part l := by
    intro l before
    obtain ⟨reached, allowed, -, phyAddr, part⟩ := pages l before
    apply (Access.readMoves_eq_iff _ _ (Scan.part_pos (stop.before l before).1)).mpr
    rw [phyAddr, part]
    exact succeed l reached allowed
  have served := (Scan.forall_within_iff (readMoved_le k proc _ _)
    (fun l before => (stop.before l before).1)).mpr whole
  rw [rwmemRead_of_entered found copied permitted]
  refine ⟨(scan k proc req.header.addr req.size).start m, ?_, ?_, ?_, ?_⟩
  · rw [last]
    exact stopPages.goodPrefix (pieceStart_strictMono positive _).monotone
  · have small := req.size_lt
    have within := (scan k proc req.header.addr req.size).start_le m
    simp only [outcome.done]
    exact toSsize_of_lt (Nat.lt_of_le_of_lt within small)
  · intro i counted
    obtain ⟨l, low, before, inside⟩ := served i counted
    have place := (pages l before).phyAddr? (whole l before ▸ inside)
    rw [AddressSpace.byte?]
    refine (congrArg (Option.map phys) place).trans ?_
    exact congrArg some (outcome.delivered l low before i inside).symm
  · intro i past
    apply outcome.kept i
    intro member
    obtain ⟨l, _, before, inside⟩ := (outcome.moved i).mp member
    have counted := Scan.Within.lt_start (readMoved_le k proc _ _) before inside
    omega

/-- A forced read of 5000 bytes of a target whose pages are all mapped. -/
theorem rwmemRead_exact_oneUp
    : let g := arm64.toPageGeometry
      let k := quietKernel g (AddressSpace.oneUp.proc g)
      ∃ n,
        ReadIsExact g AddressSpace.oneUp UInt8.ofNat forcedRequest
          (rwmemRead k AddressSpace.oneUp.ptes UInt8.ofNat forcedRequest) n := by
  intro g k
  apply rwmemRead_exact k (AddressSpace.oneUp.proc g) AddressSpace.oneUp.ptes
    AddressSpace.oneUp UInt8.ofNat forcedRequest rfl (AddressSpace.oneUp.realizes_walk g) rfl
  · intro unforced
    exact absurd unforced (by decide)
  · intro l _ _
    exact Access.readOk_success

end RwMem.Transfer
