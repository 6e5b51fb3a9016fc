import RwMem.Client.Device
import RwMem.Server.FastMemory
import RwMem.Transfer.Counts

/-! The entry points of the driver in this repository as the driver behind the server, and a read
that the two forms of the server's function answer differently.
-/

namespace RwMem.Server

open Memory RwMem.Driver RwMem.Client RwMem.Transfer Transition

variable {P : Type}

instance (shift : Nat) (chunks : List Chunk) (i : Nat) : Decidable (Moved shift chunks i) :=
  inferInstanceAs (Decidable (∃ c ∈ chunks, _))

section ReadCalls

variable (k : Kernel P) (ptes : P → PteBits) (phys : Nat → UInt8)

/-- Two reads into different buffers return the same and store the same, in their range only. -/
structure StoresAlike (size : Nat) (buf' : Nat → UInt8) (result result' : ReadResult) : Prop where
  ret : result'.ret = result.ret
  ret_le : result.ret ≤ size
  inside : ∀ i, Moved 0 result.chunks i → i < size
  buf : ∀ i, result'.buf i = if Moved 0 result.chunks i then result.buf i else buf' i

/-- A read that is refused stores nothing. -/
theorem storesAlike_refused (size : Nat) (buf buf' : Nat → UInt8) {ret : Int} (negative : ret ≤ 0)
    : StoresAlike size buf' ⟨ret, buf, []⟩ ⟨ret, buf', []⟩ where
  ret := rfl
  ret_le := Int.le_trans negative (Int.natCast_nonneg size)
  inside i moved := absurd moved (not_moved_nil 0 i)
  buf i := (if_neg (not_moved_nil 0 i)).symm

theorem toSsize_le (n : Nat) : toSsize n ≤ n := by
  rw [toSsize]
  split <;> omega

/-- The loop of a read does not depend on what is in the buffer. -/
theorem storesAlike_loop (proc : Proc P) (addr size : Nat) (force : Bool) (buf buf' : Nat → UInt8)
    : let run := rwmemReadLoop k proc ptes phys addr size force 0 0 buf
      let run' := rwmemReadLoop k proc ptes phys addr size force 0 0 buf'
      StoresAlike size buf' ⟨toSsize run.done, run.mem, run.chunks⟩
        ⟨toSsize run'.done, run'.mem, run'.chunks⟩ := by
  intro run run'
  obtain ⟨m, stop, outcome⟩ := exists_readStop k proc ptes addr size force phys buf
  have outcome' : ReadOutcome k proc addr size phys m 0 buf' run' :=
    rwmemReadLoop_outcome stop (Nat.zero_add m) phys buf'
  have short : run.done ≤ size := outcome.done ▸ (scan k proc addr size).start_le m
  refine ⟨?_, ?_, ?_, ?_⟩
  · exact congrArg toSsize (outcome'.done.trans outcome.done.symm)
  · exact Int.le_trans (toSsize_le run.done) (Int.ofNat_le.mpr short)
  · intro i moved
    obtain ⟨l, _, before, _, high⟩ := (outcome.moved i).mp moved
    have part := readMoved_le k proc addr size l
    have next := (scan k proc addr size).start_le (l + 1)
    rw [Scan.start_succ] at next
    exact Nat.lt_of_lt_of_le high (Nat.le_trans (Nat.add_le_add_left part _) next)
  · intro i
    dsimp only
    split
    · next moved =>
        obtain ⟨l, first, before, within⟩ := (outcome.moved i).mp moved
        rw [outcome'.delivered l first before i within]
        exact (outcome.delivered l first before i within).symm
    · next left =>
        refine outcome'.kept i (fun moved => left ?_)
        exact (outcome.moved i).mpr ((outcome'.moved i).mp moved)

/-- A call of `read` depends on the buffer only by the request in front of it. -/
theorem storesAlike_rwmemRead (req req' : Request) (sameSize : req'.size = req.size)
    (sameHeader : req'.header = req.header)
    : StoresAlike req.size req'.buf (rwmemRead k ptes phys req) (rwmemRead k ptes phys req') := by
  simp only [rwmemRead, sameSize, sameHeader]
  split
  · cases k.findGetPid req.header.pid with
    | none => exact storesAlike_refused req.size req.buf req'.buf (by decide)
    | some proc =>
        dsimp only
        split
        · exact storesAlike_refused req.size req.buf req'.buf (by decide)
        · exact storesAlike_loop k ptes phys proc _ req.size _ req.buf req'.buf
  · exact storesAlike_refused req.size req.buf req'.buf (by decide)

/-- What a call of `read` with this request does to any buffer behind it. -/
def readReply (request : List UInt8) (size : Nat) (size_lt : size < 2 ^ 63) : ReadReply size :=
  let result := rwmemRead k ptes phys ⟨userBuf request, size, size_lt⟩
  have alike := storesAlike_rwmemRead k ptes phys ⟨userBuf request, size, size_lt⟩ _ rfl rfl
  { ret := result.ret
    stores i := if Moved 0 result.chunks i then some (result.buf i) else none
    ret_le := alike.ret_le
    inside i stored := by
      by_cases moved : Moved 0 result.chunks i
      · exact alike.inside i moved
      · rw [if_neg moved] at stored
        exact absurd stored Bool.false_ne_true }

/-- The reply is that of the driver, for every buffer that the request stands in front of. -/
theorem readReply_apply {request : List UInt8} (long : request.length = 17) {req : Request}
    (front : cells req.buf 0 17 = request)
    : let reply := readReply k ptes phys request req.size req.size_lt
      (rwmemRead k ptes phys req).ret = reply.ret
      ∧ (rwmemRead k ptes phys req).buf = reply.apply req.buf := by
  intro reply
  have there := cells_userBuf request []
  rw [List.append_nil, long] at there
  have sameHeader : req.header = Request.header ⟨userBuf request, req.size, req.size_lt⟩ :=
    congrArg decodeHeader (front.trans there.symm)
  have alike := storesAlike_rwmemRead k ptes phys ⟨userBuf request, req.size, req.size_lt⟩ req rfl
    sameHeader
  refine ⟨alike.ret, funext fun i => ?_⟩
  rw [alike.buf i]
  simp only [reply, ReadReply.apply, readReply]
  split <;> rfl

end ReadCalls

/-- The kernel's memory, and the number of calls so far. -/
structure KernelState (P : Type) where
  calls : Nat
  ptes : P → PteBits
  phys : Nat → UInt8

/-- The driver of this repository, with the kernel that is around each of its calls. Linux refuses
counts that are negative as `ssize_t`.
-/
def kernelDriver [DecidableEq P] (kernel : Nat → Kernel P) : MemoryDriver (KernelState P) where
  read s request size :=
    if small : size < 2 ^ 63 then
      (readReply (kernel s.calls) s.ptes s.phys request size small,
        { s with calls := s.calls + 1 })
    else
      (⟨-EINVAL, fun _ => none, Int.le_trans (by decide) (Int.natCast_nonneg size),
        fun _ stored => absurd stored Bool.false_ne_true⟩, { s with calls := s.calls + 1 })
  write s request payload :=
    if small : payload.length < 2 ^ 63 then
      let result := rwmemWrite (kernel s.calls) s.ptes s.phys
        ⟨userBuf (request ++ payload), payload.length, small⟩
      (result.ret, ⟨s.calls + 1, result.ptes, result.phys⟩)
    else (-EINVAL, { s with calls := s.calls + 1 })

/-- A driver whose count is true leaves nothing that it reports. -/
theorem isFilled_of_neverOverReports [DecidableEq P] {kernel : Nat → Kernel P} (nDriverLink : Int)
    {s : KernelState P} {r : MemoryRequest} (small : r.nSize < 2 ^ 63)
    (right : NeverOverReports 0
      (rwmemRead (kernel s.calls) s.ptes s.phys ⟨userBuf r.bytes, r.nSize, small⟩).ret
      (rwmemRead (kernel s.calls) s.ptes s.phys ⟨userBuf r.bytes, r.nSize, small⟩).chunks)
    : (MemoryCall.read r).IsFilled (kernelDriver kernel) nDriverLink s := by
  intro _ i _ reported left
  simp only [kernelDriver, dif_pos small, readReply] at reported left
  rw [if_pos (right i reported)] at left
  exact absurd left (Option.some_ne_none _)

/-- A forced read of 5000 bytes of process 42 into a buffer that is not clear. -/
def notClear : MemoryRequest where
  hProcess := 42
  lpBaseAddress := 0x1000
  lpBuffer _ := 1
  nSize := 5000
  lpNumberOfBytes := none
  bIsForce := 1
  nSize_le := by decide

def noBounceState : KernelState Nat := ⟨0, AddressSpace.oneUp.ptes, UInt8.ofNat⟩

/-- Without bounce buffers the loop of a forced read counts all bytes and moves none. -/
theorem rwmemReadLoop_noBounce (addr size : Nat) (phys buf : Nat → UInt8)
    : let run := rwmemReadLoop noBounceKernel (AddressSpace.oneUp.proc arm64.toPageGeometry)
        AddressSpace.oneUp.ptes phys addr size true 0 0 buf
      run.done = size ∧ ∀ i, ¬Moved 0 run.chunks i := by
  intro run
  obtain ⟨m, stop, outcome⟩ := exists_readStop noBounceKernel
    (AddressSpace.oneUp.proc arm64.toPageGeometry) AddressSpace.oneUp.ptes addr size true phys buf
  constructor
  · have allowed := allowed_oneUp noBounceKernel PteBits.canRead addr size m
    have ended := stop.here.resolve_right (not_not_intro allowed)
    exact outcome.done.trans (Nat.le_antisymm (Scan.start_le _ m) ended)
  · intro i moved
    obtain ⟨l, _, _, low, high⟩ := (outcome.moved i).mp moved
    have nothing : readMoved noBounceKernel (AddressSpace.oneUp.proc arm64.toPageGeometry) addr size
        l = 0 := by
      simp [readMoved, Access.readMoves, noBounceKernel]
    omega

/-- The driver then reports all bytes of a forced read and stores none. -/
theorem rwmemRead_forced {req : Request} (forced : req.header.force = true) (phys : Nat → UInt8)
    : (rwmemRead noBounceKernel AddressSpace.oneUp.ptes phys req).ret = req.size
      ∧ ∀ i, ¬Moved 0 (rwmemRead noBounceKernel AddressSpace.oneUp.ptes phys req).chunks i := by
  have found : noBounceKernel.findGetPid req.header.pid
      = some (AddressSpace.oneUp.proc arm64.toPageGeometry) := rfl
  obtain ⟨done, moved⟩ := rwmemReadLoop_noBounce req.header.addr req.size phys req.buf
  rw [rwmemRead_of_entered found rfl (fun unforced => Bool.noConfusion (forced ▸ unforced)), forced]
  exact ⟨(congrArg toSsize done).trans (toSsize_of_lt req.size_lt), moved⟩

theorem readReply_noBounce (size_lt : 5000 < 2 ^ 63)
    : let reply := readReply noBounceKernel noBounceState.ptes noBounceState.phys notClear.bytes
        5000 size_lt
      reply.ret = 5000 ∧ ∀ i, reply.stores i = none := by
  intro reply
  have header : decodeHeader (cells (userBuf notClear.bytes) 0 17)
      = ⟨42, 0x1000, true⟩ := by decide +kernel
  have forced : (Request.header ⟨userBuf notClear.bytes, 5000, size_lt⟩).force = true := by
    rw [Request.header, header]
  obtain ⟨ret, moved⟩ := rwmemRead_forced forced noBounceState.phys
  exact ⟨ret, fun i => if_neg (moved i)⟩

/-- The plain read leaves the bytes of the caller's buffer that were not stored in, and the fast
read gives zeros for them.
-/
theorem not_fast_agrees
    : ¬∀ d acts, Throughout (compareStep (kernelDriver (fun _ => noBounceKernel)) 3)
        Compared.Agrees (Compared.initial d) acts := by
  intro always
  let driver := kernelDriver (fun _ => noBounceKernel)
  let act : MemoryCall × (Nat → UInt8) := (.read notClear, fun _ => 0)
  obtain ⟨t, taken, -⟩ := compareStep_eq driver 3 (aligned_initial noBounceState) act
  have ran : exec (compareStep driver 3) (.initial noBounceState) [act] = some t := by
    rw [exec_cons, taken]
    rfl
  have agrees := (always noBounceState [act]).final ran
  have filled := (agrees_step_iff driver 3 (aligned_initial noBounceState)
    (fun _ member => nomatch member) taken).mp agrees
  obtain ⟨ret, left⟩ := readReply_noBounce (by decide)
  have accepted : ¬notClear.IsRefused 3 := by decide
  have zero := filled accepted 17 (Nat.le_refl 17) (ret ▸ (by decide)) (left 17)
  exact absurd zero (by decide)

end RwMem.Server
