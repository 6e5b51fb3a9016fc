import RwMem.Client.Device

/-! `read_mem` of the client library. A buffer that is too short for a request is read through
a scratch buffer, any other carries the request itself.
-/

namespace RwMem.Client

open Memory RwMem.Driver RwMem.Transfer

/-- `Ok(())`, the two errors, and the panic at an index behind the end of the buffer. -/
inductive ReadMemResult where
  | ok
  | errno (e : Int)
  | readFailed (expected : Nat) (real : Int)
  | indexOutOfBounds
deriving DecidableEq

/-- The answer of one call of `read_mem`, the buffer of the caller afterwards, and the request
that reached the driver with its answer.
-/
structure ReadMem where
  result : ReadMemResult
  buf : List UInt8
  call : Option (Request × ReadResult)

variable {P : Type}

/-- `libc::read` into a buffer with these bytes. Linux passes a shorter count on. -/
def readCall (k : Kernel P) (ptes : P → PteBits) (phys : Nat → UInt8) (bytes : List UInt8)
    (len : Nat) (len_lt : len < 2 ^ 63)
    : Request × ReadResult :=
  let req : Request :=
    ⟨userBuf bytes, min len (maxRwCount k.geometry),
      Nat.lt_of_le_of_lt (Nat.min_le_left _ _) len_lt⟩
  (req, rwmemRead k ptes phys req)

/-- What is made of the count that `read` returns. -/
def readMemResult (len : Nat) (realRead : Int) : ReadMemResult :=
  if realRead < 0 then .errno (-realRead)
  else if realRead ≠ len then .readFailed len realRead
  else .ok

/-- The first 16 bytes of a request, stored in a buffer. -/
def storePidAddr (pid : Int32) (addr : UInt64) (bytes : List UInt8) : List UInt8 :=
  overwrite (overwrite bytes 0 (leBytes 8 pid.toInt64.toUInt64.toNat)) 8
    (leBytes 8 addr.toNat)

def readMem (k : Kernel P) (ptes : P → PteBits) (phys : Nat → UInt8) (pid : Int32)
    (addr : UInt64) (buf : Slice)
    : ReadMem :=
  let len := buf.bytes.length
  if len < 17 then
    let newBuf := storePidAddr pid addr (List.replicate 17 0)
    let call := readCall k ptes phys newBuf len buf.length_lt
    let result := readMemResult len call.2.ret
    ⟨result, if result = .ok then cells call.2.buf 0 len else buf.bytes, some call⟩
  else
    let stored := storePidAddr pid addr buf.bytes
    -- the flag is byte 16 of the request, this is the byte behind it
    if 17 < len then
      let call := readCall k ptes phys (stored.set 17 0) len buf.length_lt
      ⟨readMemResult len call.2.ret, cells call.2.buf 0 len, some call⟩
    else
      ⟨.indexOutOfBounds, stored, none⟩

/-- A request reached the driver, for this process, address and length, and without force. -/
def AsAsked (pid : Int32) (addr : UInt64) (len : Nat) (call : Option (Request × ReadResult))
    : Prop :=
  ∃ req result,
    call = some (req, result) ∧ req.header = ⟨pid, addr.toNat, false⟩ ∧ req.size = len

/-- The byte that `read_mem` forgets does not matter, or was no force flag before. -/
def StaleByteHarmless (bytes : List UInt8) : Prop :=
  bytes.length < 17 ∨ (17 < bytes.length ∧ bytes[16]? ≠ some 1)

instance (bytes : List UInt8) : Decidable (StaleByteHarmless bytes) :=
  inferInstanceAs (Decidable (_ ∨ _))

/-- Two answers of the driver agree in their count and in what they read. -/
structure SameRead (left right : ReadResult) : Prop where
  ret : left.ret = right.ret
  moved : ∀ i, Moved 0 left.chunks i ↔ Moved 0 right.chunks i
  delivered : ∀ i, Moved 0 left.chunks i → left.buf i = right.buf i

/-- Two calls sent the same request, and agree in their result and in what they read. -/
structure SameOutcome (left right : ReadMem) : Prop where
  result : left.result = right.result
  called : ∃ req result req' result',
    left.call = some (req, result)
    ∧ right.call = some (req', result')
    ∧ req.header = req'.header
    ∧ req.size = req'.size
    ∧ SameRead result result'

variable (pid : Int32) (addr : UInt64)

theorem storePidAddr_eq (bytes : List UInt8)
    : storePidAddr pid addr bytes
      = leBytes 8 pid.toInt64.toUInt64.toNat ++ leBytes 8 addr.toNat ++ bytes.drop 16 := by
  have front := overwrite_append (leBytes 8 pid.toInt64.toUInt64.toNat) (bytes.drop 8)
    (leBytes 8 addr.toNat)
  simp only [length_leBytes] at front
  simp only [storePidAddr, overwrite_zero, length_leBytes]
  rw [front, List.drop_drop]

/-- The driver decodes the stored words, and the flag from the byte that stood there. -/
theorem header_storePidAddr {bytes rest : List UInt8} {flag : UInt8}
    (behind : bytes.drop 16 = flag :: rest) (size : Nat) (size_lt : size < 2 ^ 63)
    : (⟨userBuf (storePidAddr pid addr bytes), size, size_lt⟩ : Request).header
      = ⟨pid, addr.toNat, flag == 1⟩ := by
  have front := cells_userBuf
    (leBytes 8 pid.toInt64.toUInt64.toNat ++ leBytes 8 addr.toNat ++ [flag]) rest
  simp only [List.length_append, length_leBytes, List.length_singleton] at front
  rw [Request.header, storePidAddr_eq, behind]
  rw [show leBytes 8 pid.toInt64.toUInt64.toNat ++ leBytes 8 addr.toNat ++ flag :: rest
      = leBytes 8 pid.toInt64.toUInt64.toNat ++ leBytes 8 addr.toNat ++ [flag] ++ rest by simp,
    front, decodeHeader_fields]

variable {k : Kernel P} {ptes : P → PteBits} {phys : Nat → UInt8}

/-- A buffer of at least 18 bytes keeps byte 16 through both writes of `read_mem`. -/
theorem header_inPlace {bytes : List UInt8} (long : 17 < bytes.length) (size : Nat)
    (size_lt : size < 2 ^ 63)
    : (⟨userBuf ((storePidAddr pid addr bytes).set 17 0), size, size_lt⟩ : Request).header
      = ⟨pid, addr.toNat, bytes[16]? == some 1⟩ := by
  have flag : bytes.drop 16 = bytes[16] :: bytes.drop 17 := List.drop_eq_getElem_cons (by omega)
  -- the other write stores behind the request, so it may as well have been made first
  have first : (storePidAddr pid addr bytes).set 17 0 = storePidAddr pid addr (bytes.set 17 0) := by
    rw [storePidAddr_eq, storePidAddr_eq, List.set_append_right _ _ (by simp), List.drop_set,
      if_neg (by omega)]
    simp
  have behind : (bytes.set 17 0).drop 16 = bytes[16] :: (bytes.drop 17).set 0 0 := by
    rw [List.drop_set, if_neg (by omega), flag]
    rfl
  rw [first, header_storePidAddr pid addr behind]
  simp [List.getElem?_eq_getElem (show 16 < bytes.length by omega)]

/-- The scratch buffer holds the request as asked. -/
theorem header_scratch (size : Nat) (size_lt : size < 2 ^ 63)
    : (⟨userBuf (storePidAddr pid addr (List.replicate 17 0)), size, size_lt⟩ : Request).header
      = ⟨pid, addr.toNat, false⟩ :=
  have behind : (List.replicate 17 (0 : UInt8)).drop 16 = 0 :: [] := rfl
  header_storePidAddr pid addr behind size size_lt

/-- The answer of `rwmem_read` depends on the header and the size of a request only. -/
theorem rwmemRead_sameRead (k : Kernel P) (ptes : P → PteBits) (phys : Nat → UInt8)
    {req req' : Request} (header : req.header = req'.header) (size : req.size = req'.size)
    : SameRead (rwmemRead k ptes phys req) (rwmemRead k ptes phys req') := by
  have nothing (ret : Int) : SameRead ⟨ret, req.buf, []⟩ ⟨ret, req'.buf, []⟩ := by
    refine ⟨rfl, fun _ => Iff.rfl, ?_⟩
    intro i moved
    exact absurd moved (not_moved_nil 0 i)
  by_cases copied : k.headerLeft = 0
  · cases found : k.findGetPid req.header.pid with
    | none =>
        have found' : k.findGetPid req'.header.pid = none := header ▸ found
        simp only [rwmemRead, copied, if_true, found, found']
        exact nothing _
    | some proc =>
        have found' : k.findGetPid req'.header.pid = some proc := header ▸ found
        by_cases permitted : req.header.force = false
            → checkProcMapCanRead proc.mm req.header.addr req.size = true
        · have permitted' : req'.header.force = false
              → checkProcMapCanRead proc.mm req'.header.addr req'.size = true := by
            rw [← header, ← size]
            exact permitted
          rw [rwmemRead_of_entered found copied permitted,
            rwmemRead_of_entered found' copied permitted', ← header, ← size]
          -- both loops stop at the same chunk, and the chunks are those of the walk
          obtain ⟨m, stop, outcome⟩ := exists_readStop k proc ptes req.header.addr req.size
            req.header.force phys req.buf
          have outcome' := rwmemReadLoop_outcome stop (Nat.zero_add m) phys req'.buf
          rw [Scan.start_zero] at outcome'
          refine ⟨congrArg toSsize (outcome.done.trans outcome'.done.symm), ?_, ?_⟩
          · intro i
            exact (outcome.moved i).trans (outcome'.moved i).symm
          · intro i moved
            obtain ⟨l, low, high, inside⟩ := (outcome.moved i).mp moved
            exact (outcome.delivered l low high i inside).trans
              (outcome'.delivered l low high i inside).symm
        · obtain ⟨unforced, denied⟩ := Classical.not_imp.mp permitted
          have unforced' : req'.header.force = false := header ▸ unforced
          have denied' : ¬checkProcMapCanRead proc.mm req'.header.addr req'.size = true := by
            rw [← header, ← size]
            exact denied
          simp only [rwmemRead, copied, if_true, found, found', unforced, unforced', denied,
            denied']
          exact nothing _
  · simp only [rwmemRead, copied, if_false]
    exact nothing _

/-- `read_mem` asks what it was asked exactly if it is called with at most `MAX_RW_COUNT`
bytes, in which the byte that it forgets is harmless.
-/
theorem asAsked_iff (k : Kernel P) (ptes : P → PteBits) (phys : Nat → UInt8) (buf : Slice)
    : AsAsked pid addr buf.bytes.length (readMem k ptes phys pid addr buf).call
      ↔ buf.bytes.length ≤ maxRwCount k.geometry ∧ StaleByteHarmless buf.bytes := by
  by_cases short : buf.bytes.length < 17
  · have header := header_scratch pid addr (min buf.bytes.length (maxRwCount k.geometry))
      (Nat.lt_of_le_of_lt (Nat.min_le_left _ _) buf.length_lt)
    simp only [AsAsked, readMem, readCall, short, if_true, StaleByteHarmless, true_or, and_true]
    constructor
    · intro asked
      obtain ⟨_, _, called, _, size⟩ := asked
      cases called
      exact min_eq_left_iff.mp size
    · intro fits
      exact ⟨_, _, rfl, header, Nat.min_eq_left fits⟩
  · by_cases long : 17 < buf.bytes.length
    · have header := header_inPlace pid addr long (min buf.bytes.length (maxRwCount k.geometry))
        (Nat.lt_of_le_of_lt (Nat.min_le_left _ _) buf.length_lt)
      simp only [AsAsked, readMem, readCall, short, if_false, long, if_true, StaleByteHarmless,
        false_or, true_and]
      constructor
      · intro inPlace
        obtain ⟨_, _, called, asked, size⟩ := inPlace
        cases called
        refine ⟨min_eq_left_iff.mp size, ?_⟩
        rw [header] at asked
        simpa using asked
      · intro fitting
        obtain ⟨fits, harmless⟩ := fitting
        refine ⟨_, _, rfl, ?_, Nat.min_eq_left fits⟩
        rw [header]
        simpa using harmless
    · simp [AsAsked, readMem, short, long, StaleByteHarmless]

/-- Two calls with harmless buffers of one length have the same outcome. -/
theorem readMem_sameOutcome (k : Kernel P) (ptes : P → PteBits) (phys : Nat → UInt8)
    {buf buf' : Slice} (length : buf.bytes.length = buf'.bytes.length)
    (harmless : StaleByteHarmless buf.bytes) (harmless' : StaleByteHarmless buf'.bytes)
    : SameOutcome (readMem k ptes phys pid addr buf) (readMem k ptes phys pid addr buf') := by
  have small := Nat.lt_of_le_of_lt (Nat.min_le_left buf.bytes.length (maxRwCount k.geometry))
    buf.length_lt
  by_cases short : buf.bytes.length < 17
  · simp only [readMem, short, if_true, ← length]
    exact ⟨rfl, _, _, _, _, rfl, rfl, rfl, rfl, rwmemRead_sameRead k ptes phys rfl rfl⟩
  · have short' : ¬buf'.bytes.length < 17 := length ▸ short
    obtain ⟨long, keeps⟩ := harmless.resolve_left short
    obtain ⟨long', keeps'⟩ := harmless'.resolve_left short'
    have header := header_inPlace pid addr long _ small
    have header' := header_inPlace pid addr long' _ small
    have same : (buf.bytes[16]? == some 1) = (buf'.bytes[16]? == some 1) := by
      rw [beq_eq_false_iff_ne.mpr keeps, beq_eq_false_iff_ne.mpr keeps']
    have read := rwmemRead_sameRead k ptes phys
      ((header.trans (by rw [same])).trans header'.symm) rfl
    simp only [readMem, short, if_false, long, if_true, readCall, ← length]
    exact ⟨by rw [read.ret], _, _, _, _, rfl, rfl,
      (header.trans (by rw [same])).trans header'.symm, rfl, read⟩

/-- For every process, address and buffer: `read_mem` sends the request that it was asked for
exactly if the buffer is harmless and no longer than Linux reads at once; and what a harmless
buffer held before does not matter.
-/
theorem readMem_asAsked_iff (k : Kernel P) (ptes : P → PteBits) (phys : Nat → UInt8)
    (pid : Int32) (addr : UInt64) (buf : Slice)
    : (AsAsked pid addr buf.bytes.length (readMem k ptes phys pid addr buf).call
        ↔ buf.bytes.length ≤ maxRwCount k.geometry ∧ StaleByteHarmless buf.bytes)
      ∧ (StaleByteHarmless buf.bytes
        → ∀ buf' : Slice, buf.bytes.length = buf'.bytes.length
          → StaleByteHarmless buf'.bytes
          → SameOutcome (readMem k ptes phys pid addr buf)
              (readMem k ptes phys pid addr buf')) := by
  refine ⟨asAsked_iff pid addr k ptes phys buf, ?_⟩
  intro harmless buf' length harmless'
  exact readMem_sameOutcome pid addr k ptes phys length harmless harmless'

/-- A read into 18 zeroes is as asked, and one into 18 other harmless bytes has its outcome. -/
theorem readMem_asAsked_iff_oneUp
    : let k := quietKernel arm64.toPageGeometry (AddressSpace.oneUp.proc arm64.toPageGeometry)
      let read := readMem k AddressSpace.oneUp.ptes UInt8.ofNat 42 0xfff
      AsAsked 42 0xfff 18 (read ⟨List.replicate 18 0, by decide⟩).call
      ∧ SameOutcome (read ⟨List.replicate 18 0, by decide⟩)
          (read ⟨List.replicate 18 7, by decide⟩) := by
  intro k read
  obtain ⟨asked, same⟩ := readMem_asAsked_iff k AddressSpace.oneUp.ptes UInt8.ofNat 42 0xfff
    ⟨List.replicate 18 0, by decide⟩
  exact ⟨asked.mpr ⟨by decide, by decide⟩, same (by decide) _ rfl (by decide)⟩

/-- A buffer of 17 zeroes. -/
def zeroes17 : Slice := ⟨List.replicate 17 0, by decide⟩

/-- 18 bytes, of which the one that is the force flag of a request is set. -/
def stale18 : Slice := ⟨List.replicate 16 0 ++ [1, 0], by decide⟩

/-- With 17 bytes `read_mem` panics. With 18 bytes that differ in one from zeroes it asks for
a forced read, as no other buffer of this length does.
-/
theorem readMem_not_asAsked
    : let k := quietKernel arm64.toPageGeometry (AddressSpace.oneUp.proc arm64.toPageGeometry)
      let read := readMem k AddressSpace.oneUp.ptes UInt8.ofNat 42 0xfff
      (read zeroes17).result = .indexOutOfBounds
      ∧ ¬AsAsked 42 0xfff 17 (read zeroes17).call
      ∧ ((read stale18).call.map (fun call => call.1.header)) = some ⟨42, 0xfff, true⟩
      ∧ ¬AsAsked 42 0xfff 18 (read stale18).call := by
  intro k read
  refine ⟨rfl, ?_, by decide, ?_⟩
  · intro asked
    have harmless := (asAsked_iff 42 0xfff k _ _ zeroes17).mp asked
    exact absurd harmless.2 (by decide)
  · intro asked
    have harmless := (asAsked_iff 42 0xfff k _ _ stale18).mp asked
    exact absurd harmless.2 (by decide)

end RwMem.Client
