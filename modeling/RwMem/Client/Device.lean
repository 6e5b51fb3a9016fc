import RwMem.Transfer.WriteExact

/-! `write_mem` of the client library: how it lays out a request, and what its answer says
about the target.
-/

namespace RwMem.Client

open Memory RwMem.Driver RwMem.Transfer

/-- The 17 bytes in front of a request: `pid as i64`, the address and the force flag. -/
def encodeHeader (pid : Int32) (addr : UInt64) (force : Bool) : List UInt8 :=
  leBytes 8 pid.toInt64.toUInt64.toNat ++ leBytes 8 addr.toNat ++ [if force then 1 else 0]

/-- A buffer in the memory of the client, from its pointer on. -/
def userBuf (bytes : List UInt8) : Nat → UInt8 := fun i => bytes.getD i 0

/-- The low 32 bits of a sign-extended process id are the process id. -/
theorem ofNat_toInt64 (pid : Int32) : Int32.ofNat pid.toInt64.toUInt64.toNat = pid := by
  have extended : pid.toInt64.toUInt64.toNat = (BitVec.signExtend 64 pid.toBitVec).toNat := rfl
  apply Int32.toBitVec_inj.mp
  rw [extended, Int32.toBitVec_ofNat', BitVec.ofNat_toNat]
  apply BitVec.eq_of_getElem_eq
  intro i low
  simp only [BitVec.getElem_setWidth, BitVec.getLsbD_signExtend, low, if_true,
    BitVec.getLsbD_eq_getElem, Bool.and_eq_right_iff_imp, decide_eq_true_eq]
  omega

theorem length_encodeHeader (pid : Int32) (addr : UInt64) (force : Bool)
    : (encodeHeader pid addr force).length = 17 := by
  simp [encodeHeader]

/-- The driver decodes a process id, an address and any byte behind them. -/
theorem decodeHeader_fields (pid : Int32) (addr : UInt64) (flag : UInt8)
    : decodeHeader (leBytes 8 pid.toInt64.toUInt64.toNat ++ leBytes 8 addr.toNat ++ [flag])
      = ⟨pid, addr.toNat, flag == 1⟩ := by
  have pidFits : pid.toInt64.toUInt64.toNat < 256 ^ 8 := pid.toInt64.toUInt64.toNat_lt
  have addrFits : addr.toNat < 256 ^ 8 := addr.toNat_lt
  have last
      : (leBytes 8 pid.toInt64.toUInt64.toNat ++ leBytes 8 addr.toNat ++ [flag])[16]?
        = some flag := by
    rw [List.getElem?_append_right (by simp)]
    simp
  rw [decodeHeader, last, List.append_assoc, List.take_append_of_le_length (by simp),
    List.take_of_length_le (by simp), List.drop_append_of_le_length (by simp),
    List.drop_of_length_le (by simp), List.nil_append,
    List.take_append_of_le_length (by simp), List.take_of_length_le (by simp),
    leValue_leBytes pidFits, leValue_leBytes addrFits, ofNat_toInt64]
  rfl

/-- The driver decodes the header that the client encodes. -/
theorem decodeHeader_encodeHeader (pid : Int32) (addr : UInt64) (force : Bool)
    : decodeHeader (encodeHeader pid addr force) = ⟨pid, addr.toNat, force⟩ := by
  rw [encodeHeader, decodeHeader_fields]
  cases force <;> rfl

/-- The first cells of a buffer are the bytes it starts with. -/
theorem cells_userBuf (front rest : List UInt8)
    : cells (userBuf (front ++ rest)) 0 front.length = front := by
  apply List.ext_getElem
  · simp
  · intro i _ inFront
    simp [cells, userBuf, List.getElem?_append_left inFront, List.getElem?_eq_getElem inFront]

/-- The request with an encoded header in front of a payload. -/
def writeRequest (pid : Int32) (addr : UInt64) (force : Bool) (payload : List UInt8)
    (size : Nat) (size_lt : size < 2 ^ 63)
    : Request where
  buf := userBuf (encodeHeader pid addr force ++ payload)
  size := size
  size_lt := size_lt

variable (pid : Int32) (addr : UInt64) (force : Bool) (payload : List UInt8)

theorem header_writeRequest {size : Nat} (size_lt : size < 2 ^ 63)
    : (writeRequest pid addr force payload size size_lt).header
      = ⟨pid, addr.toNat, force⟩ := by
  have front := cells_userBuf (encodeHeader pid addr force) payload
  rw [length_encodeHeader] at front
  rw [Request.header, writeRequest, front, decodeHeader_encodeHeader]

/-- Behind the header of the buffer stands the payload. -/
theorem buf_writeRequest {size : Nat} (size_lt : size < 2 ^ 63) {i : Nat}
    (inside : i < payload.length)
    : payload[i]? = some ((writeRequest pid addr force payload size size_lt).buf (17 + i)) := by
  simp [writeRequest, userBuf, length_encodeHeader, inside]

/-- A `&[u8]`. Rust keeps every allocation below `isize::MAX` bytes. -/
structure Slice where
  bytes : List UInt8
  length_lt : bytes.length < 2 ^ 63

/-- `Ok(())`, the two errors, and the panic of an allocation that is too large. -/
inductive WriteMemResult where
  | ok
  | errno (e : Int)
  | writeFailed (expected : Nat) (real : Int)
  | capacityOverflow
deriving DecidableEq

/-- Linux transfers at most `MAX_RW_COUNT` bytes in one call, `INT_MAX` rounded down to whole
pages.
-/
def maxRwCount (g : PageGeometry) : Nat := (2 ^ 31 - 1) / g.pageSize * g.pageSize

/-- The answer of one call of `write_mem`, and the system call that it made. -/
structure WriteMem (P : Type) where
  result : WriteMemResult
  call : Option (WriteResult P)

variable {P : Type} [DecidableEq P]

/-- `write_mem` always forces the write, and passes the length of the payload as the size. -/
def writeMem (k : Kernel P) (ptes : P → PteBits) (phys : Nat → UInt8) (pid : Int32)
    (addr : UInt64) (buf : Slice)
    : WriteMem P :=
  if 17 + buf.bytes.length < 2 ^ 63 then
    let count := min buf.bytes.length (maxRwCount k.geometry)
    have small : count < 2 ^ 63 := Nat.lt_of_le_of_lt (Nat.min_le_left _ _) buf.length_lt
    let call := rwmemWrite k ptes phys (writeRequest pid addr true buf.bytes count small)
    if call.ret < 0 then ⟨.errno (-call.ret), some call⟩
    else if call.ret ≠ buf.bytes.length then
      ⟨.writeFailed buf.bytes.length call.ret, some call⟩
    else ⟨.ok, some call⟩
  else
    ⟨.capacityOverflow, none⟩

/-- A system call was made, it moved every byte of the payload, and the target holds them. -/
def PayloadStored (g : PageGeometry) (space : AddressSpace) (addr : Nat)
    (payload : List UInt8) (call : Option (WriteResult P))
    : Prop :=
  ∃ result,
    call = some result
    ∧ ∀ i < payload.length,
        Moved 17 result.chunks i ∧ space.byte? g result.phys (addr + i) = payload[i]?

variable {k : Kernel P} {proc : Proc P} {ptes : P → PteBits} {space : AddressSpace}
variable {phys : Nat → UInt8}

/-- Fewer bytes meet fewer pages. -/
theorem framesDistinct_mono {g : PageGeometry} {start size size' : Nat} (le : size' ≤ size)
    (distinct : FramesDistinct g space start size)
    : FramesDistinct g space start size' :=
  fun i below j below' => distinct i (by omega) j (by omega)

omit [DecidableEq P] in
/-- The first bytes of an exact write of a part of the payload are those of the payload. -/
theorem getElem?_take_of_exact {g : PageGeometry} {start n count : Nat} {result : WriteResult P}
    (exact : WriteIsExact g space ptes phys start force (payload.take count) result n)
    (within : n ≤ count)
    : ∀ i < n, space.byte? g result.phys (start + i) = payload[i]? := by
  intro i below
  rw [exact.stored i below, List.getElem?_take_of_lt (by omega)]

/-- `write_mem` answers `Ok` exactly when the whole payload was stored. Witness: the count is
the number of bytes that were moved, also when Linux cuts the request short.
-/
theorem writeMem_ok_iff {payload : Slice} {pid : Int32} {addr : UInt64}
    (found : k.findGetPid pid = some proc)
    (realizes : Realizes k.geometry proc.getProcPhyAddr ptes space)
    (distinct : FramesDistinct k.geometry space addr.toNat payload.bytes.length)
    (copied : k.headerLeft = 0)
    (succeed : WritesSucceed k space addr.toNat
      (min payload.bytes.length (maxRwCount k.geometry)) true)
    : (writeMem k ptes phys pid addr payload).result = .ok
      ↔ PayloadStored k.geometry space addr.toNat payload.bytes
          (writeMem k ptes phys pid addr payload).call := by
  by_cases capacity : 17 + payload.bytes.length < 2 ^ 63
  · have within := Nat.min_le_left payload.bytes.length (maxRwCount k.geometry)
    have small := Nat.lt_of_le_of_lt within payload.length_lt
    have header := header_writeRequest pid addr true payload.bytes small
    have length : (payload.bytes.take (min payload.bytes.length (maxRwCount k.geometry))).length
        = min payload.bytes.length (maxRwCount k.geometry) :=
      List.length_take_of_le within
    have behind : ∀ i < min payload.bytes.length (maxRwCount k.geometry),
        (payload.bytes.take (min payload.bytes.length (maxRwCount k.geometry)))[i]?
          = some ((writeRequest pid addr true payload.bytes _ small).buf (17 + i)) := by
      intro i below
      rw [List.getElem?_take_of_lt below]
      exact buf_writeRequest pid addr true payload.bytes small (by omega)
    obtain ⟨n, counted, exact, moved⟩ := rwmemWrite_isExact phys header found realizes
      (framesDistinct_mono within distinct) copied (fun unforced => by contradiction) succeed
      length behind
    have below : n ≤ payload.bytes.length := Nat.le_trans counted within
    have holds := getElem?_take_of_exact true payload.bytes exact counted
    have ret := exact.ret
    simp only [writeMem, capacity, if_true]
    generalize rwmemWrite k ptes phys (writeRequest pid addr true payload.bytes _ small)
      = call at moved holds ret
    have notNegative : ¬call.ret < 0 := by omega
    simp only [notNegative, if_false]
    constructor
    · intro ok
      have whole : n = payload.bytes.length := by
        by_contra short
        have differs : call.ret ≠ payload.bytes.length := by omega
        simp [differs] at ok
      refine ⟨call, by split <;> rfl, ?_⟩
      intro i inside
      exact ⟨(moved i).mpr (by omega), holds i (by omega)⟩
    · intro ⟨result, called, stored⟩
      have same : result = call := by
        split at called <;> exact (Option.some.inj called).symm
      subst same
      have whole : n = payload.bytes.length := by
        by_contra short
        have last := (moved n).mp (stored n (by omega)).1
        omega
      have equal : result.ret = payload.bytes.length := by omega
      simp [equal]
  · simp only [writeMem, capacity, if_false, PayloadStored]
    simp

/-- Every write of a payload behind its header is exact, for every address space, memory,
start, length and mode; and `write_mem` answers `Ok` exactly when the whole payload was
stored.
-/
theorem rwmemWrite_exact (k : Kernel P) (proc : Proc P) (ptes : P → PteBits)
    (space : AddressSpace) (phys : Nat → UInt8) (pid : Int32) (addr : UInt64)
    (payload : Slice)
    (found : k.findGetPid pid = some proc)
    (realizes : Realizes k.geometry proc.getProcPhyAddr ptes space)
    (distinct : FramesDistinct k.geometry space addr.toNat payload.bytes.length)
    (copied : k.headerLeft = 0)
    : (∀ force,
        (force = false
          → checkProcMapCanWrite proc.mm addr.toNat payload.bytes.length = true)
        → WritesSucceed k space addr.toNat payload.bytes.length force
        → ∃ n,
            WriteIsExact k.geometry space ptes phys addr.toNat force payload.bytes
              (rwmemWrite k ptes phys
                (writeRequest pid addr force payload.bytes payload.bytes.length
                  payload.length_lt))
              n)
      ∧ (WritesSucceed k space addr.toNat
            (min payload.bytes.length (maxRwCount k.geometry)) true
        → ((writeMem k ptes phys pid addr payload).result = .ok
          ↔ PayloadStored k.geometry space addr.toNat payload.bytes
              (writeMem k ptes phys pid addr payload).call)) := by
  refine ⟨?_, ?_⟩
  · intro force permitted succeed
    have header := header_writeRequest pid addr force payload.bytes payload.length_lt
    obtain ⟨n, _, exact, -⟩ := rwmemWrite_isExact phys header found realizes distinct copied
      permitted succeed rfl
      (fun i => buf_writeRequest pid addr force payload.bytes payload.length_lt)
    exact ⟨n, exact⟩
  · exact writeMem_ok_iff found realizes distinct copied

/-- A write of three bytes to a target whose pages are all mapped, one frame up. -/
theorem rwmemWrite_exact_oneUp
    : let k := quietKernel arm64.toPageGeometry (AddressSpace.oneUp.proc arm64.toPageGeometry)
      let payload : Slice := ⟨[1, 2, 3], by decide⟩
      (∃ n,
        WriteIsExact k.geometry AddressSpace.oneUp AddressSpace.oneUp.ptes UInt8.ofNat 0xfff
          true payload.bytes
          (rwmemWrite k AddressSpace.oneUp.ptes UInt8.ofNat
            (writeRequest 42 0xfff true payload.bytes payload.bytes.length payload.length_lt))
          n)
      ∧ ((writeMem k AddressSpace.oneUp.ptes UInt8.ofNat 42 0xfff payload).result = .ok
        ↔ PayloadStored k.geometry AddressSpace.oneUp 0xfff payload.bytes
            (writeMem k AddressSpace.oneUp.ptes UInt8.ofNat 42 0xfff payload).call) := by
  intro k payload
  obtain ⟨exact, ok⟩ := rwmemWrite_exact k (AddressSpace.oneUp.proc arm64.toPageGeometry)
    AddressSpace.oneUp.ptes AddressSpace.oneUp UInt8.ofNat 42 0xfff payload rfl
    (AddressSpace.oneUp.realizes_walk _)
    (by
      intro i _ j _ p q page page' same
      cases page
      cases page'
      exact Nat.succ.inj same)
    rfl
  refine ⟨exact true (fun unforced => by contradiction) ?_, ok ?_⟩
  · intro l _ _
    exact Access.writeOk_success
  · intro l _ _
    exact Access.writeOk_success

end RwMem.Client
