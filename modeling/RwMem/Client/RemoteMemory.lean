import RwMem.Client.ReadMem
import RwMem.Transfer.RemoteMemory

/-! The calls `read_mem` and `write_mem` of the client library on the memory of the targets. -/

namespace RwMem.Client

open Memory RwMem.Driver RwMem.Transfer

/-- `Ok` if all bytes were written. -/
def writeMemAnswer (len : Nat) : Except Int Nat → WriteMemResult
  | .error e => .errno e
  | .ok n => if n = len then .ok else .writeFailed len n

/-- `read_mem` forces the read if byte 16 of a buffer that carries the request is set. -/
def readMemForces (bytes : List UInt8) : Bool := 17 < bytes.length && bytes[16]? == some 1

variable {P : Type} {ptes : P → PteBits}

theorem readMemResult_whole (len : Nat) : readMemResult len len = .ok := by
  have counted : ¬(len : Int) < 0 := by omega
  simp [readMemResult, counted]

/-- `write_mem` makes one call, answered by the remote memory, unless its allocation panics. -/
theorem writeMem_answers [DecidableEq P] {k : Kernel P} {here : Targets}
    (serves : Serves k ptes here) (phys : Nat → UInt8) (pid : Int32) (addr : UInt64) {buf : Slice}
    (capacity : 17 + buf.bytes.length < 2 ^ 63)
    : let answer := remoteWrite k.geometry here phys pid addr true
        (buf.bytes.take (maxRwCount k.geometry))
      ∃ call,
        writeMem k ptes phys pid addr buf
          = ⟨writeMemAnswer buf.bytes.length answer.1, some call⟩
        ∧ AnswersWrite answer ptes call := by
  intro answer
  have small := Nat.lt_of_le_of_lt
    (Nat.min_le_left buf.bytes.length (maxRwCount k.geometry)) buf.length_lt
  have length : (buf.bytes.take (maxRwCount k.geometry)).length
      = min buf.bytes.length (maxRwCount k.geometry) := by
    rw [List.length_take, Nat.min_comm]
  have header := header_writeRequest pid addr true buf.bytes small
  have answered : AnswersWrite answer ptes _ := rwmemWrite_answers serves phys header length
    (fun i below => by
      have inside : i < min buf.bytes.length (maxRwCount k.geometry) := below
      rw [List.getElem?_take_of_lt (by omega)]
      exact buf_writeRequest pid addr true buf.bytes small (by omega))
  refine ⟨_, ?_, answered⟩
  have ret := answered.ret
  simp only [writeMem, capacity, if_true]
  generalize rwmemWrite k ptes phys _ = call at ret
  cases result : answer.1 with
  | error e =>
      have positive : 0 < e := remoteWrite_error_pos result
      rw [result] at ret
      simp only [retOf] at ret
      simp [ret, positive, writeMemAnswer]
  | ok n =>
      rw [result] at ret
      simp only [retOf] at ret
      simp only [writeMemAnswer, ret]
      by_cases same : n = buf.bytes.length
      · simp [same]
      · have differs : (n : Int) ≠ buf.bytes.length := fun equal => same (Int.ofNat.inj equal)
        simp [same]

/-- `read_mem` makes one call, answered by the remote memory, unless its buffer has 17 bytes. -/
theorem readMem_answers {k : Kernel P} {here : Targets} (serves : Serves k ptes here)
    (phys : Nat → UInt8) (pid : Int32) (addr : UInt64) {buf : Slice}
    (other : buf.bytes.length ≠ 17)
    : ∃ req result after,
        readMem k ptes phys pid addr buf
          = ⟨readMemResult buf.bytes.length result.ret, after, some (req, result)⟩
        ∧ AnswersRead
            (remoteRead k.geometry here phys pid addr (readMemForces buf.bytes)
              (min buf.bytes.length (maxRwCount k.geometry)))
            result
        ∧ (result.ret = buf.bytes.length → after = cells result.buf 0 buf.bytes.length) := by
  have small := Nat.lt_of_le_of_lt
    (Nat.min_le_left buf.bytes.length (maxRwCount k.geometry)) buf.length_lt
  by_cases short : buf.bytes.length < 17
  · have forces : readMemForces buf.bytes = false := by
      rw [readMemForces, decide_eq_false (by omega), Bool.false_and]
    have answered := rwmemRead_answers serves phys (header_scratch pid addr _ small)
    simp only [readMem, short, if_true, readCall]
    refine ⟨_, _, _, rfl, forces ▸ answered, ?_⟩
    intro whole
    exact if_pos ((congrArg (readMemResult _) whole).trans (readMemResult_whole _))
  · have long : 17 < buf.bytes.length := by omega
    have forces : readMemForces buf.bytes = (buf.bytes[16]? == some 1) := by
      rw [readMemForces, decide_eq_true long, Bool.true_and]
    have answered := rwmemRead_answers serves phys (header_inPlace pid addr long _ small)
    simp only [readMem, short, if_false, long, if_true, readCall]
    exact ⟨_, _, _, rfl, forces ▸ answered, fun _ => rfl⟩

end RwMem.Client
