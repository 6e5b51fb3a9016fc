import RwMem.CeServer.Sessions
import RwMem.CeServer.TableIntegrity
import RwMem.Server.RemoteMemory

/-! The commands on processes and their memory, with the driver of this repository behind the
server: what is left are processes by their handles over the memory of the targets.
-/

namespace RwMem.CeServer

open Collections Memory RwMem.Driver RwMem.Client RwMem.Server RwMem.Transfer Transition

-----------------------------------------------------------------------------------------
-- The machine
-----------------------------------------------------------------------------------------

/-- The processes that handles are open for, and the memory of the targets. -/
structure HandleMemory where
  opened : Int → Option Int32
  remote : RemoteState

/-- A command of a client. The sizes keep the lengths of the server exact. -/
inductive MemoryCommand where
  | openProcess (pid : Int32)
  | closeHandle (handle : Int32)
  | readProcessMemory (handle : Int32) (address : UInt64) (size : Nat)
      (size_le : size ≤ 2 ^ 31 - 18)
  | writeProcessMemory (handle : Int32) (address : UInt64) (buf : List UInt8)
      (length_le : buf.length ≤ 2 ^ 31 - 18)

namespace HandleMemory

variable (g : PageGeometry) (nDriverLink : Int) (targets : Nat → Targets) (m : HandleMemory)

/-- The bytes that are read through a handle: none if it is of no process, or if the driver is not
asked or fails. Linux passes at most `MAX_RW_COUNT` bytes.
-/
def read (handle : Int32) (address : UInt64) (size : Nat) : List UInt8 × HandleMemory :=
  match m.opened handle.toInt with
  | none => ([], m)
  | some pid =>
      if nDriverLink < 0 ∨ address = 0 ∨ size = 0 then ([], m)
      else
        let answer := remoteRead g (targets m.remote.calls) m.remote.mem pid address false
          (min size (maxRwCount g))
        (answer.toOption.getD [],
          { m with remote := { m.remote with calls := m.remote.calls + 1 } })

/-- How many bytes are written through a handle. -/
def write (handle : Int32) (address : UInt64) (buf : List UInt8) : Nat × HandleMemory :=
  match m.opened handle.toInt with
  | none => (0, m)
  | some pid =>
      if nDriverLink < 0 ∨ address = 0 ∨ buf.length = 0 then (0, m)
      else
        let answer := remoteWrite g (targets m.remote.calls) m.remote.mem pid address false
          (buf.take (maxRwCount g))
        (answer.1.toOption.getD 0, { m with remote := ⟨m.remote.calls + 1, answer.2⟩ })

/-- What a command is answered with and what is then in the memory. Only the number of a new handle
is left open.
-/
inductive MayAnswer : MemoryCommand → Values → HandleMemory → Prop where
  | noProcess : MayAnswer (.openProcess 0) (.number 0) m
  | known {h : Int} {pid : Int32} (same : m.opened h = some pid)
      : MayAnswer (.openProcess pid) (.number h) m
  | opened {h : Int} {pid : Int32} (process : pid ≠ 0) (pos : 0 < h) (free : m.opened h = none)
      (unknown : ∀ j, m.opened j ≠ some pid)
      : MayAnswer (.openProcess pid) (.number h)
          { m with opened := Function.update m.opened h (some pid) }
  | closed (handle : Int32)
      : MayAnswer (.closeHandle handle) (.number 1)
          { m with opened := Function.update m.opened handle.toInt none }
  | read {handle : Int32} {address : UInt64} {size : Nat} (size_le : size ≤ 2 ^ 31 - 18)
      {bytes : List UInt8} {next : HandleMemory}
      (got : m.read g nDriverLink targets handle address size = (bytes, next))
      : MayAnswer (.readProcessMemory handle address size size_le) (.data bytes.length bytes) next
  | written {handle : Int32} {address : UInt64} {buf : List UInt8}
      (length_le : buf.length ≤ 2 ^ 31 - 18) {n : Nat} {next : HandleMemory}
      (got : m.write g nDriverLink targets handle address buf = (n, next))
      : MayAnswer (.writeProcessMemory handle address buf length_le) (.number n) next

end HandleMemory

-----------------------------------------------------------------------------------------
-- The commands as requests
-----------------------------------------------------------------------------------------

namespace MemoryCommand

def case : MemoryCommand → CeCommand
  | openProcess _ => .openProcess
  | closeHandle _ => .closeHandle
  | readProcessMemory _ _ _ _ => .readProcessMemory
  | writeProcessMemory _ _ _ _ => .writeProcessMemory

/-- The record of a command; reads are not to be compressed. -/
def record : MemoryCommand → List UInt8
  | openProcess pid => intBytes pid.toInt
  | closeHandle handle => intBytes handle.toInt
  | readProcessMemory handle address size _ =>
      intBytes handle.toInt ++ leBytes 8 address.toNat ++ leBytes 4 size ++ [0]
  | writeProcessMemory handle address buf _ =>
      intBytes handle.toInt ++ leBytes 8 address.toNat ++ intBytes buf.length

def tail : MemoryCommand → List UInt8
  | writeProcessMemory _ _ buf _ => buf
  | _ => []

theorem length_record (c : MemoryCommand) : c.record.length = c.case.recordSize := by
  cases c <;> simp [record, case, CeCommand.recordSize, intBytes]

end MemoryCommand

/-- An `int` is found where it was stored. -/
theorem intAt_intBytes {n : Int} (fits : IsInt n) (front behind : List UInt8)
    : intAt (front ++ (intBytes n ++ behind)) front.length = n := by
  obtain ⟨low, high⟩ := fits
  have word : wordAt (front ++ (intBytes n ++ behind)) front.length 4 = (n % 2 ^ 32).toNat := by
    rw [wordAt, List.drop_left, List.take_append_of_le_length (by rw [length_intBytes]),
      List.take_of_length_le (by rw [length_intBytes]), intBytes, leValue_leBytes (by omega)]
  rw [intAt, word, Int.toNat_of_nonneg (by omega), toInt]
  exact (Int.emod_bmod n (2 ^ 32)).trans (Int.bmod_eq_of_le (by omega) (by omega))

theorem isInt_int32 (n : Int32) : IsInt n.toInt := ⟨n.le_toInt, n.toInt_lt⟩

/-- The words of the records of reads and writes. -/
theorem intAt_handle (handle : Int32) (behind : List UInt8)
    : intAt (intBytes handle.toInt ++ behind) 0 = handle.toInt :=
  intAt_intBytes (isInt_int32 handle) [] behind

theorem wordAt_address (handle : Int) (address : UInt64) (behind : List UInt8)
    : wordAt (intBytes handle ++ (leBytes 8 address.toNat ++ behind)) 4 8 = address.toNat := by
  have there := wordAt_leBytes (n := 8) address.toNat_lt (intBytes handle) behind
  rwa [length_intBytes] at there

namespace MemoryCommand

theorem intAt_length (handle : Int) (address : UInt64) {buf : List UInt8}
    (length_le : buf.length ≤ 2 ^ 31 - 18)
    : intAt (intBytes handle ++ leBytes 8 address.toNat ++ intBytes buf.length) 12
      = buf.length := by
  have fits : IsInt buf.length := ⟨by omega, by omega⟩
  have there := intAt_intBytes fits (intBytes handle ++ leBytes 8 address.toNat) []
  rwa [List.append_nil, List.length_append, length_intBytes, length_leBytes] at there

theorem length_tail (c : MemoryCommand) : c.tail.length = c.case.tailSize c.record := by
  cases c with
  | writeProcessMemory handle address buf length_le =>
      rw [case, record, tail, CeCommand.tailSize, intAt_length _ _ length_le, Int.toNat_natCast]
  | _ => rfl

/-- What a client sends for a command. -/
def request (c : MemoryCommand) : Request where
  command := c.case.code
  record := c.record
  tail := c.tail
  record_length := by
    rw [CeCommand.ofByte_code]
    exact c.length_record
  tail_length := by
    rw [CeCommand.ofByte_code]
    exact c.length_tail

/-- The call of `CApi` for a command; for an empty write there is none. -/
def call : MemoryCommand → Option ApiCall
  | openProcess pid => some (.openProcess pid.toInt)
  | closeHandle handle => some (.closeHandle handle.toInt)
  | readProcessMemory handle address size _ =>
      some (.readProcessMemory handle.toInt address.toNat size)
  | writeProcessMemory handle address buf _ =>
      if buf.length ≠ 0 then some (.writeProcessMemory handle.toInt address.toNat buf) else none

/-- The values that a command is answered with. -/
def values {σ : Type} (answer : (call : ApiCall) → σ → call.Reply × σ) (s : σ)
    : MemoryCommand → Values
  | openProcess pid => .number (answer (.openProcess pid.toInt) s).1
  | closeHandle _ => .number 1
  | readProcessMemory handle address size _ =>
      let o : ReadResult := (answer (.readProcessMemory handle.toInt address.toNat size) s).1
      .data o.read (o.buffer.take o.read.toNat)
  | writeProcessMemory handle address buf _ =>
      if buf.length ≠ 0 then
        .number (answer (.writeProcessMemory handle.toInt address.toNat buf) s).1
      else .number 0

theorem wordAt_size (handle : Int32) (address : UInt64) {size : Nat} (size_le : size ≤ 2 ^ 31 - 18)
    : wordAt (intBytes handle.toInt ++ leBytes 8 address.toNat ++ leBytes 4 size ++ [0]) 12 4
      = size := by
  have there := wordAt_leBytes (w := size) (n := 4) (by omega)
    (intBytes handle.toInt ++ leBytes 8 address.toNat) [0]
  rwa [List.length_append, length_intBytes, length_leBytes, ← List.append_assoc] at there

/-- The server decodes a command to its call. -/
theorem askedCall_record (c : MemoryCommand) : askedCall c.record c.tail c.case = c.call := by
  cases c with
  | openProcess pid =>
      have word := intAt_handle pid []
      rw [List.append_nil] at word
      rw [record, case, call, askedCall, word]
  | closeHandle handle =>
      have word := intAt_handle handle []
      rw [List.append_nil] at word
      rw [record, case, call, askedCall, word]
  | readProcessMemory handle address size size_le =>
      rw [record, case, call, askedCall, wordAt_size handle address size_le, List.append_assoc,
        List.append_assoc, intAt_handle, wordAt_address]
  | writeProcessMemory handle address buf length_le =>
      rw [record, case, call, tail, askedCall, intAt_length _ _ length_le, List.append_assoc,
        intAt_handle, wordAt_address]
      simp only [Ne, Int.natCast_eq_zero]

theorem call_request (c : MemoryCommand) : c.request.call = c.call := by
  rw [Request.call]
  change (CeCommand.ofByte c.case.code).bind (askedCall c.record c.tail) = _
  rw [CeCommand.ofByte_code]
  exact c.askedCall_record

theorem askedValues_record {σ : Type} (answer : (call : ApiCall) → σ → call.Reply × σ) (s : σ)
    (c : MemoryCommand)
    : askedValues answer c.record c.tail s c.case = c.values answer s := by
  cases c with
  | openProcess pid =>
      have word := intAt_handle pid []
      rw [List.append_nil] at word
      change valuesOf answer (intBytes pid.toInt) [] s .openProcess = _
      rw [valuesOf, word, values]
  | closeHandle handle => rfl
  | readProcessMemory handle address size size_le =>
      change valuesOf answer (record _) [] s .readProcessMemory = _
      rw [record, values, valuesOf, wordAt_size handle address size_le, List.append_assoc,
        List.append_assoc, intAt_handle, wordAt_address]
  | writeProcessMemory handle address buf length_le =>
      have here := intAt_length handle.toInt address length_le
      change valuesOf answer (intBytes handle.toInt ++ leBytes 8 address.toNat
        ++ intBytes buf.length) buf s .writeProcessMemory = _
      rw [values, valuesOf, here, List.append_assoc, intAt_handle, wordAt_address]
      simp only [Ne, Int.natCast_eq_zero]

theorem isAsked_request (c : MemoryCommand) : c.request.IsAsked := by
  refine ⟨c.case, CeCommand.ofByte_code c.case, ?_⟩
  cases c with
  | openProcess pid => trivial
  | closeHandle handle => trivial
  | readProcessMemory handle address size size_le =>
      have plain := wordAt_leBytes (w := 0) (n := 1) (by decide)
        (intBytes handle.toInt ++ leBytes 8 address.toNat ++ leBytes 4 size) []
      rw [List.append_nil, List.length_append, List.length_append, length_intBytes, length_leBytes,
        length_leBytes] at plain
      exact plain
  | writeProcessMemory handle address buf length_le =>
      have natural : 0 ≤ intAt (record (.writeProcessMemory handle address buf length_le)) 12 := by
        rw [record, intAt_length handle.toInt address length_le]
        exact Int.natCast_nonneg _
      exact natural

/-- One request of a session is one call. -/
theorem askedStep_request {σ : Type} (answer : (call : ApiCall) → σ → call.Reply × σ) (s : σ)
    (c : MemoryCommand)
    : askedStep answer s c.request = (some (c.values answer s), stateBehind answer c.call s) := by
  rw [askedStep_of_selects s (CeCommand.ofByte_code c.case)]
  change (some (askedValues answer c.record c.tail s c.case),
    stateBehind answer (askedCall c.record c.tail c.case) s) = _
  rw [askedValues_record, askedCall_record]

end MemoryCommand

end RwMem.CeServer
