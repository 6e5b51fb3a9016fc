import RwMem.Driver.Ioctl
import RwMem.Transition.Runs

/-! The functions of the server that read and write memory through the driver, and their fast
forms, which keep their buffers from call to call.
-/

namespace RwMem.Server

open Memory RwMem.Driver Transition

-----------------------------------------------------------------------------------------
-- Requests and drivers
-----------------------------------------------------------------------------------------

/-- What a call of `read` comes to: its result, and what it stored in the cells of the buffer. -/
structure ReadReply (size : Nat) where
  ret : Int
  stores : Nat → Option UInt8
  ret_le : ret ≤ size
  inside : ∀ i, (stores i).isSome → i < size

/-- The buffer after the call. -/
def ReadReply.apply {size : Nat} (reply : ReadReply size) (buf : Nat → UInt8) : Nat → UInt8 :=
  fun i => (reply.stores i).getD (buf i)

/-- A driver is given the 17 bytes in front of a buffer as the request, and the payload of a write
behind them.
-/
structure MemoryDriver (σ : Type) where
  read : σ → (request : List UInt8) → (size : Nat) → ReadReply size × σ
  write : σ → (request payload : List UInt8) → Int × σ

/-- The arguments of a call. The buffer has at least `nSize` bytes, and `lpNumberOfBytes` is what
its pointer leads to, if it is not null. The size keeps the `int` lengths of buffers exact.
-/
structure MemoryRequest where
  hProcess : UInt64
  lpBaseAddress : UInt64
  lpBuffer : Nat → UInt8
  nSize : Nat
  lpNumberOfBytes : Option Nat
  bIsForce : Int
  nSize_le : nSize ≤ 2 ^ 31 - 18

inductive MemoryCall where
  | read (r : MemoryRequest)
  | write (r : MemoryRequest)

/-- What a call returns and what is behind its pointers after it. `reported` is the count of a
successful call and `sent` is what the driver was given: a history that the code does not keep.
-/
structure MemoryResult where
  ret : Bool
  lpBuffer : Nat → UInt8
  lpNumberOfBytes : Option Nat
  reported : Nat
  sent : Option (List UInt8 × List UInt8 × Nat)

namespace MemoryRequest

variable (r : MemoryRequest)

/-- The four tests in front of every call. -/
def IsRefused (nDriverLink : Int) : Prop :=
  r.lpBaseAddress = 0 ∨ nDriverLink < 0 ∨ r.hProcess = 0 ∨ r.nSize = 0

instance (nDriverLink : Int) : Decidable (r.IsRefused nDriverLink) :=
  inferInstanceAs (Decidable (_ ∨ _))

def flag : UInt8 := if r.bIsForce = 1 then 1 else 0

/-- The three fields of a request, stored in front of a buffer. -/
def storeRequest (buf : Nat → UInt8) : Nat → UInt8 :=
  let buf := store buf 0 (leBytes 8 r.hProcess.toNat)
  let buf := store buf 8 (leBytes 8 r.lpBaseAddress.toNat)
  store buf 16 [r.flag]

/-- The bytes of a request. -/
def bytes : List UInt8 :=
  leBytes 8 r.hProcess.toNat ++ leBytes 8 r.lpBaseAddress.toNat ++ [r.flag]

def refused : MemoryResult := ⟨false, r.lpBuffer, r.lpNumberOfBytes, 0, none⟩

def failed (lpBuffer : Nat → UInt8) (request payload : List UInt8) : MemoryResult :=
  ⟨false, lpBuffer, r.lpNumberOfBytes, 0, some (request, payload, r.nSize)⟩

def succeeded (lpBuffer : Nat → UInt8) (request payload : List UInt8) (real : Nat)
    : MemoryResult :=
  ⟨true, lpBuffer, r.lpNumberOfBytes.map (fun _ => real), real,
    some (request, payload, r.nSize)⟩

end MemoryRequest

/-- An `int` length from a `size_t`, as `malloc` and `memset` take it. -/
def bufSizeOf (n : Nat) : Nat := (toInt (wrap n : Nat) % 2 ^ 64).toNat

-----------------------------------------------------------------------------------------
-- The plain functions
-----------------------------------------------------------------------------------------

variable {σ : Type} (driver : MemoryDriver σ) (nDriverLink : Int)

/-- `_rwProcMemDriver_ReadProcessMemory`. The request stands in a buffer of its own if it is longer
than what is read, else in the buffer of the caller.
-/
def readProcessMemory (r : MemoryRequest) (d : σ) : MemoryResult × σ :=
  if r.IsRefused nDriverLink then (r.refused, d)
  else if r.nSize < 17 then
    let buf := r.storeRequest (fun _ => 0)
    let (reply, d) := driver.read d (cells buf 0 17) r.nSize
    let after := reply.apply buf
    if reply.ret ≤ 0 then (r.failed r.lpBuffer (cells buf 0 17) [], d)
    else
      (r.succeeded (blit r.lpBuffer 0 after 0 reply.ret.toNat) (cells buf 0 17) []
        reply.ret.toNat, d)
  else
    let buf := r.storeRequest r.lpBuffer
    let (reply, d) := driver.read d (cells buf 0 17) r.nSize
    let after := reply.apply buf
    if reply.ret ≤ 0 then (r.failed after (cells buf 0 17) [], d)
    else (r.succeeded after (cells buf 0 17) [] reply.ret.toNat, d)

/-- `_rwProcMemDriver_WriteProcessMemory`; `none` if its buffer is too short. -/
def writeProcessMemory (r : MemoryRequest) (d : σ) : Option (MemoryResult × σ) :=
  if r.IsRefused nDriverLink then some (r.refused, d)
  else if bufSizeOf (r.nSize + 17) < 17 + r.nSize then none
  else
    let buf := blit (r.storeRequest (fun _ => 0)) 17 r.lpBuffer 0 r.nSize
    let (realWrite, d) := driver.write d (cells buf 0 17) (cells buf 17 r.nSize)
    if realWrite ≤ 0 then
      some (r.failed r.lpBuffer (cells buf 0 17) (cells buf 17 r.nSize), d)
    else
      some (r.succeeded r.lpBuffer (cells buf 0 17) (cells buf 17 r.nSize) realWrite.toNat, d)

-----------------------------------------------------------------------------------------
-- The fast functions
-----------------------------------------------------------------------------------------

/-- A static buffer with its recorded size. `room` is what `malloc` was asked for; it succeeds. -/
structure CachedBuffer where
  mem : Nat → UInt8
  room : Nat
  size : Nat

/-- The null pointer. -/
def CachedBuffer.null : CachedBuffer := ⟨fun _ => 0, 0, 0⟩

/-- A buffer that is too small is replaced by a new one, with whatever is in it. -/
def CachedBuffer.grow (c : CachedBuffer) (bufSize : Nat) (fresh : Nat → UInt8) : CachedBuffer :=
  if c.size < bufSize then ⟨fresh, bufSize, bufSize⟩ else c

/-- `_rwProcMemDriver_ReadProcessMemory_Fast`; `none` if the buffer is shorter than what is cleared
or stored in it.
-/
def readProcessMemoryFast (r : MemoryRequest) (fresh : Nat → UInt8) (c : CachedBuffer) (d : σ)
    : Option (MemoryResult × CachedBuffer × σ) :=
  if r.IsRefused nDriverLink then some (r.refused, c, d)
  else
    let bufSize := bufSizeOf (if r.nSize < 17 then 17 else r.nSize)
    let c := c.grow bufSize fresh
    if c.room < max bufSize (max 17 r.nSize) then none
    else
      let buf := r.storeRequest (blit c.mem 0 (fun _ => 0) 0 bufSize)
      let (reply, d) := driver.read d (cells buf 0 17) r.nSize
      let after := reply.apply buf
      if reply.ret ≤ 0 then
        some (r.failed r.lpBuffer (cells buf 0 17) [], { c with mem := after }, d)
      else
        some (r.succeeded (blit r.lpBuffer 0 after 0 reply.ret.toNat) (cells buf 0 17) []
          reply.ret.toNat, { c with mem := after }, d)

/-- `_rwProcMemDriver_WriteProcessMemory_Fast`; `none` if the buffer is too short. -/
def writeProcessMemoryFast (r : MemoryRequest) (fresh : Nat → UInt8) (c : CachedBuffer) (d : σ)
    : Option (MemoryResult × CachedBuffer × σ) :=
  if r.IsRefused nDriverLink then some (r.refused, c, d)
  else
    let c := c.grow (bufSizeOf (r.nSize + 17)) fresh
    if c.room < 17 + r.nSize then none
    else
      let buf := blit (r.storeRequest c.mem) 17 r.lpBuffer 0 r.nSize
      let (realWrite, d) := driver.write d (cells buf 0 17) (cells buf 17 r.nSize)
      if realWrite ≤ 0 then
        some (r.failed r.lpBuffer (cells buf 0 17) (cells buf 17 r.nSize),
          { c with mem := buf }, d)
      else
        some (r.succeeded r.lpBuffer (cells buf 0 17) (cells buf 17 r.nSize) realWrite.toNat,
          { c with mem := buf }, d)

/-- The two static buffers and the driver behind them. -/
structure FastState (σ : Type) where
  readBuf : CachedBuffer
  writeBuf : CachedBuffer
  driver : σ

def plainCall : MemoryCall → σ → Option (MemoryResult × σ)
  | .read r, d => some (readProcessMemory driver nDriverLink r d)
  | .write r, d => writeProcessMemory driver nDriverLink r d

def fastCall (fresh : Nat → UInt8) : MemoryCall → FastState σ → Option (MemoryResult × FastState σ)
  | .read r, s =>
      (readProcessMemoryFast driver nDriverLink r fresh s.readBuf s.driver).map
        (fun (result, c, d) => (result, { s with readBuf := c, driver := d }))
  | .write r, s =>
      (writeProcessMemoryFast driver nDriverLink r fresh s.writeBuf s.driver).map
        (fun (result, c, d) => (result, { s with writeBuf := c, driver := d }))

/-- Two servers with one driver each, and the results of the calls that they both made. -/
structure Compared (σ : Type) where
  plain : σ
  fast : FastState σ
  log : List (MemoryResult × MemoryResult)

def Compared.initial (d : σ) : Compared σ := ⟨d, ⟨.null, .null, d⟩, []⟩

/-- A call on both, and the new memory that it is given. -/
def compareStep (s : Compared σ) (a : MemoryCall × (Nat → UInt8)) : Option (Compared σ) :=
  (plainCall driver nDriverLink a.1 s.plain).bind fun (plain, d) =>
  (fastCall driver nDriverLink a.2 a.1 s.fast).map fun (fast, t) =>
    ⟨d, t, s.log ++ [(plain, fast)]⟩

-----------------------------------------------------------------------------------------
-- What the driver is given
-----------------------------------------------------------------------------------------

namespace MemoryRequest

variable (r : MemoryRequest)

theorem length_bytes : r.bytes.length = 17 := by
  simp [bytes]

theorem storeRequest_eq (buf : Nat → UInt8) : r.storeRequest buf = store buf 0 r.bytes := by
  rw [bytes, store_append, store_append, List.length_append, length_leBytes, length_leBytes]
  rfl

/-- The request is what stands in front of the buffer. -/
theorem cells_storeRequest (buf : Nat → UInt8) : cells (r.storeRequest buf) 0 17 = r.bytes := by
  rw [storeRequest_eq, ← length_bytes r, cells_store]

/-- In front stands the request, whatever was there. -/
theorem storeRequest_front (buf buf' : Nat → UInt8) {i : Nat} (front : i < 17)
    : r.storeRequest buf i = r.storeRequest buf' i := by
  have inside : i < r.bytes.length := by rw [length_bytes]; exact front
  have there (mem : Nat → UInt8) : store mem 0 r.bytes (0 + i) = r.bytes[i] := store_inside inside
  rw [Nat.zero_add] at there
  rw [storeRequest_eq, storeRequest_eq, there, there]

theorem storeRequest_behind (buf : Nat → UInt8) {i : Nat} (behind : 17 ≤ i)
    : r.storeRequest buf i = buf i := by
  rw [storeRequest_eq]
  exact store_outside (Or.inr (by rw [length_bytes]; omega))

/-- The payload is stored behind the request. -/
theorem cells_writeRequest (buf : Nat → UInt8)
    : cells (blit (r.storeRequest buf) 17 r.lpBuffer 0 r.nSize) 0 17 = r.bytes := by
  rw [← cells_storeRequest r buf]
  exact cells_congr (fun i _ front => blit_outside (by omega))

theorem cells_writePayload (buf : Nat → UInt8)
    : cells (blit (r.storeRequest buf) 17 r.lpBuffer 0 r.nSize) 17 r.nSize
      = cells r.lpBuffer 0 r.nSize := by
  apply List.map_congr_left
  intro j inside
  have below := List.mem_range.mp inside
  rw [blit_inside (by omega) (by omega), Nat.add_sub_cancel_left]

end MemoryRequest

/-- An `int` length in its range is exact. -/
theorem bufSizeOf_of_lt {n : Nat} (small : n < 2 ^ 31) : bufSizeOf n = n := by
  have exact : toInt (wrap n : Nat) = n := by
    rw [wrap, Nat.mod_eq_of_lt (by omega), toInt]
    exact Int.bmod_eq_of_le (by omega) (by omega)
  rw [bufSizeOf, exact]
  omega

-----------------------------------------------------------------------------------------
-- The results of the fast functions
-----------------------------------------------------------------------------------------

/-- The recorded size is the size of the buffer. -/
def CachedBuffer.Ok (c : CachedBuffer) : Prop := c.room = c.size

theorem CachedBuffer.Ok.grow {c : CachedBuffer} (ok : c.Ok) (bufSize : Nat) (fresh : Nat → UInt8)
    : (c.grow bufSize fresh).Ok ∧ bufSize ≤ (c.grow bufSize fresh).room := by
  rw [CachedBuffer.grow]
  split
  · exact ⟨rfl, Nat.le_refl bufSize⟩
  · next enough =>
      rw [CachedBuffer.Ok] at ok
      exact ⟨ok, by omega⟩

/-- The result of a fast read does not depend on the cached buffer. -/
def MemoryRequest.fastReadResult (r : MemoryRequest) (reply : ReadReply r.nSize) : MemoryResult :=
  if reply.ret ≤ 0 then r.failed r.lpBuffer r.bytes []
  else
    r.succeeded (blit r.lpBuffer 0 (reply.apply (r.storeRequest (fun _ => 0))) 0 reply.ret.toNat)
      r.bytes [] reply.ret.toNat

/-- The result of a write. -/
def MemoryRequest.writeResult (r : MemoryRequest) (realWrite : Int) : MemoryResult :=
  if realWrite ≤ 0 then r.failed r.lpBuffer r.bytes (cells r.lpBuffer 0 r.nSize)
  else r.succeeded r.lpBuffer r.bytes (cells r.lpBuffer 0 r.nSize) realWrite.toNat

section Results

variable {nDriverLink} {r : MemoryRequest} {c : CachedBuffer} (d : σ)

/-- Cells that a driver has not stored in are those of the buffer. -/
theorem ReadReply.apply_congr {size : Nat} (reply : ReadReply size) {buf buf' : Nat → UInt8} {i : Nat}
    (same : buf i = buf' i)
    : reply.apply buf i = reply.apply buf' i := by
  rw [apply, apply, same]

theorem blit_congr {dst src src' : Nat → UInt8} {n : Nat} (same : ∀ i < n, src i = src' i)
    : blit dst 0 src 0 n = blit dst 0 src' 0 n := by
  funext i
  by_cases inside : i < n
  · rw [blit_inside (Nat.zero_le i) (by omega), blit_inside (Nat.zero_le i) (by omega)]
    exact same _ (by omega)
  · rw [blit_outside (by omega), blit_outside (by omega)]

theorem readProcessMemoryFast_eq (fresh : Nat → UInt8) (ok : c.Ok)
    (accepted : ¬r.IsRefused nDriverLink)
    : ∃ c', readProcessMemoryFast driver nDriverLink r fresh c d
          = some (r.fastReadResult (driver.read d r.bytes r.nSize).1, c',
            (driver.read d r.bytes r.nSize).2)
        ∧ c'.Ok := by
  have small := r.nSize_le
  have exact : bufSizeOf (if r.nSize < 17 then 17 else r.nSize) = max 17 r.nSize := by
    rw [bufSizeOf_of_lt (by split <;> omega)]
    split <;> omega
  obtain ⟨grown, room⟩ := ok.grow (max 17 r.nSize) fresh
  rw [readProcessMemoryFast, if_neg accepted, exact]
  dsimp only
  rw [if_neg (by omega), MemoryRequest.cells_storeRequest]
  generalize c.grow (max 17 r.nSize) fresh = c at grown
  have bound := (driver.read d r.bytes r.nSize).1.ret_le
  have same : ∀ i < (driver.read d r.bytes r.nSize).1.ret.toNat,
      (driver.read d r.bytes r.nSize).1.apply
          (r.storeRequest (blit c.mem 0 (fun _ => 0) 0 (max 17 r.nSize))) i
        = (driver.read d r.bytes r.nSize).1.apply (r.storeRequest (fun _ => 0)) i := by
    intro i inside
    refine ReadReply.apply_congr _ ?_
    by_cases front : i < 17
    · exact r.storeRequest_front _ _ front
    · rw [r.storeRequest_behind _ (by omega), r.storeRequest_behind _ (by omega)]
      exact blit_inside (Nat.zero_le i) (by omega)
  rw [MemoryRequest.fastReadResult, ← blit_congr same]
  split
  · exact ⟨_, rfl, grown⟩
  · exact ⟨_, rfl, grown⟩

theorem writeProcessMemoryFast_eq (fresh : Nat → UInt8) (ok : c.Ok)
    (accepted : ¬r.IsRefused nDriverLink)
    : ∃ c', writeProcessMemoryFast driver nDriverLink r fresh c d
          = some (r.writeResult (driver.write d r.bytes (cells r.lpBuffer 0 r.nSize)).1, c',
            (driver.write d r.bytes (cells r.lpBuffer 0 r.nSize)).2)
        ∧ c'.Ok := by
  have small := r.nSize_le
  have exact : bufSizeOf (r.nSize + 17) = r.nSize + 17 := bufSizeOf_of_lt (by omega)
  obtain ⟨grown, room⟩ := ok.grow (r.nSize + 17) fresh
  rw [writeProcessMemoryFast, if_neg accepted, exact]
  dsimp only
  rw [if_neg (by omega), MemoryRequest.cells_writeRequest, MemoryRequest.cells_writePayload,
    MemoryRequest.writeResult]
  split
  · exact ⟨_, rfl, grown⟩
  · exact ⟨_, rfl, grown⟩

theorem writeProcessMemory_eq (accepted : ¬r.IsRefused nDriverLink)
    : writeProcessMemory driver nDriverLink r d
      = some (r.writeResult (driver.write d r.bytes (cells r.lpBuffer 0 r.nSize)).1,
        (driver.write d r.bytes (cells r.lpBuffer 0 r.nSize)).2) := by
  have small := r.nSize_le
  have exact : bufSizeOf (r.nSize + 17) = r.nSize + 17 := bufSizeOf_of_lt (by omega)
  rw [writeProcessMemory, if_neg accepted, exact, if_neg (by omega)]
  dsimp only
  rw [MemoryRequest.cells_writeRequest, MemoryRequest.cells_writePayload,
    MemoryRequest.writeResult]
  split
  · rfl
  · rfl

end Results

-----------------------------------------------------------------------------------------
-- Runs of calls on both
-----------------------------------------------------------------------------------------

/-- What a caller sees: the value returned, the count, as many bytes of its buffer, and behind them
what the driver was given.
-/
def MemoryResult.seen (m : MemoryResult)
    : Bool × Option Nat × List UInt8 × Option (List UInt8 × List UInt8 × Nat) :=
  (m.ret, m.lpNumberOfBytes, cells m.lpBuffer 0 m.reported, m.sent)

/-- The same but for the bytes of the buffer. -/
structure MemoryResult.Matches (m n : MemoryResult) : Prop where
  ret : m.ret = n.ret
  lpNumberOfBytes : m.lpNumberOfBytes = n.lpNumberOfBytes
  reported : m.reported = n.reported
  sent : m.sent = n.sent

/-- Of the bytes that a read reports, those that the driver left as they were had been zero, except
where the request stands.
-/
def MemoryCall.IsFilled (d : σ) : MemoryCall → Prop
  | .read r =>
      ¬r.IsRefused nDriverLink →
        ∀ i : Nat, 17 ≤ i → i < (driver.read d r.bytes r.nSize).1.ret →
          (driver.read d r.bytes r.nSize).1.stores i = none → r.lpBuffer i = 0
  | .write _ => True

/-- The result of the plain function. -/
def MemoryCall.plainResult (d : σ) : MemoryCall → MemoryResult
  | .read r => (readProcessMemory driver nDriverLink r d).1
  | .write r =>
      if r.IsRefused nDriverLink then r.refused
      else r.writeResult (driver.write d r.bytes (cells r.lpBuffer 0 r.nSize)).1

/-- The result of the fast function. -/
def MemoryCall.fastResult (d : σ) : MemoryCall → MemoryResult
  | .read r =>
      if r.IsRefused nDriverLink then r.refused
      else r.fastReadResult (driver.read d r.bytes r.nSize).1
  | .write r =>
      if r.IsRefused nDriverLink then r.refused
      else r.writeResult (driver.write d r.bytes (cells r.lpBuffer 0 r.nSize)).1

/-- The driver behind a call. -/
def MemoryCall.next (d : σ) : MemoryCall → σ
  | .read r =>
      if r.IsRefused nDriverLink then d else (driver.read d r.bytes r.nSize).2
  | .write r =>
      if r.IsRefused nDriverLink then d
      else (driver.write d r.bytes (cells r.lpBuffer 0 r.nSize)).2

structure FastState.Ok (s : FastState σ) : Prop where
  readBuf : s.readBuf.Ok
  writeBuf : s.writeBuf.Ok

theorem plainCall_eq (call : MemoryCall) (d : σ)
    : plainCall driver nDriverLink call d
      = some (call.plainResult driver nDriverLink d, call.next driver nDriverLink d) := by
  cases call with
  | read r =>
      refine congrArg some (Prod.ext rfl ?_)
      simp only [readProcessMemory, MemoryCall.next]
      by_cases refused : r.IsRefused nDriverLink
      · rw [if_pos refused, if_pos refused]
      · simp only [if_neg refused, MemoryRequest.cells_storeRequest]
        split <;> split <;> rfl
  | write r =>
      by_cases refused : r.IsRefused nDriverLink
      · simp only [plainCall, writeProcessMemory, MemoryCall.plainResult, MemoryCall.next,
          if_pos refused]
      · simp only [plainCall, writeProcessMemory_eq driver d refused, MemoryCall.plainResult,
          MemoryCall.next, if_neg refused]

/-- With any cached buffers a fast call has one result. -/
theorem fastCall_eq (fresh : Nat → UInt8) (call : MemoryCall) {s : FastState σ} (ok : s.Ok)
    : ∃ t, fastCall driver nDriverLink fresh call s
          = some (call.fastResult driver nDriverLink s.driver, t)
        ∧ t.driver = call.next driver nDriverLink s.driver
        ∧ t.Ok := by
  cases call with
  | read r =>
      by_cases refused : r.IsRefused nDriverLink
      · refine ⟨s, ?_, ?_, ok⟩
        · simp only [fastCall, readProcessMemoryFast, MemoryCall.fastResult, if_pos refused,
            Option.map_some]
        · simp only [MemoryCall.next, if_pos refused]
      · obtain ⟨c, answer, grown⟩ := readProcessMemoryFast_eq driver s.driver fresh ok.readBuf
          refused
        simp only [fastCall, answer, MemoryCall.fastResult, MemoryCall.next, if_neg refused]
        exact ⟨_, rfl, rfl, grown, ok.writeBuf⟩
  | write r =>
      by_cases refused : r.IsRefused nDriverLink
      · refine ⟨s, ?_, ?_, ok⟩
        · simp only [fastCall, writeProcessMemoryFast, MemoryCall.fastResult, if_pos refused,
            Option.map_some]
        · simp only [MemoryCall.next, if_pos refused]
      · obtain ⟨c, answer, grown⟩ := writeProcessMemoryFast_eq driver s.driver fresh
          ok.writeBuf refused
        simp only [fastCall, answer, MemoryCall.fastResult, MemoryCall.next, if_neg refused]
        exact ⟨_, rfl, rfl, ok.readBuf, grown⟩

/-- The results of both match but for the bytes of the buffer. -/
theorem plainResult_matches (call : MemoryCall) (d : σ)
    : (call.plainResult driver nDriverLink d).Matches (call.fastResult driver nDriverLink d) := by
  cases call with
  | write r => exact ⟨rfl, rfl, rfl, rfl⟩
  | read r =>
      simp only [MemoryCall.plainResult, MemoryCall.fastResult, readProcessMemory]
      by_cases refused : r.IsRefused nDriverLink
      · simp only [if_pos refused]
        exact ⟨rfl, rfl, rfl, rfl⟩
      · simp only [if_neg refused, MemoryRequest.cells_storeRequest, MemoryRequest.fastReadResult]
        split <;> split <;> exact ⟨rfl, rfl, rfl, rfl⟩

/-- Two memories have the same first cells if they agree on them. -/
theorem cells_zero_eq_iff {mem mem' : Nat → UInt8} {n : Nat}
    : cells mem 0 n = cells mem' 0 n ↔ ∀ i < n, mem i = mem' i := by
  simp only [cells, Nat.zero_add, List.map_inj_left, List.mem_range]

theorem MemoryResult.Matches.seen_iff {m n : MemoryResult} (both : m.Matches n)
    : m.seen = n.seen ↔ ∀ i < m.reported, m.lpBuffer i = n.lpBuffer i := by
  simp only [MemoryResult.seen, both.ret, both.lpNumberOfBytes, both.sent, both.reported,
    Prod.mk.injEq, true_and, and_true, cells_zero_eq_iff]

/-- A cell of the buffer behind a call depends on what was in it only if it is left. -/
theorem ReadReply.apply_eq_iff {size : Nat} (reply : ReadReply size) {buf buf' : Nat → UInt8}
    {i : Nat}
    : reply.apply buf i = reply.apply buf' i ↔ (reply.stores i = none → buf i = buf' i) := by
  rw [apply, apply]
  cases reply.stores i with
  | none => simp
  | some byte => simp

/-- Over two buffers that hold the same request, the reported bytes are the same exactly if those
left behind the request are.
-/
theorem apply_storeRequest_iff (r : MemoryRequest) {size : Nat} (reply : ReadReply size)
    (buf buf' : Nat → UInt8)
    : (∀ i < reply.ret.toNat,
          reply.apply (r.storeRequest buf) i = reply.apply (r.storeRequest buf') i)
      ↔ ∀ i : Nat, 17 ≤ i → i < reply.ret → reply.stores i = none → buf i = buf' i := by
  constructor
  · intro same i behind inside left
    have cell := reply.apply_eq_iff.mp (same i (by omega)) left
    rwa [r.storeRequest_behind buf behind, r.storeRequest_behind buf' behind] at cell
  · intro same i inside
    refine reply.apply_eq_iff.mpr (fun left => ?_)
    by_cases front : i < 17
    · exact r.storeRequest_front buf buf' front
    · have behind : 17 ≤ i := by omega
      rw [r.storeRequest_behind buf behind, r.storeRequest_behind buf' behind]
      exact same i behind (by omega) left

/-- The plain read sees what the fast one sees exactly if nothing is left behind the request that
was not zero.
-/
theorem seen_read_iff {r : MemoryRequest} {d : σ} (accepted : ¬r.IsRefused nDriverLink)
    : ((MemoryCall.read r).plainResult driver nDriverLink d).seen
        = ((MemoryCall.read r).fastResult driver nDriverLink d).seen
      ↔ ∀ i : Nat, 17 ≤ i → i < (driver.read d r.bytes r.nSize).1.ret →
          (driver.read d r.bytes r.nSize).1.stores i = none → r.lpBuffer i = 0 := by
  rw [(plainResult_matches driver nDriverLink (.read r) d).seen_iff]
  have bound := (driver.read d r.bytes r.nSize).1.ret_le
  simp only [MemoryCall.plainResult, MemoryCall.fastResult, readProcessMemory, if_neg accepted,
    MemoryRequest.cells_storeRequest, MemoryRequest.fastReadResult]
  generalize (driver.read d r.bytes r.nSize).1 = reply at bound
  by_cases fails : reply.ret ≤ 0
  · have nothing : ∀ i : Nat, ¬(i : Int) < reply.ret := by omega
    by_cases short : r.nSize < 17
    · simp [short, fails, MemoryRequest.failed, nothing]
    · simp [short, fails, MemoryRequest.failed, nothing]
  · have fast : ∀ i < reply.ret.toNat,
        blit r.lpBuffer 0 (reply.apply (r.storeRequest (fun _ => 0))) 0 reply.ret.toNat i
          = reply.apply (r.storeRequest (fun _ => 0)) i := by
      intro i inside
      rw [blit_inside (Nat.zero_le i) (by omega), Nat.zero_add, Nat.sub_zero]
    by_cases short : r.nSize < 17
    · simp only [if_pos short, if_neg fails, MemoryRequest.succeeded]
      exact iff_of_true (fun _ _ => trivial) (fun i behind inside => by omega)
    · simp only [if_neg short, if_neg fails, MemoryRequest.succeeded]
      rw [← apply_storeRequest_iff r reply r.lpBuffer (fun _ => 0)]
      exact forall₂_congr (fun i inside => by rw [fast i inside])

/-- A call is seen alike on both exactly if it leaves nothing that was not zero. -/
theorem seen_iff_isFilled (call : MemoryCall) (d : σ)
    : (call.plainResult driver nDriverLink d).seen = (call.fastResult driver nDriverLink d).seen
      ↔ call.IsFilled driver nDriverLink d := by
  cases call with
  | write r => exact iff_of_true rfl trivial
  | read r =>
      by_cases refused : r.IsRefused nDriverLink
      · refine iff_of_true ?_ (fun accepted => absurd refused accepted)
        simp only [MemoryCall.plainResult, MemoryCall.fastResult, readProcessMemory,
          if_pos refused]
      · rw [MemoryCall.IsFilled, forall_prop_of_true refused]
        exact seen_read_iff driver nDriverLink refused

/-- The drivers of both are in one state, and each cached buffer is as large as its recorded size. -/
structure Compared.Aligned (s : Compared σ) : Prop where
  sameDriver : s.fast.driver = s.plain
  buffers : s.fast.Ok
  logged : ∀ results ∈ s.log, results.1.Matches results.2

/-- All calls made so far are seen alike. -/
def Compared.Agrees (s : Compared σ) : Prop := ∀ results ∈ s.log, results.1.seen = results.2.seen

/-- A step makes one call on both. -/
theorem compareStep_eq {s : Compared σ} (aligned : s.Aligned) (a : MemoryCall × (Nat → UInt8))
    : ∃ t, compareStep driver nDriverLink s a = some t
        ∧ t.Aligned
        ∧ t.log = s.log ++ [(a.1.plainResult driver nDriverLink s.plain,
            a.1.fastResult driver nDriverLink s.plain)] := by
  obtain ⟨t, made, next, ok⟩ := fastCall_eq driver nDriverLink a.2 a.1 aligned.buffers
  rw [aligned.sameDriver] at made next
  let log := s.log ++ [(a.1.plainResult driver nDriverLink s.plain,
    a.1.fastResult driver nDriverLink s.plain)]
  refine ⟨⟨a.1.next driver nDriverLink s.plain, t, log⟩, ?_, ?_, rfl⟩
  · simp only [compareStep, plainCall_eq, Option.bind_some, made, Option.map_some, log]
  · refine ⟨next, ok, fun results member => ?_⟩
    rcases List.mem_append.mp member with earlier | now
    · exact aligned.logged results earlier
    · rw [List.mem_singleton.mp now]
      exact plainResult_matches driver nDriverLink a.1 s.plain

theorem aligned_initial (d : σ) : (Compared.initial d).Aligned :=
  ⟨rfl, ⟨rfl, rfl⟩, fun _ member => nomatch member⟩

theorem aligned_step {s t : Compared σ} {a : MemoryCall × (Nat → UInt8)} (aligned : s.Aligned)
    (taken : compareStep driver nDriverLink s a = some t)
    : t.Aligned := by
  obtain ⟨u, made, there, -⟩ := compareStep_eq driver nDriverLink aligned a
  cases made.symm.trans taken
  exact there

theorem agrees_step_iff {s t : Compared σ} {a : MemoryCall × (Nat → UInt8)} (aligned : s.Aligned)
    (agrees : s.Agrees) (taken : compareStep driver nDriverLink s a = some t)
    : t.Agrees ↔ a.1.IsFilled driver nDriverLink s.plain := by
  obtain ⟨u, made, -, log⟩ := compareStep_eq driver nDriverLink aligned a
  cases made.symm.trans taken
  rw [← seen_iff_isFilled, Compared.Agrees, log]
  constructor
  · intro all
    exact all _ (List.mem_append_right _ (List.mem_singleton.mpr rfl))
  · intro same results member
    rcases List.mem_append.mp member with earlier | now
    · exact agrees results earlier
    · rw [List.mem_singleton.mp now]
      exact same

/-- In every run of calls on both the fast functions stay in their buffers, return and report what
the plain ones do, and give the driver the same bytes. With any other buffers they would have the
same results. The bytes that are read agree exactly if each read leaves no reported byte of a
caller's buffer as it was, unless that is zero or the request stands there.
-/
theorem fast_agrees_iff (d : σ) (acts : List (MemoryCall × (Nat → UInt8)))
    : (∃ t, exec (compareStep driver nDriverLink) (.initial d) acts = some t)
      ∧ Throughout (compareStep driver nDriverLink) Compared.Aligned (.initial d) acts
      ∧ (∀ s s' : FastState σ, s.Ok → s'.Ok → s.driver = s'.driver → ∀ fresh fresh' call,
          (fastCall driver nDriverLink fresh call s).map Prod.fst
            = (fastCall driver nDriverLink fresh' call s').map Prod.fst)
      ∧ (Throughout (compareStep driver nDriverLink) Compared.Agrees (.initial d) acts
        ↔ Along (compareStep driver nDriverLink)
            (fun s a => a.1.IsFilled driver nDriverLink s.plain) (.initial d) acts) := by
  have kept : ∀ s a t, Compared.Aligned s → compareStep driver nDriverLink s a = some t
      → t.Aligned := fun _ _ _ aligned taken => aligned_step driver nDriverLink aligned taken
  have known := invariant_of_step acts (aligned_initial d) kept
  obtain ⟨t, run⟩ := exists_exec acts (aligned_initial d)
    (fun s a aligned =>
      (compareStep_eq driver nDriverLink aligned a).imp (fun _ made => made.1)) kept
  refine ⟨⟨t, run⟩, known, ?_, ?_⟩
  · intro s s' ok ok' same fresh fresh' call
    obtain ⟨u, made, -⟩ := fastCall_eq driver nDriverLink fresh call ok
    obtain ⟨u', made', -⟩ := fastCall_eq driver nDriverLink fresh' call ok'
    rw [made, made', same]
    rfl
  · have allowed : Along (compareStep driver nDriverLink) (fun _ _ => True) (.initial d) acts :=
      along_of_forall (fun _ _ _ => trivial) _
    have start : (Compared.initial d).Agrees := fun _ member => nomatch member
    exact throughout_iff_along known allowed start
      (fun s a t aligned _ agrees taken =>
        agrees_step_iff driver nDriverLink aligned agrees taken) run

end RwMem.Server
