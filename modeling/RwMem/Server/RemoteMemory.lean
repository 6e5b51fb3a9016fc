import RwMem.Server.KernelMemory
import RwMem.Transfer.RemoteMemory
import RwMem.Transition.Answers

/-! The server's driver client over this repository's driver: runs of calls are runs of a machine
that has the memory of the targets and nothing else.
-/

namespace RwMem.Server

open Memory RwMem.Driver RwMem.Client RwMem.Transfer Transition

-----------------------------------------------------------------------------------------
-- The machine
-----------------------------------------------------------------------------------------

/-- Physical memory, and the number of calls that reached the driver. -/
structure RemoteState where
  calls : Nat
  mem : Nat → UInt8

/-- A call, with the new memory that its buffer may be given; or a byte of physical memory that
somebody else stores, such as a target.
-/
inductive RemoteAction where
  | call (c : MemoryCall) (fresh : Nat → UInt8)
  | store (a : Nat) (b : UInt8)

/-- What the caller has of a call: the bytes that it read or how many it wrote, with what is then
behind `lpNumberOfBytes`.
-/
inductive Outcome where
  | failed
  | read (bytes : List UInt8) (number : Option Nat)
  | wrote (n : Nat) (number : Option Nat)
  | stored
deriving DecidableEq

namespace MemoryRequest

variable (r : MemoryRequest)

/-- The driver keeps the low 32 bits of the handle. -/
def pid : Int32 := Int32.ofNat r.hProcess.toNat

def isForce : Bool := r.bIsForce = 1

/-- The payload of a write. -/
def payload : List UInt8 := cells r.lpBuffer 0 r.nSize

/-- A call that moved nothing has failed. -/
def readOutcome (answer : Except Int (List UInt8)) : Outcome :=
  match answer with
  | .error _ => .failed
  | .ok bytes =>
      if bytes.length = 0 then .failed
      else .read bytes (r.lpNumberOfBytes.map (fun _ => bytes.length))

def writeOutcome (answer : Except Int Nat) : Outcome :=
  match answer with
  | .error _ => .failed
  | .ok n =>
      if n = 0 then .failed else .wrote n (r.lpNumberOfBytes.map (fun _ => n))

end MemoryRequest

/-- One action on the memory of the targets that there are at this call. Linux passes at most
`MAX_RW_COUNT` bytes.
-/
def remoteStep (g : PageGeometry) (nDriverLink : Int) (targets : Nat → Targets) (s : RemoteState)
    : RemoteAction → Outcome × RemoteState
  | .store a b => (.stored, { s with mem := Function.update s.mem a b })
  | .call (.read r) _ =>
      if r.IsRefused nDriverLink then (.failed, s)
      else
        let answer := remoteRead g (targets s.calls) s.mem r.pid r.lpBaseAddress r.isForce
          (min r.nSize (maxRwCount g))
        (r.readOutcome answer, { s with calls := s.calls + 1 })
  | .call (.write r) _ =>
      if r.IsRefused nDriverLink then (.failed, s)
      else
        let answer := remoteWrite g (targets s.calls) s.mem r.pid r.lpBaseAddress r.isForce
          (r.payload.take (maxRwCount g))
        (r.writeOutcome answer.1, ⟨s.calls + 1, answer.2⟩)

-----------------------------------------------------------------------------------------
-- The server
-----------------------------------------------------------------------------------------

variable {P : Type}

/-- The driver of this repository behind Linux, which passes at most `MAX_RW_COUNT` bytes. -/
def linuxDriver [DecidableEq P] (g : PageGeometry) (kernel : Nat → Kernel P)
    : MemoryDriver (KernelState P) where
  read s request size :=
    let (reply, s) := (kernelDriver kernel).read s request (min size (maxRwCount g))
    ({ ret := reply.ret
       stores := reply.stores
       ret_le := Int.le_trans reply.ret_le (Int.ofNat_le.mpr (Nat.min_le_left _ _))
       inside := fun i stored =>
         Nat.lt_of_lt_of_le (reply.inside i stored) (Nat.min_le_left _ _) },
      s)
  write s request payload := (kernelDriver kernel).write s request (payload.take (maxRwCount g))

/-- What the caller sees of a result. -/
def seen : RemoteAction → Option MemoryResult → Outcome
  | .call (.read _) _, some result =>
      if result.ret then .read (cells result.lpBuffer 0 result.reported) result.lpNumberOfBytes
      else .failed
  | .call (.write _) _, some result =>
      if result.ret then .wrote result.reported result.lpNumberOfBytes else .failed
  | _, _ => .stored

/-- One action with the plain functions. -/
def plainStep (driver : MemoryDriver (KernelState P)) (nDriverLink : Int) (s : KernelState P)
    : RemoteAction → Option (Option MemoryResult × KernelState P)
  | .store a b => some (none, { s with phys := Function.update s.phys a b })
  | .call c _ => (plainCall driver nDriverLink c s).map (fun (result, s) => (some result, s))

/-- One action with the fast functions. -/
def fastStep (driver : MemoryDriver (KernelState P)) (nDriverLink : Int)
    (s : FastState (KernelState P))
    : RemoteAction → Option (Option MemoryResult × FastState (KernelState P))
  | .store a b =>
      some (none,
        { s with driver := { s.driver with phys := Function.update s.driver.phys a b } })
  | .call c fresh =>
      (fastCall driver nDriverLink fresh c s).map (fun (result, s) => (some result, s))

/-- In every call the kernel is around the targets of this call. -/
structure ServesCalls (g : PageGeometry) (kernel : Nat → Kernel P) (ptes : P → PteBits)
    (targets : Nat → Targets)
    : Prop where
  geometry : ∀ n, (kernel n).geometry = g
  serves : ∀ n, Serves (kernel n) ptes (targets n)

/-- The kernel has the memory of the machine, and the entries are those at the start. -/
structure Holds (ptes : P → PteBits) (s : KernelState P) (t : RemoteState) : Prop where
  calls : s.calls = t.calls
  phys : s.phys = t.mem
  ptes : s.ptes = ptes

-----------------------------------------------------------------------------------------
-- One call of the driver
-----------------------------------------------------------------------------------------

variable {g : PageGeometry} {kernel : Nat → Kernel P} {ptes : P → PteBits}
variable {targets : Nat → Targets} {s : KernelState P} {t : RemoteState} {r : MemoryRequest}

/-- The driver decodes the requests of the server. -/
theorem decodeHeader_bytes (r : MemoryRequest)
    : decodeHeader r.bytes = ⟨r.pid, r.lpBaseAddress.toNat, r.isForce⟩ := by
  have process : r.hProcess.toNat < 256 ^ 8 := r.hProcess.toNat_lt
  have address : r.lpBaseAddress.toNat < 256 ^ 8 := r.lpBaseAddress.toNat_lt
  have last : r.bytes[16]? = some r.flag := by
    rw [MemoryRequest.bytes, List.getElem?_append_right (by simp)]
    simp
  have force : (some r.flag == some 1) = r.isForce := by
    rw [MemoryRequest.flag, MemoryRequest.isForce]
    split <;> simp_all
  rw [decodeHeader, last, force, MemoryRequest.bytes, List.append_assoc,
    List.take_append_of_le_length (by simp), List.take_of_length_le (by simp),
    List.drop_append_of_le_length (by simp), List.drop_of_length_le (by simp), List.nil_append,
    List.take_append_of_le_length (by simp), List.take_of_length_le (by simp),
    leValue_leBytes process, leValue_leBytes address]
  rfl

/-- A reply of the driver is an answer of the remote memory. -/
structure RepliesRead {size : Nat} (answer : Except Int (List UInt8)) (reply : ReadReply size)
    : Prop where
  ret : reply.ret = retOf (answer.map List.length)
  stores : ∀ bytes, answer = .ok bytes → ∀ i < bytes.length, reply.stores i = bytes[i]?

theorem header_userBuf (r : MemoryRequest) (rest : List UInt8) {size : Nat}
    (size_lt : size < 2 ^ 63)
    : (⟨userBuf (r.bytes ++ rest), size, size_lt⟩ : Request).header
      = ⟨r.pid, r.lpBaseAddress.toNat, r.isForce⟩ := by
  have front := cells_userBuf r.bytes rest
  rw [r.length_bytes] at front
  rw [Request.header, front, decodeHeader_bytes]

section Driver

variable [DecidableEq P]

theorem linuxDriver_read (serves : ServesCalls g kernel ptes targets) (holds : Holds ptes s t)
    (r : MemoryRequest)
    : RepliesRead
        (remoteRead g (targets t.calls) t.mem r.pid r.lpBaseAddress r.isForce
          (min r.nSize (maxRwCount g)))
        ((linuxDriver g kernel).read s r.bytes r.nSize).1
      ∧ ((linuxDriver g kernel).read s r.bytes r.nSize).2 = { s with calls := s.calls + 1 } := by
  have le := r.nSize_le
  have small : min r.nSize (maxRwCount g) < 2 ^ 63 := by omega
  have header := header_userBuf r [] small
  rw [List.append_nil] at header
  have answered := rwmemRead_answers (serves.serves s.calls) s.phys header
  rw [serves.geometry, holds.calls, holds.phys] at answered
  simp only [linuxDriver, kernelDriver, dif_pos small, readReply, holds.calls, holds.phys,
    holds.ptes, and_true]
  refine { ret := answered.ret, stores := ?_ }
  intro bytes same i inside
  have whole := answered.bytes bytes same
  dsimp only
  rw [if_pos ((answered.moved i).mpr ⟨bytes, same, inside⟩), ← whole]
  simp [cells, inside]

theorem linuxDriver_write (serves : ServesCalls g kernel ptes targets) (holds : Holds ptes s t)
    (r : MemoryRequest)
    : let answer := remoteWrite g (targets t.calls) t.mem r.pid r.lpBaseAddress r.isForce
        (r.payload.take (maxRwCount g))
      let reply := (linuxDriver g kernel).write s r.bytes r.payload
      reply.1 = retOf answer.1 ∧ Holds ptes reply.2 ⟨t.calls + 1, answer.2⟩ := by
  intro answer reply
  have le := r.nSize_le
  have length : (r.payload.take (maxRwCount g)).length ≤ r.nSize := by
    simp [MemoryRequest.payload, List.length_take]
  have small : (r.payload.take (maxRwCount g)).length < 2 ^ 63 := by omega
  have header := header_userBuf r (r.payload.take (maxRwCount g)) small
  have behind : ∀ i < (r.payload.take (maxRwCount g)).length,
      (r.payload.take (maxRwCount g))[i]?
        = some (userBuf (r.bytes ++ r.payload.take (maxRwCount g)) (17 + i)) := by
    intro i inside
    have past : r.bytes.length ≤ 17 + i := by rw [r.length_bytes]; omega
    rw [userBuf, List.getD_eq_getElem?_getD, List.getElem?_append_right past, r.length_bytes,
      Nat.add_sub_cancel_left, List.getElem?_eq_getElem inside]
    rfl
  have answered := rwmemWrite_answers (serves.serves s.calls) s.phys header rfl behind
  rw [serves.geometry, holds.calls, holds.phys] at answered
  simp only [reply, linuxDriver, kernelDriver, dif_pos small, holds.calls, holds.phys, holds.ptes]
  exact ⟨answered.ret, rfl, answered.phys, answered.entries⟩

end Driver

-----------------------------------------------------------------------------------------
-- One call of the server
-----------------------------------------------------------------------------------------

/-- The bytes of an answer stand in front of any buffer that the reply was stored in. -/
theorem RepliesRead.cells_apply {size : Nat} {bytes : List UInt8} {reply : ReadReply size}
    (replies : RepliesRead (.ok bytes) reply) (buf : Nat → UInt8)
    : cells (reply.apply buf) 0 bytes.length = bytes := by
  apply List.ext_getElem
  · simp
  · intro i _ inside
    have stored := replies.stores bytes rfl i inside
    simp [cells, ReadReply.apply, stored, inside]

/-- A buffer that was copied holds what was copied. -/
theorem cells_blit (dst src : Nat → UInt8) (n : Nat)
    : cells (blit dst 0 src 0 n) 0 n = cells src 0 n := by
  apply cells_congr
  intro i low high
  rw [blit_inside low high, Nat.sub_zero, Nat.zero_add]

/-- What the caller sees of a read that the driver answered. -/
theorem seen_read {answer : Except Int (List UInt8)} {reply : ReadReply r.nSize}
    (replies : RepliesRead answer reply) (errs : ∀ e, answer = .error e → 0 < e)
    {failed succeeded : MemoryResult} (fresh : Nat → UInt8)
    (fails : failed.ret = false) (succeeds : succeeded.ret = true)
    (reported : succeeded.reported = reply.ret.toNat)
    (number : succeeded.lpNumberOfBytes = r.lpNumberOfBytes.map (fun _ => reply.ret.toNat))
    (buffer : ∃ buf, cells succeeded.lpBuffer 0 reply.ret.toNat
      = cells (reply.apply buf) 0 reply.ret.toNat)
    : seen (.call (.read r) fresh) (some (if reply.ret ≤ 0 then failed else succeeded))
      = r.readOutcome answer := by
  have ret := replies.ret
  cases answer with
  | error e =>
      have positive := errs e rfl
      simp only [Except.map, retOf] at ret
      rw [if_pos (by omega), seen, fails]
      rfl
  | ok bytes =>
      simp only [Except.map, retOf] at ret
      obtain ⟨buf, same⟩ := buffer
      simp only [MemoryRequest.readOutcome]
      by_cases none : bytes.length = 0
      · rw [if_pos (by omega), if_pos none, seen, fails]
        rfl
      · rw [ret, Int.toNat_natCast, replies.cells_apply buf] at same
        rw [if_neg (by omega), if_neg none, seen, succeeds, reported, number, ret,
          Int.toNat_natCast, same]
        rfl

theorem seen_fastRead {answer : Except Int (List UInt8)} {reply : ReadReply r.nSize}
    (replies : RepliesRead answer reply) (errs : ∀ e, answer = .error e → 0 < e)
    (fresh : Nat → UInt8)
    : seen (.call (.read r) fresh) (some (r.fastReadResult reply)) = r.readOutcome answer :=
  seen_read replies errs fresh rfl rfl rfl rfl ⟨_, cells_blit _ _ _⟩

theorem seen_plainRead {answer : Except Int (List UInt8)} {driver : MemoryDriver (KernelState P)}
    {nDriverLink : Int} (accepted : ¬r.IsRefused nDriverLink)
    (replies : RepliesRead answer (driver.read s r.bytes r.nSize).1)
    (errs : ∀ e, answer = .error e → 0 < e) (fresh : Nat → UInt8)
    : seen (.call (.read r) fresh) (some (readProcessMemory driver nDriverLink r s).1)
      = r.readOutcome answer := by
  rw [readProcessMemory, if_neg accepted]
  simp only [MemoryRequest.cells_storeRequest]
  split
  · rw [apply_ite Prod.fst]
    exact seen_read replies errs fresh rfl rfl rfl rfl ⟨_, cells_blit _ _ _⟩
  · rw [apply_ite Prod.fst]
    exact seen_read replies errs fresh rfl rfl rfl rfl ⟨_, rfl⟩

theorem seen_write {answer : Except Int Nat} {ret : Int} (returned : ret = retOf answer)
    (errs : ∀ e, answer = .error e → 0 < e) (fresh : Nat → UInt8)
    : seen (.call (.write r) fresh) (some (r.writeResult ret)) = r.writeOutcome answer := by
  subst returned
  cases answer with
  | error e =>
      have positive := errs e rfl
      rw [MemoryRequest.writeResult, if_pos (by simp only [retOf]; omega)]
      rfl
  | ok n =>
      simp only [MemoryRequest.writeOutcome]
      by_cases none : n = 0
      · subst none
        rfl
      · rw [MemoryRequest.writeResult, if_neg (by simp only [retOf]; omega), if_neg none]
        rfl

-----------------------------------------------------------------------------------------
-- Runs
-----------------------------------------------------------------------------------------

theorem holds_store (holds : Holds ptes s t) (a : Nat) (b : UInt8)
    : Holds ptes { s with phys := Function.update s.phys a b }
        { t with mem := Function.update t.mem a b } where
  calls := holds.calls
  phys := congrArg (fun mem => Function.update mem a b) holds.phys
  ptes := holds.ptes

variable [DecidableEq P] {nDriverLink : Int}

/-- Behind a call the kernel still has the memory of the machine. -/
theorem holds_next (serves : ServesCalls g kernel ptes targets) (holds : Holds ptes s t)
    (c : MemoryCall) (fresh : Nat → UInt8)
    : Holds ptes (c.next (linuxDriver g kernel) nDriverLink s)
        (remoteStep g nDriverLink targets t (.call c fresh)).2 := by
  cases c with
  | read r =>
      simp only [MemoryCall.next, remoteStep]
      split
      · exact holds
      · rw [(linuxDriver_read serves holds r).2]
        exact { calls := congrArg (· + 1) holds.calls, phys := holds.phys, ptes := holds.ptes }
  | write r =>
      simp only [MemoryCall.next, remoteStep]
      split
      · exact holds
      · exact (linuxDriver_write serves holds r).2

theorem seen_plainResult (serves : ServesCalls g kernel ptes targets) (holds : Holds ptes s t)
    (c : MemoryCall) (fresh : Nat → UInt8)
    : seen (.call c fresh) (some (c.plainResult (linuxDriver g kernel) nDriverLink s))
      = (remoteStep g nDriverLink targets t (.call c fresh)).1 := by
  cases c with
  | read r =>
      simp only [MemoryCall.plainResult, remoteStep]
      by_cases refused : r.IsRefused nDriverLink
      · rw [readProcessMemory, if_pos refused, if_pos refused]
        rfl
      · rw [if_neg refused]
        exact seen_plainRead refused (linuxDriver_read serves holds r).1
          (fun _ => remoteRead_error_pos) fresh
  | write r =>
      simp only [MemoryCall.plainResult, remoteStep]
      by_cases refused : r.IsRefused nDriverLink
      · rw [if_pos refused, if_pos refused]
        rfl
      · rw [if_neg refused, if_neg refused]
        exact seen_write (linuxDriver_write serves holds r).1 (fun _ => remoteWrite_error_pos) fresh

theorem seen_fastResult (serves : ServesCalls g kernel ptes targets) (holds : Holds ptes s t)
    (c : MemoryCall) (fresh : Nat → UInt8)
    : seen (.call c fresh) (some (c.fastResult (linuxDriver g kernel) nDriverLink s))
      = (remoteStep g nDriverLink targets t (.call c fresh)).1 := by
  cases c with
  | read r =>
      simp only [MemoryCall.fastResult, remoteStep]
      by_cases refused : r.IsRefused nDriverLink
      · rw [if_pos refused, if_pos refused]
        rfl
      · rw [if_neg refused, if_neg refused]
        exact seen_fastRead (linuxDriver_read serves holds r).1 (fun _ => remoteRead_error_pos) fresh
  | write r => exact seen_plainResult serves holds (.write r) fresh

/-- One plain action is one action of the machine. -/
theorem plainStep_simulates (serves : ServesCalls g kernel ptes targets) (nDriverLink : Int)
    : Simulates (plainStep (linuxDriver g kernel) nDriverLink)
        (remoteStep g nDriverLink targets) seen (Holds ptes) := by
  intro s t a holds
  cases a with
  | store a b => exact ⟨none, _, rfl, rfl, holds_store holds a b⟩
  | call c fresh =>
      refine ⟨some (c.plainResult (linuxDriver g kernel) nDriverLink s), _, ?_,
        seen_plainResult serves holds c fresh, holds_next serves holds c fresh⟩
      rw [plainStep, plainCall_eq]
      rfl

/-- So is one fast action, whatever the buffers held. -/
theorem fastStep_simulates (serves : ServesCalls g kernel ptes targets) (nDriverLink : Int)
    : Simulates (fastStep (linuxDriver g kernel) nDriverLink)
        (remoteStep g nDriverLink targets) seen
        (fun s t => s.Ok ∧ Holds ptes s.driver t) := by
  intro s t a related
  obtain ⟨ok, holds⟩ := related
  cases a with
  | store a b =>
      exact ⟨none, _, rfl, rfl, ⟨ok.readBuf, ok.writeBuf⟩, holds_store holds a b⟩
  | call c fresh =>
      obtain ⟨u, taken, driver, ok'⟩ := fastCall_eq (linuxDriver g kernel) nDriverLink fresh c ok
      refine ⟨some (c.fastResult (linuxDriver g kernel) nDriverLink s.driver), u, ?_,
        seen_fastResult serves holds c fresh, ok', driver ▸ holds_next serves holds c fresh⟩
      rw [fastStep, taken]
      rfl

/-- Every run of calls of either form is answered as the memory of the targets answers it, and
leaves the bytes that this memory then has, with the page-table entries as they were. Processes may
come and go, remap their pages and store to them between the calls.
-/
theorem serverRuns_remote (serves : ServesCalls g kernel ptes targets) (nDriverLink : Int)
    (calls : Nat) (phys : Nat → UInt8) (acts : List RemoteAction)
    : let spec := replies (remoteStep g nDriverLink targets) ⟨calls, phys⟩ acts
      (∃ results s,
        answers (plainStep (linuxDriver g kernel) nDriverLink) ⟨calls, ptes, phys⟩ acts
            = some (results, s)
          ∧ List.zipWith seen acts results = spec.1
          ∧ Holds ptes s spec.2)
      ∧ ∃ results s,
          answers (fastStep (linuxDriver g kernel) nDriverLink)
              ⟨.null, .null, ⟨calls, ptes, phys⟩⟩ acts
            = some (results, s)
          ∧ List.zipWith seen acts results = spec.1
          ∧ Holds ptes s.driver spec.2 := by
  intro spec
  have start : Holds ptes ⟨calls, ptes, phys⟩ ⟨calls, phys⟩ :=
    { calls := rfl, phys := rfl, ptes := rfl }
  refine ⟨(plainStep_simulates serves nDriverLink).run start acts, ?_⟩
  let fast : FastState (KernelState P) := ⟨.null, .null, ⟨calls, ptes, phys⟩⟩
  have related : fast.Ok ∧ Holds ptes fast.driver ⟨calls, phys⟩ := ⟨⟨rfl, rfl⟩, start⟩
  obtain ⟨results, s, ran, same, _, holds⟩ :=
    (fastStep_simulates serves nDriverLink).run related acts
  exact ⟨results, s, ran, same, holds⟩

/-- Every process id is a process whose pages are all mapped, one frame up. -/
def oneUpTargets (_ : Nat) (_ : Int32) : Option Target := some ⟨none, AddressSpace.oneUp⟩

theorem servesCalls_oneUp
    : let g := arm64.toPageGeometry
      ServesCalls g (fun _ => quietKernel g (AddressSpace.oneUp.proc g)) AddressSpace.oneUp.ptes
        oneUpTargets := by
  intro g
  exact { geometry := fun _ => rfl, serves := fun _ => serves_quietKernel g _ AddressSpace.oneUp }

/-- A forced call that moves three bytes at the end of a page. -/
def threeBytes : MemoryRequest where
  hProcess := 42
  lpBaseAddress := 0xfff
  lpBuffer _ := 7
  nSize := 3
  lpNumberOfBytes := some 0
  bIsForce := 1
  nSize_le := by decide

/-- A write and a read of the same bytes. -/
def writeThenRead : List RemoteAction :=
  [.call (.write threeBytes) (fun _ => 0), .call (.read threeBytes) (fun _ => 0)]

theorem serverRuns_remote_oneUp
    : let g := arm64.toPageGeometry
      let driver := linuxDriver g (fun _ => quietKernel g (AddressSpace.oneUp.proc g))
      let spec := replies (remoteStep g 3 oneUpTargets) ⟨0, UInt8.ofNat⟩ writeThenRead
      ∃ results s,
        answers (plainStep driver 3) ⟨0, AddressSpace.oneUp.ptes, UInt8.ofNat⟩ writeThenRead
          = some (results, s)
        ∧ List.zipWith seen writeThenRead results = spec.1
        ∧ Holds AddressSpace.oneUp.ptes s spec.2 :=
  (serverRuns_remote servesCalls_oneUp 3 0 UInt8.ofNat writeThenRead).1

end RwMem.Server
