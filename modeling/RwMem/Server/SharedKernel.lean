import RwMem.Client.RemoteMemory
import RwMem.Server.RemoteMemory

/-! Programs of the client library and the server on one kernel: any interleaving of their calls
is one run on the memory of the targets.
-/

namespace RwMem.Server

open Memory RwMem.Driver RwMem.Client RwMem.Transfer Transition

-----------------------------------------------------------------------------------------
-- Calls of the library
-----------------------------------------------------------------------------------------

inductive LibraryCall where
  | writeMem (pid : Int32) (addr : UInt64) (buf : Slice)
  | readMem (pid : Int32) (addr : UInt64) (buf : Slice)

/-- The result of a call. A read leaves a buffer, which is what its caller asked for if it is
`Ok`.
-/
inductive LibraryResult where
  | wrote (result : WriteMemResult)
  | read (result : ReadMemResult) (buf : List UInt8)
deriving DecidableEq

variable {P : Type}

/-- A call on the kernel of this moment; a call that panics does not reach it. -/
def libraryStep [DecidableEq P] (kernel : Nat → Kernel P) (s : KernelState P)
    : LibraryCall → Option (LibraryResult × KernelState P)
  | .writeMem pid addr buf =>
      let done := writeMem (kernel s.calls) s.ptes s.phys pid addr buf
      some (.wrote done.result,
        match done.call with
        | none => s
        | some call => ⟨s.calls + 1, call.ptes, call.phys⟩)
  | .readMem pid addr buf =>
      let done := readMem (kernel s.calls) s.ptes s.phys pid addr buf
      some (.read done.result done.buf,
        match done.call with
        | none => s
        | some _ => { s with calls := s.calls + 1 })

/-- What is seen of a result: the buffer of a read that is not `Ok` is left out. -/
def librarySeen : LibraryCall → LibraryResult → LibraryResult
  | _, .wrote result => .wrote result
  | _, .read result buf => .read result (if result = .ok then buf else [])

/-- `Ok` if all bytes were read, with these bytes. -/
def readMemAnswer (len : Nat) : Except Int (List UInt8) → LibraryResult
  | .error e => .read (.errno e) []
  | .ok bytes =>
      if bytes.length = len then .read .ok bytes else .read (.readFailed len bytes.length) []

/-- A call of the library on the memory of the targets. -/
def libraryRemote (g : PageGeometry) (targets : Nat → Targets) (t : RemoteState)
    : LibraryCall → LibraryResult × RemoteState
  | .writeMem pid addr buf =>
      if 17 + buf.bytes.length < 2 ^ 63 then
        let answer := remoteWrite g (targets t.calls) t.mem pid addr true
          (buf.bytes.take (maxRwCount g))
        (.wrote (writeMemAnswer buf.bytes.length answer.1), ⟨t.calls + 1, answer.2⟩)
      else (.wrote .capacityOverflow, t)
  | .readMem pid addr buf =>
      if buf.bytes.length = 17 then (.read .indexOutOfBounds [], t)
      else
        let answer := remoteRead g (targets t.calls) t.mem pid addr (readMemForces buf.bytes)
          (min buf.bytes.length (maxRwCount g))
        (readMemAnswer buf.bytes.length answer, { t with calls := t.calls + 1 })

-----------------------------------------------------------------------------------------
-- One call
-----------------------------------------------------------------------------------------

variable {g : PageGeometry} {kernel : Nat → Kernel P} {ptes : P → PteBits}
variable {targets : Nat → Targets} {s : KernelState P} {t : RemoteState}

/-- What is made of a count that the driver returned for a read. -/
theorem readMemResult_seen {answer : Except Int (List UInt8)} {result : ReadResult} {len : Nat}
    {buf : List UInt8} (answered : AnswersRead answer result)
    (errs : ∀ e, answer = .error e → 0 < e)
    (buffer : result.ret = len → buf = cells result.buf 0 len) (call : LibraryCall)
    : librarySeen call (.read (readMemResult len result.ret) buf) = readMemAnswer len answer := by
  have ret := answered.ret
  cases answer with
  | error e =>
      have positive := errs e rfl
      simp only [Except.map, retOf] at ret
      have negative : result.ret < 0 := by omega
      simp [librarySeen, readMemResult, readMemAnswer, ret, positive]
  | ok bytes =>
      simp only [Except.map, retOf] at ret
      have whole := answered.bytes bytes rfl
      by_cases same : bytes.length = len
      · subst same
        rw [buffer ret, whole]
        simp [librarySeen, readMemResult, readMemAnswer, ret]
      · have differs : (bytes.length : Int) ≠ len := fun equal => same (Int.ofNat.inj equal)
        have counted : ¬(bytes.length : Int) < 0 := by omega
        simp [librarySeen, readMemResult, readMemAnswer, ret, same, counted]

variable [DecidableEq P]

/-- One call of the library is one call on the memory of the targets. -/
theorem libraryStep_simulates (serves : ServesCalls g kernel ptes targets)
    : Simulates (libraryStep kernel) (libraryRemote g targets) librarySeen (Holds ptes) := by
  intro s t call holds
  have geometry := serves.geometry t.calls
  have here := serves.serves t.calls
  cases call with
  | writeMem pid addr buf =>
      simp only [libraryStep, libraryRemote, holds.calls, holds.phys, holds.ptes]
      by_cases capacity : 17 + buf.bytes.length < 2 ^ 63
      · obtain ⟨call, done, answered⟩ := writeMem_answers here t.mem pid addr capacity
        rw [geometry] at done answered
        rw [done, if_pos capacity]
        refine ⟨_, _, rfl, rfl, ?_⟩
        exact { calls := rfl, phys := answered.phys, ptes := answered.entries }
      · have done : writeMem (kernel t.calls) ptes t.mem pid addr buf
            = ⟨.capacityOverflow, none⟩ := by
          rw [writeMem, if_neg capacity]
        rw [done, if_neg capacity]
        exact ⟨_, _, rfl, rfl, holds⟩
  | readMem pid addr buf =>
      simp only [libraryStep, libraryRemote, holds.calls, holds.phys, holds.ptes]
      by_cases panics : buf.bytes.length = 17
      · have done : readMem (kernel t.calls) ptes t.mem pid addr buf
            = ⟨.indexOutOfBounds, storePidAddr pid addr buf.bytes, none⟩ := by
          simp [readMem, panics]
        rw [done, if_pos panics]
        exact ⟨_, _, rfl, rfl, holds⟩
      · obtain ⟨req, result, after, done, answered, buffer⟩ :=
          readMem_answers here t.mem pid addr panics
        rw [geometry] at answered
        rw [done, if_neg panics]
        refine ⟨_, _, rfl, readMemResult_seen answered (fun _ => remoteRead_error_pos) buffer _, ?_⟩
        exact { calls := rfl, phys := rfl, ptes := rfl }

/-- The server and programs of the library on one kernel, in any order of their calls: each call is
answered as the memory of the targets answers it at this moment, and the entries stay as they were.
-/
theorem sharedRuns_remote (serves : ServesCalls g kernel ptes targets) (nDriverLink : Int)
    (calls : Nat) (phys : Nat → UInt8) (acts : List (RemoteAction ⊕ LibraryCall))
    : let spec := fun t a =>
        let answer := bothReply (remoteStep g nDriverLink targets) (libraryRemote g targets) t a
        (some answer.1, answer.2)
      let step := both (plainStep (linuxDriver g kernel) nDriverLink) (libraryStep kernel)
      ∃ results s,
        answers step ⟨calls, ptes, phys⟩ acts = some (results, s)
        ∧ List.zipWith (bothSeen seen librarySeen) acts results
          = (replies spec ⟨calls, phys⟩ acts).1
        ∧ Holds ptes s (replies spec ⟨calls, phys⟩ acts).2 := by
  intro spec step
  have simulates := (plainStep_simulates serves nDriverLink).both (libraryStep_simulates serves)
  exact simulates.run { calls := rfl, phys := rfl, ptes := rfl } acts

/-- A write of the library, which the server then reads. -/
theorem sharedRuns_remote_oneUp
    : let g := arm64.toPageGeometry
      let kernel := fun _ => quietKernel g (AddressSpace.oneUp.proc g)
      let acts : List (RemoteAction ⊕ LibraryCall) :=
        [.inr (.writeMem 42 0xfff ⟨[1, 2, 3], by decide⟩), .inl (.call (.read threeBytes) UInt8.ofNat)]
      let spec := fun t a =>
        let answer := bothReply (remoteStep g 3 oneUpTargets) (libraryRemote g oneUpTargets) t a
        (some answer.1, answer.2)
      let step := both (plainStep (linuxDriver g kernel) 3) (libraryStep kernel)
      ∃ results s,
        answers step ⟨0, AddressSpace.oneUp.ptes, UInt8.ofNat⟩ acts = some (results, s)
        ∧ List.zipWith (bothSeen seen librarySeen) acts results
          = (replies spec ⟨0, UInt8.ofNat⟩ acts).1
        ∧ Holds AddressSpace.oneUp.ptes s (replies spec ⟨0, UInt8.ofNat⟩ acts).2 :=
  sharedRuns_remote servesCalls_oneUp 3 0 UInt8.ofNat _

end RwMem.Server
