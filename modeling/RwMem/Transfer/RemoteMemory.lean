import RwMem.Transfer.MappedTransfers

/-! The memory of the targets as `read` and `write` present it: no pages, no headers and no entry
bits that change on the way.
-/

namespace RwMem.Transfer

open Memory RwMem.Driver

-----------------------------------------------------------------------------------------
-- Targets
-----------------------------------------------------------------------------------------

/-- A process as a transfer meets it: its mappings, if it has them, and its address space. -/
structure Target where
  mm : Option (List Vma)
  space : AddressSpace

/-- The processes by their ids. Threads have the target of their process, and two targets may
have frames in common.
-/
abbrev Targets : Type := Int32 → Option Target

variable (g : PageGeometry) (targets : Targets) (mem : Nat → UInt8)
variable (pid : Int32) (addr : UInt64) (force : Bool)

/-- A read of remote memory, with the number of its error. -/
def remoteRead (size : Nat) : Except Int (List UInt8) :=
  match targets pid with
  | none => .error EINVAL
  | some t =>
      if force = false && !checkProcMapCanRead t.mm addr.toNat size then .error EFAULT
      else .ok ((t.space.mapping g).read (addrRange addr) mem force size)

/-- A write of remote memory, and the memory behind it. -/
def remoteWrite (payload : List UInt8) : Except Int Nat × (Nat → UInt8) :=
  match targets pid with
  | none => (.error EINVAL, mem)
  | some t =>
      if force = false && !checkProcMapCanWrite t.mm addr.toNat payload.length then
        (.error EFAULT, mem)
      else
        let (n, mem) := (t.space.mapping g).write (addrRange addr) mem force payload
        (.ok n, mem)

/-- The value that a call returns: a count, or the negated number of an error. -/
def retOf : Except Int Nat → Int
  | .error e => -e
  | .ok n => n

/-- A kernel around these targets, in which no physical access fails. -/
structure Serves {P : Type} (k : Kernel P) (ptes : P → PteBits) (targets : Targets) : Prop where
  copied : k.headerLeft = 0
  missing : ∀ pid, targets pid = none → k.findGetPid pid = none
  found
    : ∀ pid t,
        targets pid = some t
        → ∃ proc,
            k.findGetPid pid = some proc
            ∧ proc.mm = t.mm
            ∧ Realizes k.geometry proc.getProcPhyAddr ptes t.space
  served : ∀ pid t, targets pid = some t → FramesServed k t.space

/-- A quiet kernel serves the one target that it has. -/
theorem serves_quietKernel (g : PageGeometry) (mm : Option (List Vma)) (space : AddressSpace)
    : Serves (quietKernel g ⟨mm, space.walk g⟩) space.ptes (fun _ => some ⟨mm, space⟩) where
  copied := rfl
  missing _ none := by contradiction
  found pid t target := by
    cases target
    exact ⟨_, rfl, rfl, space.realizes_walk g⟩
  served pid t target :=
    { reads := fun _ _ _ _ _ _ _ => Access.readOk_success
      writes := fun _ _ _ _ _ _ _ => Access.writeOk_success }

/-- A call of `read` returns the answer, and stores its bytes and nothing else. -/
structure AnswersRead (answer : Except Int (List UInt8)) (result : ReadResult) : Prop where
  ret : result.ret = retOf (answer.map List.length)
  moved : ∀ i, Moved 0 result.chunks i ↔ ∃ bytes, answer = .ok bytes ∧ i < bytes.length
  bytes : ∀ bytes, answer = .ok bytes → cells result.buf 0 bytes.length = bytes

/-- A call of `write` returns the answer, stores what it says and leaves the entries. -/
structure AnswersWrite {P : Type} (answer : Except Int Nat × (Nat → UInt8)) (ptes : P → PteBits)
    (result : WriteResult P)
    : Prop where
  ret : result.ret = retOf answer.1
  phys : result.phys = answer.2
  entries : result.ptes = ptes

variable {g targets mem pid addr force} {P : Type} {k : Kernel P} {ptes : P → PteBits}

theorem remoteRead_error_pos {size : Nat} {e : Int}
    (failed : remoteRead g targets mem pid addr force size = .error e)
    : 0 < e := by
  simp only [remoteRead] at failed
  split at failed
  · cases failed
    decide
  · split at failed
    · cases failed
      decide
    · contradiction

theorem remoteWrite_error_pos {payload : List UInt8} {e : Int}
    (failed : (remoteWrite g targets mem pid addr force payload).1 = .error e)
    : 0 < e := by
  simp only [remoteWrite] at failed
  split at failed
  · cases failed
    decide
  · split at failed
    · cases failed
      decide
    · contradiction

/-- A refused read stores nothing. -/
theorem answersRead_error (e : Int) (buf : Nat → UInt8)
    : AnswersRead (.error e) ⟨-e, buf, []⟩ where
  ret := rfl
  moved i := by
    apply iff_of_false (not_moved_nil 0 i)
    intro ⟨_, same, _⟩
    contradiction
  bytes _ same := by contradiction

/-- An access stays in the addresses that are mapped. -/
theorem mapped_of_lt_readLength {space : AddressSpace} {size i : Nat}
    (below : i < (space.mapping g).readLength (addrRange addr) force size)
    : ∃ a, (space.mapping g).place (addrRange addr i) = some a :=
  Mapping.mapped_of_goesOn ((isFront_frontLength _ _).before i below)

theorem length_read (g : PageGeometry) (space : AddressSpace) (mem : Nat → UInt8)
    (addr : UInt64) (force : Bool) (size : Nat)
    : ((space.mapping g).read (addrRange addr) mem force size).length
      = (space.mapping g).readLength (addrRange addr) force size :=
  Mapping.length_load fun _ below => mapped_of_lt_readLength below

/-- Every call of `read` is answered by the remote memory. -/
theorem rwmemRead_answers (serves : Serves k ptes targets) (phys : Nat → UInt8) {req : Request}
    (header : req.header = ⟨pid, addr.toNat, force⟩)
    : AnswersRead (remoteRead k.geometry targets phys pid addr force req.size)
        (rwmemRead k ptes phys req) := by
  have copied := serves.copied
  cases target : targets pid with
  | none =>
      have missing := serves.missing pid target
      rw [remoteRead, target]
      simp only [rwmemRead, copied, if_true, header, missing]
      exact answersRead_error EINVAL req.buf
  | some t =>
      obtain ⟨proc, found, mm, realizes⟩ := serves.found pid t target
      rw [remoteRead, target]
      by_cases refused : (force = false && !checkProcMapCanRead t.mm addr.toNat req.size) = true
      · simp only [rwmemRead, copied, if_true, header, found, mm, refused]
        exact answersRead_error EFAULT req.buf
      · have permitted : force = false
            → checkProcMapCanRead proc.mm addr.toNat req.size = true := by
          intro unforced
          simpa [unforced, mm] using refused
        have read := rwmemRead_isMapped phys header found realizes copied permitted
          (serves.served pid t target)
        have length := length_read k.geometry t.space phys addr force req.size
        dsimp only
        rw [if_neg refused]
        refine { ret := ?_, moved := ?_, bytes := ?_ }
        · rw [read.ret]
          exact congrArg Int.ofNat length.symm
        · intro i
          rw [read.moved i, ← length]
          constructor
          · intro below
            exact ⟨_, rfl, below⟩
          · rintro ⟨_, same, below⟩
            cases same
            exact below
        · intro bytes same
          cases same
          apply List.ext_getElem?
          intro i
          rw [length]
          by_cases below : i < (t.space.mapping k.geometry).readLength (addrRange addr) force
              req.size
          · rw [Mapping.read, Mapping.getElem?_load (fun _ => mapped_of_lt_readLength) below,
              read.delivered i below]
            simp [cells, below]
          · rw [List.getElem?_eq_none (by rw [length_cells]; omega),
              List.getElem?_eq_none (by omega)]

/-- Every call of `write` is answered by the remote memory. -/
theorem rwmemWrite_answers [DecidableEq P] (serves : Serves k ptes targets) (phys : Nat → UInt8)
    {req : Request} {payload : List UInt8} (header : req.header = ⟨pid, addr.toNat, force⟩)
    (length : payload.length = req.size)
    (behind : ∀ i < req.size, payload[i]? = some (req.buf (17 + i)))
    : AnswersWrite (remoteWrite k.geometry targets phys pid addr force payload) ptes
        (rwmemWrite k ptes phys req) := by
  have copied := serves.copied
  cases target : targets pid with
  | none =>
      have missing := serves.missing pid target
      rw [remoteWrite, target]
      simp only [rwmemWrite, copied, if_true, header, missing]
      exact { ret := rfl, phys := rfl, entries := rfl }
  | some t =>
      obtain ⟨proc, found, mm, realizes⟩ := serves.found pid t target
      rw [remoteWrite, target]
      by_cases refused : (force = false
          && !checkProcMapCanWrite t.mm addr.toNat payload.length) = true
      · simp only [rwmemWrite, copied, if_true, header, found, mm, refused, ← length]
        exact { ret := rfl, phys := rfl, entries := rfl }
      · have permitted : force = false
            → checkProcMapCanWrite proc.mm addr.toNat req.size = true := by
          intro unforced
          simpa [unforced, mm, length] using refused
        have write := rwmemWrite_isMapped phys header found realizes copied permitted
          (serves.served pid t target) length behind
        dsimp only
        rw [if_neg refused]
        exact { ret := write.ret, phys := write.phys, entries := write.entries }
end RwMem.Transfer
