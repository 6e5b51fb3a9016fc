import RwMem.Transfer.WriteLoop

/-! When the counts that `rwmem_read` and `rwmem_write` return are true. Both loops drop the
counts of the copy helpers, so a physical access that fails is counted as if it had worked.
-/

namespace RwMem.Transfer

open Memory RwMem.Driver

/-- The returned count is at most the length of the prefix of the range that was really
moved.
-/
def NeverOverReports (shift : Nat) (ret : Int) (chunks : List Chunk) : Prop :=
  ∀ i : Nat, (i : Int) < ret → Moved shift chunks i

theorem NeverOverReports.of_neg {shift : Nat} {ret : Int} {chunks : List Chunk}
    (failed : ret < 0)
    : NeverOverReports shift ret chunks := by
  intro i below
  omega

variable {P : Type}

/-- The request gets past its checks and enters the loop for this target. -/
structure Entered (k : Kernel P) (req : Request) (check : Option (List Vma) → Nat → Nat → Bool)
    (proc : Proc P)
    : Prop where
  copied : k.headerLeft = 0
  found : k.findGetPid req.header.pid = some proc
  permitted : req.header.force = false → check proc.mm req.header.addr req.size = true

/-- A request has one target, so what holds of every target it enters for holds of this one. -/
theorem Entered.forall_iff {k : Kernel P} {req : Request}
    {check : Option (List Vma) → Nat → Nat → Bool} {proc : Proc P}
    (enters : Entered k req check proc) (holds : Proc P → Prop)
    : (∀ other, Entered k req check other → holds other) ↔ holds proc := by
  constructor
  · intro all
    exact all proc enters
  · intro here other enters'
    have same : other = proc := Option.some.inj (enters'.found.symm.trans enters.found)
    subst same
    exact here

/-- The loop gets as far as its `l`-th chunk. -/
def Scan.Reaches (s : Scan P) (bit : PteBits → Bool) (ptes : P → PteBits) (force : Bool)
    (l : Nat)
    : Prop :=
  ∀ j ≤ l, s.start j < s.size ∧ s.Allowed bit ptes force j

/-- Every physical access that the read request comes to succeeds. -/
def ReadAccessesOk (k : Kernel P) (ptes : P → PteBits) (req : Request) : Prop :=
  ∀ proc,
    Entered k req checkProcMapCanRead proc
    → let s := scan k proc req.header.addr req.size
      ∀ l,
        s.Reaches PteBits.canRead ptes req.header.force l
        → (k.access l).ReadOk k.phyTotalMemorySize (s.phyAddr l) (s.part l)

/-- Every physical access that the write request comes to succeeds. -/
def WriteAccessesOk (k : Kernel P) (ptes : P → PteBits) (req : Request) : Prop :=
  ∀ proc,
    Entered k req checkProcMapCanWrite proc
    → let s := scan k proc req.header.addr req.size
      ∀ l,
        s.Reaches PteBits.canWrite ptes req.header.force l
        → (k.access l).WriteOk k.phyTotalMemorySize (s.phyAddr l) (s.part l)

/-- A loop that counts whole chunks is right exactly when every access before its stop moves
its whole chunk.
-/
theorem neverOverReports_iff_of_stop {s : Scan P} {good ok : Nat → Prop} {m shift : Nat}
    {ret : Int} {chunks : List Chunk} {moved : Nat → Nat}
    (stop : StopsAt s.start s.size good m)
    (counted : ret = s.start m)
    (moves : ∀ i, Moved shift chunks i ↔ ∃ l, 0 ≤ l ∧ l < m ∧ s.Within l (moved l) i)
    (le : ∀ l, moved l ≤ s.part l)
    (whole : ∀ l, s.start l < s.size → (moved l = s.part l ↔ ok l))
    : NeverOverReports shift ret chunks
      ↔ ∀ l, (∀ j ≤ l, s.start j < s.size ∧ good j) → ok l := by
  have reached (l : Nat) (before : l < m) : s.start l < s.size := (stop.before l before).1
  have served := Scan.forall_within_iff le reached
  constructor
  · intro right l reaches
    have before := (stop.lt_iff s.start_mono).mpr reaches
    apply (whole l (reached l before)).mp
    apply served.mp _ l before
    intro i below
    exact (moves i).mp (right i (by omega))
  · intro succeed i below
    apply (moves i).mpr
    apply served.mpr _ i (by omega)
    intro l before
    exact (whole l (reached l before)).mpr (succeed l ((stop.lt_iff s.start_mono).mp before))

variable (k : Kernel P) (ptes : P → PteBits) (phys : Nat → UInt8) (req : Request)

/-- A read request that does not get past its checks returns an error. -/
theorem rwmemRead_ret_neg (refused : ∀ proc, ¬Entered k req checkProcMapCanRead proc)
    : (rwmemRead k ptes phys req).ret < 0 := by
  rw [rwmemRead]
  split
  · rename_i copied
    cases found : k.findGetPid req.header.pid with
    | none => simp [found, EINVAL]
    | some proc =>
        cases force : req.header.force with
        | true => exact absurd ⟨copied, found, by simp [force]⟩ (refused proc)
        | false =>
            cases check : checkProcMapCanRead proc.mm req.header.addr req.size with
            | true => exact absurd ⟨copied, found, fun _ => check⟩ (refused proc)
            | false => simp [found, force, check, EFAULT]
  · simp [EFAULT]

/-- A write request that does not get past its checks returns an error. -/
theorem rwmemWrite_ret_neg [DecidableEq P]
    (refused : ∀ proc, ¬Entered k req checkProcMapCanWrite proc)
    : (rwmemWrite k ptes phys req).ret < 0 := by
  rw [rwmemWrite]
  split
  · rename_i copied
    cases found : k.findGetPid req.header.pid with
    | none => simp [found, EINVAL]
    | some proc =>
        cases force : req.header.force with
        | true => exact absurd ⟨copied, found, by simp [force]⟩ (refused proc)
        | false =>
            cases check : checkProcMapCanWrite proc.mm req.header.addr req.size with
            | true => exact absurd ⟨copied, found, fun _ => check⟩ (refused proc)
            | false => simp [found, force, check, EFAULT]
  · simp [EFAULT]

/-- The count of a read is true exactly when every access it comes to succeeds. -/
theorem rwmemRead_neverOverReports_iff
    : NeverOverReports 0 (rwmemRead k ptes phys req).ret (rwmemRead k ptes phys req).chunks
      ↔ ReadAccessesOk k ptes req := by
  by_cases entered : ∃ proc, Entered k req checkProcMapCanRead proc
  · obtain ⟨proc, enters⟩ := entered
    obtain ⟨m, stop, outcome⟩ := exists_readStop k proc ptes req.header.addr req.size
      req.header.force phys req.buf
    have within := (scan k proc req.header.addr req.size).start_le m
    have counted : toSsize (rwmemReadLoop k proc ptes phys req.header.addr req.size
        req.header.force 0 0 req.buf).done = (scan k proc req.header.addr req.size).start m := by
      rw [outcome.done]
      exact toSsize_of_lt (Nat.lt_of_le_of_lt within req.size_lt)
    rw [rwmemRead_of_entered enters.found enters.copied enters.permitted, ReadAccessesOk,
      enters.forall_iff]
    exact neverOverReports_iff_of_stop stop counted outcome.moved
      (readMoved_le k proc req.header.addr req.size)
      (fun l reached => Access.readMoves_eq_iff _ _ (Scan.part_pos reached))
  · have refused : ∀ proc, ¬Entered k req checkProcMapCanRead proc := not_exists.mp entered
    apply iff_of_true
    · exact NeverOverReports.of_neg (rwmemRead_ret_neg k ptes phys req refused)
    · intro proc enters
      exact absurd enters (refused proc)

/-- The count of a write is true exactly when every access it comes to succeeds. -/
theorem rwmemWrite_neverOverReports_iff [DecidableEq P]
    : NeverOverReports 17 (rwmemWrite k ptes phys req).ret (rwmemWrite k ptes phys req).chunks
      ↔ WriteAccessesOk k ptes req := by
  by_cases entered : ∃ proc, Entered k req checkProcMapCanWrite proc
  · obtain ⟨proc, enters⟩ := entered
    obtain ⟨m, stop, outcome⟩ := exists_writeStop k proc ptes req.header.addr req.size
      req.header.force req.buf phys
    have within := (scan k proc req.header.addr req.size).start_le m
    have counted : toSsize (rwmemWriteLoop k proc req.buf req.header.addr req.size
        req.header.force 0 0 ptes phys).done
          = (scan k proc req.header.addr req.size).start m := by
      rw [outcome.done]
      exact toSsize_of_lt (Nat.lt_of_le_of_lt within req.size_lt)
    rw [rwmemWrite_of_entered enters.found enters.copied enters.permitted, WriteAccessesOk,
      enters.forall_iff]
    exact neverOverReports_iff_of_stop stop counted outcome.moved
      (writeMoved_le k proc req.header.addr req.size)
      (fun l reached => Access.writeMoves_eq_iff _ _ (Scan.part_pos reached))
  · have refused : ∀ proc, ¬Entered k req checkProcMapCanWrite proc := not_exists.mp entered
    apply iff_of_true
    · exact NeverOverReports.of_neg (rwmemWrite_ret_neg k ptes phys req refused)
    · intro proc enters
      exact absurd enters (refused proc)

/-- Neither entry point over-reports exactly for the requests whose physical accesses all
succeed, for every walk and every pattern of failures.
-/
theorem counts_neverOverReport_iff [DecidableEq P]
    : (NeverOverReports 0 (rwmemRead k ptes phys req).ret (rwmemRead k ptes phys req).chunks
        ↔ ReadAccessesOk k ptes req)
      ∧ (NeverOverReports 17 (rwmemWrite k ptes phys req).ret
            (rwmemWrite k ptes phys req).chunks
        ↔ WriteAccessesOk k ptes req) :=
  ⟨rwmemRead_neverOverReports_iff k ptes phys req,
    rwmemWrite_neverOverReports_iff k ptes phys req⟩

/-- Every page of `oneUp` is translated, so a forced transfer is stopped by its end only. -/
theorem allowed_oneUp (k : Kernel Nat) (bit : PteBits → Bool) (addr size l : Nat)
    : (scan k (AddressSpace.oneUp.proc k.geometry) addr size).Allowed bit
        AddressSpace.oneUp.ptes true l := by
  refine ⟨?_, pageNumber k.geometry _, rfl, rfl⟩
  have frame := Nat.mul_pos (Nat.succ_pos
    (pageNumber k.geometry (wrap (addr + (scan k (AddressSpace.oneUp.proc k.geometry) addr
      size).start l)))) k.geometry.pageSize_pos
  exact Nat.ne_of_gt (Nat.lt_of_lt_of_le frame (Nat.le_add_right _ _))

/-- A kernel that has no memory left for bounce buffers. -/
def noBounceKernel : Kernel Nat :=
  let g := arm64.toPageGeometry
  { quietKernel g (AddressSpace.oneUp.proc g) with
    access _ := { Access.success with noBounce := true } }

/-- Without bounce buffers the count of a forced read of 5000 bytes is not true. -/
theorem rwmemRead_noBounce
    : let result := rwmemRead noBounceKernel AddressSpace.oneUp.ptes UInt8.ofNat forcedRequest
      ¬NeverOverReports 0 result.ret result.chunks := by
  intro result right
  have succeed := (rwmemRead_neverOverReports_iff _ _ _ _).mp right
  have reaches : (scan noBounceKernel (AddressSpace.oneUp.proc arm64.toPageGeometry)
      0x1000 5000).Reaches PteBits.canRead AddressSpace.oneUp.ptes true 0 := by
    intro j first
    cases Nat.le_zero.mp first
    exact ⟨by decide, allowed_oneUp noBounceKernel _ _ _ _⟩
  have ok := succeed (AddressSpace.oneUp.proc arm64.toPageGeometry)
    ⟨rfl, rfl, fun unforced => absurd unforced (by decide)⟩ 0 reaches
  exact Bool.noConfusion ok.2.1

end RwMem.Transfer
