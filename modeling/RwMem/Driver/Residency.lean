import RwMem.Driver.AddressSpace
import RwMem.Driver.MapsLayout
import RwMem.Memory.Bytes

/-! The residency bitmap is what it would be if it were computed page by page. -/

namespace RwMem.Driver

open Memory

/-- The pages of a block. -/
def blockPages : Nat := maxMallocSize * 8

/-- The block loop behind `q` complete blocks and `r` more pages: the output holds the bits of
the blocks and is untouched behind them, the buffer holds those of the other pages, and zeroes.
-/
structure BlockInv (page : Nat → Bool) (arg : Nat) (mem : Nat → UInt8) (q r : Nat)
    (run : CheckRun)
    : Prop where
  ok : run.ok = true
  index : run.i = r
  position : run.arg = arg + maxMallocSize * q
  block : ∀ j < blockPages,
    bitAt run.retBuf 0 j = (decide (j < r) && page (blockPages * q + j))
  flushed : ∀ j < blockPages * q, bitAt run.mem arg j = page j
  outside : ∀ i, i < arg ∨ arg + maxMallocSize * q ≤ i → run.mem i = mem i

section Blocks

variable {page : Nat → Bool} {arg q r : Nat} {mem : Nat → UInt8} {run : CheckRun}

theorem blockInv_zero (page : Nat → Bool) (arg : Nat) (mem : Nat → UInt8)
    : BlockInv page arg mem 0 0 ⟨true, 0, 0, arg, fun _ => 0, mem⟩ where
  ok := rfl
  index := rfl
  position := rfl
  block j _ := by simp [bitAt]
  flushed j below := absurd below (Nat.not_lt_zero j)
  outside _ _ := rfl

/-- The buffer after one more page. -/
def pageDone (page : Nat → Bool) (q r : Nat) (run : CheckRun) : Nat → UInt8 :=
  if page (blockPages * q + r) then setBit run.retBuf run.i else run.retBuf

theorem bitAt_pageDone (inv : BlockInv page arg mem q r run) {j : Nat} (inside : j < blockPages)
    : bitAt (pageDone page q r run) 0 j
      = (decide (j < r + 1) && page (blockPages * q + j)) := by
  have old := inv.block j inside
  have below : decide (j < r + 1) = (decide (j = r) || decide (j < r)) := by
    rw [← Bool.decide_or]
    apply decide_eq_decide.mpr
    omega
  have last : (decide (j = r) && page (blockPages * q + j))
      = (decide (j = r) && page (blockPages * q + r)) := by
    by_cases same : j = r
    · rw [same]
    · simp [same]
  rw [below, Bool.and_or_distrib_right, last, ← old, pageDone]
  split
  · next resident => rw [setBit, bitAt_update_or, inv.index, resident, Bool.and_true]
  · next absent => simp [absent]

/-- A page inside a block. -/
theorem BlockInv.next (inv : BlockInv page arg mem q r run)
    : BlockInv page arg mem q (r + 1)
        { run with i := run.i + 1, retBuf := pageDone page q r run } where
  ok := inv.ok
  index := congrArg (· + 1) inv.index
  position := inv.position
  block _ below := bitAt_pageDone inv below
  flushed := inv.flushed
  outside := inv.outside

/-- The bits in front of a position in the output, where a buffer is copied behind them. -/
theorem bitAt_flushed (inv : BlockInv page arg mem q r run) (src : List UInt8) {j : Nat}
    (below : j < blockPages * q)
    : bitAt (store run.mem run.arg src) arg j = page j := by
  have front : arg + j / 8 < run.arg := by
    rw [inv.position]
    rw [blockPages] at below
    have byte : j / 8 < maxMallocSize * q := by
      apply Nat.div_lt_of_lt_mul
      calc j < maxMallocSize * 8 * q := below
        _ = 8 * (maxMallocSize * q) := by rw [Nat.mul_comm maxMallocSize 8, Nat.mul_assoc]
    omega
  rw [bitAt_store_below front]
  exact inv.flushed j below

/-- The bits that are copied out of a buffer. -/
theorem bitAt_copied (inv : BlockInv page arg mem q r run) (buf : Nat → UInt8) {n j : Nat}
    (inside : j < 8 * n)
    : bitAt (store run.mem run.arg (cells buf 0 n)) arg (blockPages * q + j) = bitAt buf 0 j := by
  have bytes : blockPages * q = 8 * (maxMallocSize * q) := by
    rw [blockPages, Nat.mul_comm maxMallocSize 8, Nat.mul_assoc]
  rw [bytes, bitAt_add, ← inv.position]
  exact bitAt_store_inside inside

/-- Nothing is changed outside the blocks and a buffer that is copied behind them. -/
theorem BlockInv.copied_outside (inv : BlockInv page arg mem q r run) (buf : Nat → UInt8)
    {n i : Nat} (apart : i < arg ∨ arg + (maxMallocSize * q + n) ≤ i)
    : store run.mem run.arg (cells buf 0 n) i = mem i := by
  have position := inv.position
  refine (store_outside ?_).trans (inv.outside i (by omega))
  rw [length_cells, position]
  omega

/-- The bits of all pages, once the block that is not full was copied behind the others. -/
theorem BlockInv.copied_bits (inv : BlockInv page arg mem q r run) (inBlock : r < blockPages)
    {j : Nat} (below : j < blockPages * q + 8 * ((r + 7) / 8))
    : bitAt (store run.mem run.arg (cells run.retBuf 0 ((r + 7) / 8))) arg j
      = (decide (j < blockPages * q + r) && page j) := by
  by_cases old : j < blockPages * q
  · have counted : j < blockPages * q + r := by omega
    rw [bitAt_flushed inv _ old, decide_eq_true counted, Bool.true_and]
  · obtain ⟨j', split⟩ := Nat.exists_eq_add_of_le (Nat.le_of_not_lt old)
    have inside : j' < 8 * ((r + 7) / 8) := by omega
    have small : j' < blockPages := by
      rw [blockPages, maxMallocSize] at inBlock ⊢
      omega
    have last : decide (j < blockPages * q + r) = decide (j' < r) := by
      apply decide_eq_decide.mpr
      omega
    rw [last, split, bitAt_copied inv _ inside, inv.block j' small]

/-- The last page of a block, after which the buffer is copied out and cleared. -/
theorem BlockInv.flush (inv : BlockInv page arg mem q r run) (full : r + 1 = blockPages)
    (fits : arg + maxMallocSize * (q + 1) < 2 ^ 64)
    : BlockInv page arg mem (q + 1) 0
        ⟨true, run.copies + 1, 0, wrap (run.arg + maxMallocSize), fun _ => 0,
          store run.mem run.arg (cells (pageDone page q r run) 0 maxMallocSize)⟩ := by
  have position := inv.position
  rw [Nat.mul_succ] at fits
  refine ⟨rfl, rfl, ?_, ?_, ?_, ?_⟩
  · rw [Nat.mul_succ, position, ← Nat.add_assoc]
    exact wrap_of_lt (by omega)
  · intro j _
    simp [bitAt]
  · intro j below
    rw [Nat.mul_succ] at below
    by_cases old : j < blockPages * q
    · exact bitAt_flushed inv _ old
    · obtain ⟨j', split⟩ := Nat.exists_eq_add_of_le (Nat.le_of_not_lt old)
      have inside : j' < blockPages := by omega
      have all : j' < 8 * maxMallocSize := inside
      rw [split, bitAt_copied inv _ all, bitAt_pageDone inv inside, full, decide_eq_true inside,
        Bool.true_and]
  · intro i apart
    rw [Nat.mul_succ] at apart
    exact inv.copied_outside _ apart

end Blocks

/-- A range of whole pages. -/
structure PageRange (g : PageGeometry) (virtAddrStart virtAddrEnd pages : Nat) : Prop where
  aligned : g.pageSize ∣ virtAddrStart
  finish : virtAddrEnd = virtAddrStart + pages * g.pageSize
  nonempty : 0 < pages
  inside : virtAddrEnd < 2 ^ 64

variable {g : PageGeometry} {virtAddrStart virtAddrEnd pages : Nat} {resident : Nat → Bool}
  {left : Nat → Nat}

variable (resident) in
/-- Without failures the loop runs to the end of its range. Induction on the `n` pages left;
the invariant carries what the blocks hold.
-/
theorem checkPhyLoop_run (copied : ∀ n, left n = 0)
    (range : PageRange g virtAddrStart virtAddrEnd pages) {arg : Nat} {mem : Nat → UInt8}
    (fits : arg + (pages + 7) / 8 < 2 ^ 64) {q r : Nat} {run : CheckRun} (n : Nat)
    (inBlock : r < blockPages) (toGo : pages = blockPages * q + r + n)
    (inv : BlockInv (fun j => resident (virtAddrStart + j * g.pageSize)) arg mem q r run)
    : ∃ q' r',
        r' < blockPages ∧ pages = blockPages * q' + r'
        ∧ BlockInv (fun j => resident (virtAddrStart + j * g.pageSize)) arg mem q' r'
            (checkPhyLoop g resident left (min ((pages + 7) / 8) maxMallocSize) virtAddrEnd
              (virtAddrStart + (blockPages * q + r) * g.pageSize) run) := by
  have finish := range.finish
  have positive := g.pageSize_pos
  induction n generalizing q r run with
  | zero =>
      have done : ¬virtAddrStart + (blockPages * q + r) * g.pageSize < virtAddrEnd := by
        rw [finish, toGo, Nat.add_zero]
        exact Nat.lt_irrefl _
      rw [checkPhyLoop, dif_neg done]
      exact ⟨q, r, inBlock, toGo, inv⟩
  | succ n ih =>
      have more : virtAddrStart + (blockPages * q + r) * g.pageSize < virtAddrEnd := by
        rw [finish]
        exact Nat.add_lt_add_left (Nat.mul_lt_mul_of_pos_right (by omega) positive) _
      have advance : virtAddrStart + (blockPages * q + r) * g.pageSize + g.pageSize
          = virtAddrStart + (blockPages * q + (r + 1)) * g.pageSize := by
        rw [← Nat.add_assoc (blockPages * q), Nat.succ_mul, Nat.add_assoc]
      have index := inv.index
      rw [checkPhyLoop, dif_pos more, advance]
      simp only
      split
      · next full =>
          have full : r + 1 = blockPages := index ▸ full
          have later : blockPages * q + (r + 1) = blockPages * (q + 1) + 0 := by
            rw [Nat.mul_succ, full, Nat.add_zero]
          have room : maxMallocSize * (q + 1) ≤ (pages + 7) / 8 := by
            rw [Nat.le_div_iff_mul_le (by decide), Nat.mul_right_comm]
            show blockPages * (q + 1) ≤ _
            omega
          have bytes : min ((pages + 7) / 8) maxMallocSize = maxMallocSize :=
            Nat.min_eq_right (Nat.le_trans (Nat.le_mul_of_pos_right _ (Nat.succ_pos q)) room)
          have rest := ih (by decide) (by omega) (inv.flush full (by omega))
          rw [bytes] at rest ⊢
          rw [copied, xCopyToUser_zero, later]
          simp only [ne_eq, not_true, if_false]
          exact rest
      · next inner =>
          have inner : r + 1 ≠ blockPages := index ▸ inner
          exact ih (by omega) (by omega) inv.next

/-- A request of `IOCTL_CHECK_PROCESS_ADDR_PHY` at an address. -/
structure PhyRequest (mem : Nat → UInt8) (arg : Nat) (pid : Int32)
    (virtAddrStart virtAddrEnd : Nat)
    : Prop where
  asksPid : Int32.ofNat (wordAt (cells mem arg 24) 0 4) = pid
  asksStart : wordAt (cells mem arg 24) 8 8 = virtAddrStart
  asksEnd : wordAt (cells mem arg 24) 16 8 = virtAddrEnd

/-- The ends of a range of pages pass the check of their low bits. -/
theorem PageRange.masked (range : PageRange g virtAddrStart virtAddrEnd pages)
    : (virtAddrStart ||| virtAddrEnd) &&& (g.pageSize - 1) = 0 := by
  have start := Nat.mod_eq_zero_of_dvd range.aligned
  have finish : virtAddrEnd % g.pageSize = 0 := by
    rw [range.finish, Nat.add_mul_mod_self_right, start]
  rw [Nat.and_or_distrib_right, g.and_mask, g.and_mask, start, finish]
  rfl

variable {P : Type}

/-- The command returns the number of pages, and leaves their bits and the padding of the last
byte at the front of the buffer.
-/
theorem rwmemCheckPhy_bits {k : IoctlKernel P} {mem : Nat → UInt8} {arg : Nat} {pid : Int32}
    {task : TaskStruct P} (range : PageRange k.geometry virtAddrStart virtAddrEnd pages)
    (req : PhyRequest mem arg pid virtAddrStart virtAddrEnd)
    (fits : arg + (pages + 7) / 8 < 2 ^ 64) (read : k.fromUserLeft = 0)
    (copied : ∀ n, k.toUserLeft n = 0) (allocated : k.noBuffer = false)
    (found : k.findGetPid pid = some (some task))
    : ∃ mem',
        rwmemCheckPhy k arg mem = .returned pages mem'
        ∧ (∀ j < 8 * ((pages + 7) / 8),
          bitAt mem' arg j
          = (decide (j < pages)
            && isResident task k.ptes (virtAddrStart + j * k.geometry.pageSize)))
        ∧ ∀ i, i < arg ∨ arg + (pages + 7) / 8 ≤ i → mem' i = mem i := by
  have positive := k.geometry.pageSize_pos
  have counted : (virtAddrEnd - virtAddrStart) / k.geometry.pageSize = pages := by
    rw [range.finish, Nat.add_sub_cancel_left, Nat.mul_div_cancel _ positive]
  have ascending : ¬virtAddrStart ≥ virtAddrEnd := by
    have := Nat.mul_pos range.nonempty positive
    have := range.finish
    omega
  obtain ⟨q, r, inBlock, all, inv⟩ := checkPhyLoop_run (isResident task k.ptes) copied range fits
    pages (by decide) (by omega)
    (blockInv_zero _ arg mem)
  rw [Nat.mul_zero, Nat.zero_add, Nat.zero_mul, Nat.add_zero] at inv
  simp only [rwmemCheckPhy, read, ne_eq, not_true, if_false, req.asksPid, req.asksStart,
    req.asksEnd, range.masked, ascending, found, counted, allocated, Bool.false_eq_true]
  generalize checkPhyLoop k.geometry (isResident task k.ptes) k.toUserLeft
    (min ((pages + 7) / 8) maxMallocSize) virtAddrEnd virtAddrStart
    ⟨true, 0, 0, arg, fun _ => 0, mem⟩ = run at inv ⊢
  have index := inv.index
  have bytes : (pages + 7) / 8 = maxMallocSize * q + (r + 7) / 8 := by
    rw [all, blockPages, Nat.mul_comm maxMallocSize 8, Nat.mul_assoc, Nat.add_assoc,
      Nat.mul_add_div (by decide)]
  have bits : 8 * ((pages + 7) / 8) = blockPages * q + 8 * ((r + 7) / 8) := by
    rw [bytes, blockPages, Nat.mul_add, Nat.mul_comm maxMallocSize 8, Nat.mul_assoc]
  simp only [inv.ok, Bool.not_true, Bool.false_eq_true, if_false, copied, xCopyToUser_zero,
    not_true, bits]
  by_cases whole : r = 0
  · subst whole
    rw [if_pos index]
    refine ⟨run.mem, rfl, ?_, ?_⟩
    · intro j below
      have old : j < blockPages * q := by omega
      rw [inv.flushed j old, decide_eq_true (show j < pages by omega), Bool.true_and]
    · intro i apart
      rw [bytes] at apart
      exact inv.outside i apart
  · rw [if_neg (index ▸ whole), index]
    refine ⟨_, rfl, ?_, ?_⟩
    · intro j below
      rw [inv.copied_bits inBlock below, ← all]
    · intro i apart
      rw [bytes] at apart
      exact inv.copied_outside _ apart

/-- A run whose copies all succeeded is one without failures. Induction on the pages left. -/
theorem checkPhyLoop_of_ok {g : PageGeometry} {resident : Nat → Bool} {left : Nat → Nat}
    {bufLen virtAddrEnd procVirtAddr : Nat} {run : CheckRun}
    (ok : (checkPhyLoop g resident left bufLen virtAddrEnd procVirtAddr run).ok = true)
    : checkPhyLoop g resident left bufLen virtAddrEnd procVirtAddr run
      = checkPhyLoop g resident (fun _ => 0) bufLen virtAddrEnd procVirtAddr run := by
  fun_induction checkPhyLoop g resident left bufLen virtAddrEnd procVirtAddr run with
  | case1 procVirtAddr run more retBuf i full remaining mem copies failed => contradiction
  | case2 procVirtAddr run more retBuf i full remaining mem copies copied ih =>
      have quiet : xCopyToUser 0 run.mem run.arg
          (cells (if resident procVirtAddr then setBit run.retBuf run.i else run.retBuf) 0 bufLen)
          = (remaining, mem) := by
        have succeeds : ¬(xCopyToUser (left run.copies) run.mem run.arg
            (cells retBuf 0 bufLen)).1 ≠ 0 := by
          rw [copies]
          exact copied
        exact (xCopyToUser_of_zero succeeds).symm.trans copies
      have last : run.i + 1 = maxMallocSize * 8 := full
      rw [ih ok]
      conv_rhs => rw [checkPhyLoop]
      simp only [dif_pos more, if_pos last, quiet, if_neg copied]
  | case3 procVirtAddr run more retBuf i partial_ ih =>
      rw [ih ok]
      conv_rhs => rw [checkPhyLoop]
      rw [dif_pos more]
      have inside : ¬run.i + 1 = maxMallocSize * 8 := partial_
      simp only [if_neg inside]
      rfl
  | case4 procVirtAddr run done =>
      rw [checkPhyLoop, dif_neg done]

/-- A query that is not refused was made to a task, and is one without failures. -/
theorem rwmemCheckPhy_of_accepted {k : IoctlKernel P} {mem mem' : Nat → UInt8} {arg : Nat}
    {pid : Int32} {virtAddrStart virtAddrEnd : Nat} {ret : Int}
    (req : PhyRequest mem arg pid virtAddrStart virtAddrEnd)
    (returned : rwmemCheckPhy k arg mem = .returned ret mem') (accepted : 0 ≤ ret)
    : k.fromUserLeft = 0 ∧ k.noBuffer = false
      ∧ (∃ task, k.findGetPid pid = some (some task))
      ∧ rwmemCheckPhy { k with toUserLeft := fun _ => 0 } arg mem = .returned ret mem' := by
  have refused (code : Int) (memory : Nat → UInt8) (negative : code < 0)
      : IoctlResult.returned code memory ≠ .returned ret mem' := by
    intro same
    cases same
    omega
  unfold rwmemCheckPhy at returned ⊢
  split at returned
  · exact absurd returned (refused _ _ (by decide))
  · next read =>
      simp only [req.asksPid, req.asksStart, req.asksEnd] at returned ⊢
      rw [if_neg read]
      split at returned
      · exact absurd returned (refused _ _ (by decide))
      · next masked =>
          rw [if_neg masked]
          split at returned
          · exact absurd returned (refused _ _ (by decide))
          · next ascending =>
              rw [if_neg ascending]
              split at returned
              · exact absurd returned (refused _ _ (by decide))
              · exact absurd returned (refused _ _ (by decide))
              · next task found =>
                  split at returned
                  · exact absurd returned (refused _ _ (by decide))
                  · next allocated =>
                      refine ⟨not_not.mp read, Bool.eq_false_of_not_eq_true allocated,
                        ⟨task, found⟩, ?_⟩
                      simp only [if_neg allocated]
                      split at returned
                      · exact absurd returned (refused _ _ (by decide))
                      · next ok =>
                          have whole := checkPhyLoop_of_ok (by simpa using ok)
                          rw [whole] at returned ok
                          rw [if_neg ok]
                          split at returned
                          · next flushed =>
                              rw [if_pos flushed]
                              exact returned
                          · next rest =>
                              rw [if_neg rest]
                              split at returned
                              · exact absurd returned (refused _ _ (by decide))
                              · next copied =>
                                  rw [xCopyToUser_of_zero copied] at returned copied
                                  rw [if_neg copied]
                                  exact returned

/-- A call that comes back with a count or the code of an error. -/
def IoctlResult.Answers (result : IoctlResult) : Prop :=
  ∃ ret mem, result = .returned ret mem ∧ -4095 ≤ ret

theorem IoctlResult.answers_ite {c : Prop} [Decidable c] {yes no : IoctlResult}
    (left : yes.Answers) (right : no.Answers)
    : IoctlResult.Answers (if c then yes else no) := by
  split
  · exact left
  · exact right

/-- The query never faults. -/
theorem rwmemCheckPhy_answers (k : IoctlKernel P) (arg : Nat) (mem : Nat → UInt8)
    : (rwmemCheckPhy k arg mem).Answers := by
  have failed (code : Int) (memory : Nat → UInt8) (least : -4095 ≤ code)
      : (IoctlResult.returned code memory).Answers := ⟨code, memory, rfl, least⟩
  have counted (pages : Nat) (memory : Nat → UInt8)
      : (IoctlResult.returned pages memory).Answers :=
    ⟨pages, memory, rfl, Int.le_trans (by decide) (Int.natCast_nonneg pages)⟩
  rw [rwmemCheckPhy]
  refine IoctlResult.answers_ite (failed _ _ (by decide)) ?_
  refine IoctlResult.answers_ite (failed _ _ (by decide)) ?_
  refine IoctlResult.answers_ite (failed _ _ (by decide)) ?_
  split
  · exact failed _ _ (by decide)
  · exact failed _ _ (by decide)
  · refine IoctlResult.answers_ite (failed _ _ (by decide)) ?_
    refine IoctlResult.answers_ite (failed _ _ (by decide)) ?_
    refine IoctlResult.answers_ite (counted _ _) ?_
    exact IoctlResult.answers_ite (failed _ _ (by decide)) (counted _ _)

variable {task : TaskStruct P} {ptes : P → PteBits}

/-- The page of an address is translated, and its entry can be read. -/
def AddressSpace.isReadable (g : PageGeometry) (space : AddressSpace) (va : Nat) : Bool :=
  match space.pageOf g va with
  | none => false
  | some p => p.bits.canRead

/-- Residency does not depend on how the walk finds its pages. -/
theorem isResident_of_realizes {space : AddressSpace}
    (realized : Realizes g task.getTaskProcPhyAddr ptes space) {va : Nat} (small : va < 2 ^ 64)
    : isResident task ptes va = space.isReadable g va := by
  rw [isResident, AddressSpace.isReadable]
  cases page : space.pageOf g va with
  | none =>
      have faults := realized.unmapped va small page
      simp [faults]
  | some p =>
      obtain ⟨pte, walked, read⟩ := realized.mapped va small p page
      have frame := Nat.mul_pos (Nat.pos_of_ne_zero (space.frame_ne_zero _ p page)) g.pageSize_pos
      have translated : p.frame * g.pageSize + va % g.pageSize ≠ 0 := by omega
      simp only [walked, isPteCanRead, read, translated, ne_eq, not_false_eq_true, decide_true,
        Bool.true_and]

end RwMem.Driver
