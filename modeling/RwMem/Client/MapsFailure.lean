import RwMem.Client.MapsRoundTrip
import RwMem.Driver.MapsFailure

/-! What `get_mem_map` makes of a listing that failed. -/

namespace RwMem.Client

open Memory RwMem.Driver

variable {P : Type}

/-- The listing that the second `ioctl` of a call leads to in a kernel. -/
def listing (sys : Ioctls) (k : IoctlKernel P) (buf : List UInt8) : Option MapsList :=
  let p := sys.place 1 buf.length
  mapsListCall k p (store (fun _ => 0) p buf)

/-- What a caller gets for a listing: an error, a fault, or a result with the count in front of
the buffer.
-/
inductive ListAnswer (k : IoctlKernel P) : Option MapsList → Option (Int × List UInt8) → Prop
  | refused (buf : List UInt8) : ListAnswer k none (some (-EINVAL, buf))
  | faulted (list : MapsList) (oops : list.run.oops = true) : ListAnswer k (some list) none
  | notCopied (list : MapsList) (buf : List UInt8)
      (left : k.toUserLeft list.run.copies ≠ 0)
      : ListAnswer k (some list) (some (-EFAULT, buf))
  | counted (list : MapsList) (buf : List UInt8) (copied : k.toUserLeft list.run.copies = 0)
      (front : wordAt buf 0 8 = toUint64 list.ret)
      : ListAnswer k (some list) (some (if list.run.havePass then 1 else 0, buf))

variable {sys : Ioctls} {k : IoctlKernel P} {pid : Int32} {word count : Nat}

theorem toUint64_lt (n : Int) : toUint64 n < 2 ^ 64 := by
  rw [toUint64]
  omega

/-- A word that was stored in front of a buffer is read there. -/
theorem wordAt_store {w p len : Nat} (mem : Nat → UInt8) (long : 8 ≤ len) (fits : w < 2 ^ 64)
    : wordAt (cells (store mem p (leBytes 8 w)) p len) 0 8 = w := by
  obtain ⟨rest, split⟩ := Nat.exists_eq_add_of_le long
  have front := cells_store mem p (leBytes 8 w)
  rw [length_leBytes] at front
  rw [split, cells_add, front, wordAt, List.drop_zero,
    List.take_append_of_le_length (by simp), List.take_of_length_le (by simp),
    leValue_leBytes_word fits]

theorem pass_answer {buf : List UInt8} (long : 8 ≤ buf.length)
    (served : sys.ioctl 1 .getProcessMapsList = rwmemMapsList k)
    : ListAnswer k (listing sys k buf) (sys.pass 1 .getProcessMapsList buf) := by
  rw [Ioctls.pass, served, rwmemMapsList, listing]
  simp only
  cases mapsListCall k (sys.place 1 buf.length) (store (fun _ => 0) (sys.place 1 buf.length) buf)
  with
  | none => exact .refused _
  | some list =>
      cases oops : list.run.oops with
      | true =>
          simp only [oops, if_true]
          exact .faulted list oops
      | false =>
          simp only [oops, Bool.false_eq_true, if_false]
          by_cases copied : k.toUserLeft list.run.copies = 0
          · rw [copied, xCopyToUser_zero]
            simp only [ne_eq, not_true, if_false]
            exact .counted list _ copied (wordAt_store _ long (toUint64_lt _))
          · have left : (xCopyToUser (k.toUserLeft list.run.copies) list.run.mem
                (sys.place 1 buf.length) (leBytes 8 (toUint64 list.ret))).1 ≠ 0 := by
              simp only [xCopyToUser, length_leBytes]
              omega
            rw [if_pos left]
            exact .notCopied list _ copied

variable (word count) in
theorem pass_requestBuf_answer (served : sys.ioctl 1 .getProcessMapsList = rwmemMapsList k)
    : ListAnswer k (listing sys k (requestBuf word count))
        (sys.pass 1 .getProcessMapsList (requestBuf word count)) :=
  pass_answer (by rw [length_requestBuf]; omega) served

/-- The `ioctl` behind a call that comes back. -/
theorem returned_of_pass {n : Nat} {command : Command} {buf buf' : List UInt8} {ret : Int}
    (passed : sys.pass n command buf = some (ret, buf'))
    : ∃ mem,
        sys.ioctl n command (sys.place n buf.length)
            (store (fun _ => 0) (sys.place n buf.length) buf)
          = .returned ret mem
        ∧ buf' = cells mem (sys.place n buf.length) buf.length := by
  rw [Ioctls.pass] at passed
  split at passed
  · contradiction
  · next ret' mem returned =>
      cases passed
      exact ⟨mem, returned, rfl⟩

theorem length_pass {n : Nat} {command : Command} {buf buf' : List UInt8} {ret : Int}
    (passed : sys.pass n command buf = some (ret, buf'))
    : buf'.length = buf.length := by
  obtain ⟨_, _, same⟩ := returned_of_pass passed
  rw [same, length_cells]

variable (sys) in
/-- The request of a client can be read by the driver, wherever it lies. -/
theorem listRequest_place (wordFits : word < 2 ^ 64) (small : count < 2 ^ 31)
    : ListRequest
        (store (fun _ => 0) (sys.place 1 (requestBuf word count).length) (requestBuf word count))
        (sys.place 1 (requestBuf word count).length) (Int32.ofNat word) 512 (count + 50) := by
  have length := length_requestBuf word count
  have place := sys.place_lt 1 (requestBuf word count).length (by omega)
  rw [length] at place ⊢
  exact listRequest_requestBuf wordFits place

section Answers

variable (wordFits : word < 2 ^ 64) (small : count < 2 ^ 31)
  (served : sys.ioctl 1 .getProcessMapsList = rwmemMapsList k)
include wordFits small

/-- A listing that has failed by itself, or the number of its entries. -/
theorem listing_cases {list : MapsList}
    (listed : listing sys k (requestBuf word count) = some list)
    : (k.fromUserLeft = 0
        ∧ (∃ task, k.findGetPid (Int32.ofNat word) = some task ∧ NoSpace task)
        ∧ list.ret < 0 ∧ -3 ≤ list.ret ∧ list.run.havePass = false ∧ list.run.oops = false
        ∧ list.run.copies = 0 ∧ list.run.success = 0)
      ∨ (list.ret = list.run.success ∧ list.run.success < 2 ^ 31
        ∧ list.run.success ≤ count + 50) := by
  rcases mapsListCall_cases (listRequest_place sys wordFits small) listed with failed | done
  · obtain ⟨read, found, negative, least, run⟩ := failed
    exact Or.inl ⟨read, found, negative, least, by rw [run], by rw [run], by rw [run],
      by rw [run]⟩
  · exact Or.inr done

include served

/-- While no failure goes unnoticed, a failed listing is answered with an error. -/
theorem pass_of_failed {list : MapsList} (noticed : ¬FailsUnnoticed k (Int32.ofNat word))
    (listed : listing sys k (requestBuf word count) = some list) (failed : list.ret < 0)
    : ∃ buf, sys.pass 1 .getProcessMapsList (requestBuf word count) = some (-EFAULT, buf) := by
  have answer := pass_requestBuf_answer word count served
  rcases listing_cases wordFits small listed with bad | good
  · obtain ⟨read, found, _, _, _, oops, copies, _⟩ := bad
    rw [listed] at answer
    generalize sys.pass 1 .getProcessMapsList (requestBuf word count) = result at answer ⊢
    cases answer with
    | faulted _ fault =>
        rw [oops] at fault
        contradiction
    | notCopied _ buf => exact ⟨buf, rfl⟩
    | counted _ _ copied =>
        rw [copies] at copied
        exact absurd ⟨read, copied, found⟩ noticed
  · omega

/-- While no failure goes unnoticed, an accepted answer is one to a listing, and its count is
one of encoded entries, for all of which there is room.
-/
theorem pass_count_le {ret : Int} {buf : List UInt8}
    (noticed : ¬FailsUnnoticed k (Int32.ofNat word))
    (passed : sys.pass 1 .getProcessMapsList (requestBuf word count) = some (ret, buf))
    (accepted : libcIoctl ret ≠ -1)
    : ∃ list,
        listing sys k (requestBuf word count) = some list
        ∧ wordAt buf 0 8 ≤ list.run.success ∧ wordAt buf 0 8 ≤ count + 50
        ∧ buf.length = 8 + 532 * (count + 50) := by
  have answer := pass_requestBuf_answer word count served
  have length := length_pass passed
  rw [length_requestBuf] at length
  cases listed : listing sys k (requestBuf word count) with
  | none =>
      rw [listed, passed] at answer
      cases answer
      contradiction
  | some list =>
      refine ⟨list, rfl, ?_⟩
      rcases listing_cases wordFits small listed with bad | good
      · obtain ⟨_, _, failed, _⟩ := bad
        obtain ⟨_, refused⟩ := pass_of_failed wordFits small served noticed listed failed
        rw [refused] at passed
        cases passed
        contradiction
      · obtain ⟨encoded, int, room⟩ := good
        rw [listed, passed] at answer
        cases answer with
        | notCopied => contradiction
        | counted _ _ _ front =>
            rw [encoded, toUint64_natCast int] at front
            omega

/-- A failure that goes unnoticed is answered as a success with a count of at least one. -/
theorem pass_of_unnoticed (unnoticed : FailsUnnoticed k (Int32.ofNat word))
    : ∃ list buf,
        listing sys k (requestBuf word count) = some list ∧ list.run.success = 0
        ∧ sys.pass 1 .getProcessMapsList (requestBuf word count) = some (0, buf)
        ∧ 2 ^ 64 - 3 ≤ wordAt buf 0 8 := by
  obtain ⟨read, copied, task, found, missing⟩ := unnoticed
  have asked := mapsListCall_eq (listRequest_place sys wordFits small) read
  rw [found, Option.map_some] at asked
  have listed : listing sys k (requestBuf word count) = some _ := asked
  have answer := pass_requestBuf_answer word count served
  rcases getProcMapsList_cases task k.toUserLeft (show 0 < 512 by decide)
    (sys.place 1 (requestBuf word count).length + 8) ((20 + 512) * (count + 50))
    (store (fun _ => 0) (sys.place 1 (requestBuf word count).length) (requestBuf word count))
    with failed | done
  · obtain ⟨_, code, negative, least, failed⟩ := failed
    rw [failed] at listed
    rw [listed] at answer
    have huge : 2 ^ 64 - 3 ≤ toUint64 code := by
      rw [toUint64]
      omega
    generalize sys.pass 1 .getProcessMapsList (requestBuf word count) = result at answer ⊢
    cases answer with
    | faulted _ oops => contradiction
    | notCopied _ _ left => exact absurd copied left
    | counted _ buf _ front => exact ⟨_, buf, listed, rfl, rfl, front ▸ huge⟩
  · exact absurd missing done.1

end Answers

/-- A failed listing is an error of `get_mem_map`; the count that it decodes is one of entries
that were encoded and lie in the buffer; and it does not panic.
-/
structure FailureReported (sys : Ioctls) (k : IoctlKernel P) (pid : Int32) : Prop where
  failed : ∀ count list, getMemMapCount sys pid = .ok count
    → listing sys k (mapsRequest pid count) = some list → list.ret < 0
    → ∀ phyOnly, ∃ e, getMemMap sys pid phyOnly = .err e
  decoded : ∀ count list buf, getMemMapCount sys pid = .ok count
    → listing sys k (mapsRequest pid count) = some list
    → sys.call 1 .getProcessMapsList (mapsRequest pid count) = .ok (0, buf)
    → wordAt buf 0 8 ≤ list.run.success ∧ 8 + 532 * wordAt buf 0 8 ≤ buf.length
  runs : ∀ phyOnly, getMemMap sys pid phyOnly ≠ .panicked

theorem Outcome.bind_ne_panicked {α β : Type} {first : Outcome α} {next : α → Outcome β}
    (fine : first ≠ .panicked) (later : ∀ value, first = .ok value → next value ≠ .panicked)
    : first.bind next ≠ .panicked := by
  cases first with
  | ok value => exact later value rfl
  | err e => simp [Outcome.bind]
  | panicked => exact absurd rfl fine
  | killed => simp [Outcome.bind]

theorem readExact_ne_panicked (n : Nat) (cursor : List UInt8)
    : readExact n cursor ≠ .panicked := by
  rw [readExact]
  split <;> simp

theorem readU64_ne_panicked (cursor : List UInt8) : readU64 cursor ≠ .panicked :=
  Outcome.bind_ne_panicked (readExact_ne_panicked 8 cursor) (fun _ _ => by simp)

theorem readFlag_ne_panicked (cursor : List UInt8) : readFlag cursor ≠ .panicked :=
  Outcome.bind_ne_panicked (readExact_ne_panicked 1 cursor) (fun _ _ => by simp)

theorem readEntry_ne_panicked (cursor : List UInt8) : readEntry cursor ≠ .panicked := by
  refine Outcome.bind_ne_panicked (readU64_ne_panicked _) (fun _ _ => ?_)
  refine Outcome.bind_ne_panicked (readU64_ne_panicked _) (fun _ _ => ?_)
  refine Outcome.bind_ne_panicked (readFlag_ne_panicked _) (fun _ _ => ?_)
  refine Outcome.bind_ne_panicked (readFlag_ne_panicked _) (fun _ _ => ?_)
  refine Outcome.bind_ne_panicked (readFlag_ne_panicked _) (fun _ _ => ?_)
  refine Outcome.bind_ne_panicked (readFlag_ne_panicked _) (fun _ _ => ?_)
  exact Outcome.bind_ne_panicked (readExact_ne_panicked _ _) (fun _ _ => by simp)

theorem call_ne_panicked (n : Nat) (command : Command) (buf : List UInt8)
    : sys.call n command buf ≠ .panicked := by
  rw [Ioctls.call]
  split
  · simp
  · split <;> simp

theorem isMemPhy_ne_panicked (n : Nat) (beginAddr endAddr : Nat)
    : isMemPhy sys n pid beginAddr endAddr ≠ .panicked := by
  rw [isMemPhy]
  split
  · simp
  · split
    · simp
    · split
      · simp
      · exact Outcome.bind_ne_panicked (call_ne_panicked _ _ _) (fun _ _ => by simp)

/-- No answer of an `ioctl` makes the decoding loop panic. Induction on the rounds. -/
theorem readEntries_ne_panicked (phyOnly : Bool) (realCount n : Nat) (cursor : List UInt8)
    : readEntries sys pid phyOnly realCount n cursor ≠ .panicked := by
  induction realCount generalizing n cursor with
  | zero => simp [readEntries]
  | succ realCount ih =>
      refine Outcome.bind_ne_panicked (readEntry_ne_panicked cursor) (fun _ _ => ?_)
      simp only
      split
      · refine Outcome.bind_ne_panicked (isMemPhy_ne_panicked _ _ _) (fun _ _ => ?_)
        exact Outcome.bind_ne_panicked (ih _ _) (fun _ _ => by simp)
      · exact Outcome.bind_ne_panicked (ih _ _) (fun _ _ => by simp)

/-- The vector for the entries can be allocated if the count is that of a buffer. -/
theorem decodeMaps_ne_panicked {buf : List UInt8} (phyOnly : Bool)
    (bounded : wordAt buf 0 8 * mapsEntrySize < 2 ^ 63)
    : decodeMaps sys pid phyOnly buf ≠ .panicked := by
  refine Outcome.bind_ne_panicked (readU64_ne_panicked buf) (fun value front => ?_)
  have word : value.1 = wordAt buf 0 8 := by
    rw [readU64, readExact] at front
    split at front
    · cases front
      rfl
    · contradiction
  simp only [word, if_neg (Nat.not_le.mpr bounded)]
  exact readEntries_ne_panicked phyOnly _ _ _

/-- A larger vector cannot. -/
theorem decodeMaps_of_large {buf : List UInt8} (phyOnly : Bool) (long : 8 ≤ buf.length)
    (large : 2 ^ 63 ≤ wordAt buf 0 8 * mapsEntrySize)
    : decodeMaps sys pid phyOnly buf = .panicked := by
  have front : readU64 buf = .ok (wordAt buf 0 8, buf.drop 8) := by
    rw [readU64, readExact, if_pos long]
    rfl
  rw [decodeMaps, front]
  exact if_pos large

theorem getMemMapCount_ne_panicked : getMemMapCount sys pid ≠ .panicked := by
  rw [getMemMapCount]
  split
  · simp
  · split <;> simp

/-- While no failure goes unnoticed, what `get_mem_map` accepts is the answer to a listing. -/
theorem call_count_le {count : Nat} {ret : Int} {buf : List UInt8}
    (listServed : sys.ioctl 1 .getProcessMapsList = rwmemMapsList k) (small : count < 2 ^ 31)
    (noticed : ¬FailsUnnoticed k pid)
    (called : sys.call 1 .getProcessMapsList (mapsRequest pid count) = .ok (ret, buf))
    : ∃ list,
        listing sys k (mapsRequest pid count) = some list
        ∧ wordAt buf 0 8 ≤ list.run.success ∧ wordAt buf 0 8 ≤ count + 50
        ∧ buf.length = 8 + 532 * (count + 50) := by
  rw [← ofNat_pidWord pid] at noticed
  rw [Ioctls.call] at called
  split at called
  · contradiction
  · next passed =>
      split at called
      · contradiction
      · next accepted =>
          cases called
          exact pass_count_le (pidWord_lt pid) small listServed noticed passed accepted

/-- A count that was obtained is an `int`, or a negative one that was converted. -/
theorem counted_of_obtained (obtained : getMemMapCount sys pid = .ok count)
    : Counted sys pid count ∨ 2 ^ 64 - 2 ^ 31 ≤ count := by
  rw [getMemMapCount] at obtained
  split at obtained
  · contradiction
  · next ret mem returned =>
      split at obtained
      · contradiction
      · cases obtained
        have bounds := libcIoctl_bounds ret
        by_cases positive : 0 ≤ libcIoctl ret
        · refine Or.inl ⟨ret, mem, returned, ?_⟩
          rw [toUint64]
          omega
        · right
          rw [toUint64]
          omega

/-- A count that is an `int` was answered as one. -/
theorem counted_of_lt (obtained : getMemMapCount sys pid = .ok count) (small : count < 2 ^ 31)
    : Counted sys pid count := by
  rcases counted_of_obtained obtained with counted | huge
  · exact counted
  · omega

/-- No buffer can be allocated for a negative count. -/
theorem getMemMap_of_huge (phyOnly : Bool) (obtained : getMemMapCount sys pid = .ok count)
    (huge : 2 ^ 64 - 2 ^ 31 ≤ count)
    : getMemMap sys pid phyOnly = .panicked := by
  have large : 2 ^ 63 ≤ 8 + (8 + 8 + 4 + 512) * (count + 50) := by omega
  rw [getMemMap, obtained, Outcome.bind, if_pos large]

/-- With a count, `get_mem_map` panics at a failure that goes unnoticed. -/
theorem getMemMap_of_unnoticed (phyOnly : Bool)
    (listServed : sys.ioctl 1 .getProcessMapsList = rwmemMapsList k)
    (counted : Counted sys pid count) (unnoticed : FailsUnnoticed k pid)
    : getMemMap sys pid phyOnly = .panicked := by
  rw [← ofNat_pidWord pid] at unnoticed
  obtain ⟨_, buf, _, _, passed, huge⟩ :=
    pass_of_unnoticed (pidWord_lt pid) counted.lt listServed unnoticed
  have long : 8 ≤ buf.length := by
    rw [length_pass passed, length_requestBuf]
    omega
  have large : 2 ^ 63 ≤ wordAt buf 0 8 * mapsEntrySize := by
    rw [mapsEntrySize]
    omega
  rw [getMemMap_of_counted phyOnly counted, Ioctls.call, mapsRequest, passed]
  exact decodeMaps_of_large phyOnly long large

/-- `get_mem_map` reports failures exactly if, whenever it obtains a count, this is not negative
and a failed listing does not go unnoticed.
-/
theorem failureReported_iff (listServed : sys.ioctl 1 .getProcessMapsList = rwmemMapsList k)
    : FailureReported sys k pid
      ↔ ∀ count, getMemMapCount sys pid = .ok count → count < 2 ^ 31 ∧ ¬FailsUnnoticed k pid := by
  constructor
  · intro reported count obtained
    rcases counted_of_obtained obtained with counted | huge
    · refine ⟨counted.lt, ?_⟩
      intro unnoticed
      exact reported.runs false (getMemMap_of_unnoticed false listServed counted unnoticed)
    · exact absurd (getMemMap_of_huge false obtained huge) (reported.runs false)
  · intro condition
    refine ⟨?_, ?_, ?_⟩
    · intro count list obtained listed failed phyOnly
      obtain ⟨small, noticed⟩ := condition count obtained
      obtain ⟨buf, passed⟩ := pass_of_failed (pidWord_lt pid) small listServed
        ((ofNat_pidWord pid).symm ▸ noticed) listed failed
      refine ⟨.errno EFAULT, ?_⟩
      rw [getMemMap_of_counted phyOnly (counted_of_lt obtained small), Ioctls.call, mapsRequest,
        passed]
      rfl
    · intro count list buf obtained listed called
      obtain ⟨small, noticed⟩ := condition count obtained
      obtain ⟨list', listed', encoded, room, length⟩ :=
        call_count_le listServed small noticed called
      rw [listed] at listed'
      cases listed'
      exact ⟨encoded, by omega⟩
    · intro phyOnly
      refine Outcome.bind_ne_panicked getMemMapCount_ne_panicked (fun count obtained => ?_)
      obtain ⟨small, noticed⟩ := condition count obtained
      have allocated : ¬2 ^ 63 ≤ 8 + (8 + 8 + 4 + 512) * (count + 50) := by omega
      rw [if_neg allocated]
      refine Outcome.bind_ne_panicked (call_ne_panicked _ _ _) (fun answer called => ?_)
      obtain ⟨list, _, _, room, _⟩ := call_count_le listServed small noticed called
      simp only
      split
      · simp
      · exact decodeMaps_ne_panicked phyOnly (by rw [mapsEntrySize]; omega)

/-- Every `ioctl` of the library goes through the switch of the driver, the `n`-th in the `n`-th
of these kernels.
-/
def Issued (sys : Ioctls) (kernel : Nat → IoctlKernel P) : Prop :=
  ∀ n command, sys.ioctl n command = rwmemIoctl (kernel n) (requestCode command)

variable {kernel : Nat → IoctlKernel P}

/-- The driver refuses to count for the library. -/
theorem getMemMapCount_of_issued (issued : Issued sys kernel) (pid : Int32)
    : getMemMapCount sys pid = .err (.errno EINVAL) := by
  rw [getMemMapCount, issued 0, rwmemIoctl, commandOf_requestCode_count]
  rfl

/-- So `get_mem_map` ends in this error, whatever the target and the rest of the kernel. -/
theorem getMemMap_of_issued (issued : Issued sys kernel) (pid : Int32) (phyOnly : Bool)
    : getMemMap sys pid phyOnly = .err (.errno EINVAL) := by
  rw [getMemMap, getMemMapCount_of_issued issued]
  rfl

theorem failureReported_of_issued (issued : Issued sys kernel) (pid : Int32)
    : FailureReported sys (kernel 1) pid := by
  have listServed : sys.ioctl 1 .getProcessMapsList = rwmemMapsList (kernel 1) := by
    rw [issued, rwmemIoctl_requestCode _ _ (by decide)]
    rfl
  refine (failureReported_iff listServed).mpr ?_
  intro count obtained
  rw [getMemMapCount_of_issued issued] at obtained
  contradiction

end RwMem.Client
