import RwMem.Driver.MapsFailure

/-! Which bytes of the user memory the list of mappings writes, for any request. The loop tests
only where an entry starts.
-/

namespace RwMem.Driver

open Memory

section Pieces

variable {low high : Nat}

/-- Copies one after the other, each between these addresses. -/
def PiecesInside (low high : Nat) : Nat → List (List UInt8 × Nat) → Prop
  | _, [] => True
  | copyPos, (src, advance) :: rest =>
      (low ≤ copyPos ∧ copyPos + src.length ≤ high)
      ∧ PiecesInside low high (wrap (copyPos + advance)) rest

theorem xCopyToUser_keepsOutside (left : Nat) (mem : Nat → UInt8) {dst : Nat} {src : List UInt8}
    (after : low ≤ dst) (before : dst + src.length ≤ high)
    : KeepsOutside low high mem (xCopyToUser left mem dst src).2 := by
  refine KeepsOutside.store mem after ?_
  rw [List.length_take]
  omega

/-- Whichever copy fails, the others stay in their place. Induction on the copies. -/
theorem copyFields_keepsOutside (left : Nat → Nat) (n : Nat) {copyPos : Nat}
    (mem : Nat → UInt8) {pieces : List (List UInt8 × Nat)}
    (inside : PiecesInside low high copyPos pieces)
    : KeepsOutside low high mem (copyFields left n copyPos mem pieces).mem := by
  induction pieces generalizing n copyPos mem with
  | nil => exact KeepsOutside.refl mem
  | cons piece rest ih =>
      obtain ⟨src, advance⟩ := piece
      obtain ⟨here, later⟩ := inside
      have first := xCopyToUser_keepsOutside (left n) mem here.1 here.2
      rw [copyFields]
      simp only
      split
      · exact first
      · exact first.trans (ih (n + 1) _ later)

end Pieces

/-- The bytes of an entry that are copied. -/
def entryLength (maxPathLength : Nat) : Nat := 20 + nameBytes maxPathLength

theorem nameBytes_le (maxPathLength : Nat) : nameBytes maxPathLength ≤ maxPathLength := by
  rw [nameBytes]
  split <;> omega

theorem piecesInside_fields {copyPos maxPathLength high : Nat} (vma : VmArea)
    (name : List UInt8) (before : copyPos + entryLength maxPathLength ≤ high)
    (fits : high < 2 ^ 64)
    : PiecesInside copyPos high copyPos (fields vma name maxPathLength) := by
  rw [entryLength] at before
  have first : wrap (copyPos + 8) = copyPos + 8 := wrap_of_lt (by omega)
  have second : wrap (copyPos + 8 + 8) = copyPos + 8 + 8 := wrap_of_lt (by omega)
  have third : wrap (copyPos + 8 + 8 + 4) = copyPos + 8 + 8 + 4 := wrap_of_lt (by omega)
  have flags : (flagBytes vma).length = 4 := rfl
  have copied : ((newPath name).take (nameBytes maxPathLength)).length
      ≤ nameBytes maxPathLength := List.length_take_le _ _
  simp only [fields, PiecesInside, first, second, third, length_leBytes, flags, and_true]
  omega

/-- While no copy fails, every entry is copied. -/
theorem copyFields_ok {left : Nat → Nat} (copied : ∀ n, left n = 0) (n copyPos : Nat)
    (mem : Nat → UInt8) (pieces : List (List UInt8 × Nat))
    : (copyFields left n copyPos mem pieces).ok = true := by
  induction pieces generalizing n copyPos mem with
  | nil => rfl
  | cons piece rest ih =>
      obtain ⟨src, advance⟩ := piece
      rw [copyFields, copied, xCopyToUser_zero]
      exact ih _ _ _

/-- Copies that all succeeded are those of a call without failures. Induction on the copies. -/
theorem copyFields_of_ok {left : Nat → Nat} {n copyPos : Nat} {mem : Nat → UInt8}
    {pieces : List (List UInt8 × Nat)}
    (ok : (copyFields left n copyPos mem pieces).ok = true)
    : copyFields left n copyPos mem pieces = copyFields (fun _ => 0) n copyPos mem pieces := by
  induction pieces generalizing n copyPos mem with
  | nil => rfl
  | cons piece rest ih =>
      obtain ⟨src, advance⟩ := piece
      rw [copyFields] at ok
      simp only at ok
      split at ok
      · contradiction
      · next copied =>
          have whole := xCopyToUser_of_zero copied
          rw [whole] at ok copied
          rw [copyFields, copyFields, whole]
          simp only [if_neg copied]
          exact ih ok

/-- The name that a mapping gets in the list. -/
def listedName (mm : MmStruct) (vma : VmArea) : List UInt8 := (pathName mm vma).getD []

/-- A listing that stored the first of these mappings from a position on, `20 + maxPathLength`
bytes apart, and says whether there were more.
-/
structure ListsFirst (mm : MmStruct) (maxPathLength copyPos : Nat) (mem : Nat → UInt8)
    (vmas : List VmArea) (listed : Nat) (run : MapsRun)
    : Prop where
  within : listed ≤ vmas.length
  flagged : run.havePass = decide (listed < vmas.length)
  named : ∀ vma ∈ vmas.take listed, pathName mm vma = some (listedName mm vma)
  stored : ∀ x < copyPos + (20 + maxPathLength) * listed,
    run.mem x
    = storeRecords (20 + maxPathLength) mem copyPos
        ((vmas.take listed).map (fun vma => entryBytes maxPathLength vma (listedName mm vma))) x

theorem listsFirst_zero {mm : MmStruct} {maxPathLength copyPos : Nat} {mem : Nat → UInt8}
    {vma : VmArea} {rest : List VmArea} {run : MapsRun} (more : run.havePass = true)
    (kept : ∀ x < copyPos, run.mem x = mem x)
    : ListsFirst mm maxPathLength copyPos mem (vma :: rest) 0 run := by
  refine ⟨Nat.zero_le _, ?_, ?_, kept⟩
  · rw [more, List.length_cons, decide_eq_true (Nat.zero_lt_succ _)]
  · intro v none
    contradiction

/-- One more entry in front of a listing. -/
theorem ListsFirst.cons {mm : MmStruct} {maxPathLength copyPos listed : Nat} {mem : Nat → UInt8}
    {vma : VmArea} {rest : List VmArea} {run : MapsRun} {name : List UInt8}
    (named : pathName mm vma = some name)
    (lists : ListsFirst mm maxPathLength (copyPos + (20 + maxPathLength))
      (store mem copyPos (entryBytes maxPathLength vma name)) rest listed run)
    : ListsFirst mm maxPathLength copyPos mem (vma :: rest) (listed + 1) run := by
  have name_eq : listedName mm vma = name := by
    rw [listedName, named]
    rfl
  refine ⟨Nat.succ_le_succ lists.within, ?_, ?_, ?_⟩
  · rw [lists.flagged, List.length_cons]
    simp only [Nat.add_lt_add_iff_right]
  · intro v member
    rw [List.take_succ_cons] at member
    rcases List.mem_cons.mp member with here | later
    · rw [here, name_eq, named]
    · exact lists.named v later
  · intro x before
    rw [Nat.mul_succ] at before
    rw [lists.stored x (by omega), List.take_succ_cons, List.map_cons, storeRecords, name_eq]

/-- Whichever copy fails, the entries that are counted are stored. Induction on the mappings
left, for any room.
-/
theorem mapsLoop_lists {mm : MmStruct} (left : Nat → Nat) (maxPathLength : Nat)
    {room copyPos : Nat} {vmas : List VmArea} (success n : Nat) (mem : Nat → UInt8)
    (inside : copyPos + (20 + maxPathLength) * room < 2 ^ 64)
    (survived : (mapsLoop mm left maxPathLength (copyPos + (20 + maxPathLength) * room) success n
      copyPos mem vmas).oops = false)
    : let run := mapsLoop mm left maxPathLength (copyPos + (20 + maxPathLength) * room) success n
        copyPos mem vmas
      ∃ listed ≤ room,
        run.success = success + listed
        ∧ ListsFirst mm maxPathLength copyPos mem vmas listed run := by
  induction vmas generalizing room success n copyPos mem with
  | nil =>
      exact ⟨0, Nat.zero_le _, rfl, Nat.le_refl 0, rfl, fun _ none => by contradiction,
        fun _ _ => rfl⟩
  | cons vma rest ih =>
      rw [mapsLoop] at survived ⊢
      split at survived
      · next full =>
          rw [if_pos full]
          exact ⟨0, Nat.zero_le _, rfl, listsFirst_zero rfl (fun _ _ => rfl)⟩
      · next started =>
          rw [if_neg started]
          split at survived
          · contradiction
          · next name named =>
              have some_ : 0 < room := by
                by_contra none
                rw [Nat.eq_zero_of_not_pos none, Nat.mul_zero] at started
                omega
              obtain ⟨room, rfl⟩ := Nat.exists_eq_add_of_lt some_
              rw [Nat.zero_add, Nat.mul_succ] at inside
              simp only at survived ⊢
              split at survived
              · next ok =>
                  have copied := copyFields_of_ok ok
                  rw [copyFields_fields (fun _ => rfl) vma name n mem (by omega)] at copied
                  have goal : copyPos + (20 + maxPathLength) * (0 + room + 1)
                      = copyPos + (20 + maxPathLength) + (20 + maxPathLength) * room := by
                    rw [Nat.zero_add, Nat.mul_succ]
                    omega
                  rw [copied, goal] at survived ⊢
                  simp only [if_true]
                  obtain ⟨listed, below, counted, lists⟩ := ih _ _ _ (by omega) survived
                  refine ⟨listed + 1, by omega, ?_, lists.cons named⟩
                  rw [counted, Nat.add_assoc, Nat.add_comm 1]
              · next failed =>
                  rw [if_neg failed]
                  have short := nameBytes_le maxPathLength
                  have pieces := piecesInside_fields vma name (Nat.le_refl _)
                    (show copyPos + entryLength maxPathLength < 2 ^ 64 by
                      rw [entryLength]
                      omega)
                  refine ⟨0, Nat.zero_le _, rfl, listsFirst_zero rfl ?_⟩
                  intro x before
                  exact copyFields_keepsOutside left n mem pieces x (Or.inl before)

/-- How many entries a buffer has room for, behind the count. -/
def roomFor (nameLen bufSize : Nat) : Nat :=
  (bufSize - 8 + (nameLen - nameBytes nameLen)) / (20 + nameLen)

theorem lt_roomFor {nameLen bufSize i : Nat} (long : 8 ≤ bufSize)
    : i < roomFor nameLen bufSize ↔ 8 + i * (20 + nameLen) + entryLength nameLen ≤ bufSize := by
  have short := nameBytes_le nameLen
  rw [roomFor, Nat.lt_iff_add_one_le, Nat.le_div_iff_mul_le (by omega), Nat.succ_mul, entryLength]
  omega

/-- The mappings in front of the first one whose path does not fit. -/
def listable (mm : MmStruct) (vmas : List VmArea) : List VmArea :=
  vmas.takeWhile (fun vma => (pathName mm vma).isSome)

variable {mm : MmStruct}

theorem listable_cons {vma : VmArea} {name : List UInt8} (named : pathName mm vma = some name)
    (rest : List VmArea)
    : listable mm (vma :: rest) = vma :: listable mm rest := by
  simp [listable, named]

/-- Without room nothing is listed. -/
theorem mapsLoop_of_le {left : Nat → Nat} {maxPathLength endPos copyPos : Nat}
    (behind : endPos ≤ copyPos) (success n : Nat) (mem : Nat → UInt8) (vmas : List VmArea)
    : mapsLoop mm left maxPathLength endPos success n copyPos mem vmas
      = ⟨success, decide (vmas ≠ []), false, n, mem⟩ := by
  cases vmas with
  | nil => rfl
  | cons vma rest => simp [mapsLoop, behind]

/-- A loop that ends without a word has listed everything. Induction on the mappings left. -/
theorem mapsLoop_complete {left : Nat → Nat} {maxPathLength endPos success n copyPos : Nat}
    {mem : Nat → UInt8} {vmas : List VmArea}
    (survived : (mapsLoop mm left maxPathLength endPos success n copyPos mem vmas).oops = false)
    (all : (mapsLoop mm left maxPathLength endPos success n copyPos mem vmas).havePass = false)
    : (mapsLoop mm left maxPathLength endPos success n copyPos mem vmas).success
      = success + vmas.length := by
  induction vmas generalizing success n copyPos mem with
  | nil => rfl
  | cons vma rest ih =>
      rw [mapsLoop] at survived all ⊢
      split at survived
      · simp_all
      · next more =>
          rw [if_neg more] at all ⊢
          split at survived
          · contradiction
          · next name named =>
              simp only [named] at survived all ⊢
              split at survived
              · next ok =>
                  rw [if_pos ok] at all ⊢
                  rw [ih survived all, List.length_cons]
                  omega
              · next failed =>
                  rw [if_neg failed] at all
                  contradiction

/-- The count of entries only grows. Induction on the mappings left. -/
theorem le_success_mapsLoop (mm : MmStruct) (left : Nat → Nat)
    (maxPathLength endPos success n copyPos : Nat) (mem : Nat → UInt8) (vmas : List VmArea)
    : success ≤ (mapsLoop mm left maxPathLength endPos success n copyPos mem vmas).success := by
  induction vmas generalizing success n copyPos mem with
  | nil => exact Nat.le_refl success
  | cons vma rest ih =>
      rw [mapsLoop]
      split
      · exact Nat.le_refl success
      · split
        · exact Nat.le_refl success
        · simp only
          split
          · exact Nat.le_trans (Nat.le_succ success) (ih _ _ _ _)
          · exact Nat.le_refl success

section Room

variable {maxPathLength start size room : Nat}
  (fits : ∀ i, i < room ↔ i * (20 + maxPathLength) + entryLength maxPathLength ≤ size)
  (inMemory : start + size < 2 ^ 64)
include fits inMemory

/-- If no entry starts in the buffer and ends behind it, the loop writes in the buffer, whatever
copies fail. Induction on the mappings left, `i` is how many are listed.
-/
theorem mapsLoop_inside (left : Nat → Nat) {i : Nat} (listed : i ≤ room) {vmas : List VmArea}
    (ends : i + (listable mm vmas).length ≤ room
      ∨ start + size ≤ wrap (start + room * (20 + maxPathLength)))
    (n : Nat) (mem : Nat → UInt8)
    : let run := mapsLoop mm left maxPathLength (start + size) i n
        (wrap (start + i * (20 + maxPathLength))) mem vmas
      KeepsOutside start (start + size) mem run.mem ∧ run.success ≤ room := by
  induction vmas generalizing i n mem with
  | nil => exact ⟨KeepsOutside.refl mem, listed⟩
  | cons vma rest ih =>
      rw [mapsLoop]
      split
      · exact ⟨KeepsOutside.refl mem, listed⟩
      · next started =>
          split
          · exact ⟨KeepsOutside.refl mem, listed⟩
          · next name named =>
              rw [listable_cons named, List.length_cons] at ends
              have below : i < room := by
                by_contra full
                have last : i = room := by omega
                subst last
                omega
              have place := (fits i).mp below
              have here : wrap (start + i * (20 + maxPathLength))
                  = start + i * (20 + maxPathLength) := wrap_of_lt (by omega)
              have pieces : PiecesInside (start + i * (20 + maxPathLength)) (start + size)
                  (start + i * (20 + maxPathLength)) (fields vma name maxPathLength) :=
                piecesInside_fields vma name (by omega) inMemory
              have entry := (copyFields_keepsOutside left n mem pieces).mono
                (Nat.le_add_right start _) (Nat.le_refl _)
              rw [here]
              simp only
              split
              · next ok =>
                  have advance : start + i * (20 + maxPathLength) + (20 + maxPathLength)
                      = start + (i + 1) * (20 + maxPathLength) := by
                    rw [Nat.succ_mul, Nat.add_assoc]
                  rw [copyFields_wrap ok, advance]
                  obtain ⟨keeps, bounded⟩ := ih (i := i + 1) below (by omega) _ _
                  exact ⟨entry.trans keeps, bounded⟩
              · exact ⟨entry, listed⟩

/-- Otherwise, while no copy fails, an entry is listed that has no room. -/
theorem mapsLoop_overruns {left : Nat → Nat} (copied : ∀ n, left n = 0) {i : Nat}
    (listed : i ≤ room) {vmas : List VmArea} (more : room < i + (listable mm vmas).length)
    (starts : wrap (start + room * (20 + maxPathLength)) < start + size)
    (n : Nat) (mem : Nat → UInt8)
    : room < (mapsLoop mm left maxPathLength (start + size) i n
        (wrap (start + i * (20 + maxPathLength))) mem vmas).success := by
  induction vmas generalizing i n mem with
  | nil => exact absurd more (Nat.not_lt.mpr listed)
  | cons vma rest ih =>
      have started : ¬wrap (start + i * (20 + maxPathLength)) ≥ start + size := by
        rcases Nat.lt_or_eq_of_le listed with below | last
        · have place := (fits i).mp below
          have here : wrap (start + i * (20 + maxPathLength))
              = start + i * (20 + maxPathLength) := wrap_of_lt (by omega)
          rw [entryLength] at place
          rw [here]
          omega
        · rw [last]
          omega
      rw [mapsLoop, if_neg started]
      cases named : pathName mm vma with
      | none =>
          simp only [listable, named, Option.isSome_none, Bool.false_eq_true, not_false_eq_true,
            List.takeWhile_cons_of_neg, List.length_nil] at more
          omega
      | some name =>
          rw [listable_cons named, List.length_cons] at more
          have advance : wrap (wrap (start + i * (20 + maxPathLength)) + (20 + maxPathLength))
              = wrap (start + (i + 1) * (20 + maxPathLength)) := by
            rw [Nat.succ_mul]
            simp only [wrap]
            omega
          have ok := copyFields_ok copied n (wrap (start + i * (20 + maxPathLength))) mem
            (fields vma name maxPathLength)
          simp only [ok, if_true, copyFields_wrap ok, advance]
          rcases Nat.lt_or_eq_of_le listed with below | last
          · exact ih (i := i + 1) below (by omega) _ _
          · subst last
            exact le_success_mapsLoop mm left _ _ _ _ _ _ rest

end Room

variable {P : Type} {pid : Int32} {arg nameLen bufSize : Nat}

/-- The user memory holds a request for the list at an address, of any sizes. -/
structure SizedRequest (mem : Nat → UInt8) (pid : Int32) (arg nameLen bufSize : Nat)
    : Prop where
  asksPid : Int32.ofNat (wordAt (cells mem arg 24) 0 8) = pid
  asksName : wordAt (cells mem arg 24) 8 8 = nameLen
  asksSize : wordAt (cells mem arg 24) 16 8 = bufSize

/-- A kernel that reads its request, in which the process has this address space. Any of its
copies to the user may fail.
-/
structure Lists (k : IoctlKernel P) (pid : Int32) (mm : MmStruct) : Prop where
  read : k.fromUserLeft = 0
  found : ∃ task, k.findGetPid pid = some (some task) ∧ task.mm = some mm

/-- What one call writes lies in the buffer, and it says whether it left out mappings that have
no room.
-/
structure ListsInside (k : IoctlKernel P) (mm : MmStruct) (mem : Nat → UInt8)
    (arg nameLen bufSize : Nat)
    : Prop where
  encoded : ∀ list, mapsListCall k arg mem = some list
    → KeepsOutside arg (arg + bufSize) mem list.run.mem
      ∧ list.run.success ≤ roomFor nameLen bufSize
  answered : ∀ ret mem', rwmemMapsList k arg mem = .returned ret mem'
    → KeepsOutside arg (arg + bufSize) mem mem'
      ∧ (roomFor nameLen bufSize < mm.mmap.length → 0 ≤ ret → ret = 1)

variable (P) in
/-- The encoder keeps to the buffer of a request, whatever else the memory holds and whichever
copies fail, and to its own array of names.
-/
structure StaysInBuffer (mm : MmStruct) (pid : Int32) (arg nameLen bufSize : Nat) : Prop where
  calls : ∀ (k : IoctlKernel P) mem, Lists k pid mm → SizedRequest mem pid arg nameLen bufSize
    → ListsInside k mm mem arg nameLen bufSize
  source : ∀ vma ∈ mm.mmap, ∀ name, pathName mm vma = some name
    → nameBytes nameLen ≤ (newPath name).length

/-- The buffer reaches past the last address; or every mapping has room, up to one whose path
does not fit; or the entries that have room end so near the end of the buffer that the next one
does not start in front of it.
-/
def NoEntryStraddles (mm : MmStruct) (arg nameLen bufSize : Nat) : Prop :=
  2 ^ 64 ≤ arg + bufSize
  ∨ (listable mm mm.mmap).length ≤ roomFor nameLen bufSize
  ∨ arg + bufSize ≤ wrap (arg + 8 + roomFor nameLen bufSize * (20 + nameLen))

/-- The listing that a request leads to. -/
theorem mapsListCall_of_lists {k : IoctlKernel P} {mem : Nat → UInt8} (lists : Lists k pid mm)
    (request : SizedRequest mem pid arg nameLen bufSize) (positive : 0 < nameLen)
    (long : 24 ≤ bufSize) (sizeFits : bufSize < 2 ^ 64) (inMemory : arg + 24 ≤ 2 ^ 64)
    : let run := mapsLoop mm k.toUserLeft nameLen (wrap (arg + bufSize)) 0 0 (arg + 8) mem
        mm.mmap
      mapsListCall k arg mem = some ⟨run.success, run⟩ := by
  obtain ⟨task, found, space⟩ := lists.found
  have given : ¬nameLen = 0 := Nat.ne_of_gt positive
  have start : wrap (arg + 8) = arg + 8 := wrap_of_lt (by omega)
  have finish : wrap (arg + 8 + wrap (bufSize + 2 ^ 64 - 8)) = wrap (arg + bufSize) := by
    simp only [wrap]
    omega
  simp only [mapsListCall, lists.read, ne_eq, not_true, if_false, request.asksPid,
    request.asksName, request.asksSize, found, Option.map_some, getProcMapsList, given, space,
    start, finish]

/-- The answer of a call that returns, from its listing. -/
theorem listsInside_of_encoded {k : IoctlKernel P} {mem : Nat → UInt8} {list : MapsList}
    (called : mapsListCall k arg mem = some list) (long : 8 ≤ bufSize)
    (keeps : KeepsOutside arg (arg + bufSize) mem list.run.mem)
    (bounded : list.run.success ≤ roomFor nameLen bufSize)
    (complete : list.run.oops = false → list.run.havePass = false
      → list.run.success = mm.mmap.length)
    : ListsInside k mm mem arg nameLen bufSize := by
  refine ⟨?_, ?_⟩
  · intro list' called'
    rw [called] at called'
    cases called'
    exact ⟨keeps, bounded⟩
  · intro ret mem' returned
    have count : KeepsOutside arg (arg + bufSize) list.run.mem
        (xCopyToUser (k.toUserLeft list.run.copies) list.run.mem arg
          (leBytes 8 (toUint64 list.ret))).2 :=
      xCopyToUser_keepsOutside _ _ (Nat.le_refl arg) (by rw [length_leBytes]; omega)
    rw [rwmemMapsList, called] at returned
    simp only at returned
    split at returned
    · contradiction
    · next survived =>
        split at returned
        · cases returned
          refine ⟨keeps.trans count, ?_⟩
          intro _ accepted
          exact absurd accepted (by decide)
        · cases returned
          refine ⟨keeps.trans count, ?_⟩
          intro left _
          cases passed : list.run.havePass with
          | true => rfl
          | false =>
              have all := complete (Bool.eq_false_of_not_eq_true survived) passed
              omega

/-- Whichever copy of an entry fails, an answer that is no error is one to a listing of the first
mappings, with their number in front.
-/
theorem rwmemMapsList_lists {k : IoctlKernel P} {mem mem' : Nat → UInt8} {room : Nat}
    {task : TaskStruct P} {ret : Int} (request : ListRequest mem arg pid nameLen room)
    (found : k.findGetPid pid = some (some task)) (space : task.mm = some mm)
    (returned : rwmemMapsList k arg mem = .returned ret mem') (accepted : 0 ≤ libcIoctl ret)
    : ∃ list,
        mapsListCall k arg mem = some list
        ∧ list.run.success ≤ room
        ∧ ListsFirst mm nameLen (arg + 8) mem mm.mmap list.run.success list.run
        ∧ ret = (if list.run.havePass then 1 else 0)
        ∧ mem' = store list.run.mem arg (leBytes 8 list.run.success) := by
  have inside := request.inside
  have refused (code : Int) (memory : Nat → UInt8) (negative : libcIoctl code < 0)
      : IoctlResult.returned code memory ≠ .returned ret mem' := by
    intro same
    cases same
    omega
  by_cases read : k.fromUserLeft = 0
  · have given : ¬nameLen = 0 := Nat.ne_of_gt request.positive
    have finish : wrap (arg + 8 + (20 + nameLen) * room) = arg + 8 + (20 + nameLen) * room :=
      wrap_of_lt (by omega)
    have called := mapsListCall_eq request read
    simp only [found, Option.map_some, getProcMapsList, given, if_false, space, finish] at called
    rw [rwmemMapsList, called] at returned
    simp only at returned
    split at returned
    · contradiction
    · next survived =>
        obtain ⟨listed, below, counted, lists⟩ := mapsLoop_lists k.toUserLeft nameLen 0 0 mem
          (by omega) (Bool.eq_false_of_not_eq_true survived)
        rw [Nat.zero_add] at counted
        have int := mm.length_lt
        have within := lists.within
        subst counted
        split at returned
        · exact absurd returned (refused _ _ (by decide))
        · next copied =>
            rw [xCopyToUser_of_zero copied, xCopyToUser_zero,
              toUint64_natCast (by omega)] at returned
            cases returned
            exact ⟨_, called, below, lists, rfl, rfl⟩
  · rw [rwmemMapsList, mapsListCall, if_pos read] at returned
    exact absurd returned (refused _ _ (by decide))

/-- The entries that have room, behind the count. -/
theorem lt_roomFor_behind {i : Nat} (long : 8 ≤ bufSize)
    : i < roomFor nameLen bufSize
      ↔ i * (20 + nameLen) + entryLength nameLen ≤ bufSize - 8 := by
  rw [lt_roomFor long]
  omega

section Request

variable (positive : 0 < nameLen) (long : 24 ≤ bufSize) (sizeFits : bufSize < 2 ^ 64)
  (inMemory : arg + 24 ≤ 2 ^ 64)
include long sizeFits inMemory

theorem mapsLoop_of_noEntryStraddles (fits : NoEntryStraddles mm arg nameLen bufSize)
    (left : Nat → Nat) (mem : Nat → UInt8)
    : let run := mapsLoop mm left nameLen (wrap (arg + bufSize)) 0 0 (arg + 8) mem mm.mmap
      KeepsOutside arg (arg + bufSize) mem run.mem ∧ run.success ≤ roomFor nameLen bufSize := by
  by_cases wraps : 2 ^ 64 ≤ arg + bufSize
  · have behind : wrap (arg + bufSize) ≤ arg + 8 := by
      rw [wrap]
      omega
    rw [mapsLoop_of_le behind]
    exact ⟨KeepsOutside.refl mem, Nat.zero_le _⟩
  · have finish : arg + bufSize = arg + 8 + (bufSize - 8) := by omega
    have start : wrap (arg + 8 + 0 * (20 + nameLen)) = arg + 8 := by
      rw [Nat.zero_mul]
      exact wrap_of_lt (by omega)
    have ends : 0 + (listable mm mm.mmap).length ≤ roomFor nameLen bufSize
        ∨ arg + 8 + (bufSize - 8) ≤ wrap (arg + 8 + roomFor nameLen bufSize * (20 + nameLen)) := by
      rw [Nat.zero_add, ← finish]
      exact fits.resolve_left wraps
    have inside := mapsLoop_inside (fun _ => lt_roomFor_behind (by omega)) (by omega) left
      (Nat.zero_le _) ends 0 mem
    rw [start, ← finish] at inside
    rw [wrap_of_lt (by omega)]
    exact ⟨inside.1.mono (Nat.le_add_right arg 8) (Nat.le_refl _), inside.2⟩

theorem success_of_entryStraddles (straddles : ¬NoEntryStraddles mm arg nameLen bufSize)
    {left : Nat → Nat} (copied : ∀ n, left n = 0) (mem : Nat → UInt8)
    : roomFor nameLen bufSize
      < (mapsLoop mm left nameLen (wrap (arg + bufSize)) 0 0 (arg + 8) mem mm.mmap).success := by
  have finish : arg + bufSize = arg + 8 + (bufSize - 8) := by omega
  have start : wrap (arg + 8 + 0 * (20 + nameLen)) = arg + 8 := by
    rw [Nat.zero_mul]
    exact wrap_of_lt (by omega)
  simp only [NoEntryStraddles, not_or, Nat.not_le] at straddles
  obtain ⟨below, more, starts⟩ := straddles
  rw [finish] at starts
  have overrun := mapsLoop_overruns (fun _ => lt_roomFor_behind (by omega)) (by omega) copied
    (Nat.zero_le _) (by rw [Nat.zero_add]; exact more) starts 0 mem
  rw [start, ← finish] at overrun
  rw [wrap_of_lt below]
  exact overrun

include positive

theorem listsInside_of_noEntryStraddles (fits : NoEntryStraddles mm arg nameLen bufSize)
    {k : IoctlKernel P} {mem : Nat → UInt8} (lists : Lists k pid mm)
    (request : SizedRequest mem pid arg nameLen bufSize)
    : ListsInside k mm mem arg nameLen bufSize := by
  have called := mapsListCall_of_lists lists request positive long sizeFits inMemory
  obtain ⟨keeps, bounded⟩ := mapsLoop_of_noEntryStraddles long sizeFits inMemory fits
    k.toUserLeft mem
  refine listsInside_of_encoded called (by omega) keeps bounded ?_
  intro survived all
  exact (mapsLoop_complete survived all).trans (Nat.zero_add _)

end Request

/-- A kernel without failures whose only task has this address space. -/
def quietLists (mm : MmStruct) : IoctlKernel P :=
  quietIoctl arm64.toPageGeometry (fun _ => ⟨false, false⟩) (some ⟨some mm, fun _ => (0, none)⟩)

theorem lists_quietLists (mm : MmStruct) (pid : Int32)
    : Lists (quietLists mm : IoctlKernel P) pid mm :=
  ⟨rfl, _, rfl, rfl⟩

/-- A memory that holds nothing but a request. -/
def requestMem (pid : Int32) (arg nameLen bufSize : Nat) : Nat → UInt8 :=
  store (fun _ => 0) arg
    (leBytes 8 pid.toBitVec.toNat ++ leBytes 8 nameLen ++ leBytes 8 bufSize)

theorem sizedRequest_requestMem (pid : Int32) (arg : Nat) (nameFits : nameLen < 2 ^ 64)
    (sizeFits : bufSize < 2 ^ 64)
    : SizedRequest (requestMem pid arg nameLen bufSize) pid arg nameLen bufSize := by
  have word : pid.toBitVec.toNat < 2 ^ 64 := Nat.lt_trans pid.toBitVec.isLt (by decide)
  have front : cells (requestMem pid arg nameLen bufSize) arg 24
      = leBytes 8 pid.toBitVec.toNat ++ leBytes 8 nameLen ++ leBytes 8 bufSize := by
    have stored := cells_store_front arg 24
      (leBytes 8 pid.toBitVec.toNat ++ leBytes 8 nameLen ++ leBytes 8 bufSize) [] (by simp)
    rw [List.append_nil] at stored
    exact stored
  obtain ⟨first, second, third⟩ := wordAt_words word nameFits sizeFits
  refine ⟨?_, ?_, ?_⟩
  · rw [front, first]
    apply Int32.toBitVec_inj.mp
    rw [Int32.toBitVec_ofNat', BitVec.ofNat_toNat, BitVec.setWidth_eq]
  · rw [front, second]
  · rw [front, third]

/-- Whatever its path is, the name of a mapping leaves room for its terminator. -/
theorem length_pathName_lt {vma : VmArea} {name : List UInt8}
    (named : pathName mm vma = some name)
    : name.length < myPathMaxLen := by
  rw [pathName] at named
  cases file : vma.vmFile with
  | none =>
      rw [file] at named
      cases named
      rw [anonName]
      split
      · decide
      · split
        · decide
        · split
          · decide
          · decide
  | some text =>
      rw [file] at named
      obtain ⟨path, _, same⟩ := Option.map_eq_some_iff.mp named
      subst same
      exact Nat.lt_of_le_of_lt (List.length_take_le _ _) (by decide)

theorem nameBytes_le_length_newPath {vma : VmArea} {name : List UInt8} (maxPathLength : Nat)
    (named : pathName mm vma = some name)
    : nameBytes maxPathLength ≤ (newPath name).length := by
  rw [length_newPath (Nat.le_of_lt (length_pathName_lt named)), nameBytes]
  split <;> omega

variable (P) in
/-- The encoder keeps to the buffer exactly if no entry starts in the buffer and ends behind
it.
-/
theorem staysInBuffer_iff (mm : MmStruct) (pid : Int32) (positive : 0 < nameLen)
    (nameFits : nameLen < 2 ^ 64) (long : 24 ≤ bufSize) (sizeFits : bufSize < 2 ^ 64)
    (inMemory : arg + 24 ≤ 2 ^ 64)
    : StaysInBuffer P mm pid arg nameLen bufSize ↔ NoEntryStraddles mm arg nameLen bufSize := by
  constructor
  · intro stays
    by_contra straddles
    have lists : Lists (quietLists mm : IoctlKernel P) pid mm := lists_quietLists mm pid
    have request := sizedRequest_requestMem pid arg nameFits sizeFits
    have called := mapsListCall_of_lists lists request positive long sizeFits inMemory
    have overrun := success_of_entryStraddles long sizeFits inMemory straddles
      (fun _ => rfl : ∀ n, (quietLists mm : IoctlKernel P).toUserLeft n = 0)
      (requestMem pid arg nameLen bufSize)
    exact Nat.not_lt.mpr ((stays.calls _ _ lists request).encoded _ called).2 overrun
  · intro fits
    refine ⟨?_, ?_⟩
    · intro k mem lists request
      exact listsInside_of_noEntryStraddles positive long sizeFits inMemory fits lists request
    · intro vma _ name named
      exact nameBytes_le_length_newPath nameLen named

/-- A buffer of whole entries, such as the clients pass, is safe. -/
theorem noEntryStraddles_of_whole (mm : MmStruct) {room : Nat}
    (inMemory : arg + (8 + (20 + nameLen) * room) < 2 ^ 64)
    : NoEntryStraddles mm arg nameLen (8 + (20 + nameLen) * room) := by
  have short := nameBytes_le nameLen
  have whole : roomFor nameLen (8 + (20 + nameLen) * room) = room := by
    rw [roomFor, Nat.add_sub_cancel_left, Nat.mul_add_div (by omega),
      Nat.div_eq_of_lt (by omega), Nat.add_zero]
  refine Or.inr (Or.inr ?_)
  rw [whole, Nat.mul_comm room, wrap_of_lt (by omega)]
  omega

/-- A program with two mappings of a page each. -/
def twoPages : MmStruct where
  mmap :=
    [⟨⟨0x10000, 0x11000, true, false⟩, true, false, none, by decide, by decide⟩,
      ⟨⟨0x12000, 0x13000, true, true⟩, false, false, none, by decide, by decide⟩]
  length_lt := by decide
  vdso := 0
  startBrk := 0
  brk := 0
  startStack := 0

theorem staysInBuffer_twoPages : StaysInBuffer Nat twoPages 42 0 512 (8 + (20 + 512) * 52) :=
  (staysInBuffer_iff Nat twoPages 42 (by decide) (by decide) (by decide) (by decide)
    (by decide)).mpr (noEntryStraddles_of_whole twoPages (by decide))

/-- In a buffer of a thousand bytes the second entry starts at 540, and its name covers the
byte behind the buffer.
-/
theorem not_staysInBuffer_twoPages
    : let k : IoctlKernel Nat := quietLists twoPages
      let mem := store (requestMem 42 0 512 1000) 1000 [1]
      SizedRequest mem 42 0 512 1000
      ∧ mem 1000 = 1
      ∧ (mapsListCall k 0 mem).map (fun list => list.run.mem 1000) = some 0
      ∧ ¬StaysInBuffer Nat twoPages 42 0 512 1000 := by
  intro k mem
  have request : SizedRequest mem 42 0 512 1000 :=
    ⟨by decide +kernel, by decide +kernel, by decide +kernel⟩
  have before : mem 1000 = 1 := by decide +kernel
  have overwritten : (mapsListCall k 0 mem).map (fun list => list.run.mem 1000) = some 0 := by
    decide +kernel
  refine ⟨request, before, overwritten, ?_⟩
  intro stays
  obtain ⟨list, called, after⟩ := Option.map_eq_some_iff.mp overwritten
  have same := ((stays.calls k mem (lists_quietLists twoPages 42) request).encoded list called).1
    1000 (Or.inr (by decide))
  rw [before, after] at same
  contradiction

end RwMem.Driver
