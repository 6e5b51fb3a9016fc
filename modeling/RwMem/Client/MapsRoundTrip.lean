import Mathlib.Data.List.TakeWhile
import RwMem.Client.Maps
import RwMem.Driver.MapsLayout

/-! The client library reads back the list of mappings that the driver wrote. -/

namespace RwMem.Client

open Memory RwMem.Driver

theorem storeWords_eq (a b c : Nat) (buf : List UInt8)
    : storeWords a b c buf
      = leBytes 8 a ++ leBytes 8 b ++ leBytes 8 c ++ buf.drop 24 := by
  have second := overwrite_append (leBytes 8 a) (buf.drop 8) (leBytes 8 b)
  have third := overwrite_append (leBytes 8 a ++ leBytes 8 b) (buf.drop 16) (leBytes 8 c)
  simp only [length_leBytes, List.length_append, List.drop_drop] at second third
  rw [storeWords, overwrite_zero, length_leBytes, second, third]

theorem length_storeWords {a b c : Nat} {buf : List UInt8} (long : 24 ≤ buf.length)
    : (storeWords a b c buf).length = buf.length := by
  simp only [storeWords_eq, List.length_append, length_leBytes, List.length_drop]
  omega

theorem length_requestBuf (pid count : Nat)
    : (requestBuf pid count).length = 8 + 532 * (count + 50) := by
  rw [requestBuf, length_storeWords (by simp; omega), List.length_replicate]

theorem pidWord_lt (pid : Int32) : pidWord pid < 2 ^ 64 := pid.toInt64.toUInt64.toNat_lt

theorem ofNat_pidWord (pid : Int32) : Int32.ofNat (pidWord pid) = pid := ofNat_toInt64 pid

/-- The request asks for entries with names of 512 bytes, with room for 50 more than counted. -/
theorem listRequest_requestBuf {pid count p : Nat} (pidFits : pid < 2 ^ 64)
    (inside : p + (8 + 532 * (count + 50)) < 2 ^ 64)
    : ListRequest (store (fun _ => 0) p (requestBuf pid count)) p (Int32.ofNat pid) 512
        (count + 50) := by
  have small : 512 < 2 ^ 64 := by
    clear inside
    omega
  have size : 8 + (8 + 8 + 4 + 512) * (count + 50) < 2 ^ 64 :=
    Nat.lt_of_le_of_lt (Nat.le_add_left _ p) inside
  have words := wordAt_words pidFits small size
  have front : cells (store (fun _ => 0) p (requestBuf pid count)) p 24
      = leBytes 8 pid ++ leBytes 8 512
        ++ leBytes 8 (8 + (8 + 8 + 4 + 512) * (count + 50)) := by
    rw [requestBuf, storeWords_eq]
    exact cells_store_front p 24 _ _ (by simp)
  obtain ⟨first, second, third⟩ := words
  refine ⟨by decide, ?_, ?_, ?_, inside⟩
  · rw [front, first]
  · rw [front, second]
  · rw [front, third]

/-- The rest of the request is blank, so the gaps between the entries are. -/
theorem gapsHold_requestBuf (pid count p n : Nat)
    : GapsHold (store (fun _ => 0) p (requestBuf pid count)) (p + 8) 532 531 n 0 := by
  intro k below j low high
  have header := storeWords_eq pid 512 (8 + (8 + 8 + 4 + 512) * (count + 50))
    (List.replicate (8 + (8 + 8 + 4 + 512) * (count + 50)) 0)
  have offset : p + 8 + 532 * k + j = p + (8 + 532 * k + j) := by omega
  rw [requestBuf, header, offset, store, if_pos (Nat.le_add_right _ _), Nat.add_sub_cancel_left,
    List.getElem?_append_right (by simp; omega)]
  simp only [List.drop_replicate, List.getElem?_replicate]
  split <;> rfl

/-- A cursor hands out what stands in front. -/
theorem readExact_append {n : Nat} {front : List UInt8} (length : front.length = n)
    (rest : List UInt8)
    : readExact n (front ++ rest) = .ok (front, rest) := by
  subst length
  rw [readExact, if_pos (by simp), List.take_left, List.drop_left]

theorem readU64_append {w : Nat} (fits : w < 2 ^ 64) (rest : List UInt8)
    : readU64 (leBytes 8 w ++ rest) = .ok (w, rest) := by
  rw [readU64, readExact_append (by simp)]
  simp only [Outcome.bind, leValue_leBytes_word fits]

theorem readFlag_cons (flag : Bool) (rest : List UInt8)
    : readFlag (flagByte flag :: rest) = .ok (flag, rest) := by
  have front := readExact_append (show [flagByte flag].length = 1 from rfl) rest
  rw [List.singleton_append] at front
  rw [readFlag, front]
  cases flag <;> rfl

/-- What the list says of a mapping with this name. -/
def mapsEntry (vma : VmArea) (name : List UInt8) : MapsEntry where
  start := vma.vmStart
  end_ := vma.vmEnd
  readPermission := vma.vmRead
  writePermission := vma.vmWrite
  executePermission := vma.vmExec
  shared := vma.vmMayShare
  name := name

/-- A name that an entry can hold: without a terminator in it, and short enough for one behind
it.
-/
structure Terminated (name : List UInt8) : Prop where
  noNul : 0 ∉ name
  short : name.length ≤ 511

/-- A name that both sides can hold: it is UTF-8 too. -/
structure Transportable (name : List UInt8) : Prop where
  utf8 : IsUtf8 name
  noNul : 0 ∉ name
  short : name.length ≤ 511

theorem Transportable.terminated {name : List UInt8} (carried : Transportable name)
    : Terminated name :=
  ⟨carried.noNul, carried.short⟩

theorem nonzero_of_not_mem {name : List UInt8} (noNul : 0 ∉ name)
    : ∀ b ∈ name, (decide (b ≠ 0)) = true := by
  intro b member
  apply decide_eq_true
  intro zero
  exact noNul (zero ▸ member)

/-- A terminated name ends at its terminator. -/
theorem takeWhile_newPath {name : List UInt8} (carried : Terminated name)
    : (newPath name).takeWhile (fun b => b ≠ 0) = name := by
  have short := carried.short
  have behind : myPathMaxLen - name.length = (511 - name.length) + 1 := by
    rw [myPathMaxLen]
    omega
  rw [newPath, behind, List.replicate_succ,
    List.takeWhile_append_of_pos (nonzero_of_not_mem carried.noNul)]
  simp

/-- The bytes of an entry with the gap behind them hold the whole name. -/
theorem entryBytes_append {name : List UInt8} (vma : VmArea) (carried : Terminated name)
    : entryBytes 512 vma name ++ List.replicate (532 - 531) 0
      = leBytes 8 vma.vmStart ++ leBytes 8 vma.vmEnd ++ flagBytes vma ++ newPath name := by
  have short := carried.short
  have size : 511 - name.length ≤ myPathMaxLen - name.length := by
    rw [myPathMaxLen]
    omega
  have split : newPath name = (newPath name).take 511 ++ [0] := by
    rw [newPath, List.take_append, List.take_of_length_le short, List.take_replicate,
      Nat.min_eq_left size, List.append_assoc, ← List.replicate_succ']
    congr 2
    rw [myPathMaxLen]
    omega
  rw [entryBytes, List.append_assoc _ _ (List.replicate _ _)]
  exact congrArg _ split.symm

/-- One round of the decoding loop takes one entry. -/
theorem readEntry_append {vma : VmArea} {name : List UInt8} (carried : Terminated name)
    (rest : List UInt8)
    : readEntry (entryBytes 512 vma name ++ List.replicate (532 - 531) 0 ++ rest)
      = .ok (mapsEntry vma (fromUtf8Lossy name), rest) := by
  have length : (newPath name).length = 512 := length_newPath (Nat.le_succ_of_le carried.short)
  rw [entryBytes_append vma carried]
  simp only [readEntry, flagBytes, List.append_assoc, List.cons_append, List.nil_append,
    readU64_append vma.start_lt, readU64_append vma.end_lt, readFlag_cons,
    readExact_append length, Outcome.bind, takeWhile_newPath carried]
  rfl

/-- The decoding loop takes the entries in order, by induction on them. -/
theorem readEntries_append (sys : Ioctls) (pid : Int32) (n : Nat) {nameOf : VmArea → List UInt8}
    {vmas : List VmArea} (carried : ∀ vma ∈ vmas, Terminated (nameOf vma)) (rest : List UInt8)
    : readEntries sys pid false vmas.length n
        (vmas.flatMap (fun vma => entryBytes 512 vma (nameOf vma) ++ List.replicate (532 - 531) 0)
          ++ rest)
      = .ok (vmas.map (fun vma => mapsEntry vma (fromUtf8Lossy (nameOf vma)))) := by
  induction vmas with
  | nil => rfl
  | cons vma vmas ih =>
      have later := ih (fun v member => carried v (List.mem_cons_of_mem _ member))
      rw [List.length_cons, readEntries, List.flatMap_cons, List.append_assoc,
        readEntry_append (carried vma List.mem_cons_self)]
      simp only [Outcome.bind, later, Bool.false_eq_true, if_false, List.map_cons]

/-- The name that the list should give a mapping. -/
def mapsName (mm : MmStruct) (vma : VmArea) : List UInt8 :=
  match vma.vmFile with
  | some text => text
  | none => anonName mm vma

/-- The names that the driver makes up can be transported. -/
theorem transportable_anonName (mm : MmStruct) (vma : VmArea)
    : Transportable (anonName mm vma) := by
  rw [anonName]
  split
  · exact ⟨⟨"[vdso]".toList, by decide⟩, by decide, by decide⟩
  · split
    · exact ⟨⟨"[heap]".toList, by decide⟩, by decide, by decide⟩
    · split
      · exact ⟨⟨"[stack]".toList, by decide⟩, by decide, by decide⟩
      · exact ⟨⟨[], rfl⟩, by simp, by simp⟩

variable {mm : MmStruct} {vma : VmArea}

theorem transportable_mapsName
    (carried : ∀ text, vma.vmFile = some text → Transportable text)
    : Transportable (mapsName mm vma) := by
  rw [mapsName]
  cases file : vma.vmFile with
  | none => exact transportable_anonName mm vma
  | some text => exact carried text file

/-- A path that fits arrives in `new_path` as it is. -/
theorem pathName_eq (carried : ∀ text, vma.vmFile = some text → Transportable text)
    : pathName mm vma = some (mapsName mm vma) := by
  rw [pathName, mapsName]
  cases file : vma.vmFile with
  | none => rfl
  | some text =>
      obtain ⟨_, noNul, short⟩ := carried text file
      have fits : text.length + 1 ≤ myPathMaxLen := by
        rw [myPathMaxLen]
        omega
      have whole : text.takeWhile (fun b => b ≠ 0) = text :=
        List.takeWhile_eq_self_iff.mpr (nonzero_of_not_mem noNul)
      simp only [dPath, if_pos fits, Option.map_some, whole]
      exact congrArg some (List.take_of_length_le short)

/-- Whatever the path is, its name ends in front of the last byte of `new_path`. -/
theorem terminated_pathName {name : List UInt8} (named : pathName mm vma = some name)
    : Terminated name := by
  rw [pathName] at named
  cases file : vma.vmFile with
  | none =>
      rw [file] at named
      cases named
      exact (transportable_anonName mm vma).terminated
  | some text =>
      rw [file] at named
      obtain ⟨path, _, same⟩ := Option.map_eq_some_iff.mp named
      subst same
      refine ⟨?_, List.length_take_le _ _⟩
      intro zero
      have nonzero := List.mem_takeWhile_imp (List.mem_of_mem_take zero)
      simp at nonzero

variable {P : Type} {sys : Ioctls} {pid : Int32}

/-- The first `ioctl` answers this count, an `int`. -/
def Counted (sys : Ioctls) (pid : Int32) (count : Nat) : Prop :=
  ∃ ret mem,
    sys.ioctl 0 .getProcessMapsCount (pidWord pid) (fun _ => 0) = .returned ret mem
    ∧ libcIoctl ret = count

theorem Counted.lt {count : Nat} (counted : Counted sys pid count) : count < 2 ^ 31 := by
  obtain ⟨ret, _, _, int⟩ := counted
  have bounds := libcIoctl_bounds ret
  omega

theorem Counted.getMemMapCount_eq {count : Nat} (counted : Counted sys pid count)
    : getMemMapCount sys pid = .ok count := by
  have small := counted.lt
  obtain ⟨ret, mem, returned, int⟩ := counted
  have positive : (count : Int) ≠ -1 := by omega
  simp only [getMemMapCount, returned, int, if_neg positive, toUint64_natCast small]

/-- The count that the driver would give for a process that it finds. -/
theorem counted_of_served {before : IoctlKernel P} {task : Option (TaskStruct P)}
    (served : sys.ioctl 0 .getProcessMapsCount = rwmemMapsCount before)
    (found : before.findGetPid pid = some task)
    : Counted sys pid (getProcMapCount task) := by
  refine ⟨getProcMapCount task, fun _ => 0, ?_, libcIoctl_natCast (getProcMapCount_lt task)⟩
  rw [served, rwmemMapsCount, ofNat_pidWord, found]

variable {k : IoctlKernel P} {task : TaskStruct P} {count : Nat} {nameOf : VmArea → List UInt8}

/-- What the driver leaves in the buffer: the count, the entries that have room, and blanks. -/
def mapsReply (mm : MmStruct) (nameOf : VmArea → List UInt8) (room : Nat) : List UInt8 :=
  leBytes 8 (min room mm.mmap.length)
    ++ (mm.mmap.take room).flatMap (fun vma =>
        entryBytes 512 vma (nameOf vma) ++ List.replicate (532 - 531) 0)

variable (count) in
/-- The reply to a listing that stored the first entries, whatever it left behind them. -/
theorem cells_mapsReply (pid p : Nat) {room : Nat} (within : room ≤ count + 50)
    (named : ∀ vma ∈ mm.mmap.take room, pathName mm vma = some (nameOf vma))
    {mem : Nat → UInt8}
    (holds : ∀ x < p + 8 + 532 * min room mm.mmap.length,
      mem x
      = storeRecords 532 (store (fun _ => 0) p (requestBuf pid count)) (p + 8)
          ((mm.mmap.take room).map (fun vma => entryBytes 512 vma (nameOf vma))) x)
    : ∃ rest,
        cells (store mem p (leBytes 8 (min room mm.mmap.length))) p (8 + 532 * (count + 50))
        = mapsReply mm nameOf room ++ rest := by
  have sized : ∀ record ∈ (mm.mmap.take room).map (fun vma => entryBytes 512 vma (nameOf vma)),
      record.length = 531 := by
    intro record member
    obtain ⟨vma, inside, same⟩ := List.mem_map.mp member
    have short := (terminated_pathName (named vma inside)).short
    rw [← same, length_entryBytes (Nat.le_succ_of_le short)]
    rfl
  have stored := cells_storeRecords (show 531 ≤ 532 by omega) sized
    (gapsHold_requestBuf pid count p _) 0
  have nothing (at_ : Nat) : cells (store (fun _ => 0) p (requestBuf pid count)) at_ 0 = [] := rfl
  rw [List.length_map, List.length_take, List.flatMap_map, Nat.add_zero, nothing,
    List.append_nil] at stored
  have split : 8 + 532 * (count + 50)
      = (leBytes 8 (min room mm.mmap.length)).length
        + (532 * min room mm.mmap.length
          + 532 * (count + 50 - min room mm.mmap.length)) := by
    rw [length_leBytes, ← Nat.mul_add, Nat.add_sub_cancel' (by omega)]
  refine ⟨cells (store mem p (leBytes 8 (min room mm.mmap.length)))
    (p + 8 + 532 * min room mm.mmap.length)
    (532 * (count + 50 - min room mm.mmap.length)), ?_⟩
  have front : cells (store mem p (leBytes 8 (min room mm.mmap.length))) (p + 8)
      (532 * min room mm.mmap.length)
      = (mm.mmap.take room).flatMap (fun vma =>
          entryBytes 512 vma (nameOf vma) ++ List.replicate (532 - 531) 0) := by
    rw [← stored]
    apply cells_congr
    intro i low high
    rw [← holds i high]
    exact store_outside (Or.inr (by rw [length_leBytes]; exact low))
  rw [split, cells_add, cells_store, mapsReply, List.append_assoc, cells_add, length_leBytes,
    front]

/-- The `ioctl` for the list answers whether there was room, and leaves its reply in front of
the buffer.
-/
theorem pass_requestBuf {word : Nat} (wordFits : word < 2 ^ 64) (small : count < 2 ^ 31)
    (served : sys.ioctl 1 .getProcessMapsList = rwmemMapsList k)
    (read : k.fromUserLeft = 0) (copied : ∀ n, k.toUserLeft n = 0)
    (found : k.findGetPid (Int32.ofNat word) = some (some task)) (space : task.mm = some mm)
    (named : ∀ vma ∈ mm.mmap, pathName mm vma = some (nameOf vma))
    : ∃ rest,
        sys.pass 1 .getProcessMapsList (requestBuf word count)
        = some
            (if count + 50 < mm.mmap.length then 1 else 0,
              mapsReply mm nameOf (count + 50) ++ rest) := by
  have length := length_requestBuf word count
  have place := sys.place_lt 1 (requestBuf word count).length (by omega)
  rw [length] at place
  have stores := rwmemMapsList_stores (k := k) (listRequest_requestBuf wordFits place) read copied
    found space named
  obtain ⟨rest, reply⟩ := cells_mapsReply count word (sys.place 1 (8 + 532 * (count + 50)))
    (Nat.le_refl _) (fun vma member => named vma (List.mem_of_mem_take member)) (fun _ _ => rfl)
  refine ⟨rest, ?_⟩
  rw [Ioctls.pass, served, length, stores]
  simp only [reply]

/-- The client library finds its process in the request that it made. -/
theorem call_mapsRequest (small : count < 2 ^ 31)
    (served : sys.ioctl 1 .getProcessMapsList = rwmemMapsList k)
    (read : k.fromUserLeft = 0) (copied : ∀ n, k.toUserLeft n = 0)
    (found : k.findGetPid pid = some (some task)) (space : task.mm = some mm)
    (named : ∀ vma ∈ mm.mmap, pathName mm vma = some (nameOf vma))
    : ∃ rest,
        sys.call 1 .getProcessMapsList (mapsRequest pid count)
        = .ok
            (if count + 50 < mm.mmap.length then 1 else 0,
              mapsReply mm nameOf (count + 50) ++ rest) := by
  rw [← ofNat_pidWord pid] at found
  obtain ⟨rest, passed⟩ := pass_requestBuf (pidWord_lt pid) small served read copied found space
    named
  refine ⟨rest, ?_⟩
  rw [Ioctls.call, mapsRequest, passed]
  by_cases more : count + 50 < mm.mmap.length
  · simp only [more, if_true]
    rfl
  · simp only [more, if_false]
    rfl

/-- With a count `get_mem_map` asks for the list. -/
theorem getMemMap_of_counted (phyOnly : Bool) (counted : Counted sys pid count)
    : getMemMap sys pid phyOnly
      = (sys.call 1 .getProcessMapsList (mapsRequest pid count)).bind fun (unfinished, buf) =>
        if unfinished ≠ 0 then .err .mapsTooLong else decodeMaps sys pid phyOnly buf := by
  have small := counted.lt
  have allocated : ¬2 ^ 63 ≤ 8 + (8 + 8 + 4 + 512) * (count + 50) := by omega
  rw [getMemMap, counted.getMemMapCount_eq, Outcome.bind, if_neg allocated]

/-- With room for all mappings `get_mem_map` returns them in order, each with its range, its
flags and its name; without it returns `MapsTooLong`.
-/
theorem getMemMap_roundTrip {P : Type} (sys : Ioctls) (k : IoctlKernel P) (pid : Int32)
    (count : Nat) (task : TaskStruct P) (mm : MmStruct) (counted : Counted sys pid count)
    (listServed : sys.ioctl 1 .getProcessMapsList = rwmemMapsList k)
    (read : k.fromUserLeft = 0) (copied : ∀ n, k.toUserLeft n = 0)
    (found : k.findGetPid pid = some (some task)) (space : task.mm = some mm)
    (carried : ∀ vma ∈ mm.mmap, ∀ text, vma.vmFile = some text → Transportable text)
    : (mm.mmap.length ≤ count + 50
        → (∃ buf, sys.call 1 .getProcessMapsList (mapsRequest pid count) = .ok (0, buf))
          ∧ getMemMap sys pid false
            = .ok (mm.mmap.map (fun vma => mapsEntry vma (mapsName mm vma))))
      ∧ (count + 50 < mm.mmap.length
        → (∃ buf, sys.call 1 .getProcessMapsList (mapsRequest pid count) = .ok (1, buf))
          ∧ getMemMap sys pid false = .err .mapsTooLong) := by
  have int := mm.length_lt
  obtain ⟨rest, called⟩ := call_mapsRequest counted.lt listServed read copied found space
    (fun vma member => pathName_eq (carried vma member))
  have text (vma : VmArea) (member : vma ∈ mm.mmap)
      : fromUtf8Lossy (mapsName mm vma) = mapsName mm vma :=
    fromUtf8Lossy_of_isUtf8 (transportable_mapsName (carried vma member)).utf8
  refine ⟨?_, ?_⟩
  · intro room
    have all : ¬count + 50 < mm.mmap.length := by omega
    rw [if_neg all] at called
    refine ⟨⟨_, called⟩, ?_⟩
    have bounded : ¬2 ^ 63 ≤ mm.mmap.length * mapsEntrySize := by
      rw [mapsEntrySize]
      omega
    rw [getMemMap_of_counted false counted, called]
    simp only [Outcome.bind, ne_eq, not_true, if_false, decodeMaps, mapsReply,
      List.append_assoc, Nat.min_eq_right room, List.take_of_length_le room]
    rw [readU64_append (by omega)]
    simp only [if_neg bounded]
    rw [readEntries_append sys pid 2
      (fun vma member => terminated_pathName (pathName_eq (carried vma member))) rest]
    congr 1
    apply List.map_congr_left
    intro vma member
    rw [text vma member]
  · intro more
    rw [if_pos more] at called
    refine ⟨⟨_, called⟩, ?_⟩
    rw [getMemMap_of_counted false counted, called]
    simp only [Outcome.bind, ne_eq, Int.one_ne_zero, not_false_eq_true, if_true]

/-- A program with a file of one letter, and its heap. -/
def twoMaps : MmStruct where
  mmap :=
    [⟨⟨0x1000, 0x2000, true, false⟩, true, false, some [97], by decide, by decide⟩,
      ⟨⟨0x2000, 0x5000, true, true⟩, false, false, none, by decide, by decide⟩]
  length_lt := by decide
  vdso := 0
  startBrk := 0x2000
  brk := 0x4000
  startStack := 0

/-- A kernel without failures in which this program is the only one. -/
def quietTwoMaps : IoctlKernel Nat :=
  quietIoctl arm64.toPageGeometry AddressSpace.oneUp.ptes
    (some ⟨some twoMaps, AddressSpace.oneUp.walk arm64.toPageGeometry⟩)

theorem transportable_twoMaps
    : ∀ vma ∈ twoMaps.mmap, ∀ text, vma.vmFile = some text → Transportable text := by
  intro vma member text file
  simp only [twoMaps, List.mem_cons, List.not_mem_nil, or_false] at member
  rcases member with same | same
  · subst same
    cases file
    exact ⟨⟨['a'], by decide⟩, by decide, by decide⟩
  · subst same
    cases file

theorem getMemMap_roundTrip_twoMaps
    : getMemMap (countingIoctls (fun _ _ mem => .returned 2 mem) (fun _ => quietTwoMaps)) 42 false
      = .ok
          [⟨0x1000, 0x2000, true, false, true, false, [97]⟩,
            ⟨0x2000, 0x5000, true, true, false, false, ascii "[heap]"⟩] := by
  let sys := countingIoctls (fun _ _ mem => .returned 2 mem) (fun _ => quietTwoMaps)
  have counted : Counted sys 42 2 := ⟨2, fun _ => 0, rfl, rfl⟩
  obtain ⟨_, listServed, _⟩ := ioctl_countingIoctls (fun _ _ mem => .returned 2 mem)
    (fun _ => quietTwoMaps) 1
  have entries : twoMaps.mmap.map (fun vma => mapsEntry vma (mapsName twoMaps vma))
      = [⟨0x1000, 0x2000, true, false, true, false, [97]⟩,
          ⟨0x2000, 0x5000, true, true, false, false, ascii "[heap]"⟩] := by
    decide
  obtain ⟨fits, _⟩ := getMemMap_roundTrip sys quietTwoMaps 42 2
    ⟨some twoMaps, AddressSpace.oneUp.walk arm64.toPageGeometry⟩ twoMaps counted listServed rfl
    (fun _ => rfl) rfl rfl transportable_twoMaps
  rw [← entries]
  exact (fits (by decide)).2

end RwMem.Client
