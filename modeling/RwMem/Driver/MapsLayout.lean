import RwMem.Driver.Ioctl
import RwMem.Memory.Records

/-! What the list of mappings looks like in the user buffer while no copy fails. -/

namespace RwMem.Driver

open Memory

/-- The bytes of an entry that are copied, in one piece. -/
def entryBytes (maxPathLength : Nat) (vma : VmArea) (name : List UInt8) : List UInt8 :=
  leBytes 8 vma.vmStart ++ leBytes 8 vma.vmEnd ++ flagBytes vma
    ++ (newPath name).take (nameBytes maxPathLength)

/-- The name of a mapping fits its place in an entry of the list. -/
theorem length_newPath {name : List UInt8} (fits : name.length ≤ myPathMaxLen)
    : (newPath name).length = myPathMaxLen := by
  rw [newPath, List.length_append, List.length_replicate]
  omega

theorem length_entryBytes {maxPathLength : Nat} {vma : VmArea} {name : List UInt8}
    (fits : name.length ≤ myPathMaxLen)
    : (entryBytes maxPathLength vma name).length
      = 20 + min (nameBytes maxPathLength) myPathMaxLen := by
  simp only [entryBytes, List.length_append, length_leBytes, flagBytes, List.length_cons,
    List.length_nil, List.length_take, length_newPath fits]

/-- Without failures the four copies of an entry store it in one piece. -/
theorem copyFields_fields {left : Nat → Nat} (copied : ∀ n, left n = 0) (vma : VmArea)
    (name : List UInt8) {maxPathLength copyPos : Nat} (n : Nat) (mem : Nat → UInt8)
    (inside : copyPos + (20 + maxPathLength) < 2 ^ 64)
    : copyFields left n copyPos mem (fields vma name maxPathLength)
      = ⟨true, n + 4, copyPos + (20 + maxPathLength),
          store mem copyPos (entryBytes maxPathLength vma name)⟩ := by
  have first : wrap (copyPos + 8) = copyPos + 8 := wrap_of_lt (by omega)
  have second : wrap (copyPos + 8 + 8) = copyPos + 8 + 8 := wrap_of_lt (by omega)
  have third : wrap (copyPos + 8 + 8 + 4) = copyPos + 8 + 8 + 4 := wrap_of_lt (by omega)
  have fourth : wrap (copyPos + 8 + 8 + 4 + maxPathLength) = copyPos + (20 + maxPathLength) :=
    (wrap_of_lt (by omega)).trans (by omega)
  simp only [fields, copyFields, copied, xCopyToUser_zero, ne_eq, not_true, if_false, first,
    second, third, fourth, entryBytes, store_append, length_leBytes, List.length_append,
    flagBytes, List.length_cons, List.length_nil]

variable {mm : MmStruct} {nameOf : VmArea → List UInt8}

/-- The loop stores the entries that have room, `20 + maxPathLength` bytes apart, and says
whether there were more. Induction on the mappings left, for any room.
-/
theorem mapsLoop_stores {left : Nat → Nat} (copied : ∀ n, left n = 0)
    (maxPathLength : Nat) {room copyPos : Nat} {vmas : List VmArea}
    (named : ∀ vma ∈ vmas, pathName mm vma = some (nameOf vma)) (success n : Nat)
    (mem : Nat → UInt8) (inside : copyPos + (20 + maxPathLength) * room < 2 ^ 64)
    : mapsLoop mm left maxPathLength (copyPos + (20 + maxPathLength) * room) success n copyPos
        mem vmas
      = ⟨success + min room vmas.length, decide (room < vmas.length), false,
          n + 4 * min room vmas.length,
          storeRecords (20 + maxPathLength) mem copyPos
            ((vmas.take room).map (fun vma => entryBytes maxPathLength vma (nameOf vma)))⟩ := by
  induction vmas generalizing room success n copyPos mem with
  | nil => simp [mapsLoop, storeRecords]
  | cons vma rest ih =>
      cases room with
      | zero => simp [mapsLoop, storeRecords]
      | succ room =>
          rw [Nat.mul_succ] at inside
          have more : ¬copyPos ≥ copyPos + (20 + maxPathLength) * (room + 1) := by
            rw [Nat.mul_succ]
            omega
          have goal : copyPos + (20 + maxPathLength) * (room + 1)
              = copyPos + (20 + maxPathLength) + (20 + maxPathLength) * room := by
            rw [Nat.mul_succ]
            omega
          have behind : copyPos + (20 + maxPathLength) + (20 + maxPathLength) * room < 2 ^ 64 := by
            omega
          have later := ih (fun v member => named v (List.mem_cons_of_mem _ member)) (success + 1)
            (n + 4) (store mem copyPos (entryBytes maxPathLength vma (nameOf vma))) behind
          rw [mapsLoop, if_neg more, named vma List.mem_cons_self]
          simp only [copyFields_fields copied vma (nameOf vma) n mem
            (show copyPos + (20 + maxPathLength) < 2 ^ 64 by omega), if_true]
          rw [goal, later]
          simp only [List.length_cons, List.take_succ_cons, List.map_cons, storeRecords,
            Nat.add_lt_add_iff_right, Nat.add_min_add_right,
            MapsRun.mk.injEq, and_true, true_and]
          omega

variable {P : Type}

/-- A request of `IOCTL_GET_PROCESS_MAPS_LIST` at an address, with room for some entries. -/
structure ListRequest (mem : Nat → UInt8) (arg : Nat) (pid : Int32) (nameLen room : Nat)
    : Prop where
  positive : 0 < nameLen
  asksPid : Int32.ofNat (wordAt (cells mem arg 24) 0 8) = pid
  asksName : wordAt (cells mem arg 24) 8 8 = nameLen
  asksSize : wordAt (cells mem arg 24) 16 8 = 8 + (20 + nameLen) * room
  inside : arg + (8 + (20 + nameLen) * room) < 2 ^ 64

/-- The command stores the entries that have room behind their count, and answers whether
there were more.
-/
theorem rwmemMapsList_stores {k : IoctlKernel P} {mem : Nat → UInt8} {arg nameLen room : Nat}
    {pid : Int32} {task : TaskStruct P} (req : ListRequest mem arg pid nameLen room)
    (read : k.fromUserLeft = 0) (copied : ∀ n, k.toUserLeft n = 0)
    (found : k.findGetPid pid = some (some task)) (space : task.mm = some mm)
    (named : ∀ vma ∈ mm.mmap, pathName mm vma = some (nameOf vma))
    : rwmemMapsList k arg mem
      = .returned (if room < mm.mmap.length then 1 else 0)
          (store
            (storeRecords (20 + nameLen) mem (arg + 8)
              ((mm.mmap.take room).map (fun vma => entryBytes nameLen vma (nameOf vma))))
            arg (leBytes 8 (min room mm.mmap.length))) := by
  have inside := req.inside
  have size : wrap (8 + (20 + nameLen) * room + 2 ^ 64 - 8) = (20 + nameLen) * room := by
    rw [wrap]
    omega
  have start : wrap (arg + 8) = arg + 8 := wrap_of_lt (by omega)
  have finish : wrap (arg + 8 + (20 + nameLen) * room) = arg + 8 + (20 + nameLen) * room :=
    wrap_of_lt (by omega)
  have positive : ¬nameLen = 0 := Nat.ne_of_gt req.positive
  have run := mapsLoop_stores copied nameLen named 0 0 mem
    (show arg + 8 + (20 + nameLen) * room < 2 ^ 64 by omega)
  have int := mm.length_lt
  have count : toUint64 ((0 + min room mm.mmap.length : Nat) : Int)
      = min room mm.mmap.length := by
    rw [Nat.zero_add]
    exact toUint64_natCast (by omega)
  simp only [rwmemMapsList, mapsListCall, read, ne_eq, not_true, if_false, req.asksPid,
    req.asksName, req.asksSize, found, Option.map_some, getProcMapsList, positive, space, size,
    start, finish, run, copied, xCopyToUser_zero, count, decide_eq_true_eq, Bool.false_eq_true]

end RwMem.Driver
