import RwMem.Driver.MapsLayout

/-! How a listing of the mappings fails, and what a caller can see of it. -/

namespace RwMem.Driver

open Memory

variable {P : Type}

/-- There is nothing to list: no task is left, or it has no address space. -/
def NoSpace (task : Option (TaskStruct P)) : Prop := ∀ t, task = some t → t.mm = none

/-- The listing of a process fails, and its copies do not. -/
def FailsUnnoticed (k : IoctlKernel P) (pid : Int32) : Prop :=
  k.fromUserLeft = 0 ∧ k.toUserLeft 0 = 0
    ∧ ∃ task, k.findGetPid pid = some task ∧ NoSpace task

/-- A task with an address space, or a failed listing that has not touched the memory. -/
theorem getProcMapsList_cases (task : Option (TaskStruct P)) (left : Nat → Nat)
    {maxPathLength : Nat} (positive : 0 < maxPathLength) (lpBuf bufSize : Nat)
    (mem : Nat → UInt8)
    : (NoSpace task
        ∧ ∃ code : Int, code < 0 ∧ -3 ≤ code
          ∧ getProcMapsList task left maxPathLength lpBuf bufSize mem
            = ⟨code, ⟨0, false, false, 0, mem⟩⟩)
      ∨ ¬NoSpace task ∧ ∃ mm : MmStruct,
          let run := mapsLoop mm left maxPathLength (wrap (lpBuf + bufSize)) 0 0 lpBuf mem mm.mmap
          getProcMapsList task left maxPathLength lpBuf bufSize mem = ⟨run.success, run⟩ := by
  have given : ¬maxPathLength = 0 := Nat.ne_of_gt positive
  cases task with
  | none =>
      refine Or.inl ⟨?_, -2, by decide, by decide, ?_⟩
      · intro t exists_
        contradiction
      · simp only [getProcMapsList, given, if_false]
  | some t =>
      cases space : t.mm with
      | none =>
          refine Or.inl ⟨?_, -3, by decide, by decide, ?_⟩
          · intro t' same
            cases same
            exact space
          · simp only [getProcMapsList, given, if_false, space]
      | some mm =>
          refine Or.inr ⟨?_, mm, ?_⟩
          · intro missing
            rw [missing t rfl] at space
            contradiction
          · simp only [getProcMapsList, given, if_false, space]

/-- An entry that was copied advances the position by its size, which may wrap. -/
theorem copyFields_wrap {left : Nat → Nat} {n copyPos : Nat} {mem : Nat → UInt8} {vma : VmArea}
    {name : List UInt8} {maxPathLength : Nat}
    (ok : (copyFields left n copyPos mem (fields vma name maxPathLength)).ok = true)
    : (copyFields left n copyPos mem (fields vma name maxPathLength)).pos
      = wrap (copyPos + (20 + maxPathLength)) := by
  have total : wrap (wrap (wrap (wrap (copyPos + 8) + 8) + 4) + maxPathLength)
      = wrap (copyPos + (20 + maxPathLength)) := by
    simp only [wrap]
    omega
  simp only [fields, copyFields, total] at ok ⊢
  repeat' split at ok
  all_goals simp_all

theorem copyFields_pos {left : Nat → Nat} {n copyPos : Nat} {mem : Nat → UInt8} {vma : VmArea}
    {name : List UInt8} {maxPathLength : Nat}
    (inside : copyPos + (20 + maxPathLength) < 2 ^ 64)
    (ok : (copyFields left n copyPos mem (fields vma name maxPathLength)).ok = true)
    : (copyFields left n copyPos mem (fields vma name maxPathLength)).pos
      = copyPos + (20 + maxPathLength) :=
  (copyFields_wrap ok).trans (wrap_of_lt inside)

/-- Whatever fails, the loop counts no more entries than there is room for. Induction on the
mappings left, for any room.
-/
theorem mapsLoop_success_le (mm : MmStruct) (left : Nat → Nat) (maxPathLength : Nat)
    {room copyPos : Nat} (vmas : List VmArea) (success n : Nat) (mem : Nat → UInt8)
    (inside : copyPos + (20 + maxPathLength) * room < 2 ^ 64)
    : (mapsLoop mm left maxPathLength (copyPos + (20 + maxPathLength) * room) success n copyPos
        mem vmas).success
      ≤ success + min room vmas.length := by
  induction vmas generalizing room success n copyPos mem with
  | nil => exact Nat.le_add_right _ _
  | cons vma rest ih =>
      rw [mapsLoop]
      cases room with
      | zero => simp
      | succ room =>
          rw [Nat.mul_succ] at inside
          split
          · exact Nat.le_add_right _ _
          · split
            · exact Nat.le_add_right _ _
            · simp only
              split
              · next name _ ok =>
                  have goal : copyPos + (20 + maxPathLength) * (room + 1)
                      = copyPos + (20 + maxPathLength) + (20 + maxPathLength) * room := by
                    rw [Nat.mul_succ]
                    omega
                  rw [copyFields_pos (by omega) ok, goal]
                  refine Nat.le_trans (ih _ _ _ (by omega)) ?_
                  rw [List.length_cons, Nat.add_min_add_right]
                  omega
              · exact Nat.le_add_right _ _

/-- The listing that a request asks for. -/
theorem mapsListCall_eq {k : IoctlKernel P} {mem : Nat → UInt8} {arg nameLen room : Nat}
    {pid : Int32} (req : ListRequest mem arg pid nameLen room) (read : k.fromUserLeft = 0)
    : mapsListCall k arg mem
      = (k.findGetPid pid).map (fun task =>
          getProcMapsList task k.toUserLeft nameLen (arg + 8) ((20 + nameLen) * room) mem) := by
  have inside := req.inside
  have size : wrap (8 + (20 + nameLen) * room + 2 ^ 64 - 8) = (20 + nameLen) * room := by
    rw [wrap]
    omega
  have start : wrap (arg + 8) = arg + 8 := wrap_of_lt (by omega)
  simp only [mapsListCall, read, ne_eq, not_true, if_false, req.asksPid, req.asksName,
    req.asksSize, size, start]

/-- A listing that a request led to has failed, or has encoded no more than there is room for. -/
theorem mapsListCall_cases {k : IoctlKernel P} {mem : Nat → UInt8} {arg nameLen room : Nat}
    {pid : Int32} {list : MapsList} (req : ListRequest mem arg pid nameLen room)
    (listed : mapsListCall k arg mem = some list)
    : (k.fromUserLeft = 0 ∧ (∃ task, k.findGetPid pid = some task ∧ NoSpace task)
        ∧ list.ret < 0 ∧ -3 ≤ list.ret ∧ list.run = ⟨0, false, false, 0, mem⟩)
      ∨ (list.ret = list.run.success ∧ list.run.success < 2 ^ 31 ∧ list.run.success ≤ room) := by
  by_cases read : k.fromUserLeft = 0
  · rw [mapsListCall_eq req read] at listed
    obtain ⟨task, found, same⟩ := Option.map_eq_some_iff.mp listed
    rcases getProcMapsList_cases task k.toUserLeft req.positive (arg + 8)
      ((20 + nameLen) * room) mem with failed | done
    · obtain ⟨missing, code, negative, least, failed⟩ := failed
      rw [failed] at same
      subst same
      exact Or.inl ⟨read, ⟨task, found, missing⟩, negative, least, rfl⟩
    · obtain ⟨_, mm, done⟩ := done
      have inside := req.inside
      have finish : wrap (arg + 8 + (20 + nameLen) * room) = arg + 8 + (20 + nameLen) * room :=
        wrap_of_lt (by omega)
      have bound := mapsLoop_success_le mm k.toUserLeft nameLen mm.mmap 0 0 mem
        (show arg + 8 + (20 + nameLen) * room < 2 ^ 64 by omega)
      have int := mm.length_lt
      rw [done, finish] at same
      subst same
      refine Or.inr ⟨rfl, ?_, ?_⟩
      · exact Nat.lt_of_le_of_lt bound (by omega)
      · exact Nat.le_trans bound (by omega)
  · rw [mapsListCall, if_pos read] at listed
    contradiction

end RwMem.Driver
