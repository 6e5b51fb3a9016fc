import RwMem.Driver.MapsFailure

/-! What the list of mappings makes of a path that does not fit. `d_path` then returns an error
pointer, which is greater than zero like any other.
-/

namespace RwMem.Driver

open Memory

/-- The path of the mapped file and its terminator fit a path buffer. -/
def PathFits (vma : VmArea) : Prop := ∀ text, vma.vmFile = some text → text.length + 1 ≤ myPathMaxLen

/-- This copy of an entry copies nothing, or does not fail. -/
def CopyPasses (left : Nat → Nat) (maxPathLength n m : Nat) : Prop :=
  left (n + m) = 0 ∨ m % 4 = 3 ∧ nameBytes maxPathLength = 0

/-- The loop at this position, after `n` copies, gets to the `i`-th of its mappings: there is
room in front of the end each time, and the entries in between are copied.
-/
structure Reaches (left : Nat → Nat) (maxPathLength endPos n copyPos i : Nat) : Prop where
  room : ∀ j ≤ i, wrap (copyPos + j * (20 + maxPathLength)) < endPos
  copied : ∀ m < 4 * i, CopyPasses left maxPathLength n m

/-- Paths are cut short if they do not fit. -/
structure IsCut (cut : List UInt8 → List UInt8) : Prop where
  keeps : ∀ text, text.length + 1 ≤ myPathMaxLen → cut text = text
  shortens : ∀ text, cut text <+: text ∧ (cut text).length + 1 ≤ myPathMaxLen

def VmArea.cutPath (cut : List UInt8 → List UInt8) (vma : VmArea) : VmArea :=
  { vma with vmFile := vma.vmFile.map cut }

def MmStruct.cutPaths (cut : List UInt8 → List UInt8) (mm : MmStruct) : MmStruct :=
  { mm with
    mmap := mm.mmap.map (VmArea.cutPath cut)
    length_lt := by
      rw [List.length_map]
      exact mm.length_lt }

variable {P : Type}

def TaskStruct.cutPaths (cut : List UInt8 → List UInt8) (task : TaskStruct P) : TaskStruct P :=
  { task with mm := task.mm.map (MmStruct.cutPaths cut) }

/-- The listing does not read from an error pointer, and a path that does not fit only cuts a
name: the call is the one for the same mappings with such paths cut.
-/
structure PathsHandled (task : Option (TaskStruct P)) (left : Nat → Nat)
    (maxPathLength lpBuf bufSize : Nat) (mem : Nat → UInt8)
    : Prop where
  survives : (getProcMapsList task left maxPathLength lpBuf bufSize mem).run.oops = false
  emits : ∃ cut, IsCut cut
    ∧ getProcMapsList (task.map (TaskStruct.cutPaths cut)) left maxPathLength lpBuf bufSize mem
      = getProcMapsList task left maxPathLength lpBuf bufSize mem

/-- Every path that the listing gets to fits. -/
def ReachedPathsFit (task : Option (TaskStruct P)) (left : Nat → Nat)
    (maxPathLength lpBuf bufSize : Nat)
    : Prop :=
  ∀ t mm i vma, task = some t → t.mm = some mm → mm.mmap[i]? = some vma → 0 < maxPathLength
    → Reaches left maxPathLength (wrap (lpBuf + bufSize)) 0 lpBuf i
    → PathFits vma

section Copies

variable {left : Nat → Nat} {maxPathLength n : Nat}

/-- Copies succeed if each of them leaves nothing. Induction on the copies. -/
theorem copyFields_ok_iff {copyPos : Nat} {mem : Nat → UInt8} {pieces : List (List UInt8 × Nat)}
    : (copyFields left n copyPos mem pieces).ok = true
      ↔ ∀ m piece, pieces[m]? = some piece → left (n + m) = 0 ∨ piece.1 = [] := by
  induction pieces generalizing n copyPos mem with
  | nil => simp [copyFields]
  | cons piece rest ih =>
      have first : (xCopyToUser (left n) mem copyPos piece.1).1 = 0
          ↔ left n = 0 ∨ piece.1 = [] := xCopyToUser_eq_zero
      rw [copyFields]
      simp only
      split
      · next stopped =>
          rw [ne_eq, first] at stopped
          simp only [Bool.false_eq_true, false_iff]
          intro passes
          exact stopped (passes 0 piece rfl)
      · next copied =>
          rw [ne_eq, not_not, first] at copied
          rw [ih]
          constructor
          · intro passes m piece' member
            cases m with
            | zero =>
                cases member
                exact copied
            | succ m =>
                rw [← Nat.add_assoc, Nat.add_right_comm]
                exact passes m piece' member
          · intro passes m piece' member
            rw [Nat.add_right_comm, Nat.add_assoc]
            exact passes (m + 1) piece' member

/-- Only the name may be empty. -/
theorem fields_eq_nil {vma : VmArea} {name : List UInt8} {m : Nat}
    {piece : List UInt8 × Nat}
    (member : (fields vma name maxPathLength)[m]? = some piece)
    : m < 4 ∧ (piece.1 = [] ↔ m % 4 = 3 ∧ nameBytes maxPathLength = 0) := by
  have long : newPath name ≠ [] := by
    refine List.ne_nil_of_length_pos ?_
    rw [newPath, List.length_append, List.length_replicate, myPathMaxLen]
    omega
  have path : (newPath name).take (nameBytes maxPathLength) = []
      ↔ nameBytes maxPathLength = 0 := by
    rw [List.take_eq_nil_iff, or_iff_left long]
  obtain ⟨below, same⟩ := List.getElem?_eq_some_iff.mp member
  refine ⟨below, ?_⟩
  subst same
  have index : m = 0 ∨ m = 1 ∨ m = 2 ∨ m = 3 := by
    have four : m < 4 := below
    omega
  rcases index with first | second | third | last
  · subst first
    simp [fields, leBytes]
  · subst second
    simp [fields, leBytes]
  · subst third
    simp [fields, flagBytes]
  · subst last
    simp only [fields, List.getElem_cons_succ, List.getElem_cons_zero, path, true_and,
      Nat.reduceMod]

/-- An entry is copied if its four copies pass. -/
theorem copyFields_fields_ok_iff {vma : VmArea} {name : List UInt8} {copyPos : Nat}
    {mem : Nat → UInt8}
    : (copyFields left n copyPos mem (fields vma name maxPathLength)).ok = true
      ↔ ∀ m < 4, CopyPasses left maxPathLength n m := by
  rw [copyFields_ok_iff]
  constructor
  · intro passes m below
    have pieces : (fields vma name maxPathLength).length = 4 := rfl
    have member := List.getElem?_eq_getElem (pieces ▸ below)
    exact (passes m _ member).imp_right (fields_eq_nil member).2.mp
  · intro passes m piece member
    obtain ⟨below, empty⟩ := fields_eq_nil member
    exact (passes m below).imp_right empty.mpr

theorem copyFields_count {vma : VmArea} {name : List UInt8} {copyPos : Nat}
    {mem : Nat → UInt8}
    (ok : (copyFields left n copyPos mem (fields vma name maxPathLength)).ok = true)
    : (copyFields left n copyPos mem (fields vma name maxPathLength)).count = n + 4 := by
  simp only [fields, copyFields] at ok ⊢
  repeat' split at ok
  all_goals simp_all

theorem reaches_zero {endPos copyPos : Nat} (pointer : copyPos < 2 ^ 64)
    : Reaches left maxPathLength endPos n copyPos 0 ↔ copyPos < endPos := by
  constructor
  · intro reaches
    have first := reaches.room 0 (Nat.le_refl 0)
    rw [Nat.zero_mul, Nat.add_zero, wrap_of_lt pointer] at first
    exact first
  · intro started
    refine ⟨?_, ?_⟩
    · intro j first
      rw [Nat.le_zero.mp first, Nat.zero_mul, Nat.add_zero, wrap_of_lt pointer]
      exact started
    · intro m none
      omega

theorem reaches_succ {endPos copyPos i : Nat} (pointer : copyPos < 2 ^ 64)
    : Reaches left maxPathLength endPos n copyPos (i + 1)
      ↔ copyPos < endPos ∧ (∀ m < 4, CopyPasses left maxPathLength n m)
        ∧ Reaches left maxPathLength endPos (n + 4) (wrap (copyPos + (20 + maxPathLength))) i := by
  have advance (j : Nat) : wrap (wrap (copyPos + (20 + maxPathLength)) + j * (20 + maxPathLength))
      = wrap (copyPos + (j + 1) * (20 + maxPathLength)) := by
    rw [Nat.succ_mul]
    simp only [wrap]
    omega
  have shift (m : Nat) : CopyPasses left maxPathLength (n + 4) m
      ↔ CopyPasses left maxPathLength n (m + 4) := by
    rw [CopyPasses, CopyPasses, Nat.add_mod_right, Nat.add_right_comm, Nat.add_assoc]
  constructor
  · intro reaches
    refine ⟨?_, ?_, ?_, ?_⟩
    · have first := reaches.room 0 (Nat.zero_le _)
      rw [Nat.zero_mul, Nat.add_zero, wrap_of_lt pointer] at first
      exact first
    · exact fun m below => reaches.copied m (by omega)
    · intro j below
      rw [advance]
      exact reaches.room (j + 1) (by omega)
    · intro m below
      exact (shift m).mpr (reaches.copied (m + 4) (by omega))
  · intro steps
    obtain ⟨started, first, later⟩ := steps
    refine ⟨?_, ?_⟩
    · intro j below
      cases j with
      | zero =>
          rw [Nat.zero_mul, Nat.add_zero, wrap_of_lt pointer]
          exact started
      | succ j =>
          rw [← advance]
          exact later.room j (by omega)
    · intro m below
      by_cases early : m < 4
      · exact first m early
      · have later := (shift (m - 4)).mp (later.copied (m - 4) (by omega))
        rw [Nat.sub_add_cancel (by omega)] at later
        exact later

end Copies

section Loop

variable {mm : MmStruct} {left : Nat → Nat} {maxPathLength endPos : Nat}

variable (mm) in
theorem pathName_isSome_iff {vma : VmArea} : (pathName mm vma).isSome = true ↔ PathFits vma := by
  rw [pathName, PathFits]
  cases file : vma.vmFile with
  | none => simp
  | some text =>
      simp only [dPath, Option.isSome_map, Option.some.injEq, forall_eq']
      split <;> simp_all

/-- The loop survives exactly if the paths that it gets to fit. Induction on the mappings left. -/
theorem mapsLoop_survives_iff {success n copyPos : Nat} {mem : Nat → UInt8}
    {vmas : List VmArea} (pointer : copyPos < 2 ^ 64)
    : (mapsLoop mm left maxPathLength endPos success n copyPos mem vmas).oops = false
      ↔ ∀ i vma, vmas[i]? = some vma → Reaches left maxPathLength endPos n copyPos i
          → PathFits vma := by
  induction vmas generalizing success n copyPos mem with
  | nil => simp [mapsLoop]
  | cons vma rest ih =>
      have head : vma :: rest ≠ [] := List.cons_ne_nil vma rest
      rw [mapsLoop]
      split
      · next full =>
          refine ⟨fun _ => ?_, fun _ => rfl⟩
          intro i vma' _ reaches
          have first := reaches.room 0 (Nat.zero_le i)
          rw [Nat.zero_mul, Nat.add_zero, wrap_of_lt pointer] at first
          omega
      · next started =>
          cases named : pathName mm vma with
          | none =>
              simp only [Bool.true_eq_false, false_iff]
              intro fit
              have fits := fit 0 vma rfl ((reaches_zero pointer).mpr (by omega))
              rw [← pathName_isSome_iff mm, named] at fits
              contradiction
          | some name =>
              have fits : PathFits vma := by
                rw [← pathName_isSome_iff mm, named]
                rfl
              simp only
              split
              · next ok =>
                  rw [copyFields_count ok, copyFields_wrap ok, ih (wrap_lt _)]
                  have passes := copyFields_fields_ok_iff.mp ok
                  constructor
                  · intro later i vma' member reaches
                    cases i with
                    | zero =>
                        cases member
                        exact fits
                    | succ i => exact later i vma' member ((reaches_succ pointer).mp reaches).2.2
                  · intro fit i vma' member reaches
                    exact fit (i + 1) vma' member
                      ((reaches_succ pointer).mpr ⟨by omega, passes, reaches⟩)
              · next failed =>
                  refine ⟨fun _ => ?_, fun _ => rfl⟩
                  intro i vma' member reaches
                  cases i with
                  | zero =>
                      cases member
                      exact fits
                  | succ i =>
                      have passes := ((reaches_succ pointer).mp reaches).2.1
                      exact absurd (copyFields_fields_ok_iff.mpr passes) failed

variable {cut : List UInt8 → List UInt8}

/-- A path that fits is not cut. -/
theorem pathName_cutPaths (isCut : IsCut cut) {vma : VmArea} (fits : PathFits vma)
    : pathName (mm.cutPaths cut) (vma.cutPath cut) = pathName mm vma := by
  rw [pathName, pathName]
  cases file : vma.vmFile with
  | none =>
      simp only [VmArea.cutPath, file, Option.map_none]
      rfl
  | some text => simp only [VmArea.cutPath, file, Option.map_some, isCut.keeps text (fits text file)]

/-- A loop that survives has met no path that is cut. Induction on the mappings left. -/
theorem mapsLoop_cutPaths (isCut : IsCut cut) {success n copyPos : Nat} {mem : Nat → UInt8}
    {vmas : List VmArea}
    (survives : (mapsLoop mm left maxPathLength endPos success n copyPos mem vmas).oops = false)
    : mapsLoop (mm.cutPaths cut) left maxPathLength endPos success n copyPos mem
        (vmas.map (VmArea.cutPath cut))
      = mapsLoop mm left maxPathLength endPos success n copyPos mem vmas := by
  induction vmas generalizing success n copyPos mem with
  | nil => rfl
  | cons vma rest ih =>
      rw [mapsLoop] at survives
      rw [List.map_cons, mapsLoop, mapsLoop]
      split
      · rfl
      · next started =>
          rw [if_neg started] at survives
          cases named : pathName mm vma with
          | none =>
              rw [named] at survives
              contradiction
          | some name =>
              have fits : PathFits vma := by
                rw [← pathName_isSome_iff mm, named]
                rfl
              have entry : fields (vma.cutPath cut) name maxPathLength
                  = fields vma name maxPathLength := rfl
              rw [named] at survives
              simp only [pathName_cutPaths isCut fits, named, entry]
              simp only at survives
              split
              · next ok =>
                  rw [if_pos ok] at survives
                  exact ih survives
              · rfl

end Loop

/-- The empty name for every path that does not fit. -/
def dropLong (text : List UInt8) : List UInt8 :=
  if text.length + 1 ≤ myPathMaxLen then text else []

theorem isCut_dropLong : IsCut dropLong := by
  refine ⟨fun text fits => if_pos fits, ?_⟩
  intro text
  rw [dropLong]
  split
  · next fits => exact ⟨List.prefix_refl text, fits⟩
  · exact ⟨List.nil_prefix, by decide⟩

section Listing

variable {task : Option (TaskStruct P)} {left : Nat → Nat} {maxPathLength lpBuf bufSize : Nat}
  {mem : Nat → UInt8}

variable (mem) in
theorem getProcMapsList_survives_iff (pointer : lpBuf < 2 ^ 64)
    : (getProcMapsList task left maxPathLength lpBuf bufSize mem).run.oops = false
      ↔ ReachedPathsFit task left maxPathLength lpBuf bufSize := by
  unfold getProcMapsList
  simp only
  split
  · next none =>
      refine ⟨fun _ => ?_, fun _ => rfl⟩
      intro _ _ _ _ _ _ _ positive
      omega
  · next given =>
      cases task with
      | none =>
          refine ⟨fun _ => ?_, fun _ => rfl⟩
          intro t _ _ _ found
          contradiction
      | some t =>
          cases space : t.mm with
          | none =>
              refine ⟨fun _ => ?_, fun _ => by simp only [space]⟩
              intro t' mm _ _ found has
              cases found
              rw [space] at has
              contradiction
          | some mm =>
              simp only [space, mapsLoop_survives_iff pointer]
              constructor
              · intro fit t' mm' i vma found has member _ reaches
                cases found
                rw [space] at has
                cases has
                exact fit i vma member reaches
              · intro fit i vma member reaches
                exact fit t mm i vma rfl space member (Nat.pos_of_ne_zero given) reaches

/-- A listing that survives is the one for the same mappings with their paths cut. -/
theorem getProcMapsList_cutPaths {cut : List UInt8 → List UInt8} (isCut : IsCut cut)
    (survives : (getProcMapsList task left maxPathLength lpBuf bufSize mem).run.oops = false)
    : getProcMapsList (task.map (TaskStruct.cutPaths cut)) left maxPathLength lpBuf bufSize mem
      = getProcMapsList task left maxPathLength lpBuf bufSize mem := by
  unfold getProcMapsList at survives ⊢
  simp only at survives ⊢
  split
  · rfl
  · next given =>
      rw [if_neg given] at survives
      cases task with
      | none => rfl
      | some t =>
          cases space : t.mm with
          | none => simp only [Option.map_some, TaskStruct.cutPaths, space, Option.map_none]
          | some mm =>
              simp only [space] at survives
              have same := mapsLoop_cutPaths isCut survives
              simp only [Option.map_some, TaskStruct.cutPaths, space, ← same]
              rfl

end Listing

/-- The listing of a process handles its paths exactly if all those that it gets to fit. -/
theorem pathsHandled_iff (task : Option (TaskStruct P)) (left : Nat → Nat)
    (maxPathLength lpBuf bufSize : Nat) (mem : Nat → UInt8) (pointer : lpBuf < 2 ^ 64)
    : PathsHandled task left maxPathLength lpBuf bufSize mem
      ↔ ReachedPathsFit task left maxPathLength lpBuf bufSize := by
  rw [← getProcMapsList_survives_iff mem pointer]
  constructor
  · intro handled
    exact handled.survives
  · intro survives
    exact ⟨survives, dropLong, isCut_dropLong, getProcMapsList_cutPaths isCut_dropLong survives⟩

/-- A program that maps a file whose path has this many characters. -/
def longPath (n : Nat) : TaskStruct Nat where
  mm :=
    some
      { mmap :=
          [⟨⟨0x20000, 0x21000, true, false⟩, true, false, some (List.replicate n 97), by decide,
            by decide⟩]
        length_lt := Nat.lt_of_le_of_lt (Nat.le_refl 1) (by decide)
        vdso := 0
        startBrk := 0
        brk := 0
        startStack := 0 }
  getTaskProcPhyAddr _ := (0, none)

/-- A path of 511 characters fits. -/
theorem pathsHandled_longPath
    : PathsHandled (some (longPath 511)) (fun _ => 0) 512 8 (532 * 51) (fun _ => 0) := by
  refine (pathsHandled_iff _ _ _ _ _ _ (by decide)).mpr ?_
  intro t mm i vma found space member _ _ text file
  cases found
  cases space
  obtain ⟨inside, same⟩ := List.getElem?_eq_some_iff.mp member
  have first : i = 0 := Nat.lt_one_iff.mp inside
  subst first
  subst same
  cases file
  rw [List.length_replicate]
  decide

/-- A path of 512 characters faults. -/
theorem not_pathsHandled_longPath
    : ¬PathsHandled (some (longPath 512)) (fun _ => 0) 512 8 (532 * 51) (fun _ => 0) := by
  intro handled
  have faults : (getProcMapsList (some (longPath 512)) (fun _ => 0) 512 8 (532 * 51)
      (fun _ => 0)).run.oops = true := by
    decide +kernel
  rw [handled.survives] at faults
  contradiction

end RwMem.Driver
