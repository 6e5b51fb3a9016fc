import RwMem.Breakpoint.AddBp

/-! What a process holds is what its open breakpoints need, unless the creation of a file fails. -/

namespace RwMem.Breakpoint

open Memory RwMem.Driver Transition

-----------------------------------------------------------------------------------------
-- One call
-----------------------------------------------------------------------------------------

/-- The checks of the parameters. -/
def AddBpParam.Valid (param : AddBpParam) : Prop :=
  param.type ≤ 4 ∧ (param.len = 1 ∨ param.len = 2 ∨ param.len = 4 ∨ param.len = 8)

/-- The two tests of the code that refuse parameters. -/
theorem AddBpParam.valid_iff {param : AddBpParam}
    : param.Valid
      ↔ ¬param.type > 4
        ∧ ¬(param.len ≠ 1 ∧ param.len ≠ 2 ∧ param.len ≠ 4 ∧ param.len ≠ 8) := by
  rw [Valid]
  omega

/-- The call gets to the creation of the file, and this fails with an error. -/
def FileCreationFails (env : AddBpEnv) (arg : Nat) (mem : Nat → UInt8) : Prop :=
  env.fromUserLeft = 0
  ∧ (AddBpParam.ofBytes (cells mem arg 16)).Valid
  ∧ (∃ pid task,
      env.findGetPid (AddBpParam.ofBytes (cells mem arg 16)).pid = some pid
      ∧ env.getPidTask pid = some task)
  ∧ env.unusedFdFails = none
  ∧ env.kzallocFails = false
  ∧ env.anonInodeGetfileFails ≠ none

/-- The same for any action. -/
def BpAct.fileCreationFails : BpAct → Prop
  | .addBp env arg mem => FileCreationFails env arg mem
  | .close _ => False

namespace Resources

variable {s t : Resources}

theorem putPid_getPid (pid : Nat) : (s.getPid pid).putPid pid = s := by
  simp [getPid, putPid]

theorem putPid_getTaskStruct_getPid (pid task : Nat)
    : ((s.getPid pid).getTaskStruct task).putPid pid = s.getTaskStruct task := by
  simp [getPid, putPid, getTaskStruct]

theorem putTaskStruct_getTaskStruct (task : Nat)
    : (s.getTaskStruct task).putTaskStruct task = s := by
  simp [getTaskStruct, putTaskStruct]

/-- Entries with other keys pass a filter and a change by the key. -/
theorem filter_absent {β : Type} {key : Nat} {entries : List (Nat × β)}
    (absent : key ∉ entries.map Prod.fst)
    : entries.filter (·.1 ≠ key) = entries := by
  rw [List.filter_eq_self]
  intro e member
  have other : e.1 ≠ key := by
    rintro rfl
    exact absent (List.mem_map_of_mem member)
  simpa using other

/-- An entry that was put in front and is taken away. -/
theorem filter_front {β : Type} {key : Nat} {entries : List (Nat × β)} (value : β)
    (absent : key ∉ entries.map Prod.fst)
    : ((key, value) :: entries).filter (·.1 ≠ key) = entries := by
  rw [List.filter_cons_of_neg (by simp), filter_absent absent]

theorem map_absent {β : Type} {key : Nat} {entries : List (Nat × β)} {value : Nat × β}
    (absent : key ∉ entries.map Prod.fst)
    : entries.map (fun e => if e.1 = key then value else e) = entries := by
  refine (List.map_congr_left (fun e member => ?_)).trans (List.map_id entries)
  rw [if_neg]
  · rfl
  · rintro rfl
    exact absent (List.mem_map_of_mem member)

/-- What a call of `IOCTL_ADD_BP` can do: refuse with nothing changed, fail with the private data
left, fail with the file left for its release, or add a breakpoint.
-/
inductive Adds (env : AddBpEnv) (arg : Nat) (mem : Nat → UInt8) (s : Resources)
    : Int → Resources → Prop where
  | refused {ret : Int} (negative : ret < 0) (other : ¬FileCreationFails env arg mem)
    : Adds env arg mem s ret s
  | fileFails {ret : Int} (negative : ret < 0) (fails : FileCreationFails env arg mem)
    : Adds env arg mem s ret { s with data := (env.data, .zeroed) :: s.data }
  | eventFails {ret : Int} (negative : ret < 0) (other : ¬FileCreationFails env arg mem)
    : Adds env arg mem s ret
        { s with data := (env.data, .zeroed) :: s.data, pending := env.data :: s.pending }
  | added (task : Nat) (other : ¬FileCreationFails env arg mem)
    : Adds env arg mem s env.fd
        { s.getTaskStruct task with
          fds := (env.fd, .bpFile env.data) :: s.fds
          data := (env.data, ⟨some env.event, some task⟩) :: s.data
          events := (env.event, task) :: s.events }

/-- A call that undoes what it did, but for the private data. -/
theorem held_of_fileFails {fd : Nat} (fresh : fd ∉ s.fds.map Prod.fst) (data task : Nat)
    : ((((s.getTaskStruct task).reserveFd fd).kzallocData data).putTaskStruct task).putUnusedFd fd
      = { s with data := (data, .zeroed) :: s.data } := by
  have refs : Function.update (Function.update s.taskRefs task (s.taskRefs task + 1)) task
      (s.taskRefs task) = s.taskRefs := by
    rw [Function.update_idem, Function.update_eq_self]
  simp only [getTaskStruct, reserveFd, kzallocData, putTaskStruct, putUnusedFd,
    Function.update_self, Nat.add_sub_cancel, refs, filter_front _ fresh]

/-- A file that is installed and closed leaves its private data to its release. -/
theorem held_of_eventFails {fd : Nat} (fresh : fd ∉ s.fds.map Prod.fst) (data task : Nat)
    : (((((s.getTaskStruct task).reserveFd fd).kzallocData data).fdInstall fd
        data).putTaskStruct task).closeFd fd
      = { s with data := (data, .zeroed) :: s.data, pending := data :: s.pending } := by
  have refs : Function.update (Function.update s.taskRefs task (s.taskRefs task + 1)) task
      (s.taskRefs task) = s.taskRefs := by
    rw [Function.update_idem, Function.update_eq_self]
  simp only [getTaskStruct, reserveFd, kzallocData, fdInstall, putTaskStruct, closeFd,
    List.map_cons, map_absent fresh, if_true, List.lookup_cons_self, Function.update_self,
    Nat.add_sub_cancel, refs, filter_front _ fresh]

/-- A file that is installed, with its private data filled in. -/
theorem held_of_added {fd data : Nat} (fdFresh : fd ∉ s.fds.map Prod.fst)
    (dataFresh : data ∉ s.data.map Prod.fst) (event task : Nat)
    : (((((s.getTaskStruct task).reserveFd fd).kzallocData data).fdInstall fd data).createEvent
        event task).setData data event task
      = { s.getTaskStruct task with
          fds := (fd, .bpFile data) :: s.fds
          data := (data, ⟨some event, some task⟩) :: s.data
          events := (event, task) :: s.events } := by
  simp only [getTaskStruct, reserveFd, kzallocData, fdInstall, createEvent, setData,
    List.map_cons, map_absent fdFresh, map_absent dataFresh, if_true]

/-- A call whose parameters are valid and whose task is found. -/
theorem adds_of_found {env : AddBpEnv} {arg : Nat} {mem : Nat → UInt8} {ret : Int}
    (fresh : env.Fresh s) (copied : env.fromUserLeft = 0)
    (valid : (AddBpParam.ofBytes (cells mem arg 16)).Valid) {pid task : Nat}
    (pidFound : env.findGetPid (AddBpParam.ofBytes (cells mem arg 16)).pid = some pid)
    (taskFound : env.getPidTask pid = some task)
    (returned : addBp env s arg mem = some (ret, t))
    : Adds env arg mem s ret t := by
  obtain ⟨fdFresh, dataFresh, eventFresh⟩ := fresh
  obtain ⟨type, len⟩ := AddBpParam.valid_iff.mp valid
  rw [addBp, if_neg (not_not_intro copied)] at returned
  simp only [if_neg type, if_neg len, pidFound, taskFound, putPid_getTaskStruct_getPid]
    at returned
  cases noFd : env.unusedFdFails with
  | some error =>
      simp only [noFd, putTaskStruct_getTaskStruct] at returned
      cases returned
      refine .refused (Int.neg_neg_of_pos (Int.natCast_pos.mpr error.positive)) (fun fails => ?_)
      rw [fails.2.2.2.1] at noFd
      contradiction
  | none =>
      simp only [noFd, createRwmemBpFile] at returned
      cases noMemory : env.kzallocFails with
      | true => simp [noMemory] at returned
      | false =>
          cases noFile : env.anonInodeGetfileFails with
          | some error =>
              simp only [noMemory, Bool.false_eq_true, if_false, noFile] at returned
              have fails : FileCreationFails env arg mem :=
                ⟨copied, valid, ⟨pid, task, pidFound, taskFound⟩, noFd, noMemory,
                  by rw [noFile]; exact Option.some_ne_none error⟩
              have left := Option.some_inj.mp returned
              rw [held_of_fileFails fdFresh] at left
              cases left
              exact .fileFails (Int.neg_neg_of_pos (Int.natCast_pos.mpr error.positive)) fails
          | none =>
              have other : ¬FileCreationFails env arg mem := fun fails => fails.2.2.2.2.2 noFile
              simp only [noMemory, Bool.false_eq_true, if_false, noFile] at returned
              cases noEvent : env.perfEventFails ⟨(AddBpParam.ofBytes (cells mem arg 16)).virtAddr,
                (AddBpParam.ofBytes (cells mem arg 16)).len,
                (AddBpParam.ofBytes (cells mem arg 16)).type⟩ task with
              | some error =>
                  simp only [noEvent] at returned
                  have left := Option.some_inj.mp returned
                  rw [held_of_eventFails fdFresh] at left
                  cases left
                  exact .eventFails
                    (Int.neg_neg_of_pos (Int.natCast_pos.mpr error.positive)) other
              | none =>
                  simp only [noEvent] at returned
                  have left := Option.some_inj.mp returned
                  rw [held_of_added fdFresh dataFresh] at left
                  cases left
                  exact .added task other

/-- Every call is one of these cases, by the branches of the code. -/
theorem adds_of_addBp {env : AddBpEnv} {arg : Nat} {mem : Nat → UInt8} {ret : Int}
    (fresh : env.Fresh s) (returned : addBp env s arg mem = some (ret, t))
    : Adds env arg mem s ret t := by
  have negative : -EINVAL < 0 := Int.neg_neg_of_pos (by decide)
  by_cases copied : env.fromUserLeft = 0
  · by_cases valid : (AddBpParam.ofBytes (cells mem arg 16)).Valid
    · obtain ⟨type, len⟩ := AddBpParam.valid_iff.mp valid
      cases pidFound : env.findGetPid (AddBpParam.ofBytes (cells mem arg 16)).pid with
      | none =>
          rw [addBp, if_neg (not_not_intro copied)] at returned
          simp only [if_neg type, if_neg len, pidFound] at returned
          cases returned
          refine .refused negative ?_
          rintro ⟨_, _, ⟨pid, _, found, _⟩, _⟩
          rw [pidFound] at found
          contradiction
      | some pid =>
          cases taskFound : env.getPidTask pid with
          | none =>
              rw [addBp, if_neg (not_not_intro copied)] at returned
              simp only [if_neg type, if_neg len, pidFound, taskFound, putPid_getPid] at returned
              cases returned
              refine .refused negative ?_
              rintro ⟨_, _, ⟨pid', task, found, foundTask⟩, _⟩
              rw [pidFound] at found
              cases found
              rw [taskFound] at foundTask
              contradiction
          | some task => exact adds_of_found fresh copied valid pidFound taskFound returned
    · rw [addBp, if_neg (not_not_intro copied)] at returned
      have same : (ret, t) = (-EINVAL, s) := by
        by_cases type : (AddBpParam.ofBytes (cells mem arg 16)).type > 4
        · simp only [if_pos type] at returned
          exact (Option.some_inj.mp returned).symm
        · have len := not_not.mp (fun len => valid (AddBpParam.valid_iff.mpr ⟨type, len⟩))
          simp only [if_neg type, if_pos len] at returned
          exact (Option.some_inj.mp returned).symm
      cases same
      exact .refused negative (fun fails => valid fails.2.1)
  · rw [addBp, if_pos copied] at returned
    cases returned
    exact .refused (Int.neg_neg_of_pos (by decide)) (fun fails => copied fails.1)

-----------------------------------------------------------------------------------------
-- Failing calls
-----------------------------------------------------------------------------------------

/-- A state between two system calls: no release is left for later. -/
def Settled (s : Resources) : Prop := s.pending = []

theorem runPending_of_settled (settled : s.Settled) : s.runPending = s := by
  have settled : s.pending = [] := settled
  rw [runPending, settled]
  change { s with pending := [] } = s
  rw [← settled]

/-- A release leaves no other release for later. -/
theorem pending_rwmemBpRelease (data : Nat) : (s.rwmemBpRelease data).pending = s.pending := by
  rw [rwmemBpRelease]
  split
  · rfl
  · next owned _ =>
      cases owned.event with
      | none => cases owned.targetTask <;> rfl
      | some event => cases owned.targetTask <;> rfl

theorem settled_runPending : s.runPending.Settled := by
  rw [runPending]
  generalize s.pending = files
  have start : Settled { s with pending := [] } := rfl
  generalize { s with pending := [] } = u at start
  induction files generalizing u with
  | nil => exact start
  | cons data rest ih =>
      rw [List.foldl_cons]
      exact ih _ ((pending_rwmemBpRelease data).trans start)

theorem settled_of_step {a : BpAct} (taken : s.step a = some t) : t.Settled := by
  cases a with
  | addBp env arg mem =>
      rw [step] at taken
      split at taken
      · obtain ⟨answer, _, rfl⟩ := Option.map_eq_some_iff.mp taken
        exact settled_runPending
      · contradiction
  | close fd =>
      rw [step] at taken
      split at taken
      · cases taken
        exact settled_runPending
      · contradiction

/-- The release of private data that owns nothing frees the data and nothing else. -/
theorem runPending_of_eventFails {data : Nat} (settled : s.Settled)
    (fresh : data ∉ s.data.map Prod.fst)
    : Resources.runPending
        { s with data := (data, .zeroed) :: s.data, pending := data :: s.pending } = s := by
  have settled : s.pending = [] := settled
  simp only [runPending, settled, List.foldl_cons, List.foldl_nil, rwmemBpRelease,
    List.lookup_cons_self, OwnedData.zeroed, Option.elim, kfreeData, filter_front _ fresh]
  simp only [← settled]

end Resources

/-- A call that returns an error leaves, once the process is back in user mode, everything as it
was.
-/
def AllOrNothing (s : Resources) : BpAct → Prop
  | .addBp env arg mem =>
      ∀ ret t, env.Fresh s → addBp env s arg mem = some (ret, t) → ret < 0 → t.runPending = s
  | .close _ => True

/-- A call that does not fail in the creation of the file is all or nothing, and one that does is
not.
-/
theorem allOrNothing_iff {s t : Resources} {a : BpAct} (settled : s.Settled)
    (taken : s.step a = some t)
    : AllOrNothing s a ↔ ¬a.fileCreationFails := by
  cases a with
  | close fd => exact iff_of_true trivial id
  | addBp env arg mem =>
      constructor
      · intro all fails
        rw [Resources.step] at taken
        split at taken
        · next fresh =>
            obtain ⟨⟨ret, held⟩, returned, _⟩ := Option.map_eq_some_iff.mp taken
            have cases_ := Resources.adds_of_addBp fresh returned
            cases cases_ with
            | refused _ other => exact other fails
            | eventFails _ other => exact other fails
            | added _ other => exact other fails
            | fileFails negative _ =>
                have same := all ret _ fresh returned negative
                have settled' : Resources.Settled
                    { s with data := (env.data, .zeroed) :: s.data } := settled
                rw [Resources.runPending_of_settled settled'] at same
                have lengths := congrArg (fun s => s.data.length) same
                simp at lengths
        · contradiction
      · intro other ret held fresh returned negative
        cases Resources.adds_of_addBp fresh returned with
        | refused _ _ => exact Resources.runPending_of_settled settled
        | fileFails _ fails => exact absurd fails other
        | eventFails _ _ => exact Resources.runPending_of_eventFails settled fresh.2.1
        | added _ _ => omega

-----------------------------------------------------------------------------------------
-- Open breakpoints
-----------------------------------------------------------------------------------------

/-- An open breakpoint file: its descriptor, its private data, its perf event and its task. -/
structure OpenBp where
  fd : Nat
  data : Nat
  event : Nat
  task : Nat
deriving DecidableEq

namespace Resources

/-- What a process holds for its open breakpoints, beside its other descriptors. -/
def holding (others : List Nat) (bps : List OpenBp) : Resources where
  pidRefs _ := 0
  taskRefs task := bps.countP (fun bp => bp.task = task)
  fds := bps.map (fun bp => (bp.fd, .bpFile bp.data)) ++ others.map (fun fd => (fd, .other))
  data := bps.map (fun bp => (bp.data, ⟨some bp.event, some bp.task⟩))
  events := bps.map (fun bp => (bp.event, bp.task))
  pending := []

/-- The private data of the open breakpoint files. -/
def openFiles (s : Resources) : List Nat :=
  s.fds.filterMap (fun e =>
    match e.2 with
    | .bpFile data => some data
    | _ => none)

/-- The task of an open breakpoint file. -/
def targetOf (s : Resources) (privateData : Nat) : Option Nat :=
  (s.data.lookup privateData).bind OwnedData.targetTask

/-- There are as many private data and perf events as open breakpoint files, and of each task as
many events and references as open files with this task.
-/
structure Balanced (s : Resources) : Prop where
  data : s.data.length = s.openFiles.length
  events : s.events.length = s.openFiles.length
  eventsOf
    : ∀ task,
        s.events.countP (fun e => e.2 = task)
        = s.openFiles.countP (fun data => s.targetOf data = some task)
  taskRefs
    : ∀ task, s.taskRefs task = s.openFiles.countP (fun data => s.targetOf data = some task)

end Resources

/-- The numbers of the open breakpoints differ. -/
structure NumbersApart (others : List Nat) (bps : List OpenBp) : Prop where
  fds : (bps.map OpenBp.fd ++ others).Nodup
  data : (bps.map OpenBp.data).Nodup
  events : (bps.map OpenBp.event).Nodup

variable {others : List Nat} {bps : List OpenBp}

/-- The entry of a key in a list that is made from a list with distinct keys. -/
theorem lookup_map {α β : Type} {key : α → Nat} (value : α → β) {l : List α}
    (nodup : (l.map key).Nodup) {a : α} (member : a ∈ l)
    : (l.map (fun a => (key a, value a))).lookup (key a) = some (value a) := by
  induction l with
  | nil => contradiction
  | cons b rest ih =>
      obtain ⟨absent, nodup⟩ := List.nodup_cons.mp nodup
      rcases List.mem_cons.mp member with rfl | later
      · exact List.lookup_cons_self
      · have apart : key a ≠ key b := by
          intro same
          rw [← same] at absent
          exact absent (List.mem_map_of_mem later)
        rw [List.map_cons, List.lookup_cons, beq_false_of_ne apart]
        exact ih nodup later

/-- A key that only one of the elements has is taken away with it. -/
theorem filter_map_split {α β : Type} {key : α → Nat} (value : α → β) {before after : List α}
    {a : α} (nodup : ((before ++ a :: after).map key).Nodup)
    : ((before ++ a :: after).map (fun a => (key a, value a))).filter (·.1 ≠ key a)
      = (before ++ after).map (fun a => (key a, value a)) := by
  rw [List.map_append, List.map_cons, List.nodup_append] at nodup
  obtain ⟨_, last, apart⟩ := nodup
  have absentBefore : key a ∉ (before.map (fun a => (key a, value a))).map Prod.fst := by
    rw [List.map_map]
    intro member
    exact apart _ member _ List.mem_cons_self rfl
  have absentAfter : key a ∉ (after.map (fun a => (key a, value a))).map Prod.fst := by
    rw [List.map_map]
    exact (List.nodup_cons.mp last).1
  rw [List.map_append, List.map_cons, List.filter_append, Resources.filter_absent absentBefore,
    Resources.filter_front _ absentAfter, List.map_append]

theorem openFiles_holding : (Resources.holding others bps).openFiles = bps.map OpenBp.data := by
  have others_ : (others.map (fun fd => (fd, Descriptor.other))).filterMap
      (fun e => match e.2 with
        | .bpFile data => some data
        | _ => none) = [] := by
    rw [List.filterMap_map, List.filterMap_eq_nil_iff]
    intro fd _
    rfl
  rw [Resources.openFiles, Resources.holding, List.filterMap_append, others_, List.append_nil,
    List.filterMap_map]
  exact congrFun List.filterMap_eq_map bps

/-- Where a process holds what its open breakpoints need, the numbers are balanced. -/
theorem balanced_holding (apart : NumbersApart others bps)
    : (Resources.holding others bps).Balanced := by
  have counts (task : Nat)
      : (Resources.holding others bps).openFiles.countP
          (fun data => (Resources.holding others bps).targetOf data = some task)
        = bps.countP (fun bp => bp.task = task) := by
    rw [openFiles_holding, List.countP_map]
    refine List.countP_congr (fun bp member => ?_)
    have found := lookup_map (fun bp : OpenBp => (⟨some bp.event, some bp.task⟩ : OwnedData))
      apart.data member
    have target : (Resources.holding others bps).targetOf bp.data = some bp.task := by
      rw [Resources.targetOf]
      exact congrArg (fun data => Option.bind data OwnedData.targetTask) found
    simp [target]
  refine ⟨?_, ?_, ?_, ?_⟩
  · rw [openFiles_holding, Resources.holding, List.length_map, List.length_map]
  · rw [openFiles_holding, Resources.holding, List.length_map, List.length_map]
  · intro task
    rw [counts, Resources.holding, List.countP_map]
    rfl
  · intro task
    rw [counts]
    rfl

/-- A process that holds what its breakpoints need, with one breakpoint more. -/
theorem holding_cons {bp : OpenBp}
    : Resources.holding others (bp :: bps)
      = { (Resources.holding others bps).getTaskStruct bp.task with
          fds := (bp.fd, .bpFile bp.data) :: (Resources.holding others bps).fds
          data := (bp.data, ⟨some bp.event, some bp.task⟩)
            :: (Resources.holding others bps).data
          events := (bp.event, bp.task) :: (Resources.holding others bps).events } := by
  have refs : (Resources.holding others (bp :: bps)).taskRefs
      = ((Resources.holding others bps).getTaskStruct bp.task).taskRefs := by
    funext task
    by_cases same : task = bp.task
    · subst same
      simp [Resources.holding, Resources.getTaskStruct]
    · have other : ¬bp.task = task := fun equal => same equal.symm
      simp [Resources.holding, Resources.getTaskStruct, Function.update_of_ne same, other]
  rw [Resources.holding] at refs ⊢
  simp only at refs
  rw [refs]
  rfl

theorem fds_holding
    : (Resources.holding others bps).fds.map Prod.fst = bps.map OpenBp.fd ++ others := by
  simp only [Resources.holding, List.map_append, List.map_map]
  exact congrArg (bps.map OpenBp.fd ++ ·) (List.map_id others)

theorem data_holding
    : (Resources.holding others bps).data.map Prod.fst = bps.map OpenBp.data := by
  rw [Resources.holding, List.map_map]
  rfl

theorem events_holding
    : (Resources.holding others bps).events.map Prod.fst = bps.map OpenBp.event := by
  rw [Resources.holding, List.map_map]
  rfl

/-- New numbers keep the numbers apart. -/
theorem NumbersApart.cons {env : AddBpEnv} (apart : NumbersApart others bps)
    (fresh : env.Fresh (Resources.holding others bps)) (task : Nat)
    : NumbersApart others (⟨env.fd, env.data, env.event, task⟩ :: bps) := by
  obtain ⟨fd, data, event⟩ := fresh
  rw [fds_holding] at fd
  rw [data_holding] at data
  rw [events_holding] at event
  exact ⟨List.nodup_cons.mpr ⟨fd, apart.fds⟩, List.nodup_cons.mpr ⟨data, apart.data⟩,
    List.nodup_cons.mpr ⟨event, apart.events⟩⟩

/-- A descriptor of a breakpoint file is that of an open breakpoint. -/
theorem exists_of_isBpFile {fd : Nat} (isFile : (Resources.holding others bps).isBpFile fd = true)
    : ∃ bp ∈ bps, bp.fd = fd := by
  rw [Resources.isBpFile] at isFile
  split at isFile
  · next data found =>
      have member : (fd, Descriptor.bpFile data) ∈ (Resources.holding others bps).fds := by
        obtain ⟨front, behind, split, _⟩ := List.lookup_eq_some_iff.mp found
        rw [split]
        exact List.mem_append_right front List.mem_cons_self
      rcases List.mem_append.mp member with among | other
      · obtain ⟨bp, inside, same⟩ := List.mem_map.mp among
        exact ⟨bp, inside, congrArg Prod.fst same⟩
      · obtain ⟨_, _, same⟩ := List.mem_map.mp other
        cases same
  · contradiction

/-- Closing a file gives up what its breakpoint needs, and nothing else. -/
theorem close_holding {before after : List OpenBp} {bp : OpenBp}
    (apart : NumbersApart others (before ++ bp :: after))
    : ((Resources.holding others (before ++ bp :: after)).closeFd bp.fd).runPending
      = Resources.holding others (before ++ after) := by
  have member : bp ∈ before ++ bp :: after := List.mem_append_right before List.mem_cons_self
  have fdNodup := (List.nodup_append.mp apart.fds).1
  have notOther : bp.fd ∉ (others.map (fun fd => (fd, Descriptor.other))).map Prod.fst := by
    rw [List.map_map]
    intro among
    obtain ⟨fd, inside, same⟩ := List.mem_map.mp among
    exact (List.nodup_append.mp apart.fds).2.2 _ (List.mem_map_of_mem member) _ inside same.symm
  have file : (Resources.holding others (before ++ bp :: after)).fds.lookup bp.fd
      = some (.bpFile bp.data) := by
    have found := lookup_map (fun bp : OpenBp => Descriptor.bpFile bp.data) fdNodup member
    rw [Resources.holding, List.lookup_append, found]
    rfl
  have owned : (Resources.holding others (before ++ bp :: after)).data.lookup bp.data
      = some ⟨some bp.event, some bp.task⟩ :=
    lookup_map (fun bp : OpenBp => (⟨some bp.event, some bp.task⟩ : OwnedData)) apart.data member
  have fds : (Resources.holding others (before ++ bp :: after)).fds.filter (·.1 ≠ bp.fd)
      = (Resources.holding others (before ++ after)).fds := by
    have left := filter_map_split (fun bp : OpenBp => Descriptor.bpFile bp.data) fdNodup
    rw [Resources.holding, List.filter_append, left, Resources.filter_absent notOther]
    rfl
  have data : (Resources.holding others (before ++ bp :: after)).data.filter (·.1 ≠ bp.data)
      = (Resources.holding others (before ++ after)).data :=
    filter_map_split (fun bp : OpenBp => (⟨some bp.event, some bp.task⟩ : OwnedData)) apart.data
  have events : (Resources.holding others (before ++ bp :: after)).events.filter
      (·.1 ≠ bp.event) = (Resources.holding others (before ++ after)).events :=
    filter_map_split OpenBp.task apart.events
  have refs : Function.update (Resources.holding others (before ++ bp :: after)).taskRefs bp.task
      ((Resources.holding others (before ++ bp :: after)).taskRefs bp.task - 1)
      = (Resources.holding others (before ++ after)).taskRefs := by
    funext task
    by_cases same : task = bp.task
    · subst same
      simp [Resources.holding, List.countP_append, List.countP_cons]
    · have other : ¬bp.task = task := fun equal => same equal.symm
      simp [Resources.holding, Function.update_of_ne same, List.countP_append,
        List.countP_cons, other]
  rw [Resources.closeFd, file]
  simp only [Resources.runPending, fds]
  change Resources.rwmemBpRelease
    { Resources.holding others (before ++ bp :: after) with
      fds := (Resources.holding others (before ++ after)).fds, pending := [] } bp.data = _
  rw [Resources.rwmemBpRelease]
  simp only [owned, Option.elim, Resources.unregisterHwBreakpoint, Resources.putTaskStruct,
    Resources.kfreeData, data, events, refs]
  rfl

theorem NumbersApart.remove {before after : List OpenBp} {bp : OpenBp}
    (apart : NumbersApart others (before ++ bp :: after))
    : NumbersApart others (before ++ after) := by
  have fewer : (before ++ after).Sublist (before ++ bp :: after) :=
    (List.Sublist.refl before).append (List.sublist_cons_self bp after)
  exact ⟨((fewer.map OpenBp.fd).append (List.Sublist.refl others)).nodup apart.fds,
    (fewer.map OpenBp.data).nodup apart.data, (fewer.map OpenBp.event).nodup apart.events⟩

/-- A step between states in which a process holds what its breakpoints need. -/
theorem holding_step {t : Resources} {a : BpAct} (apart : NumbersApart others bps)
    (succeeds : ¬a.fileCreationFails) (taken : (Resources.holding others bps).step a = some t)
    : ∃ bps', NumbersApart others bps' ∧ t = Resources.holding others bps' := by
  have settled : (Resources.holding others bps).Settled := rfl
  cases a with
  | close fd =>
      rw [Resources.step] at taken
      split at taken
      · next isFile =>
          obtain ⟨bp, member, rfl⟩ := exists_of_isBpFile isFile
          obtain ⟨before, after, rfl⟩ := List.append_of_mem member
          cases taken
          exact ⟨before ++ after, apart.remove, close_holding apart⟩
      · contradiction
  | addBp env arg mem =>
      rw [Resources.step] at taken
      split at taken
      · next fresh =>
          obtain ⟨⟨ret, held⟩, returned, rfl⟩ := Option.map_eq_some_iff.mp taken
          cases Resources.adds_of_addBp fresh returned with
          | refused _ _ => exact ⟨bps, apart, Resources.runPending_of_settled settled⟩
          | fileFails _ fails => exact absurd fails succeeds
          | eventFails _ _ =>
              exact ⟨bps, apart, Resources.runPending_of_eventFails settled fresh.2.1⟩
          | added task _ =>
              refine ⟨_, apart.cons fresh task, ?_⟩
              rw [holding_cons]
              exact Resources.runPending_of_settled rfl
      · contradiction

/-- In every run the calls are all or nothing and the numbers balanced if and only if in no call the
creation of the file fails.
-/
theorem addBp_allOrNothing_iff (others : List Nat) (distinct : others.Nodup) (acts : List BpAct)
    (final : Resources) (run : exec Resources.step (.holding others []) acts = some final)
    : (Along Resources.step AllOrNothing (.holding others []) acts
        ∧ Throughout Resources.step Resources.Balanced (.holding others []) acts)
      ↔ Along Resources.step (fun _ a => ¬a.fileCreationFails) (.holding others []) acts := by
  constructor
  · intro ⟨all, _⟩ before a after t split reached
    have settled : Throughout Resources.step Resources.Settled (.holding others []) acts :=
      invariant_of_step acts rfl (fun _ _ _ _ taken => Resources.settled_of_step taken)
    have once := all before a after t split reached
    have settledBefore := settled before (a :: after) t split reached
    subst split
    obtain ⟨u, taken, _⟩ := exists_step_of_split run reached
    exact (allOrNothing_iff settledBefore taken).mp once
  · intro succeeds
    have start : ∃ bps, NumbersApart others bps ∧ Resources.holding others [] = .holding others bps :=
      ⟨[], ⟨distinct, List.nodup_nil, List.nodup_nil⟩, rfl⟩
    have held : Throughout Resources.step
        (fun s => ∃ bps, NumbersApart others bps ∧ s = .holding others bps) (.holding others [])
        acts := by
      refine invariant (fun _ a => ¬a.fileCreationFails) start ?_ succeeds
      rintro _ a u ⟨bps, apart, rfl⟩ good taken
      exact holding_step apart good taken
    refine ⟨?_, ?_⟩
    · intro before a after t split reached
      obtain ⟨bps, apart, rfl⟩ := held before (a :: after) t split reached
      subst split
      obtain ⟨u, taken, _⟩ := exists_step_of_split run reached
      have settled : (Resources.holding others bps).Settled := rfl
      exact (allOrNothing_iff settled taken).mpr (succeeds before a after _ rfl reached)
    · intro before after t split reached
      obtain ⟨bps, apart, rfl⟩ := held before after t split reached
      exact balanced_holding apart

/-- A kernel in which a breakpoint can be added, or its file cannot be made. -/
def addingEnv (fileFails : Option Errno) : AddBpEnv where
  fromUserLeft := 0
  findGetPid _ := some 70
  getPidTask _ := some 71
  unusedFdFails := none
  fd := 3
  kzallocFails := false
  data := 72
  anonInodeGetfileFails := fileFails
  perfEventFails _ _ := none
  event := 73

/-- The parameters of a breakpoint on four bytes. -/
def fourBytes (at_ : Nat) : UInt8 := if at_ = 5 then 4 else 0

theorem addBp_allOrNothing_iff_addAndClose
    : (Along Resources.step AllOrNothing (.holding [0] [])
          [.addBp (addingEnv none) 0 fourBytes, .close 3]
        ∧ Throughout Resources.step Resources.Balanced (.holding [0] [])
          [.addBp (addingEnv none) 0 fourBytes, .close 3])
      ↔ Along Resources.step (fun _ a => ¬a.fileCreationFails) (.holding [0] [])
          [.addBp (addingEnv none) 0 fourBytes, .close 3] :=
  addBp_allOrNothing_iff [0] (by decide) _ _ rfl

/-- The file cannot be made since too many files are open: the private data stays. -/
theorem addBp_not_allOrNothing
    : (exec Resources.step (.holding [0] [])
        [.addBp (addingEnv (some ⟨23, by decide⟩)) 0 fourBytes]).isSome
      ∧ ¬(Along Resources.step AllOrNothing (.holding [0] [])
            [.addBp (addingEnv (some ⟨23, by decide⟩)) 0 fourBytes]
          ∧ Throughout Resources.step Resources.Balanced (.holding [0] [])
            [.addBp (addingEnv (some ⟨23, by decide⟩)) 0 fourBytes]) := by
  refine ⟨rfl, ?_⟩
  intro ⟨all, _⟩
  have same := all [] _ [] _ rfl rfl (-23) _ (by decide) rfl (by decide)
  have lengths := congrArg (fun s => s.data.length) same
  contradiction

end RwMem.Breakpoint
