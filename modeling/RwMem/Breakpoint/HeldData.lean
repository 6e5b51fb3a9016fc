import RwMem.Breakpoint.OpenBreakpoints
import RwMem.Collections.ListedMap

/-! What a process holds in every run, also behind calls that left private data of files that could
not be made.
-/

namespace RwMem.Breakpoint

open Collections Memory RwMem.Driver

variable {others : List Nat} {bps : List OpenBp} {s t : Resources}

/-- What a process holds is what its open breakpoints need, but for private data that belongs to
none of them.
-/
structure Holds (others : List Nat) (bps : List OpenBp) (s : Resources) : Prop where
  apart : NumbersApart others bps
  rest : s = { Resources.holding others bps with data := s.data }
  data : ∀ bp ∈ bps, s.data.lookup bp.data = some ⟨some bp.event, some bp.task⟩

namespace Holds

variable (holds : Holds others bps s)
include holds

theorem fds_eq : s.fds = (Resources.holding others bps).fds := by rw [holds.rest]

theorem settled : s.Settled := by
  rw [holds.rest]
  rfl

theorem openFiles_eq : s.openFiles = bps.map OpenBp.data := by
  rw [Resources.openFiles, holds.fds_eq]
  exact openFiles_holding

/-- The descriptor of a breakpoint leads to its private data. -/
theorem lookup_fd {bp : OpenBp} (member : bp ∈ bps)
    : s.fds.lookup bp.fd = some (.bpFile bp.data) := by
  have nodup := (List.nodup_append.mp holds.apart.fds).1
  have found := lookup_map (fun bp : OpenBp => Descriptor.bpFile bp.data) nodup member
  rw [holds.fds_eq, Resources.holding, List.lookup_append, found]
  rfl

/-- The private data of a breakpoint is among what is held. -/
theorem mem_data {bp : OpenBp} (member : bp ∈ bps) : bp.data ∈ s.data.map Prod.fst := by
  obtain ⟨front, behind, split, _⟩ := List.lookup_eq_some_iff.mp (holds.data bp member)
  rw [split]
  simp

/-- Private data in front leaves that of the breakpoints. -/
theorem lookup_data_cons {data : Nat} (owned : OwnedData) (fresh : data ∉ s.data.map Prod.fst)
    {bp : OpenBp} (member : bp ∈ bps)
    : ((data, owned) :: s.data).lookup bp.data = some ⟨some bp.event, some bp.task⟩ := by
  have other : bp.data ≠ data := by
    rintro rfl
    exact fresh (holds.mem_data member)
  rw [List.lookup_cons, beq_false_of_ne other]
  exact holds.data bp member

/-- Private data that is left over changes nothing that the breakpoints need. -/
theorem leave {data : Nat} (fresh : data ∉ s.data.map Prod.fst)
    : Holds others bps { s with data := (data, .zeroed) :: s.data } := by
  refine ⟨holds.apart, ?_, fun bp member => holds.lookup_data_cons .zeroed fresh member⟩
  conv_lhs => rw [holds.rest]

/-- One breakpoint more. -/
theorem add {env : AddBpEnv} (fresh : env.Fresh s) (task : Nat)
    : Holds others (⟨env.fd, env.data, env.event, task⟩ :: bps)
        { s.getTaskStruct task with
          fds := (env.fd, .bpFile env.data) :: s.fds
          data := (env.data, ⟨some env.event, some task⟩) :: s.data
          events := (env.event, task) :: s.events } := by
  obtain ⟨fdFresh, dataFresh, eventFresh⟩ := fresh
  have events : s.events = (Resources.holding others bps).events := by rw [holds.rest]
  rw [holds.fds_eq, fds_holding] at fdFresh
  rw [events, events_holding] at eventFresh
  have apart : NumbersApart others (⟨env.fd, env.data, env.event, task⟩ :: bps) := by
    refine ⟨List.nodup_cons.mpr ⟨fdFresh, holds.apart.fds⟩, List.nodup_cons.mpr ⟨?_, holds.apart.data⟩,
      List.nodup_cons.mpr ⟨eventFresh, holds.apart.events⟩⟩
    intro among
    obtain ⟨bp, member, same⟩ := List.mem_map.mp among
    have same : bp.data = env.data := same
    exact dataFresh (same ▸ holds.mem_data member)
  refine ⟨apart, ?_, ?_⟩
  · rw [holding_cons]
    conv_lhs => rw [holds.rest]
    rfl
  · intro bp member
    rcases List.mem_cons.mp member with rfl | old
    · exact List.lookup_cons_self
    · exact holds.lookup_data_cons _ dataFresh old

end Holds

/-- A call that adds a breakpoint has found the thread that it is for. -/
theorem found_of_addBp {env : AddBpEnv} {arg : Nat} {mem : Nat → UInt8} {ret : Int}
    (returned : addBp env s arg mem = some (ret, t)) (added : 0 ≤ ret)
    : let param := AddBpParam.ofBytes (cells mem arg 16)
      env.fromUserLeft = 0
      ∧ param.Valid
      ∧ ∃ pid task, env.findGetPid param.pid = some pid ∧ env.getPidTask pid = some task := by
  intro param
  by_cases copied : env.fromUserLeft = 0
  · rw [addBp, if_neg (not_not_intro copied)] at returned
    refine ⟨copied, ?_⟩
    by_cases type : param.type > 4
    · simp only [param, if_pos type] at returned
      cases returned
      contradiction
    · by_cases len : param.len ≠ 1 ∧ param.len ≠ 2 ∧ param.len ≠ 4 ∧ param.len ≠ 8
      · simp only [param, if_neg type, if_pos len] at returned
        cases returned
        contradiction
      · refine ⟨AddBpParam.valid_iff.mpr ⟨type, len⟩, ?_⟩
        simp only [param, if_neg type, if_neg len] at returned
        cases pidFound : env.findGetPid param.pid with
        | none =>
            simp only [param, pidFound] at returned
            cases returned
            contradiction
        | some pid =>
            cases taskFound : env.getPidTask pid with
            | none =>
                simp only [param, pidFound, taskFound] at returned
                cases returned
                contradiction
            | some task => exact ⟨pid, task, rfl, taskFound⟩
  · rw [addBp, if_pos copied] at returned
    cases returned
    contradiction

/-- What a call that adds a breakpoint leaves: a file with a perf event of the kind that was asked
for, on the thread that was found.
-/
theorem added_of_addBp {env : AddBpEnv} {arg : Nat} {mem : Nat → UInt8} {ret : Int}
    (fresh : env.Fresh s) (returned : addBp env s arg mem = some (ret, t)) (added : 0 ≤ ret)
    : let param := AddBpParam.ofBytes (cells mem arg 16)
      ∃ task,
        (env.findGetPid param.pid).bind env.getPidTask = some task
        ∧ env.perfEventFails ⟨param.virtAddr, param.len, param.type⟩ task = none
        ∧ ret = env.fd
        ∧ t = { s.getTaskStruct task with
              fds := (env.fd, .bpFile env.data) :: s.fds
              data := (env.data, ⟨some env.event, some task⟩) :: s.data
              events := (env.event, task) :: s.events } := by
  intro param
  obtain ⟨copied, valid, pid, task, pidFound, taskFound⟩ := found_of_addBp returned added
  obtain ⟨type, len⟩ := AddBpParam.valid_iff.mp valid
  obtain ⟨fdFresh, dataFresh, _⟩ := fresh
  have failed (e : Errno) : ¬0 ≤ -(e.code : Int) := by
    have positive := e.positive
    omega
  refine ⟨task, by rw [pidFound]; exact taskFound, ?_⟩
  rw [addBp, if_neg (not_not_intro copied)] at returned
  simp only [if_neg type, if_neg len, pidFound, taskFound,
    Resources.putPid_getTaskStruct_getPid] at returned
  cases noFd : env.unusedFdFails with
  | some error =>
      simp only [noFd] at returned
      cases returned
      exact absurd added (failed error)
  | none =>
      simp only [noFd, createRwmemBpFile] at returned
      cases noMemory : env.kzallocFails with
      | true => simp [noMemory] at returned
      | false =>
          cases noFile : env.anonInodeGetfileFails with
          | some error =>
              simp only [noMemory, Bool.false_eq_true, if_false, noFile] at returned
              cases returned
              exact absurd added (failed error)
          | none =>
              simp only [noMemory, Bool.false_eq_true, if_false, noFile] at returned
              cases noEvent : env.perfEventFails ⟨param.virtAddr, param.len, param.type⟩ task with
              | some error =>
                  simp only [param, noEvent] at returned
                  cases returned
                  exact absurd added (failed error)
              | none =>
                  simp only [param, noEvent] at returned
                  have left := Option.some_inj.mp returned
                  rw [Resources.held_of_added fdFresh dataFresh] at left
                  cases left
                  exact ⟨rfl, rfl, rfl⟩

/-- Nothing fails in a call: its parameters are valid, the thread is there, and a descriptor, the
file and the perf event can be made.
-/
structure AddBpEnv.Grants (env : AddBpEnv) (param : AddBpParam) : Prop where
  copied : env.fromUserLeft = 0
  valid : param.Valid
  fd : env.unusedFdFails = none
  memory : env.kzallocFails = false
  file : env.anonInodeGetfileFails = none
  event
    : ∃ pid task,
        env.findGetPid param.pid = some pid
        ∧ env.getPidTask pid = some task
        ∧ env.perfEventFails ⟨param.virtAddr, param.len, param.type⟩ task = none

/-- A call in which nothing fails adds a breakpoint. -/
theorem addBp_of_grants {env : AddBpEnv} {arg : Nat} {mem : Nat → UInt8}
    (grants : env.Grants (AddBpParam.ofBytes (cells mem arg 16))) (s : Resources)
    : ∃ t, addBp env s arg mem = some ((env.fd : Int), t) := by
  obtain ⟨pid, task, pidFound, taskFound, event⟩ := grants.event
  obtain ⟨type, len⟩ := AddBpParam.valid_iff.mp grants.valid
  rw [addBp, if_neg (not_not_intro grants.copied)]
  simp only [if_neg type, if_neg len, pidFound, taskFound, grants.fd, createRwmemBpFile,
    grants.memory, Bool.false_eq_true, if_false, grants.file, event]
  exact ⟨_, rfl⟩

/-- A number that is not in use leads to no private data. -/
theorem lookup_of_fresh {key : Nat} {data : List (Nat × OwnedData)}
    (fresh : key ∉ data.map Prod.fst)
    : data.lookup key = none := by
  refine List.lookup_eq_none_iff.mpr (fun entry member => ?_)
  have other : key ≠ entry.1 := by
    rintro rfl
    exact fresh (List.mem_map_of_mem member)
  simpa using other

/-- What a call can do to what a process holds: fail, or add a breakpoint. -/
theorem Holds.addBp {env : AddBpEnv} {arg : Nat} {mem : Nat → UInt8} {ret : Int}
    (holds : Holds others bps s) (fresh : env.Fresh s)
    (returned : RwMem.Breakpoint.addBp env s arg mem = some (ret, t))
    : (ret < 0
        ∧ ¬env.Grants (AddBpParam.ofBytes (cells mem arg 16))
        ∧ Holds others bps t.runPending
        ∧ t.runPending.targetOf env.data = none)
      ∨ (let param := AddBpParam.ofBytes (cells mem arg 16)
        ∃ task,
          (env.findGetPid param.pid).bind env.getPidTask = some task
          ∧ env.perfEventFails ⟨param.virtAddr, param.len, param.type⟩ task = none
          ∧ ret = env.fd
          ∧ Holds others (⟨env.fd, env.data, env.event, task⟩ :: bps) t.runPending
          ∧ t.runPending.targetOf env.data = some task) := by
  have settled : s.pending = [] := holds.settled
  have unknown : s.targetOf env.data = none := by
    rw [Resources.targetOf, lookup_of_fresh fresh.2.1, Option.bind_none]
  have denied (negative : ret < 0) : ¬env.Grants (AddBpParam.ofBytes (cells mem arg 16)) := by
    intro grants
    obtain ⟨_, same⟩ := addBp_of_grants grants s
    cases returned.symm.trans same
    omega
  cases Resources.adds_of_addBp fresh returned with
  | refused negative _ =>
      refine Or.inl ⟨negative, denied negative, ?_⟩
      rw [Resources.runPending_of_settled settled]
      exact ⟨holds, unknown⟩
  | fileFails negative _ =>
      refine Or.inl ⟨negative, denied negative, ?_⟩
      rw [Resources.runPending_of_settled (by exact settled)]
      exact ⟨holds.leave fresh.2.1, by simp [Resources.targetOf, OwnedData.zeroed]⟩
  | eventFails negative _ =>
      refine Or.inl ⟨negative, denied negative, ?_⟩
      rw [Resources.runPending_of_eventFails settled fresh.2.1]
      exact ⟨holds, unknown⟩
  | added _ _ =>
      obtain ⟨task, found, event, same, left⟩ :=
        added_of_addBp fresh returned (Int.natCast_nonneg env.fd)
      refine Or.inr ⟨task, found, event, same, ?_⟩
      rw [left, Resources.runPending_of_settled (by exact settled)]
      exact ⟨holds.add fresh task, by simp [Resources.targetOf]⟩

/-- A file is closed in the same way whatever other private data there is. -/
theorem close_withData {fd privateData : Nat} {owned : OwnedData}
    {data : List (Nat × OwnedData)} (settled : s.Settled)
    (file : s.fds.lookup fd = some (.bpFile privateData))
    (own : s.data.lookup privateData = some owned) (same : data.lookup privateData = some owned)
    : (Resources.closeFd { s with data := data } fd).runPending
      = { (s.closeFd fd).runPending with data := data.filter (·.1 ≠ privateData) } := by
  have settled : s.pending = [] := settled
  obtain ⟨event, task⟩ := owned
  simp only [Resources.closeFd, file, Resources.runPending, settled, List.foldl_cons,
    List.foldl_nil, Resources.rwmemBpRelease, own, same]
  cases event <;> cases task <;> rfl

/-- The keys that are left where one is taken away lead where they led. -/
theorem lookup_filter_ne {β : Type} {key other : Nat} {entries : List (Nat × β)}
    (apart : key ≠ other)
    : (entries.filter (·.1 ≠ other)).lookup key = entries.lookup key := by
  induction entries with
  | nil => rfl
  | cons entry rest ih =>
      obtain ⟨k, value⟩ := entry
      by_cases here : k = other
      · subst here
        rw [List.filter_cons_of_neg (by simp), ih, List.lookup_cons, beq_false_of_ne apart]
      · rw [List.filter_cons_of_pos (by simpa using here), List.lookup_cons, List.lookup_cons, ih]

/-- A breakpoint whose file is closed is not held any more. -/
theorem Holds.close {before after : List OpenBp} {bp : OpenBp}
    (holds : Holds others (before ++ bp :: after) s)
    : Holds others (before ++ after) (s.closeFd bp.fd).runPending := by
  have member : bp ∈ before ++ bp :: after := List.mem_append_right before List.mem_cons_self
  have own := holds.data bp member
  have file := holds.lookup_fd member
  rw [holds.fds_eq] at file
  have owned := lookup_map (fun bp : OpenBp => (⟨some bp.event, some bp.task⟩ : OwnedData))
    holds.apart.data member
  have closed := close_withData (s := Resources.holding others (before ++ bp :: after)) rfl file
    owned own
  rw [close_holding holds.apart, ← holds.rest] at closed
  rw [closed]
  refine ⟨holds.apart.remove, rfl, ?_⟩
  intro other left
  have apart := key_ne_of_nodup holds.apart.data left
  exact (lookup_filter_ne apart).trans (holds.data other (mem_of_mem_append left))

end RwMem.Breakpoint
