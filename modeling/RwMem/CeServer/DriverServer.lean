import RwMem.CeServer.HandleMemory
import RwMem.Server.ReadBack

/-! `CApi` with a driver behind its client: what its calls on processes and their memory come to.
-/

namespace RwMem.CeServer

open Collections Memory RwMem.Driver RwMem.Client RwMem.Server RwMem.Transfer Transition

-----------------------------------------------------------------------------------------
-- The server over a driver
-----------------------------------------------------------------------------------------

/-- `CApi` with the driver behind its client, and the number of its calls so far. -/
structure DriverServer (σ : Type) where
  api : ApiState
  turn : Nat
  driver : σ

/-- The arguments that `CApi` gives its driver client: no force, and a count that is 0 before. -/
def memoryRequest (hProcess address : Nat) (buffer : List UInt8) {nSize : Nat}
    (nSize_le : nSize ≤ 2 ^ 31 - 18)
    : MemoryRequest where
  hProcess := UInt64.ofNat hProcess
  lpBaseAddress := UInt64.ofNat address
  lpBuffer := userBuf buffer
  nSize := nSize
  lpNumberOfBytes := some 0
  bIsForce := 0
  nSize_le := nSize_le

section Server

variable {σ : Type} (client : MemoryDriver σ) (nDriverLink : Int)

/-- The environment with the driver client in a state of the driver. What it does with sizes that
its `int` lengths cannot hold is left to the environment.
-/
def onDriver (env : Environment) (d : σ) : Environment :=
  { env with
    readProcessMemory := fun hProcess address nSize buffer =>
      if nSize_le : nSize ≤ 2 ^ 31 - 18 then
        let result := (Server.readProcessMemory client nDriverLink
          (memoryRequest hProcess address buffer nSize_le) d).1
        (result.lpNumberOfBytes.getD 0, cells result.lpBuffer 0 buffer.length)
      else env.readProcessMemory hProcess address nSize buffer
    writeProcessMemory := fun hProcess address buffer =>
      if nSize_le : buffer.length ≤ 2 ^ 31 - 18 then
        match Server.writeProcessMemory client nDriverLink
          (memoryRequest hProcess address buffer nSize_le) d with
        | some (result, _) => result.lpNumberOfBytes.getD 0
        | none => env.writeProcessMemory hProcess address buffer
      else env.writeProcessMemory hProcess address buffer }

/-- The call of the driver client that a call of `CApi` makes. -/
def driverCall (s : ApiState) : ApiCall → Option MemoryCall
  | .readProcessMemory hProcess address size =>
      (s.processOf hProcess).join.bind (fun process =>
        if nSize_le : toUint64 (toInt size) ≤ 2 ^ 31 - 18 then
          some (.read (memoryRequest process.u64DriverProcessHandle address
            (List.replicate size 0) nSize_le))
        else none)
  | .writeProcessMemory hProcess address buffer =>
      (s.processOf hProcess).join.bind (fun process =>
        if nSize_le : buffer.length ≤ 2 ^ 31 - 18 then
          some (.write (memoryRequest process.u64DriverProcessHandle address buffer nSize_le))
        else none)
  | _ => none

/-- What a call is answered with, and the server behind it. -/
def driverAnswer (env : Nat → Environment) (call : ApiCall) (s : DriverServer σ)
    : call.Reply × DriverServer σ :=
  let answered := s.api.answer (onDriver client nDriverLink (env s.turn) s.driver) call
  ((answered.map Prod.fst).getD (failAll call ()).1,
    { api := (answered.map Prod.snd).getD s.api
      turn := s.turn + 1
      driver :=
        ((driverCall s.api call).bind (fun c => plainCall client nDriverLink c s.driver)).elim
          s.driver Prod.snd })

end Server

-----------------------------------------------------------------------------------------
-- Handles
-----------------------------------------------------------------------------------------

theorem handleOf_lt (rd : UInt32) : handleOf rd < 2 ^ 31 := by
  have bound := rd.toNat_lt
  have small : toInt ((10000 + rd.toNat / 1000 : Nat) : Int) = (10000 + rd.toNat / 1000 : Nat) :=
    Int.bmod_eq_of_le (by omega) (by omega)
  rw [handleOf, small, if_neg (by omega)]
  omega

theorem pickHandle_lt {handles : OrderedMap Int HandleInfo} {random : List UInt32} {h : Int}
    (picked : pickHandle handles random = some h)
    : h < 2 ^ 31 := by
  induction random with
  | nil => cases picked
  | cons rd rest ih =>
      rw [pickHandle] at picked
      split at picked
      · exact ih picked
      · obtain rfl := Option.some.inj picked
        exact handleOf_lt rd

theorem newHandle_lt {s t : ApiState} {supply : Supply} {object : Object} {h : Int}
    (made : s.newHandle supply object = some (h, t))
    : h < 2 ^ 31 := by
  obtain ⟨s', allocated, opened⟩ := Option.bind_eq_some_iff.mp made
  obtain ⟨_, same⟩ := Option.ite_none_right_eq_some.mp allocated
  obtain ⟨handle, picked, same'⟩ := Option.map_eq_some_iff.mp opened
  cases same
  obtain rfl := congrArg Prod.fst same'
  exact pickHandle_lt picked

/-- `OpenProcess` answers the handle that the process has, 0 for the process 0, or a new handle for
a process that has none.
-/
theorem TableOk.openProcess_answers {s : ApiState} (ok : TableOk s) {supply : Supply}
    (supplied : Supplied s supply) (pid : Int)
    : ∃ h t,
        s.openProcess supply pid = some (h, t)
        ∧ ((t = s ∧ Refers s h pid)
          ∨ (t = s ∧ h = 0 ∧ toUint64 pid = 0)
          ∨ (toUint64 pid ≠ 0
            ∧ (∀ j, ¬Refers s j pid)
            ∧ s.newHandle supply (.openProcess ⟨pid, toUint64 pid, [], 0⟩) = some (h, t))) := by
  obtain ⟨hm, found⟩ := ok.exists_findInEntries pid (fun _ member => member)
  have searched : s.findHandleByPID pid = some hm := found
  by_cases absent : hm = 0
  · subst absent
    have unknown := not_refers_of_findHandleByPID ok searched
    by_cases zero : toUint64 pid = 0
    · refine ⟨0, s, ?_, Or.inr (Or.inl ⟨rfl, rfl, zero⟩)⟩
      rw [ApiState.openProcess, searched, Option.bind_some, if_neg (not_not_intro rfl)]
      exact if_pos zero
    · obtain ⟨⟨h, t⟩, made⟩ :=
        supplied.exists_newHandle (.openProcess ⟨pid, toUint64 pid, [], 0⟩)
      refine ⟨h, t, ?_, Or.inr (Or.inr ⟨zero, unknown, made⟩)⟩
      rw [ApiState.openProcess, searched, Option.bind_some, if_neg (not_not_intro rfl)]
      exact (if_neg zero).trans made
  · refine ⟨hm, s, ?_, Or.inl ⟨rfl, findHandleByPID_spec searched absent⟩⟩
    rw [ApiState.openProcess, searched, Option.bind_some, if_pos absent]

/-- Behind `CloseHandle` the other handles are for their processes, and no others. -/
theorem TableOk.closeHandle_answers {s : ApiState} (ok : TableOk s) (h : Int)
    : ∃ t,
        s.closeHandle h = some t
        ∧ t.handles = s.handles.erase h
        ∧ ∀ j pid, Refers t j pid ↔ j ≠ h ∧ Refers s j pid := by
  cases found : s.handles.find? h with
  | none =>
      refine ⟨s.removeHandle h, closeHandle_of_absent found, rfl, fun j pid => ⟨?_, ?_⟩⟩
      · intro refers
        refine ⟨fun same => ?_, refers.of_removeHandle⟩
        subst same
        exact not_refers_erase refers
      · exact fun ⟨other, refers⟩ => refers.removeHandle other
  | some info =>
      refine ⟨_, closeHandle_of_find ok found, rfl, fun j pid => ⟨?_, ?_⟩⟩
      · intro refers
        refine ⟨fun same => ?_, refers.of_erase ok found⟩
        subst same
        exact not_refers_erase refers
      · exact fun ⟨other, refers⟩ => Refers.erase ok found other refers

theorem toUint64_eq_zero_iff {pid : Int32} : toUint64 pid.toInt = 0 ↔ pid = 0 := by
  have low := pid.le_toInt
  have high := pid.toInt_lt
  constructor
  · intro zero
    rw [toUint64] at zero
    have none : pid.toInt = 0 := by omega
    exact Int32.toInt_inj.mp none
  · intro zero
    subst zero
    rfl

-----------------------------------------------------------------------------------------
-- The calls of the driver client
-----------------------------------------------------------------------------------------

section Requests

variable {g : PageGeometry} {nDriverLink : Int} {targets : Nat → Targets} {m : HandleMemory}
variable {pid : Int32} {address : UInt64} {buffer : List UInt8} {nSize : Nat}

theorem toNat_ofNat_toUint64 (n : Int) : (UInt64.ofNat (toUint64 n)).toNat = toUint64 n := by
  have small : toUint64 n < 2 ^ 64 := by
    rw [toUint64]
    omega
  rw [UInt64.toNat_ofNat', Nat.mod_eq_of_lt small]

/-- The driver finds the process by the low 32 bits of its handle. -/
theorem pid_memoryRequest (pid : Int32) (address : Nat) (buffer : List UInt8)
    (nSize_le : nSize ≤ 2 ^ 31 - 18)
    : (memoryRequest (toUint64 pid.toInt) address buffer nSize_le).pid = pid := by
  apply Int32.toInt_inj.mp
  have low := pid.le_toInt
  have high := pid.toInt_lt
  rw [MemoryRequest.pid, memoryRequest, toNat_ofNat_toUint64, Int32.toInt_ofNat', toUint64,
    Int.toNat_of_nonneg (by omega)]
  have word : (pid.toInt % 2 ^ 64).bmod (2 ^ 32) = pid.toInt.bmod (2 ^ 32) := by
    rw [Int.bmod_def, Int.bmod_def]
    omega
  exact word.trans (Int.bmod_eq_of_le (by omega) (by omega))

variable (nDriverLink address buffer) in
theorem isRefused_memoryRequest (process : pid ≠ 0) (nSize_le : nSize ≤ 2 ^ 31 - 18)
    : (memoryRequest (toUint64 pid.toInt) address.toNat buffer nSize_le).IsRefused nDriverLink
      ↔ nDriverLink < 0 ∨ address = 0 ∨ nSize = 0 := by
  have handle : UInt64.ofNat (toUint64 pid.toInt) ≠ 0 := by
    intro zero
    have none := congrArg UInt64.toNat zero
    rw [toNat_ofNat_toUint64] at none
    exact process (toUint64_eq_zero_iff.mp none)
  simp only [MemoryRequest.IsRefused, memoryRequest, UInt64.ofNat_toNat, handle, false_or]
  tauto

variable (g nDriverLink targets address buffer) in
/-- A step of the machine of the targets is a read through the handle. -/
theorem remoteStep_read {handle : Int32} (opened : m.opened handle.toInt = some pid)
    (process : pid ≠ 0) (nSize_le : nSize ≤ 2 ^ 31 - 18) (fresh : Nat → UInt8)
    : let r := memoryRequest (toUint64 pid.toInt) address.toNat buffer nSize_le
      let (bytes, next) := m.read g nDriverLink targets handle address nSize
      remoteStep g nDriverLink targets m.remote (.call (.read r) fresh)
          = (if bytes.length = 0 then .failed else .read bytes (some bytes.length), next.remote)
        ∧ next.opened = m.opened := by
  have refused := isRefused_memoryRequest nDriverLink address buffer process nSize_le
  simp only [HandleMemory.read, opened, remoteStep]
  by_cases idle : nDriverLink < 0 ∨ address = 0 ∨ nSize = 0
  · rw [if_pos (refused.mpr idle), if_pos idle]
    exact ⟨rfl, rfl⟩
  · rw [if_neg (mt refused.mp idle), if_neg idle, pid_memoryRequest]
    refine ⟨Prod.ext ?_ rfl, rfl⟩
    have address' : (memoryRequest (toUint64 pid.toInt) address.toNat buffer
        nSize_le).lpBaseAddress = address := UInt64.ofNat_toNat
    rw [address']
    change MemoryRequest.readOutcome _
      (remoteRead g _ _ pid address false (min nSize (maxRwCount g))) = _
    cases remoteRead g (targets m.remote.calls) m.remote.mem pid address false
      (min nSize (maxRwCount g)) with
    | error e => rfl
    | ok bytes => rfl

variable (g nDriverLink targets address) in
/-- So is a write. -/
theorem remoteStep_write {handle : Int32} (opened : m.opened handle.toInt = some pid)
    (process : pid ≠ 0) (nSize_le : buffer.length ≤ 2 ^ 31 - 18) (fresh : Nat → UInt8)
    : let r := memoryRequest (toUint64 pid.toInt) address.toNat buffer nSize_le
      let (n, next) := m.write g nDriverLink targets handle address buffer
      remoteStep g nDriverLink targets m.remote (.call (.write r) fresh)
          = (if n = 0 then .failed else .wrote n (some n), next.remote)
        ∧ next.opened = m.opened := by
  have refused := isRefused_memoryRequest nDriverLink address buffer process nSize_le
  simp only [HandleMemory.write, opened, remoteStep]
  by_cases idle : nDriverLink < 0 ∨ address = 0 ∨ buffer.length = 0
  · rw [if_pos (refused.mpr idle), if_pos idle]
    exact ⟨rfl, rfl⟩
  · rw [if_neg (mt refused.mp idle), if_neg idle, pid_memoryRequest]
    have address' : (memoryRequest (toUint64 pid.toInt) address.toNat buffer
        nSize_le).lpBaseAddress = address := UInt64.ofNat_toNat
    have payload : (memoryRequest (toUint64 pid.toInt) address.toNat buffer nSize_le).payload
        = buffer := by
      have front := cells_userBuf buffer []
      rwa [List.append_nil] at front
    have unforced : (memoryRequest (toUint64 pid.toInt) address.toNat buffer nSize_le).isForce
        = false := rfl
    rw [address', payload, unforced]
    refine ⟨Prod.ext ?_ rfl, rfl⟩
    dsimp only
    cases (remoteWrite g (targets m.remote.calls) m.remote.mem pid address false
      (buffer.take (maxRwCount g))).1 with
    | error e => rfl
    | ok n => rfl

variable (g nDriverLink targets) in
theorem length_read_le (m : HandleMemory) (handle : Int32) (address : UInt64) (size : Nat)
    : (m.read g nDriverLink targets handle address size).1.length ≤ size := by
  rw [HandleMemory.read]
  split
  · exact Nat.zero_le size
  · split
    · exact Nat.zero_le size
    · dsimp only
      rw [remoteRead]
      split
      · exact Nat.zero_le size
      · split
        · exact Nat.zero_le size
        · next t _ _ =>
            have length := length_read g t.space m.remote.mem address false
              (min size (maxRwCount g))
            have front := (isFront_frontLength ((t.space.mapping g).goesOn (addrRange address)
              (t.space.mapping g).canRead false) (min size (maxRwCount g))).le
            exact Nat.le_trans (Nat.le_of_eq length) (Nat.le_trans front (Nat.min_le_left _ _))

variable (g nDriverLink targets) in
theorem write_le (m : HandleMemory) (handle : Int32) (address : UInt64) (buf : List UInt8)
    : (m.write g nDriverLink targets handle address buf).1 ≤ buf.length := by
  rw [HandleMemory.write]
  split
  · exact Nat.zero_le _
  · split
    · exact Nat.zero_le _
    · dsimp only
      rw [remoteWrite]
      split
      · exact Nat.zero_le _
      · split
        · exact Nat.zero_le _
        · next t _ _ =>
            have front := (isFront_frontLength ((t.space.mapping g).goesOn (addrRange address)
              (t.space.mapping g).canWrite false) (buf.take (maxRwCount g)).length).le
            exact Nat.le_trans front (List.length_take_le' _ _)

end Requests

-----------------------------------------------------------------------------------------
-- What the driver client reports
-----------------------------------------------------------------------------------------

section Reports

variable {σ : Type} {client : MemoryDriver σ} {nDriverLink : Int} {d : σ} {r : MemoryRequest}
variable {fresh : Nat → UInt8}

theorem take_cells (mem : Nat → UInt8) {k n : Nat} (le : k ≤ n)
    : (cells mem 0 n).take k = cells mem 0 k := by
  obtain ⟨j, rfl⟩ := Nat.exists_eq_add_of_le le
  rw [cells_add, List.take_left' (length_cells _ _ _)]

/-- A call that fails leaves the count. -/
theorem lpNumberOfBytes_of_failed_read
    (failed : (Server.readProcessMemory client nDriverLink r d).1.ret = false)
    : (Server.readProcessMemory client nDriverLink r d).1.lpNumberOfBytes = r.lpNumberOfBytes := by
  revert failed
  rw [Server.readProcessMemory]
  dsimp only
  split
  · exact fun _ => rfl
  · split <;> split <;> intro failed
    · rfl
    · contradiction
    · rfl
    · contradiction

theorem lpNumberOfBytes_of_failed_write
    (failed : ((MemoryCall.write r).plainResult client nDriverLink d).ret = false)
    : ((MemoryCall.write r).plainResult client nDriverLink d).lpNumberOfBytes
      = r.lpNumberOfBytes := by
  revert failed
  rw [MemoryCall.plainResult]
  split
  · exact fun _ => rfl
  · rw [MemoryRequest.writeResult]
    split
    · exact fun _ => rfl
    · exact fun failed => absurd failed Bool.noConfusion

/-- So the count is that of the bytes that are in the buffer. -/
theorem reported_read {result : MemoryResult} {bytes : List UInt8}
    (left : result.ret = false → result.lpNumberOfBytes = some 0)
    (same
      : seen (.call (.read r) fresh) (some result)
        = if bytes.length = 0 then .failed else .read bytes (some bytes.length))
    : result.lpNumberOfBytes.getD 0 = bytes.length
      ∧ cells result.lpBuffer 0 bytes.length = bytes := by
  by_cases none : bytes.length = 0
  · rw [if_pos none, seen] at same
    split at same
    · contradiction
    · next failed =>
        rw [left (Bool.eq_false_of_not_eq_true failed), none]
        exact ⟨rfl, (List.length_eq_zero_iff.mp none).symm⟩
  · rw [if_neg none] at same
    obtain ⟨ok, _, whole⟩ := cells_of_seen same
    rw [seen, if_pos ok] at same
    injection same with _ number
    rw [number]
    exact ⟨rfl, whole⟩

theorem reported_write {result : MemoryResult} {n : Nat}
    (left : result.ret = false → result.lpNumberOfBytes = some 0)
    (same
      : seen (.call (.write r) fresh) (some result)
        = if n = 0 then .failed else .wrote n (some n))
    : result.lpNumberOfBytes.getD 0 = n := by
  by_cases none : n = 0
  · rw [if_pos none, seen] at same
    split at same
    · contradiction
    · next failed =>
        rw [left (Bool.eq_false_of_not_eq_true failed), none]
        rfl
  · rw [if_neg none, seen] at same
    split at same
    · injection same with _ number
      rw [number]
      rfl
    · contradiction

end Reports

-----------------------------------------------------------------------------------------
-- The calls of the server
-----------------------------------------------------------------------------------------

section Answers

variable {σ : Type} {client : MemoryDriver σ} {nDriverLink : Int} {env : Nat → Environment}
variable {s : DriverServer σ} {process : CeOpenProcess}

theorem toUint64_toInt {n : Nat} (small : n < 2 ^ 31) : toUint64 (toInt n) = n := by
  have int : toInt n = n := Int.bmod_eq_of_le (by omega) (by omega)
  rw [int, toUint64_natCast small]

theorem readProcessMemory_of_process {s : ApiState} {surroundings : Surroundings} {h : Int}
    {address size bread : Nat} {buffer : List UInt8}
    (here : s.processOf h = some (some process))
    (asked
      : surroundings.readProcessMemory process.u64DriverProcessHandle address
          (toUint64 (toInt size)) (List.replicate size 0)
        = (bread, buffer))
    : s.readProcessMemory surroundings h address size = some ⟨toInt bread, buffer⟩ := by
  rw [ApiState.readProcessMemory, here, Option.map_some]
  simp only [asked]

theorem writeProcessMemory_of_process {s : ApiState} {surroundings : Surroundings} {h : Int}
    {address n : Nat} {buf : List UInt8} (here : s.processOf h = some (some process))
    (asked
      : surroundings.writeProcessMemory process.u64DriverProcessHandle address buf = n)
    : s.writeProcessMemory surroundings h address buf = some (toInt n) := by
  rw [ApiState.writeProcessMemory, here, Option.map_some]
  simp only [asked]

/-- A call of `CApi` that calls the driver client. -/
theorem driverAnswer_of_called {call : ApiCall} {reply : call.Reply} {c : MemoryCall}
    {result : MemoryResult} {d : σ}
    (answered
      : s.api.answer (onDriver client nDriverLink (env s.turn) s.driver) call
        = some (reply, s.api))
    (made : driverCall s.api call = some c)
    (called : plainCall client nDriverLink c s.driver = some (result, d))
    : driverAnswer client nDriverLink env call s
      = (reply, { s with turn := s.turn + 1, driver := d }) := by
  rw [driverAnswer, answered, made, Option.bind_some, called]
  rfl

/-- A call that does not. -/
theorem driverAnswer_of_uncalled {call : ApiCall} {reply : call.Reply} {t : ApiState}
    (answered
      : s.api.answer (onDriver client nDriverLink (env s.turn) s.driver) call = some (reply, t))
    (made : driverCall s.api call = none)
    : driverAnswer client nDriverLink env call s
      = (reply, { s with api := t, turn := s.turn + 1 }) := by
  rw [driverAnswer, answered, made, Option.bind_none]
  rfl

variable (env) in
theorem driverAnswer_read {h : Int} {address size : Nat} (size_le : size ≤ 2 ^ 31 - 18)
    (here : s.api.processOf h = some (some process)) {result : MemoryResult} {d : σ}
    (got
      : Server.readProcessMemory client nDriverLink
          (memoryRequest process.u64DriverProcessHandle address (List.replicate size 0) size_le)
          s.driver
        = (result, d))
    : driverAnswer client nDriverLink env (.readProcessMemory h address size) s
      = ((⟨toInt (result.lpNumberOfBytes.getD 0 : Nat), cells result.lpBuffer 0 size⟩
            : ReadResult),
          { s with turn := s.turn + 1, driver := d }) := by
  have exact := toUint64_toInt (n := size) (by omega)
  have asked : (onDriver client nDriverLink (env s.turn) s.driver).readProcessMemory
      process.u64DriverProcessHandle address (toUint64 (toInt size)) (List.replicate size 0)
      = (result.lpNumberOfBytes.getD 0, cells result.lpBuffer 0 size) := by
    dsimp only [onDriver]
    generalize toUint64 (toInt size) = n at exact
    subst exact
    rw [dif_pos size_le, got, List.length_replicate]
  have read : s.api.readProcessMemory
      (onDriver client nDriverLink (env s.turn) s.driver).toSurroundings h address size
      = some ⟨toInt (result.lpNumberOfBytes.getD 0 : Nat), cells result.lpBuffer 0 size⟩ := by
    exact readProcessMemory_of_process here asked
  let r := memoryRequest process.u64DriverProcessHandle address (List.replicate size 0) size_le
  refine driverAnswer_of_called (c := .read r) (congrArg (Option.map fun o => (o, s.api)) read) ?_
    (congrArg some got)
  rw [driverCall, here, Option.join_some, Option.bind_some]
  generalize toUint64 (toInt size) = n at exact
  subst exact
  rw [dif_pos size_le]

variable (env) in
theorem driverAnswer_write {h : Int} {address : Nat} {buf : List UInt8}
    (length_le : buf.length ≤ 2 ^ 31 - 18) (here : s.api.processOf h = some (some process))
    {result : MemoryResult} {d : σ}
    (wrote
      : Server.writeProcessMemory client nDriverLink
          (memoryRequest process.u64DriverProcessHandle address buf length_le) s.driver
        = some (result, d))
    : driverAnswer client nDriverLink env (.writeProcessMemory h address buf) s
      = (toInt (result.lpNumberOfBytes.getD 0 : Nat),
          { s with turn := s.turn + 1, driver := d }) := by
  have asked : (onDriver client nDriverLink (env s.turn) s.driver).writeProcessMemory
      process.u64DriverProcessHandle address buf = result.lpNumberOfBytes.getD 0 := by
    dsimp only [onDriver]
    rw [dif_pos length_le, wrote]
  have written : s.api.writeProcessMemory
      (onDriver client nDriverLink (env s.turn) s.driver).toSurroundings h address buf
      = some (toInt (result.lpNumberOfBytes.getD 0 : Nat)) := by
    exact writeProcessMemory_of_process here asked
  let r := memoryRequest process.u64DriverProcessHandle address buf length_le
  refine driverAnswer_of_called (c := .write r)
    (congrArg (Option.map fun n => (n, s.api)) written) ?_ wrote
  rw [driverCall, here, Option.join_some, Option.bind_some, dif_pos length_le]

variable (client nDriverLink env) in
/-- A handle that is of no process reads and writes nothing. -/
theorem driverAnswer_read_refused {h : Int} (refused : s.api.processOf h = some none)
    (address size : Nat)
    : driverAnswer client nDriverLink env (.readProcessMemory h address size) s
      = ((⟨0, List.replicate size 0⟩ : ReadResult), { s with turn := s.turn + 1 }) := by
  refine driverAnswer_of_uncalled (t := s.api) ?_ ?_
  · rw [ApiState.answer, ApiState.readProcessMemory, refused]
    rfl
  · rw [driverCall, refused]
    rfl

variable (client nDriverLink env) in
theorem driverAnswer_write_refused {h : Int} (refused : s.api.processOf h = some none)
    (address : Nat) (buf : List UInt8)
    : driverAnswer client nDriverLink env (.writeProcessMemory h address buf) s
      = ((0 : Int), { s with turn := s.turn + 1 }) := by
  refine driverAnswer_of_uncalled (t := s.api) ?_ ?_
  · rw [ApiState.answer, ApiState.writeProcessMemory, refused]
    rfl
  · rw [driverCall, refused]
    rfl

end Answers

end RwMem.CeServer
