import RwMem.CeServer.DriverServer

/-! Sessions of commands on processes and their memory, from the bytes of a client down to the
memory of the targets and back.
-/

namespace RwMem.CeServer

open Collections Memory Memory.Decoder RwMem.Driver RwMem.Client RwMem.Server RwMem.Transfer
open Transition

-----------------------------------------------------------------------------------------
-- Stores of the targets
-----------------------------------------------------------------------------------------

/-- Memory behind stores of bytes. -/
def storeAll (mem : Nat → UInt8) (stores : List (Nat × UInt8)) : Nat → UInt8 :=
  stores.foldl (fun mem (a, b) => Function.update mem a b) mem

/-- The server behind stores that the targets make on their own. -/
def DriverServer.stored {P : Type} (s : DriverServer (KernelState P))
    (stores : List (Nat × UInt8))
    : DriverServer (KernelState P) :=
  { s with driver := { s.driver with phys := storeAll s.driver.phys stores } }

def HandleMemory.stored (m : HandleMemory) (stores : List (Nat × UInt8)) : HandleMemory :=
  { m with remote := { m.remote with mem := storeAll m.remote.mem stores } }

/-- The answers of a server beside which the targets run: before the `n`-th call they make the
`n`-th of these stores.
-/
def besideStores {P : Type} (stores : Nat → List (Nat × UInt8))
    (answer : (call : ApiCall) → DriverServer (KernelState P)
      → call.Reply × DriverServer (KernelState P))
    (call : ApiCall) (s : DriverServer (KernelState P))
    : call.Reply × DriverServer (KernelState P) :=
  answer call (s.stored (stores s.turn))

/-- What a command is answered with beside the targets, in a machine with the number of the calls
so far. A command without a call, such as an empty write, does not wait for them.
-/
inductive HandleMemory.MayServe (g : PageGeometry) (nDriverLink : Int) (targets : Nat → Targets)
    (stores : Nat → List (Nat × UInt8))
    : HandleMemory × Nat → MemoryCommand → Values → HandleMemory × Nat → Prop
    where
  | called {m u : HandleMemory} {turn : Nat} {c : MemoryCommand} {values : Values}
      (calls : c.call ≠ none)
      (may : (m.stored (stores turn)).MayAnswer g nDriverLink targets c values u)
      : MayServe g nDriverLink targets stores (m, turn) c values (u, turn + 1)
  | uncalled {m u : HandleMemory} {turn : Nat} {c : MemoryCommand} {values : Values}
      (idle : c.call = none) (may : m.MayAnswer g nDriverLink targets c values u)
      : MayServe g nDriverLink targets stores (m, turn) c values (u, turn)

-----------------------------------------------------------------------------------------
-- One command
-----------------------------------------------------------------------------------------

/-- The server stands for the machine: a handle is open for a process exactly if its pointer leads
to it, and the kernel has the memory of the targets.
-/
structure Stands {P : Type} (ptes : P → PteBits) (s : DriverServer (KernelState P))
    (m : HandleMemory)
    : Prop where
  table : TableOk s.api
  numbers : ∀ h info, s.api.handles.find? h = some info → h < 2 ^ 31
  refers : ∀ h (pid : Int32), m.opened h = some pid → pid ≠ 0 ∧ Refers s.api h pid.toInt
  covers : ∀ h pid, Refers s.api h pid → ∃ p : Int32, m.opened h = some p ∧ p.toInt = pid
  kernel : Holds ptes s.driver m.remote

/-- A server without handles. -/
theorem stands_initial {P : Type} {ptes : P → PteBits} (calls : Nat) (mem : Nat → UInt8)
    : Stands ptes ⟨.initial, 0, ⟨calls, ptes, mem⟩⟩ ⟨fun _ => none, ⟨calls, mem⟩⟩ where
  table := tableOk_initial
  numbers _ _ found := by cases found
  refers _ _ listed := by cases listed
  covers h pid refers := by
    obtain ⟨_, ⟨_, found, _⟩, _⟩ := refers
    cases found
  kernel := { calls := rfl, phys := rfl, ptes := rfl }

section Commands

variable {P : Type} {g : PageGeometry} {ptes : P → PteBits} {targets : Nat → Targets}
variable {nDriverLink : Int} {s s' : DriverServer (KernelState P)} {m u : HandleMemory}

theorem Stands.turn (stands : Stands ptes s m) : Stands ptes { s with turn := s.turn + 1 } m where
  table := stands.table
  numbers := stands.numbers
  refers := stands.refers
  covers := stands.covers
  kernel := stands.kernel

/-- The targets store to the memory that both have. -/
theorem Stands.stored (stands : Stands ptes s m) (stores : List (Nat × UInt8))
    : Stands ptes (s.stored stores) (m.stored stores) where
  table := stands.table
  numbers := stands.numbers
  refers := stands.refers
  covers := stands.covers
  kernel :=
    { calls := stands.kernel.calls
      phys := congrArg (storeAll · stores) stands.kernel.phys
      ptes := stands.kernel.ptes }

/-- A new handle for a process that has none. -/
theorem Stands.opened (stands : Stands ptes s m) {h : Int} {pid : Int32} {t : ApiState}
    {supply : Supply} (process : pid ≠ 0)
    (made
      : s.api.newHandle supply (.openProcess ⟨pid.toInt, toUint64 pid.toInt, [], 0⟩)
        = some (h, t))
    : Stands ptes { s with api := t, turn := s.turn + 1 }
        { m with opened := Function.update m.opened h (some pid) } := by
  have small := newHandle_lt made
  obtain ⟨absent, pos, fresh, rfl⟩ := newHandle_cases made
  refine { table := ?_, numbers := ?_, refers := ?_, covers := ?_, kernel := stands.kernel }
  · refine stands.table.insert _ absent pos fresh (fun process same => ?_)
    cases same
    rfl
  · intro j info found
    rw [OrderedMap.find?_insert absent] at found
    split at found
    · next same => rwa [same]
    · exact stands.numbers j info found
  · intro j p (listed : Function.update m.opened h (some pid) j = some p)
    by_cases same : j = h
    · subst same
      rw [Function.update_self] at listed
      cases listed
      exact ⟨process, refers_insert _ absent⟩
    · rw [Function.update_of_ne same] at listed
      obtain ⟨nonzero, refers⟩ := stands.refers j p listed
      exact ⟨nonzero, refers.insert _ absent fresh⟩
  · intro j n refers
    rcases refers.of_insert stands.table absent fresh with ⟨rfl, process', same, named⟩ | old
    · cases same
      exact ⟨pid, Function.update_self _ _ _, named⟩
    · obtain ⟨p, listed, named⟩ := stands.covers j n old
      have other : j ≠ h := by
        rintro rfl
        obtain ⟨_, ⟨info, found, _⟩, _⟩ := old
        rw [absent] at found
        contradiction
      exact ⟨p, (Function.update_of_ne other _ _).trans listed, named⟩

/-- A handle is closed. -/
theorem Stands.closed (stands : Stands ptes s m) {h : Int} {t : ApiState}
    (closed : s.api.closeHandle h = some t) (erased : t.handles = s.api.handles.erase h)
    (others : ∀ j pid, Refers t j pid ↔ j ≠ h ∧ Refers s.api j pid)
    : Stands ptes { s with api := t, turn := s.turn + 1 }
        { m with opened := Function.update m.opened h none } := by
  refine { table := ?_, numbers := ?_, refers := ?_, covers := ?_, kernel := stands.kernel }
  · exact (effect_of_closeHandle stands.table closed).tableOk stands.table
  · intro j info found
    dsimp only at found
    rw [erased, OrderedMap.find?_erase] at found
    split at found
    · contradiction
    · exact stands.numbers j info found
  · intro j p (listed : Function.update m.opened h none j = some p)
    by_cases same : j = h
    · subst same
      rw [Function.update_self] at listed
      contradiction
    · rw [Function.update_of_ne same] at listed
      obtain ⟨nonzero, refers⟩ := stands.refers j p listed
      exact ⟨nonzero, (others j p.toInt).mpr ⟨same, refers⟩⟩
  · intro j n refers
    obtain ⟨other, old⟩ := (others j n).mp refers
    obtain ⟨p, listed, named⟩ := stands.covers j n old
    exact ⟨p, (Function.update_of_ne other _ _).trans listed, named⟩

/-- A call of the driver. -/
theorem Stands.called (stands : Stands ptes s m) {d : KernelState P} {next : HandleMemory}
    (holds : Holds ptes d next.remote) (same : next.opened = m.opened)
    : Stands ptes { s with turn := s.turn + 1, driver := d } next where
  table := stands.table
  numbers := stands.numbers
  refers h pid listed := stands.refers h pid (same ▸ listed)
  covers h pid refers := by
    rw [same]
    exact stands.covers h pid refers
  kernel := holds

/-- A handle that is open for a process leads to it. -/
theorem Stands.processOf (stands : Stands ptes s m) {h : Int} {pid : Int32}
    (opened : m.opened h = some pid)
    : ∃ process,
        s.api.processOf h = some (some process)
        ∧ process.u64DriverProcessHandle = toUint64 pid.toInt := by
  obtain ⟨process, here, named⟩ := (stands.refers h pid opened).2
  refine ⟨process, processOf_eq_some.mpr here, ?_⟩
  obtain ⟨info, _, _, there⟩ := here
  rw [stands.table.driver info.p process there, named]

/-- The others are refused. -/
theorem Stands.processOf_none (stands : Stands ptes s m) {h : Int} (closed : m.opened h = none)
    : s.api.processOf h = some none := by
  obtain ⟨found, same⟩ := stands.table.exists_processOf h
  cases found with
  | none => exact same
  | some process =>
      obtain ⟨p, listed, _⟩ := stands.covers h process.pid ⟨process, processOf_eq_some.mp same, rfl⟩
      rw [closed] at listed
      contradiction

/-- The server answers a command as the machine may, with values that its reply has room for, and
stands for the machine again.
-/
structure Serves (g : PageGeometry) (nDriverLink : Int) (targets : Nat → Targets)
    (ptes : P → PteBits)
    (answer : (call : ApiCall) → DriverServer (KernelState P)
      → call.Reply × DriverServer (KernelState P))
    (s : DriverServer (KernelState P)) (m : HandleMemory) (c : MemoryCommand)
    : Prop where
  room : ∀ call, c.call = some call → AnswerFits answer s call
  may
    : ∃ u,
        m.MayAnswer g nDriverLink targets c (c.values answer s) u
        ∧ Stands ptes (stateBehind answer c.call s) u

variable {answer : (call : ApiCall) → DriverServer (KernelState P)
  → call.Reply × DriverServer (KernelState P)}

theorem serves_of_opened {pid : Int32} {h : Int}
    (answered : answer (.openProcess pid.toInt) s = (h, s')) (int : IsInt h)
    (may : m.MayAnswer g nDriverLink targets (.openProcess pid) (.number h) u)
    (stands : Stands ptes s' u)
    : Serves g nDriverLink targets ptes answer s m (.openProcess pid) := by
  refine { room := ?_, may := ⟨u, ?_, ?_⟩ }
  · rintro _ ⟨⟩
    change IsInt (answer (.openProcess pid.toInt) s).1
    rwa [answered]
  · rwa [MemoryCommand.values, answered]
  · change Stands ptes (answer (.openProcess pid.toInt) s).2 u
    rwa [answered]

theorem serves_of_read {handle : Int32} {address : UInt64} {size : Nat}
    (size_le : size ≤ 2 ^ 31 - 18) {bytes : List UInt8} {o : ReadResult}
    (answered : answer (.readProcessMemory handle.toInt address.toNat size) s = (o, s'))
    (got : m.read g nDriverLink targets handle address size = (bytes, u))
    (count : o.read = bytes.length) (length : o.buffer.length = size)
    (front : o.buffer.take bytes.length = bytes) (stands : Stands ptes s' u)
    : Serves g nDriverLink targets ptes answer s m
        (.readProcessMemory handle address size size_le) := by
  have short := length_read_le g nDriverLink targets m handle address size
  rw [got] at short
  dsimp only at short
  have fits : IsInt o.read ∧ 0 ≤ o.read ∧ o.read ≤ size ∧ o.buffer.length = size := by
    rw [count]
    exact ⟨⟨by omega, by omega⟩, by omega, by omega, length⟩
  refine { room := ?_, may := ⟨u, ?_, ?_⟩ }
  · rintro _ ⟨⟩
    change ApiCall.ReplyFits _ (answer (.readProcessMemory handle.toInt address.toNat size) s).1
    rw [answered]
    exact fits
  · rw [MemoryCommand.values, answered]
    dsimp only
    rw [count, Int.toNat_natCast, front]
    exact .read size_le got
  · change Stands ptes (answer (.readProcessMemory handle.toInt address.toNat size) s).2 u
    rwa [answered]

theorem serves_of_written {handle : Int32} {address : UInt64} {buf : List UInt8}
    (length_le : buf.length ≤ 2 ^ 31 - 18) {n : Nat} (some_ : buf.length ≠ 0)
    (answered : answer (.writeProcessMemory handle.toInt address.toNat buf) s = ((n : Int), s'))
    (got : m.write g nDriverLink targets handle address buf = (n, u)) (stands : Stands ptes s' u)
    : Serves g nDriverLink targets ptes answer s m
        (.writeProcessMemory handle address buf length_le) := by
  have short := write_le g nDriverLink targets m handle address buf
  rw [got] at short
  dsimp only at short
  have called : MemoryCommand.call (.writeProcessMemory handle address buf length_le)
      = some (.writeProcessMemory handle.toInt address.toNat buf) := if_pos some_
  refine { room := ?_, may := ⟨u, ?_, ?_⟩ }
  · intro call same
    cases called.symm.trans same
    change IsInt (answer (.writeProcessMemory handle.toInt address.toNat buf) s).1
    rw [answered]
    exact ⟨by omega, by omega⟩
  · rw [MemoryCommand.values, if_pos some_, answered]
    exact .written length_le got
  · rw [called]
    change Stands ptes (answer (.writeProcessMemory handle.toInt address.toNat buf) s).2 u
    rwa [answered]

end Commands

-----------------------------------------------------------------------------------------
-- Sessions
-----------------------------------------------------------------------------------------

section Sessions

variable {P : Type} [DecidableEq P] {g : PageGeometry} {kernel : Nat → Kernel P}
variable {ptes : P → PteBits} {targets : Nat → Targets} {nDriverLink : Int}
variable {env : Nat → Environment} {s : DriverServer (KernelState P)} {m : HandleMemory}

theorem Stands.serves_openProcess (stands : Stands ptes s m) (pid : Int32)
    (supplied : Supplied s.api (env s.turn).supply)
    : Serves g nDriverLink targets ptes (driverAnswer (linuxDriver g kernel) nDriverLink env) s m
        (.openProcess pid) := by
  obtain ⟨h, t, opened, cases⟩ := stands.table.openProcess_answers supplied pid.toInt
  have answered : driverAnswer (linuxDriver g kernel) nDriverLink env (.openProcess pid.toInt) s
      = (h, { s with api := t, turn := s.turn + 1 }) := driverAnswer_of_uncalled opened rfl
  rcases cases with ⟨rfl, refers⟩ | ⟨rfl, rfl, zero⟩ | ⟨nonzero, unknown, made⟩
  · obtain ⟨p, listed, named⟩ := stands.covers h pid.toInt refers
    obtain rfl := Int32.toInt_inj.mp named
    obtain ⟨_, ⟨info, found, _⟩, _⟩ := refers
    have pos := stands.table.positive h info found
    exact serves_of_opened answered ⟨by omega, stands.numbers h info found⟩ (.known listed)
      stands.turn
  · obtain rfl := toUint64_eq_zero_iff.mp zero
    exact serves_of_opened answered isInt_zero .noProcess stands.turn
  · have process := mt toUint64_eq_zero_iff.mpr nonzero
    have small := newHandle_lt made
    obtain ⟨absent, pos, _, _⟩ := newHandle_cases made
    have free : m.opened h = none := by
      cases listed : m.opened h with
      | none => rfl
      | some p =>
          obtain ⟨_, ⟨info, found, _⟩, _⟩ := (stands.refers h p listed).2
          rw [absent] at found
          contradiction
    have others : ∀ j, m.opened j ≠ some pid := fun j listed =>
      unknown j (stands.refers j pid listed).2
    exact serves_of_opened answered ⟨by omega, small⟩ (.opened process pos free others)
      (stands.opened process made)

theorem Stands.serves_closeHandle (stands : Stands ptes s m) (handle : Int32)
    : Serves g nDriverLink targets ptes (driverAnswer (linuxDriver g kernel) nDriverLink env) s m
        (.closeHandle handle) := by
  obtain ⟨t, closed, erased, others⟩ := stands.table.closeHandle_answers handle.toInt
  have answered : driverAnswer (linuxDriver g kernel) nDriverLink env
      (.closeHandle handle.toInt) s = ((), { s with api := t, turn := s.turn + 1 }) :=
    driverAnswer_of_uncalled (congrArg (Option.map fun t => ((), t)) closed) rfl
  refine { room := ?_, may := ⟨_, .closed handle, ?_⟩ }
  · rintro _ ⟨⟩
    trivial
  · change Stands ptes (driverAnswer _ nDriverLink env (.closeHandle handle.toInt) s).2 _
    rw [answered]
    exact stands.closed closed erased others

theorem Stands.serves_read (stands : Stands ptes s m) (around : ServesCalls g kernel ptes targets)
    (handle : Int32) (address : UInt64) {size : Nat} (size_le : size ≤ 2 ^ 31 - 18)
    : Serves g nDriverLink targets ptes (driverAnswer (linuxDriver g kernel) nDriverLink env) s m
        (.readProcessMemory handle address size size_le) := by
  cases opened : m.opened handle.toInt with
  | none =>
      have answered := driverAnswer_read_refused (linuxDriver g kernel) nDriverLink env
        (stands.processOf_none opened) address.toNat size
      have got : m.read g nDriverLink targets handle address size = ([], m) := by
        rw [HandleMemory.read, opened]
      exact serves_of_read size_le answered got rfl List.length_replicate rfl stands.turn
  | some pid =>
      obtain ⟨process, here, named⟩ := stands.processOf opened
      have nonzero := (stands.refers _ pid opened).1
      let r := memoryRequest process.u64DriverProcessHandle address.toNat (List.replicate size 0)
        size_le
      have called := Option.some.inj (plainCall_eq (linuxDriver g kernel) nDriverLink (.read r)
        s.driver)
      have answered := driverAnswer_read env size_le here called
      have step := remoteStep_read g nDriverLink targets address (List.replicate size 0) opened
        nonzero size_le (fun _ => 0)
      cases got : m.read g nDriverLink targets handle address size with | mk bytes next =>
      have short := length_read_le g nDriverLink targets m handle address size
      rw [got] at step short
      dsimp only at step short
      rw [← named] at step
      let c := MemoryCall.read r
      have same : seen (.call c fun _ => 0) (some (c.plainResult _ nDriverLink s.driver)) = _ :=
        seen_plainResult around stands.kernel c _
      have holds : Holds ptes (c.next _ nDriverLink s.driver) _ :=
        holds_next around stands.kernel c (fun _ => 0)
      rw [step.1] at same holds
      have left : (c.plainResult (linuxDriver g kernel) nDriverLink s.driver).ret = false → _ :=
        lpNumberOfBytes_of_failed_read
      obtain ⟨count, front⟩ := reported_read left same
      have int : toInt (bytes.length : Nat) = bytes.length :=
        Int.bmod_eq_of_le (by omega) (by omega)
      rw [count, int] at answered
      exact serves_of_read size_le answered got rfl (length_cells _ _ _)
        ((take_cells _ short).trans front) (stands.called holds step.2)

theorem Stands.serves_write (stands : Stands ptes s m) (around : ServesCalls g kernel ptes targets)
    (handle : Int32) (address : UInt64) {buf : List UInt8} (length_le : buf.length ≤ 2 ^ 31 - 18)
    : Serves g nDriverLink targets ptes (driverAnswer (linuxDriver g kernel) nDriverLink env) s m
        (.writeProcessMemory handle address buf length_le) := by
  by_cases some_ : buf.length ≠ 0
  · cases opened : m.opened handle.toInt with
    | none =>
        have answered := driverAnswer_write_refused (linuxDriver g kernel) nDriverLink env
          (stands.processOf_none opened) address.toNat buf
        have got : m.write g nDriverLink targets handle address buf = (0, m) := by
          rw [HandleMemory.write, opened]
        exact serves_of_written length_le some_ answered got stands.turn
    | some pid =>
        obtain ⟨process, here, named⟩ := stands.processOf opened
        have nonzero := (stands.refers _ pid opened).1
        let r := memoryRequest process.u64DriverProcessHandle address.toNat buf length_le
        have called : Server.writeProcessMemory (linuxDriver g kernel) nDriverLink r s.driver = _ :=
          plainCall_eq (linuxDriver g kernel) nDriverLink (.write r) s.driver
        have answered := driverAnswer_write env length_le here called
        have step := remoteStep_write g nDriverLink targets address opened nonzero length_le
          (fun _ => 0)
        cases got : m.write g nDriverLink targets handle address buf with | mk n next =>
        have short := write_le g nDriverLink targets m handle address buf
        rw [got] at step short
        dsimp only at step short
        rw [← named] at step
        let c := MemoryCall.write r
        have same : seen (.call c fun _ => 0) (some (c.plainResult _ nDriverLink s.driver)) = _ :=
          seen_plainResult around stands.kernel c _
        have holds : Holds ptes (c.next _ nDriverLink s.driver) _ :=
          holds_next around stands.kernel c (fun _ => 0)
        rw [step.1] at same holds
        have count := reported_write lpNumberOfBytes_of_failed_write same
        have int : toInt (n : Nat) = n := Int.bmod_eq_of_le (by omega) (by omega)
        rw [count, int] at answered
        exact serves_of_written length_le some_ answered got (stands.called holds step.2)
  · have empty := not_not.mp some_
    have uncalled : MemoryCommand.call (.writeProcessMemory handle address buf length_le) = none :=
      if_neg some_
    have got : m.write g nDriverLink targets handle address buf = (0, m) := by
      rw [HandleMemory.write]
      split
      · rfl
      · rw [if_pos (Or.inr (Or.inr empty))]
    refine { room := ?_, may := ⟨m, ?_, ?_⟩ }
    · intro call same
      rw [uncalled] at same
      contradiction
    · rw [MemoryCommand.values, if_neg some_]
      exact .written length_le got
    · rw [uncalled]
      exact stands

/-- Every command is served as the machine may do it. -/
theorem Stands.serves (stands : Stands ptes s m) (around : ServesCalls g kernel ptes targets)
    {c : MemoryCommand}
    (supplied : ∀ pid, c = .openProcess pid → Supplied s.api (env s.turn).supply)
    : Serves g nDriverLink targets ptes (driverAnswer (linuxDriver g kernel) nDriverLink env) s m
        c := by
  cases c with
  | openProcess pid => exact stands.serves_openProcess pid (supplied pid rfl)
  | closeHandle handle => exact stands.serves_closeHandle handle
  | readProcessMemory handle address size size_le =>
      exact stands.serves_read around handle address size_le
  | writeProcessMemory handle address buf length_le =>
      exact stands.serves_write around handle address length_le

end Sessions

/-- One command on a server. -/
def memoryCommandStep {σ : Type} (answer : (call : ApiCall) → σ → call.Reply × σ) (s : σ)
    (c : MemoryCommand)
    : Values × σ :=
  (c.values answer s, stateBehind answer c.call s)

/-- A command that opens a process finds an address and a number for its handle. -/
def IsSupplied {σ : Type} (env : Nat → Environment) (s : DriverServer σ) (c : MemoryCommand)
    : Prop :=
  ∀ pid, c = .openProcess pid → Supplied s.api (env s.turn).supply

theorem isSupplied_of_ne {σ : Type} {env : Nat → Environment} {s : DriverServer σ}
    {c : MemoryCommand} (other : ∀ pid, c ≠ .openProcess pid)
    : IsSupplied env s c :=
  fun pid same => absurd same (other pid)

/-- The answers to commands arrive as they are. -/
theorem arrives_values {σ : Type} (answer : (call : ApiCall) → σ → call.Reply × σ) (s : σ)
    (c : MemoryCommand)
    : (c.values answer s).arrives = c.values answer s := by
  cases c with
  | writeProcessMemory handle address buf length_le =>
      rw [MemoryCommand.values]
      split <;> rfl
  | _ => rfl

section Stores

variable {P : Type} {stores : Nat → List (Nat × UInt8)}
variable {answer : (call : ApiCall) → DriverServer (KernelState P)
  → call.Reply × DriverServer (KernelState P)}

/-- A command is answered as behind the stores before its call. -/
theorem values_besideStores (s : DriverServer (KernelState P)) (c : MemoryCommand)
    : c.values (besideStores stores answer) s = c.values answer (s.stored (stores s.turn)) := by
  cases c <;> rfl

theorem answerFits_besideStores {s : DriverServer (KernelState P)} {call : ApiCall}
    (fits : AnswerFits answer (s.stored (stores s.turn)) call)
    : AnswerFits (besideStores stores answer) s call := by
  cases call <;> exact fits

/-- Without a call there is nothing to wait for. -/
theorem values_of_uncalled {σ : Type} (answer answer' : (call : ApiCall) → σ → call.Reply × σ)
    (s : σ) {c : MemoryCommand} (idle : c.call = none)
    : c.values answer s = c.values answer' s := by
  cases c with
  | writeProcessMemory handle address buf length_le =>
      have empty : ¬buf.length ≠ 0 := by
        intro some_
        rw [MemoryCommand.call, if_pos some_] at idle
        contradiction
      rw [MemoryCommand.values, MemoryCommand.values, if_neg empty, if_neg empty]
  | _ => contradiction

end Stores

variable {P : Type} [DecidableEq P] {g : PageGeometry} {kernel : Nat → Kernel P}
variable {ptes : P → PteBits} {targets : Nat → Targets} {nDriverLink : Int}
variable {env : Nat → Environment} {stores : Nat → List (Nat × UInt8)}

/-- Beside the targets every command is served as the machine may do it. -/
theorem Stands.serves_beside {s : DriverServer (KernelState P)} {m : HandleMemory}
    (stands : Stands ptes s m) (around : ServesCalls g kernel ptes targets) {c : MemoryCommand}
    (supplied : IsSupplied env s c)
    : let answer := besideStores stores (driverAnswer (linuxDriver g kernel) nDriverLink env)
      let behind := memoryCommandStep answer s c
      (∀ call, c.call = some call → AnswerFits answer s call)
      ∧ ∃ u,
          HandleMemory.MayServe g nDriverLink targets stores (m, s.turn) c behind.1 u
          ∧ Stands ptes behind.2 u.1
          ∧ u.2 = behind.2.turn := by
  intro answer behind
  let alone := driverAnswer (linuxDriver g kernel) nDriverLink env
  cases called : c.call with
  | none =>
      have served : Serves g nDriverLink targets ptes alone s m c := stands.serves around supplied
      obtain ⟨_, u, may, ends⟩ := served
      have state : behind.2 = s := congrArg (fun call => stateBehind answer call s) called
      rw [called] at ends
      rw [values_of_uncalled alone answer s called] at may
      rw [state]
      exact ⟨nofun, (u, s.turn), .uncalled called may, ends, rfl⟩
  | some call =>
      have served : Serves g nDriverLink targets ptes alone (s.stored (stores s.turn))
          (m.stored (stores s.turn)) c :=
        (stands.stored (stores s.turn)).serves around supplied
      obtain ⟨room, u, may, ends⟩ := served
      have values : behind.1 = c.values alone (s.stored (stores s.turn)) := values_besideStores s c
      have state : behind.2 = stateBehind alone (some call) (s.stored (stores s.turn)) :=
        congrArg (fun call => stateBehind answer call s) called
      rw [← values] at may
      rw [called, ← state] at ends
      have calls : c.call ≠ none := by
        rw [called]
        exact Option.some_ne_none call
      refine ⟨fun _ made => answerFits_besideStores (room _ (called.trans made)),
        (u, s.turn + 1), .called calls may, ends, ?_⟩
      rw [state]
      rfl

/-- Whatever the targets do between the calls: the replies have room in their records, and are
answers that processes by their handles over the memory of the targets may give, and the server
stands for what these then are.
-/
theorem replies_mayReply (around : ServesCalls g kernel ptes targets) (nDriverLink : Int)
    (env : Nat → Environment) (stores : Nat → List (Nat × UInt8))
    (s : DriverServer (KernelState P)) (m : HandleMemory) (stands : Stands ptes s m)
    (commands : List MemoryCommand)
    (supplied
      : GuardedReplies
          (memoryCommandStep
            (besideStores stores (driverAnswer (linuxDriver g kernel) nDriverLink env)))
          (IsSupplied env) s commands)
    : let answer := besideStores stores (driverAnswer (linuxDriver g kernel) nDriverLink env)
      let served := replies (askedStep answer) s (commands.map MemoryCommand.request)
      GuardedReplies (askedStep answer) (ReplyHasRoom answer) s
          (commands.map MemoryCommand.request)
      ∧ ∃ values u,
          served.1.map (fun values => values.map Values.arrives) = values.map some
          ∧ MayReply (HandleMemory.MayServe g nDriverLink targets stores) (m, s.turn) commands
              values u
          ∧ Stands ptes served.2 u.1 := by
  intro answer served
  have step : ∀ s (c : MemoryCommand), askedStep answer s c.request
      = (some (memoryCommandStep answer s c).1, (memoryCommandStep answer s c).2) :=
    fun s c => c.askedStep_request answer s
  have serves : ∀ s (m : HandleMemory × Nat) (c : MemoryCommand),
      (Stands ptes s m.1 ∧ m.2 = s.turn) → IsSupplied env s c →
      ReplyHasRoom answer s c.request
        ∧ ∃ u,
            HandleMemory.MayServe g nDriverLink targets stores m c (memoryCommandStep answer s c).1
              u
            ∧ Stands ptes (memoryCommandStep answer s c).2 u.1
            ∧ u.2 = (memoryCommandStep answer s c).2.turn := by
    rintro s ⟨m, turn⟩ c ⟨stands, same⟩ supplied
    dsimp only at stands same
    subst same
    obtain ⟨room, may⟩ := stands.serves_beside around supplied
    exact ⟨fun call same => room call (c.call_request ▸ same), may⟩
  have start : Stands ptes s (m, s.turn).1 ∧ (m, s.turn).2 = s.turn := ⟨stands, rfl⟩
  obtain ⟨room, u, may, ends, _⟩ := supplied.mayReply serves start
  have behind : ∀ s (c : MemoryCommand), (askedStep answer s c.request).2
      = (memoryCommandStep answer s c).2 := fun s c => congrArg Prod.snd (step s c)
  have same : served = _ := replies_map MemoryCommand.request some step s commands
  rw [same]
  refine ⟨(guardedReplies_map behind).mpr room, _, u, ?_, may, ends⟩
  rw [List.map_map]
  refine List.map_congr_left fun v member => ?_
  obtain ⟨t, c, rfl⟩ := exists_step_of_mem_replies member
  exact congrArg some (arrives_values answer t c)

/-- Whatever commands a client sends, however its stream is cut into packets and whatever the
targets store between the calls: the server closes the connection at the end, and what the client
decodes from its replies are answers that processes by their handles over the memory of the targets
may give, and the server stands for what these then are.
-/
theorem memorySession_mayReply (around : ServesCalls g kernel ptes targets) (nDriverLink : Int)
    (env : Nat → Environment) (stores : Nat → List (Nat × UInt8))
    (s : DriverServer (KernelState P)) (m : HandleMemory) (stands : Stands ptes s m)
    (commands : List MemoryCommand)
    (supplied
      : GuardedReplies
          (memoryCommandStep
            (besideStores stores (driverAnswer (linuxDriver g kernel) nDriverLink env)))
          (IsSupplied env) s commands)
    (packets : List (List UInt8))
    (cut : packets.flatten = stream (commands.map MemoryCommand.request))
    (turns : Nat) (enough : commands.length < turns)
    : ∃ x values u,
        serveSession
            (besideStores stores (driverAnswer (linuxDriver g kernel) nDriverLink env)) turns
            ⟨⟨packets, false, s⟩, []⟩
          = .ok x
        ∧ x.connection.closed = true
        ∧ whole (sessionDecoder (commands.map MemoryCommand.request)) x.sent
          = some (values.map some)
        ∧ MayReply (HandleMemory.MayServe g nDriverLink targets stores) (m, s.turn) commands
            values u
        ∧ Stands ptes x.connection.state u.1 := by
  let answer := besideStores stores (driverAnswer (linuxDriver g kernel) nDriverLink env)
  obtain ⟨rooms, values, u, arrives, may, ends⟩ :=
    replies_mayReply around nDriverLink env stores s m stands commands supplied
  have asked : ∀ r ∈ commands.map MemoryCommand.request, r.IsAsked := by
    intro r member
    obtain ⟨c, _, rfl⟩ := List.mem_map.mp member
    exact c.isAsked_request
  obtain ⟨x, ran, closed, final, decoded⟩ := session_decodes answer
    (commands.map MemoryCommand.request) asked s rooms packets cut turns
    (by rwa [List.length_map])
  exact ⟨x, values, u, ran, closed, decoded.trans (congrArg some arrives), may, final ▸ ends⟩

/-- Every process has one mapping, with its pages one frame up. -/
def mappedTargets (_ : Nat) (_ : Int32) : Option Target :=
  some ⟨some [⟨0, 2 ^ 32, true, true⟩], AddressSpace.oneUp⟩

def mappedKernel (g : PageGeometry) (_ : Nat) : Kernel Nat :=
  quietKernel g ⟨some [⟨0, 2 ^ 32, true, true⟩], AddressSpace.oneUp.walk g⟩

theorem servesCalls_mapped
    : let g := arm64.toPageGeometry
      ServesCalls g (mappedKernel g) AddressSpace.oneUp.ptes mappedTargets := by
  intro g
  exact { geometry := fun _ => rfl, serves := fun _ => serves_quietKernel g _ AddressSpace.oneUp }

theorem three_le : 3 ≤ 2 ^ 31 - 18 := by decide

/-- A process is opened, three bytes across a page end are written and read back, and the handle is
closed.
-/
def writeAndReadBack : List MemoryCommand :=
  [.openProcess 42, .writeProcessMemory 10000 0xfff [7, 8, 9] three_le,
    .readProcessMemory 10000 0xfff 3 three_le, .closeHandle 10000]

/-- Before the third call the process stores to the first of the three bytes. -/
def storesOnce : Nat → List (Nat × UInt8)
  | 2 => [(0x1fff, 5)]
  | _ => []

theorem memorySession_mayReply_mapped
    : let g := arm64.toPageGeometry
      let answer := besideStores storesOnce
        (driverAnswer (linuxDriver g (mappedKernel g)) 3 (fun _ => quietEnvironment 16 0))
      ∃ x values u,
        serveSession answer 5
            ⟨⟨[stream (writeAndReadBack.map MemoryCommand.request)], false,
              ⟨.initial, 0, ⟨0, AddressSpace.oneUp.ptes, UInt8.ofNat⟩⟩⟩, []⟩
          = .ok x
        ∧ x.connection.closed = true
        ∧ whole (sessionDecoder (writeAndReadBack.map MemoryCommand.request)) x.sent
          = some (values.map some)
        ∧ MayReply (HandleMemory.MayServe g 3 mappedTargets storesOnce)
            (⟨fun _ => none, ⟨0, UInt8.ofNat⟩⟩, 0) writeAndReadBack values u
        ∧ Stands AddressSpace.oneUp.ptes x.connection.state u.1 := by
  intro g answer
  have start : Stands AddressSpace.oneUp.ptes _ _ := stands_initial 0 UInt8.ofNat
  refine memorySession_mayReply servesCalls_mapped 3 _ storesOnce _ _ start writeAndReadBack ?_ _
    (List.append_nil _) 5 (by decide)
  refine guardedReplies_cons (fun _ _ => by decide) ?_
  refine guardedReplies_cons (isSupplied_of_ne fun _ => MemoryCommand.noConfusion) ?_
  refine guardedReplies_cons (isSupplied_of_ne fun _ => MemoryCommand.noConfusion) ?_
  exact guardedReplies_cons (isSupplied_of_ne fun _ => MemoryCommand.noConfusion)
    (guardedReplies_nil _)

end RwMem.CeServer
