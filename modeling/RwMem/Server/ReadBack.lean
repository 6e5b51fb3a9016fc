import RwMem.Server.RemoteMemory

/-! What was written to a target through the server is read back through the server, over any
calls in between that spare those bytes.
-/

namespace RwMem.Server

open Memory RwMem.Driver RwMem.Client RwMem.Transfer Transition

/-- The physical addresses that an action may store to. -/
def MayStore (g : PageGeometry) (targets : Nat → Targets) (t : RemoteState) (a : Nat)
    : RemoteAction → Prop
  | .store b _ => b = a
  | .call (.read _) _ => False
  | .call (.write r) _ =>
      ∃ target,
        targets t.calls r.pid = some target
        ∧ ∃ i < r.nSize, (target.space.mapping g).place (addrRange r.lpBaseAddress i) = some a

/-- An action spares the bytes of a range. -/
def Spares (g : PageGeometry) (targets : Nat → Targets) (target : Target) (addr : UInt64)
    (size : Nat) (t : RemoteState) (act : RemoteAction)
    : Prop :=
  ∀ i < size, ∀ a, (target.space.mapping g).place (addrRange addr i) = some a
    → ¬MayStore g targets t a act

variable {g : PageGeometry} {nDriverLink : Int} {targets : Nat → Targets} {t : RemoteState}

/-- A byte changes by an action that may store to it only. -/
theorem remoteStep_mem {a : Nat} {act : RemoteAction} (spared : ¬MayStore g targets t a act)
    : (remoteStep g nDriverLink targets t act).2.mem a = t.mem a := by
  cases act with
  | store b value =>
      have other : a ≠ b := fun same => spared same.symm
      exact Function.update_of_ne other value t.mem
  | call c fresh =>
      cases c with
      | read r =>
          simp only [remoteStep]
          split <;> rfl
      | write r =>
          simp only [remoteStep]
          split
          · rfl
          · simp only [remoteWrite]
            split
            · rfl
            · next target found =>
                split
                · rfl
                · apply Mapping.write_outside
                  intro i below there
                  refine spared ⟨target, found, i, ?_, there⟩
                  simp [MemoryRequest.payload] at below
                  omega

/-- A range of bytes is as it was behind a run of actions that all spare it. -/
theorem replies_mem {target : Target} {addr : UInt64} {size : Nat} {acts : List RemoteAction}
    (spares : GuardedReplies (remoteStep g nDriverLink targets)
      (Spares g targets target addr size) t acts)
    {i a : Nat} (below : i < size)
    (place : (target.space.mapping g).place (addrRange addr i) = some a)
    : (replies (remoteStep g nDriverLink targets) t acts).2.mem a = t.mem a := by
  refine replies_invariant (p := fun u => u.mem a = t.mem a) rfl ?_ spares
  intro u act same spared
  exact (remoteStep_mem (spared i below a place)).trans same

/-- A write to one target and a read of another, or of the same, that meet the same bytes: the
addresses of both lead to the same places, which lie apart, and the read gets through.
-/
structure SameBytes (g : PageGeometry) (written read : Target) (w r : MemoryRequest)
    : Prop where
  size : r.nSize = w.nSize
  fits : w.nSize ≤ maxRwCount g
  places
    : ∀ i < w.nSize,
        (read.space.mapping g).place (addrRange r.lpBaseAddress i)
        = (written.space.mapping g).place (addrRange w.lpBaseAddress i)
  apart
    : ∀ i < w.nSize, ∀ j < w.nSize,
        (written.space.mapping g).place (addrRange w.lpBaseAddress i)
          = (written.space.mapping g).place (addrRange w.lpBaseAddress j)
        → i = j
  permitted
    : r.isForce = false
      → checkProcMapCanRead read.mm r.lpBaseAddress.toNat r.nSize = true
        ∧ ∀ i < w.nSize, (read.space.mapping g).canRead (addrRange r.lpBaseAddress i) = true

theorem length_payload (r : MemoryRequest) : r.payload.length = r.nSize := length_cells _ _ _

theorem eq_of_writeOutcome {r : MemoryRequest} {answer : Except Int Nat} {n : Nat}
    {number : Option Nat} (wrote : r.writeOutcome answer = .wrote n number)
    : answer = .ok n ∧ n ≠ 0 := by
  cases answer with
  | error e => contradiction
  | ok m =>
      simp only [MemoryRequest.writeOutcome] at wrote
      by_cases none : m = 0
      · rw [if_pos none] at wrote
        contradiction
      · rw [if_neg none] at wrote
        injection wrote with same
        exact ⟨congrArg Except.ok same, same ▸ none⟩

/-- A write that was whole got through its range. -/
theorem whole_of_wrote {w : MemoryRequest} {written : Target} {fresh : Nat → UInt8}
    {number : Option Nat} (found : targets t.calls w.pid = some written)
    (fits : w.nSize ≤ maxRwCount g)
    (wrote : (remoteStep g nDriverLink targets t (.call (.write w) fresh)).1
      = .wrote w.nSize number)
    : w.nSize ≠ 0
      ∧ (written.space.mapping g).writeLength (addrRange w.lpBaseAddress) w.isForce
          w.payload.length = w.payload.length
      ∧ (remoteStep g nDriverLink targets t (.call (.write w) fresh)).2.mem
          = ((written.space.mapping g).write (addrRange w.lpBaseAddress) t.mem w.isForce
              w.payload).2 := by
  have taken : w.payload.take (maxRwCount g) = w.payload :=
    List.take_of_length_le (length_payload w ▸ fits)
  simp only [remoteStep, remoteWrite, found, taken] at wrote ⊢
  by_cases refused : w.IsRefused nDriverLink
  · rw [if_pos refused] at wrote
    contradiction
  · rw [if_neg refused] at wrote ⊢
    obtain ⟨answer, some⟩ := eq_of_writeOutcome wrote
    split at answer
    · contradiction
    · next permitted =>
        rw [if_neg permitted]
        injection answer with count
        exact ⟨some, count.trans (length_payload w).symm, rfl⟩

/-- A read of bytes that are all mapped gets through if it is forced or all may be read. -/
theorem readLength_eq {space : AddressSpace} {addr : UInt64} {force : Bool} {size : Nat}
    (mapped : ∀ i < size, ∃ a, (space.mapping g).place (addrRange addr i) = some a)
    (permitted : force = false → ∀ i < size, (space.mapping g).canRead (addrRange addr i) = true)
    : (space.mapping g).readLength (addrRange addr) force size = size := by
  have front := isFront_frontLength
    ((space.mapping g).goesOn (addrRange addr) (space.mapping g).canRead force) size
  by_contra short
  have below : (space.mapping g).readLength (addrRange addr) force size < size :=
    Nat.lt_of_le_of_ne front.le short
  have stops := front.stops below
  obtain ⟨a, place⟩ := mapped _ below
  rw [← Mapping.readLength, Mapping.goesOn, place] at stops
  cases force with
  | true => simp at stops
  | false => simp [permitted rfl _ below] at stops

/-- As long as nobody stores to the bytes that were written, they are read back. -/
theorem remote_readBack {u : RemoteState} {w r : MemoryRequest} {written read : Target}
    {fresh : Nat → UInt8} {number : Option Nat}
    (found : targets t.calls w.pid = some written) (found' : targets u.calls r.pid = some read)
    (same : SameBytes g written read w r) (accepted : ¬r.IsRefused nDriverLink)
    (wrote : (remoteStep g nDriverLink targets t (.call (.write w) fresh)).1
      = .wrote w.nSize number)
    (spared : ∀ i < w.nSize, ∀ a,
      (written.space.mapping g).place (addrRange w.lpBaseAddress i) = some a
      → u.mem a = (remoteStep g nDriverLink targets t (.call (.write w) fresh)).2.mem a)
    (fresh' : Nat → UInt8)
    : (remoteStep g nDriverLink targets u (.call (.read r) fresh')).1
      = .read w.payload (r.lpNumberOfBytes.map (fun _ => w.nSize)) := by
  obtain ⟨nonempty, whole, stored⟩ := whole_of_wrote found same.fits wrote
  have length := length_payload w
  have count : min r.nSize (maxRwCount g) = w.nSize := by
    rw [same.size]
    exact Nat.min_eq_left same.fits
  have mapped : ∀ i < w.nSize, ∃ a,
      (read.space.mapping g).place (addrRange r.lpBaseAddress i) = some a := by
    intro i below
    rw [same.places i below]
    exact Mapping.mapped_of_goesOn ((isFront_frontLength _ _).before i
      (by rw [← Mapping.writeLength, whole, length]; exact below))
  have through := readLength_eq mapped (fun unforced => (same.permitted unforced).2)
  have passes : (r.isForce = false
      && !checkProcMapCanRead read.mm r.lpBaseAddress.toNat w.nSize) = false := by
    cases unforced : r.isForce with
    | true => simp
    | false =>
        have permitted := (same.permitted unforced).1
        rw [same.size] at permitted
        simp [permitted]
  rw [stored] at spared
  rw [← length] at spared through
  have places := same.places
  have apart := same.apart
  rw [← length] at places apart
  have back := Mapping.read_write whole through places apart spared
  rw [length] at back
  simp only [remoteStep, if_neg accepted, remoteRead, found', count, passes, if_false,
    Bool.false_eq_true, MemoryRequest.readOutcome, back, length, if_neg nonempty]

-----------------------------------------------------------------------------------------
-- Runs
-----------------------------------------------------------------------------------------

/-- A run gets to its end, and if the write in its middle reported all its bytes, the read at its
end returns them.
-/
def ReadsBack {σ : Type} (step : σ → RemoteAction → Option (Option MemoryResult × σ)) (s : σ)
    (before : List RemoteAction) (w : MemoryRequest) (mid : List RemoteAction) (r : MemoryRequest)
    (fresh : Nat → UInt8)
    : Prop :=
  ∃ results u wrote got,
    answers step s (before ++ .call (.write w) fresh :: mid ++ [.call (.read r) fresh])
      = some (results, u)
    ∧ results[before.length]? = some (some wrote)
    ∧ results[before.length + 1 + mid.length]? = some (some got)
    ∧ (wrote.ret = true
      → wrote.reported = w.nSize
      → got.ret = true
        ∧ got.reported = r.nSize
        ∧ cells got.lpBuffer 0 r.nSize = w.payload)

/-- A call has an outcome of its own. -/
theorem remoteStep_call_ne_stored (c : MemoryCall) (fresh : Nat → UInt8)
    : (remoteStep g nDriverLink targets t (.call c fresh)).1 ≠ .stored := by
  cases c with
  | read r =>
      simp only [remoteStep]
      split
      · exact Outcome.noConfusion
      · simp only [MemoryRequest.readOutcome]
        split
        · exact Outcome.noConfusion
        · split <;> exact Outcome.noConfusion
  | write r =>
      simp only [remoteStep]
      split
      · exact Outcome.noConfusion
      · simp only [MemoryRequest.writeOutcome]
        split
        · exact Outcome.noConfusion
        · split <;> exact Outcome.noConfusion

/-- So something is seen of it. -/
theorem exists_of_seen {c : MemoryCall} {fresh : Nat → UInt8} {b : Option MemoryResult}
    (same : seen (.call c fresh) b = (remoteStep g nDriverLink targets t (.call c fresh)).1)
    : ∃ result, b = some result := by
  cases b with
  | none =>
      have stored : seen (.call c fresh) none = .stored := by cases c <;> rfl
      exact absurd (same.symm.trans stored) (remoteStep_call_ne_stored c fresh)
  | some result => exact ⟨result, rfl⟩

/-- A read whose outcome has bytes left them in the buffer of the caller. -/
theorem cells_of_seen {r : MemoryRequest} {fresh : Nat → UInt8} {result : MemoryResult}
    {bytes : List UInt8} {number : Option Nat}
    (same : seen (.call (.read r) fresh) (some result) = .read bytes number)
    : result.ret = true
      ∧ result.reported = bytes.length
      ∧ cells result.lpBuffer 0 bytes.length = bytes := by
  rw [seen] at same
  split at same
  · next ok =>
      injection same with same
      subst same
      rw [length_cells]
      exact ⟨ok, rfl, rfl⟩
  · contradiction

/-- A write in a run, later actions that spare its bytes, and a read of them, on any machine that
answers as the memory of the targets does.
-/
theorem readBack_of_simulates {σ : Type} {step : σ → RemoteAction → Option (Option MemoryResult × σ)}
    {related : σ → RemoteState → Prop}
    (simulates : Simulates step (remoteStep g nDriverLink targets) seen related) {s : σ}
    {t : RemoteState} (start : related s t) {before mid : List RemoteAction} {w r : MemoryRequest}
    {fresh : Nat → UInt8} {written read : Target}
    (found
      : targets (replies (remoteStep g nDriverLink targets) t before).2.calls w.pid = some written)
    (found'
      : targets
          (replies (remoteStep g nDriverLink targets) t
            (before ++ .call (.write w) fresh :: mid)).2.calls r.pid
        = some read)
    (same : SameBytes g written read w r) (accepted : ¬r.IsRefused nDriverLink)
    (spares
      : GuardedReplies (remoteStep g nDriverLink targets)
          (Spares g targets written w.lpBaseAddress w.nSize)
          (remoteStep g nDriverLink targets
            (replies (remoteStep g nDriverLink targets) t before).2 (.call (.write w) fresh)).2
          mid)
    : ReadsBack step s before w mid r fresh := by
  obtain ⟨results, u, ran, seenAll, -⟩ := simulates.run start
    (before ++ .call (.write w) fresh :: mid ++ [.call (.read r) fresh])
  have split : before ++ .call (.write w) fresh :: mid ++ [.call (.read r) fresh]
      = before ++ .call (.write w) fresh :: (mid ++ [.call (.read r) fresh]) := by simp
  obtain ⟨b, at', seenWrite⟩ := seen_at (split ▸ ran) (split ▸ seenAll)
  obtain ⟨c, at'', seenRead⟩ := seen_at ran seenAll
  obtain ⟨wrote, rfl⟩ := exists_of_seen seenWrite
  obtain ⟨got, rfl⟩ := exists_of_seen seenRead
  rw [List.length_append, List.length_cons] at at''
  refine ⟨results, u, wrote, got, ran, at', ?_, ?_⟩
  · rw [Nat.add_right_comm, Nat.add_assoc]
    exact at''
  · intro ok whole
    rw [seen, if_pos ok, whole] at seenWrite
    rw [replies_append, replies_cons] at seenRead found'
    rw [remote_readBack found found' same accepted seenWrite.symm ?_ fresh] at seenRead
    · obtain ⟨ok', count, bytes⟩ := cells_of_seen seenRead
      rw [length_payload] at count bytes
      rw [same.size]
      exact ⟨ok', count, bytes⟩
    · intro i below a place
      exact replies_mem spares below place

variable {P : Type} [DecidableEq P] {kernel : Nat → Kernel P} {ptes : P → PteBits}

/-- Whatever calls, processes and stores stand before a write and between it and a read, with both
forms of the functions: if the write reported all its bytes and what came in between spared them,
the read returns them.
-/
theorem serverRuns_readBack (serves : ServesCalls g kernel ptes targets) (nDriverLink : Int)
    (calls : Nat) (phys : Nat → UInt8) (before mid : List RemoteAction) (w r : MemoryRequest)
    (fresh : Nat → UInt8) (written read : Target)
    (found
      : let t := (replies (remoteStep g nDriverLink targets) ⟨calls, phys⟩ before).2
        targets t.calls w.pid = some written)
    (found'
      : let t := (replies (remoteStep g nDriverLink targets) ⟨calls, phys⟩
          (before ++ .call (.write w) fresh :: mid)).2
        targets t.calls r.pid = some read)
    (same : SameBytes g written read w r) (accepted : ¬r.IsRefused nDriverLink)
    (spares
      : let t := (replies (remoteStep g nDriverLink targets) ⟨calls, phys⟩ before).2
        GuardedReplies (remoteStep g nDriverLink targets)
          (Spares g targets written w.lpBaseAddress w.nSize)
          (remoteStep g nDriverLink targets t (.call (.write w) fresh)).2 mid)
    : ReadsBack (plainStep (linuxDriver g kernel) nDriverLink) ⟨calls, ptes, phys⟩
        before w mid r fresh
      ∧ ReadsBack (fastStep (linuxDriver g kernel) nDriverLink)
          ⟨.null, .null, ⟨calls, ptes, phys⟩⟩ before w mid r fresh := by
  have start : Holds ptes ⟨calls, ptes, phys⟩ ⟨calls, phys⟩ :=
    { calls := rfl, phys := rfl, ptes := rfl }
  let fast : FastState (KernelState P) := ⟨.null, .null, ⟨calls, ptes, phys⟩⟩
  have startFast : fast.Ok ∧ Holds ptes fast.driver ⟨calls, phys⟩ := ⟨⟨rfl, rfl⟩, start⟩
  constructor
  · exact readBack_of_simulates (plainStep_simulates serves nDriverLink) start found found' same
      accepted spares
  · exact readBack_of_simulates (fastStep_simulates serves nDriverLink) startFast found found' same
      accepted spares

/-- The three bytes are read back behind a store to another byte. -/
theorem serverRuns_readBack_oneUp
    : let g := arm64.toPageGeometry
      let driver := linuxDriver g (fun _ => quietKernel g (AddressSpace.oneUp.proc g))
      ReadsBack (plainStep driver 3) ⟨0, AddressSpace.oneUp.ptes, UInt8.ofNat⟩
        [.store 1 2] threeBytes [.store 0 1] threeBytes (fun _ => 0) := by
  intro g driver
  have same : SameBytes g ⟨none, AddressSpace.oneUp⟩ ⟨none, AddressSpace.oneUp⟩ threeBytes
      threeBytes := by
    refine { size := rfl, fits := by decide, places := fun _ _ => rfl, apart := by decide,
             permitted := fun unforced => absurd unforced (by decide) }
  refine (serverRuns_readBack servesCalls_oneUp 3 0 UInt8.ofNat [.store 1 2] [.store 0 1]
    threeBytes threeBytes (fun _ => 0) _ _ rfl rfl same (by decide) ?_).1
  intro t before act after split
  cases before with
  | nil =>
      cases split
      have apart : ∀ i < 3, (AddressSpace.oneUp.mapping g).place (addrRange 0xfff i) ≠ some 0 := by
        decide
      intro i below a place here
      cases here
      exact apart i below place
  | cons first rest => simp at split

end RwMem.Server
