import RwMem.Client.MapsFailure
import RwMem.Server.RequestCodes

/-! What `VirtualQueryExFull` makes of a listing that failed, beside the client library. -/

namespace RwMem.Server

open Memory RwMem.Driver RwMem.Client

variable {P : Type} {sys : Ioctls} {k : IoctlKernel P} {g : PageGeometry} {nDriverLink : Int}
  {hProcess : Nat} {count : Int}

/-- The call gets as far as to ask for the list, with this answer to its first `ioctl`. -/
structure Listed (sys : Ioctls) (nDriverLink : Int) (hProcess : Nat) (count : Int) : Prop where
  opened : 0 ≤ nDriverLink
  handle : hProcess ≠ 0
  counted : queryCount sys hProcess = .ok count
  positive : 0 < count

/-- A failed listing is a failure of `VirtualQueryExFull`; the count that it decodes is one of
entries that were encoded and lie in the buffer; and it does not read behind the buffer.
-/
structure FailureReported (sys : Ioctls) (k : IoctlKernel P) (g : PageGeometry)
    (nDriverLink : Int) (hProcess : Nat)
    : Prop where
  failed : ∀ count list, Listed sys nDriverLink hProcess count
    → listing sys k (requestBuf hProcess count.toNat) = some list → list.ret < 0
    → ∀ showPhy, virtualQueryExFull sys g nDriverLink hProcess showPhy = .ok .failed
  decoded : ∀ count list unfinish buf, Listed sys nDriverLink hProcess count
    → listing sys k (requestBuf hProcess count.toNat) = some list
    → myIoctl sys 1 .getProcessMapsList (requestBuf hProcess count.toNat) = .ok (unfinish, buf)
    → 0 ≤ unfinish
    → wordAt buf 0 8 ≤ list.run.success ∧ 8 + 532 * wordAt buf 0 8 ≤ buf.length
  runs : virtualQueryExFull sys g nDriverLink hProcess false ≠ .undefined

theorem virtualQueryExFull_of_listed (showPhy : Bool)
    (listed : Listed sys nDriverLink hProcess count)
    : virtualQueryExFull sys g nDriverLink hProcess showPhy
      = if 2 ^ 31 ≤ 8 + (8 + 8 + 4 + 512) * (count + 50) then .undefined
        else
          (myIoctl sys 1 .getProcessMapsList (requestBuf hProcess count.toNat)).bind
            fun (unfinish, buf) =>
          if unfinish < 0 then .ok .failed
          else
            (readRegions sys g hProcess showPhy (wordAt buf 0 8) 2 (buf.drop 8)).bind
              fun regions => .ok ⟨unfinish = 0, regions, some unfinish⟩ := by
  have opened := listed.opened
  have positive := listed.positive
  rw [virtualQueryExFull, if_neg (by omega), if_neg listed.handle, listed.counted, Run.bind,
    if_neg (by omega)]

/-- A call that does not ask for the list ends at once. -/
theorem virtualQueryExFull_of_not_listed (showPhy : Bool)
    (early : ∀ count, ¬Listed sys nDriverLink hProcess count)
    : virtualQueryExFull sys g nDriverLink hProcess showPhy ≠ .undefined := by
  rw [virtualQueryExFull]
  split
  · simp
  · split
    · simp
    · next opened handle =>
        cases counted : queryCount sys hProcess with
        | ok count =>
            simp only [Run.bind]
            have none : count ≤ 0 := by
              by_contra positive
              exact early count ⟨by omega, handle, counted, by omega⟩
            rw [if_pos none]
            simp
        | undefined =>
            rw [queryCount] at counted
            split at counted <;> contradiction
        | killed => simp [Run.bind]

/-- Inside the buffer the decoding loop reads only entries. Induction on the rounds. -/
theorem readRegions_of_length (sys : Ioctls) (g : PageGeometry) (hProcess res n : Nat)
    {buf : List UInt8} (inside : 532 * res ≤ buf.length)
    : ∃ regions, readRegions sys g hProcess false res n buf = .ok regions := by
  induction res generalizing n buf with
  | zero => exact ⟨[], rfl⟩
  | succ res ih =>
      have rest : 532 * res ≤ (buf.drop 532).length := by
        rw [List.length_drop]
        omega
      obtain ⟨regions, later⟩ := ih n rest
      refine ⟨(regionAt (buf.take 532)).2 :: regions, ?_⟩
      rw [readRegions, if_neg (by omega)]
      simp only [Bool.false_eq_true, if_false, later, Run.bind]

/-- While no failure goes unnoticed, what `VirtualQueryExFull` accepts is the answer to a listing.
-/
theorem myIoctl_count_le {count : Nat} {unfinish : Int} {buf : List UInt8}
    (fits : hProcess < 2 ^ 64)
    (listServed : sys.ioctl 1 .getProcessMapsList = rwmemMapsList k) (small : count < 2 ^ 31)
    (noticed : ¬FailsUnnoticed k (Int32.ofNat hProcess))
    (called : myIoctl sys 1 .getProcessMapsList (requestBuf hProcess count) = .ok (unfinish, buf))
    (accepted : 0 ≤ unfinish)
    : ∃ list,
        listing sys k (requestBuf hProcess count) = some list
        ∧ wordAt buf 0 8 ≤ list.run.success ∧ wordAt buf 0 8 ≤ count + 50
        ∧ buf.length = 8 + 532 * (count + 50) := by
  rw [myIoctl] at called
  split at called
  · contradiction
  · next passed =>
      cases called
      exact pass_count_le fits small listServed noticed passed (by omega)

/-- A failure that goes unnoticed is not reported, if the length of the buffer is an `int`. -/
theorem FailureReported.not_failsUnnoticed (fits : hProcess < 2 ^ 64)
    (listServed : sys.ioctl 1 .getProcessMapsList = rwmemMapsList k)
    (reported : FailureReported sys k g nDriverLink hProcess)
    (listed : Listed sys nDriverLink hProcess count) (small : 8 + 532 * (count + 50) < 2 ^ 31)
    : ¬FailsUnnoticed k (Int32.ofNat hProcess) := by
  intro unnoticed
  have positive := listed.positive
  have int : count.toNat < 2 ^ 31 := by omega
  obtain ⟨list, buf, asked, nothing, passed, huge⟩ :=
    pass_of_unnoticed fits int listServed unnoticed
  have called : myIoctl sys 1 .getProcessMapsList (requestBuf hProcess count.toNat)
      = .ok (0, buf) := by
    rw [myIoctl, passed]
    rfl
  have le := (reported.decoded count list 0 buf listed asked called (Int.le_refl 0)).1
  omega

/-- `VirtualQueryExFull` reports failures exactly if, whenever it asks for the list, the length
of its buffer is an `int` and a failed listing does not go unnoticed.
-/
theorem failureReported_iff (fits : hProcess < 2 ^ 64)
    (listServed : sys.ioctl 1 .getProcessMapsList = rwmemMapsList k)
    : FailureReported sys k g nDriverLink hProcess
      ↔ ∀ count, Listed sys nDriverLink hProcess count
        → 8 + 532 * (count + 50) < 2 ^ 31 ∧ ¬FailsUnnoticed k (Int32.ofNat hProcess) := by
  constructor
  · intro reported count listed
    have small : 8 + 532 * (count + 50) < 2 ^ 31 := by
      by_contra large
      apply reported.runs
      rw [virtualQueryExFull_of_listed false listed, if_pos (by omega)]
    exact ⟨small, reported.not_failsUnnoticed fits listServed listed small⟩
  · intro condition
    refine ⟨?_, ?_, ?_⟩
    · intro count list listed asked failed showPhy
      have positive := listed.positive
      obtain ⟨small, noticed⟩ := condition count listed
      obtain ⟨buf, passed⟩ := pass_of_failed fits (by omega) listServed noticed asked failed
      rw [virtualQueryExFull_of_listed showPhy listed, if_neg (by omega), myIoctl, passed]
      rfl
    · intro count list unfinish buf listed asked called accepted
      have positive := listed.positive
      obtain ⟨small, noticed⟩ := condition count listed
      obtain ⟨list', asked', encoded, room, length⟩ :=
        myIoctl_count_le fits listServed (by omega) noticed called accepted
      rw [asked] at asked'
      cases asked'
      exact ⟨encoded, by omega⟩
    · by_cases early : ∀ count, ¬Listed sys nDriverLink hProcess count
      · exact virtualQueryExFull_of_not_listed false early
      · obtain ⟨count, listed⟩ := not_forall_not.mp early
        obtain ⟨small, noticed⟩ := condition count listed
        rw [virtualQueryExFull_of_listed false listed, if_neg (by omega)]
        cases called : myIoctl sys 1 .getProcessMapsList (requestBuf hProcess count.toNat) with
        | ok answer =>
            obtain ⟨unfinish, buf⟩ := answer
            simp only [Run.bind]
            split
            · simp
            · next accepted =>
                obtain ⟨_, _, _, room, length⟩ :=
                  myIoctl_count_le fits listServed (by omega) noticed called (by omega)
                have inside : 532 * wordAt buf 0 8 ≤ (buf.drop 8).length := by
                  rw [List.length_drop]
                  omega
                obtain ⟨regions, read⟩ := readRegions_of_length sys g hProcess
                  (wordAt buf 0 8) 2 inside
                simp [read]
        | undefined =>
            rw [myIoctl] at called
            split at called <;> contradiction
        | killed => simp [Run.bind]

variable {kernel : Nat → IoctlKernel P}

theorem failureReported_of_issued (fits : hProcess < 2 ^ 64) (issued : Issued sys kernel)
    : FailureReported sys (kernel 1) g nDriverLink hProcess := by
  have listServed : sys.ioctl 1 .getProcessMapsList = rwmemMapsList (kernel 1) :=
    ioctl_of_issued issued 1 (by decide) rfl
  refine (failureReported_iff fits listServed).mpr ?_
  intro count listed
  have counted := listed.counted
  have positive := listed.positive
  rw [queryCount_of_issued issued] at counted
  cases counted
  contradiction

/-- Both clients report the failures of the listing: the driver knows neither of their codes for
the count, so each call ends in an error before it asks for the list, of every process in
every kernel.
-/
theorem failuresReported {P : Type} (library server : Ioctls) (kernel kernel' : Nat → IoctlKernel P)
    (g : PageGeometry) (pid : Int32) (nDriverLink : Int) (hProcess : Nat)
    (fits : hProcess < 2 ^ 64) (libraryIssued : Client.Issued library kernel)
    (serverIssued : Issued server kernel')
    : (Client.FailureReported library (kernel 1) pid
        ∧ ∀ phyOnly, getMemMap library pid phyOnly = .err (.errno EINVAL))
      ∧ FailureReported server (kernel' 1) g nDriverLink hProcess
      ∧ ∀ showPhy, virtualQueryExFull server g nDriverLink hProcess showPhy = .ok .failed :=
  ⟨⟨Client.failureReported_of_issued libraryIssued pid, getMemMap_of_issued libraryIssued pid⟩,
    failureReported_of_issued fits serverIssued,
    virtualQueryExFull_of_issued serverIssued nDriverLink hProcess⟩

/-- A kernel without failures in which the only process has exited and was not waited for. -/
def quietZombie : IoctlKernel Nat :=
  quietIoctl arm64.toPageGeometry AddressSpace.oneUp.ptes
    (some ⟨none, AddressSpace.oneUp.walk arm64.toPageGeometry⟩)

/-- Both clients ask about a process that has exited. -/
theorem failuresReported_zombie
    : (Client.FailureReported (driverIoctls (fun _ => quietZombie)) quietZombie 42
        ∧ ∀ phyOnly,
            getMemMap (driverIoctls (fun _ => quietZombie)) 42 phyOnly = .err (.errno EINVAL))
      ∧ FailureReported (serverIoctls (fun _ => quietZombie)) quietZombie arm64.toPageGeometry 3 42
      ∧ ∀ showPhy,
          virtualQueryExFull (serverIoctls (fun _ => quietZombie)) arm64.toPageGeometry 3 42
              showPhy
            = .ok .failed :=
  failuresReported _ _ (fun _ => quietZombie) (fun _ => quietZombie) _ _ _ _ (by decide)
    (fun _ _ => rfl) (issued_serverIoctls _)

end RwMem.Server
