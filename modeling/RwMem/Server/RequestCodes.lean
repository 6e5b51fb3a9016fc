import RwMem.Client.MapsRoundTrip
import RwMem.Server.MemoryReaderWriter

/-! The request codes of the server, against the ones that the driver recognises. -/

namespace RwMem.Server

open Memory RwMem.Driver RwMem.Client

variable {P : Type} {sys : Ioctls} {kernel : Nat → IoctlKernel P} {g : PageGeometry}

/-- Every `ioctl` of the server goes through the switch of the driver, the `n`-th in the `n`-th
of these kernels.
-/
def Issued (sys : Ioctls) (kernel : Nat → IoctlKernel P) : Prop :=
  ∀ n command code, requestCode command = some code
    → sys.ioctl n command = rwmemIoctl (kernel n) code

/-- The codes for the list and for the pages are the driver's. -/
theorem requestCode_eq_code {command : Command} (own : command ≠ .getProcessMapsCount)
    {code : UInt32} (coded : requestCode command = some code)
    : code = command.code := by
  cases command with
  | getProcessMapsCount => contradiction
  | getProcessMapsList =>
      cases coded
      rfl
  | checkProcessAddrPhy =>
      cases coded
      rfl
  | addBp => contradiction
  | getNumBrps => contradiction
  | getNumWrps => contradiction

/-- So these two arrive. -/
theorem ioctl_of_issued (issued : Issued sys kernel) (n : Nat) {command : Command}
    (own : command ≠ .getProcessMapsCount) {code : UInt32}
    (coded : requestCode command = some code)
    : sys.ioctl n command = command.handle (kernel n) := by
  funext arg mem
  rw [issued n command code coded, requestCode_eq_code own coded, rwmemIoctl, commandOf_code]

/-- The code for the count differs in its direction from the driver's, and is no other code. -/
theorem commandOf_requestCode_count {code : UInt32}
    (coded : requestCode .getProcessMapsCount = some code)
    : code ≠ Command.code .getProcessMapsCount ∧ commandOf code = none := by
  cases coded
  decide

/-- So the driver refuses to count. -/
theorem queryCount_of_issued (issued : Issued sys kernel) (hProcess : Nat)
    : queryCount sys hProcess = .ok (-1) := by
  obtain ⟨_, unknown⟩ := commandOf_requestCode_count rfl
  rw [queryCount, issued 0 .getProcessMapsCount _ rfl, rwmemIoctl, unknown]
  rfl

theorem virtualQueryExFull_of_issued (issued : Issued sys kernel) (nDriverLink : Int)
    (hProcess : Nat) (showPhy : Bool)
    : virtualQueryExFull sys g nDriverLink hProcess showPhy = .ok .failed := by
  rw [virtualQueryExFull, queryCount_of_issued issued]
  split
  · rfl
  · split <;> rfl

/-- What the list of the server says of a mapping with this name. -/
def vmRegion (vma : VmArea) (name : List UInt8) : RegionInfo where
  baseaddress := vma.vmStart
  size := diff vma.vmEnd vma.vmStart
  protection := protectionOf vma.vmRead vma.vmWrite vma.vmExec
  type := if vma.vmMayShare then MEM_MAPPED else MEM_PRIVATE
  name := name

/-- The call returns true, with all mappings in order. -/
def ListsProcess (sys : Ioctls) (g : PageGeometry) (nDriverLink : Int) (hProcess : Nat)
    (mm : MmStruct)
    : Prop :=
  virtualQueryExFull sys g nDriverLink hProcess false
    = .ok ⟨true, mm.mmap.map (fun vma => vmRegion vma (mapsName mm vma)), some 0⟩

/-- Through the switch of the driver `VirtualQueryExFull` lists no process at all. -/
theorem virtualQueryExFull_lists_nothing {P : Type} (sys : Ioctls) (kernel : Nat → IoctlKernel P)
    (g : PageGeometry) (nDriverLink : Int) (hProcess : Nat) (mm : MmStruct)
    (issued : Issued sys kernel)
    : ¬ListsProcess sys g nDriverLink hProcess mm := by
  rw [ListsProcess, virtualQueryExFull_of_issued issued]
  intro lists
  cases lists

/-- `ioctl` as the server issues it. -/
def serverIoctls (kernel : Nat → IoctlKernel P) : Ioctls :=
  { driverIoctls kernel with
    ioctl := fun n command arg mem =>
      ((requestCode command).map (fun code => rwmemIoctl (kernel n) code arg mem)).getD
        (.returned (-EINVAL) mem) }

theorem issued_serverIoctls (kernel : Nat → IoctlKernel P)
    : Issued (serverIoctls kernel) kernel := by
  intro n command code coded
  funext arg mem
  simp only [serverIoctls, coded, Option.map_some, Option.getD_some]

theorem virtualQueryExFull_lists_nothing_twoMaps
    : ¬ListsProcess (serverIoctls (fun _ => quietTwoMaps)) arm64.toPageGeometry 3 42 twoMaps :=
  virtualQueryExFull_lists_nothing _ (fun _ => quietTwoMaps) _ _ _ _ (issued_serverIoctls _)

/-- A live process with two mappings, no failure in sight: `VirtualQueryExFull` returns false. -/
theorem virtualQueryExFull_fails_twoMaps
    : quietTwoMaps.findGetPid 42
        = some (some ⟨some twoMaps, AddressSpace.oneUp.walk arm64.toPageGeometry⟩)
      ∧ virtualQueryExFull (serverIoctls (fun _ => quietTwoMaps)) arm64.toPageGeometry 3 42 false
        = .ok .failed
      ∧ ¬ListsProcess (serverIoctls (fun _ => quietTwoMaps)) arm64.toPageGeometry 3 42 twoMaps := by
  have failed := virtualQueryExFull_of_issued (g := arm64.toPageGeometry)
    (issued_serverIoctls (fun _ => quietTwoMaps)) 3 42 false
  refine ⟨rfl, failed, ?_⟩
  rw [ListsProcess, failed]
  intro same
  cases same

end RwMem.Server
