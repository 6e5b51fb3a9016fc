import RwMem.Client.MapsFailure
import RwMem.Client.RemoteMemory
import RwMem.Driver.PermittedRange
import RwMem.Server.ResidentMaps

/-! What the client library says is resident is what it can read. Residency comes from one walk
for each page, and a read from the permission check and the transfer loop.
-/

namespace RwMem.Server

open Memory RwMem.Driver RwMem.Client RwMem.Transfer

variable {P : Type} {g : PageGeometry} {space : AddressSpace} {mmap : List VmArea}

-----------------------------------------------------------------------------------------
-- Readable ranges
-----------------------------------------------------------------------------------------

/-- Every address of a range is translated by an entry that can be read. -/
def AllReadable (g : PageGeometry) (space : AddressSpace) (addr size : Nat) : Prop :=
  ∀ i < size, space.isReadable g (addr + i) = true

/-- The mappings of a process are in order and of whole pages, and pages are translated in them
only.
-/
structure Backed (g : PageGeometry) (space : AddressSpace) (mmap : List VmArea) : Prop where
  valid : ValidVmas (mmap.map VmArea.toVma)
  whole : ∀ vma ∈ mmap, WholePages vma
  within
    : ∀ number p,
        space.page number = some p
        → ∃ vma ∈ mmap,
            vma.vmStart ≤ number * g.pageSize ∧ number * g.pageSize < vma.vmEnd

/-- An access that is not forced goes on where the entry can be read. -/
theorem goesOn_eq_isReadable (addr : UInt64) (i : Nat)
    : (space.mapping g).goesOn (addrRange addr) (space.permits g PteBits.canRead) false i
      = space.isReadable g (addr.toNat + i) := by
  rw [Mapping.goesOn, place_mapping, AddressSpace.phyAddr?, AddressSpace.permits,
    pageOf_addrRange, AddressSpace.isReadable]
  cases space.pageOf g (addr.toNat + i) with
  | none => rfl
  | some p => simp

/-- A readable address lies in a mapping. -/
theorem Backed.mapped (backed : Backed g space mmap) (pages4K : g.pageSize = 4096) {va : Nat}
    (small : va < 2 ^ 64) (readable : space.isReadable g va = true)
    : ∃ vma ∈ mmap, vma.vmStart ≤ va ∧ va < vma.vmEnd := by
  rw [AddressSpace.isReadable, AddressSpace.pageOf, pageNumber, wrap_of_lt small] at readable
  cases page : space.page (va / g.pageSize) with
  | none =>
      rw [page] at readable
      contradiction
  | some p =>
      obtain ⟨vma, member, starts, ends⟩ := backed.within _ p page
      have finish := (backed.whole vma member).endAligned
      rw [pages4K] at starts ends
      exact ⟨vma, member, by omega, by omega⟩

/-- No readable range wraps: the last page of the address space is in no mapping. -/
theorem Backed.noWrap (backed : Backed g space mmap) (pages4K : g.pageSize = 4096)
    {addr size : Nat} (small : addr < 2 ^ 64) (readable : AllReadable g space addr size)
    : addr + size < 2 ^ 64 := by
  by_contra wraps
  have last := readable (2 ^ 64 - 1 - addr)
  by_cases inside : 2 ^ 64 - 1 - addr < size
  · have top : addr + (2 ^ 64 - 1 - addr) = 2 ^ 64 - 1 := by omega
    have here := last inside
    rw [top] at here
    obtain ⟨vma, member, _, above⟩ := backed.mapped pages4K (by decide) here
    have ends := vma.end_lt
    omega
  · omega

/-- The check and the walks let a range through exactly if it lies in one mapping that permits
it and all of it is readable.
-/
theorem Backed.passes_iff (backed : Backed g space mmap) (pages4K : g.pageSize = 4096)
    {addr size : Nat} (small : addr < 2 ^ 64) (nonempty : 0 < size)
    : (checkProcMapCanRead (some (mmap.map VmArea.toVma)) addr size = true
        ∧ AllReadable g space addr size)
      ↔ ∃ vma ∈ mmap,
          vma.vmRead = true
          ∧ vma.vmStart ≤ addr
          ∧ addr + size ≤ vma.vmEnd
          ∧ AllReadable g space addr size := by
  constructor
  · intro ⟨accepted, readable⟩
    obtain ⟨vma, member, starts, ends⟩ := backed.mapped pages4K small (readable 0 nonempty)
    have found := findVma_of_holds backed.valid (List.mem_map_of_mem member) starts ends
    obtain ⟨checked, same, flagged, low⟩ := checkProcMap_eq_true_iff.mp accepted
    cases found.symm.trans same
    rw [wrap_of_lt (backed.noWrap pages4K small readable)] at low
    exact ⟨vma, member, flagged, starts, low, readable⟩
  · intro ⟨vma, member, flagged, starts, ends, readable⟩
    have permitted : Permitted Vma.vmRead (mmap.map VmArea.toVma) addr size :=
      ⟨vma.toVma, List.mem_map_of_mem member, flagged, starts, ends⟩
    exact ⟨checkProcMap_of_permitted backed.valid nonempty permitted, readable⟩

-----------------------------------------------------------------------------------------
-- Listed ranges
-----------------------------------------------------------------------------------------

variable {task : TaskStruct P} {ptes : P → PteBits}

/-- The addresses of a page are readable together. -/
theorem isReadable_congr (pages4K : g.pageSize = 4096) {va vb : Nat} (small : va < 2 ^ 64)
    (small' : vb < 2 ^ 64) (page : va / 4096 = vb / 4096)
    : space.isReadable g va = space.isReadable g vb := by
  rw [AddressSpace.isReadable, AddressSpace.isReadable, AddressSpace.pageOf, AddressSpace.pageOf,
    pageNumber, pageNumber, wrap_of_lt small, wrap_of_lt small', pages4K, page]

/-- The residency of a page is the readability of its addresses. -/
theorem pageBit_eq_isReadable (realizes : Realizes g task.getTaskProcPhyAddr ptes space)
    (pages4K : g.pageSize = 4096) {vma : VmArea} (whole : WholePages vma) {va : Nat}
    (low : vma.vmStart ≤ va) (high : va < vma.vmEnd)
    : pageBit (isResident task ptes) vma ((va - vma.vmStart) / 4096)
      = space.isReadable g va := by
  have aligned := whole.startAligned
  have ends := vma.end_lt
  have page : (vma.vmStart + (va - vma.vmStart) / 4096 * 4096) / 4096 = va / 4096 := by omega
  rw [pageBit, isResident_of_realizes realizes (by omega)]
  exact isReadable_congr pages4K (by omega) (by omega) page

/-- A range of a mapping lies in one of its resident runs exactly if all of it is readable. -/
theorem exists_residentRun_iff (realizes : Realizes g task.getTaskProcPhyAddr ptes space)
    (pages4K : g.pageSize = 4096) {vma : VmArea} (whole : WholePages vma) {addr size : Nat}
    (starts : vma.vmStart ≤ addr) (ends : addr + size ≤ vma.vmEnd) (nonempty : 0 < size)
    : (∃ r ∈ residentRuns (isResident task ptes) vma, r.1 ≤ addr ∧ addr + size ≤ r.2)
      ↔ AllReadable g space addr size := by
  have finish := whole.end_eq
  -- the first page of the range, and the one behind its last
  let first := (addr - vma.vmStart) / 4096
  let behind := (addr + size - 1 - vma.vmStart) / 4096 + 1
  have around
      : (∃ r ∈ runs (pageBit (isResident task ptes) vma) (pagesOf vma),
          r.1 ≤ first ∧ behind ≤ r.2)
        ↔ ∀ j, first ≤ j → j < behind → pageBit (isResident task ptes) vma j = true :=
    exists_mem_runs_around (show first < behind by omega) (show behind ≤ pagesOf vma by omega)
  have listed
      : (∃ r ∈ residentRuns (isResident task ptes) vma, r.1 ≤ addr ∧ addr + size ≤ r.2)
        ↔ ∃ r ∈ runs (pageBit (isResident task ptes) vma) (pagesOf vma),
            r.1 ≤ first ∧ behind ≤ r.2 := by
    rw [residentRuns]
    constructor
    · rintro ⟨_, member, low, high⟩
      obtain ⟨r, run, rfl⟩ := List.mem_map.mp member
      exact ⟨r, run, by omega, by omega⟩
    · rintro ⟨r, run, low, high⟩
      exact ⟨_, List.mem_map_of_mem run, by omega, by omega⟩
  rw [listed, around]
  constructor
  · intro pages i below
    rw [← pageBit_eq_isReadable realizes pages4K whole (by omega) (by omega)]
    exact pages _ (by omega) (by omega)
  · intro readable j low high
    -- an address of the range in this page
    let va := max addr (vma.vmStart + j * 4096)
    have inside : va - addr < size := by omega
    have page : (va - vma.vmStart) / 4096 = j := by omega
    have here := readable (va - addr) inside
    rw [show addr + (va - addr) = va by omega] at here
    rw [← page, pageBit_eq_isReadable realizes pages4K whole (by omega) (by omega)]
    exact here

-----------------------------------------------------------------------------------------
-- Reading
-----------------------------------------------------------------------------------------

/-- `ioctl` meets a process that `read` and `write` meet as this target. -/
structure ListsTarget (k : IoctlKernel P) (pid : Int32) (t : Target) (task : TaskStruct P)
    (mm : MmStruct)
    : Prop where
  found : k.findGetPid pid = some (some task)
  space : task.mm = some mm
  mappings : t.mm = some (mm.mmap.map VmArea.toVma)
  realizes : Realizes k.geometry task.getTaskProcPhyAddr k.ptes t.space
  backed : Backed k.geometry t.space mm.mmap

/-- The range lies in one entry with the permission to read. -/
def ListedReadable (entries : List MapsEntry) (addr size : Nat) : Prop :=
  ∃ entry ∈ entries,
    entry.readPermission = true ∧ entry.start ≤ addr ∧ addr + size ≤ entry.end_

section Reads

variable {targets : Targets} {pid : Int32} {t : Target} {mem : Nat → UInt8} {addr : UInt64}
variable {size : Nat}

/-- What is read is what the target has there. -/
theorem getElem?_remoteRead {bytes : List UInt8} (target : targets pid = some t)
    (read : remoteRead g targets mem pid addr false size = .ok bytes) {i : Nat}
    (inside : i < bytes.length)
    : bytes[i]? = t.space.byte? g mem (addr.toNat + i) := by
  rw [remoteRead, target] at read
  dsimp only at read
  split at read
  · contradiction
  · cases read
    rw [length_read] at inside
    rw [Mapping.read, Mapping.getElem?_load (fun _ => mapped_of_lt_readLength) inside,
      place_mapping]
    rfl

/-- No read is longer than what was asked for. -/
theorem length_remoteRead_le {force : Bool} {bytes : List UInt8}
    (read : remoteRead g targets mem pid addr force size = .ok bytes)
    : bytes.length ≤ size := by
  rw [remoteRead] at read
  split at read
  · contradiction
  · split at read
    · contradiction
    · cases read
      rw [length_read]
      exact frontLength_le _ size

/-- A read is whole exactly if its range is in one mapping that permits it, and readable. -/
theorem remoteRead_whole_iff (target : targets pid = some t)
    (mappings : t.mm = some (mmap.map VmArea.toVma)) (backed : Backed g t.space mmap)
    (pages4K : g.pageSize = 4096) (nonempty : 0 < size)
    : (∃ bytes, remoteRead g targets mem pid addr false size = .ok bytes ∧ bytes.length = size)
      ↔ ∃ vma ∈ mmap,
          vma.vmRead = true
          ∧ vma.vmStart ≤ addr.toNat
          ∧ addr.toNat + size ≤ vma.vmEnd
          ∧ AllReadable g t.space addr.toNat size := by
  have whole
      : ((t.space.mapping g).read (addrRange addr) mem false size).length = size
        ↔ AllReadable g t.space addr.toNat size := by
    rw [length_read, Mapping.readLength, frontLength_eq_iff]
    refine forall_congr' fun i => imp_congr_right fun _ => ?_
    exact iff_of_eq (congrArg (· = true) (goesOn_eq_isReadable addr i))
  rw [← backed.passes_iff pages4K addr.toNat_lt nonempty, ← whole, remoteRead, target]
  dsimp only
  rw [mappings]
  cases accepted : checkProcMapCanRead (some (mmap.map VmArea.toVma)) addr.toNat size with
  | false => simp
  | true => simp

end Reads

variable {k : IoctlKernel P} {kernel : Kernel P} {targets : Targets} {pid : Int32} {t : Target}
variable {mm : MmStruct} {sys : Ioctls} {count : Nat} {nameOf : VmArea → List UInt8}

/-- A range is listed exactly if it is in one mapping that permits it, and readable. -/
theorem listedReadable_iff (lists : ListsTarget k pid t task mm)
    (pages4K : k.geometry.pageSize = 4096) {addr size : Nat} (nonempty : 0 < size)
    : ListedReadable
        (mm.mmap.flatMap (fun vma =>
          runEntries (isResident task k.ptes) vma (fromUtf8Lossy (nameOf vma))))
        addr size
      ↔ ∃ vma ∈ mm.mmap,
          vma.vmRead = true
          ∧ vma.vmStart ≤ addr
          ∧ addr + size ≤ vma.vmEnd
          ∧ AllReadable k.geometry t.space addr size := by
  constructor
  · rintro ⟨entry, member, permits, starts, ends⟩
    obtain ⟨vma, among, made⟩ := List.mem_flatMap.mp member
    obtain ⟨r, run, rfl⟩ := List.mem_map.mp made
    have whole := lists.backed.whole vma among
    obtain ⟨low, high⟩ := mem_residentRuns_inside whole run
    have startsIn : vma.vmStart ≤ addr := Nat.le_trans low starts
    have endsIn : addr + size ≤ vma.vmEnd := Nat.le_trans ends high
    exact ⟨vma, among, permits, startsIn, endsIn,
      (exists_residentRun_iff lists.realizes pages4K whole startsIn endsIn nonempty).mp
        ⟨r, run, starts, ends⟩⟩
  · rintro ⟨vma, among, permits, starts, ends, readable⟩
    have whole := lists.backed.whole vma among
    obtain ⟨r, run, low, high⟩ :=
      (exists_residentRun_iff lists.realizes pages4K whole starts ends nonempty).mpr readable
    exact ⟨_, List.mem_flatMap.mpr ⟨vma, among, List.mem_map_of_mem run⟩, permits, low, high⟩

/-- `read_mem` is `Ok` if the driver delivers as much as was asked for. -/
theorem readMem_ok_iff (serves : Serves kernel k.ptes targets) (phys : Nat → UInt8)
    (pid : Int32) (addr : UInt64) {buf : Slice} (harmless : StaleByteHarmless buf.bytes)
    : let size := min buf.bytes.length (maxRwCount kernel.geometry)
      let done := readMem kernel k.ptes phys pid addr buf
      (done.result = .ok
        ↔ ∃ bytes,
            remoteRead kernel.geometry targets phys pid addr false size = .ok bytes
            ∧ bytes.length = buf.bytes.length)
      ∧ (done.result = .ok
        → remoteRead kernel.geometry targets phys pid addr false size = .ok done.buf) := by
  intro size done
  have other : buf.bytes.length ≠ 17 := by
    rcases harmless with short | ⟨long, _⟩ <;> omega
  have unforced : readMemForces buf.bytes = false := by
    rcases harmless with short | ⟨_, unset⟩
    · rw [readMemForces, decide_eq_false (by omega), Bool.false_and]
    · rw [readMemForces, beq_eq_false_iff_ne.mpr unset, Bool.and_false]
  obtain ⟨req, result, after, called, answered, buffer⟩ :=
    readMem_answers serves phys pid addr other
  rw [unforced] at answered
  have ret := answered.ret
  simp only [done, called]
  cases answer : remoteRead kernel.geometry targets phys pid addr false size with
  | error e =>
      have positive := remoteRead_error_pos answer
      rw [answer] at ret
      simp only [Except.map, retOf] at ret
      simp [readMemResult, ret, positive]
  | ok bytes =>
      rw [answer] at ret
      simp only [Except.map, retOf] at ret
      have counted : ¬(bytes.length : Int) < 0 := by omega
      have ok : readMemResult buf.bytes.length result.ret = .ok
          ↔ bytes.length = buf.bytes.length := by
        simp [readMemResult, ret, counted]
      constructor
      · rw [ok]
        constructor
        · intro same
          exact ⟨bytes, rfl, same⟩
        · rintro ⟨_, given, same⟩
          cases given
          exact same
      · intro whole
        have same := ok.mp whole
        rw [buffer (by rw [ret, same]), ← same, answered.bytes bytes answer]

/-- A `read_mem` that is not forced, of at least one byte, succeeds exactly if Linux passes its
whole length on and its range is in one mapping that permits it, and readable; then the buffer holds
the bytes of the target.
-/
theorem readMem_ok_iff_mapped (lists : ListsTarget k pid t task mm)
    (pages4K : k.geometry.pageSize = 4096) (serves : Serves kernel k.ptes targets)
    (geometry : kernel.geometry = k.geometry) (target : targets pid = some t)
    (phys : Nat → UInt8) (addr : UInt64) {buf : Slice} (nonempty : 0 < buf.bytes.length)
    (harmless : StaleByteHarmless buf.bytes)
    : let done := readMem kernel k.ptes phys pid addr buf
      (done.result = .ok
        ↔ buf.bytes.length ≤ maxRwCount k.geometry
          ∧ ∃ vma ∈ mm.mmap,
              vma.vmRead = true
              ∧ vma.vmStart ≤ addr.toNat
              ∧ addr.toNat + buf.bytes.length ≤ vma.vmEnd
              ∧ AllReadable k.geometry t.space addr.toNat buf.bytes.length)
      ∧ (done.result = .ok
        → done.buf.length = buf.bytes.length
          ∧ ∀ i < buf.bytes.length,
            done.buf[i]? = t.space.byte? k.geometry phys (addr.toNat + i)) := by
  intro done
  obtain ⟨ok, read⟩ := readMem_ok_iff serves phys pid addr harmless
  rw [geometry] at ok read
  by_cases passed : buf.bytes.length ≤ maxRwCount k.geometry
  · rw [Nat.min_eq_left passed] at ok read
    constructor
    · rw [ok, remoteRead_whole_iff target lists.mappings lists.backed pages4K nonempty]
      exact (and_iff_right passed).symm
    · intro succeeded
      obtain ⟨bytes, answer, length⟩ := ok.mp succeeded
      have delivered := read succeeded
      cases answer.symm.trans delivered
      exact ⟨length, fun i below => getElem?_remoteRead target delivered (length ▸ below)⟩
  · have fails : done.result ≠ .ok := by
      intro succeeded
      obtain ⟨bytes, answer, length⟩ := ok.mp succeeded
      have short := length_remoteRead_le answer
      omega
    exact ⟨iff_of_false fails fun mapped => passed mapped.1, fun same => absurd same fails⟩

/-- With a count, what `get_mem_map` lists with `phy_only` is what `read_mem` reads: the range lies
in one entry that has the permission.
-/
theorem readMem_ok_iff_listed (pages4K : k.geometry.pageSize = 4096)
    (described : DescribedBy sys k) (quiet : NoFailures k) (counted : Counted sys pid count)
    (room : mm.mmap.length ≤ count + 50) (lists : ListsTarget k pid t task mm)
    (named : ∀ vma ∈ mm.mmap, pathName mm vma = some (nameOf vma))
    (serves : Serves kernel k.ptes targets) (geometry : kernel.geometry = k.geometry)
    (target : targets pid = some t)
    : ∃ entries,
        getMemMap sys pid true = .ok entries
        ∧ ∀ (phys : Nat → UInt8) (addr : UInt64) (buf : Slice),
            0 < buf.bytes.length
            → StaleByteHarmless buf.bytes
            → ((readMem kernel k.ptes phys pid addr buf).result = .ok
              ↔ buf.bytes.length ≤ maxRwCount k.geometry
                ∧ ListedReadable entries addr.toNat buf.bytes.length) := by
  refine ⟨_, getMemMap_phyOnly pages4K described quiet counted room lists.found lists.space
    named lists.backed.whole, ?_⟩
  intro phys addr buf nonempty harmless
  obtain ⟨ok, _⟩ := readMem_ok_iff_mapped lists pages4K serves geometry target phys addr nonempty
    harmless
  rw [ok, listedReadable_iff lists pages4K nonempty]

-----------------------------------------------------------------------------------------
-- Residency
-----------------------------------------------------------------------------------------

end RwMem.Server
