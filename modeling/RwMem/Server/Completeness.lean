import RwMem.Driver.MapsBounds
import RwMem.Server.ResidentMaps

/-! Whether the flag of `VirtualQueryExFull` tells that its list is complete, whichever copies of
the listing and whichever queries for pages fail.
-/

namespace RwMem.Server

open Memory RwMem.Driver RwMem.Client

variable {P : Type} {sys : Ioctls} {k : IoctlKernel P} {ks : Nat → IoctlKernel P}
  {g : PageGeometry} {mm : MmStruct} {nDriverLink : Int} {hProcess : Nat}
  {count : Int} {resident : Nat → Bool}

/-- Without `showPhy` the decoding loop takes every entry. Induction on the entries. -/
theorem readRegions_all {nameOf : VmArea → List UInt8} (n : Nat) {vmas : List VmArea}
    (carried : ∀ vma ∈ vmas, Terminated (nameOf vma)) (rest : List UInt8)
    : readRegions sys g hProcess false vmas.length n
        (vmas.flatMap (fun vma => entryBytes 512 vma (nameOf vma) ++ List.replicate (532 - 531) 0)
          ++ rest)
      = .ok (vmas.map (fun vma => vmRegion vma (nameOf vma))) := by
  induction vmas with
  | nil => rfl
  | cons vma vmas ih =>
      have later := ih (fun v member => carried v (List.mem_cons_of_mem _ member))
      have name := carried vma List.mem_cons_self
      have length := length_entry vma name
      rw [List.length_cons, readRegions, List.flatMap_cons, List.append_assoc,
        if_neg (by rw [List.length_append, length]; omega), List.take_left' length,
        List.drop_left' length, regionAt_entryBytes name]
      simp only [Bool.false_eq_true, if_false, later, Run.bind, List.map_cons]

/-- A mapping of whole pages, however many. -/
structure PageEnds (vma : VmArea) : Prop where
  startAligned : 4096 ∣ vma.vmStart
  endAligned : 4096 ∣ vma.vmEnd
  nonempty : vma.vmStart < vma.vmEnd

theorem PageEnds.wholePages {vma : VmArea} (ends : PageEnds vma) (small : pagesOf vma < 2 ^ 31)
    : WholePages vma :=
  ⟨ends.startAligned, ends.endAligned, ends.nonempty, small⟩

/-- The index of the loop over the pages overflows before the last page. Induction on the pages
in front of the one with the largest `int`.
-/
theorem phyRegions_overflows (region : RegionInfo) (isphy : List UInt8) {vmaEnd addr i d : Nat}
    (isPhyRegion : Bool) (base : Nat) (more : addr + d * g.pageSize < vmaEnd)
    (last : i + d + 1 = 2 ^ 31)
    : phyRegions g region isphy vmaEnd addr i isPhyRegion base = .undefined := by
  induction d generalizing addr i base isPhyRegion with
  | zero =>
      rw [phyRegions, dif_pos (by omega), if_pos (by omega)]
  | succ d ih =>
      have here : addr < vmaEnd := by omega
      have behind : addr + g.pageSize + d * g.pageSize < vmaEnd := by
        rw [Nat.succ_mul] at more
        omega
      have next (isPhyRegion : Bool) (base : Nat) :=
        ih isPhyRegion base behind (show i + 1 + d + 1 = 2 ^ 31 by omega)
      rw [phyRegions, dif_pos here]
      split
      · rfl
      · split
        · rfl
        · split
          · exact next true _
          · split
            · rw [next false base]
              rfl
            · exact next false base

/-- A query that does not fail brings a buffer. -/
theorem queryFails_or_answered (handle : hProcess ≠ 0)
    (phyServed : PhyServed sys ks (Int32.ofNat hProcess) resident) (n : Nat) (vma : VmArea)
    : QueryFails sys g hProcess n vma
      ∨ ∃ isphy, checkMemAddrIsValid sys g n hProcess vma.vmStart vma.vmEnd = .ok (some isphy) := by
  obtain ⟨ret, mem, returned, _⟩ := rwmemCheckPhy_answers (ks n)
    (sys.place n (storeWords hProcess vma.vmStart vma.vmEnd
      (cells sys.fresh 0 (phyBufSize g vma.vmStart vma.vmEnd))).length)
    (store (fun _ => 0) (sys.place n (storeWords hProcess vma.vmStart vma.vmEnd
        (cells sys.fresh 0 (phyBufSize g vma.vmStart vma.vmEnd))).length)
      (storeWords hProcess vma.vmStart vma.vmEnd
        (cells sys.fresh 0 (phyBufSize g vma.vmStart vma.vmEnd))))
  rw [QueryFails]
  simp only [checkMemAddrIsValid, if_neg handle, myIoctl, Ioctls.pass, phyServed.checks, returned,
    Run.bind]
  split
  · exact Or.inr ⟨_, rfl⟩
  · exact Or.inl rfl

/-- The pages of each mapping whose query does not fail are counted by an `int`. -/
def AnswersFit (sys : Ioctls) (g : PageGeometry) (hProcess n : Nat) (vmas : List VmArea) : Prop :=
  ∀ i vma, vmas[i]? = some vma → QueryFails sys g hProcess (n + i) vma ∨ pagesOf vma < 2 ^ 31

theorem answersFit_cons {n : Nat} {vma : VmArea} {vmas : List VmArea}
    : AnswersFit sys g hProcess n (vma :: vmas)
      ↔ (QueryFails sys g hProcess n vma ∨ pagesOf vma < 2 ^ 31)
        ∧ AnswersFit sys g hProcess (n + 1) vmas := by
  constructor
  · intro fit
    refine ⟨fit 0 vma rfl, ?_⟩
    intro i v member
    rw [Nat.add_right_comm, Nat.add_assoc]
    exact fit (i + 1) v member
  · intro fit i v member
    cases i with
    | zero =>
        cases member
        exact fit.1
    | succ i =>
        have later := fit.2 i v member
        rw [Nat.add_right_comm, Nat.add_assoc] at later
        exact later

/-- Otherwise the decoding loop ends in undefined behaviour. Induction on the entries. -/
theorem readRegions_overflows {nameOf : VmArea → List UInt8} (clientPages4K : g.pageSize = 4096)
    (fits : hProcess < 2 ^ 64) (handle : hProcess ≠ 0)
    (phyServed : PhyServed sys ks (Int32.ofNat hProcess) resident) (n : Nat) {vmas : List VmArea}
    (carried : ∀ vma ∈ vmas, Terminated (nameOf vma)) (ends : ∀ vma ∈ vmas, PageEnds vma)
    (rest : List UInt8) (large : ¬AnswersFit sys g hProcess n vmas)
    : readRegions sys g hProcess true vmas.length n
        (vmas.flatMap (fun vma => entryBytes 512 vma (nameOf vma) ++ List.replicate (532 - 531) 0)
          ++ rest)
      = .undefined := by
  induction vmas generalizing n with
  | nil => exact absurd (fun _ _ member => by contradiction) large
  | cons vma vmas ih =>
      have later := ih (n + 1) (fun v member => carried v (List.mem_cons_of_mem _ member))
        (fun v member => ends v (List.mem_cons_of_mem _ member))
      have here := ends vma List.mem_cons_self
      have name := carried vma List.mem_cons_self
      have length := length_entry vma name
      rw [answersFit_cons, not_and] at large
      rw [List.length_cons, readRegions, List.flatMap_cons, List.append_assoc,
        if_neg (by rw [List.length_append, length]; omega), List.take_left' length,
        List.drop_left' length, regionAt_entryBytes name]
      rcases queryFails_or_answered (g := g) handle phyServed n vma with fails | answered
      · have asked : checkMemAddrIsValid sys g n hProcess
            (vmRegion vma (nameOf vma)).baseaddress vma.vmEnd = .ok none := fails
        simp only [if_true, asked, Run.bind, later (large (Or.inl fails))]
      · obtain ⟨isphy, valid⟩ := answered
        have asked : checkMemAddrIsValid sys g n hProcess
            (vmRegion vma (nameOf vma)).baseaddress vma.vmEnd = .ok (some isphy) := valid
        simp only [if_true, asked, Run.bind]
        by_cases small : pagesOf vma < 2 ^ 31
        · have whole := here.wholePages small
          rcases queryFails_or_bits clientPages4K fits handle phyServed n whole with fails | bits
          · rw [QueryFails, valid] at fails
            cases fails
          · obtain ⟨isphy', valid', bits⟩ := bits
            rw [valid] at valid'
            cases valid'
            have scanned := phyRegions_runRegions clientPages4K whole (nameOf vma) bits
            simp only [scanned, later (large (Or.inr small))]
        · have many : vma.vmStart + (2 ^ 31 - 1) * g.pageSize < vma.vmEnd := by
            rw [clientPages4K]
            rw [pagesOf] at small
            omega
          have overflows := phyRegions_overflows (vmRegion vma (nameOf vma)) isphy false 0
            (i := 0) many (by decide)
          have start : (vmRegion vma (nameOf vma)).baseaddress = vma.vmStart := rfl
          rw [start, overflows]

/-- The call gets past its two `ioctl`s, while the target has this address space. Any copy of
the listing may fail, but not the one of its count.
-/
structure PastIoctls (sys : Ioctls) (k : IoctlKernel P) (nDriverLink : Int) (hProcess : Nat)
    (mm : MmStruct) (count : Int)
    : Prop where
  fits : hProcess < 2 ^ 64
  listed : Listed sys nDriverLink hProcess count
  int : 8 + 532 * (count + 50) < 2 ^ 31
  served : sys.ioctl 1 .getProcessMapsList = rwmemMapsList k
  found : ∃ task, k.findGetPid (Int32.ofNat hProcess) = some (some task) ∧ task.mm = some mm
  accepted : ∃ unfinish buf,
    myIoctl sys 1 .getProcessMapsList (requestBuf hProcess count.toNat) = .ok (unfinish, buf)
    ∧ 0 ≤ unfinish

/-- The listing that the call decodes, with the first entries in front of the buffer. -/
structure Decodes (sys : Ioctls) (k : IoctlKernel P) (hProcess : Nat) (mm : MmStruct)
    (count : Int) (list : MapsList) (rest : List UInt8)
    : Prop where
  made : listing sys k (requestBuf hProcess count.toNat) = some list
  within : list.run.success ≤ mm.mmap.length
  flagged : list.run.havePass = decide (list.run.success < mm.mmap.length)
  named : ∀ vma ∈ mm.mmap.take list.run.success, pathName mm vma = some (listedName mm vma)
  answer : myIoctl sys 1 .getProcessMapsList (requestBuf hProcess count.toNat)
    = .ok
        (if list.run.havePass then 1 else 0,
          mapsReply mm (listedName mm) list.run.success ++ rest)

/-- The system call behind an `ioctl` of the C library. -/
theorem pass_of_myIoctl {n : Nat} {command : Command} {buf buf' : List UInt8} {result : Int}
    (called : myIoctl sys n command buf = .ok (result, buf'))
    : ∃ ret, sys.pass n command buf = some (ret, buf') ∧ libcIoctl ret = result := by
  rw [myIoctl] at called
  split at called
  · contradiction
  · next ret buf passed =>
      cases called
      exact ⟨ret, passed, rfl⟩

theorem decodes_of_past (past : PastIoctls sys k nDriverLink hProcess mm count)
    : ∃ list rest, Decodes sys k hProcess mm count list rest := by
  have positive := past.listed.positive
  have int := past.int
  have small : count.toNat < 2 ^ 31 := by omega
  have asked := listRequest_place sys past.fits small
  obtain ⟨task, found, space⟩ := past.found
  obtain ⟨unfinish, buf, called, accepted⟩ := past.accepted
  obtain ⟨ret, passed, result⟩ := pass_of_myIoctl called
  obtain ⟨mem, returned, reply⟩ := returned_of_pass passed
  rw [past.served] at returned
  obtain ⟨list, made, room, lists, answer, stored⟩ :=
    rwmemMapsList_lists asked found space returned (by omega)
  have full : min list.run.success mm.mmap.length = list.run.success :=
    Nat.min_eq_left lists.within
  obtain ⟨rest, front⟩ := cells_mapsReply count.toNat hProcess
    (sys.place 1 (requestBuf hProcess count.toNat).length) room lists.named
    (by rw [full]; exact lists.stored)
  refine ⟨list, rest, made, lists.within, lists.flagged, lists.named, ?_⟩
  rw [full, ← length_requestBuf hProcess count.toNat, ← stored, ← reply] at front
  rw [called, ← front, ← result, answer]
  cases list.run.havePass <;> rfl

/-- The call decodes the listing, and its flag is the driver's answer. -/
theorem virtualQueryExFull_of_decodes {list : MapsList} {rest : List UInt8}
    (past : PastIoctls sys k nDriverLink hProcess mm count)
    (decodes : Decodes sys k hProcess mm count list rest) (showPhy : Bool)
    : virtualQueryExFull sys g nDriverLink hProcess showPhy
      = (readRegions sys g hProcess showPhy (mm.mmap.take list.run.success).length 2
          ((mm.mmap.take list.run.success).flatMap (fun vma =>
            entryBytes 512 vma (listedName mm vma) ++ List.replicate (532 - 531) 0) ++ rest)).bind
          fun regions =>
        .ok ⟨!list.run.havePass, regions, some (if list.run.havePass then 1 else 0)⟩ := by
  have int := past.int
  have within := decodes.within
  have bounded := mm.length_lt
  have full : min list.run.success mm.mmap.length = list.run.success := Nat.min_eq_left within
  have front : wordAt (mapsReply mm (listedName mm) list.run.success ++ rest) 0 8
      = list.run.success := by
    rw [mapsReply, full, wordAt, List.drop_zero, List.append_assoc,
      List.take_append_of_le_length (by simp), List.take_of_length_le (by simp),
      leValue_leBytes_word (by omega)]
  have behind : (mapsReply mm (listedName mm) list.run.success ++ rest).drop 8
      = (mm.mmap.take list.run.success).flatMap (fun vma =>
          entryBytes 512 vma (listedName mm vma) ++ List.replicate (532 - 531) 0) ++ rest := by
    rw [mapsReply, List.append_assoc]
    exact List.drop_left' (by simp)
  have accepted : ¬(if list.run.havePass then (1 : Int) else 0) < 0 := by
    split <;> decide
  have ret : decide ((if list.run.havePass then (1 : Int) else 0) = 0) = !list.run.havePass := by
    cases list.run.havePass <;> rfl
  rw [virtualQueryExFull_of_listed showPhy past.listed, if_neg (by omega), decodes.answer,
    List.length_take_of_le within]
  simp only [Run.bind, if_neg accepted, front, behind, ret]

/-- Every mapping has its region in the output. -/
def RepresentsAll (mm : MmStruct) (vOutput : List RegionInfo) : Prop :=
  ∀ vma ∈ mm.mmap, ∃ name, vmRegion vma name ∈ vOutput

/-- Every resident page of every mapping lies in a region of the output. -/
def RepresentsPages (resident : Nat → Bool) (mm : MmStruct) (vOutput : List RegionInfo) : Prop :=
  ∀ vma ∈ mm.mmap, ∀ va, vma.vmStart ≤ va → va < vma.vmEnd
    → resident (va / 4096 * 4096) = true
    → ∃ region ∈ vOutput, region.baseaddress ≤ va ∧ va < region.baseaddress + region.size

/-- What the output has to represent. -/
def Represents (showPhy : Bool) (resident : Nat → Bool) (mm : MmStruct)
    (vOutput : List RegionInfo)
    : Prop :=
  if showPhy then RepresentsPages resident mm vOutput else RepresentsAll mm vOutput

/-- The flag is true if the list is complete, and false otherwise. -/
def FlagTellsTruth (called : Run QueryResult) (showPhy : Bool) (resident : Nat → Bool)
    (mm : MmStruct)
    : Prop :=
  ∃ result,
    called = .ok result
    ∧ (Represents showPhy resident mm result.vOutput → result.bOutListCompleted = some 1)
    ∧ (¬Represents showPhy resident mm result.vOutput → result.bOutListCompleted = some 0)

/-- The mappings that were left out of the listing, and those whose query fails, have no resident
page.
-/
def MissesNoPage (sys : Ioctls) (g : PageGeometry) (hProcess : Nat) (resident : Nat → Bool)
    (mm : MmStruct) (listed : Nat)
    : Prop :=
  ∀ i vma, mm.mmap[i]? = some vma → listed ≤ i ∨ QueryFails sys g hProcess (2 + i) vma
    → ∀ va, vma.vmStart ≤ va → va < vma.vmEnd → resident (va / 4096 * 4096) = false

theorem mem_queriedRegions {nameOf : VmArea → List UInt8} {n : Nat} {vmas : List VmArea}
    {region : RegionInfo}
    : region ∈ queriedRegions sys g hProcess resident nameOf n vmas
      ↔ ∃ i vma, vmas[i]? = some vma ∧ ¬QueryFails sys g hProcess (n + i) vma
        ∧ region ∈ runRegions resident vma (nameOf vma) := by
  rw [queriedRegions, List.mem_flatMap]
  constructor
  · intro found
    obtain ⟨query, member, inside⟩ := found
    obtain ⟨after, here⟩ := List.mem_zipIdx_iff_le_and_getElem?_sub.mp member
    split at inside
    · contradiction
    · next succeeds =>
        refine ⟨query.2 - n, query.1, here, ?_, inside⟩
        rw [Nat.add_sub_cancel' after]
        exact succeeds
  · intro found
    obtain ⟨i, vma, here, succeeds, inside⟩ := found
    refine ⟨(vma, n + i), List.mk_add_mem_zipIdx_iff_getElem?.mpr here, ?_⟩
    rw [if_neg succeeds]
    exact inside

section Runs

variable {vma : VmArea} {name : List UInt8} {va : Nat} (whole : WholePages vma)
include whole

/-- A run lies in its mapping. -/
theorem inside_of_mem_runRegions {region : RegionInfo}
    (member : region ∈ runRegions resident vma name)
    (covers : region.baseaddress ≤ va ∧ va < region.baseaddress + region.size)
    : vma.vmStart ≤ va ∧ va < vma.vmEnd := by
  obtain ⟨r, isRun, same⟩ := List.mem_map.mp member
  have inside := mem_residentRuns_inside whole isRun
  subst same
  simp only at covers
  omega

variable (name) in
/-- Every resident page of a mapping lies in a run. -/
theorem exists_runRegion (low : vma.vmStart ≤ va) (high : va < vma.vmEnd)
    (page : resident (va / 4096 * 4096) = true)
    : ∃ region ∈ runRegions resident vma name,
        region.baseaddress ≤ va ∧ va < region.baseaddress + region.size := by
  obtain ⟨r, isRun, around⟩ := ((areResidentRuns whole).covers va low high).mpr page
  exact ⟨_, List.mem_map_of_mem isRun, around.1, by simp only; omega⟩

end Runs

section Represented

variable (ends : ∀ vma ∈ mm.mmap, PageEnds vma)
  (separate : mm.mmap.Pairwise (fun v w => v.vmEnd ≤ w.vmStart ∨ w.vmEnd ≤ v.vmStart))
include separate

/-- An address lies in one mapping only. -/
theorem index_eq_of_inside {i j : Nat} {v w : VmArea} (first : mm.mmap[i]? = some v)
    (second : mm.mmap[j]? = some w) {va : Nat} (inFirst : v.vmStart ≤ va ∧ va < v.vmEnd)
    (inSecond : w.vmStart ≤ va ∧ va < w.vmEnd)
    : i = j := by
  obtain ⟨below, isFirst⟩ := List.getElem?_eq_some_iff.mp first
  obtain ⟨below', isSecond⟩ := List.getElem?_eq_some_iff.mp second
  have apart := List.pairwise_iff_getElem.mp separate
  subst isFirst isSecond
  rcases Nat.lt_trichotomy i j with before | same | after
  · have := apart i j below below' before
    omega
  · exact same
  · have := apart j i below' below after
    omega

include ends

theorem representsAll_iff {listed : Nat} (within : listed ≤ mm.mmap.length)
    : RepresentsAll mm ((mm.mmap.take listed).map (fun vma => vmRegion vma (listedName mm vma)))
      ↔ listed = mm.mmap.length := by
  constructor
  · intro represents
    by_contra short
    have below : listed < mm.mmap.length := by omega
    have here := List.getElem?_eq_getElem below
    obtain ⟨name, member⟩ := represents _ (List.getElem_mem below)
    obtain ⟨v, inside, same⟩ := List.mem_map.mp member
    obtain ⟨i, found⟩ := List.mem_iff_getElem?.mp inside
    have start : v.vmStart = mm.mmap[listed].vmStart := congrArg RegionInfo.baseaddress same
    have early : i < listed := by
      have bound := (List.getElem?_eq_some_iff.mp found).1
      rw [List.length_take] at bound
      omega
    rw [List.getElem?_take_of_lt early] at found
    have first := (ends _ (List.mem_of_getElem? found)).nonempty
    have second := (ends _ (List.getElem_mem below)).nonempty
    have twice := index_eq_of_inside separate found here ⟨Nat.le_refl _, first⟩
      (by rw [start]; exact ⟨Nat.le_refl _, second⟩)
    omega
  · intro all vma member
    refine ⟨listedName mm vma, List.mem_map.mpr ⟨vma, ?_, rfl⟩⟩
    rw [all, List.take_length]
    exact member

theorem representsPages_iff {listed : Nat}
    (fit : AnswersFit sys g hProcess 2 (mm.mmap.take listed))
    : RepresentsPages resident mm
        (queriedRegions sys g hProcess resident (listedName mm) 2 (mm.mmap.take listed))
      ↔ MissesNoPage sys g hProcess resident mm listed := by
  constructor
  · intro represents i vma found missing va low high
    by_contra page
    obtain ⟨region, member, covers⟩ := represents vma (List.mem_of_getElem? found) va low high
      (by simpa using page)
    obtain ⟨j, v, queried, succeeds, isRun⟩ := mem_queriedRegions.mp member
    have early : j < listed := by
      have bound := (List.getElem?_eq_some_iff.mp queried).1
      rw [List.length_take] at bound
      omega
    have queried' := queried
    rw [List.getElem?_take_of_lt early] at queried
    have small := (fit j v queried').resolve_left succeeds
    have whole := (ends _ (List.mem_of_getElem? queried)).wholePages small
    have inside := inside_of_mem_runRegions whole isRun covers
    have same := index_eq_of_inside separate found queried ⟨low, high⟩ inside
    subst same
    rw [found] at queried
    cases queried
    rcases missing with left | fails
    · omega
    · exact succeeds fails
  · intro missesNone vma member va low high page
    obtain ⟨i, found⟩ := List.mem_iff_getElem?.mp member
    have early : i < listed := by
      by_contra left
      rw [missesNone i vma found (Or.inl (by omega)) va low high] at page
      contradiction
    have succeeds : ¬QueryFails sys g hProcess (2 + i) vma := by
      intro fails
      rw [missesNone i vma found (Or.inr fails) va low high] at page
      contradiction
    have queried : (mm.mmap.take listed)[i]? = some vma := by
      rw [List.getElem?_take_of_lt early]
      exact found
    have whole := (ends vma member).wholePages ((fit i vma queried).resolve_left succeeds)
    obtain ⟨region, isRun, covers⟩ := exists_runRegion (listedName mm vma) whole low high page
    exact ⟨region, mem_queriedRegions.mpr ⟨i, vma, queried, succeeds, isRun⟩, covers⟩

end Represented

/-- A call that passes on whether the driver left out mappings. -/
theorem flagTellsTruth_ok {ret havePass showPhy : Bool} {vOutput : List RegionInfo}
    : FlagTellsTruth (.ok ⟨ret, vOutput, some (if havePass then 1 else 0)⟩) showPhy resident mm
      ↔ (havePass = true ↔ Represents showPhy resident mm vOutput) := by
  constructor
  · intro truth
    obtain ⟨result, same, complete, incomplete⟩ := truth
    cases same
    by_cases represents : Represents showPhy resident mm vOutput
    · have flag := complete represents
      cases havePass <;> simp_all
    · have flag := incomplete represents
      cases havePass <;> simp_all
  · intro truth
    refine ⟨_, rfl, ?_, ?_⟩
    · intro represents
      simp only [truth.mpr represents, if_true]
    · intro missing
      rw [if_neg (mt truth.mp missing)]

section Flag

variable {list : MapsList} {rest : List UInt8}
  (past : PastIoctls sys k nDriverLink hProcess mm count)
  (decodes : Decodes sys k hProcess mm count list rest)
include past decodes

variable (g) in
theorem virtualQueryExFull_all
    : virtualQueryExFull sys g nDriverLink hProcess false
      = .ok
          ⟨!list.run.havePass,
            (mm.mmap.take list.run.success).map (fun vma => vmRegion vma (listedName mm vma)),
            some (if list.run.havePass then 1 else 0)⟩ := by
  have carried : ∀ vma ∈ mm.mmap.take list.run.success, Terminated (listedName mm vma) :=
    fun vma member => terminated_pathName (decodes.named vma member)
  rw [virtualQueryExFull_of_decodes past decodes, readRegions_all 2 carried rest]
  rfl

variable (ends : ∀ vma ∈ mm.mmap, PageEnds vma)
include ends

theorem virtualQueryExFull_queried (clientPages4K : g.pageSize = 4096)
    (phyServed : PhyServed sys ks (Int32.ofNat hProcess) resident)
    (fit : AnswersFit sys g hProcess 2 (mm.mmap.take list.run.success))
    : virtualQueryExFull sys g nDriverLink hProcess true
      = .ok
          ⟨!list.run.havePass,
            queriedRegions sys g hProcess resident (listedName mm) 2
              (mm.mmap.take list.run.success),
            some (if list.run.havePass then 1 else 0)⟩ := by
  have carried : ∀ vma ∈ mm.mmap.take list.run.success, Terminated (listedName mm vma) :=
    fun vma member => terminated_pathName (decodes.named vma member)
  have whole : ∀ i vma, (mm.mmap.take list.run.success)[i]? = some vma
      → QueryFails sys g hProcess (2 + i) vma ∨ WholePages vma := by
    intro i vma found
    have member := List.mem_of_mem_take (List.mem_of_getElem? found)
    exact (fit i vma found).imp_right (ends vma member).wholePages
  rw [virtualQueryExFull_of_decodes past decodes,
    readRegions_queried clientPages4K past.fits past.listed.handle phyServed 2 carried whole rest]
  rfl

theorem virtualQueryExFull_overflows (clientPages4K : g.pageSize = 4096)
    (phyServed : PhyServed sys ks (Int32.ofNat hProcess) resident)
    (large : ¬AnswersFit sys g hProcess 2 (mm.mmap.take list.run.success))
    : virtualQueryExFull sys g nDriverLink hProcess true = .undefined := by
  have carried : ∀ vma ∈ mm.mmap.take list.run.success, Terminated (listedName mm vma) :=
    fun vma member => terminated_pathName (decodes.named vma member)
  rw [virtualQueryExFull_of_decodes past decodes,
    readRegions_overflows clientPages4K past.fits past.listed.handle phyServed 2 carried
      (fun vma member => ends vma (List.mem_of_mem_take member)) rest large]
  rfl

variable (separate : mm.mmap.Pairwise (fun v w => v.vmEnd ≤ w.vmStart ∨ w.vmEnd ≤ v.vmStart))
include separate

variable (g resident) in
/-- Without `showPhy` the flag is wrong, whatever the driver left out. -/
theorem not_flagTellsTruth_all
    : ¬FlagTellsTruth (virtualQueryExFull sys g nDriverLink hProcess false) false resident mm := by
  have within := decodes.within
  rw [virtualQueryExFull_all g past decodes, flagTellsTruth_ok, Represents]
  simp only [Bool.false_eq_true, if_false]
  rw [representsAll_iff ends separate within, decodes.flagged, decide_eq_true_eq]
  omega

/-- With `showPhy` it is right if the driver left out mappings and no page is missed, or if it
did not and one is, unless the loop over the pages overflows.
-/
theorem flagTellsTruth_queried (clientPages4K : g.pageSize = 4096)
    (phyServed : PhyServed sys ks (Int32.ofNat hProcess) resident)
    : FlagTellsTruth (virtualQueryExFull sys g nDriverLink hProcess true) true resident mm
      ↔ AnswersFit sys g hProcess 2 (mm.mmap.take list.run.success)
        ∧ (list.run.havePass = true
          ↔ MissesNoPage sys g hProcess resident mm list.run.success) := by
  by_cases fit : AnswersFit sys g hProcess 2 (mm.mmap.take list.run.success)
  · rw [virtualQueryExFull_queried past decodes ends clientPages4K phyServed fit,
      flagTellsTruth_ok, Represents]
    simp only [if_true]
    rw [representsPages_iff ends separate fit, and_iff_right fit]
  · rw [virtualQueryExFull_overflows past decodes ends clientPages4K phyServed fit]
    refine ⟨?_, fun both => absurd both.1 fit⟩
    intro truth
    obtain ⟨_, same, _⟩ := truth
    cases same

end Flag

/-- The flag tells the truth exactly with `showPhy`, if the index of the loop over the pages does
not overflow, and the driver left out mappings when no resident page is missed, or left out none
when one is.
-/
theorem flagTellsTruth_iff {P : Type} (sys : Ioctls) (k : IoctlKernel P)
    (ks : Nat → IoctlKernel P) (g : PageGeometry) (nDriverLink : Int) (hProcess : Nat)
    (mm : MmStruct) (count : Int) (resident : Nat → Bool) (showPhy : Bool)
    (past : PastIoctls sys k nDriverLink hProcess mm count) (clientPages4K : g.pageSize = 4096)
    (phyServed : PhyServed sys ks (Int32.ofNat hProcess) resident)
    (ends : ∀ vma ∈ mm.mmap, PageEnds vma)
    (separate : mm.mmap.Pairwise (fun v w => v.vmEnd ≤ w.vmStart ∨ w.vmEnd ≤ v.vmStart))
    : ∃ list,
        listing sys k (requestBuf hProcess count.toNat) = some list
        ∧ (FlagTellsTruth (virtualQueryExFull sys g nDriverLink hProcess showPhy) showPhy resident
              mm
          ↔ showPhy = true
            ∧ AnswersFit sys g hProcess 2 (mm.mmap.take list.run.success)
            ∧ (list.run.havePass = true
              ↔ MissesNoPage sys g hProcess resident mm list.run.success)) := by
  obtain ⟨list, rest, decodes⟩ := decodes_of_past past
  refine ⟨list, decodes.made, ?_⟩
  cases showPhy with
  | false =>
      have wrong := not_flagTellsTruth_all g resident past decodes ends separate
      simp only [wrong, Bool.false_eq_true, false_and]
  | true =>
      simp only [flagTellsTruth_queried past decodes ends separate clientPages4K phyServed,
        true_and]

theorem pageEnds_twoMaps : ∀ vma ∈ twoMaps.mmap, PageEnds vma := by
  intro vma member
  simp only [twoMaps, List.mem_cons, List.not_mem_nil, or_false] at member
  rcases member with same | same
  · subst same
    exact ⟨by decide, by decide, by decide⟩
  · subst same
    exact ⟨by decide, by decide, by decide⟩

theorem separate_twoMaps
    : twoMaps.mmap.Pairwise (fun v w => v.vmEnd ≤ w.vmStart ∨ w.vmEnd ≤ v.vmStart) := by
  decide

/-- The driver has room for both mappings. -/
theorem myIoctl_twoMaps
    : ∃ buf,
        myIoctl (deliveredIoctls (fun _ => quietTwoMaps)) 1 .getProcessMapsList (requestBuf 42 2)
        = .ok (0, buf) := by
  have served := servedBy_deliveredIoctls quietTwoMaps
  have wordFits : 42 < 2 ^ 64 := by decide
  have small : 2 < 2 ^ 31 := by decide
  obtain ⟨rest, passed⟩ := pass_requestBuf wordFits small served.lists rfl (fun _ => rfl) rfl rfl
    (fun vma member => pathName_eq (transportable_twoMaps vma member))
  have room : ¬2 + 50 < twoMaps.mmap.length := by decide
  rw [if_neg room] at passed
  refine ⟨mapsReply twoMaps (mapsName twoMaps) (2 + 50) ++ rest, ?_⟩
  rw [myIoctl, passed]
  rfl

theorem pastIoctls_twoMaps
    : PastIoctls (deliveredIoctls (fun _ => quietTwoMaps)) quietTwoMaps 3 42 twoMaps 2 := by
  have served := servedBy_deliveredIoctls quietTwoMaps
  have counted : queryCount (deliveredIoctls (fun _ => quietTwoMaps)) 42 = .ok 2 :=
    queryCount_eq served.counts rfl
  obtain ⟨buf, called⟩ := myIoctl_twoMaps
  exact ⟨by decide, ⟨by decide, by decide, counted, by decide⟩, by decide, served.lists,
    ⟨_, rfl, rfl⟩, ⟨0, buf, called, Int.le_refl 0⟩⟩

theorem phyServed_twoMaps
    : PhyServed (deliveredIoctls (fun _ => quietTwoMaps)) (fun _ => quietTwoMaps) (Int32.ofNat 42)
        (isResident ⟨some twoMaps, AddressSpace.oneUp.walk arm64.toPageGeometry⟩
          AddressSpace.oneUp.ptes) := by
  refine ⟨(servedBy_deliveredIoctls quietTwoMaps).checks, fun _ => rfl, ?_⟩
  intro _ task found
  cases found
  rfl

theorem flagTellsTruth_iff_twoMaps
    : ∃ list,
        listing (deliveredIoctls (fun _ => quietTwoMaps)) quietTwoMaps (requestBuf 42 2) = some list
        ∧ (FlagTellsTruth
              (virtualQueryExFull (deliveredIoctls (fun _ => quietTwoMaps)) arm64.toPageGeometry 3
                42 true)
              true
              (isResident ⟨some twoMaps, AddressSpace.oneUp.walk arm64.toPageGeometry⟩
                AddressSpace.oneUp.ptes)
              twoMaps
          ↔ true = true
            ∧ AnswersFit (deliveredIoctls (fun _ => quietTwoMaps)) arm64.toPageGeometry 42 2
                (twoMaps.mmap.take list.run.success)
            ∧ (list.run.havePass = true
              ↔ MissesNoPage (deliveredIoctls (fun _ => quietTwoMaps)) arm64.toPageGeometry 42
                  (isResident ⟨some twoMaps, AddressSpace.oneUp.walk arm64.toPageGeometry⟩
                    AddressSpace.oneUp.ptes)
                  twoMaps list.run.success)) :=
  flagTellsTruth_iff _ quietTwoMaps (fun _ => quietTwoMaps) arm64.toPageGeometry 3 42 twoMaps 2 _
    true pastIoctls_twoMaps rfl phyServed_twoMaps pageEnds_twoMaps separate_twoMaps

/-- Both mappings are listed, and the flag says that the list is not complete. -/
theorem not_flagTellsTruth_twoMaps
    : virtualQueryExFull (deliveredIoctls (fun _ => quietTwoMaps)) arm64.toPageGeometry 3 42 false
        = .ok
            ⟨true, twoMaps.mmap.map (fun vma => vmRegion vma (listedName twoMaps vma)), some 0⟩
      ∧ ∀ resident,
        ¬FlagTellsTruth
          (virtualQueryExFull (deliveredIoctls (fun _ => quietTwoMaps)) arm64.toPageGeometry 3 42
            false)
          false resident twoMaps := by
  obtain ⟨list, rest, decodes⟩ := decodes_of_past pastIoctls_twoMaps
  refine ⟨?_, fun resident => not_flagTellsTruth_all arm64.toPageGeometry resident
    pastIoctls_twoMaps decodes pageEnds_twoMaps separate_twoMaps⟩
  obtain ⟨buf, called⟩ := myIoctl_twoMaps
  have answer := decodes.answer
  have within := decodes.within
  have flagged := decodes.flagged
  rw [show Int.toNat 2 = 2 from rfl, called] at answer
  have passed : list.run.havePass = false := by
    cases havePass : list.run.havePass with
    | false => rfl
    | true =>
        rw [havePass] at answer
        cases answer
  rw [passed, eq_comm, decide_eq_false_iff_not] at flagged
  rw [virtualQueryExFull_all arm64.toPageGeometry pastIoctls_twoMaps decodes, passed,
    List.take_of_length_le (by omega)]
  rfl

end RwMem.Server
