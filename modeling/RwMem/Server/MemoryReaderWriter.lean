import RwMem.Client.Maps

/-! `VirtualQueryExFull` of the server's driver client, over any answers to its calls of `ioctl`.
-/

namespace RwMem.Server

open Memory RwMem.Driver RwMem.Client

def majorNum : Nat := 100

/-- The request codes of the server. It has none for the commands that concern breakpoints. -/
def requestCode : Command → Option UInt32
  | .getProcessMapsCount => some (ioc .readWrite majorNum 0 8)
  | .getProcessMapsList => some (ioc .readWrite majorNum 1 8)
  | .checkProcessAddrPhy => some (ioc .readWrite majorNum 2 8)
  | _ => none

def PAGE_NOACCESS : UInt32 := 1
def PAGE_READONLY : UInt32 := 2
def PAGE_READWRITE : UInt32 := 4
def PAGE_EXECUTE_READ : UInt32 := 32
def PAGE_EXECUTE_READWRITE : UInt32 := 64
def MEM_MAPPED : UInt32 := 262144
def MEM_PRIVATE : UInt32 := 131072

/-- `DRIVER_REGION_INFO`; the name is what stands in front of its terminator. -/
structure RegionInfo where
  baseaddress : Nat
  size : Nat
  protection : UInt32
  type : UInt32
  name : List UInt8
deriving DecidableEq

/-- How a call ends: with a value, with undefined behaviour, or killed inside the kernel. -/
inductive Run (α : Type) where
  | ok (value : α)
  | undefined
  | killed
deriving DecidableEq

def Run.bind {α β : Type} : Run α → (α → Run β) → Run β
  | .ok value, next => next value
  | .undefined, _ => .undefined
  | .killed, _ => .killed

variable (sys : Ioctls) (g : PageGeometry)

/-- `_rwProcMemDriver_MyIoctl` with a pointer to a buffer. -/
def myIoctl (n : Nat) (command : Command) (buf : List UInt8) : Run (Int × List UInt8) :=
  match sys.pass n command buf with
  | none => .killed
  | some (ret, buf) => .ok (libcIoctl ret, buf)

/-- The difference of two `uint64_t`. -/
def diff (a b : Nat) : Nat := wrap (a + 2 ^ 64 - b)

theorem diff_of_le {a b : Nat} (ascending : b ≤ a) (small : a < 2 ^ 64) : diff a b = a - b := by
  rw [diff, wrap]
  omega

/-- `bufSize`, which `std::max<int>` takes through an `int`. -/
def phyBufSize (beginAddress endAddress : Nat) : Nat :=
  let pages := diff (endAddress / g.pageSize) (beginAddress / g.pageSize)
  (max 24 (toInt (wrap (pages + 7) / 8 : Nat))).toNat

/-- `_rwProcMemDriver_CheckMemAddrIsValid`; `none` is the null pointer. -/
def checkMemAddrIsValid (n hProcess beginAddress endAddress : Nat)
    : Run (Option (List UInt8)) :=
  if hProcess = 0 then .ok none
  else
    let buf := storeWords hProcess beginAddress endAddress
      (cells sys.fresh 0 (phyBufSize g beginAddress endAddress))
    (myIoctl sys n .checkProcessAddrPhy buf).bind fun (r, buf) =>
    .ok (if r > 0 then some buf else none)

/-- The loop over the pages of a region, from the page at `addr`, which is page `i`. The ends
of a region are whole pages, so `addr` does not wrap; `i` is an `int`, and indexes the buffer.
-/
def phyRegions (region : RegionInfo) (isphy : List UInt8) (vmaEnd addr i : Nat)
    (isPhyRegion : Bool) (base : Nat)
    : Run (List RegionInfo) :=
  if _more : addr < vmaEnd then
    if 2 ^ 31 ≤ i + 1 then .undefined
    else
      match isphy[i / 8]? with
      | none => .undefined
      | some b =>
          if b.toNat.testBit (i % 8) then
            phyRegions region isphy vmaEnd (addr + g.pageSize) (i + 1) true
              (if isPhyRegion then base else addr)
          else if isPhyRegion then
            (phyRegions region isphy vmaEnd (addr + g.pageSize) (i + 1) false base).bind
              fun rest =>
                .ok ({ region with baseaddress := base, size := diff addr base } :: rest)
          else
            phyRegions region isphy vmaEnd (addr + g.pageSize) (i + 1) false base
  else
    .ok
      (if isPhyRegion then
        [{ region with baseaddress := base, size := diff vmaEnd base }]
      else
        [])
termination_by vmaEnd - addr
decreasing_by
  all_goals
    have := g.pageSize_pos
    omega

/-- The protection that the flags of an entry stand for. -/
def protectionOf (read write execute : Bool) : UInt32 :=
  if execute then
    if write then PAGE_EXECUTE_READWRITE else PAGE_EXECUTE_READ
  else if write then PAGE_READWRITE
  else if read then PAGE_READONLY
  else PAGE_NOACCESS

/-- One round of the decoding loop, up to the region: the end of the mapping, and the region. -/
def regionAt (entry : List UInt8) : Nat × RegionInfo :=
  let vmaStart := wordAt entry 0 8
  let vmaEnd := wordAt entry 8 8
  let flag (i : Nat) : Bool := entry[16 + i]? == some 1
  (vmaEnd,
    { baseaddress := vmaStart
      size := diff vmaEnd vmaStart
      protection := protectionOf (flag 0) (flag 1) (flag 2)
      type := if flag 3 then MEM_MAPPED else MEM_PRIVATE
      name := (((entry.drop 20).take 512).take 511).takeWhile (fun b => b ≠ 0) })

/-- The decoding loop, in front of what is left of the buffer. Behind the buffer it would read
whatever is there.
-/
def readRegions (hProcess : Nat) (showPhy : Bool)
    : Nat → Nat → List UInt8 → Run (List RegionInfo)
  | 0, _, _ => .ok []
  | res + 1, n, buf =>
      if buf.length < 532 then .undefined
      else
        let (vmaEnd, region) := regionAt (buf.take 532)
        if showPhy then
          (checkMemAddrIsValid sys g n hProcess region.baseaddress vmaEnd).bind fun isphy =>
          match isphy with
          | none => readRegions hProcess showPhy res (n + 1) (buf.drop 532)
          | some isphy =>
              (phyRegions g region isphy vmaEnd region.baseaddress 0 false 0).bind fun regions =>
              (readRegions hProcess showPhy res (n + 1) (buf.drop 532)).bind fun rest =>
              .ok (regions ++ rest)
        else
          (readRegions hProcess showPhy res n (buf.drop 532)).bind fun rest =>
          .ok (region :: rest)

/-- What the call returns, what it appended to `vOutput`, and `*bOutListCompleted`, if it is
set.
-/
structure QueryResult where
  ret : Bool
  vOutput : List RegionInfo
  bOutListCompleted : Option Int
deriving DecidableEq

def QueryResult.failed : QueryResult := ⟨false, [], none⟩

/-- `count`, from the answer to the first `ioctl`. -/
def queryCount (hProcess : Nat) : Run Int :=
  match sys.ioctl 0 .getProcessMapsCount hProcess (fun _ => 0) with
  | .oops => .killed
  | .returned ret _ => .ok (libcIoctl ret)

/-- `VirtualQueryExFull` through `ioctl`. The length of the buffer is computed as an `int`. -/
def virtualQueryExFull (nDriverLink : Int) (hProcess : Nat) (showPhy : Bool)
    : Run QueryResult :=
  if nDriverLink < 0 then .ok .failed
  else if hProcess = 0 then .ok .failed
  else
    (queryCount sys hProcess).bind fun count =>
    if count ≤ 0 then .ok .failed
    else if 2 ^ 31 ≤ 8 + (8 + 8 + 4 + 512) * (count + 50) then .undefined
    else
      (myIoctl sys 1 .getProcessMapsList (requestBuf hProcess count.toNat)).bind
        fun (unfinish, buf) =>
      if unfinish < 0 then .ok .failed
      else
        (readRegions sys g hProcess showPhy (wordAt buf 0 8) 2 (buf.drop 8)).bind fun regions =>
        .ok ⟨unfinish = 0, regions, some unfinish⟩

end RwMem.Server
