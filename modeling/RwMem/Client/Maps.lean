import RwMem.Client.Device
import RwMem.Driver.Ioctl
import RwMem.Memory.Utf8

/-! `get_mem_map` and `is_mem_phy` of the client library, over any answers to their calls of
`ioctl`.
-/

namespace RwMem.Client

open Memory RwMem.Driver

structure MapsEntry where
  start : Nat
  end_ : Nat
  readPermission : Bool
  writePermission : Bool
  executePermission : Bool
  shared : Bool
  name : List UInt8
deriving DecidableEq

/-- The variants of `errors::Error` that the two functions return. -/
inductive MapsError where
  | errno (e : Int)
  | mapsTooLong
  | notAligned
  | beginLargerThanEnd (beginAddr endAddr : Nat)
  | unexpectedEof
deriving DecidableEq

/-- How a call ends: with a value, with an error, by a panic, or killed inside the kernel. -/
inductive Outcome (α : Type) where
  | ok (value : α)
  | err (e : MapsError)
  | panicked
  | killed
deriving DecidableEq

def Outcome.bind {α β : Type} : Outcome α → (α → Outcome β) → Outcome β
  | .ok value, next => next value
  | .err e, _ => .err e
  | .panicked, _ => .panicked
  | .killed, _ => .killed

/-- What a client meets: the `n`-th `ioctl` of a call, where its buffer lies, and what fresh
memory holds that was not cleared.
-/
structure Ioctls where
  ioctl : Nat → Command → Nat → (Nat → UInt8) → IoctlResult
  fresh : Nat → UInt8
  place : Nat → Nat → Nat
  place_lt : ∀ n len, len < 2 ^ 63 → place n len + len < 2 ^ 64

/-- The request codes of the library. `ioctl_write_int!` puts the size of a `c_int` into the code
for the count, and `request_code_readwrite!` is given the size of a `usize`.
-/
def requestCode : Command → UInt32
  | .getProcessMapsCount => ioc .write rwmemMajorNum 0 4
  | .getProcessMapsList => ioc .readWrite rwmemMajorNum 1 8
  | .checkProcessAddrPhy => ioc .readWrite rwmemMajorNum 2 8
  | .addBp => ioc .readWrite rwmemMajorNum 3 8
  | .getNumBrps => ioc .none rwmemMajorNum 4 0
  | .getNumWrps => ioc .none rwmemMajorNum 5 0

/-- The `n`-th `ioctl` is made in the `n`-th of these kernels, and goes through the switch of the
driver.
-/
def driverIoctls {P : Type} (kernel : Nat → IoctlKernel P) : Ioctls where
  ioctl n command := rwmemIoctl (kernel n) (requestCode command)
  fresh _ := 0
  place _ _ := 0
  place_lt n len small := by omega

/-- The same clients, but their counts are answered so. -/
def countingIoctls {P : Type} (count : Nat → Nat → (Nat → UInt8) → IoctlResult)
    (kernel : Nat → IoctlKernel P)
    : Ioctls :=
  { driverIoctls kernel with
    ioctl := fun n command =>
      if command = .getProcessMapsCount then count n
      else rwmemIoctl (kernel n) (requestCode command) }

/-- What the clients would meet if the driver knew their codes for the count. -/
def deliveredIoctls {P : Type} (kernel : Nat → IoctlKernel P) : Ioctls :=
  countingIoctls (fun n => rwmemMapsCount (kernel n)) kernel

/-- The code for the count differs from the driver's in its size, and is no other code. -/
theorem commandOf_requestCode_count : commandOf (requestCode .getProcessMapsCount) = none := by
  decide

/-- The other codes are the driver's. -/
theorem requestCode_eq_code {command : Command} (other : command ≠ .getProcessMapsCount)
    : requestCode command = command.code := by
  cases command with
  | getProcessMapsCount => contradiction
  | getProcessMapsList => rfl
  | checkProcessAddrPhy => rfl
  | addBp => rfl
  | getNumBrps => rfl
  | getNumWrps => rfl

theorem rwmemIoctl_requestCode {P : Type} (k : IoctlKernel P) (command : Command)
    (other : command ≠ .getProcessMapsCount)
    : rwmemIoctl k (requestCode command) = command.handle k := by
  funext arg mem
  rw [requestCode_eq_code other, rwmemIoctl, commandOf_code]

/-- Two of the three commands arrive, in any kernel. -/
theorem ioctl_driverIoctls {P : Type} (kernel : Nat → IoctlKernel P) (n : Nat)
    : (driverIoctls kernel).ioctl n .getProcessMapsList = rwmemMapsList (kernel n)
      ∧ (driverIoctls kernel).ioctl n .checkProcessAddrPhy = rwmemCheckPhy (kernel n) :=
  ⟨rwmemIoctl_requestCode (kernel n) .getProcessMapsList (by decide),
    rwmemIoctl_requestCode (kernel n) .checkProcessAddrPhy (by decide)⟩

theorem ioctl_countingIoctls {P : Type} (count : Nat → Nat → (Nat → UInt8) → IoctlResult)
    (kernel : Nat → IoctlKernel P) (n : Nat)
    : (countingIoctls count kernel).ioctl n .getProcessMapsCount = count n
      ∧ (countingIoctls count kernel).ioctl n .getProcessMapsList = rwmemMapsList (kernel n)
      ∧ (countingIoctls count kernel).ioctl n .checkProcessAddrPhy = rwmemCheckPhy (kernel n) :=
  ⟨rfl, ioctl_driverIoctls kernel n⟩

variable (sys : Ioctls)

/-- The `n`-th `ioctl`, with a pointer to a buffer: its result and the buffer afterwards, unless
it faults.
-/
def Ioctls.pass (n : Nat) (command : Command) (buf : List UInt8)
    : Option (Int × List UInt8) :=
  let p := sys.place n buf.length
  match sys.ioctl n command p (store (fun _ => 0) p buf) with
  | .oops => none
  | .returned ret mem => some (ret, cells mem p buf.length)

/-- `Errno::result` of an `ioctl`. -/
def Ioctls.call (n : Nat) (command : Command) (buf : List UInt8)
    : Outcome (Int × List UInt8) :=
  match sys.pass n command buf with
  | none => .killed
  | some (ret, buf) =>
      if libcIoctl ret = -1 then .err (.errno (-ret)) else .ok (libcIoctl ret, buf)

/-- `pid as i64` and `pid as u64`. -/
def pidWord (pid : Int32) : Nat := pid.toInt64.toUInt64.toNat

/-- The first 24 bytes of a buffer replaced by three words. -/
def storeWords (a b c : Nat) (buf : List UInt8) : List UInt8 :=
  overwrite (overwrite (overwrite buf 0 (leBytes 8 a)) 8 (leBytes 8 b)) 16 (leBytes 8 c)

/-- A request for the list: a process, the length of a name, and the size of the buffer, which
is cleared otherwise and has room for 50 more entries than were counted.
-/
def requestBuf (pid count : Nat) : List UInt8 :=
  let bufLen := 8 + (8 + 8 + 4 + 512) * (count + 50)
  storeWords pid 512 bufLen (List.replicate bufLen 0)

/-- `BitVec::<u8, Lsb0>::from_vec`. -/
def bitsOf (buf : List UInt8) : List Bool :=
  buf.flatMap (fun b => (List.range 8).map (fun j => b.toNat.testBit j))

/-- The request of `is_mem_phy`. -/
def phyRequest (pid : Int32) (beginAddr endAddr : Nat) : List UInt8 :=
  let bufSize := max 24 (((endAddr >>> 12) - (beginAddr >>> 12) + 7) / 8)
  storeWords (pidWord pid) beginAddr endAddr (List.replicate bufSize 0)

def isMemPhy (n : Nat) (pid : Int32) (beginAddr endAddr : Nat) : Outcome (List Bool) :=
  if beginAddr &&& 0xfff ≠ 0 then .err .notAligned
  else if endAddr &&& 0xfff ≠ 0 then .err .notAligned
  else if beginAddr ≥ endAddr then .err (.beginLargerThanEnd beginAddr endAddr)
  else
    (sys.call n .checkProcessAddrPhy (phyRequest pid beginAddr endAddr)).bind
      (fun (_, buf) => .ok ((bitsOf buf).take ((endAddr >>> 12) - (beginAddr >>> 12))))

def getMemMapCount (pid : Int32) : Outcome Nat :=
  match sys.ioctl 0 .getProcessMapsCount (pidWord pid) (fun _ => 0) with
  | .oops => .killed
  | .returned ret _ =>
      if libcIoctl ret = -1 then .err (.errno (-ret)) else .ok (toUint64 (libcIoctl ret))

/-- `read_exact` of a cursor, which stands at the front of what it has left. -/
def readExact (n : Nat) (cursor : List UInt8) : Outcome (List UInt8 × List UInt8) :=
  if n ≤ cursor.length then .ok (cursor.take n, cursor.drop n) else .err .unexpectedEof

def readU64 (cursor : List UInt8) : Outcome (Nat × List UInt8) :=
  (readExact 8 cursor).bind (fun (bytes, cursor) => .ok (leValue bytes, cursor))

def readFlag (cursor : List UInt8) : Outcome (Bool × List UInt8) :=
  (readExact 1 cursor).bind (fun (bytes, cursor) => .ok (leValue bytes ≠ 0, cursor))

/-- One round of the decoding loop, up to the name. -/
def readEntry (cursor : List UInt8) : Outcome (MapsEntry × List UInt8) :=
  (readU64 cursor).bind fun (start, cursor) =>
  (readU64 cursor).bind fun (end_, cursor) =>
  (readFlag cursor).bind fun (readPermission, cursor) =>
  (readFlag cursor).bind fun (writePermission, cursor) =>
  (readFlag cursor).bind fun (executePermission, cursor) =>
  (readFlag cursor).bind fun (shared, cursor) =>
  (readExact 512 cursor).bind fun (name, cursor) =>
  .ok
    (⟨start, end_, readPermission, writePermission, executePermission, shared,
        fromUtf8Lossy (name.takeWhile (fun b => b ≠ 0))⟩,
      cursor)

/-- The loop over the residency of the pages of an entry, from page `i` on. -/
def phyEntries (entry : MapsEntry) (i : Nat) (isLastPhy : Bool) (beginPhy : Nat)
    : List Bool → List MapsEntry
  | [] => if isLastPhy then [{ entry with start := beginPhy }] else []
  | isPhy :: rest =>
      if isPhy then
        if !isLastPhy then
          phyEntries entry (i + 1) true (entry.start + i * 0x1000) rest
        else
          phyEntries entry (i + 1) true beginPhy rest
      else if isLastPhy then
        { entry with start := beginPhy, end_ := entry.start + i * 0x1000 }
          :: phyEntries entry (i + 1) false beginPhy rest
      else
        phyEntries entry (i + 1) false beginPhy rest

/-- The decoding loop. With `phyOnly` every round makes an `ioctl`, the next one is the `n`-th. -/
def readEntries (pid : Int32) (phyOnly : Bool)
    : Nat → Nat → List UInt8 → Outcome (List MapsEntry)
  | 0, _, _ => .ok []
  | realCount + 1, n, cursor =>
      (readEntry cursor).bind fun (entry, cursor) =>
      if phyOnly then
        (isMemPhy sys n pid entry.start entry.end_).bind fun isPhy =>
        (readEntries pid phyOnly realCount (n + 1) cursor).bind fun rest =>
        .ok (phyEntries entry 0 false 0 isPhy ++ rest)
      else
        (readEntries pid phyOnly realCount n cursor).bind fun rest =>
        .ok (entry :: rest)

/-- `size_of::<MapsEntry>()`. -/
def mapsEntrySize : Nat := 48

/-- The request of `get_mem_map`, once a count is known. -/
def mapsRequest (pid : Int32) (count : Nat) : List UInt8 := requestBuf (pidWord pid) count

/-- What `get_mem_map` makes of a buffer that the driver filled. A vector of more than
`isize::MAX` bytes cannot be allocated.
-/
def decodeMaps (pid : Int32) (phyOnly : Bool) (buf : List UInt8) : Outcome (List MapsEntry) :=
  (readU64 buf).bind fun (realCount, cursor) =>
  if 2 ^ 63 ≤ realCount * mapsEntrySize then .panicked
  else readEntries sys pid phyOnly realCount 2 cursor

def getMemMap (pid : Int32) (phyOnly : Bool) : Outcome (List MapsEntry) :=
  (getMemMapCount sys pid).bind fun count =>
  if 2 ^ 63 ≤ 8 + (8 + 8 + 4 + 512) * (count + 50) then .panicked
  else
    (sys.call 1 .getProcessMapsList (mapsRequest pid count)).bind fun (unfinished, buf) =>
    if unfinished ≠ 0 then .err .mapsTooLong
    else decodeMaps sys pid phyOnly buf

end RwMem.Client
