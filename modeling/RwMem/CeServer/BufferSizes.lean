import RwMem.Server.FastMemory
import RwMem.CeServer.CompressedReply
import RwMem.CeServer.ModuleMerging

/-! The sizes that the lengths of a client come to on their way through the handlers and the driver
client, and how far the buffers of these sizes are used.
-/

namespace RwMem.CeServer

open Memory RwMem.Driver RwMem.Server

-----------------------------------------------------------------------------------------
-- Uses of buffers
-----------------------------------------------------------------------------------------

inductive BufferUse where
  | store
  | copy
  | compare
deriving DecidableEq

/-- A use of the first `reach` bytes of a buffer that was allocated with `allocated` bytes. -/
structure BufferAccess where
  use : BufferUse
  allocated : Nat
  reach : Nat

/-- The uses of buffers in some code, and the values that its size computations in `int` have
without a limit.
-/
structure SizeLog where
  accesses : List BufferAccess
  signed : List Int

def SizeLog.nothing : SizeLog := ⟨[], []⟩

instance : Append SizeLog where
  append a b := ⟨a.accesses ++ b.accesses, a.signed ++ b.signed⟩

/-- Stores and copies stay inside of their buffers, and no size computation overflows. -/
structure SizeLog.Sound (log : SizeLog) : Prop where
  inside : ∀ a ∈ log.accesses, a.use ≠ .compare → a.reach ≤ a.allocated
  fits : ∀ n ∈ log.signed, IsInt n

theorem SizeLog.sound_nothing : nothing.Sound :=
  ⟨fun _ member => (nomatch member), fun _ member => (nomatch member)⟩

theorem SizeLog.sound_singleton {use : BufferUse} {allocated reach : Nat} {signed : List Int}
    (inside : reach ≤ allocated) (fits : ∀ n ∈ signed, IsInt n)
    : (SizeLog.mk [⟨use, allocated, reach⟩] signed).Sound := by
  refine ⟨fun a member _ => ?_, fits⟩
  rw [List.mem_singleton.mp member]
  exact inside

/-- Code without size computations in `int` is sound if all that it uses is inside. -/
theorem SizeLog.sound_of_inside {accesses : List BufferAccess}
    (inside : ∀ a ∈ accesses, a.reach ≤ a.allocated)
    : (SizeLog.mk accesses []).Sound :=
  ⟨fun a member _ => inside a member, fun _ member => nomatch member⟩

theorem SizeLog.sound_append {a b : SizeLog} : (a ++ b).Sound ↔ a.Sound ∧ b.Sound := by
  constructor
  · intro sound
    exact ⟨⟨fun x member => sound.inside x (List.mem_append_left _ member),
        fun n member => sound.fits n (List.mem_append_left _ member)⟩,
      ⟨fun x member => sound.inside x (List.mem_append_right _ member),
        fun n member => sound.fits n (List.mem_append_right _ member)⟩⟩
  · rintro ⟨first, second⟩
    exact ⟨fun x member => (List.mem_append.mp member).elim (first.inside x) (second.inside x),
      fun n member => (List.mem_append.mp member).elim (first.fits n) (second.fits n)⟩

-----------------------------------------------------------------------------------------
-- What is outside of the handlers
-----------------------------------------------------------------------------------------

/-- The count that `recvall` goes down from, an `ssize_t`. -/
def sizeleft (size : Nat) : Int := (size : Int).bmod (2 ^ 64)

/-- How many bytes `recvall` stores if `arriving` bytes come before the connection fails. -/
def recvallStores (size arriving : Nat) : Nat := min (sizeleft size).toNat arriving

/-- The result of `recvall` is positive. -/
def RecvallTakes (size arriving : Nat) : Prop :=
  0 < sizeleft size ∧ (sizeleft size).toNat ≤ arriving

instance (size arriving : Nat) : Decidable (RecvallTakes size arriving) :=
  inferInstanceAs (Decidable (_ ∧ _))

/-- What a call of `CApi` finds: the driver's handle behind a handle of a process, the address and
the link to the driver.
-/
structure CallTarget where
  u64DriverProcessHandle : Option UInt64
  lpBaseAddress : UInt64
  nDriverLink : Int

/-- The call passes the test of the handle and the four tests of the driver client. -/
def CallTarget.Passes (t : CallTarget) (nSize : Nat) : Prop :=
  t.u64DriverProcessHandle ≠ none ∧ t.lpBaseAddress ≠ 0 ∧ 0 ≤ t.nDriverLink
    ∧ t.u64DriverProcessHandle ≠ some 0 ∧ nSize ≠ 0

instance (t : CallTarget) (nSize : Nat) : Decidable (t.Passes nSize) :=
  inferInstanceAs (Decidable (_ ∧ _))

/-- A call of `read`: how far it stores in the buffer, and its result. A size that is negative as an
`ssize_t` is refused by the kernel.
-/
structure ReadCall (nSize : Nat) where
  reach : Nat
  ret : Int
  reach_le : reach ≤ nSize
  ret_le : ret ≤ reach
  refuses : 2 ^ 63 ≤ nSize → reach = 0

/-- What is outside of a handler: the payload that comes, what `CApi` finds, the system call and the
library, the blocks that `malloc` gives, and how many turns the loops over `deflate` have made.
-/
structure HandlerContext where
  arriving : Nat
  target : CallTarget
  read : (nSize : Nat) → ReadCall nSize
  zlib : Zlib
  fresh : Nat → Nat → UInt8
  turns : Nat

-----------------------------------------------------------------------------------------
-- The handlers
-----------------------------------------------------------------------------------------

/-- `CMD_GETSYMBOLLISTFROMFILE`: the terminator, the path, and its comparison with `/dev/`. -/
def symbolListSizes (symbolpathsize : UInt32) (x : HandlerContext) : SizeLog :=
  let allocated := (symbolpathsize + 1).toNat
  let size := symbolpathsize.toNat
  { accesses :=
      [⟨.store, allocated, size + 1⟩, ⟨.store, allocated, recvallStores size x.arriving⟩]
        ++ if RecvallTakes size x.arriving then [⟨.compare, allocated, 5⟩] else []
    signed := [] }

/-- `_rwProcMemDriver_ReadProcessMemory` behind its tests, on a buffer of `room` bytes. -/
def readClientSizes (room nSize : Nat) (call : ReadCall nSize) : SizeLog :=
  if nSize < 17 then
    { accesses :=
        [⟨.store, 17, 17⟩, ⟨.copy, 17, 17⟩, ⟨.store, 17, call.reach⟩,
          ⟨.copy, 17, call.ret.toNat⟩, ⟨.store, room, call.ret.toNat⟩]
      signed := [] }
  else
    { accesses := [⟨.store, room, 17⟩, ⟨.copy, room, 17⟩, ⟨.store, room, call.reach⟩]
      signed := [] }

/-- The compression of `uncompressedSize` bytes in a buffer of `room` bytes, after some turns of the
loops: the pointers to blocks, the current block, the input, and what is sent of the blocks.
-/
def Deflating.sizes (s : Deflating) (room uncompressedSize : Nat) : SizeLog where
  accesses :=
    [⟨.store, COMPRESS_BLOCKSIZE, s.nextOut⟩, ⟨.copy, room, uncompressedSize - s.availIn⟩,
      ⟨.copy, COMPRESS_BLOCKSIZE, COMPRESS_BLOCKSIZE⟩,
      ⟨.copy, COMPRESS_BLOCKSIZE, COMPRESS_BLOCKSIZE - s.availOut⟩]
      ++ s.stored.map (fun p => ⟨.store, p.2 * 8, (p.1 + 1) * 8⟩)
  signed := s.stored.map (fun p => (p.1 : Int)) ++ s.stored.map (fun p => (p.2 : Int))

/-- The `bread` of `CApi::ReadProcessMemory`. -/
def HandlerContext.bread (x : HandlerContext) (nSize : Nat) : Nat :=
  if x.target.Passes nSize then (x.read nSize).ret.toNat else 0

/-- The `o->read` of a read of `size` bytes: the `size` goes through an `int` to the driver client,
and the count comes back through one.
-/
def HandlerContext.countRead (x : HandlerContext) (size : UInt32) : Int :=
  toInt (x.bread (toUint64 (toInt size.toNat)))

/-- The loops over `deflate` for a read of `size` bytes after a number of turns. -/
def HandlerContext.deflating (x : HandlerContext) (size : UInt32) (turns : Nat) : Deflating :=
  (Deflating.turn x.zlib)^[turns] (.start size.toNat (x.countRead size % 2 ^ 32).toNat x.fresh)

/-- `CMD_READPROCESSMEMORY`. -/
def readSizes (size : UInt32) (compress : Bool) (x : HandlerContext) : SizeLog :=
  let room := size.toNat
  let nSize := toUint64 (toInt size.toNat)
  let uncompressedSize := (x.countRead size % 2 ^ 32).toNat
  ⟨[⟨.store, 4 + room, 4 + room⟩, ⟨.store, 4 + room, 4⟩], []⟩
    ++ (if x.target.Passes nSize then readClientSizes room nSize (x.read nSize) else .nothing)
    ++ if compress then (x.deflating size x.turns).sizes room uncompressedSize
      else ⟨[⟨.copy, 4 + room, toUint64 (4 + x.countRead size)⟩], []⟩

/-- `_rwProcMemDriver_WriteProcessMemory` behind its tests, on a buffer of `room` bytes. -/
def writeClientSizes (room nSize : Nat) : SizeLog :=
  let allocated := bufSizeOf (nSize + 17)
  { accesses :=
      [⟨.store, allocated, allocated⟩, ⟨.store, allocated, 17⟩, ⟨.copy, room, nSize⟩,
        ⟨.store, allocated, 17 + nSize⟩, ⟨.copy, allocated, 17 + nSize⟩]
    signed := [(wrap (nSize + 17) : Nat)] }

/-- `CMD_WRITEPROCESSMEMORY`. -/
def writeSizes (size : UInt32) (x : HandlerContext) : SizeLog :=
  let allocated := toUint64 (toInt size.toNat)
  if toInt size.toNat = 0 then .nothing
  else
    ⟨[⟨.store, allocated, recvallStores allocated x.arriving⟩], []⟩
      ++ if RecvallTakes allocated x.arriving ∧ x.target.Passes allocated then
          writeClientSizes allocated allocated
        else .nothing

def MAX_HIT_COUNT : Nat := 5000000

/-- `CMD_AOBSCAN`. The buffer for the hits is allocated and none of it sent. -/
def aobScanSizes (scansize : UInt32) (x : HandlerContext) : SizeLog :=
  let n := toInt scansize.toNat
  let allocated := toUint64 (toInt (n * 2))
  ⟨[⟨.store, allocated, recvallStores allocated x.arriving⟩], [n * 2]⟩
    ++ if RecvallTakes allocated x.arriving then
        ⟨[⟨.store, toUint64 n, toUint64 n⟩, ⟨.copy, allocated, toUint64 n⟩,
          ⟨.store, toUint64 n, toUint64 n⟩, ⟨.copy, allocated, (n + toUint64 n).toNat⟩,
          ⟨.copy, 8 * MAX_HIT_COUNT, 0⟩], []⟩
      else .nothing

/-- The commands with a length in their record, each as the word that is received. -/
inductive SizedRequest where
  | getSymbolListFromFile (symbolpathsize : UInt32)
  | readProcessMemory (size : UInt32) (compress : Bool)
  | writeProcessMemory (size : UInt32)
  | aobScan (scansize : UInt32)

def SizedRequest.sizes : SizedRequest → HandlerContext → SizeLog
  | .getSymbolListFromFile symbolpathsize => symbolListSizes symbolpathsize
  | .readProcessMemory size compress => readSizes size compress
  | .writeProcessMemory size => writeSizes size
  | .aobScan scansize => aobScanSizes scansize

/-- The lengths with which the code is sound. -/
def SizedRequest.InRange : SizedRequest → HandlerContext → Prop
  | .getSymbolListFromFile symbolpathsize, _ => symbolpathsize.toNat ≠ 2 ^ 32 - 1
  | .readProcessMemory _ _, _ => True
  | .writeProcessMemory size, x =>
      2 ^ 31 - 18 < toInt size.toNat →
        ¬((toInt size.toNat).toNat ≤ x.arriving ∧ x.target.Passes (toInt size.toNat).toNat)
  | .aobScan scansize, _ => -2 ^ 30 ≤ toInt scansize.toNat ∧ toInt scansize.toNat < 2 ^ 30

/-- The library compresses what is read to less than `2 ^ 32` bytes. -/
def SizedRequest.SmallOutput : SizedRequest → HandlerContext → Prop
  | .readProcessMemory size true, x => ∀ turns, (x.deflating size turns).totalOut < 2 ^ 32
  | _, _ => True

-----------------------------------------------------------------------------------------
-- Widths
-----------------------------------------------------------------------------------------

theorem isInt_toInt (n : Int) : IsInt (toInt n) := by
  rw [toInt]
  exact ⟨Int.le_bmod (by decide), Int.bmod_lt (by decide)⟩

theorem sizeleft_of_lt {size : Nat} (small : size < 2 ^ 63) : sizeleft size = size :=
  Int.bmod_eq_of_le (by omega) (by omega)

theorem natCast_toUint64 (n : Int) : ((toUint64 n : Nat) : Int) = n % (2 ^ 64 : Nat) := by
  rw [toUint64]
  exact Int.toNat_of_nonneg (Int.emod_nonneg n (by decide))

/-- An `int` that goes through a `size_t` comes back from it. -/
theorem sizeleft_toUint64 {n : Int} (fits : IsInt n) : sizeleft (toUint64 n) = n := by
  obtain ⟨low, high⟩ := fits
  unfold sizeleft
  rw [natCast_toUint64, Int.emod_bmod]
  exact Int.bmod_eq_of_le (by omega) (by omega)

/-- An `int` that is not negative is the same as a `size_t`. -/
theorem toUint64_of_nonneg {n : Int} (natural : 0 ≤ n) (fits : IsInt n)
    : toUint64 n = n.toNat := by
  obtain ⟨_, high⟩ := fits
  rw [toUint64]
  omega

/-- What `recvall` stores for an `int` fits in a buffer allocated with it. -/
theorem recvallStores_le {n : Int} (fits : IsInt n) (arriving : Nat)
    : recvallStores (toUint64 n) arriving ≤ toUint64 n := by
  rw [recvallStores, sizeleft_toUint64 fits]
  by_cases natural : 0 ≤ n
  · rw [toUint64_of_nonneg natural fits]
    exact Nat.min_le_left _ _
  · omega

/-- Nothing is taken by `recvall` unless its `int` is positive. -/
theorem recvallTakes_toUint64 {n : Int} (fits : IsInt n) {arriving : Nat}
    : RecvallTakes (toUint64 n) arriving ↔ 0 < n ∧ n.toNat ≤ arriving := by
  rw [RecvallTakes, sizeleft_toUint64 fits]

-----------------------------------------------------------------------------------------
-- The path of the symbols
-----------------------------------------------------------------------------------------

/-- The sum of an unsigned size and one wraps at the largest size only. -/
theorem toNat_succ_word {size : UInt32} (differs : size.toNat ≠ 2 ^ 32 - 1)
    : (size + 1).toNat = size.toNat + 1 := by
  have below := size.toNat_lt
  rw [UInt32.toNat_add, UInt32.toNat_one]
  omega

theorem symbolListSizes_sound_iff (symbolpathsize : UInt32) (x : HandlerContext)
    : (symbolListSizes symbolpathsize x).Sound ↔ symbolpathsize.toNat ≠ 2 ^ 32 - 1 := by
  constructor
  · intro sound largest
    have terminator : symbolpathsize.toNat + 1 ≤ (symbolpathsize + 1).toNat :=
      sound.inside ⟨.store, _, _⟩ (List.mem_cons_self ..) (fun same => nomatch same)
    have below := (symbolpathsize + 1).toNat_lt
    omega
  · intro differs
    have allocated := toNat_succ_word differs
    have below := symbolpathsize.toNat_lt
    refine ⟨fun a member counts => ?_, fun _ member => nomatch member⟩
    rcases List.mem_append.mp member with stores | compared
    · rcases List.mem_pair.mp stores with terminator | path
      · rw [terminator, allocated]
      · have stored : recvallStores symbolpathsize.toNat x.arriving ≤ symbolpathsize.toNat := by
          rw [recvallStores, sizeleft_of_lt (by omega)]
          exact Nat.min_le_left _ _
        rw [path, allocated]
        exact Nat.le_succ_of_le stored
    · split at compared
      · rw [List.mem_singleton.mp compared] at counts
        contradiction
      · contradiction

-----------------------------------------------------------------------------------------
-- The pattern and its mask
-----------------------------------------------------------------------------------------

theorem isInt_double {n : Int} : IsInt (n * 2) ↔ -2 ^ 30 ≤ n ∧ n < 2 ^ 30 := by
  constructor
  · intro ⟨low, high⟩
    omega
  · intro ⟨low, high⟩
    exact ⟨by omega, by omega⟩

theorem toInt_of_isInt {n : Int} (fits : IsInt n) : toInt n = n := by
  obtain ⟨low, high⟩ := fits
  exact Int.bmod_eq_of_le (by omega) (by omega)

theorem aobScanSizes_sound_iff (scansize : UInt32) (x : HandlerContext)
    : (aobScanSizes scansize x).Sound
      ↔ -2 ^ 30 ≤ toInt scansize.toNat ∧ toInt scansize.toNat < 2 ^ 30 := by
  rw [← isInt_double]
  have whole : IsInt (toInt scansize.toNat) := isInt_toInt _
  constructor
  · intro sound
    exact (SizeLog.sound_append.mp sound).1.fits _ (List.mem_singleton_self _)
  · intro doubled
    have same := toInt_of_isInt doubled
    have signed : ∀ m ∈ [toInt scansize.toNat * 2], IsInt m := by
      intro m member
      rw [List.mem_singleton.mp member]
      exact doubled
    have stored := recvallStores_le doubled x.arriving
    rw [← same] at stored
    refine SizeLog.sound_append.mpr ⟨SizeLog.sound_singleton stored signed, ?_⟩
    · rw [same]
      split
      · next taken =>
          obtain ⟨positive, _⟩ := (recvallTakes_toUint64 doubled).mp taken
          have pattern := toUint64_of_nonneg (by omega) whole
          have data := toUint64_of_nonneg (by omega) doubled
          rw [pattern, data]
          refine SizeLog.sound_of_inside ?_
          simp only [List.forall_mem_cons, List.not_mem_nil, false_implies, implies_true, and_true]
          omega
      · exact SizeLog.sound_nothing

-----------------------------------------------------------------------------------------
-- Writes
-----------------------------------------------------------------------------------------

/-- The driver client fits its buffer as long as the size and the request in front of it do. -/
theorem writeClientSizes_sound_iff {nSize : Nat} (small : nSize < 2 ^ 31)
    : (writeClientSizes nSize nSize).Sound ↔ nSize ≤ 2 ^ 31 - 18 := by
  have sum : wrap (nSize + 17) = nSize + 17 := Nat.mod_eq_of_lt (by omega)
  constructor
  · intro sound
    have fits := (sound.fits _ (List.mem_singleton_self _)).2
    rw [sum] at fits
    omega
  · intro inRange
    have allocated : bufSizeOf (nSize + 17) = nSize + 17 := bufSizeOf_of_lt (by omega)
    have inside : ∀ a ∈ (writeClientSizes nSize nSize).accesses, a.reach ≤ a.allocated := by
      simp only [writeClientSizes, allocated, List.forall_mem_cons, List.not_mem_nil, false_implies,
        implies_true, and_true]
      omega
    refine ⟨fun a member _ => inside a member, fun n member => ?_⟩
    rw [List.mem_singleton.mp member, sum]
    exact ⟨by omega, by omega⟩

theorem writeSizes_sound_iff (size : UInt32) (x : HandlerContext)
    : (writeSizes size x).Sound ↔ SizedRequest.InRange (.writeProcessMemory size) x := by
  have whole : IsInt (toInt size.toNat) := isInt_toInt _
  simp only [writeSizes, SizedRequest.InRange]
  split
  · next zero =>
      refine ⟨fun _ large => ?_, fun _ => SizeLog.sound_nothing⟩
      omega
  · have stored : (SizeLog.mk [⟨.store, toUint64 (toInt size.toNat),
        recvallStores (toUint64 (toInt size.toNat)) x.arriving⟩] []).Sound :=
      SizeLog.sound_singleton (recvallStores_le whole x.arriving) (fun _ member => nomatch member)
    rw [SizeLog.sound_append, and_iff_right stored]
    have takes := @recvallTakes_toUint64 _ whole x.arriving
    by_cases positive : 0 < toInt size.toNat
    · rw [toUint64_of_nonneg (Int.le_of_lt positive) whole] at takes ⊢
      have small : (toInt size.toNat).toNat < 2 ^ 31 := by
        have high := whole.2
        omega
      split
      · next reached =>
          rw [writeClientSizes_sound_iff small]
          constructor
          · intro inRange large
            omega
          · intro inRange
            by_contra large
            exact inRange (by omega) ⟨(takes.mp reached.1).2, reached.2⟩
      · next stops =>
          refine ⟨fun _ _ reached => stops ⟨takes.mpr ⟨positive, reached.1⟩, reached.2⟩,
            fun _ => SizeLog.sound_nothing⟩
    · rw [if_neg (fun reached => positive (takes.mp reached.1).1)]
      refine ⟨fun _ large => ?_, fun _ => SizeLog.sound_nothing⟩
      omega

-----------------------------------------------------------------------------------------
-- Reads
-----------------------------------------------------------------------------------------

/-- In a size that the kernel takes, a length is the same as a `size_t`. -/
theorem toUint64_toInt_of_lt {size : Nat} (word : size < 2 ^ 32)
    (small : toUint64 (toInt size) < 2 ^ 63)
    : size < 2 ^ 31 ∧ toUint64 (toInt size) = size := by
  have natural : size < 2 ^ 31 := by
    by_contra large
    have negative : toInt size = (size : Int) - 2 ^ 32 := by
      rw [toInt, Int.bmod_def]
      omega
    rw [negative, toUint64] at small
    omega
  refine ⟨natural, ?_⟩
  rw [toInt_of_lt natural, toUint64_natCast natural]

/-- A read stores no more than the length of the request. -/
theorem ReadCall.reach_le_size {size : Nat} (word : size < 2 ^ 32)
    (call : ReadCall (toUint64 (toInt size)))
    : call.reach ≤ size ∧ call.reach < 2 ^ 31 := by
  by_cases small : toUint64 (toInt size) < 2 ^ 63
  · obtain ⟨natural, same⟩ := toUint64_toInt_of_lt word small
    have inside := call.reach_le
    omega
  · have refused := call.refuses (Nat.le_of_not_lt small)
    omega

/-- What is read is an `int`, and no more than the length of the request. -/
theorem HandlerContext.bread_le (x : HandlerContext) {size : Nat} (word : size < 2 ^ 32)
    : x.bread (toUint64 (toInt size)) ≤ size ∧ x.bread (toUint64 (toInt size)) < 2 ^ 31 := by
  obtain ⟨inside, small⟩ := (x.read (toUint64 (toInt size))).reach_le_size word
  have counted := (x.read (toUint64 (toInt size))).ret_le
  rw [HandlerContext.bread]
  split <;> omega

/-- The driver client stays inside of its own buffer and of the buffer of its caller. -/
theorem readClientSizes_sound {room nSize : Nat} (call : ReadCall nSize)
    (long : 17 ≤ nSize → 17 ≤ room) (inside : call.reach ≤ room)
    : (readClientSizes room nSize call).Sound := by
  have reach := call.reach_le
  have counted := call.ret_le
  rw [readClientSizes]
  split
  · refine SizeLog.sound_of_inside ?_
    simp only [List.forall_mem_cons, List.not_mem_nil, false_implies, implies_true, and_true]
    omega
  · refine SizeLog.sound_of_inside ?_
    simp only [List.forall_mem_cons, List.not_mem_nil, false_implies, implies_true, and_true]
    omega

-----------------------------------------------------------------------------------------
-- The lists of blocks
-----------------------------------------------------------------------------------------

/-- Every pointer was stored at an index that the loops have passed, in a list that was not made
longer than it needs.
-/
def StoredBounded (size : Nat) (s : Deflating) : Prop :=
  ∀ p ∈ s.stored, p.1 ≤ s.currentBlock
    ∧ (p.2 ≤ 1 + size / COMPRESS_BLOCKSIZE ∨ p.2 ≤ 2 * p.1)

/-- The test of a full block stores no pointer or the one of the new block. -/
theorem StoredBounded.nextBlock {size : Nat} {s : Deflating} (bounded : StoredBounded size s)
    (inv : DeflateInv size s.nextBlock)
    : StoredBounded size s.nextBlock := by
  by_cases full : s.availOut = 0
  · have listed := inv.bounded
    rw [Deflating.nextBlock, if_pos full] at listed ⊢
    intro p member
    rcases List.mem_append.mp member with earlier | last
    · obtain ⟨index, length⟩ := bounded p earlier
      exact ⟨Nat.le_succ_of_le index, length⟩
    · rw [List.mem_singleton.mp last]
      exact ⟨Nat.le_refl _, listed⟩
  · rw [Deflating.nextBlock, if_neg full]
    exact bounded

theorem StoredBounded.turn {size : Nat} {s : Deflating} (bounded : StoredBounded size s)
    (inv : DeflateInv size s) (zlib : Zlib)
    : StoredBounded size (s.turn zlib) := by
  have turned := s.turns_turn zlib
  generalize s.turn zlib = t at turned ⊢
  cases turned with
  | used => exact bounded
  | goesOn running reply ok =>
      have filled := inv.toFilled.deflate (inv.open_ running) reply
      exact StoredBounded.nextBlock bounded filled.nextBlock
  | fails => exact bounded
  | ends => exact bounded
  | stays => exact bounded

/-- The turns keep it, by induction on their number. -/
theorem storedBounded_turns (zlib : Zlib) (size uncompressedSize : Nat) (fresh : Nat → Nat → UInt8)
    (n : Nat)
    : StoredBounded size ((Deflating.turn zlib)^[n] (.start size uncompressedSize fresh)) := by
  induction n with
  | zero =>
      intro p member
      rw [List.mem_singleton.mp member]
      exact ⟨Nat.le_refl 0, Or.inl (Nat.le_refl _)⟩
  | succ n ih =>
      rw [Function.iterate_succ_apply']
      exact ih.turn (deflateInv_turns zlib size uncompressedSize fresh n) zlib

/-- The output fills the blocks in front of the current one, and a part of that. -/
theorem Filled.totalOut_eq {size : Nat} {s : Deflating} (filled : Filled size s)
    : s.totalOut = s.currentBlock * COMPRESS_BLOCKSIZE + s.nextOut := by
  rw [filled.total, ← filled.gathered, List.length_append, length_cells, List.length_flatMap]
  simp

/-- What the loops do with their buffers is sound if there is little output. -/
theorem Deflating.sizes_sound {s : Deflating} {size uncompressedSize : Nat} (word : size < 2 ^ 32)
    (inv : DeflateInv size s) (bounded : StoredBounded size s) (output : s.totalOut < 2 ^ 32)
    (inside : uncompressedSize ≤ size)
    : (s.sizes size uncompressedSize).Sound := by
  have total := inv.toFilled.totalOut_eq
  have room := inv.room
  refine ⟨fun a member _ => ?_, fun m member => ?_⟩
  · rcases List.mem_append.mp member with block | pointer
    · simp only [List.mem_cons, List.not_mem_nil, or_false] at block
      rcases block with rfl | rfl | rfl | rfl
      all_goals dsimp only
      all_goals omega
    · obtain ⟨p, stored, rfl⟩ := List.mem_map.mp pointer
      have index := inv.indices p stored
      dsimp only
      omega
  · have limits : ∀ p ∈ s.stored, p.1 < 2 ^ 16 ∧ p.2 ≤ 2 ^ 17 := by
      intro p stored
      obtain ⟨index, length⟩ := bounded p stored
      rw [COMPRESS_BLOCKSIZE] at total length
      omega
    rcases List.mem_append.mp member with index | length
    · obtain ⟨p, stored, rfl⟩ := List.mem_map.mp index
      have limit := limits p stored
      exact ⟨by omega, by omega⟩
    · obtain ⟨p, stored, rfl⟩ := List.mem_map.mp length
      have limit := limits p stored
      exact ⟨by omega, by omega⟩

/-- A read of a length from 17 on has as much room in its buffer. -/
theorem room_of_toUint64_toInt {size : Nat} (long : 17 ≤ toUint64 (toInt size)) : 17 ≤ size := by
  by_cases small : size < 2 ^ 31
  · rw [toInt_of_lt small, toUint64_natCast small] at long
    exact long
  · omega

theorem readSizes_sound {size : UInt32} {compress : Bool} {x : HandlerContext}
    (small : SizedRequest.SmallOutput (.readProcessMemory size compress) x)
    : (readSizes size compress x).Sound := by
  have word := size.toNat_lt
  obtain ⟨inside, high⟩ := x.bread_le word
  have count : x.countRead size = x.bread (toUint64 (toInt size.toNat)) := toInt_of_lt high
  refine SizeLog.sound_append.mpr ⟨SizeLog.sound_append.mpr ⟨?_, ?_⟩, ?_⟩
  · refine SizeLog.sound_of_inside ?_
    simp only [List.forall_mem_cons, List.not_mem_nil, false_implies, implies_true, and_true]
    omega
  · split
    · exact readClientSizes_sound _ room_of_toUint64_toInt (ReadCall.reach_le_size word _).1
    · exact SizeLog.sound_nothing
  · cases compress with
    | true =>
        refine Deflating.sizes_sound word (deflateInv_turns ..) (storedBounded_turns _ _ _ _ _)
          (small x.turns) ?_
        rw [count]
        omega
    | false =>
        refine SizeLog.sound_singleton ?_ (fun _ member => nomatch member)
        rw [count, toUint64]
        omega

-----------------------------------------------------------------------------------------
-- All lengths
-----------------------------------------------------------------------------------------

/-- For every word that a client sends as a length, whatever else comes and whatever the driver and
the library do, the handler stays inside of its buffers and its size computations inside of the
`int`s if and only if the length is in range.
-/
theorem bufferSizes_sound_iff (request : SizedRequest) (x : HandlerContext)
    (small : request.SmallOutput x)
    : (request.sizes x).Sound ↔ request.InRange x := by
  cases request with
  | getSymbolListFromFile symbolpathsize => exact symbolListSizes_sound_iff symbolpathsize x
  | readProcessMemory size compress => exact iff_of_true (readSizes_sound small) trivial
  | writeProcessMemory size => exact writeSizes_sound_iff size x
  | aobScan scansize => exact aobScanSizes_sound_iff scansize x

/-- One byte comes, is read or written. -/
def oneByteContext : HandlerContext where
  arriving := 1
  target := ⟨some 7, 4096, 3⟩
  read nSize :=
    if some_ : 1 ≤ nSize ∧ nSize < 2 ^ 63 then
      ⟨1, 1, some_.1, Int.le_refl 1, fun large => absurd some_.2 (Nat.not_lt_of_le large)⟩
    else ⟨0, -1, Nat.zero_le _, by decide, fun _ => rfl⟩
  zlib := oneByteZlib
  fresh _ _ := 0
  turns := 3

theorem smallOutput_oneByte
    : SizedRequest.SmallOutput (.readProcessMemory 1 true) oneByteContext := by
  intro turns
  have one : (oneByteContext.countRead 1 % 2 ^ 32).toNat = 1 := by decide +kernel
  have start : oneByteContext.deflating 1 turns
      = (Deflating.turn oneByteZlib)^[turns] oneByteStart := by
    rw [HandlerContext.deflating, one]
    rfl
  rw [start]
  exact totalOut_oneByte turns

theorem bufferSizes_sound_iff_oneByte
    : (SizedRequest.sizes (.readProcessMemory 1 true) oneByteContext).Sound
      ↔ SizedRequest.InRange (.readProcessMemory 1 true) oneByteContext :=
  bufferSizes_sound_iff (.readProcessMemory 1 true) oneByteContext smallOutput_oneByte

/-- The buffer for the longest path has no bytes at all, and its terminator is stored in front of
anything else.
-/
theorem not_bufferSizes_sound
    : ¬∀ (request : SizedRequest) (x : HandlerContext),
        request.SmallOutput x → (request.sizes x).Sound := by
  intro always
  have sound := always (.getSymbolListFromFile 4294967295) oneByteContext trivial
  exact (symbolListSizes_sound_iff 4294967295 oneByteContext).mp sound (by decide)

end RwMem.CeServer
