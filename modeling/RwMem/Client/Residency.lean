import RwMem.Client.MapsRoundTrip
import RwMem.Driver.Residency

/-! The client library reads back the residency bitmap that the driver wrote. -/

namespace RwMem.Client

open Memory RwMem.Driver

variable {P : Type}

/-- The bits of cells are the bits of the memory. Induction on the cells. -/
theorem bitsOf_cells (mem : Nat → UInt8) (at_ n : Nat)
    : bitsOf (cells mem at_ n) = (List.range (8 * n)).map (bitAt mem at_) := by
  induction n with
  | zero => rfl
  | succ n ih =>
      have last : cells mem (at_ + n) 1 = [mem (at_ + n)] := rfl
      rw [cells_add, bitsOf, List.flatMap_append, ← bitsOf, ih, last, Nat.mul_succ,
        List.range_add, List.map_append, List.map_map]
      congr 1
      rw [List.flatMap_singleton]
      apply List.map_congr_left
      intro j below
      have small := List.mem_range.mp below
      rw [Function.comp_apply, bitAt_add, bitAt, Nat.div_eq_of_lt small, Nat.mod_eq_of_lt small,
        Nat.add_zero]

/-- The low bytes of a word are those of a shorter word. -/
theorem take_leBytes (m n w : Nat) : (leBytes (m + n) w).take m = leBytes m w := by
  induction m generalizing w with
  | zero => rw [List.take_zero, leBytes]
  | succ m ih => rw [Nat.succ_add, leBytes, leBytes, List.take_succ_cons, ih]

/-- An `int` that is read from the front of a word. -/
theorem ofNat_low (w : Nat) : Int32.ofNat (leValue (leBytes 4 w)) = Int32.ofNat w := by
  rw [leValue_leBytes_mod]
  apply Int32.toBitVec_inj.mp
  apply BitVec.eq_of_toNat_eq
  rw [Int32.toBitVec_ofNat', Int32.toBitVec_ofNat', BitVec.toNat_ofNat, BitVec.toNat_ofNat]
  exact Nat.mod_mod w _

/-- A buffer with three words in front, wherever it lies, is a request for pages. -/
theorem phyRequest_storeWords {word virtAddrStart virtAddrEnd p : Nat} (base : List UInt8)
    (wordFits : word < 2 ^ 64) (startFits : virtAddrStart < 2 ^ 64)
    (endFits : virtAddrEnd < 2 ^ 64)
    : PhyRequest (store (fun _ => 0) p (storeWords word virtAddrStart virtAddrEnd base)) p
        (Int32.ofNat word) virtAddrStart virtAddrEnd := by
  have front : cells (store (fun _ => 0) p (storeWords word virtAddrStart virtAddrEnd base)) p 24
      = leBytes 8 word ++ leBytes 8 virtAddrStart ++ leBytes 8 virtAddrEnd := by
    rw [storeWords_eq]
    exact cells_store_front p 24 _ _ (by simp)
  obtain ⟨_, start, finish⟩ := wordAt_words wordFits startFits endFits
  refine ⟨?_, ?_, ?_⟩
  · have low := take_leBytes 4 4 word
    rw [front, wordAt, List.drop_zero, List.append_assoc,
      List.take_append_of_le_length (by simp), low]
    exact ofNat_low word
  · rw [front, start]
  · rw [front, finish]

variable {sys : Ioctls} {k : IoctlKernel P} {task : TaskStruct P}
  {virtAddrStart virtAddrEnd pages : Nat}

/-- The `ioctl` for the pages of a range returns their number, and a buffer with their bits in
front.
-/
theorem pass_storeWords (n : Nat) {word : Nat} (base : List UInt8) (wordFits : word < 2 ^ 64)
    (long : 24 ≤ base.length) (room : (pages + 7) / 8 ≤ base.length)
    (small : base.length < 2 ^ 63)
    (served : sys.ioctl n .checkProcessAddrPhy = rwmemCheckPhy k)
    (range : PageRange k.geometry virtAddrStart virtAddrEnd pages) (read : k.fromUserLeft = 0)
    (copied : ∀ n, k.toUserLeft n = 0) (allocated : k.noBuffer = false)
    (found : k.findGetPid (Int32.ofNat word) = some (some task))
    : ∃ mem p,
        sys.pass n .checkProcessAddrPhy (storeWords word virtAddrStart virtAddrEnd base)
          = some ((pages : Int), cells mem p base.length)
        ∧ ∀ j < 8 * ((pages + 7) / 8),
          bitAt mem p j
          = (decide (j < pages)
            && isResident task k.ptes (virtAddrStart + j * k.geometry.pageSize)) := by
  have length := length_storeWords (a := word) (b := virtAddrStart) (c := virtAddrEnd) long
  have place := sys.place_lt n base.length small
  have start : virtAddrStart < 2 ^ 64 := by
    have := range.inside
    have := range.finish
    omega
  obtain ⟨mem, returned, bits, _⟩ := rwmemCheckPhy_bits range
    (phyRequest_storeWords (p := sys.place n base.length) base wordFits start range.inside)
    (by omega) read copied allocated found
  refine ⟨mem, sys.place n base.length, ?_, bits⟩
  rw [Ioctls.pass, served, length, returned]

section Library

variable (n : Nat) {pid : Int32} (pages4K : k.geometry.pageSize = 4096)
  (served : sys.ioctl n .checkProcessAddrPhy = rwmemCheckPhy k)
  (range : PageRange k.geometry virtAddrStart virtAddrEnd pages)
include pages4K range

/-- The client library counts the pages of a range in its own way. -/
theorem shiftRight_sub : (virtAddrEnd >>> 12) - (virtAddrStart >>> 12) = pages := by
  have aligned := range.aligned
  have finish := range.finish
  rw [pages4K] at aligned finish
  rw [Nat.shiftRight_eq_div_pow, Nat.shiftRight_eq_div_pow]
  omega

theorem aligned_and_mask : virtAddrStart &&& 0xfff = 0 ∧ virtAddrEnd &&& 0xfff = 0 := by
  have aligned := range.aligned
  have finish := range.finish
  have mask (w : Nat) : w &&& 0xfff = w % 4096 := Nat.and_two_pow_sub_one_eq_mod w 12
  rw [pages4K] at aligned finish
  rw [mask, mask]
  omega

include served

/-- `is_mem_phy` returns one bit for each page. -/
theorem isMemPhy_eq (small : pages < 2 ^ 31) (read : k.fromUserLeft = 0)
    (copied : ∀ n, k.toUserLeft n = 0) (allocated : k.noBuffer = false)
    (found : k.findGetPid pid = some (some task))
    : isMemPhy sys n pid virtAddrStart virtAddrEnd
      = .ok ((List.range pages).map (fun j =>
          isResident task k.ptes (virtAddrStart + j * 4096))) := by
  have counted := shiftRight_sub pages4K range
  obtain ⟨start, finish⟩ := aligned_and_mask pages4K range
  have ascending : ¬virtAddrStart ≥ virtAddrEnd := by
    have := range.nonempty
    have := range.finish
    rw [pages4K] at this
    omega
  rw [← ofNat_pidWord pid] at found
  obtain ⟨mem, p, passed, bits⟩ := pass_storeWords n
    (List.replicate (max 24 ((pages + 7) / 8)) 0) (pidWord_lt pid) (by simp) (by simp)
    (by rw [List.length_replicate]; omega) served range read copied allocated found
  rw [List.length_replicate] at passed
  have result : ¬libcIoctl pages = -1 := by
    rw [libcIoctl_natCast small]
    omega
  simp only [isMemPhy, start, finish, ne_eq, not_true, if_false, ascending, Ioctls.call,
    phyRequest, counted, passed, result, Outcome.bind, bitsOf_cells]
  rw [← List.map_take, List.take_range, Nat.min_eq_left (by omega)]
  congr 1
  apply List.map_congr_left
  intro j below
  have inside := List.mem_range.mp below
  rw [bits j (by omega), decide_eq_true inside, Bool.true_and, pages4K]

end Library

/-- For every address space and every range of whole pages, the command returns their number
and leaves their bits, the padding of the last byte, and all else as it was; and `is_mem_phy`
returns these bits.
-/
theorem residencyBitmap_eq {P : Type} (k : IoctlKernel P) (pid : Int32) (task : TaskStruct P)
    (space : AddressSpace) (virtAddrStart virtAddrEnd pages : Nat)
    (realized : Realizes k.geometry task.getTaskProcPhyAddr k.ptes space)
    (range : PageRange k.geometry virtAddrStart virtAddrEnd pages) (small : pages < 2 ^ 31)
    (read : k.fromUserLeft = 0) (copied : ∀ n, k.toUserLeft n = 0)
    (allocated : k.noBuffer = false) (found : k.findGetPid pid = some (some task))
    : (∀ mem arg, PhyRequest mem arg pid virtAddrStart virtAddrEnd
        → arg + (pages + 7) / 8 < 2 ^ 64
        → ∃ mem',
            rwmemIoctl k (Command.code .checkProcessAddrPhy) arg mem = .returned pages mem'
            ∧ libcIoctl pages = pages
            ∧ (∀ j < 8 * ((pages + 7) / 8),
              bitAt mem' arg j
              = (decide (j < pages)
                && space.isReadable k.geometry (virtAddrStart + j * k.geometry.pageSize)))
            ∧ ∀ i, i < arg ∨ arg + (pages + 7) / 8 ≤ i → mem' i = mem i)
      ∧ (k.geometry.pageSize = 4096
        → ∀ (sys : Ioctls) n, sys.ioctl n .checkProcessAddrPhy = rwmemCheckPhy k
          → isMemPhy sys n pid virtAddrStart virtAddrEnd
            = .ok ((List.range pages).map (fun j =>
                space.isReadable k.geometry (virtAddrStart + j * 4096)))) := by
  have inside {j : Nat} (below : j < pages)
      : virtAddrStart + j * k.geometry.pageSize < 2 ^ 64 := by
    have := Nat.mul_le_mul_right k.geometry.pageSize (Nat.le_of_lt below)
    have := range.inside
    have := range.finish
    omega
  refine ⟨?_, ?_⟩
  · intro mem arg req fits
    obtain ⟨mem', returned, bits, outside⟩ := rwmemCheckPhy_bits range req fits read copied
      allocated found
    refine ⟨mem', ?_, libcIoctl_natCast small, ?_, outside⟩
    · rw [rwmemIoctl, commandOf_code]
      exact returned
    · intro j below
      rw [bits j below]
      by_cases page : j < pages
      · rw [isResident_of_realizes realized (inside page)]
      · rw [decide_eq_false page, Bool.false_and, Bool.false_and]
  · intro pages4K sys n served
    rw [isMemPhy_eq n pages4K served range small read copied allocated found]
    congr 1
    apply List.map_congr_left
    intro j below
    have page := inside (List.mem_range.mp below)
    rw [pages4K] at page
    exact isResident_of_realizes realized page

/-- Three pages, of which the second is mapped. -/
def secondPage : AddressSpace where
  page number := if number = 2 then some ⟨7, ⟨true, false⟩⟩ else none
  frame_ne_zero number p mapped := by
    split at mapped
    · cases mapped
      decide
    · contradiction

/-- A kernel without failures in which this address space is that of every process. -/
def quietSecondPage : IoctlKernel Nat :=
  quietIoctl arm64.toPageGeometry secondPage.ptes
    (some ⟨none, secondPage.walk arm64.toPageGeometry⟩)

theorem residencyBitmap_eq_secondPage
    : isMemPhy (driverIoctls (fun _ => quietSecondPage)) 0 42 0x1000 0x4000
        = .ok [false, true, false]
      ∧ ∃ mem',
          rwmemIoctl quietSecondPage (Command.code .checkProcessAddrPhy) 0x100
              (store (fun _ => 0) 0x100 (phyRequest 42 0x1000 0x4000))
            = .returned 3 mem'
          ∧ bitAt mem' 0x100 1 = true := by
  have range : PageRange quietSecondPage.geometry 0x1000 0x4000 3 :=
    ⟨by decide, by decide, by decide, by decide⟩
  obtain ⟨driver, library⟩ := residencyBitmap_eq quietSecondPage 42
    ⟨none, secondPage.walk arm64.toPageGeometry⟩ secondPage 0x1000 0x4000 3
    (secondPage.realizes_walk arm64.toPageGeometry) range (by decide) rfl (fun _ => rfl) rfl rfl
  refine ⟨?_, ?_⟩
  · rw [library (by decide) (driverIoctls (fun _ => quietSecondPage)) 0
      (ioctl_driverIoctls _ 0).2]
    decide
  · have req : PhyRequest (store (fun _ => 0) 0x100 (phyRequest 42 0x1000 0x4000)) 0x100
        (Int32.ofNat (pidWord 42)) 0x1000 0x4000 :=
      phyRequest_storeWords (List.replicate 24 0) (pidWord_lt 42) (by decide) (by decide)
    rw [ofNat_pidWord] at req
    obtain ⟨mem', returned, _, bits, _⟩ := driver _ 0x100 req (by decide)
    refine ⟨mem', returned, ?_⟩
    rw [bits 1 (by decide)]
    decide

end RwMem.Client
