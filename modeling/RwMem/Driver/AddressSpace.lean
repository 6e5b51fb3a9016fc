import RwMem.Driver.PageWalk
import RwMem.Memory.Pieces

/-! The target's address space as a partial map from pages to frames, and the page walks
that realize it.
-/

namespace RwMem.Driver

/-- What `pte_read` and `pte_write` tell of an entry. An architecture without `pte_read`
has `canRead` everywhere.
-/
structure PteBits where
  canRead : Bool
  canWrite : Bool
deriving DecidableEq, Repr

structure Page where
  frame : Nat
  bits : PteBits

/-- The translated pages, by page number; no page is mapped to the frame at address `0`. -/
structure AddressSpace where
  page : Nat → Option Page
  frame_ne_zero : ∀ number p, page number = some p → p.frame ≠ 0

variable (g : PageGeometry)

/-- The number of the page that holds an address, after wrapping. -/
def pageNumber (va : Nat) : Nat := wrap va / g.pageSize

namespace AddressSpace

variable (space : AddressSpace)

/-- The page that holds an address. -/
def pageOf (va : Nat) : Option Page := space.page (pageNumber g va)

/-- The physical address of a translated address. -/
def phyAddr? (va : Nat) : Option Nat :=
  (space.pageOf g va).map (fun p => p.frame * g.pageSize + va % g.pageSize)

/-- The byte of the target at an address, from the physical memory that backs it. -/
def byte? (phys : Nat → UInt8) (va : Nat) : Option UInt8 := (space.phyAddr? g va).map phys

end AddressSpace

/-- Inside a piece of a range all addresses have one page number, also past the wrap. -/
theorem pageNumber_of_mem_piece {addr k i : Nat}
    (low : Memory.pieceStart g.pageSize addr k ≤ i)
    (high : i < Memory.pieceStart g.pageSize addr (k + 1))
    : pageNumber g (addr + i) = pageNumber g (addr + Memory.pieceStart g.pageSize addr k) := by
  have split : 2 ^ 64 = g.pageSize * (2 ^ 64 / g.pageSize) :=
    (Nat.mul_div_cancel' g.pageSize_dvd).symm
  have number (n : Nat) : pageNumber g n = n / g.pageSize % (2 ^ 64 / g.pageSize) := by
    rw [pageNumber, wrap, split, Nat.mod_mul_right_div_self, ← split]
  rw [number, number, Memory.div_of_mem_piece g.pageSize_pos low high,
    Memory.div_of_mem_piece g.pageSize_pos (Nat.le_refl _)
      (Memory.pieceStart_lt_succ g.pageSize_pos addr k)]

/-- The walk translates exactly the pages of the space, to their frames, and names an entry
with the page's bits; elsewhere it returns `0`.
-/
structure Realizes {P : Type} (walk : Nat → Nat × Option P) (ptes : P → PteBits)
    (space : AddressSpace)
    : Prop where
  unmapped : ∀ va < 2 ^ 64, space.pageOf g va = none → (walk va).1 = 0
  mapped
    : ∀ va < 2 ^ 64, ∀ p,
        space.pageOf g va = some p
        → ∃ pte,
            walk va = (p.frame * g.pageSize + va % g.pageSize, some pte)
            ∧ ptes pte = p.bits

/-- The walk that looks a page up in the space itself; entries are page numbers. -/
def AddressSpace.walk (space : AddressSpace) (va : Nat) : Nat × Option Nat :=
  match space.pageOf g va with
  | none => (0, none)
  | some p => (p.frame * g.pageSize + va % g.pageSize, some (pageNumber g va))

/-- The bits of the entries of `AddressSpace.walk`. -/
def AddressSpace.ptes (space : AddressSpace) (number : Nat) : PteBits :=
  match space.page number with
  | none => ⟨false, false⟩
  | some p => p.bits

theorem AddressSpace.realizes_walk (space : AddressSpace)
    : Realizes g (space.walk g) space.ptes space := by
  constructor
  · intro va _ unmapped
    simp only [AddressSpace.walk, unmapped]
  · intro va _ p mapped
    refine ⟨pageNumber g va, ?_, ?_⟩
    · simp only [AddressSpace.walk, mapped]
    · simp only [AddressSpace.pageOf] at mapped
      simp only [AddressSpace.ptes, mapped]

/-- Every page, readable and writable, one frame up. -/
def AddressSpace.oneUp : AddressSpace where
  page number := some ⟨number + 1, ⟨true, true⟩⟩
  frame_ne_zero number p mapped := by
    cases mapped
    exact Nat.succ_ne_zero number

/-- The pages that the hardware translates for a page-table tree, with the bits of their
mapping entries; `nonzero` says that no page is mapped to physical address `0`.
-/
def AddressSpace.ofTree (A : Paging) (mm : Mm) (ptes : EntryRef → PteBits)
    (nonzero : ∀ va paddr entry, mmuTranslate A mm va = some (paddr, entry)
      → paddr / A.pageSize ≠ 0)
    : AddressSpace where
  page number :=
    (mmuTranslate A mm (number * A.pageSize)).map
      (fun translation => ⟨translation.1 / A.pageSize, ptes translation.2⟩)
  frame_ne_zero number p mapped := by
    obtain ⟨⟨paddr, entry⟩, translated, rfl⟩ := Option.map_eq_some_iff.mp mapped
    exact nonzero _ _ _ translated

/-- The words and the entry of an address depend on its page only. -/
theorem wordsAt_congr {A : Paging} (mm : Mm) {va va' : Nat}
    (same : va / A.pageSize = va' / A.pageSize)
    : wordsAt A mm va = wordsAt A mm va' ∧ pteRef A va = pteRef A va' := by
  have index (level : Level) : A.index level va = A.index level va' :=
    A.index_page level va va' same
  simp only [wordsAt, pteRef, index, and_self]

/-- Where every walk is ordinary, the driver's walk realizes the address space that the
hardware sees. Witness: an ordinary walk is empty or a page mapping, and both depend on the
page only.
-/
theorem realizes_getTaskProcPhyAddr (A : Paging) (mm : Mm) (ptes : EntryRef → PteBits)
    (nonzero : ∀ va paddr entry, mmuTranslate A mm va = some (paddr, entry)
      → paddr / A.pageSize ≠ 0)
    (ordinary : ∀ va, OrdinaryWalk A mm va)
    : Realizes A.toPageGeometry (getTaskProcPhyAddr A (some ⟨some mm⟩)) ptes
        (AddressSpace.ofTree A mm ptes nonzero) := by
  have start (va : Nat) (small : va < 2 ^ 64)
      : va / A.pageSize = pageNumber A.toPageGeometry va * A.pageSize / A.pageSize := by
    rw [Nat.mul_div_cancel _ A.pageSize_pos, pageNumber, wrap_of_lt small]
  constructor
  · intro va small unmapped
    obtain ⟨words, -⟩ := wordsAt_congr mm (start va small)
    have faults := Option.map_eq_none_iff.mp unmapped
    have agrees := (ordinary va).agrees
    obtain ⟨block, empty | page⟩ := ordinary va
    · rw [getTaskProcPhyAddr_of_hasEmpty empty]
    · rw [words] at page
      rw [mmuTranslate_of_pageMapped page] at faults
      contradiction
  · intro va small p mapped
    obtain ⟨words, entry⟩ := wordsAt_congr mm (start va small)
    obtain ⟨translation, translated, rfl⟩ := Option.map_eq_some_iff.mp mapped
    obtain ⟨block, empty | page⟩ := ordinary va
    · have unmapped := mmuTranslate_of_unmapped (fun page => page.not_hasEmpty (words ▸ empty))
        (words ▸ block)
      rw [unmapped] at translated
      contradiction
    · rw [mmuTranslate_of_pageMapped (words ▸ page)] at translated
      cases translated
      refine ⟨pteRef A va, ?_, by rw [entry]⟩
      rw [getTaskProcPhyAddr_of_not_hasEmpty page.not_hasEmpty, words, Nat.mul_mod_left,
        Nat.add_zero, Nat.mul_div_cancel _ A.pageSize_pos]

end RwMem.Driver
