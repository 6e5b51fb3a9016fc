import RwMem.Driver.PhyMem

/-! The driver's page-table walk, against the translation that the hardware performs.
An entry is a machine word; what it points to is the memory found at its frame field,
whether that memory is the next table or, below a block entry, the mapped data.
-/

namespace RwMem.Driver

-----------------------------------------------------------------------------------------
-- What Linux and the architecture provide
-----------------------------------------------------------------------------------------

inductive Level where
  | pgd | p4d | pud | pmd | pte
deriving DecidableEq, Repr

/-- What the hardware takes an entry for: nothing (also a swap or migration entry), a
pointer to the next table, or a mapping (a page, or a block at an upper level).
-/
inductive EntryKind where
  | absent | table | leaf
deriving DecidableEq, Repr

/-- The paging facts that the walk relies on. In a four-level configuration p4ds are folded
into pgds: the p4d read is the pgd entry again, and `kind` takes the word for a table at
the folded level.
-/
structure Paging extends PageGeometry where
  pudShift : Nat
  pmdShift : Nat
  index : Level → Nat → Nat
  kind : Level → Nat → EntryKind
  frame : Nat → Nat
  kind_zero : ∀ level, kind level 0 = .absent
  index_page
    : ∀ level va va',
        va / toPageGeometry.pageSize = va' / toPageGeometry.pageSize
        → index level va = index level va'

/-- A last-level entry. -/
structure Pte where
  val : Nat

/-- An entry of an upper level, with the words found where its frame field points. -/
structure Entry (β : Type) where
  val : Nat
  below : Nat → β

abbrev Pmd := Entry Pte
abbrev Pud := Entry Pmd
abbrev P4d := Entry Pud
abbrev Pgd := Entry P4d

/-- The page-table tree of one address space. -/
structure Mm where
  pgd : Nat → Pgd

structure Task where
  mm : Option Mm

/-- The place of an entry in the tree, which is what a pointer to it names. -/
inductive EntryRef where
  | pud (pgdIndex p4dIndex pudIndex : Nat)
  | pmd (pgdIndex p4dIndex pudIndex pmdIndex : Nat)
  | pte (pgdIndex p4dIndex pudIndex pmdIndex pteIndex : Nat)
deriving DecidableEq, Repr

variable (A : Paging)

def pudRef (va : Nat) : EntryRef := .pud (A.index .pgd va) (A.index .p4d va) (A.index .pud va)

def pmdRef (va : Nat) : EntryRef :=
  .pmd (A.index .pgd va) (A.index .p4d va) (A.index .pud va) (A.index .pmd va)

def pteRef (va : Nat) : EntryRef :=
  .pte (A.index .pgd va) (A.index .p4d va) (A.index .pud va) (A.index .pmd va)
    (A.index .pte va)

-----------------------------------------------------------------------------------------
-- The driver's walk and the hardware's
-----------------------------------------------------------------------------------------

/-- The physical address and `*out_pte`. The `*_none` tests compare with zero, and every
`*_offset` follows the entry above without looking at its kind.
-/
def getTaskProcPhyAddr (task : Option Task) (virtAddr : Nat) : Nat × Option EntryRef :=
  match task with
  | none => (0, none)
  | some task =>
      match task.mm with
      | none => (0, none)
      | some mm =>
          let pgd := mm.pgd (A.index .pgd virtAddr)
          if pgd.val = 0 then (0, none) else
          let p4d := pgd.below (A.index .p4d virtAddr)
          if p4d.val = 0 then (0, none) else
          let pud := p4d.below (A.index .pud virtAddr)
          if pud.val = 0 then (0, none) else
          let pmd := pud.below (A.index .pmd virtAddr)
          if pmd.val = 0 then (0, none) else
          let pte := pmd.below (A.index .pte virtAddr)
          if pte.val = 0 then (0, none) else
          let pageAddr := A.frame pte.val <<< A.pageShift
          let pageOffset := virtAddr &&& (A.pageSize - 1)
          (pageAddr ||| pageOffset, some (pteRef A virtAddr))

/-- `pid_task` may find no task; then `*outPte` keeps what the caller left in it. -/
def getProcPhyAddr (task : Option Task) (virtAddr : Nat) (outPte : Option EntryRef)
    : Nat × Option EntryRef :=
  match task with
  | none => (0, outPte)
  | some task => getTaskProcPhyAddr A (some task) virtAddr

/-- The translation of the hardware, with the entry that maps the address. -/
def mmuTranslate (mm : Mm) (va : Nat) : Option (Nat × EntryRef) :=
  let pgd := mm.pgd (A.index .pgd va)
  let p4d := pgd.below (A.index .p4d va)
  let pud := p4d.below (A.index .pud va)
  let pmd := pud.below (A.index .pmd va)
  let pte := pmd.below (A.index .pte va)
  match A.kind .pgd pgd.val, A.kind .p4d p4d.val with
  | .table, .table =>
      match A.kind .pud pud.val with
      | .absent => none
      | .leaf => some (A.frame pud.val * A.pageSize + va % 2 ^ A.pudShift, pudRef A va)
      | .table =>
          match A.kind .pmd pmd.val with
          | .absent => none
          | .leaf => some (A.frame pmd.val * A.pageSize + va % 2 ^ A.pmdShift, pmdRef A va)
          | .table =>
              match A.kind .pte pte.val with
              | .leaf => some (A.frame pte.val * A.pageSize + va % A.pageSize, pteRef A va)
              | _ => none
  | _, _ => none

/-- The walk gives exactly the hardware's answer: its physical address and mapping entry,
or `0` and a null entry where the hardware does not translate.
-/
def WalkAgrees (mm : Mm) (va : Nat) : Prop :=
  getTaskProcPhyAddr A (some ⟨some mm⟩) va
    = match mmuTranslate A mm va with
      | some (paddr, entry) => (paddr, some entry)
      | none => (0, none)

-----------------------------------------------------------------------------------------
-- The words that decide both walks
-----------------------------------------------------------------------------------------

/-- The five words read for one virtual address. -/
structure Words where
  pgd : Nat
  p4d : Nat
  pud : Nat
  pmd : Nat
  pte : Nat

def wordsAt (mm : Mm) (va : Nat) : Words :=
  let pgd := mm.pgd (A.index .pgd va)
  let p4d := pgd.below (A.index .p4d va)
  let pud := p4d.below (A.index .pud va)
  let pmd := pud.below (A.index .pmd va)
  let pte := pmd.below (A.index .pte va)
  ⟨pgd.val, p4d.val, pud.val, pmd.val, pte.val⟩

/-- Some word is zero, so the driver's walk stops. -/
def Words.HasEmpty (w : Words) : Prop :=
  w.pgd = 0 ∨ w.p4d = 0 ∨ w.pud = 0 ∨ w.pmd = 0 ∨ w.pte = 0

/-- A page entry maps the address. -/
def Words.PageMapped (w : Words) : Prop :=
  A.kind .pgd w.pgd = .table
  ∧ A.kind .p4d w.p4d = .table
  ∧ A.kind .pud w.pud = .table
  ∧ A.kind .pmd w.pmd = .table
  ∧ A.kind .pte w.pte = .leaf

/-- A block entry (a huge page) at the PUD or the PMD level maps the address. -/
def Words.BlockMapped (w : Words) : Prop :=
  A.kind .pgd w.pgd = .table
  ∧ A.kind .p4d w.p4d = .table
  ∧ (A.kind .pud w.pud = .leaf
    ∨ A.kind .pud w.pud = .table ∧ A.kind .pmd w.pmd = .leaf)

/-- No huge page maps the address, and if none of the words is zero then each of them is
of the kind that its level needs.
-/
def OrdinaryWalk (mm : Mm) (va : Nat) : Prop :=
  ¬(wordsAt A mm va).BlockMapped A
  ∧ ((wordsAt A mm va).HasEmpty ∨ (wordsAt A mm va).PageMapped A)

variable {A}

/-- A word that the hardware takes for something is not zero. -/
theorem Paging.ne_zero_of_kind {level : Level} {w : Nat} {kind : EntryKind}
    (h : A.kind level w = kind) (present : kind ≠ .absent)
    : w ≠ 0 := by
  intro zero
  rw [zero, A.kind_zero] at h
  exact present h.symm

/-- A page mapping has no empty word on its path. -/
theorem Words.PageMapped.not_hasEmpty {w : Words} (h : w.PageMapped A) : ¬w.HasEmpty := by
  obtain ⟨pgd, p4d, pud, pmd, pte⟩ := h
  intro empty
  rcases empty with zero | zero | zero | zero | zero
  · exact A.ne_zero_of_kind pgd (by decide) zero
  · exact A.ne_zero_of_kind p4d (by decide) zero
  · exact A.ne_zero_of_kind pud (by decide) zero
  · exact A.ne_zero_of_kind pmd (by decide) zero
  · exact A.ne_zero_of_kind pte (by decide) zero

/-- The frame address and the offset do not overlap, so `|` adds them. -/
theorem frame_or_offset (g : PageGeometry) (frame va : Nat)
    : frame <<< g.pageShift ||| (va &&& (g.pageSize - 1))
      = frame * g.pageSize + va % g.pageSize := by
  have inside : va % g.pageSize < 2 ^ g.pageShift := Nat.mod_lt va g.pageSize_pos
  rw [g.and_mask, ← Nat.shiftLeft_add_eq_or_of_lt inside, Nat.shiftLeft_eq]
  rfl

/-- The driver's walk stops with nothing at an empty word. -/
theorem getTaskProcPhyAddr_of_hasEmpty {mm : Mm} {va : Nat}
    (empty : (wordsAt A mm va).HasEmpty)
    : getTaskProcPhyAddr A (some ⟨some mm⟩) va = (0, none) := by
  simp only [Words.HasEmpty, wordsAt] at empty
  simp only [getTaskProcPhyAddr]
  split_ifs with pgd p4d pud pmd pte
  all_goals first | rfl | simp [pgd, p4d, pud, pmd, pte] at empty

/-- Past five non-zero words the driver always reports a page of the last word's frame. -/
theorem getTaskProcPhyAddr_of_not_hasEmpty {mm : Mm} {va : Nat}
    (full : ¬(wordsAt A mm va).HasEmpty)
    : getTaskProcPhyAddr A (some ⟨some mm⟩) va
      = (A.frame (wordsAt A mm va).pte * A.pageSize + va % A.pageSize,
          some (pteRef A va)) := by
  simp only [Words.HasEmpty, wordsAt, not_or] at full
  obtain ⟨pgd, p4d, pud, pmd, pte⟩ := full
  simp only [getTaskProcPhyAddr, pgd, p4d, pud, pmd, pte, if_false, wordsAt,
    frame_or_offset A.toPageGeometry]

/-- The hardware translates through a page mapping. -/
theorem mmuTranslate_of_pageMapped {mm : Mm} {va : Nat}
    (mapped : (wordsAt A mm va).PageMapped A)
    : mmuTranslate A mm va
      = some (A.frame (wordsAt A mm va).pte * A.pageSize + va % A.pageSize, pteRef A va) := by
  obtain ⟨pgd, p4d, pud, pmd, pte⟩ := mapped
  simp only [wordsAt] at pgd p4d pud pmd pte
  simp only [mmuTranslate, pgd, p4d, pud, pmd, pte, wordsAt]

/-- Without a page or a block mapping the hardware faults, by cases on the kinds. -/
theorem mmuTranslate_of_unmapped {mm : Mm} {va : Nat}
    (page : ¬(wordsAt A mm va).PageMapped A) (block : ¬(wordsAt A mm va).BlockMapped A)
    : mmuTranslate A mm va = none := by
  simp only [Words.PageMapped, Words.BlockMapped, wordsAt] at page block
  simp only [mmuTranslate]
  split
  · rename_i pgd p4d
    simp only [pgd, p4d, true_and] at page block
    split
    · rfl
    · rename_i pud
      exact absurd (Or.inl pud) block
    · rename_i pud
      simp only [pud, true_and] at page block
      split
      · rfl
      · rename_i pmd
        exact absurd (Or.inr pmd) block
      · rename_i pmd
        simp only [pmd, true_and] at page
        split
        · rename_i pte
          exact absurd pte page
        · rfl
  · rfl

-----------------------------------------------------------------------------------------
-- When the walks agree
-----------------------------------------------------------------------------------------

/-- An ordinary walk agrees with the hardware. -/
theorem OrdinaryWalk.agrees {mm : Mm} {va : Nat} (h : OrdinaryWalk A mm va)
    : WalkAgrees A mm va := by
  obtain ⟨block, empty | page⟩ := h
  · have notPage : ¬(wordsAt A mm va).PageMapped A := fun page => page.not_hasEmpty empty
    rw [WalkAgrees, mmuTranslate_of_unmapped notPage block,
      getTaskProcPhyAddr_of_hasEmpty empty]
  · rw [WalkAgrees, mmuTranslate_of_pageMapped page,
      getTaskProcPhyAddr_of_not_hasEmpty page.not_hasEmpty]

/-- arm64 with 4 KiB pages and four levels: bits 0 and 1 tell the kinds apart, the frame
number starts at bit 12, and the p4d level is folded.
-/
def arm64 : Paging where
  pageShift := 12
  pageShift_le := by decide
  pudShift := 30
  pmdShift := 21
  index
    | .pgd, va => va / 2 ^ 12 / 2 ^ 27 % 512
    | .p4d, _ => 0
    | .pud, va => va / 2 ^ 12 / 2 ^ 18 % 512
    | .pmd, va => va / 2 ^ 12 / 2 ^ 9 % 512
    | .pte, va => va / 2 ^ 12 % 512
  kind
    | .p4d, w => if w = 0 then .absent else .table
    | .pte, w => if w % 4 = 3 then .leaf else .absent
    | _, w => if w % 4 = 3 then .table else if w % 4 = 1 then .leaf else .absent
  frame w := w / 2 ^ 12 % 2 ^ 36
  kind_zero level := by cases level <;> rfl
  index_page level va va' same := by
    simp only [PageGeometry.pageSize] at same
    cases level <;> simp only [same]

end RwMem.Driver
