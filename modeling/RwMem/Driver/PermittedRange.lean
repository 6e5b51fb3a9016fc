import RwMem.Driver.ProcMaps

/-! When the permission check accepts exactly the ranges that one mapping permits. -/

namespace RwMem.Driver

/-- The mappings of a target: in the order of their addresses, none reaching into the next, with
ends that are `unsigned long`.
-/
structure ValidVmas (mmap : List Vma) : Prop where
  ascending : mmap.Pairwise (fun vma later => vma.vmEnd ≤ later.vmStart)
  inside : ∀ vma ∈ mmap, vma.vmEnd < 2 ^ 64

/-- One mapping with the flag holds the whole range. -/
def Permitted (flag : Vma → Bool) (mmap : List Vma) (addr size : Nat) : Prop :=
  ∃ vma ∈ mmap, flag vma = true ∧ vma.vmStart ≤ addr ∧ addr + size ≤ vma.vmEnd

/-- If the mapping found for the address has the flag, then the range does not wrap, and the
mapping starts at or below the address or ends inside the range.
-/
def FoundBelow (flag : Vma → Bool) (mmap : List Vma) (addr size : Nat) : Prop :=
  ∀ vma, findVma mmap addr = some vma → flag vma = true
    → addr + size < 2 ^ 64 ∧ (vma.vmStart ≤ addr ∨ vma.vmEnd < addr + size)

variable {flag : Vma → Bool} {mmap : List Vma} {addr size : Nat}

/-- The mapping that holds an address is the first that ends above it. -/
theorem findVma_of_holds (valid : ValidVmas mmap) {vma : Vma} (member : vma ∈ mmap)
    (starts : vma.vmStart ≤ addr) (ends : addr < vma.vmEnd)
    : findVma mmap addr = some vma := by
  obtain ⟨before, after, rfl⟩ := List.append_of_mem member
  rw [findVma, List.find?_append, List.find?_cons_of_pos (by simpa using ends)]
  have none_before : before.find? (fun vma => addr < vma.vmEnd) = none := by
    rw [List.find?_eq_none]
    intro earlier among
    have apart := (List.pairwise_append.mp valid.ascending).2.2 earlier among vma List.mem_cons_self
    simpa using Nat.le_trans apart starts
  rw [none_before, Option.none_or]

theorem vmEnd_of_findVma {vma : Vma} (found : findVma mmap addr = some vma)
    : vma ∈ mmap ∧ addr < vma.vmEnd := by
  have ends := List.find?_some found
  exact ⟨List.mem_of_find?_eq_some found, of_decide_eq_true ends⟩

/-- The check looks at the flag and the wrapped end only. -/
theorem checkProcMap_eq_true_iff
    : checkProcMap flag (some mmap) addr size = true
      ↔ ∃ vma,
          findVma mmap addr = some vma ∧ flag vma = true ∧ wrap (addr + size) ≤ vma.vmEnd := by
  rw [checkProcMap]
  cases findVma mmap addr with
  | none => simp
  | some vma => simp

/-- No permitted range is refused. -/
theorem checkProcMap_of_permitted (valid : ValidVmas mmap) (nonempty : 0 < size)
    (permitted : Permitted flag mmap addr size)
    : checkProcMap flag (some mmap) addr size = true := by
  obtain ⟨vma, member, flagged, starts, ends⟩ := permitted
  have below := valid.inside vma member
  have found := findVma_of_holds valid member starts (by omega)
  refine checkProcMap_eq_true_iff.mpr ⟨vma, found, flagged, ?_⟩
  rw [wrap_of_lt (by omega)]
  exact ends

/-- The check tells permitted ranges exactly if the mapping that it finds holds the start of the
range, or is refused for its end.
-/
theorem checkProcMap_exact_iff (valid : ValidVmas mmap) (nonempty : 0 < size)
    (sizeFits : size < 2 ^ 64)
    : (checkProcMap flag (some mmap) addr size = true ↔ Permitted flag mmap addr size)
      ↔ FoundBelow flag mmap addr size := by
  constructor
  · intro tells vma found flagged
    obtain ⟨member, above⟩ := vmEnd_of_findVma found
    have accepted_wrapped (low : wrap (addr + size) ≤ vma.vmEnd)
        : vma.vmStart ≤ addr ∧ addr + size ≤ vma.vmEnd := by
      obtain ⟨held, member', _, starts, ends⟩ :=
        tells.mp (checkProcMap_eq_true_iff.mpr ⟨vma, found, flagged, low⟩)
      have same := findVma_of_holds valid member' starts (by omega)
      rw [found] at same
      cases same
      exact ⟨starts, ends⟩
    have below := valid.inside vma member
    by_cases wraps : addr + size < 2 ^ 64
    · refine ⟨wraps, ?_⟩
      by_cases low : addr + size ≤ vma.vmEnd
      · rw [wrap_of_lt wraps] at accepted_wrapped
        exact Or.inl (accepted_wrapped low).1
      · exact Or.inr (Nat.lt_of_not_le low)
    · have ends := (accepted_wrapped (by rw [wrap]; omega)).2
      omega
  · intro condition
    refine ⟨?_, checkProcMap_of_permitted valid nonempty⟩
    intro accepted
    obtain ⟨vma, found, flagged, low⟩ := checkProcMap_eq_true_iff.mp accepted
    obtain ⟨noWrap, starts⟩ := condition vma found flagged
    rw [wrap_of_lt noWrap] at low
    exact ⟨vma, (vmEnd_of_findVma found).1, flagged,
      starts.resolve_right (Nat.not_lt_of_le low), low⟩

/-- Both checks accept exactly the permitted ranges if and only if the mapping found for the
address, where it has the flag, holds the start of the range or ends inside it, and the range
does not wrap.
-/
theorem permissionChecks_exact_iff (valid : ValidVmas mmap) (nonempty : 0 < size)
    (sizeFits : size < 2 ^ 64)
    : ((checkProcMapCanRead (some mmap) addr size = true ↔ Permitted Vma.vmRead mmap addr size)
        ↔ FoundBelow Vma.vmRead mmap addr size)
      ∧ ((checkProcMapCanWrite (some mmap) addr size = true
          ↔ Permitted Vma.vmWrite mmap addr size)
        ↔ FoundBelow Vma.vmWrite mmap addr size) :=
  ⟨checkProcMap_exact_iff valid nonempty sizeFits,
    checkProcMap_exact_iff valid nonempty sizeFits⟩

/-- A mapping of one page that is readable and writable. -/
def onePageVmas : List Vma := [⟨0x5000, 0x6000, true, true⟩]

theorem validVmas_onePageVmas : ValidVmas onePageVmas := by
  refine ⟨List.pairwise_singleton _ _, ?_⟩
  intro vma member
  cases List.mem_singleton.mp member
  exact (by decide : 0x6000 < 2 ^ 64)

theorem permissionChecks_exact_iff_onePageVmas
    : ((checkProcMapCanRead (some onePageVmas) 0x5010 16 = true
          ↔ Permitted Vma.vmRead onePageVmas 0x5010 16)
        ↔ FoundBelow Vma.vmRead onePageVmas 0x5010 16)
      ∧ ((checkProcMapCanWrite (some onePageVmas) 0x5010 16 = true
          ↔ Permitted Vma.vmWrite onePageVmas 0x5010 16)
        ↔ FoundBelow Vma.vmWrite onePageVmas 0x5010 16) :=
  permissionChecks_exact_iff validVmas_onePageVmas (by decide) (by decide)

/-- The page in front of the mapping passes the check, and so does a range that wraps. -/
theorem permissionChecks_not_exact
    : ¬(checkProcMapCanRead (some onePageVmas) 0x4000 16 = true
        ↔ Permitted Vma.vmRead onePageVmas 0x4000 16)
      ∧ ¬(checkProcMapCanWrite (some onePageVmas) 0x5010 (2 ^ 64 - 1) = true
        ↔ Permitted Vma.vmWrite onePageVmas 0x5010 (2 ^ 64 - 1)) := by
  simp [checkProcMapCanRead, checkProcMapCanWrite, checkProcMap, findVma, onePageVmas, Permitted,
    wrap]

end RwMem.Driver
