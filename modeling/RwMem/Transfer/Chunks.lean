import RwMem.Driver.Sys

/-! The chunks in which a transfer loop runs through its range, for any page walk. The walk
alone decides them, whatever the physical accesses do.
-/

namespace RwMem.Transfer

open Memory RwMem.Driver

variable {P : Type}

/-- The range of a transfer and the walk that translates it. -/
structure Scan (P : Type) where
  geometry : PageGeometry
  walk : Nat → Nat × Option P
  addr : Nat
  size : Nat

namespace Scan

variable (s : Scan P)

/-- The offset at which the `n`-th chunk starts. -/
def start : Nat → Nat
  | 0 => 0
  | n + 1 =>
      start n
        + pfnSize s.geometry (s.walk (wrap (s.addr + start n))).1 (s.size - start n)

/-- What the walk answers at the `n`-th chunk. -/
def translation (n : Nat) : Nat × Option P := s.walk (wrap (s.addr + s.start n))

def phyAddr (n : Nat) : Nat := (s.translation n).1

/-- The size of the `n`-th chunk. -/
def part (n : Nat) : Nat := pfnSize s.geometry (s.phyAddr n) (s.size - s.start n)

/-- The loop goes on with the `n`-th chunk: it is translated, and its entry has the bit or
the transfer is forced.
-/
def Allowed (bit : PteBits → Bool) (ptes : P → PteBits) (force : Bool) (n : Nat) : Prop :=
  s.phyAddr n ≠ 0
  ∧ ∃ pte, (s.translation n).2 = some pte ∧ (force || bit (ptes pte)) = true

/-- The offsets of the `n`-th chunk up to a length. -/
def Within (n length i : Nat) : Prop := s.start n ≤ i ∧ i < s.start n + length

theorem start_zero : s.start 0 = 0 := rfl

theorem start_succ (n : Nat) : s.start (n + 1) = s.start n + s.part n := rfl

theorem start_mono : Monotone s.start :=
  monotone_nat_of_le_succ (fun n => by rw [start_succ]; exact Nat.le_add_right _ _)

theorem part_le (n : Nat) : s.part n ≤ s.size - s.start n := by
  rw [part, pfnSize_eq]
  exact Nat.min_le_right _ _

theorem part_inPage (n : Nat)
    : s.part n ≤ s.geometry.pageSize - s.phyAddr n % s.geometry.pageSize := by
  rw [part, pfnSize_eq]
  exact Nat.min_le_left _ _

/-- The chunks stay in the range. -/
theorem start_le (n : Nat) : s.start n ≤ s.size := by
  induction n with
  | zero => exact Nat.zero_le _
  | succ n ih =>
      have part := s.part_le n
      rw [start_succ]
      omega

variable {s}

theorem part_pos {n : Nat} (reached : s.start n < s.size) : 0 < s.part n :=
  pfnSize_pos s.geometry (s.phyAddr n) (by omega)

theorem start_advances (n : Nat) (reached : s.start n < s.size)
    : s.start n < s.start (n + 1) := by
  have positive := part_pos reached
  rw [start_succ]
  omega

/-- A chunk at which the loop stops is not translated, or has no entry, or has an entry without
the bit in a transfer that is not forced.
-/
theorem refused_cases {bit : PteBits → Bool} {ptes : P → PteBits} {force : Bool} {n : Nat}
    (refused : ¬s.Allowed bit ptes force n)
    : s.phyAddr n = 0
      ∨ s.phyAddr n ≠ 0 ∧ (s.translation n).2 = none
      ∨ s.phyAddr n ≠ 0
        ∧ ∃ pte, (s.translation n).2 = some pte ∧ force = false ∧ bit (ptes pte) = false := by
  by_cases zero : s.phyAddr n = 0
  · exact Or.inl zero
  · cases entry : (s.translation n).2 with
    | none => exact Or.inr (Or.inl ⟨zero, rfl⟩)
    | some pte =>
        have denied : force = false ∧ bit (ptes pte) = false := by
          simpa [Allowed, zero, entry] using refused
        exact Or.inr (Or.inr ⟨zero, pte, rfl, denied⟩)

/-- Where accesses move parts of the chunks before `m`, all offsets up to there are moved
exactly if every access moves its whole chunk.
-/
theorem forall_within_iff {m : Nat} {moved : Nat → Nat} (le : ∀ l, moved l ≤ s.part l)
    (reached : ∀ l < m, s.start l < s.size)
    : (∀ i < s.start m, ∃ l, 0 ≤ l ∧ l < m ∧ s.Within l (moved l) i)
      ↔ ∀ l < m, moved l = s.part l := by
  have whole := forall_covered_iff s.start_zero s.start_mono m moved
    (fun l _ => by rw [start_succ]; exact Nat.add_le_add_left (le l) _)
    (fun l before => start_advances l (reached l before))
  simp only [start_succ, Nat.add_left_cancel_iff] at whole
  simpa only [Within, Nat.zero_le, true_and] using whole

/-- No access moves anything behind the chunks before `m`. -/
theorem Within.lt_start {m l i : Nat} {moved : Nat → Nat} (le : ∀ l, moved l ≤ s.part l)
    (before : l < m) (inside : s.Within l (moved l) i)
    : i < s.start m := by
  have order := s.start_mono (Nat.succ_le_of_lt before)
  have part := le l
  have high := inside.2
  rw [Nat.succ_eq_add_one, start_succ] at order
  omega

end Scan

/-- The offset `i` of the request lies in the part of some chunk that was really moved;
`shift` is where the data starts in the user buffer.
-/
def Moved (shift : Nat) (chunks : List Chunk) (i : Nat) : Prop :=
  ∃ c ∈ chunks, c.lpBuf ≤ shift + i ∧ shift + i < c.lpBuf + c.moved

theorem not_moved_nil (shift i : Nat) : ¬Moved shift [] i := by
  intro ⟨_, member, _⟩
  exact absurd member List.not_mem_nil

theorem Moved.append {shift i : Nat} {left right : List Chunk}
    : Moved shift (left ++ right) i ↔ Moved shift left i ∨ Moved shift right i := by
  simp only [Moved, List.mem_append, or_and_right, exists_or]

/-- The first chunk and those behind it are the chunks from the first on. -/
theorem exists_from_iff {m j : Nat} (more : j < m) (holds : Nat → Prop)
    : (holds j ∨ ∃ l, j + 1 ≤ l ∧ l < m ∧ holds l) ↔ ∃ l, j ≤ l ∧ l < m ∧ holds l := by
  constructor
  · intro member
    rcases member with here | ⟨l, after, before, there⟩
    · exact ⟨j, Nat.le_refl j, more, here⟩
    · exact ⟨l, by omega, before, there⟩
  · intro ⟨l, after, before, there⟩
    rcases Nat.eq_or_lt_of_le after with same | behind
    · subst same
      exact Or.inl there
    · exact Or.inr ⟨l, behind, before, there⟩

end RwMem.Transfer
