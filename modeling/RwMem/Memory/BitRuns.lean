import Mathlib.Data.List.Range

/-! The maximal runs of ones in a finite sequence of bits, and a left-to-right scan for them. -/

namespace Memory

/-- `[a, b)` is a maximal run of ones among the first `n` bits. -/
structure IsRun (bit : Nat → Bool) (n a b : Nat) : Prop where
  nonempty : a < b
  inside : b ≤ n
  ones : ∀ j, a ≤ j → j < b → bit j = true
  left : a = 0 ∨ bit (a - 1) = false
  right : b = n ∨ bit b = false

variable {bit : Nat → Bool} {n a b c d i m j : Nat}

/-- Maximal runs that meet are equal. -/
theorem IsRun.eq_of_meet (run : IsRun bit n a b) (other : IsRun bit n c d) (low : c ≤ a)
    (high : a < d)
    : a = c ∧ b = d := by
  have start : a = c := by
    by_contra apart
    rcases run.left with first | gap
    · omega
    · rw [other.ones (a - 1) (by omega) (by omega)] at gap
      contradiction
  refine ⟨start, Nat.le_antisymm ?_ ?_⟩
  · by_contra more
    rcases other.right with last | gap
    · have := run.inside
      omega
    · rw [run.ones d (by omega) (by omega)] at gap
      contradiction
  · by_contra more
    rcases run.right with last | gap
    · have := other.inside
      omega
    · have := run.nonempty
      rw [other.ones b (by omega) (by omega)] at gap
      contradiction

/-- The scan from bit `i` on, over `m` bits, with the start of the run that is open. -/
def runsFrom (bit : Nat → Bool) (i : Nat) (start : Option Nat) : Nat → List (Nat × Nat)
  | 0 => start.toList.map (fun a => (a, i))
  | m + 1 =>
      if bit i then runsFrom bit (i + 1) (some (start.getD i)) m
      else start.toList.map (fun a => (a, i)) ++ runsFrom bit (i + 1) none m

/-- The maximal runs of the first `n` bits. -/
def runs (bit : Nat → Bool) (n : Nat) : List (Nat × Nat) := runsFrom bit 0 none n

/-- A scan has arrived at bit `i`: an open run is one up to here, and without one the bit before
is no part of a run.
-/
def Scanned (bit : Nat → Bool) (i : Nat) : Option Nat → Prop
  | none => i = 0 ∨ bit (i - 1) = false
  | some c => c < i ∧ (c = 0 ∨ bit (c - 1) = false) ∧ ∀ j, c ≤ j → j < i → bit j = true

theorem scanned_one {start : Option Nat} (scanned : Scanned bit i start) (one : bit i = true)
    : Scanned bit (i + 1) (some (start.getD i)) := by
  cases start with
  | none =>
      refine ⟨Nat.lt_succ_self i, scanned, ?_⟩
      intro j low high
      have here : j = i := Nat.le_antisymm (Nat.le_of_lt_succ high) low
      rw [here, one]
  | some c =>
      obtain ⟨before, left, ones⟩ := scanned
      refine ⟨Nat.lt_succ_of_lt before, left, ?_⟩
      intro j low high
      by_cases here : j = i
      · rw [here, one]
      · exact ones j low (by omega)

theorem scanned_start : Scanned bit 0 none := Or.inl rfl

theorem scanned_gap (gap : bit i = false) : Scanned bit (i + 1) none := Or.inr gap

/-- An open run is closed where the ones end. -/
theorem isRun_of_scanned (scanned : Scanned bit i (some c)) (inside : i ≤ n)
    (right : i = n ∨ bit i = false)
    : IsRun bit n c i :=
  ⟨scanned.1, inside, scanned.2.2, scanned.2.1, right⟩

theorem Scanned.getD_le {start : Option Nat} (scanned : Scanned bit i start)
    : start.getD i ≤ i := by
  cases start with
  | none => exact Nat.le_refl i
  | some c => exact Nat.le_of_lt scanned.1

/-- The run that is closed is the only one between its start and here. -/
theorem mem_closed {start : Option Nat} (scanned : Scanned bit i start) (inside : i ≤ n)
    (right : i = n ∨ bit i = false)
    : (a, b) ∈ start.toList.map (fun c => (c, i))
      ↔ IsRun bit n a b ∧ start.getD i ≤ a ∧ a < i := by
  cases start with
  | none => simp
  | some c =>
      have run := isRun_of_scanned scanned inside right
      have here : (a, b) ∈ (some c).toList.map (fun c => (c, i)) ↔ a = c ∧ b = i := by simp
      rw [here]
      constructor
      · intro same
        obtain ⟨first, last⟩ := same
        subst first last
        exact ⟨run, Nat.le_refl _, run.nonempty⟩
      · intro found
        obtain ⟨found, low, high⟩ := found
        exact found.eq_of_meet run low high

/-- The scan finds the runs that start at the open one or later, and no others. Induction on
the bits left.
-/
theorem mem_runsFrom {start : Option Nat} (scanned : Scanned bit i start)
    : (a, b) ∈ runsFrom bit i start m ↔ IsRun bit (i + m) a b ∧ start.getD i ≤ a := by
  induction m generalizing i start with
  | zero =>
      rw [runsFrom, mem_closed scanned (Nat.le_refl i) (Or.inl rfl), Nat.add_zero]
      constructor
      · intro found
        exact ⟨found.1, found.2.1⟩
      · intro found
        have nonempty := found.1.nonempty
        have inside := found.1.inside
        exact ⟨found.1, found.2, by omega⟩
  | succ m ih =>
      have next : i + (m + 1) = i + 1 + m := by omega
      rw [runsFrom]
      split
      · next one => rw [ih (scanned_one scanned one), Option.getD_some, next]
      · next zero =>
          have gap : bit i = false := Bool.eq_false_iff.mpr zero
          rw [List.mem_append, mem_closed scanned (Nat.le_add_right i (m + 1)) (Or.inr gap),
            ih (scanned_gap gap), next, Option.getD_none]
          constructor
          · intro found
            rcases found with closed | later
            · exact ⟨closed.1, closed.2.1⟩
            · have low := scanned.getD_le
              exact ⟨later.1, by omega⟩
          · intro found
            obtain ⟨run, low⟩ := found
            by_cases before : a < i
            · exact Or.inl ⟨run, low, before⟩
            · refine Or.inr ⟨run, ?_⟩
              by_contra here
              have same : a = i := by omega
              have one := run.ones a (Nat.le_refl a) run.nonempty
              rw [same, gap] at one
              contradiction

/-- Between two runs that the scan finds there is a gap. Induction on the bits left. -/
theorem pairwise_runsFrom {start : Option Nat} (scanned : Scanned bit i start)
    : (runsFrom bit i start m).Pairwise (fun r s => r.2 < s.1) := by
  induction m generalizing i start with
  | zero => cases start <;> simp [runsFrom]
  | succ m ih =>
      rw [runsFrom]
      split
      · next one => exact ih (scanned_one scanned one)
      · next zero =>
          have gap := scanned_gap (Bool.eq_false_iff.mpr zero)
          refine List.pairwise_append.mpr ⟨?_, ih gap, ?_⟩
          · cases start <;> simp
          · intro r closed s later
            obtain ⟨c, _, same⟩ := List.mem_map.mp closed
            have low := ((mem_runsFrom gap).mp later).2
            rw [← same]
            exact low

/-- Every one from the open run on lies in a run that the scan finds. Induction on the bits
left.
-/
theorem exists_mem_runsFrom {start : Option Nat} (scanned : Scanned bit i start)
    (low : start.getD i ≤ j) (high : j < i + m) (one : bit j = true)
    : ∃ r ∈ runsFrom bit i start m, r.1 ≤ j ∧ j < r.2 := by
  induction m generalizing i start with
  | zero =>
      cases start with
      | none => exact absurd low (Nat.not_le_of_lt high)
      | some c => exact ⟨(c, i), by simp [runsFrom], low, high⟩
  | succ m ih =>
      rw [runsFrom]
      split
      · next here => exact ih (scanned_one scanned here) low (by omega)
      · next zero =>
          have gap := scanned_gap (Bool.eq_false_iff.mpr zero)
          by_cases before : j < i
          · cases start with
            | none => exact absurd low (Nat.not_le_of_lt before)
            | some c => exact ⟨(c, i), by simp, low, before⟩
          · have other : j ≠ i := by
              intro same
              exact zero (same ▸ one)
            obtain ⟨r, member, around⟩ := ih gap (show i + 1 ≤ j by omega) (by omega)
            exact ⟨r, List.mem_append_right _ member, around⟩

theorem mem_runs : (a, b) ∈ runs bit n ↔ IsRun bit n a b := by
  have found : (a, b) ∈ runs bit n ↔ IsRun bit (0 + n) a b ∧ 0 ≤ a := mem_runsFrom scanned_start
  rw [found, Nat.zero_add]
  exact and_iff_left (Nat.zero_le a)

theorem pairwise_runs (bit : Nat → Bool) (n : Nat)
    : (runs bit n).Pairwise (fun r s => r.2 < s.1) :=
  pairwise_runsFrom scanned_start

/-- A bit is one exactly if it lies in a run. -/
theorem exists_mem_runs (high : j < n)
    : (∃ r ∈ runs bit n, r.1 ≤ j ∧ j < r.2) ↔ bit j = true := by
  constructor
  · intro found
    obtain ⟨r, member, low, below⟩ := found
    exact (mem_runs.mp member).ones j low below
  · intro one
    exact exists_mem_runsFrom scanned_start (Nat.zero_le j) (by omega) one

/-- A range lies in one run exactly if all its bits are ones. -/
theorem exists_mem_runs_around (nonempty : a < b) (inside : b ≤ n)
    : (∃ r ∈ runs bit n, r.1 ≤ a ∧ b ≤ r.2) ↔ ∀ j, a ≤ j → j < b → bit j = true := by
  constructor
  · intro found j low high
    obtain ⟨r, member, starts, ends⟩ := found
    exact (mem_runs.mp member).ones j (by omega) (by omega)
  · intro ones
    have first := ones a (Nat.le_refl a) nonempty
    obtain ⟨r, member, starts, holds⟩ := (exists_mem_runs (show a < n by omega)).mpr first
    refine ⟨r, member, starts, ?_⟩
    by_contra short
    -- the run would go on at its end
    rcases (mem_runs.mp member).right with last | gap
    · omega
    · rw [ones r.2 (by omega) (by omega)] at gap
      contradiction

end Memory
