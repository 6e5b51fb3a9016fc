import Mathlib.Data.Nat.Find
import Mathlib.Order.WellFounded
import Mathlib.Tactic.Ring

/-! Cutting a range of addresses at the multiples of a block size, and running through the
pieces in order up to the first one that is not good.
-/

namespace Memory

variable {block addr size : Nat}

/-- The distance from `addr` to the start of its `k`-th block, `0` for the block of `addr`
itself. The range of length `size` reaches into that block when the distance is below it.
-/
def pieceStart (block addr k : Nat) : Nat := k * block - addr % block

@[simp] theorem pieceStart_zero : pieceStart block addr 0 = 0 := by simp [pieceStart]

/-- The offset `i` lies at or after the `k`-th block exactly when its block number says so. -/
theorem pieceStart_le_iff (positive : 0 < block) {k i : Nat}
    : pieceStart block addr k ≤ i ↔ addr / block + k ≤ (addr + i) / block := by
  have whole : addr + i = addr % block + i + block * (addr / block) := by
    have := Nat.mod_add_div addr block
    omega
  rw [whole, Nat.add_mul_div_left _ _ positive, pieceStart, Nat.add_comm (addr / block),
    Nat.add_le_add_iff_right, Nat.le_div_iff_mul_le positive]
  omega

/-- Inside the `k`-th piece the block number is that of `addr` plus `k`. -/
theorem div_of_mem_piece (positive : 0 < block) {k i : Nat}
    (low : pieceStart block addr k ≤ i) (high : i < pieceStart block addr (k + 1))
    : (addr + i) / block = addr / block + k := by
  have lower := (pieceStart_le_iff positive).mp low
  have upper : ¬addr / block + (k + 1) ≤ (addr + i) / block :=
    fun h => absurd ((pieceStart_le_iff positive).mpr h) (by omega)
  omega

/-- The next piece starts where the block of the present one ends. -/
theorem pieceStart_succ (positive : 0 < block) (addr k : Nat)
    : pieceStart block addr (k + 1)
      = pieceStart block addr k + (block - (addr + pieceStart block addr k) % block) := by
  have inside := Nat.mod_lt addr positive
  cases k with
  | zero => simp [pieceStart]
  | succ k =>
      have whole := Nat.mod_add_div addr block
      have aligned
          : addr + pieceStart block addr (k + 1) = block * (addr / block + k + 1) := by
        simp only [pieceStart, Nat.succ_mul, Nat.mul_add, Nat.mul_one, Nat.mul_comm k]
        omega
      rw [aligned, Nat.mul_mod_right, Nat.sub_zero]
      simp only [pieceStart, Nat.succ_mul]
      omega

theorem pieceStart_lt_succ (positive : 0 < block) (addr k : Nat)
    : pieceStart block addr k < pieceStart block addr (k + 1) := by
  have inside := Nat.mod_lt (addr + pieceStart block addr k) positive
  rw [pieceStart_succ positive]
  omega

theorem pieceStart_strictMono (positive : 0 < block) (addr : Nat)
    : StrictMono (pieceStart block addr) :=
  strictMono_nat_of_lt_succ (pieceStart_lt_succ positive addr)

/-- Inside a piece the offset in the block grows with the offset in the range. -/
theorem mod_of_mem_piece (positive : 0 < block) {k i : Nat}
    (low : pieceStart block addr k ≤ i) (high : i < pieceStart block addr (k + 1))
    : (addr + i) % block
      = (addr + pieceStart block addr k) % block + (i - pieceStart block addr k) := by
  have here := div_of_mem_piece positive low high
  have first := div_of_mem_piece positive (Nat.le_refl _) (pieceStart_lt_succ positive addr k)
  have whole := Nat.mod_add_div (addr + i) block
  have start := Nat.mod_add_div (addr + pieceStart block addr k) block
  rw [here] at whole
  rw [first] at start
  omega

variable {start : Nat → Nat}

/-- The pieces before `m` are reached and good, and the `m`-th is past the end or bad. -/
structure StopsAt (start : Nat → Nat) (size : Nat) (good : Nat → Prop) (m : Nat) : Prop where
  before : ∀ k < m, start k < size ∧ good k
  here : size ≤ start m ∨ ¬good m

/-- The distance to the first bad piece, or the whole size without one. -/
structure GoodPrefix (start : Nat → Nat) (size : Nat) (good : Nat → Prop) (n : Nat)
    : Prop where
  full : (∀ k, start k < size → good k) → n = size
  cut : ∀ k, start k < size → ¬good k → (∀ j < k, good j) → n = start k

/-- Running through pieces that advance stops somewhere, since their starts pass the end. -/
theorem exists_stopsAt (good : Nat → Prop)
    (advances : ∀ k, start k < size → start k < start (k + 1))
    : ∃ m, StopsAt start size good m := by
  classical
  have ends : ∃ m, size ≤ start m ∨ ¬good m := by
    by_contra never
    have going (k : Nat) : start k < size ∧ good k := by
      by_contra stops
      apply never
      refine ⟨k, ?_⟩
      by_cases past : size ≤ start k
      · exact Or.inl past
      · exact Or.inr (fun holds => stops ⟨Nat.lt_of_not_le past, holds⟩)
    have far (k : Nat) : k ≤ start k := by
      induction k with
      | zero => exact Nat.zero_le _
      | succ k ih => exact Nat.lt_of_le_of_lt ih (advances k (going k).1)
    exact absurd (going size).1 (Nat.not_lt_of_le (far size))
  refine ⟨Nat.find ends, ?_, Nat.find_spec ends⟩
  intro k earlier
  have going := Nat.find_min ends earlier
  simpa only [not_or, not_le, not_not] using going

/-- The first bad piece is the one at which the run stops. -/
theorem StopsAt.eq_of_bad (mono : Monotone start) {good : Nat → Prop} {m k : Nat}
    (h : StopsAt start size good m) (reached : start k < size) (bad : ¬good k)
    (earlier : ∀ j < k, good j)
    : m = k := by
  rcases Nat.lt_trichotomy m k with less | same | more
  · have before := mono (Nat.le_of_lt less)
    rcases h.here with past | badHere
    · omega
    · exact absurd (earlier m less) badHere
  · exact same
  · exact absurd (h.before k more).2 bad

/-- Stopping at `m` means that the good prefix ends there, or at the end of the range. -/
theorem StopsAt.goodPrefix (mono : Monotone start) {good : Nat → Prop} {m : Nat}
    (h : StopsAt start size good m)
    : GoodPrefix start size good (min size (start m)) := by
  refine ⟨?_, ?_⟩
  · intro all
    rcases h.here with past | bad
    · exact Nat.min_eq_left past
    · by_contra short
      have reached : start m < size := by omega
      exact bad (all m reached)
  · intro k reached bad earlier
    rw [h.eq_of_bad mono reached bad earlier]
    exact Nat.min_eq_right (Nat.le_of_lt reached)

/-- The pieces before the stop are those reached through good pieces only. -/
theorem StopsAt.lt_iff (mono : Monotone start) {good : Nat → Prop} {m k : Nat}
    (h : StopsAt start size good m)
    : k < m ↔ ∀ j ≤ k, start j < size ∧ good j := by
  constructor
  · intro less j earlier
    exact h.before j (by omega)
  · intro reached
    by_contra notLess
    have order := mono (Nat.le_of_not_lt notLess)
    obtain ⟨inside, -⟩ := reached k (Nat.le_refl k)
    rcases h.here with past | bad
    · omega
    · exact bad (reached m (Nat.le_of_not_lt notLess)).2

/-- Below the start of the `m`-th piece every offset lies in an earlier one. -/
theorem exists_between (zero : start 0 = 0) {m i : Nat} (below : i < start m)
    : ∃ l < m, start l ≤ i ∧ i < start (l + 1) := by
  induction m with
  | zero => omega
  | succ m ih =>
      by_cases earlier : i < start m
      · obtain ⟨l, less, range⟩ := ih earlier
        exact ⟨l, by omega, range⟩
      · exact ⟨m, Nat.lt_succ_self m, Nat.le_of_not_lt earlier, below⟩

/-- When each of the first `m` pieces is covered up to a length `covered`, all offsets are
covered exactly if each piece is covered whole, since its last offset lies in it alone.
-/
theorem forall_covered_iff (zero : start 0 = 0) (mono : Monotone start) (m : Nat)
    (covered : Nat → Nat) (within : ∀ l < m, start l + covered l ≤ start (l + 1))
    (nonempty : ∀ l < m, start l < start (l + 1))
    : (∀ i < start m, ∃ l < m, start l ≤ i ∧ i < start l + covered l)
      ↔ ∀ l < m, start l + covered l = start (l + 1) := by
  constructor
  · intro all l before
    have order := mono (Nat.succ_le_of_lt before)
    have positive := nonempty l before
    obtain ⟨l', before', low, high⟩ := all (start (l + 1) - 1) (by simp at order; omega)
    have end' := within l' before'
    have same : l' = l := by
      rcases Nat.lt_trichotomy l' l with less | same | more
      · have := mono (Nat.succ_le_of_lt less)
        simp only [Nat.succ_eq_add_one] at this
        omega
      · exact same
      · have := mono (Nat.succ_le_of_lt more)
        simp only [Nat.succ_eq_add_one] at this
        omega
    subst same
    omega
  · intro whole i below
    obtain ⟨l, before, low, high⟩ := exists_between zero below
    exact ⟨l, before, low, by rw [whole l before]; exact high⟩

end Memory
