import RwMem.Memory.Bytes

/-! Records stored one behind the other at a fixed distance that may leave a gap between them. -/

namespace Memory

variable {β : Type*}

/-- `mem` with the records stored from `pos` on, `stride` cells apart. -/
def storeRecords (stride : Nat) (mem : Nat → β) (pos : Nat) : List (List β) → (Nat → β)
  | [] => mem
  | record :: rest => storeRecords stride (store mem pos record) (pos + stride) rest

/-- Nothing in front of the records changes. -/
theorem storeRecords_before {stride i pos : Nat} (mem : Nat → β) (records : List (List β))
    (before : i < pos)
    : storeRecords stride mem pos records i = mem i := by
  induction records generalizing mem pos with
  | nil => rfl
  | cons record rest ih =>
      rw [storeRecords, ih _ (by omega), store_outside (Or.inl before)]

/-- The cells of the gap behind the `k`-th record hold `pad` before anything is stored. -/
def GapsHold (mem : Nat → β) (pos stride length count : Nat) (pad : β) : Prop :=
  ∀ k < count, ∀ j, length ≤ j → j < stride → mem (pos + stride * k + j) = pad

/-- Read from the first record on, the memory holds the records, each with its gap filled, and
behind them what was there before. Induction on the records: a later one starts behind the gap
of the first.
-/
theorem cells_storeRecords {stride length pos : Nat} {mem : Nat → β} {pad : β}
    {records : List (List β)} (fits : length ≤ stride)
    (sized : ∀ record ∈ records, record.length = length)
    (gaps : GapsHold mem pos stride length records.length pad) (n : Nat)
    : cells (storeRecords stride mem pos records) pos (stride * records.length + n)
      = records.flatMap (fun record => record ++ List.replicate (stride - length) pad)
        ++ cells mem (pos + stride * records.length) n := by
  induction records generalizing mem pos with
  | nil => simp [storeRecords]
  | cons record rest ih =>
      have size : record.length = length := sized record List.mem_cons_self
      have count : stride * (record :: rest).length + n
          = length + (stride - length + (stride * rest.length + n)) := by
        rw [List.length_cons, Nat.mul_succ]
        omega
      have later : GapsHold (store mem pos record) (pos + stride) stride length rest.length
          pad := by
        intro k below j low high
        have gap := gaps (k + 1) (by simpa using below) j low high
        rw [store_outside (Or.inr (by omega)), ← gap]
        congr 1
        rw [Nat.mul_succ]
        omega
      have head : cells (storeRecords stride mem pos (record :: rest)) pos length = record := by
        rw [storeRecords, ← size]
        refine (cells_congr ?_).trans (cells_store mem pos record)
        intro i _ high
        exact storeRecords_before _ _ (by omega)
      have gap : cells (storeRecords stride mem pos (record :: rest)) (pos + length)
          (stride - length) = List.replicate (stride - length) pad := by
        refine List.eq_replicate_iff.mpr ⟨length_cells _ _ _, ?_⟩
        intro b member
        obtain ⟨j, inside, same⟩ := List.mem_map.mp member
        have below := List.mem_range.mp inside
        have first := gaps 0 (by simp) (length + j) (by omega) (by omega)
        rw [← same, storeRecords, storeRecords_before _ _ (by omega),
          store_outside (Or.inr (by omega)), ← first]
        congr 1
        omega
      have behind := ih (fun r member => sized r (List.mem_cons_of_mem _ member)) later
      have place : pos + length + (stride - length) = pos + stride := by omega
      have after : pos + stride + stride * rest.length
          = pos + stride * (record :: rest).length := by
        rw [List.length_cons, Nat.mul_succ]
        omega
      have tail : cells (store mem pos record) (pos + stride + stride * rest.length) n
          = cells mem (pos + stride * (record :: rest).length) n := by
        rw [← after]
        apply cells_congr
        intro i low _
        exact store_outside (Or.inr (by omega))
      rw [count, cells_add, cells_add, head, gap, place, storeRecords, behind, tail,
        List.flatMap_cons]
      simp only [List.append_assoc]

end Memory
