import Mathlib.Algebra.Group.Nat.Defs
import Mathlib.Data.List.Basic

/-! Byte memories as functions, block copies between them, byte lists with a range replaced,
little-endian words, and the fields and bits of a memory.
-/

namespace Memory

variable {β : Type*}

/-- `dst` with the `n` cells from `at_` on replaced by those of `src` from `start` on. -/
def blit (dst : Nat → β) (at_ : Nat) (src : Nat → β) (start n : Nat) : Nat → β :=
  fun i => if at_ ≤ i ∧ i < at_ + n then src (start + (i - at_)) else dst i

theorem blit_inside {dst src : Nat → β} {at_ start n i : Nat} (low : at_ ≤ i)
    (high : i < at_ + n)
    : blit dst at_ src start n i = src (start + (i - at_)) :=
  if_pos ⟨low, high⟩

theorem blit_outside {dst src : Nat → β} {at_ start n i : Nat}
    (outside : i < at_ ∨ at_ + n ≤ i)
    : blit dst at_ src start n i = dst i :=
  if_neg (by omega)

@[simp] theorem blit_zero (dst src : Nat → β) (at_ start : Nat)
    : blit dst at_ src start 0 = dst := by
  funext i
  exact blit_outside (by omega)

/-- The first `n` cells of a memory from `at_` on, as a list. -/
def cells (mem : Nat → β) (at_ n : Nat) : List β :=
  (List.range n).map (fun j => mem (at_ + j))

@[simp] theorem length_cells (mem : Nat → β) (at_ n : Nat) : (cells mem at_ n).length = n := by
  simp [cells]

/-- `mem` with the cells from `at_` on replaced by the list. -/
def store (mem : Nat → β) (at_ : Nat) (src : List β) : Nat → β :=
  fun i => if at_ ≤ i then (src[i - at_]?).getD (mem i) else mem i

theorem store_inside {mem : Nat → β} {at_ i : Nat} {src : List β} (inside : i < src.length)
    : store mem at_ src (at_ + i) = src[i] := by
  simp [store, inside]

theorem store_outside {mem : Nat → β} {at_ i : Nat} {src : List β}
    (outside : i < at_ ∨ at_ + src.length ≤ i)
    : store mem at_ src i = mem i := by
  rw [store]
  split
  · rw [List.getElem?_eq_none (by omega)]
    rfl
  · rfl

/-- The cells that a list was stored in hold the list. -/
theorem cells_store (mem : Nat → β) (at_ : Nat) (src : List β)
    : cells (store mem at_ src) at_ src.length = src := by
  apply List.ext_getElem
  · simp
  · intro i _ inside
    simp [cells, store_inside inside]

/-- The list stored in one go, or its parts one behind the other. -/
theorem store_append (mem : Nat → β) (at_ : Nat) (left right : List β)
    : store mem at_ (left ++ right)
      = store (store mem at_ left) (at_ + left.length) right := by
  funext i
  simp only [store]
  by_cases behind : at_ + left.length ≤ i
  · have here : at_ ≤ i := by omega
    have past : left.length ≤ i - at_ := by omega
    rw [if_pos here, if_pos behind, if_pos here, List.getElem?_append_right past,
      List.getElem?_eq_none past, Nat.sub_sub]
    rfl
  · rw [if_neg behind]
    split
    · rw [List.getElem?_append_left (by omega)]
    · rfl

/-- What happened to a memory changed no cell in front of `low` or from `high` on. -/
def KeepsOutside (low high : Nat) (mem mem' : Nat → β) : Prop :=
  ∀ i, i < low ∨ high ≤ i → mem' i = mem i

theorem KeepsOutside.refl {low high : Nat} (mem : Nat → β) : KeepsOutside low high mem mem :=
  fun _ _ => rfl

theorem KeepsOutside.trans {low high : Nat} {first second third : Nat → β}
    (left : KeepsOutside low high first second) (right : KeepsOutside low high second third)
    : KeepsOutside low high first third :=
  fun i outside => (right i outside).trans (left i outside)

theorem KeepsOutside.mono {low high low' high' : Nat} {mem mem' : Nat → β}
    (keeps : KeepsOutside low high mem mem') (after : low' ≤ low) (before : high ≤ high')
    : KeepsOutside low' high' mem mem' :=
  fun i outside => keeps i (by omega)

/-- A list stored between two addresses. -/
theorem KeepsOutside.store {low high at_ : Nat} (mem : Nat → β) {src : List β}
    (after : low ≤ at_) (before : at_ + src.length ≤ high)
    : KeepsOutside low high mem (store mem at_ src) :=
  fun _ outside => store_outside (by omega)

/-- Cells are read piece by piece. -/
theorem cells_add (mem : Nat → β) (at_ m n : Nat)
    : cells mem at_ (m + n) = cells mem at_ m ++ cells mem (at_ + m) n := by
  simp only [cells, List.range_add, List.map_append, List.map_map]
  congr 1
  apply List.map_congr_left
  intro j _
  simp [Nat.add_assoc]

/-- Cells depend only on what is read. -/
theorem cells_congr {mem mem' : Nat → β} {at_ n : Nat}
    (same : ∀ i, at_ ≤ i → i < at_ + n → mem i = mem' i)
    : cells mem at_ n = cells mem' at_ n := by
  apply List.map_congr_left
  intro j inside
  have below := List.mem_range.mp inside
  exact same (at_ + j) (by omega) (by omega)

/-- A buffer that was stored at an address is read there. -/
theorem cells_store_front (p n : Nat) (front rest : List UInt8) (length : front.length = n)
    : cells (store (fun _ => 0) p (front ++ rest)) p n = front := by
  subst length
  rw [store_append]
  refine (cells_congr ?_).trans (cells_store (fun _ => 0) p front)
  intro i _ high
  exact store_outside (Or.inl high)

/-- `bytes` with those from `at_` on replaced by `src`. -/
def overwrite (bytes : List β) (at_ : Nat) (src : List β) : List β :=
  bytes.take at_ ++ src ++ bytes.drop (at_ + src.length)

/-- A range that starts at the front replaces the front. -/
theorem overwrite_zero (bytes src : List β)
    : overwrite bytes 0 src = src ++ bytes.drop src.length := by
  simp [overwrite]

/-- A range behind the front leaves the front. -/
theorem overwrite_append (front rest src : List β)
    : overwrite (front ++ rest) front.length src = front ++ src ++ rest.drop src.length := by
  simp [overwrite, List.drop_append]

/-- The `n` low bytes of a word, the lowest first. -/
def leBytes : Nat → Nat → List UInt8
  | 0, _ => []
  | n + 1, w => UInt8.ofNat w :: leBytes n (w / 256)

/-- The word that a list of bytes spells, the lowest first. -/
def leValue : List UInt8 → Nat
  | [] => 0
  | b :: rest => b.toNat + 256 * leValue rest

@[simp] theorem length_leBytes (n w : Nat) : (leBytes n w).length = n := by
  induction n generalizing w with
  | zero => rfl
  | succ n ih => simp [leBytes, ih]

/-- A word is bounded by the bytes that spell it, by induction on them. -/
theorem leValue_lt (bytes : List UInt8) : leValue bytes < 256 ^ bytes.length := by
  induction bytes with
  | nil => simp [leValue]
  | cons b rest ih =>
      have low := b.toNat_lt
      rw [leValue, List.length_cons, Nat.pow_succ]
      omega

/-- Decoding gives back the word up to the bytes that were kept, by induction on them. -/
theorem leValue_leBytes_mod (n w : Nat) : leValue (leBytes n w) = w % 256 ^ n := by
  induction n generalizing w with
  | zero => simp [leBytes, leValue, Nat.mod_one]
  | succ n ih =>
      have low : (UInt8.ofNat w).toNat = w % 256 := by simp
      have split : w % (256 * 256 ^ n) = w % 256 + 256 * (w / 256 % 256 ^ n) :=
        Nat.mod_mul
      rw [leBytes, leValue, ih, low, Nat.pow_succ, Nat.mul_comm (256 ^ n), split]

/-- A word that fits round-trips. -/
theorem leValue_leBytes {n w : Nat} (fits : w < 256 ^ n) : leValue (leBytes n w) = w := by
  rw [leValue_leBytes_mod, Nat.mod_eq_of_lt fits]

/-- A word of eight bytes round-trips. -/
theorem leValue_leBytes_word {w : Nat} (fits : w < 2 ^ 64) : leValue (leBytes 8 w) = w :=
  leValue_leBytes fits

-----------------------------------------------------------------------------------------
-- Fields
-----------------------------------------------------------------------------------------

/-- The cells from an offset of others on. -/
theorem take_drop_cells (mem : Nat → β) (at_ : Nat) {offset n length : Nat}
    (inside : offset + n ≤ length)
    : ((cells mem at_ length).drop offset).take n = cells mem (at_ + offset) n := by
  obtain ⟨rest, rfl⟩ := Nat.exists_eq_add_of_le inside
  rw [Nat.add_assoc, cells_add, cells_add]
  have front : (cells mem at_ offset).length = offset := length_cells _ _ _
  have mid : (cells mem (at_ + offset) n).length = n := length_cells _ _ _
  rw [List.drop_left' front, List.take_left' mid]

/-- Cells that a list was stored in hold it. -/
theorem cells_store_here (mem : Nat → β) (at_ : Nat) {n : Nat} {src : List β}
    (long : src.length = n)
    : cells (store mem at_ src) at_ n = src := by
  subst long
  exact cells_store mem at_ src

/-- A store changes no cells that it lies apart from. -/
theorem cells_store_apart (mem : Nat → β) {at_ b n : Nat} {src : List β}
    (apart : b + n ≤ at_ ∨ at_ + src.length ≤ b)
    : cells (store mem at_ src) b n = cells mem b n :=
  cells_congr (fun i low high => store_outside (by omega))

/-- The little-endian word of `n` bytes at an offset. -/
def field (mem : Nat → UInt8) (at_ n : Nat) : Nat := leValue (cells mem at_ n)

/-- A field holds what was stored in it, cut to its bytes. -/
theorem field_store (mem : Nat → UInt8) (at_ n w : Nat)
    : field (store mem at_ (leBytes n w)) at_ n = w % 256 ^ n := by
  have stored := cells_store mem at_ (leBytes n w)
  rw [length_leBytes] at stored
  rw [field, stored, leValue_leBytes_mod]

/-- A store changes no field that it lies apart from. -/
theorem field_store_apart (mem : Nat → UInt8) {at_ b n : Nat} {src : List UInt8}
    (apart : b + n ≤ at_ ∨ at_ + src.length ≤ b)
    : field (store mem at_ src) b n = field mem b n := by
  rw [field, field, cells_store_apart mem apart]

-----------------------------------------------------------------------------------------
-- Bits, the lowest of each byte first
-----------------------------------------------------------------------------------------

/-- Bit `k` of a memory from `at_` on. -/
def bitAt (mem : Nat → UInt8) (at_ k : Nat) : Bool := (mem (at_ + k / 8)).toNat.testBit (k % 8)

/-- Whole bytes can be counted as part of the position. -/
theorem bitAt_add (mem : Nat → UInt8) (at_ q k : Nat)
    : bitAt mem at_ (8 * q + k) = bitAt mem (at_ + q) k := by
  have byte : (8 * q + k) / 8 = q + k / 8 := by omega
  have bit : (8 * q + k) % 8 = k % 8 := by omega
  rw [bitAt, bitAt, byte, bit, Nat.add_assoc]

/-- The bits of cells that were copied elsewhere. -/
theorem bitAt_store_inside {mem src : Nat → UInt8} {at_ from_ n k : Nat} (inside : k < 8 * n)
    : bitAt (store mem at_ (cells src from_ n)) at_ k = bitAt src from_ k := by
  have byte : k / 8 < (cells src from_ n).length := by
    rw [length_cells]
    omega
  rw [bitAt, store_inside byte, bitAt]
  simp [cells]

theorem bitAt_store_below {mem : Nat → UInt8} {base at_ k : Nat} {src : List UInt8}
    (below : base + k / 8 < at_)
    : bitAt (store mem at_ src) base k = bitAt mem base k := by
  rw [bitAt, store_outside (Or.inl below), bitAt]

/-- Setting one bit of a byte sets this bit of the memory. -/
theorem bitAt_update_or (mem : Nat → UInt8) (i k : Nat)
    : bitAt (Function.update mem (i / 8) (mem (i / 8) ||| UInt8.ofNat (1 <<< (i % 8)))) 0 k
      = (decide (k = i) || bitAt mem 0 k) := by
  have one : ∀ r < 8, ∀ s < 8, (UInt8.ofNat (1 <<< r)).toNat.testBit s = decide (s = r) := by
    decide
  have set := one (i % 8) (Nat.mod_lt _ (by decide)) (k % 8) (Nat.mod_lt _ (by decide))
  rw [bitAt, bitAt, Nat.zero_add]
  by_cases here : k / 8 = i / 8
  · have same : decide (k % 8 = i % 8) = decide (k = i) := by
      apply decide_eq_decide.mpr
      omega
    rw [here, Function.update_self, UInt8.toNat_or, Nat.testBit_or, set, same, Bool.or_comm]
  · have other : decide (k = i) = false := by
      apply decide_eq_false
      intro same
      exact here (congrArg (· / 8) same)
    rw [Function.update_of_ne here, other, Bool.false_or]

end Memory
