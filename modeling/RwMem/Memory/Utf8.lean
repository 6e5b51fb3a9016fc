import Mathlib.Data.List.Basic

/-! UTF-8 decoding that replaces what is no UTF-8, and that it keeps what is. -/

namespace Memory

/-- How many bytes follow this first byte of a character, and the range of the second byte. -/
def utf8Lead (b : Nat) : Option (Nat × Nat × Nat) :=
  if b ≤ 0x7F then some (0, 0x80, 0xBF)
  else if 0xC2 ≤ b ∧ b ≤ 0xDF then some (1, 0x80, 0xBF)
  else if b = 0xE0 then some (2, 0xA0, 0xBF)
  else if b = 0xED then some (2, 0x80, 0x9F)
  else if 0xE1 ≤ b ∧ b ≤ 0xEF then some (2, 0x80, 0xBF)
  else if b = 0xF0 then some (3, 0x90, 0xBF)
  else if 0xF1 ≤ b ∧ b ≤ 0xF3 then some (3, 0x80, 0xBF)
  else if b = 0xF4 then some (3, 0x80, 0x8F)
  else none

/-- How many of the bytes that should follow do. -/
def utf8Tail : Nat → Nat → Nat → List UInt8 → Nat
  | 0, _, _, _ => 0
  | _ + 1, _, _, [] => 0
  | need + 1, low, high, b :: rest =>
      if low ≤ b.toNat ∧ b.toNat ≤ high then 1 + utf8Tail need 0x80 0xBF rest else 0

/-- U+FFFD. -/
def replacementChar : List UInt8 := [0xEF, 0xBF, 0xBD]

/-- `String::from_utf8_lossy`. A character that breaks off is replaced together with the bytes
of it that are there.
-/
def fromUtf8Lossy : List UInt8 → List UInt8
  | [] => []
  | b :: rest =>
      match utf8Lead b.toNat with
      | none => replacementChar ++ fromUtf8Lossy rest
      | some (need, low, high) =>
          let there := utf8Tail need low high rest
          (if there = need then b :: rest.take there else replacementChar)
            ++ fromUtf8Lossy (rest.drop there)
termination_by bytes => bytes.length
decreasing_by
  all_goals
    simp only [List.length_cons, List.length_drop]
    omega

/-- The bytes encode some characters. -/
def IsUtf8 (bytes : List UInt8) : Prop :=
  ∃ chars : List Char, bytes = chars.flatMap String.utf8EncodeChar

/-- Bytes in their ranges are all there. -/
theorem utf8Tail_one {n low high : Nat} (inside : low ≤ n ∧ n ≤ high) (small : n < 256)
    (need : Nat) (rest : List UInt8)
    : utf8Tail (need + 1) low high (UInt8.ofNat n :: rest)
      = 1 + utf8Tail need 0x80 0xBF rest := by
  have value : (UInt8.ofNat n).toNat = n := by
    rw [UInt8.toNat_ofNat']
    exact Nat.mod_eq_of_lt small
  rw [utf8Tail, value, if_pos inside]

/-- The last six bits of anything make a byte that follows. -/
theorem utf8Tail_six (v need : Nat) (rest : List UInt8)
    : utf8Tail (need + 1) 0x80 0xBF (UInt8.ofNat (v % 64 + 128) :: rest)
      = 1 + utf8Tail need 0x80 0xBF rest := by
  have low := Nat.mod_lt v (show 64 > 0 by decide)
  exact utf8Tail_one ⟨by omega, by omega⟩ (by omega) need rest

/-- The first byte of each length, and what the second byte is then. -/
theorem utf8Lead_two {v : Nat} (low : 0x80 ≤ v) (high : v ≤ 0x7FF)
    : utf8Lead (v / 64 % 32 + 192) = some (1, 0x80, 0xBF) := by
  have notOne : ¬v / 64 % 32 + 192 ≤ 0x7F := by omega
  have two : 0xC2 ≤ v / 64 % 32 + 192 ∧ v / 64 % 32 + 192 ≤ 0xDF := by omega
  rw [utf8Lead, if_neg notOne, if_pos two]

theorem utf8Lead_three {v : Nat} (low : 0x800 ≤ v) (high : v ≤ 0xFFFF)
    (scalar : v < 0xD800 ∨ 0xDFFF < v)
    : ∃ least most,
        utf8Lead (v / 4096 % 16 + 224) = some (2, least, most)
        ∧ least ≤ v / 64 % 64 + 128
        ∧ v / 64 % 64 + 128 ≤ most := by
  have notOne : ¬v / 4096 % 16 + 224 ≤ 0x7F := by omega
  have notTwo : ¬(0xC2 ≤ v / 4096 % 16 + 224 ∧ v / 4096 % 16 + 224 ≤ 0xDF) := by omega
  rw [utf8Lead, if_neg notOne, if_neg notTwo]
  by_cases first : v / 4096 % 16 + 224 = 0xE0
  · rw [if_pos first]
    exact ⟨0xA0, 0xBF, rfl, by omega, by omega⟩
  · rw [if_neg first]
    by_cases surrogate : v / 4096 % 16 + 224 = 0xED
    · rw [if_pos surrogate]
      exact ⟨0x80, 0x9F, rfl, by omega, by omega⟩
    · have other : 0xE1 ≤ v / 4096 % 16 + 224 ∧ v / 4096 % 16 + 224 ≤ 0xEF := by omega
      rw [if_neg surrogate, if_pos other]
      exact ⟨0x80, 0xBF, rfl, by omega, by omega⟩

theorem utf8Lead_four {v : Nat} (low : 0x10000 ≤ v) (high : v < 0x110000)
    : ∃ least most,
        utf8Lead (v / 262144 % 8 + 240) = some (3, least, most)
        ∧ least ≤ v / 4096 % 64 + 128
        ∧ v / 4096 % 64 + 128 ≤ most := by
  have notOne : ¬v / 262144 % 8 + 240 ≤ 0x7F := by omega
  have notTwo : ¬(0xC2 ≤ v / 262144 % 8 + 240 ∧ v / 262144 % 8 + 240 ≤ 0xDF) := by omega
  have notThree : ¬(0xE1 ≤ v / 262144 % 8 + 240 ∧ v / 262144 % 8 + 240 ≤ 0xEF) := by omega
  rw [utf8Lead, if_neg notOne, if_neg notTwo, if_neg (by omega), if_neg (by omega),
    if_neg notThree]
  by_cases first : v / 262144 % 8 + 240 = 0xF0
  · rw [if_pos first]
    exact ⟨0x90, 0xBF, rfl, by omega, by omega⟩
  · rw [if_neg first]
    by_cases middle : 0xF1 ≤ v / 262144 % 8 + 240 ∧ v / 262144 % 8 + 240 ≤ 0xF3
    · rw [if_pos middle]
      exact ⟨0x80, 0xBF, rfl, by omega, by omega⟩
    · have last : v / 262144 % 8 + 240 = 0xF4 := by omega
      rw [if_neg middle, if_pos last]
      exact ⟨0x80, 0x8F, rfl, by omega, by omega⟩

/-- A character is a first byte and the bytes that should follow it. -/
theorem utf8EncodeChar_eq (c : Char)
    : ∃ b tail low high,
        String.utf8EncodeChar c = b :: tail
        ∧ utf8Lead b.toNat = some (tail.length, low, high)
        ∧ ∀ rest, utf8Tail tail.length low high (tail ++ rest) = tail.length := by
  have scalar : c.val.toNat < 0xD800 ∨ 0xDFFF < c.val.toNat ∧ c.val.toNat < 0x110000 := c.valid
  have byte {n : Nat} (small : n < 256) : (UInt8.ofNat n).toNat = n := by
    rw [UInt8.toNat_ofNat']
    exact Nat.mod_eq_of_lt small
  rw [String.utf8EncodeChar]
  generalize c.val.toNat = v at scalar
  split
  · refine ⟨_, [], 0x80, 0xBF, rfl, ?_, fun rest => rfl⟩
    rw [byte (by omega), utf8Lead, if_pos (by omega)]
    rfl
  · split
    · refine ⟨_, [_], 0x80, 0xBF, rfl, ?_, ?_⟩
      · rw [byte (by omega), utf8Lead_two (by omega) (by omega)]
        rfl
      · intro rest
        exact utf8Tail_six v 0 rest
    · split
      · obtain ⟨low, high, lead, least, most⟩ :=
          utf8Lead_three (v := v) (by omega) (by omega) (by omega)
        refine ⟨_, [_, _], low, high, rfl, ?_, ?_⟩
        · rw [byte (by omega), lead]
          rfl
        · intro rest
          simp only [List.cons_append, List.nil_append, List.length_cons, List.length_nil]
          rw [utf8Tail_one ⟨least, most⟩ (by omega), utf8Tail_six]
          rfl
      · obtain ⟨low, high, lead, least, most⟩ := utf8Lead_four (v := v) (by omega) (by omega)
        refine ⟨_, [_, _, _], low, high, rfl, ?_, ?_⟩
        · rw [byte (by omega), lead]
          rfl
        · intro rest
          simp only [List.cons_append, List.nil_append, List.length_cons, List.length_nil]
          rw [utf8Tail_one ⟨least, most⟩ (by omega), utf8Tail_six, utf8Tail_six]
          rfl

/-- What is UTF-8 is kept, by induction on the characters. -/
theorem fromUtf8Lossy_of_isUtf8 {bytes : List UInt8} (valid : IsUtf8 bytes)
    : fromUtf8Lossy bytes = bytes := by
  obtain ⟨chars, same⟩ := valid
  subst same
  induction chars with
  | nil =>
      rw [List.flatMap_nil, fromUtf8Lossy]
  | cons c rest ih =>
      obtain ⟨b, tail, low, high, encoded, lead, there⟩ := utf8EncodeChar_eq c
      rw [List.flatMap_cons, encoded, List.cons_append, fromUtf8Lossy, lead]
      simp only [there, if_true, List.take_left, List.drop_left, List.cons_append, ih]

end Memory
