import Mathlib.Algebra.Order.Group.Nat
import RwMem.Memory.Bytes

/-! Decoders that take their bytes from the front of a string, and what they give on encodings. -/

namespace Memory

/-- A decoder takes bytes from the front of what is there, or fails. -/
def Decoder (α : Type) : Type := List UInt8 → Option (α × List UInt8)

namespace Decoder

variable {α β : Type}

def bind (d : Decoder α) (f : α → Decoder β) : Decoder β :=
  fun input => (d input).bind (fun (value, rest) => f value rest)

instance : Monad Decoder where
  pure value := fun input => some (value, input)
  bind := bind

/-- The next bytes. -/
def bytes (n : Nat) : Decoder (List UInt8) :=
  fun input => if n ≤ input.length then some (input.take n, input.drop n) else none

/-- The word in the next bytes. -/
def word (n : Nat) : Decoder Nat := do
  return leValue (← bytes n)

/-- A number of values, one behind the other. -/
def many (d : Decoder α) : Nat → Decoder (List α)
  | 0 => return []
  | n + 1 => do
      let value ← d
      return value :: (← many d n)

/-- Values one behind the other, up to the first that is none, in at most `turns` turns. -/
def untilNone (d : Decoder (Option α)) : (turns : Nat) → Decoder (List α)
  | 0 => fun _ => none
  | turns + 1 => do
      match ← d with
      | some value => return value :: (← untilNone d turns)
      | none => return []

/-- Decoders one behind the other. -/
def inOrder : List (Decoder α) → Decoder (List α)
  | [] => return []
  | d :: rest => do
      let value ← d
      return value :: (← inOrder rest)

/-- The value of a string of which nothing is left over. -/
def whole (d : Decoder α) (input : List UInt8) : Option α :=
  (d input).bind (fun (value, rest) => if rest = [] then some value else none)

/-- The decoder takes exactly these bytes, whatever is behind them, and gives the value. -/
def Decodes (d : Decoder α) (front : List UInt8) (value : α) : Prop :=
  ∀ rest, d (front ++ rest) = some (value, rest)

theorem decodes_pure (value : α) : Decodes (pure value) [] value := fun _ => rfl

/-- Decoders take their bytes one behind the other. -/
theorem Decodes.bind {d : Decoder α} {f : α → Decoder β} {front behind : List UInt8} {a : α}
    {b : β} (first : Decodes d front a) (second : Decodes (f a) behind b)
    : Decodes (d >>= f) (front ++ behind) b := by
  intro rest
  rw [List.append_assoc]
  exact (congrArg (Option.bind · _) (first (behind ++ rest))).trans (second rest)

/-- A last decoder whose value is passed on. -/
theorem Decodes.map {d : Decoder α} {front : List UInt8} {a : α} (first : Decodes d front a)
    (f : α → β)
    : Decodes (d >>= fun value => pure (f value)) front (f a) := by
  intro rest
  exact congrArg (Option.bind · _) (first rest)

theorem decodes_bytes {front : List UInt8} {n : Nat} (length : front.length = n)
    : Decodes (bytes n) front front := by
  intro rest
  subst length
  rw [bytes, if_pos (by simp), List.take_left, List.drop_left]

theorem decodes_word {n w : Nat} (fits : w < 256 ^ n) : Decodes (word n) (leBytes n w) w := by
  have value := (decodes_bytes (length_leBytes n w)).map leValue
  rwa [leValue_leBytes fits] at value

/-- Values are decoded one behind the other, by induction on them. -/
theorem decodes_many {d : Decoder α} {encode : α → List UInt8} {values : List α}
    (each : ∀ value ∈ values, Decodes d (encode value) value)
    : Decodes (many d values.length) (values.flatMap encode) values := by
  induction values with
  | nil => exact decodes_pure []
  | cons value rest ih =>
      have later := ih (fun v member => each v (List.mem_cons_of_mem value member))
      have first := each value List.mem_cons_self
      exact first.bind (later.map (value :: ·))

/-- Values are decoded up to the end behind them, by induction on them. -/
theorem decodes_untilNone {d : Decoder (Option α)} {encode : α → List UInt8} {values : List α}
    {last : List UInt8} {turns : Nat} (enough : values.length < turns)
    (each : ∀ value ∈ values, Decodes d (encode value) (some value)) (ends : Decodes d last none)
    : Decodes (untilNone d turns) (values.flatMap encode ++ last) values := by
  induction values generalizing turns with
  | nil =>
      obtain ⟨turns, rfl⟩ : ∃ n, turns = n + 1 := ⟨turns - 1, by omega⟩
      have closed := ends.bind (f := fun value => match value with
        | some value => do return value :: (← untilNone d turns)
        | none => return []) (decodes_pure [])
      rwa [List.append_nil] at closed
  | cons value rest ih =>
      obtain ⟨turns, rfl⟩ : ∃ n, turns = n + 1 := ⟨turns - 1, by omega⟩
      have fewer : rest.length < turns := by simpa using enough
      have later := ih fewer
        (fun v member => each v (List.mem_cons_of_mem value member))
      have first := each value List.mem_cons_self
      rw [List.flatMap_cons, List.append_assoc]
      exact first.bind (later.map (value :: ·))

/-- A string that a decoder takes exactly is decoded whole. -/
theorem Decodes.whole {d : Decoder α} {front : List UInt8} {value : α}
    (decodes : Decodes d front value)
    : whole d front = some value := by
  have all := decodes []
  rw [List.append_nil] at all
  rw [Decoder.whole, all]
  rfl

/-- The value that it is decoded to is the only one. -/
theorem Decodes.whole_iff {d : Decoder α} {front : List UInt8} {value other : α}
    (decodes : Decodes d front value)
    : Decoder.whole d front = some other ↔ value = other := by
  rw [decodes.whole, Option.some.injEq]

end Decoder

end Memory
