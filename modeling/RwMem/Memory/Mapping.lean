import Mathlib.Data.List.Basic
import Mathlib.Logic.Function.Basic
import RwMem.Memory.Pieces

/-! A memory that is used through a mapping of its places, by accesses that go on up to the first
address that is not mapped or not permitted.
-/

namespace Memory

-----------------------------------------------------------------------------------------
-- The front of a range
-----------------------------------------------------------------------------------------

/-- How far a range of this size gets in front of the first offset that is not good. -/
def frontLength (good : Nat → Bool) (size : Nat) : Nat :=
  ((List.range size).find? (fun i => !good i)).getD size

/-- The first `n` offsets are good, and the one behind them is not or is the end. -/
structure IsFront (good : Nat → Bool) (size n : Nat) : Prop where
  le : n ≤ size
  before : ∀ i < n, good i = true
  stops : n < size → good n = false

theorem isFront_frontLength (good : Nat → Bool) (size : Nat)
    : IsFront good size (frontLength good size) := by
  rw [frontLength]
  cases first : (List.range size).find? (fun i => !good i) with
  | none =>
      have all := List.find?_range_eq_none.mp first
      refine ⟨Nat.le_refl size, fun i below => ?_, fun short => absurd short (Nat.lt_irrefl size)⟩
      simpa using all i below
  | some n =>
      obtain ⟨bad, inside, before⟩ := List.find?_range_eq_some.mp first
      refine ⟨Nat.le_of_lt (List.mem_range.mp inside), fun i below => ?_, fun _ => ?_⟩
      · simpa using before i below
      · simpa using bad

/-- A range has one front. -/
theorem IsFront.unique {good : Nat → Bool} {size n m : Nat} (left : IsFront good size n)
    (right : IsFront good size m)
    : n = m := by
  rcases Nat.lt_trichotomy n m with less | same | more
  · have bad := left.stops (Nat.lt_of_lt_of_le less right.le)
    exact absurd (right.before n less) (Bool.not_eq_true _ ▸ bad)
  · exact same
  · have bad := right.stops (Nat.lt_of_lt_of_le more left.le)
    exact absurd (left.before m more) (Bool.not_eq_true _ ▸ bad)

theorem frontLength_le (good : Nat → Bool) (size : Nat) : frontLength good size ≤ size :=
  (isFront_frontLength good size).le

/-- The front is the whole range exactly if all of it is good. -/
theorem frontLength_eq_iff {good : Nat → Bool} {size : Nat}
    : frontLength good size = size ↔ ∀ i < size, good i = true := by
  have front := isFront_frontLength good size
  constructor
  · intro whole i below
    exact front.before i (by omega)
  · intro all
    by_contra cut
    have short := Nat.lt_of_le_of_ne front.le cut
    have bad := front.stops short
    rw [all _ short] at bad
    contradiction

/-- A range of pieces has one good prefix. -/
theorem GoodPrefix.unique {start : Nat → Nat} {size n m : Nat} {good : Nat → Prop}
    (mono : Monotone start) (left : GoodPrefix start size good n)
    (right : GoodPrefix start size good m)
    : n = m := by
  classical
  by_cases all : ∀ k, start k < size → good k
  · exact (left.full all).trans (right.full all).symm
  · obtain ⟨k, reached, fails⟩ : ∃ k, start k < size ∧ ¬good k := by simpa using all
    have bad : ∃ k, ¬good k := ⟨k, fails⟩
    -- the first bad piece is reached if some bad piece is
    have reachedFirst : start (Nat.find bad) < size :=
      Nat.lt_of_le_of_lt (mono (Nat.find_min' bad fails)) reached
    have earlier : ∀ j < Nat.find bad, good j :=
      fun j before => not_not.mp (Nat.find_min bad before)
    have first := Nat.find_spec bad
    exact (left.cut _ reachedFirst first earlier).trans
      (right.cut _ reachedFirst first earlier).symm

/-- Where the offsets of each piece are good as the piece is, a good prefix of pieces is a front
of offsets.
-/
theorem GoodPrefix.isFront {start : Nat → Nat} {size n : Nat} {good : Nat → Prop}
    {goodAt : Nat → Bool} (zero : start 0 = 0) (increasing : StrictMono start)
    (agrees : ∀ k i, start k ≤ i → i < start (k + 1) → (goodAt i = true ↔ good k))
    (counted : GoodPrefix start size good n)
    : IsFront goodAt size n := by
  obtain ⟨m, stop⟩ := exists_stopsAt good
    (fun k (_ : start k < size) => increasing (Nat.lt_succ_self k))
  have same := counted.unique increasing.monotone (stop.goodPrefix increasing.monotone)
  subst same
  refine ⟨Nat.min_le_left _ _, ?_, ?_⟩
  · intro i below
    obtain ⟨l, before, low, high⟩ := exists_between zero (show i < start m by omega)
    exact (agrees l i low high).mpr (stop.before l before).2
  · intro short
    have reached : start m < size := by omega
    have bad := stop.here.resolve_left (Nat.not_le_of_lt reached)
    rw [Nat.min_eq_right (Nat.le_of_lt reached)]
    exact Bool.eq_false_iff.mpr
      (mt (agrees m _ (Nat.le_refl _) (increasing (Nat.lt_succ_self m))).mp bad)

-----------------------------------------------------------------------------------------
-- Mappings
-----------------------------------------------------------------------------------------

variable {A L β : Type*}

/-- The places that addresses are mapped to, and what the mapping permits. -/
structure Mapping (A L : Type*) where
  place : A → Option L
  canRead : A → Bool
  canWrite : A → Bool

namespace Mapping

variable (m : Mapping A L) (range : Nat → A)

/-- An access goes on at an address that is mapped and, unless it is forced, permitted. -/
def goesOn (permits : A → Bool) (force : Bool) (i : Nat) : Bool :=
  (m.place (range i)).isSome && (force || permits (range i))

def readLength (force : Bool) (size : Nat) : Nat :=
  frontLength (m.goesOn range m.canRead force) size

def writeLength (force : Bool) (size : Nat) : Nat :=
  frontLength (m.goesOn range m.canWrite force) size

/-- What is at the first `n` addresses of a range. -/
def load (mem : L → β) (n : Nat) : List β :=
  (List.range n).filterMap (fun i => (m.place (range i)).map mem)

/-- The values stored at the addresses of a range from the `i`-th on, one after the other. -/
def save [DecidableEq L] : Nat → List β → (L → β) → L → β
  | _, [], mem => mem
  | i, b :: rest, mem =>
      save (i + 1) rest ((m.place (range i)).elim mem (fun a => Function.update mem a b))

/-- The bytes that an access reads. -/
def read (mem : L → β) (force : Bool) (size : Nat) : List β :=
  m.load range mem (m.readLength range force size)

/-- How much an access writes, and the memory behind it. -/
def write [DecidableEq L] (mem : L → β) (force : Bool) (payload : List β) : Nat × (L → β) :=
  let n := m.writeLength range force payload.length
  (n, m.save range 0 (payload.take n) mem)

variable {m range}

theorem mapped_of_goesOn {permits : A → Bool} {force : Bool} {i : Nat}
    (goes : m.goesOn range permits force i = true)
    : ∃ a, m.place (range i) = some a := by
  rw [goesOn, Bool.and_eq_true] at goes
  exact Option.isSome_iff_exists.mp goes.1

/-- Where all addresses are mapped, each gives one value. -/
theorem length_load {mem : L → β} {n : Nat} (mapped : ∀ i < n, ∃ a, m.place (range i) = some a)
    : (m.load range mem n).length = n := by
  induction n with
  | zero => rfl
  | succ n ih =>
      obtain ⟨a, place⟩ := mapped n (Nat.lt_succ_self n)
      have front := ih (fun i below => mapped i (Nat.lt_succ_of_lt below))
      simpa [load, List.range_succ, place] using front

theorem getElem?_load {mem : L → β} {n : Nat}
    (mapped : ∀ i < n, ∃ a, m.place (range i) = some a) {i : Nat} (inside : i < n)
    : (m.load range mem n)[i]? = (m.place (range i)).map mem := by
  induction n with
  | zero => exact absurd inside (Nat.not_lt_zero i)
  | succ n ih =>
      have earlier : ∀ i < n, ∃ a, m.place (range i) = some a :=
        fun i below => mapped i (Nat.lt_succ_of_lt below)
      have length : (m.load range mem n).length = n := length_load earlier
      obtain ⟨a, place⟩ := mapped n (Nat.lt_succ_self n)
      have split : m.load range mem (n + 1) = m.load range mem n ++ [mem a] := by
        simp [load, List.range_succ, place]
      rw [split]
      rcases Nat.lt_succ_iff_lt_or_eq.mp inside with before | last
      · rw [List.getElem?_append_left (by omega)]
        exact ih earlier before
      · subst last
        rw [List.getElem?_append_right (Nat.le_of_eq length), length, Nat.sub_self, place]
        rfl

/-- Reading depends on the places of the range only. -/
theorem load_congr {mem mem' : L → β} {n : Nat}
    (same : ∀ i < n, ∀ a, m.place (range i) = some a → mem a = mem' a)
    : m.load range mem n = m.load range mem' n := by
  apply List.filterMap_congr
  intro i inside
  cases place : m.place (range i) with
  | none => rfl
  | some a => exact congrArg some (same i (List.mem_range.mp inside) a place)

variable [DecidableEq L]

/-- Places outside of the range keep what they hold, by induction on the values. -/
theorem save_outside {mem : L → β} {a : L} {start : Nat} {payload : List β}
    (outside : ∀ i, start ≤ i → i < start + payload.length → m.place (range i) ≠ some a)
    : m.save range start payload mem a = mem a := by
  induction payload generalizing start mem with
  | nil => rfl
  | cons b rest ih =>
      rw [save, ih (fun i low high => outside i (by omega) (by simp at high ⊢; omega))]
      cases place : m.place (range start) with
      | none => rfl
      | some c =>
          have other : c ≠ a := fun same =>
            outside start (Nat.le_refl start) (by simp) (same ▸ place)
          exact Function.update_of_ne other.symm b mem

/-- A place holds what was stored for the last offset that is mapped to it. -/
theorem save_last {mem : L → β} {a : L} {start : Nat} {payload : List β} {i : Nat}
    (inside : i < payload.length) (place : m.place (range (start + i)) = some a)
    (last : ∀ j, i < j → j < payload.length → m.place (range (start + j)) ≠ some a)
    : m.save range start payload mem a = payload[i] := by
  induction payload generalizing start mem i with
  | nil => exact absurd inside (Nat.not_lt_zero i)
  | cons b rest ih =>
      cases i with
      | zero =>
          rw [save, save_outside]
          · simp only [Nat.add_zero] at place
            simp [place]
          · intro j low high there
            have := last (j - start) (by omega) (by simp; omega)
            rw [Nat.add_sub_cancel' (by omega)] at this
            exact this there
      | succ i =>
          rw [save, List.getElem_cons_succ]
          refine ih (by simpa using inside) (by rw [Nat.add_right_comm]; exact place) ?_
          intro j later below there
          refine last (j + 1) (by omega) (by simpa using below) ?_
          rw [← Nat.add_assoc, Nat.add_right_comm]
          exact there

/-- Of the offsets that have a property one is the last, by induction on the size of the range. -/
theorem exists_last {p : Nat → Prop} {n i : Nat} (below : i < n) (here : p i)
    : ∃ j < n, p j ∧ ∀ k, j < k → k < n → ¬p k := by
  induction n with
  | zero => exact absurd below (Nat.not_lt_zero i)
  | succ n ih =>
      by_cases end' : p n
      · exact ⟨n, Nat.lt_succ_self n, end', fun k later high => absurd high (by omega)⟩
      · have before : i < n := by
          rcases Nat.lt_succ_iff_lt_or_eq.mp below with before | same
          · exact before
          · exact absurd (same ▸ here) end'
        obtain ⟨j, inside, there, last⟩ := ih before
        refine ⟨j, Nat.lt_succ_of_lt inside, there, ?_⟩
        intro k later high
        rcases Nat.lt_succ_iff_lt_or_eq.mp high with earlier | same
        · exact last k later earlier
        · exact same ▸ end'

/-- These two properties leave only one memory. -/
theorem eq_save {mem mem' : L → β} {payload : List β}
    (stored : ∀ i a, (inside : i < payload.length) → m.place (range i) = some a
      → (∀ j, i < j → j < payload.length → m.place (range j) ≠ some a)
      → mem' a = payload[i])
    (kept : ∀ a, (∀ i < payload.length, m.place (range i) ≠ some a) → mem' a = mem a)
    : mem' = m.save range 0 payload mem := by
  funext a
  by_cases meets : ∃ i < payload.length, m.place (range i) = some a
  · obtain ⟨first, below, found⟩ := meets
    obtain ⟨i, inside, place, last⟩ :=
      exists_last (p := fun i => m.place (range i) = some a) below found
    rw [stored i a inside place last]
    refine (save_last inside (by rw [Nat.zero_add]; exact place) ?_).symm
    intro j later high
    rw [Nat.zero_add]
    exact last j later high
  · have outside : ∀ i < payload.length, m.place (range i) ≠ some a :=
      fun i below there => meets ⟨i, below, there⟩
    rw [kept a outside, save_outside]
    intro i _ high
    exact outside i (by omega)

/-- What was stored in places of their own is read there, also through another mapping. -/
theorem load_save {other : Mapping A L} {range' : Nat → A} {mem : L → β} {payload : List β}
    (same : ∀ i < payload.length, other.place (range' i) = m.place (range i))
    (mapped : ∀ i < payload.length, ∃ a, m.place (range i) = some a)
    (apart : ∀ i < payload.length, ∀ j < payload.length,
      m.place (range i) = m.place (range j) → i = j)
    : other.load range' (m.save range 0 payload mem) payload.length = payload := by
  have mapped' : ∀ i < payload.length, ∃ a, other.place (range' i) = some a :=
    fun i below => same i below ▸ mapped i below
  apply List.ext_getElem?
  intro i
  by_cases inside : i < payload.length
  · obtain ⟨a, place⟩ := mapped i inside
    rw [getElem?_load mapped' inside, same i inside, place, Option.map_some,
      List.getElem?_eq_getElem inside]
    refine congrArg some (save_last inside (by rw [Nat.zero_add]; exact place) ?_)
    intro j later below there
    rw [Nat.zero_add] at there
    have := apart i inside j below (place.trans there.symm)
    omega
  · rw [List.getElem?_eq_none (by rw [length_load mapped']; omega),
      List.getElem?_eq_none (by omega)]

/-- Stores do not reach the places that no address of the written range has. -/
theorem write_outside {mem : L → β} {force : Bool} {payload : List β} {a : L}
    (outside : ∀ i < payload.length, m.place (range i) ≠ some a)
    : (m.write range mem force payload).2 a = mem a := by
  apply save_outside
  intro i _ high
  rw [List.length_take] at high
  exact outside i (by omega)

/-- What was written whole is read back by an access that gets through, as long as nobody stored to
these places in between.
-/
theorem read_write {other : Mapping A L} {range' : Nat → A} {mem mem' : L → β}
    {force force' : Bool} {payload : List β}
    (whole : m.writeLength range force payload.length = payload.length)
    (through : other.readLength range' force' payload.length = payload.length)
    (same : ∀ i < payload.length, other.place (range' i) = m.place (range i))
    (apart : ∀ i < payload.length, ∀ j < payload.length,
      m.place (range i) = m.place (range j) → i = j)
    (spared : ∀ i < payload.length, ∀ a, m.place (range i) = some a
      → mem' a = (m.write range mem force payload).2 a)
    : other.read range' mem' force' payload.length = payload := by
  have mapped : ∀ i < payload.length, ∃ a, m.place (range i) = some a :=
    fun i below => mapped_of_goesOn ((isFront_frontLength _ _).before i (whole.symm ▸ below))
  rw [read, through, load_congr
    (fun i below a place => spared i below a (same i below ▸ place)), write, whole,
    List.take_length]
  exact load_save same mapped apart

end Mapping

end Memory
