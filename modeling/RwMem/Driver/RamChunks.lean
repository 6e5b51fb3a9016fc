import RwMem.Driver.PhyMem
import RwMem.Memory.Pieces

/-! The chunks into which a physical range is cut, and loops that copy chunk by chunk up to one at
which something fails.
-/

namespace RwMem.Driver

open Memory

-----------------------------------------------------------------------------------------
-- The pieces of a physical range
-----------------------------------------------------------------------------------------

/-- Where the `k`-th chunk of a range starts, the end of the range behind the last one. -/
def chunkOffset (g : PageGeometry) (phyAddr size k : Nat) : Nat :=
  min size (pieceStart g.pageSize phyAddr k)

/-- The size of the `k`-th chunk. -/
def chunkSize (g : PageGeometry) (phyAddr size k : Nat) : Nat :=
  sizeInsidePage g (phyAddr + chunkOffset g phyAddr size k) (size - chunkOffset g phyAddr size k)

/-- The record of the `k`-th chunk. -/
def chunkAt (g : PageGeometry) (lpBuf phyAddr size : Nat) (moved : Nat → Nat) (k : Nat) : Chunk :=
  ⟨lpBuf + chunkOffset g phyAddr size k, phyAddr + chunkOffset g phyAddr size k,
    chunkSize g phyAddr size k, moved k⟩

/-- The range is cut into consecutive pieces none of which crosses a page boundary. -/
structure CutIntoPages (g : PageGeometry) (phyAddr size : Nat) : Prop where
  first : chunkOffset g phyAddr size 0 = 0
  next
    : ∀ k,
        chunkOffset g phyAddr size (k + 1)
        = chunkOffset g phyAddr size k + chunkSize g phyAddr size k
  nonempty : ∀ k, chunkOffset g phyAddr size k < size → 0 < chunkSize g phyAddr size k
  inPage
    : ∀ k,
        (phyAddr + chunkOffset g phyAddr size k) % g.pageSize + chunkSize g phyAddr size k
        ≤ g.pageSize
  ends : ∃ k, chunkOffset g phyAddr size k = size

variable (g : PageGeometry) {phyAddr lpBuf size : Nat}

theorem chunkSize_eq (phyAddr size k : Nat)
    : chunkSize g phyAddr size k
      = min (g.pageSize - (phyAddr + chunkOffset g phyAddr size k) % g.pageSize)
          (size - chunkOffset g phyAddr size k) :=
  sizeInsidePage_eq g _ _

theorem chunkOffset_le (phyAddr size k : Nat) : chunkOffset g phyAddr size k ≤ size :=
  Nat.min_le_left _ _

theorem chunkOffset_zero (phyAddr size : Nat) : chunkOffset g phyAddr size 0 = 0 := by
  rw [chunkOffset, pieceStart_zero, Nat.min_zero]

theorem chunkOffset_mono (phyAddr size : Nat) : Monotone (chunkOffset g phyAddr size) := by
  intro k l le
  have order := (pieceStart_strictMono g.pageSize_pos phyAddr).monotone le
  rw [chunkOffset, chunkOffset]
  exact min_le_min_left size order

/-- A chunk ends where the next one starts. -/
theorem chunkOffset_succ (phyAddr size k : Nat)
    : chunkOffset g phyAddr size (k + 1)
      = chunkOffset g phyAddr size k + chunkSize g phyAddr size k := by
  have next := pieceStart_succ g.pageSize_pos phyAddr k
  rw [chunkSize_eq, chunkOffset, chunkOffset]
  by_cases reached : pieceStart g.pageSize phyAddr k < size
  · rw [Nat.min_eq_right (Nat.le_of_lt reached)]
    omega
  · have later := pieceStart_lt_succ g.pageSize_pos phyAddr k
    rw [Nat.min_eq_left (Nat.le_of_not_lt reached)]
    omega

theorem chunkSize_pos {k : Nat} (reached : chunkOffset g phyAddr size k < size)
    : 0 < chunkSize g phyAddr size k :=
  sizeInsidePage_pos g _ (Nat.sub_pos_of_lt reached)

theorem chunkOffset_advances {k : Nat} (reached : chunkOffset g phyAddr size k < size)
    : chunkOffset g phyAddr size k < chunkOffset g phyAddr size (k + 1) := by
  have positive := chunkSize_pos g reached
  rw [chunkOffset_succ]
  omega

theorem cutIntoPages (phyAddr size : Nat) : CutIntoPages g phyAddr size := by
  refine ⟨chunkOffset_zero g _ _, chunkOffset_succ g _ _, fun k => chunkSize_pos g, ?_, ?_⟩
  · intro k
    have inside := Nat.mod_lt (phyAddr + chunkOffset g phyAddr size k) g.pageSize_pos
    rw [chunkSize_eq]
    omega
  · have advances (k : Nat) (reached : chunkOffset g phyAddr size k < size)
        : chunkOffset g phyAddr size k < chunkOffset g phyAddr size (k + 1) :=
      chunkOffset_advances g reached
    obtain ⟨m, stop⟩ := exists_stopsAt (fun _ => True) advances
    have past := stop.here.resolve_right (fun never => never trivial)
    exact ⟨m, Nat.le_antisymm (chunkOffset_le g _ _ _) past⟩

/-- The copy loops go from chunk to chunk, since the range does not wrap. -/
theorem wrap_chunk (fits : phyAddr + size ≤ 2 ^ 64) {k : Nat}
    (reached : chunkOffset g phyAddr size k < size)
    : wrap (phyAddr + chunkOffset g phyAddr size k)
      = phyAddr + chunkOffset g phyAddr size k :=
  wrap_of_lt (by omega)

-----------------------------------------------------------------------------------------
-- Loops that copy chunk by chunk
-----------------------------------------------------------------------------------------

/-- The chunks that a loop records which is entered at chunk `j` and stops at chunk `m`, the last
one included if the loop stops in front of the end.
-/
def chunksFrom (g : PageGeometry) (lpBuf phyAddr size : Nat) (moved : Nat → Nat) (j m : Nat)
    : List Chunk :=
  (List.range' j (m - j + if chunkOffset g phyAddr size m < size then 1 else 0)).map
    (chunkAt g lpBuf phyAddr size moved)

/-- A range, the memory `dst` that its chunks are copied to from `src`, and what one copy does:
`good k` if nothing fails at chunk `k`, the bytes `moved k` that are copied there, the bytes
`counted k` of a chunk that fails, the memory `copy k` behind it, whose bytes that were not moved
may be `zeroed`, and the loop entered at a chunk.
-/
structure CopyLoop where
  geometry : PageGeometry
  lpBuf : Nat
  phyAddr : Nat
  size : Nat
  dst : Nat
  start : Nat
  src : Nat → UInt8
  good : Nat → Prop
  moved : Nat → Nat
  counted : Nat → Nat
  zeroed : Bool
  copy : Nat → (Nat → UInt8) → Nat → UInt8
  loop : Nat → (Nat → UInt8) → RamCopy

namespace CopyLoop

variable (c : CopyLoop)

def offset (k : Nat) : Nat := chunkOffset c.geometry c.phyAddr c.size k

def chunk (k : Nat) : Nat := chunkSize c.geometry c.phyAddr c.size k

def record (k : Nat) : Chunk := chunkAt c.geometry c.lpBuf c.phyAddr c.size c.moved k

/-- The loop copies its chunks one after the other, up to one at which something fails. -/
structure Follows : Prop where
  whole : ∀ k, c.offset k < c.size → c.good k → c.moved k = c.chunk k
  part : ∀ k, c.moved k ≤ c.chunk k
  short : ∀ k, c.offset k < c.size → ¬c.good k → c.counted k < c.chunk k
  notMore : ∀ k, c.counted k ≤ c.moved k
  inside
    : ∀ k mem, ∀ i < c.moved k,
        c.copy k mem (c.dst + c.offset k + i) = c.src (c.start + c.offset k + i)
  outside
    : ∀ k mem a,
        a < c.dst + c.offset k ∨ c.dst + c.offset k + c.moved k ≤ a
        → c.copy k mem a = mem a
          ∨ c.zeroed = true ∧ c.dst + c.offset k + c.moved k ≤ a
            ∧ a < c.dst + c.offset k + c.chunk k ∧ c.copy k mem a = 0
  ends : ∀ k mem, c.size ≤ c.offset k → c.loop k mem = ⟨c.offset k, mem, []⟩
  fails
    : ∀ k mem,
        c.offset k < c.size
        → ¬c.good k
        → c.loop k mem = ⟨c.offset k + c.counted k, c.copy k mem, [c.record k]⟩
  next
    : ∀ k mem,
        c.offset k < c.size
        → c.good k
        → c.loop k mem
          = { c.loop (k + 1) (c.copy k mem) with
              chunks := c.record k :: (c.loop (k + 1) (c.copy k mem)).chunks }

/-- The bytes that are copied before the loop stops at chunk `m`, those of this chunk included. -/
def reach (m : Nat) : Nat := c.offset m + if c.offset m < c.size then c.moved m else 0

/-- What the loop does that is entered at chunk `j` and stops at chunk `m`. -/
structure Outcome (j m : Nat) (mem : Nat → UInt8) (r : RamCopy) : Prop where
  done : r.done = c.offset m + if c.offset m < c.size then c.counted m else 0
  chunks : r.chunks = chunksFrom c.geometry c.lpBuf c.phyAddr c.size c.moved j m
  copied : ∀ i, c.offset j ≤ i → i < c.reach m → r.mem (c.dst + i) = c.src (c.start + i)
  kept
    : ∀ a,
        a < c.dst + c.offset j ∨ c.dst + c.reach m ≤ a
        → r.mem a = mem a
          ∨ c.zeroed = true ∧ c.dst + c.reach m ≤ a ∧ a < c.dst + c.size ∧ r.mem a = 0

variable {c}

theorem offset_succ (k : Nat) : c.offset (k + 1) = c.offset k + c.chunk k :=
  chunkOffset_succ c.geometry c.phyAddr c.size k

theorem offset_mono : Monotone c.offset := chunkOffset_mono c.geometry c.phyAddr c.size

theorem chunksFrom_stop (m : Nat)
    : chunksFrom c.geometry c.lpBuf c.phyAddr c.size c.moved m m
      = if c.offset m < c.size then [c.record m] else [] := by
  rw [chunksFrom, Nat.sub_self, Nat.zero_add]
  change List.map _ (List.range' m (if c.offset m < c.size then 1 else 0)) = _
  split
  · rfl
  · rfl

theorem chunksFrom_step {j m : Nat} (before : j < m)
    : chunksFrom c.geometry c.lpBuf c.phyAddr c.size c.moved j m
      = c.record j :: chunksFrom c.geometry c.lpBuf c.phyAddr c.size c.moved (j + 1) m := by
  have count (n : Nat) : m - j + n = (m - (j + 1) + n) + 1 := by omega
  rw [chunksFrom, chunksFrom, count, List.range'_succ, List.map_cons]
  rfl

/-- Where the loop stops, at the end of the range or at a chunk at which something fails. -/
theorem Follows.outcome_stop (follows : c.Follows) {m : Nat}
    (here : c.size ≤ c.offset m ∨ ¬c.good m) (mem : Nat → UInt8)
    : c.Outcome m m mem (c.loop m mem) := by
  by_cases reached : c.offset m < c.size
  · have bad := here.resolve_left (Nat.not_le_of_lt reached)
    have reach_eq : c.reach m = c.offset m + c.moved m := by rw [reach, if_pos reached]
    have part := follows.part m
    have next := c.offset_succ m
    have le := chunkOffset_le c.geometry c.phyAddr c.size (m + 1)
    rw [follows.fails m mem reached bad]
    refine ⟨?_, ?_, ?_, ?_⟩
    · rw [if_pos reached]
    · rw [chunksFrom_stop, if_pos reached]
    · intro i low high
      obtain ⟨i, rfl⟩ := Nat.exists_eq_add_of_le low
      rw [← Nat.add_assoc, ← Nat.add_assoc]
      exact follows.inside m mem i (by omega)
    · intro a outside
      rw [reach_eq, ← Nat.add_assoc] at outside ⊢
      rcases follows.outside m mem a outside with same | ⟨zeroed, low, high, zero⟩
      · exact Or.inl same
      · have inside : c.offset (m + 1) ≤ c.size := le
        exact Or.inr ⟨zeroed, low, by omega, zero⟩
  · have past := Nat.le_of_not_lt reached
    have reach_eq : c.reach m = c.offset m := by rw [reach, if_neg reached, Nat.add_zero]
    rw [follows.ends m mem past]
    refine ⟨?_, ?_, ?_, ?_⟩
    · rw [if_neg reached, Nat.add_zero]
    · rw [chunksFrom_stop, if_neg reached]
    · intro i low high
      omega
    · intro a _
      exact Or.inl rfl

/-- The loop from any chunk on, by induction on the chunks left before the stop. -/
theorem Follows.outcome (follows : c.Follows) {m : Nat}
    (stop : StopsAt c.offset c.size c.good m) {j d : Nat} (split : j + d = m) (mem : Nat → UInt8)
    : c.Outcome j m mem (c.loop j mem) := by
  induction d generalizing j mem with
  | zero =>
      have same : j = m := split
      subst same
      exact follows.outcome_stop stop.here mem
  | succ d ih =>
      obtain ⟨reached, good⟩ := stop.before j (by omega)
      have rest := ih (show (j + 1) + d = m by omega) (c.copy j mem)
      have whole := follows.whole j reached good
      have next := c.offset_succ j
      have order : c.offset (j + 1) ≤ c.offset m := offset_mono (by omega)
      have further : c.offset m ≤ c.reach m := Nat.le_add_right _ _
      rw [follows.next j mem reached good]
      refine ⟨rest.done, ?_, ?_, ?_⟩
      · rw [chunksFrom_step (by omega)]
        exact congrArg (c.record j :: ·) rest.chunks
      · intro i low high
        by_cases here : i < c.offset (j + 1)
        · rcases rest.kept (c.dst + i) (Or.inl (by omega)) with same | ⟨_, behind, _⟩
          · obtain ⟨i, rfl⟩ := Nat.exists_eq_add_of_le low
            rw [same, ← Nat.add_assoc, ← Nat.add_assoc]
            exact follows.inside j mem i (by omega)
          · omega
        · exact rest.copied i (Nat.le_of_not_lt here) high
      · intro a outside
        have apart : a < c.dst + c.offset (j + 1) ∨ c.dst + c.reach m ≤ a := by omega
        rcases rest.kept a apart with same | zeroed
        · have around : a < c.dst + c.offset j ∨ c.dst + c.offset j + c.moved j ≤ a := by omega
          rcases follows.outside j mem a around with kept | ⟨_, low, high, _⟩
          · exact Or.inl (same.trans kept)
          · omega
        · exact Or.inr zeroed

end CopyLoop

-----------------------------------------------------------------------------------------
-- What the calls count
-----------------------------------------------------------------------------------------

/-- A call tries the chunks of its range in order, up to the first at which something fails, and
counts the chunks in front of it and some bytes of it.
-/
structure CountsChunks (g : PageGeometry) (lpBuf phyAddr size : Nat) (fails : Nat → Prop)
    (moved counted : Nat → Nat) (r : RamCopy)
    : Prop where
  chunks
    : ∃ n,
        r.chunks = (List.range n).map (chunkAt g lpBuf phyAddr size moved)
        ∧ ∀ k < n, chunkOffset g phyAddr size k < size ∧ ∀ l < k, ¬fails l
  le : r.done ≤ size
  whole : r.done = size ↔ ∀ k, chunkOffset g phyAddr size k < size → ¬fails k
  cut
    : ∀ k,
        chunkOffset g phyAddr size k < size
        → fails k
        → (∀ l < k, ¬fails l)
        → r.done = chunkOffset g phyAddr size k + counted k

/-- The bytes that a call counts are the first of the range, and outside of the range it changes
nothing.
-/
structure CopiesCounted (dst start size : Nat) (src mem : Nat → UInt8) (r : RamCopy) : Prop where
  copied : ∀ i < r.done, r.mem (dst + i) = src (start + i)
  kept : ∀ a, a < dst ∨ dst + size ≤ a → r.mem a = mem a

variable {g}

/-- The whole loop stops somewhere. -/
theorem CopyLoop.Follows.exists_outcome {c : CopyLoop} (follows : c.Follows) (mem : Nat → UInt8)
    : ∃ m, StopsAt c.offset c.size c.good m ∧ c.Outcome 0 m mem (c.loop 0 mem) := by
  have advances (k : Nat) (reached : c.offset k < c.size) : c.offset k < c.offset (k + 1) :=
    chunkOffset_advances c.geometry reached
  obtain ⟨m, stop⟩ := exists_stopsAt c.good advances
  exact ⟨m, stop, follows.outcome stop (Nat.zero_add m) mem⟩

/-- No more is counted than copied, and no more is copied than asked for. -/
theorem CopyLoop.Outcome.done_le {c : CopyLoop} (follows : c.Follows) {m : Nat}
    {mem : Nat → UInt8} {r : RamCopy} (run : c.Outcome 0 m mem r)
    : r.done ≤ c.reach m ∧ c.reach m ≤ c.size := by
  have next := c.offset_succ m
  have last : c.offset (m + 1) ≤ c.size := chunkOffset_le _ _ _ _
  have le : c.offset m ≤ c.size := chunkOffset_le _ _ _ _
  have part := follows.part m
  have most := follows.notMore m
  rw [run.done, CopyLoop.reach]
  split
  · omega
  · omega

/-- The chunks that were tried are those up to the stop, with all in front of it good. -/
theorem CopyLoop.Outcome.chunks_eq {c : CopyLoop} {m : Nat} {mem : Nat → UInt8} {r : RamCopy}
    (run : c.Outcome 0 m mem r) (stop : StopsAt c.offset c.size c.good m)
    : ∃ n, r.chunks = (List.range n).map c.record
        ∧ ∀ k < n, c.offset k < c.size ∧ ∀ l < k, c.good l := by
  by_cases reached : chunkOffset c.geometry c.phyAddr c.size m < c.size
  · refine ⟨m + 1, ?_, fun k below => ⟨?_, fun l earlier => (stop.before l (by omega)).2⟩⟩
    · rw [run.chunks, chunksFrom, if_pos reached, List.range_eq_range']
      rfl
    · exact Nat.lt_of_le_of_lt (c.offset_mono (Nat.le_of_lt_succ below)) reached
  · refine ⟨m, ?_, fun k below => ⟨(stop.before k below).1, fun l earlier => ?_⟩⟩
    · rw [run.chunks, chunksFrom, if_neg reached, List.range_eq_range']
      rfl
    · exact (stop.before l (by omega)).2

/-- Everything is counted exactly if all chunks are good. -/
theorem CopyLoop.Outcome.done_eq_size_iff {c : CopyLoop} (follows : c.Follows) {m : Nat}
    {mem : Nat → UInt8} {r : RamCopy} (run : c.Outcome 0 m mem r)
    (stop : StopsAt c.offset c.size c.good m)
    : r.done = c.size ↔ ∀ k, c.offset k < c.size → c.good k := by
  have next := c.offset_succ m
  have last : c.offset (m + 1) ≤ c.size := chunkOffset_le _ _ _ _
  rw [run.done]
  constructor
  · intro full k reached
    by_cases before : k < m
    · exact (stop.before k before).2
    · have order : c.offset m ≤ c.offset k := CopyLoop.offset_mono (Nat.le_of_not_lt before)
      have here : c.offset m < c.size := Nat.lt_of_le_of_lt order reached
      have short := follows.short m here (stop.here.resolve_left (Nat.not_le_of_lt here))
      rw [if_pos here] at full
      omega
  · intro good
    have past : ¬c.offset m < c.size := by
      intro here
      exact (stop.here.resolve_left (Nat.not_le_of_lt here)) (good m here)
    have le : c.offset m ≤ c.size := chunkOffset_le _ _ _ _
    rw [if_neg past]
    omega

/-- A loop that follows its chunks counts them. -/
theorem CopyLoop.Follows.counts {c : CopyLoop} (follows : c.Follows) (mem : Nat → UInt8)
    : CountsChunks c.geometry c.lpBuf c.phyAddr c.size (fun k => ¬c.good k) c.moved c.counted
        (c.loop 0 mem)
      ∧ CopiesCounted c.dst c.start c.size c.src mem (c.loop 0 mem) := by
  obtain ⟨m, stop, run⟩ := follows.exists_outcome mem
  have zero : c.offset 0 = 0 := chunkOffset_zero _ _ _
  obtain ⟨done_le, reach_le⟩ := run.done_le follows
  obtain ⟨n, chunks, tried⟩ := run.chunks_eq stop
  refine ⟨⟨?_, Nat.le_trans done_le reach_le, ?_, ?_⟩, ?_, ?_⟩
  · refine ⟨n, chunks, fun k below => ⟨(tried k below).1, fun l earlier => ?_⟩⟩
    exact not_not_intro ((tried k below).2 l earlier)
  · rw [run.done_eq_size_iff follows stop]
    exact forall₂_congr (fun _ _ => not_not.symm)
  · intro k reached bad earlier
    cases stop.eq_of_bad c.offset_mono reached bad (fun l less => not_not.mp (earlier l less))
    have reached : c.offset m < c.size := reached
    rw [run.done, if_pos reached]
    rfl
  · intro i below
    exact run.copied i (by omega) (by omega)
  · intro a outside
    rcases run.kept a (by omega) with same | ⟨_, low, high, _⟩
    · exact same
    · omega

/-- A call that is refused before its first chunk. -/
theorem countsChunks_refused {fails : Nat → Prop} {moved counted : Nat → Nat}
    (refused : ∀ k, fails k) (nothing : ∀ k, counted k = 0) (mem : Nat → UInt8)
    : CountsChunks g lpBuf phyAddr size fails moved counted ⟨0, mem, []⟩ := by
  refine ⟨⟨0, rfl, fun _ none => absurd none (Nat.not_lt_zero _)⟩, Nat.zero_le _, ?_, ?_⟩
  · constructor
    · intro empty k reached
      have empty : 0 = size := empty
      omega
    · intro good
      by_contra more
      have reached : chunkOffset g phyAddr size 0 < size := by
        rw [chunkOffset_zero]
        exact Nat.pos_of_ne_zero (fun zero => more zero.symm)
      exact good 0 reached (refused 0)
  · intro k _ _ earlier
    cases k with
    | zero => rw [chunkOffset_zero, nothing]
    | succ k => exact absurd (refused k) (earlier k (Nat.lt_succ_self k))

theorem copiesCounted_refused {dst start : Nat} {src : Nat → UInt8} (mem : Nat → UInt8)
    : CopiesCounted dst start size src mem ⟨0, mem, []⟩ :=
  ⟨fun _ none => absurd none (Nat.not_lt_zero _), fun _ _ => rfl⟩

end RwMem.Driver
