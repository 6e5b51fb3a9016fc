import RwMem.CeServer.CompressedReply

/-! The two loops over a library that keeps streams: they call it as it asks for, come to the end of
the stream, and take all of it.
-/

namespace RwMem.CeServer

open Memory

-----------------------------------------------------------------------------------------
-- Streams
-----------------------------------------------------------------------------------------

/-- The stream that `deflateInit` sets up at a level in front of an input, and what a call of
`deflate` replies and leaves.
-/
structure DeflateLibrary where
  Stream : Type
  deflateInit : (level : Nat) → (input : List UInt8) → Stream
  deflate : Stream → (flush : Flush) → (availIn availOut : Nat) →
    DeflateReply flush availIn availOut × Stream

/-- Without a flush there has to be input, and behind `Z_FINISH` only `Z_FINISH` may come. -/
def Flush.MayFollow (last flush : Flush) (availIn : Nat) : Prop :=
  flush = .Z_FINISH ∨ (last = .Z_NO_FLUSH ∧ availIn ≠ 0)

namespace DeflateLibrary

variable (lib : DeflateLibrary) (level : Nat) (input : List UInt8)

/-- A stream behind calls that the library allows and that all went on: the flush of the last one,
the input that is left, and the output.
-/
inductive Streamed : Flush → lib.Stream → Nat → List UInt8 → Prop where
  | deflateInit : Streamed .Z_NO_FLUSH (lib.deflateInit level input) input.length []
  | deflate {last flush : Flush} {z : lib.Stream} {availIn availOut : Nat}
      {output : List UInt8} (before : Streamed last z availIn output) (room : availOut ≠ 0)
      (follows : last.MayFollow flush availIn)
      (goesOn : (lib.deflate z flush availIn availOut).1.result = .Z_OK)
      : Streamed flush (lib.deflate z flush availIn availOut).2
          (availIn - (lib.deflate z flush availIn availOut).1.consumed)
          (output ++ (lib.deflate z flush availIn availOut).1.output)

/-- The contract of the library at the levels 1 to 9: a call that it allows does not fail, a stream
has less than `2 ^ 32` bytes, and the stream that has ended inflates to the input.
-/
structure Compresses (inflate : List UInt8 → Option (List UInt8)) : Prop where
  goesOn
    : ∀ {level input last flush z availIn availOut output},
        1 ≤ level ∧ level ≤ 9
        → input.length < 2 ^ 31
        → lib.Streamed level input last z availIn output
        → availOut ≠ 0
        → last.MayFollow flush availIn
        → ∀ code, (lib.deflate z flush availIn availOut).1.result ≠ .error code
  short
    : ∀ {level input last z availIn output},
        1 ≤ level ∧ level ≤ 9
        → input.length < 2 ^ 31
        → lib.Streamed level input last z availIn output
        → output.length < 2 ^ 32
  ends
    : ∀ {level input last flush z availIn availOut output},
        1 ≤ level ∧ level ≤ 9
        → input.length < 2 ^ 31
        → lib.Streamed level input last z availIn output
        → availOut ≠ 0
        → last.MayFollow flush availIn
        → (lib.deflate z flush availIn availOut).1.result = .Z_STREAM_END
        → let stream := output ++ (lib.deflate z flush availIn availOut).1.output
          stream.length < 2 ^ 32 ∧ inflate stream = some input

-----------------------------------------------------------------------------------------
-- The loops
-----------------------------------------------------------------------------------------

/-- The reply to the next call. -/
def zlib (z : lib.Stream) : Zlib := fun _ flush availIn availOut =>
  (lib.deflate z flush availIn availOut).1

/-- The stream behind a turn. -/
def behind (s : Deflating) (z : lib.Stream) : lib.Stream :=
  match s.phase with
  | .compressing =>
      if s.availIn = 0 then z else (lib.deflate z .Z_NO_FLUSH s.availIn s.availOut).2
  | .finishing => (lib.deflate z .Z_FINISH s.availIn s.availOut).2
  | .finished => z

/-- Both loops, for at most so many turns. -/
def loops : (turns : Nat) → Deflating → lib.Stream → Deflating
  | 0, s, _ => s
  | turns + 1, s, z =>
      if s.phase = .finished then s else loops turns (s.turn (lib.zlib z)) (lib.behind s z)

/-- What the server takes from the loops: the turns are enough for a stream of less than `2 ^ 32`
bytes.
-/
def deflated (size : Nat) (fresh : Nat → Nat → UInt8) : Deflated :=
  (lib.loops (2 * (input.length + 2 ^ 32) + 2) (.start size input.length fresh)
    (lib.deflateInit level input)).deflated

-----------------------------------------------------------------------------------------
-- What the turns keep
-----------------------------------------------------------------------------------------

/-- Up to the end the loops are in a stream, and then they have it whole. -/
structure Carries (inflate : List UInt8 → Option (List UInt8)) (s : Deflating) (z : lib.Stream)
    : Prop where
  compressing
    : s.phase = .compressing → lib.Streamed level input .Z_NO_FLUSH z s.availIn s.produced
  finishing
    : s.phase = .finishing → ∃ last, lib.Streamed level input last z s.availIn s.produced
  finished
    : s.phase = .finished → s.produced.length < 2 ^ 32 ∧ inflate s.produced = some input

variable {lib level input} {inflate : List UInt8 → Option (List UInt8)} {s : Deflating}
variable {z : lib.Stream}

theorem carries_of_compressing (phase : s.phase = .compressing)
    (streamed : lib.Streamed level input .Z_NO_FLUSH z s.availIn s.produced)
    : lib.Carries level input inflate s z where
  compressing _ := streamed
  finishing other := by
    rw [phase] at other
    contradiction
  finished other := by
    rw [phase] at other
    contradiction

theorem carries_of_finishing (phase : s.phase = .finishing)
    (streamed : ∃ last, lib.Streamed level input last z s.availIn s.produced)
    : lib.Carries level input inflate s z where
  compressing other := by
    rw [phase] at other
    contradiction
  finishing _ := streamed
  finished other := by
    rw [phase] at other
    contradiction

theorem carries_of_finished (phase : s.phase = .finished) (small : s.produced.length < 2 ^ 32)
    (whole : inflate s.produced = some input)
    : lib.Carries level input inflate s z where
  compressing other := by
    rw [phase] at other
    contradiction
  finishing other := by
    rw [phase] at other
    contradiction
  finished _ := ⟨small, whole⟩

theorem carries_start (size : Nat) (fresh : Nat → Nat → UInt8)
    : lib.Carries level input inflate (.start size input.length fresh)
        (lib.deflateInit level input) :=
  carries_of_compressing rfl .deflateInit

/-- A block that is full is no part of the stream. -/
theorem Carries.nextBlock (carries : lib.Carries level input inflate s z)
    : lib.Carries level input inflate s.nextBlock z := by
  rw [Deflating.nextBlock]
  split
  · exact ⟨carries.compressing, carries.finishing, carries.finished⟩
  · exact carries

/-- A stream does not end without `Z_FINISH`. -/
theorem Compresses.noFlush_goesOn (contract : lib.Compresses inflate)
    (allowed : 1 ≤ level ∧ level ≤ 9) (short : input.length < 2 ^ 31) {availIn availOut : Nat}
    {output : List UInt8} (streamed : lib.Streamed level input .Z_NO_FLUSH z availIn output)
    (room : availOut ≠ 0) (unused : availIn ≠ 0)
    : (lib.deflate z .Z_NO_FLUSH availIn availOut).1.result = .Z_OK := by
  have follows : Flush.MayFollow .Z_NO_FLUSH .Z_NO_FLUSH availIn := Or.inr ⟨rfl, unused⟩
  cases result : (lib.deflate z .Z_NO_FLUSH availIn availOut).1.result with
  | Z_OK => rfl
  | Z_STREAM_END =>
      have finishing := (lib.deflate z .Z_NO_FLUSH availIn availOut).1.ends result
      contradiction
  | error code =>
      exact absurd result (contract.goesOn allowed short streamed room follows code)

/-- With `Z_FINISH` a stream that does not go on has ended. -/
theorem Compresses.finish_ends (contract : lib.Compresses inflate)
    (allowed : 1 ≤ level ∧ level ≤ 9) (short : input.length < 2 ^ 31) {last : Flush}
    {availIn availOut : Nat} {output : List UInt8}
    (streamed : lib.Streamed level input last z availIn output) (room : availOut ≠ 0)
    (stopped : (lib.deflate z .Z_FINISH availIn availOut).1.result ≠ .Z_OK)
    : (lib.deflate z .Z_FINISH availIn availOut).1.result = .Z_STREAM_END := by
  have follows : last.MayFollow .Z_FINISH availIn := Or.inl rfl
  cases result : (lib.deflate z .Z_FINISH availIn availOut).1.result with
  | Z_OK => exact absurd result stopped
  | Z_STREAM_END => rfl
  | error code =>
      exact absurd result (contract.goesOn allowed short streamed room follows code)

/-- A turn of the loops makes a call that the library allows, or goes over to the second loop. -/
theorem Carries.turn (contract : lib.Compresses inflate) (allowed : 1 ≤ level ∧ level ≤ 9)
    (short : input.length < 2 ^ 31) (carries : lib.Carries level input inflate s z)
    (open_ : s.phase ≠ .finished → s.availOut ≠ 0)
    : lib.Carries level input inflate (s.turn (lib.zlib z)) (lib.behind s z) := by
  rw [Deflating.turn, behind]
  cases phase : s.phase with
  | compressing =>
      have room : s.availOut ≠ 0 := open_ (by rw [phase]; decide)
      have streamed := carries.compressing phase
      dsimp only
      by_cases used : s.availIn = 0
      · rw [if_pos used, if_pos used]
        exact carries_of_finishing rfl ⟨_, streamed⟩
      · have goesOn := contract.noFlush_goesOn allowed short streamed room used
        rw [if_neg used, if_neg used, zlib, if_pos goesOn]
        refine Carries.nextBlock (carries_of_compressing phase ?_)
        exact streamed.deflate room (Or.inr ⟨rfl, used⟩) goesOn
  | finishing =>
      have room : s.availOut ≠ 0 := open_ (by rw [phase]; decide)
      obtain ⟨last, streamed⟩ := carries.finishing phase
      have follows : last.MayFollow .Z_FINISH s.availIn := Or.inl rfl
      dsimp only
      split
      · next goesOn =>
          refine Carries.nextBlock (carries_of_finishing phase ⟨.Z_FINISH, ?_⟩)
          exact streamed.deflate room follows goesOn
      · next stopped =>
          have ended := contract.finish_ends allowed short streamed room stopped
          obtain ⟨small, whole⟩ := contract.ends allowed short streamed room follows ended
          exact carries_of_finished rfl small whole
  | finished =>
      dsimp only
      exact carries

/-- The output of a stream stays below `2 ^ 32`. -/
theorem Carries.produced_lt (contract : lib.Compresses inflate) (allowed : 1 ≤ level ∧ level ≤ 9)
    (short : input.length < 2 ^ 31) (carries : lib.Carries level input inflate s z)
    : s.produced.length < 2 ^ 32 := by
  cases phase : s.phase with
  | compressing => exact contract.short allowed short (carries.compressing phase)
  | finishing =>
      obtain ⟨last, streamed⟩ := carries.finishing phase
      exact contract.short allowed short streamed
  | finished => exact (carries.finished phase).1

/-- The loops come to the end of the stream with all of it, by induction on the turns that are left,
each of which uses something up.
-/
theorem loops_finished (contract : lib.Compresses inflate) (allowed : 1 ≤ level ∧ level ≤ 9)
    (short : input.length < 2 ^ 31) {size turns : Nat} (inv : DeflateInv size s)
    (carries : lib.Carries level input inflate s z) (enough : s.left ≤ turns)
    : let t := lib.loops turns s z
      Filled size t ∧ t.produced.length < 2 ^ 32 ∧ inflate t.produced = some input := by
  induction turns generalizing s z with
  | zero =>
      have ended : s.phase = .finished := by
        cases phase : s.phase with
        | finished => rfl
        | _ =>
            rw [Deflating.left, phase, DeflatePhase.left] at enough
            omega
      exact ⟨inv.toFilled, carries.finished ended⟩
  | succ turns ih =>
      rw [loops]
      split
      · next ended => exact ⟨inv.toFilled, carries.finished ended⟩
      · next running =>
          have inv' := inv.turn (lib.zlib z)
          have carries' := carries.turn contract allowed short inv.open_
          have small := carries'.produced_lt contract allowed short
          rw [← inv'.total] at small
          have less := Deflating.left_turn_lt (lib.zlib z) running small
          exact ih inv' carries' (by omega)

/-- With enough turns the blocks are a stream that inflates to the input, with its length. -/
theorem deflated_loops (contract : lib.Compresses inflate) (allowed : 1 ≤ level ∧ level ≤ 9)
    (short : input.length < 2 ^ 31) {size turns : Nat} {fresh : Nat → Nat → UInt8}
    (enough : (Deflating.start size input.length fresh).left ≤ turns) {sent : Deflated}
    (same : sent = (lib.loops turns (.start size input.length fresh)
      (lib.deflateInit level input)).deflated)
    : sent.totalOut = sent.blocks.flatten.length
      ∧ sent.totalOut < 2 ^ 32
      ∧ inflate sent.blocks.flatten = some input := by
  obtain ⟨filled, small, whole⟩ := loops_finished contract allowed short
    (deflateInv_start size input.length fresh) (carries_start size fresh) enough
  have blocks := filled.flatten_sentBlocks
  have total := filled.total
  subst same
  simp only [Deflating.deflated]
  rw [blocks, total]
  exact ⟨rfl, small, whole⟩

/-- So does the server. -/
theorem deflated_inflates (contract : lib.Compresses inflate) (allowed : 1 ≤ level ∧ level ≤ 9)
    (short : input.length < 2 ^ 31) {size : Nat} {fresh : Nat → Nat → UInt8} {sent : Deflated}
    (same : sent = lib.deflated level input size fresh)
    : sent.totalOut = sent.blocks.flatten.length
      ∧ sent.totalOut < 2 ^ 32
      ∧ inflate sent.blocks.flatten = some input := by
  refine deflated_loops contract allowed short ?_ same
  simp only [Deflating.left, Deflating.start, DeflatePhase.left]
  omega

end DeflateLibrary

end RwMem.CeServer
