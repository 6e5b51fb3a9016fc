import Mathlib.Logic.Function.Iterate
import RwMem.CeServer.ModuleStream

/-! The two loops of `CMD_READPROCESSMEMORY` over `deflate`, and the blocks that they fill and send.
-/

namespace RwMem.CeServer

open Memory RwMem.Driver Transition Transition.Program

-----------------------------------------------------------------------------------------
-- The library
-----------------------------------------------------------------------------------------

inductive Flush where
  | Z_NO_FLUSH
  | Z_FINISH
deriving DecidableEq

/-- What `deflate` returns; every other code is an error. -/
inductive ZResult where
  | Z_OK
  | Z_STREAM_END
  | error (code : Int)
deriving DecidableEq

/-- A reply of `deflate`, by its contract: it consumes input and appends output within what is there
of both, and goes on with some progress; it ends the stream only when it is asked to finish; with an
error it does nothing.
-/
structure DeflateReply (flush : Flush) (availIn availOut : Nat) where
  result : ZResult
  consumed : Nat
  output : List UInt8
  consumed_le : consumed ≤ availIn
  output_le : output.length ≤ availOut
  progress : result = .Z_OK → 0 < consumed ∨ output ≠ []
  ends : result = .Z_STREAM_END → flush = .Z_FINISH
  fails : ∀ code, result = .error code → consumed = 0 ∧ output = []

/-- A behaviour of the library behind a successful `deflateInit`: its reply to each call. -/
def Zlib : Type := (calls : Nat) → (flush : Flush) → (availIn availOut : Nat) →
  DeflateReply flush availIn availOut

-----------------------------------------------------------------------------------------
-- The loops
-----------------------------------------------------------------------------------------

def COMPRESS_BLOCKSIZE : Nat := 64 * 1024

/-- The loop that the thread is in. -/
inductive DeflatePhase where
  | compressing
  | finishing
  | finished
deriving DecidableEq

/-- The stream, where `nextOut` is the place of `next_out` in the current block, and the blocks. What
`deflate` produced, the values of `avail_out` at its calls, and the indices at which pointers to
blocks were stored, with the `maxBlocks` at that time, are kept besides.
-/
structure Deflating where
  phase : DeflatePhase
  calls : Nat
  availIn : Nat
  availOut : Nat
  nextOut : Nat
  totalOut : Nat
  currentBlock : Nat
  maxBlocks : Nat
  compressedBlocks : Nat → Nat → UInt8
  produced : List UInt8
  availOuts : List Nat
  stored : List (Nat × Nat)

/-- In front of the loops. The blocks come from `malloc` with anything in them. -/
def Deflating.start (size uncompressedSize : Nat) (fresh : Nat → Nat → UInt8) : Deflating where
  phase := .compressing
  calls := 0
  availIn := uncompressedSize
  availOut := COMPRESS_BLOCKSIZE
  nextOut := 0
  totalOut := 0
  currentBlock := 0
  maxBlocks := 1 + size / COMPRESS_BLOCKSIZE
  compressedBlocks := fresh
  produced := []
  availOuts := []
  stored := [(0, 1 + size / COMPRESS_BLOCKSIZE)]

/-- A call of `deflate`. -/
def Deflating.deflate (s : Deflating) {flush : Flush}
    (reply : DeflateReply flush s.availIn s.availOut)
    : Deflating :=
  { s with
    calls := s.calls + 1
    availIn := s.availIn - reply.consumed
    availOut := s.availOut - reply.output.length
    nextOut := s.nextOut + reply.output.length
    totalOut := s.totalOut + reply.output.length
    compressedBlocks :=
      Function.update s.compressedBlocks s.currentBlock
        (store (s.compressedBlocks s.currentBlock) s.nextOut reply.output)
    produced := s.produced ++ reply.output
    availOuts := s.availOuts ++ [s.availOut] }

/-- The list of pointers is made twice as long if it is too short. -/
def Deflating.grown (s : Deflating) : Nat :=
  if s.currentBlock + 1 ≥ s.maxBlocks then s.maxBlocks * 2 else s.maxBlocks

/-- A new output block, if the current one is full. -/
def Deflating.nextBlock (s : Deflating) : Deflating :=
  if s.availOut = 0 then
    { s with
      currentBlock := s.currentBlock + 1
      maxBlocks := s.grown
      stored := s.stored ++ [(s.currentBlock + 1, s.grown)]
      availOut := COMPRESS_BLOCKSIZE
      nextOut := 0 }
  else s

/-- A turn of the loop that the thread is in; the first loop goes over into the second one. -/
def Deflating.turn (zlib : Zlib) (s : Deflating) : Deflating :=
  match s.phase with
  | .compressing =>
      if s.availIn = 0 then { s with phase := .finishing }
      else
        let reply := zlib s.calls .Z_NO_FLUSH s.availIn s.availOut
        if reply.result = .Z_OK then (s.deflate reply).nextBlock
        else { s.deflate reply with phase := .finishing }
  | .finishing =>
      let reply := zlib s.calls .Z_FINISH s.availIn s.availOut
      if reply.result = .Z_OK then (s.deflate reply).nextBlock
      else { s.deflate reply with phase := .finished }
  | .finished => s

/-- The blocks that are sent: the last one up to what is left in it. -/
def Deflating.sentBlocks (s : Deflating) : List (List UInt8) :=
  (List.range s.currentBlock).map (fun i => cells (s.compressedBlocks i) 0 COMPRESS_BLOCKSIZE)
    ++ [cells (s.compressedBlocks s.currentBlock) 0 (COMPRESS_BLOCKSIZE - s.availOut)]

/-- What the handler takes from the loops. -/
def Deflating.deflated (s : Deflating) : Deflated :=
  { totalOut := s.totalOut, blocks := s.sentBlocks }

/-- All that a turn can do. -/
inductive Deflating.Turns (s : Deflating) : Deflating → Prop where
  | used (compressing : s.phase = .compressing) : Turns s { s with phase := .finishing }
  | goesOn {flush : Flush} (running : s.phase ≠ .finished)
      (reply : DeflateReply flush s.availIn s.availOut) (ok : reply.result = .Z_OK)
      : Turns s (s.deflate reply).nextBlock
  | fails (compressing : s.phase = .compressing)
      (reply : DeflateReply .Z_NO_FLUSH s.availIn s.availOut) (stopped : reply.result ≠ .Z_OK)
      : Turns s { s.deflate reply with phase := .finishing }
  | ends (finishing : s.phase = .finishing) (reply : DeflateReply .Z_FINISH s.availIn s.availOut)
      : Turns s { s.deflate reply with phase := .finished }
  | stays (finished : s.phase = .finished) : Turns s s

theorem Deflating.turns_turn (s : Deflating) (zlib : Zlib) : s.Turns (s.turn zlib) := by
  rw [Deflating.turn]
  split
  · next compressing =>
      have running : s.phase ≠ .finished := by
        rw [compressing]
        decide
      split
      · exact .used compressing
      · dsimp only
        split
        · next ok => exact .goesOn running _ ok
        · next stopped => exact .fails compressing _ stopped
  · next finishing =>
      have running : s.phase ≠ .finished := by
        rw [finishing]
        decide
      dsimp only
      split
      · next ok => exact .goesOn running _ ok
      · exact .ends finishing _
  · next finished => exact .stays finished

-----------------------------------------------------------------------------------------
-- What the turns keep
-----------------------------------------------------------------------------------------

theorem COMPRESS_BLOCKSIZE_pos : 0 < COMPRESS_BLOCKSIZE := by
  rw [COMPRESS_BLOCKSIZE]
  omega

/-- The full blocks and the part of the current one hold what `deflate` produced. -/
structure Filled (size : Nat) (s : Deflating) : Prop where
  room : s.nextOut + s.availOut = COMPRESS_BLOCKSIZE
  total : s.totalOut = s.produced.length
  gathered :
    (List.range s.currentBlock).flatMap (fun i => cells (s.compressedBlocks i) 0 COMPRESS_BLOCKSIZE)
      ++ cells (s.compressedBlocks s.currentBlock) 0 s.nextOut = s.produced
  listed : s.currentBlock < s.maxBlocks
  bounded : s.maxBlocks ≤ 1 + size / COMPRESS_BLOCKSIZE ∨ s.maxBlocks ≤ 2 * s.currentBlock
  indices : ∀ p ∈ s.stored, p.1 < p.2
  called : ∀ n ∈ s.availOuts, n ≠ 0

/-- In front of a call of `deflate` there is room in the current block. -/
structure DeflateInv (size : Nat) (s : Deflating) : Prop extends Filled size s where
  open_ : s.phase ≠ .finished → s.availOut ≠ 0

theorem deflateInv_start (size uncompressedSize : Nat) (fresh : Nat → Nat → UInt8)
    : DeflateInv size (.start size uncompressedSize fresh) where
  room := Nat.zero_add _
  open_ _ := Nat.ne_of_gt COMPRESS_BLOCKSIZE_pos
  total := rfl
  gathered := rfl
  listed := Nat.lt_of_lt_of_le Nat.zero_lt_one (Nat.le_add_right _ _)
  bounded := Or.inl (Nat.le_refl _)
  indices p member := by
    rw [List.mem_singleton.mp member]
    exact Nat.lt_of_lt_of_le Nat.zero_lt_one (Nat.le_add_right _ _)
  called n member := nomatch member

/-- The phase is no part of the blocks. -/
theorem Filled.withPhase {size : Nat} {s : Deflating} (filled : Filled size s)
    (phase : DeflatePhase)
    : Filled size { s with phase } :=
  ⟨filled.room, filled.total, filled.gathered, filled.listed, filled.bounded, filled.indices,
    filled.called⟩

/-- A store into one block leaves the blocks in front of it. -/
theorem flatMap_cells_update {blocks : Nat → Nat → UInt8} {n : Nat} (block : Nat → UInt8)
    : (List.range n).flatMap (fun i => cells (Function.update blocks n block i) 0 COMPRESS_BLOCKSIZE)
      = (List.range n).flatMap (fun i => cells (blocks i) 0 COMPRESS_BLOCKSIZE) := by
  refine List.flatMap_congr (fun i member => ?_)
  have other : i ≠ n := Nat.ne_of_lt (List.mem_range.mp member)
  rw [Function.update_of_ne other]

/-- A call of `deflate` appends to the current block. -/
theorem Filled.deflate {size : Nat} {s : Deflating} (filled : Filled size s)
    (open_ : s.availOut ≠ 0) {flush : Flush} (reply : DeflateReply flush s.availIn s.availOut)
    : Filled size (s.deflate reply) where
  room := by
    have room := filled.room
    have output := reply.output_le
    simp only [Deflating.deflate]
    omega
  total := by
    simp only [Deflating.deflate]
    rw [List.length_append, filled.total]
  gathered := by
    simp only [Deflating.deflate]
    rw [flatMap_cells_update, Function.update_self, cells_add, cells_store_apart _ (by simp),
      Nat.zero_add, cells_store, ← List.append_assoc, filled.gathered]
  listed := filled.listed
  bounded := filled.bounded
  indices := filled.indices
  called n member := by
    rcases List.mem_append.mp member with member | last
    · exact filled.called n member
    · rw [List.mem_singleton.mp last]
      exact open_

/-- The index of a new block is in the list, which grows if it was full. -/
theorem Deflating.currentBlock_lt_grown {s : Deflating} (listed : s.currentBlock < s.maxBlocks)
    : s.currentBlock + 1 < s.grown := by
  rw [Deflating.grown]
  split
  · omega
  · next room => exact Nat.lt_of_not_le room

/-- Behind the test of a full block there is room. -/
theorem Filled.nextBlock {size : Nat} {s : Deflating} (filled : Filled size s)
    : DeflateInv size s.nextBlock := by
  by_cases full : s.availOut = 0
  · have whole : s.nextOut = COMPRESS_BLOCKSIZE := by
      have room := filled.room
      omega
    have index := Deflating.currentBlock_lt_grown filled.listed
    rw [Deflating.nextBlock, if_pos full]
    refine ⟨⟨Nat.zero_add _, filled.total, ?_, index, ?_, fun p member => ?_, filled.called⟩,
      fun _ => Nat.ne_of_gt COMPRESS_BLOCKSIZE_pos⟩
    · have gathered := filled.gathered
      rw [whole] at gathered
      dsimp only
      rw [List.range_succ, List.flatMap_append, List.flatMap_singleton, gathered]
      exact List.append_nil _
    · have bounded := filled.bounded
      have listed := filled.listed
      rw [Deflating.grown]
      dsimp only
      split <;> omega
    · rcases List.mem_append.mp member with member | last
      · exact filled.indices p member
      · rw [List.mem_singleton.mp last]
        exact index
  · rw [Deflating.nextBlock, if_neg full]
    exact ⟨filled, fun _ => full⟩

/-- Without a flush a call that does not go on has failed, and has done nothing. -/
theorem DeflateReply.failed {flush : Flush} {availIn availOut : Nat}
    (reply : DeflateReply flush availIn availOut) (running : flush = .Z_NO_FLUSH)
    (stopped : reply.result ≠ .Z_OK)
    : reply.consumed = 0 ∧ reply.output = [] := by
  cases result : reply.result with
  | Z_OK => exact absurd result stopped
  | Z_STREAM_END =>
      cases running.symm.trans (reply.ends result)
  | error code => exact reply.fails code result

/-- Every turn keeps the invariant. -/
theorem DeflateInv.turn {size : Nat} {s : Deflating} (inv : DeflateInv size s) (zlib : Zlib)
    : DeflateInv size (s.turn zlib) := by
  have turned := s.turns_turn zlib
  generalize s.turn zlib = t at turned ⊢
  cases turned with
  | used compressing =>
      have open_ : s.availOut ≠ 0 := inv.open_ (by rw [compressing]; decide)
      exact ⟨inv.toFilled.withPhase _, fun _ => open_⟩
  | goesOn running reply ok => exact (inv.toFilled.deflate (inv.open_ running) reply).nextBlock
  | fails compressing reply stopped =>
      have open_ : s.availOut ≠ 0 := inv.open_ (by rw [compressing]; decide)
      have nothing := reply.failed rfl stopped
      refine ⟨(inv.toFilled.deflate open_ reply).withPhase _, fun _ => ?_⟩
      simp only [Deflating.deflate]
      rw [nothing.2]
      exact open_
  | ends finishing reply =>
      have open_ : s.availOut ≠ 0 := inv.open_ (by rw [finishing]; decide)
      exact ⟨(inv.toFilled.deflate open_ reply).withPhase _, fun running => absurd rfl running⟩
  | stays => exact inv

/-- The turns keep it, by induction on their number. -/
theorem deflateInv_turns (zlib : Zlib) (size uncompressedSize : Nat) (fresh : Nat → Nat → UInt8)
    (n : Nat)
    : DeflateInv size ((Deflating.turn zlib)^[n] (.start size uncompressedSize fresh)) := by
  induction n with
  | zero => exact deflateInv_start size uncompressedSize fresh
  | succ n ih =>
      rw [Function.iterate_succ_apply']
      exact ih.turn zlib

/-- What is sent is what `deflate` produced. -/
theorem Filled.flatten_sentBlocks {size : Nat} {s : Deflating} (filled : Filled size s)
    : s.sentBlocks.flatten = s.produced := by
  have rest : COMPRESS_BLOCKSIZE - s.availOut = s.nextOut := by
    have room := filled.room
    omega
  rw [Deflating.sentBlocks, rest, List.flatten_append, List.flatten_singleton, ← List.flatMap_def,
    filled.gathered]

-----------------------------------------------------------------------------------------
-- The end of the loops
-----------------------------------------------------------------------------------------

def DeflatePhase.left : DeflatePhase → Nat
  | .compressing => 2
  | .finishing => 1
  | .finished => 0

/-- What the turns use up as long as the output stays below `2^32`. -/
def Deflating.left (s : Deflating) : Nat :=
  2 * (s.availIn + (2 ^ 32 - s.totalOut)) + s.phase.left

theorem Deflating.left_nextBlock (s : Deflating) : s.nextBlock.left = s.left := by
  rw [Deflating.nextBlock]
  split <;> rfl

theorem Deflating.totalOut_nextBlock (s : Deflating) : s.nextBlock.totalOut = s.totalOut := by
  rw [Deflating.nextBlock]
  split <;> rfl

/-- A call that goes on uses something up. -/
theorem Deflating.left_deflate_lt {s : Deflating} {flush : Flush}
    (reply : DeflateReply flush s.availIn s.availOut) (goesOn : reply.result = .Z_OK)
    (small : (s.deflate reply).totalOut < 2 ^ 32)
    : (s.deflate reply).left < s.left := by
  have consumed := reply.consumed_le
  simp only [Deflating.deflate] at small
  simp only [Deflating.left, Deflating.deflate]
  rcases reply.progress goesOn with input | output
  · omega
  · have some_ := List.length_pos_iff.mpr output
    omega

theorem Deflating.left_turn_lt {s : Deflating} (zlib : Zlib) (running : s.phase ≠ .finished)
    (small : (s.turn zlib).totalOut < 2 ^ 32)
    : (s.turn zlib).left < s.left := by
  have turned := s.turns_turn zlib
  generalize s.turn zlib = t at turned small ⊢
  cases turned with
  | used compressing =>
      simp only [Deflating.left, compressing, DeflatePhase.left]
      omega
  | goesOn _ reply ok =>
      rw [Deflating.totalOut_nextBlock] at small
      rw [Deflating.left_nextBlock]
      exact Deflating.left_deflate_lt reply ok small
  | fails compressing reply stopped =>
      simp only [Deflating.left, Deflating.deflate, compressing, DeflatePhase.left]
      omega
  | ends finishing reply =>
      simp only [Deflating.left, Deflating.deflate, finishing, DeflatePhase.left]
      omega
  | stays finished => exact absurd finished running

/-- The loops come to their end, by induction on what is left to be used up. -/
theorem exists_finished (zlib : Zlib) {left : Nat} {s : Deflating} (enough : s.left ≤ left)
    (small : ∀ n, ((Deflating.turn zlib)^[n] s).totalOut < 2 ^ 32)
    : ∃ n, ((Deflating.turn zlib)^[n] s).phase = .finished := by
  induction left generalizing s with
  | zero =>
      refine ⟨0, ?_⟩
      by_contra running
      have less : (s.turn zlib).left < s.left := Deflating.left_turn_lt zlib running (small 1)
      omega
  | succ left ih =>
      by_cases ended : s.phase = .finished
      · exact ⟨0, ended⟩
      · have less := Deflating.left_turn_lt zlib ended (small 1)
        obtain ⟨n, there⟩ := ih (s := s.turn zlib) (by omega) (fun n => small (n + 1))
        exact ⟨n + 1, there⟩

-----------------------------------------------------------------------------------------
-- The reply
-----------------------------------------------------------------------------------------

/-- The handler sends the two sizes and the blocks. -/
theorem run_sendCompressed {σ : Type} {answer : (call : ApiCall) → σ → call.Reply × σ}
    {compress : Nat} {o : ReadResult} {x : Exchange σ} {deflated : Deflated}
    (answered : (answer (.deflate compress (o.buffer.take (o.read % 2 ^ 32).toNat))
      x.connection.state).1 = deflated)
    : ∃ x', run (Exchange.handle answer) (sendCompressed compress o) x = .ok ((), x')
        ∧ x'.sent = x.sent ++ (leBytes 4 (o.read % 2 ^ 32).toNat
          ++ (leBytes 4 deflated.totalOut ++ deflated.blocks.flatten)) := by
  subst answered
  let deflated : Deflated := (answer (.deflate compress (o.buffer.take (o.read % 2 ^ 32).toNat))
    x.connection.state).1
  let state := (answer (.deflate compress (o.buffer.take (o.read % 2 ^ 32).toNat))
    x.connection.state).2
  let y : Exchange σ := { x with connection.state := state }
  have blocks := run_sendEach answer deflated.blocks
    { y with sent := y.sent ++ leBytes 4 (o.read % 2 ^ 32).toNat ++ leBytes 4 deflated.totalOut }
  refine ⟨_, blocks, ?_⟩
  simp only [List.append_assoc]
  rfl

/-- For every number of bytes read and every behaviour of the library whose output stays below
`2^32`, the loops come to their end, with room at every call of `deflate` and every pointer stored
inside of its list, and the reply is the number of bytes read, the number of bytes that `deflate`
produced, and these bytes.
-/
theorem compressedReply_consistent {zlib : Zlib} {size : Nat} {o : ReadResult}
    {fresh : Nat → Nat → UInt8} (natural : 0 ≤ o.read) (fits : IsInt o.read)
    (small : ∀ n, ((Deflating.turn zlib)^[n] (.start size o.read.toNat fresh)).totalOut < 2 ^ 32)
    : ∃ n s, (Deflating.turn zlib)^[n] (.start size o.read.toNat fresh) = s
        ∧ s.phase = .finished
        ∧ (∀ m ∈ s.availOuts, m ≠ 0)
        ∧ (∀ p ∈ s.stored, p.1 < p.2)
        ∧ s.produced.length < 2 ^ 32
        ∧ ∀ {σ : Type} (answer : (call : ApiCall) → σ → call.Reply × σ) (compress : Nat)
          (x : Exchange σ),
          (answer (.deflate compress (o.buffer.take o.read.toNat)) x.connection.state).1
            = s.deflated →
          ∃ x', run (Exchange.handle answer) (sendCompressed compress o) x = .ok ((), x')
            ∧ x'.sent = x.sent
              ++ (leBytes 4 o.read.toNat ++ (leBytes 4 s.produced.length ++ s.produced)) := by
  obtain ⟨n, ended⟩ := exists_finished zlib (Nat.le_refl _) small
  have inv := deflateInv_turns zlib size o.read.toNat fresh n
  have total := inv.total
  have below := small n
  refine ⟨n, _, rfl, ended, inv.called, inv.indices, total ▸ below, ?_⟩
  intro σ answer compress x answered
  have read : (o.read % 2 ^ 32).toNat = o.read.toNat := by
    obtain ⟨_, high⟩ := fits
    omega
  rw [← read] at answered
  obtain ⟨x', ran, sent⟩ := run_sendCompressed answered
  refine ⟨x', ran, sent.trans ?_⟩
  rw [read]
  simp only [Deflating.deflated]
  rw [inv.toFilled.flatten_sentBlocks, total]

/-- What the library does at level 1 with the one byte `a` and with room for the whole stream. -/
def oneByteZlib : Zlib
  | _, .Z_NO_FLUSH, availIn, availOut =>
      if room : 2 ≤ availOut then
        { result := .Z_OK
          consumed := availIn
          output := [120, 1]
          consumed_le := Nat.le_refl availIn
          output_le := room
          progress := fun _ => Or.inr (List.cons_ne_nil _ _)
          ends := fun ended => nomatch ended
          fails := fun _ failed => nomatch failed }
      else
        { result := .error (-5)
          consumed := 0
          output := []
          consumed_le := Nat.zero_le _
          output_le := Nat.zero_le _
          progress := fun goesOn => nomatch goesOn
          ends := fun ended => nomatch ended
          fails := fun _ _ => ⟨rfl, rfl⟩ }
  | _, .Z_FINISH, availIn, availOut =>
      if room : 7 ≤ availOut then
        { result := .Z_STREAM_END
          consumed := availIn
          output := [75, 4, 0, 0, 98, 0, 98]
          consumed_le := Nat.le_refl availIn
          output_le := room
          progress := fun goesOn => nomatch goesOn
          ends := fun _ => rfl
          fails := fun _ failed => nomatch failed }
      else
        { result := .error (-5)
          consumed := 0
          output := []
          consumed_le := Nat.zero_le _
          output_le := Nat.zero_le _
          progress := fun goesOn => nomatch goesOn
          ends := fun ended => nomatch ended
          fails := fun _ _ => ⟨rfl, rfl⟩ }

/-- In front of the compression of one byte. -/
def oneByteStart : Deflating := .start 1 (1 : Int).toNat (fun _ _ => 0)

theorem totalOut_oneByte (n : Nat)
    : ((Deflating.turn oneByteZlib)^[n] oneByteStart).totalOut < 2 ^ 32 := by
  have ended : ((Deflating.turn oneByteZlib)^[3] oneByteStart).phase = .finished := by decide +kernel
  have fixed : Deflating.turn oneByteZlib ((Deflating.turn oneByteZlib)^[3] oneByteStart)
      = (Deflating.turn oneByteZlib)^[3] oneByteStart := by
    rw [Deflating.turn, ended]
  match n with
  | 0 => decide +kernel
  | 1 => decide +kernel
  | 2 => decide +kernel
  | n + 3 =>
      rw [Function.iterate_add_apply, Function.iterate_fixed fixed]
      decide +kernel

theorem compressedReply_consistent_oneByte
    : ∃ n s, (Deflating.turn oneByteZlib)^[n] oneByteStart = s
        ∧ s.phase = .finished
        ∧ (∀ m ∈ s.availOuts, m ≠ 0)
        ∧ (∀ p ∈ s.stored, p.1 < p.2)
        ∧ s.produced.length < 2 ^ 32
        ∧ ∀ {σ : Type} (answer : (call : ApiCall) → σ → call.Reply × σ) (compress : Nat)
          (x : Exchange σ),
          (answer (.deflate compress [97]) x.connection.state).1 = s.deflated →
          ∃ x', run (Exchange.handle answer) (sendCompressed compress ⟨1, [97]⟩) x = .ok ((), x')
            ∧ x'.sent = x.sent ++ (leBytes 4 1 ++ (leBytes 4 s.produced.length ++ s.produced)) :=
  @compressedReply_consistent oneByteZlib 1 ⟨1, [97]⟩ (fun _ _ => 0) (by decide)
    ⟨by decide, by decide⟩ totalOut_oneByte

end RwMem.CeServer
