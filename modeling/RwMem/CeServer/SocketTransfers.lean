import RwMem.CeServer.BufferSizes
import RwMem.Transition.Transfers

/-! `recvall` and `sendall` over the bytes of the socket and of their buffer, with any results of
`recv` and `send`.
-/

namespace RwMem.CeServer

open Memory RwMem.Driver Transition

-----------------------------------------------------------------------------------------
-- The helpers
-----------------------------------------------------------------------------------------

def EINTR : Int := 4

/-- The buffer of `recvall`, and how many bytes of the stream were taken before and by it. -/
structure Inbound where
  buffer : Nat → UInt8
  taken : Nat

/-- A `recv` that gives `count` bytes of the stream to `&buffer[offset]`. -/
def Inbound.recv (incoming : Nat → UInt8) (p : Inbound) (offset count : Nat) : Inbound where
  buffer := blit p.buffer offset incoming p.taken count
  taken := p.taken + count

/-- A `send` that takes `count` bytes from `&buffer[offset]`, behind what was sent. -/
def sendFrom (buffer : Nat → UInt8) (sent : List UInt8) (offset count : Nat) : List UInt8 :=
  sent ++ cells buffer offset count

/-- `recvall` after some turns of its loop. -/
def Socket.recvall (recv : Schedule) (incoming : Nat → UInt8) (buf : Inbound) (size : UInt64)
    (turns : Nat)
    : TransferLoop Inbound :=
  (TransferLoop.turn (Inbound.recv incoming) EINTR recv)^[turns]
    (.start (sizeleft size.toNat) buf)

/-- `sendall` after some turns of its loop. -/
def Socket.sendall (send : Schedule) (buf : Nat → UInt8) (sent : List UInt8) (size : UInt64)
    (turns : Nat)
    : TransferLoop (List UInt8) :=
  (TransferLoop.turn (sendFrom buf) EINTR send)^[turns] (.start (sizeleft size.toNat) sent)

-----------------------------------------------------------------------------------------
-- What they move
-----------------------------------------------------------------------------------------

theorem blit_further (buffer incoming : Nat → UInt8) (taken m n : Nat)
    : blit (blit buffer 0 incoming taken m) m incoming (taken + m) n
      = blit buffer 0 incoming taken (m + n) := by
  funext i
  by_cases front : i < m
  · rw [blit_outside (Or.inl front), blit_inside (Nat.zero_le i) (by omega),
      blit_inside (Nat.zero_le i) (by omega)]
  · by_cases next : i < m + n
    · rw [blit_inside (Nat.le_of_not_lt front) next, blit_inside (Nat.zero_le i) (by omega)]
      congr 1
      omega
    · rw [blit_outside (by omega), blit_outside (by omega), blit_outside (by omega)]

theorem movesOn_recv (incoming : Nat → UInt8) : TransferLoop.MovesOn (Inbound.recv incoming) where
  nothing p offset := by
    rw [Inbound.recv, blit_zero, Nat.add_zero]
  further p m n := by
    simp only [Inbound.recv]
    rw [blit_further, Nat.add_assoc]

theorem movesOn_send (buf : Nat → UInt8) : TransferLoop.MovesOn (sendFrom buf) where
  nothing sent offset := List.append_nil sent
  further sent m n := by
    simp only [sendFrom]
    rw [cells_add, Nat.zero_add, List.append_assoc]

/-- The first `n` bytes of the buffer are the next `n` bytes of the stream, and the others were left
alone.
-/
def Received (incoming : Nat → UInt8) (buf : Inbound) (n : Nat) (p : Inbound) : Prop :=
  cells p.buffer 0 n = cells incoming buf.taken n
    ∧ p.taken = buf.taken + n
    ∧ ∀ i ≥ n, p.buffer i = buf.buffer i

/-- The socket was handed the first `n` bytes of the buffer. -/
def Sent (buf : Nat → UInt8) (before : List UInt8) (n : Nat) (sent : List UInt8) : Prop :=
  sent = before ++ cells buf 0 n

theorem received_recv (incoming : Nat → UInt8) (buf : Inbound) (n : Nat)
    : Received incoming buf n (buf.recv incoming 0 n) := by
  refine ⟨List.map_congr_left (fun i member => ?_), rfl, fun i behind => ?_⟩
  · have below := List.mem_range.mp member
    simp only [Inbound.recv]
    rw [Nat.zero_add, blit_inside (Nat.zero_le i) (by omega), Nat.sub_zero]
  · exact blit_outside (Or.inr (by omega))

-----------------------------------------------------------------------------------------
-- Lossless transfers
-----------------------------------------------------------------------------------------

/-- A helper that was called for `size` bytes, after some turns, where `moved n` says that the first
`n` bytes were moved and nothing else was. A positive result is the size, with all of it moved, and
there are no short counts. A call that ends or fails gives the helper its result. Every call asks
for what remains, and begins where the one in front of it came to.
-/
structure Lossless {σ : Type} (size : Nat) (moved : Nat → σ → Prop) (s : TransferLoop σ)
    : Prop where
  whole : ∀ r, s.returned = some r → 0 < r → r = size ∧ moved size s.place
  short : ∀ r, s.returned = some r → r ≠ size → r = 0 ∨ r = -1
  stopped : ∀ c ∈ s.calls, c.Stops EINTR → s.returned = some c.ret ∧ (c.ret = 0 ∨ c.ret = -1)
  asked : ∀ c ∈ s.calls, 0 ≤ c.offset ∧ 0 < c.wanted ∧ c.offset + c.wanted = size
  consecutive : TransferLoop.Consecutive 0 s.calls s.total
  part : ∃ n ≤ size, s.total = n ∧ moved n s.place

/-- The helper returns, unless there are nothing but interruptions from some turn on. -/
def ReturnsUnlessInterrupted {σ : Type} (schedule : Schedule) (helper : Nat → TransferLoop σ)
    : Prop :=
  (∃ turns r, (helper turns).returned = some r)
    ∨ ∃ m, ∀ turns ≥ m, (helper turns).Interrupted EINTR schedule

/-- A size is not changed by `ssize_t`, or it is negative there. -/
theorem sizeleft_cases {size : Nat} (word : size < 2 ^ 64)
    : sizeleft size = size ∨ sizeleft size < 0 := by
  by_cases small : size < 2 ^ 63
  · exact Or.inl (sizeleft_of_lt small)
  · refine Or.inr ?_
    unfold sizeleft
    rw [Int.bmod_def, if_neg (by omega)]
    omega

variable {σ : Type} {move : σ → (offset count : Nat) → σ} {moved : Nat → σ → Prop} {place : σ}
  {s : TransferLoop σ}

/-- What every turn keeps is enough. -/
theorem lossless_of_progress {size : Nat} (word : size < 2 ^ 64)
    (progress : TransferLoop.Progress move (sizeleft size) place s)
    (answered : TransferLoop.Answered EINTR s) (moves : ∀ n, moved n (move place 0 n))
    : Lossless size moved s := by
  have size_cases := sizeleft_cases word
  have sum := progress.sum
  have natural := progress.natural
  have left := progress.left
  have moved_total : moved s.total.toNat s.place := by
    rw [progress.moved]
    exact moves _
  refine {
    whole := fun r returned positive => ?_
    short := fun r returned differs => ?_
    stopped := fun c member stops => ⟨answered.stops c member stops, stops.imp_right And.left⟩
    asked := fun c member => ?_
    consecutive := progress.consecutive
    part := ⟨s.total.toNat, ?_, (Int.toNat_of_nonneg natural).symm, moved_total⟩
  }
  · obtain ⟨same, total⟩ := TransferLoop.whole_of_pos progress answered returned positive
    have exact_ : sizeleft size = size := size_cases.resolve_right (by omega)
    have whole : s.total.toNat = size := by omega
    exact ⟨same.trans exact_, whole ▸ moved_total⟩
  · rcases answered.returned r returned with ⟨same, nothing⟩ | stopped
    · omega
    · exact stopped.1
  · obtain ⟨offset, wanted, all⟩ := progress.asked c member
    exact ⟨offset, wanted, by omega⟩
  · omega

theorem recvall_lossless (recv : Schedule) (incoming : Nat → UInt8) (buf : Inbound)
    (size : UInt64) (turns : Nat)
    : Lossless size.toNat (Received incoming buf) (Socket.recvall recv incoming buf size turns) :=
  lossless_of_progress size.toNat_lt
    (TransferLoop.progress_turns (movesOn_recv incoming) EINTR recv _ buf turns)
    (TransferLoop.answered_turns _ EINTR recv _ buf turns) (received_recv incoming buf)

theorem sendall_lossless (send : Schedule) (buf : Nat → UInt8) (before : List UInt8)
    (size : UInt64) (turns : Nat)
    : Lossless size.toNat (Sent buf before) (Socket.sendall send buf before size turns) :=
  lossless_of_progress size.toNat_lt
    (TransferLoop.progress_turns (movesOn_send buf) EINTR send _ before turns)
    (TransferLoop.answered_turns _ EINTR send _ before turns) (fun _ => rfl)

/-- For every size and all results of `recv` and `send`, both helpers are lossless after every
number of turns, and they return unless they are interrupted for ever.
-/
theorem socketTransfers_lossless (schedule : Schedule) (size : UInt64) (incoming : Nat → UInt8)
    (inbound : Inbound) (outgoing : Nat → UInt8) (before : List UInt8)
    : (∀ turns,
        Lossless size.toNat (Received incoming inbound)
          (Socket.recvall schedule incoming inbound size turns))
      ∧ (∀ turns,
        Lossless size.toNat (Sent outgoing before)
          (Socket.sendall schedule outgoing before size turns))
      ∧ ReturnsUnlessInterrupted schedule (Socket.recvall schedule incoming inbound size)
      ∧ ReturnsUnlessInterrupted schedule (Socket.sendall schedule outgoing before size) :=
  ⟨recvall_lossless schedule incoming inbound size, sendall_lossless schedule outgoing before size,
    TransferLoop.returns_or_interrupted _ (Int.self_le_toNat _),
    TransferLoop.returns_or_interrupted _ (Int.self_le_toNat _)⟩

example :
    -- Two bytes, an interruption, and then all that is left.
    let send : Schedule := fun call wanted =>
      match call with
      | 0 => ⟨min 2 wanted, 0, by omega, by omega⟩
      | 1 => ⟨-1, EINTR, by omega, by omega⟩
      | _ => ⟨wanted, 0, by omega, by omega⟩
    let s := Socket.sendall send (fun i => i.toUInt8) [] 5 4
    s.returned = some 5 ∧ s.place = [0, 1, 2, 3, 4] := by
  decide +kernel

-----------------------------------------------------------------------------------------
-- The turns of the threads
-----------------------------------------------------------------------------------------

/-- The result of a `recv` as the connection threads see it. -/
def recvResult (c : Call) (bytes : List UInt8) : RecvResult :=
  if c.ret = 0 then .ended
  else if c.ret = -1 then if c.errno = EINTR then .interrupted else .failed
  else .received bytes

/-- The result of a `send`. -/
def sendResult (c : Call) : SendResult :=
  if c.ret = 0 then .refused
  else if c.ret = -1 then if c.errno = EINTR then .interrupted else .failed
  else .sent c.ret.toNat

theorem recvallTurn_stops {c : Call} (stops : c.Stops EINTR) (received bytes : List UInt8)
    : recvallTurn received (recvResult c bytes) = none := by
  rcases stops with ended | ⟨failed, other⟩
  · rw [recvResult, if_pos ended, recvallTurn]
  · rw [recvResult, if_neg (by omega), if_pos failed, if_neg other, recvallTurn]

theorem recvallTurn_goesOn {c : Call} (goesOn : ¬c.Stops EINTR) (received : List UInt8)
    {bytes : List UInt8} (long : bytes.length = c.moved.toNat)
    : recvallTurn received (recvResult c bytes) = some (received ++ bytes) := by
  obtain ⟨some_, _⟩ := not_or.mp goesOn
  rw [recvResult, if_neg some_]
  by_cases failed : c.ret = -1
  · have interrupted : c.errno = EINTR := Call.interrupted_of_goesOn goesOn failed
    have nothing : bytes = [] := by
      rw [Call.moved, if_pos failed] at long
      exact List.length_eq_zero_iff.mp long
    rw [if_pos failed, if_pos interrupted, recvallTurn, nothing, List.append_nil]
  · rw [if_neg failed, recvallTurn]

theorem sendallTurn_stops {c : Call} (stops : c.Stops EINTR) (sent : Nat)
    : sendallTurn sent (sendResult c) = none := by
  rcases stops with ended | ⟨failed, other⟩
  · rw [sendResult, if_pos ended, sendallTurn]
  · rw [sendResult, if_neg (by omega), if_pos failed, if_neg other, sendallTurn]

theorem sendallTurn_goesOn {c : Call} (goesOn : ¬c.Stops EINTR) (sent : Nat)
    : sendallTurn sent (sendResult c) = some (sent + c.moved.toNat) := by
  obtain ⟨some_, _⟩ := not_or.mp goesOn
  rw [sendResult, if_neg some_, Call.moved]
  by_cases failed : c.ret = -1
  · have interrupted : c.errno = EINTR := Call.interrupted_of_goesOn goesOn failed
    rw [if_pos failed, if_pos failed, if_pos interrupted, sendallTurn]
    rfl
  · rw [if_neg failed, if_neg failed, sendallTurn]

/-- The bytes behind those in front are the ones that were copied there. -/
theorem cells_blit (buffer incoming : Nat → UInt8) (offset taken n : Nat)
    : cells (blit buffer offset incoming taken n) 0 (offset + n)
      = cells buffer 0 offset ++ cells incoming taken n := by
  rw [cells_add]
  congr 1
  · exact cells_congr (fun i _ below => blit_outside (Or.inl (by omega)))
  · refine List.map_congr_left (fun i member => ?_)
    have below := List.mem_range.mp member
    rw [blit_inside (by omega) (by omega)]
    congr 1
    omega

/-- While it goes on, a turn leaves in the buffer what the turn of the threads makes of the bytes so
far; it returns early where that one does.
-/
theorem recvallTurn_turn {incoming : Nat → UInt8} {recv : Schedule} {size : Int} {buf : Inbound}
    {s : TransferLoop Inbound}
    (progress : TransferLoop.Progress (Inbound.recv incoming) size buf s)
    (running : s.returned = none) (left : 0 < s.sizeleft)
    : let c := s.nextCall recv
      let t := s.turn (Inbound.recv incoming) EINTR recv
      recvallTurn (cells s.place.buffer 0 s.total.toNat)
          (recvResult c (cells incoming s.place.taken c.moved.toNat))
        = if t.returned = none then some (cells t.place.buffer 0 t.total.toNat) else none := by
  intro c t
  by_cases stops : c.Stops EINTR
  · have returned : t.returned = some c.ret :=
      congrArg TransferLoop.returned (TransferLoop.turn_of_stops running left stops)
    rw [returned, if_neg (Option.some_ne_none c.ret), recvallTurn_stops stops]
  · have next : t = s.advance (Inbound.recv incoming) c :=
      TransferLoop.turn_of_goesOn running left stops
    have goes : t.returned = none := next ▸ running
    rw [goes, if_pos rfl, recvallTurn_goesOn stops _ (length_cells _ _ _), next,
      TransferLoop.toNat_total_advance progress.natural left stops]
    simp only [TransferLoop.advance, Inbound.recv]
    rw [cells_blit]

theorem sendallTurn_turn {buf : Nat → UInt8} {send : Schedule} {size : Int} {before : List UInt8}
    {s : TransferLoop (List UInt8)}
    (progress : TransferLoop.Progress (sendFrom buf) size before s)
    (running : s.returned = none) (left : 0 < s.sizeleft)
    : let t := s.turn (sendFrom buf) EINTR send
      sendallTurn s.total.toNat (sendResult (s.nextCall send))
        = if t.returned = none then some t.total.toNat else none := by
  intro t
  by_cases stops : (s.nextCall send).Stops EINTR
  · have returned : t.returned = some (s.nextCall send).ret :=
      congrArg TransferLoop.returned (TransferLoop.turn_of_stops running left stops)
    rw [returned, if_neg (Option.some_ne_none _), sendallTurn_stops stops]
  · have next : t = s.advance (sendFrom buf) (s.nextCall send) :=
      TransferLoop.turn_of_goesOn running left stops
    have goes : t.returned = none := next ▸ running
    rw [goes, if_pos rfl, sendallTurn_goesOn stops, next,
      TransferLoop.toNat_total_advance progress.natural left stops]

/-- The counts that the sizes of the buffers were judged by: what has come is what is stored, and
the result is positive if all of it has come.
-/
theorem recvall_stores (recv : Schedule) (incoming : Nat → UInt8) (buf : Inbound) (size : UInt64)
    (turns : Nat)
    : let s := Socket.recvall recv incoming buf size turns
      recvallStores size.toNat s.total.toNat = s.total.toNat
        ∧ ∀ r, s.returned = some r → (0 < r ↔ RecvallTakes size.toNat s.total.toNat) := by
  intro s
  have progress : TransferLoop.Progress (Inbound.recv incoming) (sizeleft size.toNat) buf s :=
    TransferLoop.progress_turns (movesOn_recv incoming) EINTR recv _ buf turns
  have answered : TransferLoop.Answered EINTR s :=
    TransferLoop.answered_turns _ EINTR recv _ buf turns
  have sum := progress.sum
  have natural := progress.natural
  have left := progress.left
  refine ⟨?_, fun r returned => ?_⟩
  · rw [recvallStores]
    omega
  · rw [RecvallTakes]
    rcases answered.returned r returned with ⟨same, nothing⟩ | ⟨stopped, more⟩
    · omega
    · omega

end RwMem.CeServer
