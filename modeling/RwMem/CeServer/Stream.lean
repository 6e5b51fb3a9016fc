import RwMem.CeServer.Connection

/-! A connection whose bytes arrive in packets, and what the handlers take from it. -/

namespace RwMem.CeServer

open Memory RwMem.Driver Transition Transition.Program

/-- What `recv` returns for a packet of which at most `left` bytes are asked for. An empty packet
stands for a call that is interrupted.
-/
def recvPacket (packet : List UInt8) (left : Nat) : RecvResult :=
  if packet = [] then .interrupted else .received (packet.take left)

/-- What `recvall` answers once its loop ends. -/
def recvallReply (received : List UInt8) : Option (List UInt8) :=
  if received = [] then none else some received

/-- `recvall` over the packets still to come, behind which the stream ends: its answer, and the
packets left. Each turn of its loop takes a packet, of which the last turn may leave a part.
-/
def recvallLoop (size : Int) (received : List UInt8)
    : List (List UInt8) → Option (List UInt8) × List (List UInt8)
  | [] =>
      if received.length < size then ((recvallTurn received .ended).bind recvallReply, [])
      else (recvallReply received, [])
  | packet :: rest =>
      if received.length < size then
        let left := (size - received.length).toNat
        match recvallTurn received (recvPacket packet left) with
        | some received =>
            if packet.length ≤ left then recvallLoop size received rest
            else (recvallReply received, packet.drop left :: rest)
        | none => (none, rest)
      else (recvallReply received, packet :: rest)

/-- Nothing asked for is nothing taken. -/
theorem recvallLoop_nonpos {size : Int} (nothing : size ≤ 0) (packets : List (List UInt8))
    : recvallLoop size [] packets = (none, packets) := by
  have stop : ¬(([] : List UInt8).length : Int) < size := by
    simpa using nothing
  cases packets <;> simp [recvallLoop, recvallReply, nothing]

/-- However the stream is cut, `recvall` takes exactly the bytes asked for if they arrive, by
induction on the packets.
-/
theorem recvallLoop_append {size : Int} {received front behind : List UInt8}
    {packets : List (List UInt8)} (some_ : received ++ front ≠ [])
    (asked : (received ++ front).length = size) (arrive : packets.flatten = front ++ behind)
    : ∃ rest, recvallLoop size received packets = (some (received ++ front), rest)
        ∧ rest.flatten = behind := by
  induction packets generalizing received front with
  | nil =>
      obtain ⟨rfl, rfl⟩ := List.append_eq_nil_iff.mp arrive.symm
      rw [List.append_nil] at asked some_
      refine ⟨[], ?_, rfl⟩
      rw [recvallLoop, if_neg (by omega), recvallReply, if_neg some_, List.append_nil]
  | cons packet rest ih =>
      rw [List.length_append] at asked
      rw [List.flatten_cons] at arrive
      rw [recvallLoop]
      by_cases more : (received.length : Int) < size
      · have left : (size - received.length).toNat = front.length := by omega
        rw [if_pos more]
        dsimp only
        rw [left]
        have turn : recvallTurn received (recvPacket packet front.length)
            = some (received ++ packet.take front.length) := by
          rw [recvPacket]
          split
          · next empty => simp [empty, recvallTurn]
          · rfl
        rw [turn]
        by_cases whole : packet.length ≤ front.length
        · have start : packet = front.take packet.length := by
            have cut := congrArg (List.take packet.length) arrive
            rwa [List.take_left, List.take_append_of_le_length whole] at cut
          have split : front = packet ++ front.drop packet.length := by
            conv_lhs => rw [← List.take_append_drop packet.length front, ← start]
          have later : rest.flatten = front.drop packet.length ++ behind := by
            have cut := congrArg (List.drop packet.length) arrive
            rwa [List.drop_left, List.drop_append_of_le_length whole] at cut
          have together : received ++ packet ++ front.drop packet.length = received ++ front := by
            rw [List.append_assoc, ← split]
          obtain ⟨left, took, stays⟩ := ih (by rwa [together])
            (by rw [together, List.length_append]; exact asked) later
          refine ⟨left, ?_, stays⟩
          rw [together] at took
          simpa [whole, List.take_of_length_le whole] using took
        · have start : packet.take front.length = front := by
            have cut := congrArg (List.take front.length) arrive
            rwa [List.take_append_of_le_length (by omega), List.take_left] at cut
          refine ⟨packet.drop front.length :: rest, ?_, ?_⟩
          · simp only [if_neg whole, start, recvallReply, if_neg some_]
          · have cut := congrArg (List.drop front.length) arrive
            rwa [List.drop_append_of_le_length (by omega), List.drop_left] at cut
      · have nothing : front = [] := List.length_eq_zero_iff.mp (by omega)
        subst nothing
        rw [List.append_nil] at some_
        refine ⟨packet :: rest, ?_, by simpa using arrive⟩
        rw [if_neg more, recvallReply, if_neg some_, List.append_nil]

/-- A stream that ends too early answers with nothing, by induction on the packets. -/
theorem recvallLoop_short {size : Int} {received : List UInt8} {packets : List (List UInt8)}
    (short : (received.length + packets.flatten.length : Int) < size)
    : (recvallLoop size received packets).1 = none := by
  induction packets generalizing received with
  | nil =>
      have more : (received.length : Int) < size := by simpa using short
      rw [recvallLoop, if_pos more]
      rfl
  | cons packet rest ih =>
      rw [List.flatten_cons, List.length_append] at short
      have more : (received.length : Int) < size := by omega
      have whole : packet.length ≤ (size - received.length).toNat := by omega
      have turn : recvallTurn received (recvPacket packet (size - received.length).toNat)
          = some (received ++ packet) := by
        rw [recvPacket]
        split
        · next empty => simp [empty, recvallTurn]
        · rw [recvallTurn, List.take_of_length_le whole]
      rw [recvallLoop, if_pos more]
      dsimp only
      rw [turn]
      dsimp only
      rw [if_pos whole]
      refine ih ?_
      rw [List.length_append]
      omega

/-- So does a stream that has ended. -/
theorem recvallLoop_ended {size : Int} (pos : 0 < size) {packets : List (List UInt8)}
    (ended : packets.flatten = [])
    : (recvallLoop size [] packets).1 = none := by
  refine recvallLoop_short ?_
  rw [ended]
  exact pos

/-- How a handler ends other than by returning. -/
inductive Stop where
  | exited
  | undefined
deriving DecidableEq

/-- A connection with its packets still to come, and what `CApi` works on. -/
structure Connection (σ : Type) where
  packets : List (List UInt8)
  closed : Bool
  state : σ

variable {σ : Type} (answer : (call : ApiCall) → σ → call.Reply × σ)

/-- The calls of a handler on its connection. A closed number is not taken by another one here:
`recv` fails on it.
-/
def Connection.handle
    : (request : ServerCall) → Connection σ → Except Stop (request.Reply × Connection σ)
  | .recvall size, c =>
      if c.closed then .ok (none, c)
      else
        let (reply, packets) := recvallLoop size [] c.packets
        .ok (reply, { c with packets := packets })
  | .sendall _, c => .ok ((), c)
  | .close, c => .ok ((), { c with closed := true })
  | .exit, _ => .error .exited
  | .undefined, _ => .error .undefined
  | .api request, c =>
      let (reply, state) := answer request c.state
      .ok (reply, { c with state := state })

/-- The state of `CApi` behind a call of a handler. -/
def stateAfter (answer : (call : ApiCall) → σ → call.Reply × σ) (request : ServerCall) (state : σ)
    : σ :=
  match request with
  | .api asked => (answer asked state).2
  | _ => state

theorem Connection.state_of_handle {request : ServerCall} {c c' : Connection σ}
    {reply : request.Reply}
    (answered : Connection.handle answer request c = .ok (reply, c'))
    : c'.state = stateAfter answer request c.state := by
  cases request with
  | recvall size =>
      rw [Connection.handle] at answered
      split at answered
      · cases answered
        rfl
      · cases answered
        rfl
  | sendall bytes =>
      cases answered
      rfl
  | close =>
      cases answered
      rfl
  | api asked =>
      cases answered
      rfl
  | exit => cases answered
  | undefined => cases answered

/-- The connection is open, and these are the bytes that the client has sent on it and that are
not read yet.
-/
structure Connection.At (c : Connection σ) (unread : List UInt8) : Prop where
  opened : c.closed = false
  bytes : c.packets.flatten = unread

/-- Reading bytes that are there takes them from the packets. -/
theorem Connection.At.exists_recvall {c : Connection σ} {front behind : List UInt8}
    (here : c.At (front ++ behind)) (some_ : front ≠ [])
    : ∃ rest, Connection.handle answer (.recvall front.length) c
          = .ok (some front, { c with packets := rest })
        ∧ rest.flatten = behind := by
  have alone : [] ++ front ≠ [] := some_
  obtain ⟨rest, took, stays⟩ := recvallLoop_append alone rfl here.bytes
  refine ⟨rest, ?_, stays⟩
  rw [List.nil_append] at took
  simp [Connection.handle, here.opened, took]

/-- It moves the connection behind them. -/
theorem Connection.At.recvall {c : Connection σ} {front behind : List UInt8}
    (here : c.At (front ++ behind)) (some_ : front ≠ [])
    : ∃ c', Connection.handle answer (.recvall front.length) c = .ok (some front, c')
        ∧ c'.At behind := by
  obtain ⟨rest, took, stays⟩ := here.exists_recvall answer some_
  exact ⟨_, took, here.opened, stays⟩

/-- Reading more bytes than there are answers with nothing. -/
theorem Connection.At.recvall_short {c : Connection σ} {unread : List UInt8} (here : c.At unread)
    {size : Int} (short : unread.length < size)
    : ∃ rest, Connection.handle answer (.recvall size) c
        = .ok (none, { c with packets := rest }) := by
  have nothing : (recvallLoop size [] c.packets).1 = none := by
    refine recvallLoop_short ?_
    rw [here.bytes]
    simpa using short
  refine ⟨(recvallLoop size [] c.packets).2, ?_⟩
  simp [Connection.handle, here.opened, ← nothing]

/-- A handler whose operand is there goes on with it. -/
theorem Connection.At.run_readOrClose {c : Connection σ} {bytes : List UInt8} (here : c.At bytes)
    {size : Nat} (pos : 0 < size) (long : size ≤ bytes.length) (body : List UInt8 → Handler)
    : ∃ rest, run (Connection.handle answer) (readOrClose size body) c
        = run (Connection.handle answer) (body (bytes.take size)) { c with packets := rest } := by
  have cut : (bytes.take size).length = size := List.length_take_of_le long
  have some_ : bytes.take size ≠ [] := by
    intro empty
    rw [empty] at cut
    exact absurd cut (Nat.ne_of_lt pos)
  have split : c.At (bytes.take size ++ bytes.drop size) := by
    rw [List.take_append_drop]
    exact here
  obtain ⟨rest, took, _⟩ := split.exists_recvall answer some_
  rw [cut] at took
  exact ⟨rest, run_call took⟩

/-- A handler whose operand is not there closes the connection. -/
theorem Connection.At.run_readOrClose_short {c : Connection σ} {bytes : List UInt8}
    (here : c.At bytes) {size : Nat} (short : bytes.length < size) (body : List UInt8 → Handler)
    : ∃ rest, run (Connection.handle answer) (readOrClose size body) c
        = .ok ((), { c with packets := rest, closed := true }) := by
  obtain ⟨rest, nothing⟩ := here.recvall_short answer (Int.ofNat_lt.mpr short)
  exact ⟨rest, run_call nothing⟩

/-- A read of nothing takes nothing. -/
theorem Connection.At.recvall_nonpos {c : Connection σ} {unread : List UInt8}
    (here : c.At unread) {size : Int} (nothing : size ≤ 0)
    : Connection.handle answer (.recvall size) c = .ok (none, c) := by
  obtain ⟨packets, closed, state⟩ := c
  obtain ⟨rfl, -⟩ := here
  simp [Connection.handle, recvallLoop_nonpos nothing]

/-- A read behind the end of the stream, or on a closed number, answers with nothing. -/
theorem recvall_ended {c : Connection σ} (ended : c.closed = true ∨ c.packets.flatten = [])
    : ∃ c', Connection.handle answer (.recvall 1) c = .ok (none, c') := by
  rw [Connection.handle]
  split
  · exact ⟨c, rfl⟩
  · next opened =>
      have ended := ended.resolve_left opened
      have nothing := recvallLoop_ended Int.one_pos ended
      cases took : recvallLoop 1 [] c.packets with
      | mk reply packets =>
          rw [took] at nothing
          cases nothing
          exact ⟨_, rfl⟩

/-- On a stream that starts with the bytes, the handler takes exactly them and returns. -/
def Consumes (p : Handler) (front : List UInt8) : Prop :=
  ∀ (c : Connection σ) behind, c.At (front ++ behind) →
    ∃ c', run (Connection.handle answer) p c = .ok ((), c') ∧ c'.At behind

variable {answer}

theorem OnlyReplies.consumes {p : Handler} (replies : OnlyReplies p) : Consumes answer p [] := by
  intro c behind here
  have stay : ∀ (m : Unit) (c : Connection σ) request,
      c.At behind → replyMonitor.allows m request
        → ∃ reply c', Connection.handle answer request c = .ok (reply, c') ∧ c'.At behind := by
    intro _ c request here isReply
    cases request with
    | sendall bytes => exact ⟨(), c, rfl, here⟩
    | api request => exact ⟨_, _, rfl, here.opened, here.bytes⟩
    | _ => exact isReply.elim
  obtain ⟨_, _, c', ran, stays, -⟩ := Safe.run_ok replies here stay
  exact ⟨c', ran, stays⟩

theorem Consumes.ite {cond : Prop} [Decidable cond] {p q : Handler} {front : List UInt8}
    (yes : cond → Consumes answer p front) (no : ¬cond → Consumes answer q front)
    : Consumes answer (if cond then p else q) front := by
  by_cases holds : cond
  · rw [if_pos holds]
    exact yes holds
  · rw [if_neg holds]
    exact no holds

/-- Either way of reading takes an operand that comes whole. -/
theorem consumes_read {take : Int → (List UInt8 → Handler) → Handler} {size : Int}
    {body : List UInt8 → Handler} {front rest : List UInt8}
    (reads : take = readOrSkip ∨ take = readOrClose) (asked : front.length = size)
    (some_ : front ≠ []) (served : Consumes answer (body front) rest)
    : Consumes answer (take size body) (front ++ rest) := by
  intro c behind here
  rw [List.append_assoc] at here
  obtain ⟨c', took, there⟩ := here.recvall answer some_
  obtain ⟨c'', ran, stays⟩ := served c' behind there
  subst asked
  refine ⟨c'', ?_, stays⟩
  rcases reads with skip | close
  · subst skip
    exact (run_call took).trans ran
  · subst close
    exact (run_call took).trans ran

/-- A handler that tests its operand goes on with the branch of the test. -/
theorem run_readOrSkip_pos {size : Int} {cond : List UInt8 → Prop} [DecidablePred cond]
    {yes no : List UInt8 → Handler} {c c' : Connection σ} {front : List UInt8}
    (took : Connection.handle answer (.recvall size) c = .ok (some front, c'))
    (holds : cond front)
    : run (Connection.handle answer)
        (readOrSkip size (fun operand => if cond operand then yes operand else no operand)) c
      = run (Connection.handle answer) (yes front) c' :=
  (run_call took).trans (congrArg (run _ · c') (if_pos holds))

theorem run_readOrSkip_neg {size : Int} {cond : List UInt8 → Prop} [DecidablePred cond]
    {yes no : List UInt8 → Handler} {c c' : Connection σ} {front : List UInt8}
    (took : Connection.handle answer (.recvall size) c = .ok (some front, c'))
    (fails : ¬cond front)
    : run (Connection.handle answer)
        (readOrSkip size (fun operand => if cond operand then yes operand else no operand)) c
      = run (Connection.handle answer) (no front) c' :=
  (run_call took).trans (congrArg (run _ · c') (if_neg fails))

theorem RepliesTo.consumes {take : Int → (List UInt8 → Handler) → Handler} {size : Int}
    {p : Handler} {front : List UInt8} (answers : RepliesTo take size p)
    (reads : take = readOrSkip ∨ take = readOrClose) (asked : front.length = size)
    (some_ : front ≠ [])
    : Consumes answer p front := by
  obtain ⟨body, rfl, replies⟩ := answers
  have served : Consumes answer (body front) [] := (replies front).consumes
  have taken := consumes_read reads asked some_ served
  rwa [List.append_nil] at taken

end RwMem.CeServer
