import RwMem.CeServer.Replies
import RwMem.Transition.Answers

/-! Whole sessions: the stream of replies to any sequence of queries, decoded by the records and the
lengths in them.
-/

namespace RwMem.CeServer

open Memory Memory.Decoder RwMem.Driver Transition Transition.Program

variable {σ : Type} (answer : (call : ApiCall) → σ → call.Reply × σ)

-----------------------------------------------------------------------------------------
-- Sessions
-----------------------------------------------------------------------------------------

/-- The first turns of the loop of `newConnectionThread`, with what they send. -/
def serveSession : Nat → Exchange σ → Except Stop (Exchange σ)
  | 0, x => .ok x
  | turns + 1, x =>
      match run (Exchange.handle answer) newConnectionTurn x with
      | .error stop => .error stop
      | .ok (true, x) => serveSession turns x
      | .ok (false, x) => .ok x

/-- The commands of a session: the queries, and those that make and close handles. -/
def CeCommand.IsAsked (record : List UInt8) : CeCommand → Prop
  | .closeHandle => True
  | .createToolhelp32Snapshot => True
  | case => case.IsQueried record

/-- The call of `CApi` that a command makes, if it makes one. -/
def askedCall (record tail : List UInt8) : CeCommand → Option ApiCall
  | .closeHandle => some (.closeHandle (intAt record 0))
  | .createToolhelp32Snapshot =>
      some (.createToolhelp32Snapshot (UInt32.ofNat (wordAt record 0 4)) (intAt record 4))
  | .process32First => some (.process32First (intAt record 0))
  | .process32Next => some (.process32Next (intAt record 0))
  | .module32First => some (.module32First (intAt record 0))
  | .module32Next => some (.module32Next (intAt record 0))
  | .openProcess => some (.openProcess (intAt record 0))
  | .readProcessMemory =>
      some (.readProcessMemory (intAt record 0) (wordAt record 4 8) (wordAt record 12 4))
  | .writeProcessMemory =>
      if intAt record 12 ≠ 0 then
        some (.writeProcessMemory (intAt record 0) (wordAt record 4 8) tail)
      else none
  | .virtualQueryEx => some (.virtualQueryEx (intAt record 0) (wordAt record 4 8))
  | .getRegionInfo => some (.virtualQueryEx (intAt record 0) (wordAt record 4 8))
  | .virtualQueryExFull => some (.virtualQueryExFull (intAt record 0) (wordAt record 4 1))
  | _ => none

/-- The state of `CApi` behind a command. -/
def stateBehind (call : Option ApiCall) (state : σ) : σ :=
  match call with
  | some call => (answer call state).2
  | none => state

/-- The values that a command is answered with. -/
def askedValues (record tail : List UInt8) (state : σ) : CeCommand → Values
  | .closeHandle => .number 1
  | .createToolhelp32Snapshot =>
      .number
        (answer
          (.createToolhelp32Snapshot (UInt32.ofNat (wordAt record 0 4)) (intAt record 4)) state).1
  | case => valuesOf answer record tail state case

/-- One request of a session; an unknown command is answered with nothing. -/
def askedStep (state : σ) (r : Request) : Option Values × σ :=
  match CeCommand.ofByte r.command with
  | some case =>
      (some (askedValues answer r.record r.tail state case),
        stateBehind answer (askedCall r.record r.tail case) state)
  | none => (none, state)

/-- What a client reads as the reply to one request. -/
def requestDecoder (r : Request) : Decoder (Option Values) :=
  match CeCommand.ofByte r.command with
  | some case => do return some (← replyDecoder case)
  | none => return none

/-- What a client reads as the replies to its requests, one behind the other. -/
def sessionDecoder (requests : List Request) : Decoder (List (Option Values)) :=
  inOrder (requests.map requestDecoder)

/-- What arrives of the values: a name is cut to its length in one byte, and an empty list is sent
as the answer `FALSE`.
-/
def Values.arrives : Values → Values
  | .namedRegion found rinfo name => .namedRegion found rinfo (name.take (name.length % 2 ^ 8))
  | .regions listed => .regions (listed.filter (· ≠ []))
  | values => values

/-- A request of a session. -/
def Request.IsAsked (r : Request) : Prop :=
  ∃ case, CeCommand.ofByte r.command = some case ∧ case.IsAsked r.record

/-- The call of a request. -/
def Request.call (r : Request) : Option ApiCall :=
  (CeCommand.ofByte r.command).bind (askedCall r.record r.tail)

/-- The answer to a call has the values that its reply is made for. -/
def AnswerFits (state : σ) : ApiCall → Prop
  | .createToolhelp32Snapshot dwFlags th32ProcessID =>
      IsInt (answer (.createToolhelp32Snapshot dwFlags th32ProcessID) state).1
  | asked => asked.ReplyFits (answer asked state).1

/-- So has the answer to the call of the request. -/
def ReplyHasRoom (state : σ) (r : Request) : Prop :=
  ∀ c, r.call = some c → AnswerFits answer state c

-----------------------------------------------------------------------------------------
-- The state behind a command
-----------------------------------------------------------------------------------------

/-- Allows one call of `CApi`, and any sends and reads. -/
def oneCall (call : Option ApiCall) : Monitor ServerCall ServerCall.Reply Bool where
  allows made request :=
    match request with
    | .api asked => made = false ∧ call = some asked
    | .sendall _ => True
    | .recvall _ => True
    | _ => False
  after made request :=
    match request with
    | .api _ => fun _ => true
    | _ => fun _ => made

/-- The program makes this call, or none, and besides sends and reads only. -/
def Makes (call : Option ApiCall) (p : Handler) : Prop :=
  Safe (oneCall call) (fun made _ => made = call.isSome) false p

/-- Behind a call only sends may come. -/
def Sends (call : Option ApiCall) (p : Handler) : Prop :=
  Safe (oneCall call) (fun made _ => made = true) true p

variable {call : ApiCall}

theorem makes_sendall (bytes : List UInt8) : Makes none (sendall bytes) :=
  .call trivial (fun _ => .ret rfl)

theorem sends_sendall (call : Option ApiCall) (bytes : List UInt8) : Sends call (sendall bytes) :=
  .call trivial (fun _ => .ret rfl)

theorem sends_sendEach (call : Option ApiCall) (blocks : List (List UInt8))
    : Sends call (sendEach blocks) := by
  induction blocks with
  | nil => exact .ret rfl
  | cons bytes rest ih => exact .call trivial (fun _ => ih)

theorem Sends.after_sendall {call : Option ApiCall} {p : Handler} (sends : Sends call p)
    (bytes : List UInt8)
    : Sends call (do sendall bytes; p) :=
  .call trivial (fun _ => sends)

/-- A call and a part that sends its answer. -/
theorem makes_api {f : call.Reply → Handler} (sends : ∀ value, Sends (some call) (f value))
    : Makes (some call) (api call >>= f) :=
  .call ⟨rfl, rfl⟩ sends

theorem makes_answer (call : ApiCall) (encode : call.Reply → List UInt8)
    : Makes (some call) (do let value ← api call; sendall (encode value)) :=
  makes_api (fun value => sends_sendall _ (encode value))

variable {answer}

/-- The state behind such a program. -/
theorem Makes.state {call : Option ApiCall} {p : Handler} {x x' : Exchange σ}
    (makes : Makes call p) (ran : run (Exchange.handle answer) p x = .ok ((), x'))
    : x'.connection.state = stateBehind answer call x.connection.state := by
  let linked : Bool → Exchange σ → Prop := fun made y =>
    y.connection.state
      = if made then stateBehind answer call x.connection.state else x.connection.state
  have answers : ∀ made (y : Exchange σ) request reply y', linked made y →
      (oneCall call).allows made request →
      Exchange.handle answer request y = .ok (reply, y') →
      linked ((oneCall call).after made request reply) y' := by
    intro made y request reply y' before allowed answered
    cases request with
    | sendall bytes =>
        cases answered
        exact before
    | recvall size =>
        change Except.map _ (Connection.handle answer (.recvall size) y.connection) = _ at answered
        cases took : Connection.handle answer (.recvall size) y.connection with
        | error stop =>
            rw [took] at answered
            contradiction
        | ok result =>
            rw [took] at answered
            cases answered
            exact (Connection.state_of_handle answer took).trans before
    | api asked =>
        obtain ⟨rfl, rfl⟩ := allowed
        cases answered
        exact congrArg (fun state => (answer asked state).2) before
    | close => exact absurd allowed id
    | exit => exact absurd allowed id
    | undefined => exact absurd allowed id
  have start : linked false x := rfl
  obtain ⟨made, ended, whole⟩ := Safe.run_of_ok makes start answers ran
  subst whole
  cases call with
  | none => exact ended
  | some asked => exact ended

/-- Behind its operands the handler has made this call. -/
def Moves (answer : (call : ApiCall) → σ → call.Reply × σ) (p : Handler) (operands : List UInt8)
    (call : Option ApiCall)
    : Prop :=
  ∀ (x x' : Exchange σ) behind, x.connection.At (operands ++ behind) →
    run (Exchange.handle answer) p x = .ok ((), x') →
    x'.connection.state = stateBehind answer call x.connection.state

theorem Makes.moves {call : Option ApiCall} {p : Handler} (makes : Makes call p)
    (operands : List UInt8)
    : Moves answer p operands call :=
  fun _ _ _ _ ran => makes.state ran

/-- Operands are read one behind the other. -/
theorem Moves.behind {take : Int → (List UInt8 → Handler) → Handler}
    {body : List UInt8 → Handler} {operand rest : List UInt8} {call : Option ApiCall} {size : Int}
    (moves : Moves answer (body operand) rest call)
    (reads : take = readOrSkip ∨ take = readOrClose) (asked : operand.length = size)
    (pos : 0 < size)
    : Moves answer (take size body) (operand ++ rest) call := by
  intro x x' behind here ran
  rw [List.append_assoc] at here
  subst asked
  have some_ : operand ≠ [] := List.ne_nil_of_length_pos (by omega)
  obtain ⟨packets, took, stays⟩ := Exchange.exists_recvall answer here some_
  refine moves { x with connection.packets := packets } x' behind ⟨here.opened, stays⟩ ?_
  obtain rfl | rfl := reads
  · exact (run_call took).symm.trans ran
  · exact (run_call took).symm.trans ran

theorem Moves.behind_last {take : Int → (List UInt8 → Handler) → Handler}
    {body : List UInt8 → Handler} {operand : List UInt8} {call : Option ApiCall} {size : Int}
    (moves : Moves answer (body operand) [] call)
    (reads : take = readOrSkip ∨ take = readOrClose) (asked : operand.length = size)
    (pos : 0 < size)
    : Moves answer (take size body) operand call := by
  have taken := moves.behind reads asked pos
  rwa [List.append_nil] at taken

/-- Most handlers read a record and answer it by one call. -/
theorem Makes.behind_record {take : Int → (List UInt8 → Handler) → Handler}
    {body : List UInt8 → Handler} {record tail : List UInt8} {call : Option ApiCall} {n : Nat}
    {size : Int} (makes : Makes call (body record))
    (reads : take = readOrSkip ∨ take = readOrClose) (same : size = n) (pos : 0 < n)
    (long : record.length = n) (nothing : tail.length = 0)
    : Moves answer (take size body) (record ++ tail) call := by
  rw [List.length_eq_zero_iff.mp nothing, List.append_nil]
  exact (makes.moves []).behind_last reads (by rw [long, same]) (by omega)

/-- The command of every request of a session makes its call. -/
theorem moves_handlerOf {record tail : List UInt8} {case : CeCommand}
    (asked : case.IsAsked record) (long : record.length = case.recordSize)
    (behind : tail.length = case.tailSize record)
    : Moves answer (handlerOf case) (record ++ tail) (askedCall record tail case) := by
  cases case with
  | closeHandle =>
      refine Makes.behind_record ?_ (.inr rfl) rfl (by decide) long behind
      exact makes_answer _ _
  | createToolhelp32Snapshot =>
      refine Makes.behind_record ?_ (.inr rfl) rfl (by decide) long behind
      exact makes_answer _ _
  | process32First =>
      refine Makes.behind_record ?_ (.inl rfl) rfl (by decide) long behind
      exact makes_answer _ _
  | process32Next =>
      refine Makes.behind_record ?_ (.inl rfl) rfl (by decide) long behind
      exact makes_answer _ _
  | module32First =>
      refine Makes.behind_record ?_ (.inl rfl) rfl (by decide) long behind
      exact makes_answer _ _
  | module32Next =>
      refine Makes.behind_record ?_ (.inl rfl) rfl (by decide) long behind
      exact makes_answer _ _
  | openProcess =>
      refine Makes.behind_record ?_ (.inr rfl) rfl (by decide) long behind
      exact makes_answer _ _
  | readProcessMemory =>
      refine Makes.behind_record ?_ (.inl rfl) rfl (by decide) long behind
      refine makes_api (fun o => ?_)
      have plain : wordAt record 16 1 = 0 := asked
      rw [if_neg (not_not_intro plain)]
      exact sends_sendall _ _
  | writeProcessMemory =>
      have natural : 0 ≤ intAt record 12 := asked
      have size : tail.length = (intAt record 12).toNat := behind
      refine Moves.behind ?_ (.inl rfl) (by rw [long]; rfl) (by decide)
      dsimp only [askedCall]
      split
      · refine Moves.behind_last ?_ (.inl rfl) (by omega) (by omega)
        exact (makes_answer _ _).moves []
      · exact (makes_sendall _).moves tail
  | virtualQueryEx =>
      refine Makes.behind_record ?_ (.inl rfl) rfl (by decide) long behind
      exact makes_answer _ _
  | getRegionInfo =>
      refine Makes.behind_record ?_ (.inl rfl) rfl (by decide) long behind
      refine makes_api (fun query => Sends.after_sendall (Sends.after_sendall ?_ _) _)
      split
      · exact sends_sendall _ _
      · exact .ret rfl
  | virtualQueryExFull =>
      refine Makes.behind_record ?_ (.inl rfl) rfl (by decide) long behind
      refine makes_api (fun listed => ?_)
      cases listed with
      | none => exact sends_sendall _ _
      | some vRinfo => exact (sends_sendEach _ _).after_sendall _
  | _ => exact asked.elim

-----------------------------------------------------------------------------------------
-- The reply to a command
-----------------------------------------------------------------------------------------

/-- The bytes of the reply. -/
def askedBytes (answer : (call : ApiCall) → σ → call.Reply × σ) (record tail : List UInt8)
    (state : σ)
    : CeCommand → List UInt8
  | .closeHandle => intBytes 1
  | .createToolhelp32Snapshot =>
      intBytes
        (answer
          (.createToolhelp32Snapshot (UInt32.ofNat (wordAt record 0 4)) (intAt record 4)) state).1
  | case => replyBytes answer record tail state case

theorem replies_asked {record tail : List UInt8} {case : CeCommand} (asked : case.IsAsked record)
    (long : record.length = case.recordSize) (behind : tail.length = case.tailSize record)
    : Replies answer (handlerOf case) (record ++ tail)
        (fun state => askedBytes answer record tail state case) := by
  cases case with
  | closeHandle =>
      refine Replies.behind_record ?_ (.inr rfl) rfl (by decide) long behind
      exact replies_api (.closeHandle _) (fun _ => intBytes 1) (fun _ => replies_sendall _)
  | createToolhelp32Snapshot =>
      refine Replies.behind_record ?_ (.inr rfl) rfl (by decide) long behind
      exact replies_answer (.createToolhelp32Snapshot _ _) intBytes
  | _ => exact replies_handlerOf asked long behind

/-- The reply is decoded to what arrives of the values. -/
theorem decodes_askedBytes {record tail : List UInt8} {state : σ} {case : CeCommand}
    (fits : ∀ c, askedCall record tail case = some c → AnswerFits answer state c)
    (asked : case.IsAsked record)
    : Decodes (replyDecoder case) (askedBytes answer record tail state case)
        (askedValues answer record tail state case).arrives := by
  cases case with
  | closeHandle => exact (decodes_intWord isInt_one).map _
  | createToolhelp32Snapshot => exact (decodes_intWord (fits _ rfl)).map _
  | process32First => exact (decodes_processEntry (fits _ rfl)).map _
  | process32Next => exact (decodes_processEntry (fits _ rfl)).map _
  | module32First => exact (decodes_moduleEntry (fits _ rfl)).map _
  | module32Next => exact (decodes_moduleEntry (fits _ rfl)).map _
  | openProcess => exact (decodes_intWord (fits _ rfl)).map _
  | readProcessMemory =>
      obtain ⟨read, natural, short, whole⟩ := fits _ rfl
      exact decodes_readReply read natural short whole
  | writeProcessMemory =>
      dsimp only [askedBytes, askedValues, replyBytes, valuesOf]
      split
      · next nonzero =>
          let written := ApiCall.writeProcessMemory (intAt record 0) (wordAt record 4 8) tail
          have fit : IsInt (answer written state).1 :=
            fits written (by rw [askedCall, if_pos nonzero])
          exact (decodes_intWord fit).map _
      · exact (decodes_intWord isInt_zero).map _
  | virtualQueryEx =>
      obtain ⟨low, high, rinfo, _⟩ := fits (.virtualQueryEx _ _) rfl
      exact (decodes_queryWords low high rinfo).map _
  | getRegionInfo =>
      obtain ⟨low, high, rinfo, _⟩ :=
        fits (.virtualQueryEx (intAt record 0) (wordAt record 4 8)) rfl
      exact decodes_namedReply low high rinfo
  | virtualQueryExFull =>
      exact (decodes_regionsReply
        (fits (.virtualQueryExFull (intAt record 0) (wordAt record 4 1)) rfl)).map _
  | _ => exact asked.elim

-----------------------------------------------------------------------------------------
-- Sessions
-----------------------------------------------------------------------------------------

variable (answer) in
/-- A turn of the loop reads the command, and runs its handler in front of the operands. -/
theorem exists_dispatched {r : Request} {case : CeCommand} {x : Exchange σ}
    {behind : List UInt8} (selects : CeCommand.ofByte r.command = some case)
    (here : x.connection.At (r.command :: (r.operands ++ behind)))
    : ∃ y : Exchange σ,
        y.connection.At (r.operands ++ behind)
        ∧ y.sent = x.sent
        ∧ y.connection.state = x.connection.state
        ∧ ∀ x',
            run (Exchange.handle answer) (handlerOf case) y = .ok ((), x')
            → run (Exchange.handle answer) newConnectionTurn x = .ok (true, x') := by
  have next : x.connection.At ([r.command] ++ (r.operands ++ behind)) := here
  obtain ⟨packets, took, stays⟩ := Exchange.exists_recvall answer next (List.cons_ne_nil _ _)
  refine ⟨{ x with connection.packets := packets }, ⟨here.opened, stays⟩, rfl, rfl, ?_⟩
  intro x' ran
  have dispatched : dispatchCommand r.command = handlerOf case := by
    rw [dispatchCommand, selects]
  rw [← dispatched] at ran
  exact (run_call took).trans (run_bind ran)

variable (answer) in
/-- One turn of the loop serves one request: its reply is sent, and `CApi` is behind its call. -/
theorem run_newConnectionTurn {r : Request} {case : CeCommand} {x : Exchange σ}
    {behind : List UInt8} (selects : CeCommand.ofByte r.command = some case)
    (asked : case.IsAsked r.record) (here : x.connection.At (r.command :: (r.operands ++ behind)))
    : ∃ x',
        run (Exchange.handle answer) newConnectionTurn x = .ok (true, x')
        ∧ x'.connection.At behind
        ∧ x'.sent = x.sent ++ askedBytes answer r.record r.tail x.connection.state case
        ∧ x'.connection.state
          = stateBehind answer (askedCall r.record r.tail case) x.connection.state := by
  have long := r.record_length
  have tail := r.tail_length
  rw [selects] at long tail
  obtain ⟨y, there, same, before, serves⟩ := exists_dispatched answer selects here
  obtain ⟨x', ran, after, sent⟩ := replies_asked asked long tail _ _ there
  have state := moves_handlerOf asked long tail _ _ _ there ran
  rw [before] at sent state
  rw [same] at sent
  exact ⟨x', serves x' ran, after, sent, state⟩

variable (answer) in
/-- Behind the last request the loop closes the connection. -/
theorem run_newConnectionTurn_ended {x : Exchange σ} (here : x.connection.At [])
    : ∃ x',
        run (Exchange.handle answer) newConnectionTurn x = .ok (false, x')
        ∧ x'.connection.closed = true
        ∧ x'.sent = x.sent
        ∧ x'.connection.state = x.connection.state := by
  obtain ⟨c, took⟩ := recvall_ended answer (Or.inr here.bytes)
  have ended : Exchange.handle answer (.recvall 1) x
      = .ok (none, { x with connection := c }) := congrArg (Except.map _) took
  refine ⟨{ x with connection := { c with closed := true } }, ?_, rfl, rfl,
    Connection.state_of_handle answer took⟩
  exact (run_call ended).trans rfl

theorem askedStep_of_selects {r : Request} {case : CeCommand} (state : σ)
    (selects : CeCommand.ofByte r.command = some case)
    : askedStep answer state r
      = (some (askedValues answer r.record r.tail state case),
          stateBehind answer (askedCall r.record r.tail case) state) := by
  rw [askedStep, selects]

/-- A turn of the loop serves a request: its client reads the value from the reply, and `CApi` is in
the next state.
-/
def ServesTurn {β : Type} (answer : (call : ApiCall) → σ → call.Reply × σ) (r : Request)
    (d : Decoder β) (value : β) (state next : σ)
    : Prop :=
  ∀ (x : Exchange σ) behind,
    x.connection.state = state
    → x.connection.At (r.command :: (r.operands ++ behind))
    → ∃ x' reply,
        run (Exchange.handle answer) newConnectionTurn x = .ok (true, x')
        ∧ x'.connection.At behind
        ∧ x'.sent = x.sent ++ reply
        ∧ x'.connection.state = next
        ∧ Decodes d reply value

/-- A request of a session is served. -/
theorem servesTurn_asked {r : Request} {state : σ} (asked : r.IsAsked)
    (room : ReplyHasRoom answer state r)
    : ServesTurn answer r (requestDecoder r) ((askedStep answer state r).1.map Values.arrives) state
        (askedStep answer state r).2 := by
  obtain ⟨case, selects, isAsked⟩ := asked
  intro x behind same here
  subst same
  obtain ⟨x', ran, there, sent, next⟩ := run_newConnectionTurn answer selects isAsked here
  have fits : ∀ c, askedCall r.record r.tail case = some c →
      AnswerFits answer x.connection.state c := by
    intro c same
    exact room c (by rw [Request.call, selects]; exact same)
  rw [askedStep_of_selects _ selects, requestDecoder, selects]
  exact ⟨x', _, ran, there, sent, next, (decodes_askedBytes fits isAsked).map some⟩

/-- The loop from any point of a session on, by induction on the requests that are left. -/
theorem serveSession_decodes {β γ : Type} {step : σ → Request → γ × σ} {view : γ → β}
    {decoder : Request → Decoder β} {requests : List Request} {x : Exchange σ} {turns : Nat}
    (serves
      : GuardedReplies step
          (fun state r =>
            ServesTurn answer r (decoder r) (view (step state r).1) state (step state r).2)
          x.connection.state requests)
    (here : x.connection.At (stream requests)) (enough : requests.length < turns)
    : ∃ x' reply,
        serveSession answer turns x = .ok x'
        ∧ x'.connection.closed = true
        ∧ x'.connection.state = (replies step x.connection.state requests).2
        ∧ x'.sent = x.sent ++ reply
        ∧ Decodes (inOrder (requests.map decoder)) reply
            ((replies step x.connection.state requests).1.map view) := by
  induction requests generalizing x turns with
  | nil =>
      obtain ⟨turns, rfl⟩ := Nat.exists_eq_add_one_of_ne_zero (Nat.ne_zero_of_lt enough)
      obtain ⟨x', ran, closed, sent, state⟩ := run_newConnectionTurn_ended answer here
      refine ⟨x', [], ?_, closed, state, by rw [sent, List.append_nil], decodes_pure []⟩
      rw [serveSession, ran]
  | cons r rest ih =>
      obtain ⟨turns, rfl⟩ := Nat.exists_eq_add_one_of_ne_zero (Nat.ne_zero_of_lt enough)
      rw [stream_cons] at here
      obtain ⟨y, first, ran, there, sent, state, decodes⟩ := serves.head x _ rfl here
      have later := serves.tail
      rw [← state] at later
      obtain ⟨x', reply, served, closed, final, sentAll, others⟩ := ih later there
        (by simpa using enough)
      rw [replies_cons, ← state]
      refine ⟨x', first ++ reply, ?_, closed, final, ?_, decodes.bind (others.map _)⟩
      · rw [serveSession, ran]
        exact served
      · rw [sentAll, sent, List.append_assoc]

/-- Every session of such requests, however it is cut into packets and whatever `CApi` answers, is
served to its end, and the client that decodes the replies by the records and lengths in them has
for each request what arrives of the values that `CApi` answered behind the earlier requests, with
nothing left over.
-/
theorem session_decodes (answer : (call : ApiCall) → σ → call.Reply × σ) (requests : List Request)
    (asked : ∀ r ∈ requests, r.IsAsked) (state : σ)
    (fits : GuardedReplies (askedStep answer) (ReplyHasRoom answer) state requests)
    (packets : List (List UInt8)) (cut : packets.flatten = stream requests) (turns : Nat)
    (enough : requests.length < turns)
    : ∃ x,
        serveSession answer turns ⟨⟨packets, false, state⟩, []⟩ = .ok x
        ∧ x.connection.closed = true
        ∧ x.connection.state = (replies (askedStep answer) state requests).2
        ∧ whole (sessionDecoder requests) x.sent
          = some ((replies (askedStep answer) state requests).1.map
              (fun values => values.map Values.arrives)) := by
  let x : Exchange σ := ⟨⟨packets, false, state⟩, []⟩
  have here : x.connection.At (stream requests) := ⟨rfl, cut⟩
  have serves : GuardedReplies (askedStep answer)
      (fun state r =>
        ServesTurn answer r (requestDecoder r) ((askedStep answer state r).1.map Values.arrives)
          state (askedStep answer state r).2)
      state requests :=
    fits.imp (fun _ r member room => servesTurn_asked (asked r member) room)
  obtain ⟨x', reply, served, closed, final, sent, decodes⟩ :=
    serveSession_decodes serves here enough
  refine ⟨x', served, closed, final, ?_⟩
  rw [sent, List.nil_append]
  exact decodes.whole

theorem answerFits_oneRegion {name : List UInt8} (short : name.length ≤ 511) (call : ApiCall)
    : AnswerFits (oneRegion name) () call := by
  have fits := replyFits_oneRegion short call
  cases call with
  | createToolhelp32Snapshot dwFlags th32ProcessID => exact isInt_zero
  | _ => exact fits

/-- The two requests in three packets: the reply to the second has the name of the region. -/
theorem session_decodes_oneRegion
    : ∃ x,
        serveSession (oneRegion [108, 105, 98]) 3
            ⟨⟨[[3, 1, 0], [0, 0, 32, 1], getRegionOne.record.tail], false, ()⟩, []⟩ = .ok x
        ∧ x.connection.closed = true
        ∧ x.connection.state = ()
        ∧ whole (sessionDecoder [openOne, getRegionOne]) x.sent
          = some [some (.number 0),
              some (.namedRegion 1 ⟨4096, 4096, 2, 131072⟩ [108, 105, 98])] :=
  session_decodes (oneRegion [108, 105, 98]) [openOne, getRegionOne]
    (List.forall_mem_cons.mpr ⟨⟨.openProcess, by decide, trivial⟩,
      List.forall_mem_singleton.mpr ⟨.getRegionInfo, by decide, trivial⟩⟩)
    () (fun _ _ _ _ c _ => answerFits_oneRegion (by decide) c) _ rfl 3 (by decide)

end RwMem.CeServer
