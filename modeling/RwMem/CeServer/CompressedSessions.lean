import RwMem.CeServer.DeflateStream
import RwMem.CeServer.Sessions

/-! Sessions in which reads may be compressed: a client that inflates their replies has what it
would have without compression.
-/

namespace RwMem.CeServer

open Memory Memory.Decoder RwMem.Driver Transition Transition.Program

-----------------------------------------------------------------------------------------
-- Requests and their replies
-----------------------------------------------------------------------------------------

/-- A read whose reply is to be compressed. -/
def Request.compresses (r : Request) : Bool :=
  CeCommand.ofByte r.command = some .readProcessMemory && wordAt r.record 16 1 ≠ 0

/-- The record of the same command without compression. -/
def plainRecord (case : Option CeCommand) (record : List UInt8) : List UInt8 :=
  if case = some .readProcessMemory then record.set 16 0 else record

theorem length_plainRecord (case : Option CeCommand) (record : List UInt8)
    : (plainRecord case record).length = record.length := by
  rw [plainRecord]
  split
  · exact List.length_set
  · rfl

/-- The same request without compression. -/
def Request.plain (r : Request) : Request where
  command := r.command
  record := plainRecord (CeCommand.ofByte r.command) r.record
  tail := r.tail
  record_length := (length_plainRecord _ _).trans r.record_length
  tail_length := by
    rw [plainRecord]
    split
    · next reads => simpa [reads, CeCommand.tailSize] using r.tail_length
    · exact r.tail_length

/-- The reply to a compressed read: the number of bytes that were read, and a stream behind its
length.
-/
def compressedDecoder (inflate : List UInt8 → Option (List UInt8)) : Decoder Values := do
  let uncompressedSize ← intWord
  let compressedSize ← word 4
  let stream ← bytes compressedSize
  match inflate stream with
  | some data => return .data uncompressedSize data
  | none => fun _ => none

/-- What a client that inflates reads as the reply to one request. -/
def inflatingDecoder (inflate : List UInt8 → Option (List UInt8)) (r : Request)
    : Decoder (Option Values) :=
  if r.compresses then do return some (← compressedDecoder inflate)
  else requestDecoder r

/-- A request of a session, with a level that `deflateInit` accepts if it is to be compressed. -/
structure Request.IsAskedAtLevel (r : Request) : Prop where
  asked : r.plain.IsAsked
  level : r.compresses = true → wordAt r.record 16 1 ≤ 9

variable {σ : Type} {answer : (call : ApiCall) → σ → call.Reply × σ}
variable {lib : DeflateLibrary} {inflate : List UInt8 → Option (List UInt8)}

/-- The server compresses by its loops over the library, which change nothing else. -/
def DeflatesBy (answer : (call : ApiCall) → σ → call.Reply × σ) (lib : DeflateLibrary) : Prop :=
  ∀ level input state,
    ∃ size fresh,
      answer (.deflate level input) state = (lib.deflated level input size fresh, state)

-----------------------------------------------------------------------------------------
-- Serving a compressed read
-----------------------------------------------------------------------------------------

/-- The words in front of the byte that is set stay. -/
theorem wordAt_set {record : List UInt8} {offset n i : Nat} (front : offset + n ≤ i) (b : UInt8)
    : wordAt (record.set i b) offset n = wordAt record offset n := by
  rw [wordAt, wordAt, List.drop_set, if_neg (by omega), List.take_set_of_le (by omega)]

theorem intAt_set {record : List UInt8} {offset i : Nat} (front : offset + 4 ≤ i) (b : UInt8)
    : intAt (record.set i b) offset = intAt record offset := by
  rw [intAt, wordAt_set front, intAt]

/-- A byte that is zero is not changed by setting it to zero. -/
theorem set_of_wordAt_eq_zero {record : List UInt8} {i : Nat} (inside : i < record.length)
    (zero : wordAt record i 1 = 0)
    : record.set i 0 = record := by
  have here : record[i] = 0 := by
    rw [wordAt, List.drop_eq_getElem_cons inside, List.take_succ_cons, List.take_zero] at zero
    exact UInt8.toNat_inj.mp (by simpa [leValue] using zero)
  rw [← here]
  exact List.set_getElem_self inside

variable (answer) in
/-- The handler of a read that is to be compressed reads its record, and sends the sizes and the
blocks.
-/
theorem run_readProcessMemory_compressed {record behind : List UInt8} {y : Exchange σ}
    (long : record.length = 17) (compress : wordAt record 16 1 ≠ 0)
    (level : wordAt record 16 1 ≤ 9)
    (here : y.connection.At (record ++ behind))
    : let asked := ApiCall.readProcessMemory (intAt record 0) (wordAt record 4 8)
        (wordAt record 12 4)
      let o : ReadResult := (answer asked y.connection.state).1
      let size := (o.read % 2 ^ 32).toNat
      let packed := answer (.deflate (wordAt record 16 1) (o.buffer.take size))
        (answer asked y.connection.state).2
      let sent : Deflated := packed.1
      ∃ x',
        run (Exchange.handle answer) (handlerOf .readProcessMemory) y = .ok ((), x')
        ∧ x'.connection.At behind
        ∧ x'.sent = y.sent ++ (leBytes 4 size ++ (leBytes 4 sent.totalOut ++ sent.blocks.flatten))
        ∧ x'.connection.state = packed.2 := by
  intro asked o size packed sent
  have some_ : record ≠ [] := List.ne_nil_of_length_pos (by omega)
  obtain ⟨packets, took, stays⟩ := Exchange.exists_recvall answer here some_
  rw [long] at took
  let z : Exchange σ :=
    { connection := { packets, closed := y.connection.closed, state := packed.2 }
      sent := y.sent ++ leBytes 4 size ++ leBytes 4 sent.totalOut }
  have blocks := run_sendEach answer sent.blocks z
  refine ⟨{ z with sent := z.sent ++ sent.blocks.flatten }, ?_, ⟨here.opened, stays⟩, ?_, rfl⟩
  · refine (run_call took).trans ?_
    have chosen : run (Exchange.handle answer) (sendCompressed (wordAt record 16 1) o)
        { y with connection := { y.connection with
            packets := packets
            state := (answer asked y.connection.state).2 } }
        = .ok ((), _) := blocks
    have compresses : (if wordAt record 16 1 ≠ 0 then
          if wordAt record 16 1 ≤ 9 then sendCompressed (wordAt record 16 1) o
          else undefinedBehaviour
        else sendall ((intBytes o.read ++ o.buffer).take (4 + o.read).toNat))
        = sendCompressed (wordAt record 16 1) o := (if_pos compress).trans (if_pos level)
    rw [← compresses] at chosen
    exact chosen
  · simp only [z, List.append_assoc]

/-- The reply is decoded to what was read. -/
theorem decodes_compressed (contract : lib.Compresses inflate) {level : Nat}
    (allowed : 1 ≤ level ∧ level ≤ 9) {o : ReadResult} (read : IsInt o.read) (natural : 0 ≤ o.read)
    (short : o.read ≤ o.buffer.length) {size : Nat} {fresh : Nat → Nat → UInt8} {sent : Deflated}
    (same : sent = lib.deflated level (o.buffer.take (o.read % 2 ^ 32).toNat) size fresh)
    : Decodes (compressedDecoder inflate)
        (leBytes 4 (o.read % 2 ^ 32).toNat ++ (leBytes 4 sent.totalOut ++ sent.blocks.flatten))
        (.data o.read (o.buffer.take o.read.toNat)) := by
  obtain ⟨_, high⟩ := read
  have counted : (o.read % 2 ^ 32).toNat = o.read.toNat := by omega
  have length : (o.buffer.take (o.read % 2 ^ 32).toNat).length < 2 ^ 31 := by
    rw [List.length_take]
    omega
  obtain ⟨total, small, inflated⟩ :=
    DeflateLibrary.deflated_inflates contract allowed length same
  rw [counted] at inflated
  have data : Decodes
      (match inflate sent.blocks.flatten with
        | some data => return .data o.read data
        | none => fun _ => none : Decoder Values)
      [] (.data o.read (o.buffer.take o.read.toNat)) := by
    rw [inflated]
    exact decodes_pure _
  have stream := (decodes_bytes total.symm).bind (f := fun stream => (match inflate stream with
    | some data => return .data o.read data
    | none => fun _ => none : Decoder Values)) data
  rw [List.append_nil] at stream
  exact (decodes_intWord ⟨by omega, high⟩).bind ((decodes_word small).bind stream)

/-- The plain read calls as the compressed one does. -/
theorem call_plain {r : Request} (reads : CeCommand.ofByte r.command = some .readProcessMemory)
    : r.plain.call
      = some (.readProcessMemory (intAt r.record 0) (wordAt r.record 4 8)
          (wordAt r.record 12 4)) := by
  have selects : CeCommand.ofByte r.plain.command = some .readProcessMemory := reads
  have record : r.plain.record = r.record.set 16 0 := if_pos reads
  rw [Request.call, selects, Option.bind_some, askedCall, record, intAt_set (by decide),
    wordAt_set (by decide), wordAt_set (by decide)]

theorem askedStep_plain {r : Request}
    (reads : CeCommand.ofByte r.command = some .readProcessMemory) (state : σ)
    : let o := answer (.readProcessMemory (intAt r.record 0) (wordAt r.record 4 8)
        (wordAt r.record 12 4)) state
      let result : ReadResult := o.1
      askedStep answer state r.plain
        = (some (.data result.read (result.buffer.take result.read.toNat)), o.2) := by
  have selects : CeCommand.ofByte r.plain.command = some .readProcessMemory := reads
  have record : r.plain.record = r.record.set 16 0 := if_pos reads
  have answered : askedStep answer state r.plain = _ := askedStep_of_selects state selects
  dsimp only [askedValues, valuesOf, stateBehind, askedCall] at answered
  rw [record, intAt_set (by decide), wordAt_set (by decide), wordAt_set (by decide)] at answered
  exact answered

/-- A compressed read is served as the plain one. -/
theorem servesTurn_compressed (contract : lib.Compresses inflate)
    (deflates : DeflatesBy answer lib) {r : Request} (compresses : r.compresses = true)
    (level : wordAt r.record 16 1 ≤ 9) {state : σ} (room : ReplyHasRoom answer state r.plain)
    : ServesTurn answer r (inflatingDecoder inflate r)
        ((askedStep answer state r.plain).1.map Values.arrives) state
        (askedStep answer state r.plain).2 := by
  obtain ⟨reads, flag⟩ : CeCommand.ofByte r.command = some .readProcessMemory
      ∧ wordAt r.record 16 1 ≠ 0 := by
    simpa [Request.compresses] using compresses
  have long := r.record_length
  have tail := r.tail_length
  rw [reads] at long tail
  have nothing : r.tail = [] := List.length_eq_zero_iff.mp tail
  let asked := ApiCall.readProcessMemory (intAt r.record 0) (wordAt r.record 4 8)
    (wordAt r.record 12 4)
  have fits : asked.ReplyFits (answer asked state).1 := room asked (call_plain reads)
  obtain ⟨read, natural, short, whole⟩ := fits
  intro x behind same here
  subst same
  obtain ⟨y, there, sentBefore, before, serves⟩ := exists_dispatched answer reads here
  rw [Request.operands, nothing, List.append_nil] at there
  obtain ⟨x', ran, after, sent, next⟩ :=
    run_readProcessMemory_compressed answer long flag level there
  rw [before] at sent next
  obtain ⟨size, fresh, packed⟩ := deflates (wordAt r.record 16 1)
    ((answer asked x.connection.state).1.buffer.take
      ((answer asked x.connection.state).1.read % 2 ^ 32).toNat)
    (answer asked x.connection.state).2
  have decodes := decodes_compressed contract ⟨Nat.one_le_iff_ne_zero.mpr flag, level⟩ read natural
    (by rw [whole]; exact short) (congrArg Prod.fst packed)
  rw [packed] at next
  rw [askedStep_plain reads, inflatingDecoder, if_pos compresses]
  exact ⟨x', _, serves x' ran, after, sentBefore ▸ sent, next, decodes.map some⟩

/-- Any other request is the plain one. -/
theorem Request.plain_of_not_compresses {r : Request} (plain : ¬ r.compresses = true)
    : r.plain = r := by
  have same : plainRecord (CeCommand.ofByte r.command) r.record = r.record := by
    rw [plainRecord]
    split
    · next reads =>
        have long := r.record_length
        rw [reads] at long
        have flag : wordAt r.record 16 1 = 0 := by
          simpa [Request.compresses, reads] using plain
        exact set_of_wordAt_eq_zero (by simp [long, CeCommand.recordSize]) flag
    · rfl
  obtain ⟨command, record, tail, _, _⟩ := r
  simp only [Request.plain, Request.mk.injEq, true_and, and_true]
  exact same

/-- A request of a session is served as the plain one. -/
theorem servesTurn_plain (contract : lib.Compresses inflate) (deflates : DeflatesBy answer lib)
    {r : Request} (asked : r.IsAskedAtLevel) {state : σ} (room : ReplyHasRoom answer state r.plain)
    : ServesTurn answer r (inflatingDecoder inflate r)
        ((askedStep answer state r.plain).1.map Values.arrives) state
        (askedStep answer state r.plain).2 := by
  by_cases compresses : r.compresses = true
  · exact servesTurn_compressed contract deflates compresses (asked.level compresses) room
  · have plain := Request.plain_of_not_compresses compresses
    have same := asked.asked
    rw [plain] at same room
    rw [plain, inflatingDecoder, if_neg compresses]
    exact servesTurn_asked same room

-----------------------------------------------------------------------------------------
-- Sessions
-----------------------------------------------------------------------------------------

/-- Whatever reads of a session are to be compressed, at any level that `deflateInit` accepts,
however the requests are cut into packets and whatever `CApi` answers: a client that inflates the
compressed replies has exactly the values that the same session without compression gives, and
`CApi` is in the same state behind it.
-/
theorem compressedSession_decodes (contract : lib.Compresses inflate)
    (deflates : DeflatesBy answer lib) (requests : List Request)
    (asked : ∀ r ∈ requests, r.IsAskedAtLevel) (state : σ)
    (fits
      : GuardedReplies (askedStep answer) (ReplyHasRoom answer) state
          (requests.map Request.plain))
    (packets : List (List UInt8)) (cut : packets.flatten = stream requests) (turns : Nat)
    (enough : requests.length < turns)
    : let plain := replies (askedStep answer) state (requests.map Request.plain)
      ∃ x,
        serveSession answer turns ⟨⟨packets, false, state⟩, []⟩ = .ok x
        ∧ x.connection.closed = true
        ∧ x.connection.state = plain.2
        ∧ whole (inOrder (requests.map (inflatingDecoder inflate))) x.sent
          = some (plain.1.map (fun values => values.map Values.arrives)) := by
  let step : σ → Request → Option Values × σ := fun state r => askedStep answer state r.plain
  let x : Exchange σ := ⟨⟨packets, false, state⟩, []⟩
  have alike : replies (askedStep answer) state (requests.map Request.plain)
      = ((replies step state requests).1.map id, (replies step state requests).2) :=
    replies_map Request.plain id (fun _ _ => rfl) state requests
  rw [List.map_id] at alike
  have here : x.connection.At (stream requests) := ⟨rfl, cut⟩
  have serves : GuardedReplies step
      (fun state r =>
        ServesTurn answer r (inflatingDecoder inflate r)
          ((step state r).1.map Values.arrives) state (step state r).2)
      state requests :=
    GuardedReplies.imp
      (fun _ r member room => servesTurn_plain contract deflates (asked r member) room)
      ((guardedReplies_map (fun _ _ => rfl)).mp fits)
  obtain ⟨x', reply, served, closed, final, sent, decodes⟩ :=
    serveSession_decodes serves here enough
  rw [alike]
  refine ⟨x', served, closed, final, ?_⟩
  rw [sent, List.nil_append]
  exact decodes.whole

-----------------------------------------------------------------------------------------
-- A session with one compressed read
-----------------------------------------------------------------------------------------

/-- What is to be put out of a stream: a header at once, and the rest when it is to be finished. -/
structure Waiting where
  header : List UInt8
  body : List UInt8

def Waiting.left (z : Waiting) : List UInt8 := z.header ++ z.body

/-- A call that fails. -/
def DeflateReply.failing (code : Int) (flush : Flush) (availIn availOut : Nat)
    : DeflateReply flush availIn availOut where
  result := .error code
  consumed := 0
  output := []
  consumed_le := Nat.zero_le _
  output_le := Nat.zero_le _
  progress := fun goesOn => nomatch goesOn
  ends := fun ended => nomatch ended
  fails := fun _ _ => ⟨rfl, rfl⟩

/-- A call that takes all input and goes on. -/
def DeflateReply.more {flush : Flush} {availIn availOut : Nat} (output : List UInt8)
    (output_le : output.length ≤ availOut) (progress : 0 < availIn ∨ output ≠ [])
    : DeflateReply flush availIn availOut where
  result := .Z_OK
  consumed := availIn
  output := output
  consumed_le := Nat.le_refl availIn
  output_le := output_le
  progress := fun _ => progress
  ends := fun ended => nomatch ended
  fails := fun _ failed => nomatch failed

/-- A call that takes all input and ends the stream. -/
def DeflateReply.last {flush : Flush} {availIn availOut : Nat} (output : List UInt8)
    (output_le : output.length ≤ availOut) (finishes : flush = .Z_FINISH)
    : DeflateReply flush availIn availOut where
  result := .Z_STREAM_END
  consumed := availIn
  output := output
  consumed_le := Nat.le_refl availIn
  output_le := output_le
  progress := fun goesOn => nomatch goesOn
  ends := fun _ => finishes
  fails := fun _ failed => nomatch failed

theorem Waiting.take_ne_nil {z : Waiting} {availOut : Nat} (fits : ¬ z.left.length ≤ availOut)
    (room : ¬ availOut = 0)
    : z.left.take availOut ≠ [] := by
  intro nothing
  rcases List.take_eq_nil_iff.mp nothing with none_ | empty
  · exact room none_
  · exact fits (by rw [empty]; exact Nat.zero_le _)

/-- A call of the library; -5 is `Z_BUF_ERROR`. -/
def Waiting.deflate (z : Waiting)
    : (flush : Flush) → (availIn availOut : Nat) → DeflateReply flush availIn availOut × Waiting
  | .Z_NO_FLUSH, availIn, availOut =>
      if used : availIn = 0 then (.failing (-5) _ _ _, z)
      else
        (.more (z.header.take availOut) (List.length_take_le _ _)
            (Or.inl (Nat.pos_of_ne_zero used)),
          { z with header := z.header.drop availOut })
  | .Z_FINISH, _, availOut =>
      if fits : z.left.length ≤ availOut then (.last z.left fits rfl, ⟨[], []⟩)
      else if room : availOut = 0 then (.failing (-5) _ _ _, z)
      else
        (.more (z.left.take availOut) (List.length_take_le _ _)
            (Or.inr (Waiting.take_ne_nil fits room)),
          ⟨[], z.left.drop availOut⟩)

/-- A call puts out the front of what is waiting, and the last one all of it; it fails without room
or without anything to do.
-/
theorem Waiting.deflate_cases (z : Waiting) (flush : Flush) (availIn availOut : Nat)
    : let called := z.deflate flush availIn availOut
      (called.1.result = .Z_OK ∧ called.1.output ++ called.2.left = z.left)
      ∨ (called.1.result = .Z_STREAM_END ∧ called.1.output = z.left)
      ∨ (called.1.result = .error (-5) ∧ (availOut = 0 ∨ flush = .Z_NO_FLUSH ∧ availIn = 0)) := by
  intro called
  cases flush with
  | Z_NO_FLUSH =>
      by_cases used : availIn = 0
      · have failed : called = (.failing (-5) _ _ _, z) := dif_pos used
        rw [failed]
        exact .inr (.inr ⟨rfl, .inr ⟨rfl, used⟩⟩)
      · have goesOn : called = (.more _ _ _, _) := dif_neg used
        rw [goesOn]
        refine .inl ⟨rfl, (List.append_assoc _ _ _).symm.trans ?_⟩
        exact congrArg (· ++ z.body) (List.take_append_drop availOut z.header)
  | Z_FINISH =>
      by_cases fits : z.left.length ≤ availOut
      · have ended : called = (.last z.left fits rfl, ⟨[], []⟩) := dif_pos fits
        rw [ended]
        exact .inr (.inl ⟨rfl, rfl⟩)
      · by_cases none_ : availOut = 0
        · have failed : called = (.failing (-5) _ _ _, z) := (dif_neg fits).trans (dif_pos none_)
          rw [failed]
          exact .inr (.inr ⟨rfl, .inl none_⟩)
        · have goesOn : called = (.more _ _ _, _) := (dif_neg fits).trans (dif_neg none_)
          rw [goesOn]
          exact .inl ⟨rfl, List.take_append_drop availOut z.left⟩

/-- The stream of zlib at level 1 for the one byte `a`; any other input is put as it is. -/
def oneByteStream (input : List UInt8) : Waiting where
  header := [120, 1]
  body := if input = [97] then [75, 4, 0, 0, 98, 0, 98] else 0 :: input

def oneByteLibrary : DeflateLibrary where
  Stream := Waiting
  deflateInit _ input := oneByteStream input
  deflate := Waiting.deflate

def oneByteInflate (stream : List UInt8) : Option (List UInt8) :=
  if stream = [120, 1, 75, 4, 0, 0, 98, 0, 98] then some [97] else some (stream.drop 3)

theorem oneByteStream_inflates (input : List UInt8)
    : oneByteInflate (oneByteStream input).left = some input := by
  rw [Waiting.left, oneByteStream, oneByteInflate]
  by_cases one : input = [97]
  · rw [if_pos one, one]
    rfl
  · simp [one]

theorem length_oneByteStream (input : List UInt8)
    : (oneByteStream input).left.length ≤ input.length + 9 := by
  rw [Waiting.left, oneByteStream]
  split <;> simp

/-- The output is what was put out of the stream. -/
theorem append_waiting {level availIn : Nat} {input output : List UInt8} {last : Flush}
    {z : oneByteLibrary.Stream}
    (streamed : oneByteLibrary.Streamed level input last z availIn output)
    : output ++ Waiting.left z = (oneByteStream input).left := by
  induction streamed with
  | deflateInit => rfl
  | @deflate last flush z availIn availOut output before room follows goesOn ih =>
      rw [List.append_assoc, ← ih]
      rcases Waiting.deflate_cases z flush availIn availOut with ⟨_, same⟩ | ended | failed
      · exact congrArg (output ++ ·) same
      · cases ended.1.symm.trans goesOn
      · cases failed.1.symm.trans goesOn

theorem oneByteLibrary_compresses : oneByteLibrary.Compresses oneByteInflate where
  goesOn := by
    intro level input last flush z availIn availOut output _ _ _ room follows code failed
    rcases Waiting.deflate_cases z flush availIn availOut with ⟨ok, _⟩ | ⟨ended, _⟩ | ⟨_, why⟩
    · cases ok.symm.trans failed
    · cases ended.symm.trans failed
    · rcases why with none_ | ⟨rfl, used⟩
      · exact room none_
      · rcases follows with finish | ⟨_, some_⟩
        · contradiction
        · exact some_ used
  short := by
    intro level input last z availIn output _ small streamed
    have length := congrArg List.length (append_waiting streamed)
    have most := length_oneByteStream input
    rw [List.length_append] at length
    omega
  ends := by
    intro level input last flush z availIn availOut output _ small streamed _ _ finished
    have most := length_oneByteStream input
    rcases Waiting.deflate_cases z flush availIn availOut with ⟨ok, _⟩ | ⟨_, whole⟩ | ⟨failed, _⟩
    · cases ok.symm.trans finished
    · have all := append_waiting streamed
      rw [← whole] at all
      dsimp only
      refine ⟨?_, ?_⟩
      · refine Nat.lt_of_le_of_lt (Nat.le_of_eq (congrArg List.length all)) ?_
        omega
      · exact (congrArg oneByteInflate all).trans (oneByteStream_inflates input)
    · cases failed.symm.trans finished

/-- A server that reads one byte `a` at every address, and compresses by this library. -/
def readsOneByte : (call : ApiCall) → Unit → call.Reply × Unit
  | .readProcessMemory _ _ size, s => (⟨if size = 0 then 0 else 1, List.replicate size 97⟩, s)
  | .deflate level input, s => (oneByteLibrary.deflated level input 0 (fun _ _ => 0), s)
  | other, s => failAll other s

theorem answerFits_readsOneByte (call : ApiCall) : AnswerFits readsOneByte () call := by
  cases call with
  | readProcessMemory hProcess address size =>
      have read : IsInt (if size = 0 then 0 else 1)
          ∧ 0 ≤ (if size = 0 then (0 : Int) else 1)
          ∧ (if size = 0 then (0 : Int) else 1) ≤ size := by
        split
        · exact ⟨isInt_zero, Int.le_refl 0, Int.natCast_nonneg size⟩
        · exact ⟨isInt_one, Int.one_nonneg, by omega⟩
      exact ⟨read.1, read.2.1, read.2.2, List.length_replicate⟩
  | createToolhelp32Snapshot dwFlags th32ProcessID => exact isInt_zero
  | openProcess pid => exact isInt_zero
  | writeProcessMemory hProcess address buffer => exact isInt_zero
  | virtualQueryEx hProcess address =>
      have rinfo : RegionInfo.Fits ⟨0, 0, 0, 0⟩ := ⟨by decide, by decide, by decide, by decide⟩
      exact ⟨Int.le_refl 0, Int.zero_le_ofNat 1, rinfo, Nat.zero_le _⟩
  | process32First _ => exact fun _ found => nomatch found
  | process32Next _ => exact fun _ found => nomatch found
  | module32First _ => exact fun _ found => nomatch found
  | module32Next _ => exact fun _ found => nomatch found
  | virtualQueryExFull _ _ => exact fun _ found => nomatch found
  | _ => exact trivial

/-- `CMD_READPROCESSMEMORY` of one byte, to be compressed at level 1. -/
def readOneCompressed : Request where
  command := 9
  record := [1, 0, 0, 0] ++ [0, 16, 0, 0, 0, 0, 0, 0] ++ [1, 0, 0, 0] ++ [1]
  tail := []
  record_length := rfl
  tail_length := by decide

/-- The reply to the second request is compressed. -/
theorem compressedSession_decodes_oneByte
    : ∃ x,
        serveSession readsOneByte 3
            ⟨⟨[[3, 1, 0], [0, 0, 9, 1], readOneCompressed.record.tail], false, ()⟩, []⟩ = .ok x
        ∧ x.connection.closed = true
        ∧ x.connection.state = ()
        ∧ whole (inOrder ([openOne, readOneCompressed].map (inflatingDecoder oneByteInflate)))
            x.sent
          = some [some (.number 0), some (.data 1 [97])] :=
  compressedSession_decodes oneByteLibrary_compresses (fun _ _ _ => ⟨0, fun _ _ => 0, rfl⟩)
    [openOne, readOneCompressed]
    (List.forall_mem_cons.mpr ⟨⟨⟨.openProcess, by decide, trivial⟩, by decide⟩,
      List.forall_mem_singleton.mpr ⟨⟨.readProcessMemory, by decide, rfl⟩, by decide⟩⟩)
    () (fun _ _ _ _ c _ => answerFits_readsOneByte c) _ rfl 3 (by decide)

end RwMem.CeServer
