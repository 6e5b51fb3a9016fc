import RwMem.CeServer.Framing
import RwMem.Memory.Decoder

/-! What a client reads from the reply to a command, and when these are the values that `CApi`
answered.
-/

namespace RwMem.CeServer

open Memory Memory.Decoder RwMem.Driver Transition Transition.Program

/-- A connection with the bytes that were sent on it. -/
structure Exchange (σ : Type) where
  connection : Connection σ
  sent : List UInt8

variable {σ : Type} (answer : (call : ApiCall) → σ → call.Reply × σ)

def Exchange.handle
    : (request : ServerCall) → Exchange σ → Except Stop (request.Reply × Exchange σ)
  | .sendall bytes, x => .ok ((), { x with sent := x.sent ++ bytes })
  | request, x =>
      (Connection.handle answer request x.connection).map
        (fun (reply, c) => (reply, { x with connection := c }))

/-- The values that a reply is made of. -/
inductive Values where
  | process (entry : Option ProcessListEntry)
  | module (entry : Option ModuleListEntry)
  | number (n : Int)
  | data (read : Int) (bytes : List UInt8)
  | region (found : Int) (rinfo : RegionInfo)
  | namedRegion (found : Int) (rinfo : RegionInfo) (name : List UInt8)
  | regions (listed : Option (List RegionInfo))
deriving DecidableEq

/-- An `int` of a record. -/
def intWord : Decoder Int := do
  return toInt (← word 4)

/-- `RegionInfo` -/
def regionInfoWords : Decoder RegionInfo := do
  let baseaddress ← word 8
  let size ← word 8
  let protection ← word 4
  let type ← word 4
  return ⟨baseaddress, size, protection, type⟩

/-- `CeVirtualQueryExOutput` -/
def queryWords : Decoder (Int × RegionInfo) := do
  let result ← word 1
  let protection ← word 4
  let type ← word 4
  let baseaddress ← word 8
  let size ← word 8
  return (result, ⟨baseaddress, size, protection, type⟩)

/-- `CeProcessEntry` with the name behind it. -/
def processEntry : Decoder (Option ProcessListEntry) := do
  let result ← intWord
  let pid ← intWord
  let processnamesize ← intWord
  let name ← bytes processnamesize.toNat
  return if result ≠ 0 then some ⟨pid, name⟩ else none

/-- `CeModuleEntry` with the name behind it. -/
def moduleEntry : Decoder (Option ModuleListEntry) := do
  let result ← intWord
  let modulebase ← word 8
  let _modulepart ← intWord
  let modulesize ← intWord
  let _modulefileoffset ← word 4
  let modulenamesize ← intWord
  let name ← bytes modulenamesize.toNat
  return if result ≠ 0 then some ⟨modulebase, modulesize, name⟩ else none

/-- A count with the regions behind it; the answer 0 says that the query failed. -/
def regionList : Decoder (Option (List RegionInfo)) := do
  let count ← word 4
  let listed ← many regionInfoWords count
  return if count ≠ 0 then some listed else none

/-- What a client reads as the reply to a command, by the records and the lengths in them. -/
def replyDecoder : CeCommand → Decoder Values
  | .process32First => do return .process (← processEntry)
  | .process32Next => do return .process (← processEntry)
  | .module32First => do return .module (← moduleEntry)
  | .module32Next => do return .module (← moduleEntry)
  | .readProcessMemory => do
      let read ← intWord
      return .data read (← bytes read.toNat)
  | .virtualQueryEx => do
      let query ← queryWords
      return .region query.1 query.2
  | .getRegionInfo => do
      let query ← queryWords
      let size ← word 1
      return .namedRegion query.1 query.2 (← bytes size)
  | .virtualQueryExFull => do return .regions (← regionList)
  | _ => do return .number (← intWord)

/-- The values that `CApi` answers to the operands of a command. Nothing is written where a write
has no bytes.
-/
def valuesOf (record tail : List UInt8) (state : σ) : CeCommand → Values
  | .process32First =>
      .process (answer (.process32First (intAt record 0)) state).1
  | .process32Next => .process (answer (.process32Next (intAt record 0)) state).1
  | .module32First => .module (answer (.module32First (intAt record 0)) state).1
  | .module32Next => .module (answer (.module32Next (intAt record 0)) state).1
  | .openProcess => .number (answer (.openProcess (intAt record 0)) state).1
  | .readProcessMemory =>
      let o : ReadResult :=
        (answer (.readProcessMemory (intAt record 0) (wordAt record 4 8) (wordAt record 12 4))
          state).1
      .data o.read (o.buffer.take o.read.toNat)
  | .writeProcessMemory =>
      if intAt record 12 ≠ 0 then
        .number (answer (.writeProcessMemory (intAt record 0) (wordAt record 4 8) tail) state).1
      else .number 0
  | .virtualQueryEx =>
      let query : QueryResult := (answer (.virtualQueryEx (intAt record 0) (wordAt record 4 8)) state).1
      .region query.found query.rinfo
  | .getRegionInfo =>
      let query : QueryResult := (answer (.virtualQueryEx (intAt record 0) (wordAt record 4 8)) state).1
      .namedRegion query.found query.rinfo query.memName
  | .virtualQueryExFull =>
      .regions (answer (.virtualQueryExFull (intAt record 0) (wordAt record 4 1)) state).1
  | _ => .number 0

/-- The commands that these replies are for, with well-formed operands: a read that is not to be
compressed, and a write of a size that is not negative.
-/
def CeCommand.IsQueried (record : List UInt8) : CeCommand → Prop
  | .process32First => True
  | .process32Next => True
  | .module32First => True
  | .module32Next => True
  | .openProcess => True
  | .readProcessMemory => wordAt record 16 1 = 0
  | .writeProcessMemory => 0 ≤ intAt record 12
  | .virtualQueryEx => True
  | .getRegionInfo => True
  | .virtualQueryExFull => True
  | _ => False

/-- An `int` of the server. -/
def IsInt (n : Int) : Prop := -2 ^ 31 ≤ n ∧ n < 2 ^ 31

structure RegionInfo.Fits (r : RegionInfo) : Prop where
  baseaddress : r.baseaddress < 2 ^ 64
  size : r.size < 2 ^ 64
  protection : r.protection < 2 ^ 32
  type : r.type < 2 ^ 32

/-- The answers have values of the types that they have in the server, and names of the lengths that
`/proc` and the driver can give; no more is read than was asked for.
-/
def ApiCall.ReplyFits : (call : ApiCall) → call.Reply → Prop
  | .process32First _, (reply : Option ProcessListEntry) =>
      ∀ pe, reply = some pe → IsInt pe.PID ∧ pe.ProcessName.length ≤ 500
  | .process32Next _, (reply : Option ProcessListEntry) =>
      ∀ pe, reply = some pe → IsInt pe.PID ∧ pe.ProcessName.length ≤ 500
  | .module32First _, (reply : Option ModuleListEntry) =>
      ∀ me, reply = some me →
        me.baseAddress < 2 ^ 64 ∧ IsInt me.moduleSize ∧ me.moduleName.length ≤ 511
  | .module32Next _, (reply : Option ModuleListEntry) =>
      ∀ me, reply = some me →
        me.baseAddress < 2 ^ 64 ∧ IsInt me.moduleSize ∧ me.moduleName.length ≤ 511
  | .openProcess _, (reply : Int) => IsInt reply
  | .readProcessMemory _ _ size, (reply : ReadResult) =>
      IsInt reply.read ∧ 0 ≤ reply.read ∧ reply.read ≤ size ∧ reply.buffer.length = size
  | .writeProcessMemory _ _ _, (reply : Int) => IsInt reply
  | .virtualQueryEx _ _, (reply : QueryResult) =>
      0 ≤ reply.found ∧ reply.found ≤ 1 ∧ reply.rinfo.Fits ∧ reply.memName.length ≤ 511
  | .virtualQueryExFull _ _, (reply : Option (List RegionInfo)) =>
      ∀ listed, reply = some listed → listed.length < 2 ^ 32 ∧ ∀ r ∈ listed, r.Fits
  | _, _ => True

section Decoding

/-- An `int` is read back from its bytes. -/
theorem decodes_intWord {n : Int} (fits : IsInt n) : Decodes intWord (intBytes n) n := by
  obtain ⟨low, high⟩ := fits
  have bytes := (decodes_word (n := 4) (w := (n % 2 ^ 32).toNat) (by omega)).map
    (fun w : Nat => toInt w)
  have same : toInt ((n % 2 ^ 32).toNat : Nat) = n := by
    rw [Int.toNat_of_nonneg (by omega), toInt]
    exact (Int.emod_bmod n (2 ^ 32)).trans (Int.bmod_eq_of_le (by omega) (by omega))
  rwa [same] at bytes

theorem isInt_zero : IsInt 0 := ⟨by decide, by decide⟩

theorem isInt_one : IsInt 1 := ⟨by decide, by decide⟩

theorem decodes_length {name : List UInt8} (short : name.length < 2 ^ 31)
    : Decodes intWord (intBytes name.length) name.length :=
  decodes_intWord ⟨by omega, by omega⟩

theorem decodes_regionInfoWords {r : RegionInfo} (fits : r.Fits)
    : Decodes regionInfoWords r.bytes r := by
  rw [RegionInfo.bytes, List.append_assoc, List.append_assoc]
  refine (decodes_word fits.baseaddress).bind ?_
  refine (decodes_word fits.size).bind ?_
  refine (decodes_word fits.protection).bind ?_
  exact (decodes_word fits.type).map _

theorem decodes_queryWords {found : Int} {r : RegionInfo} (low : 0 ≤ found) (high : found ≤ 1)
    (fits : r.Fits)
    : Decodes queryWords (ceVirtualQueryExOutput found r) (found, r) := by
  have decoded : Decodes queryWords (ceVirtualQueryExOutput found r)
      (((found % 2 ^ 8).toNat : Int), r) := by
    rw [ceVirtualQueryExOutput, List.append_assoc, List.append_assoc, List.append_assoc]
    refine (decodes_word (by omega)).bind ?_
    refine (decodes_word fits.protection).bind ?_
    refine (decodes_word fits.type).bind ?_
    refine (decodes_word fits.baseaddress).bind ?_
    exact (decodes_word fits.size).map _
  have result : ((found % 2 ^ 8).toNat : Int) = found := by omega
  rwa [result] at decoded

/-- No bytes are a name of no length. -/
theorem decodes_noName : Decodes (bytes (0 : Int).toNat) [] [] :=
  decodes_bytes (n := 0) List.length_nil

theorem decodes_processEntry {pe : Option ProcessListEntry}
    (fits : ∀ e, pe = some e → IsInt e.PID ∧ e.ProcessName.length ≤ 500)
    : Decodes processEntry (ceProcessEntry pe) pe := by
  cases pe with
  | none =>
      have noName : ceProcessEntry none = intBytes 0 ++ (intBytes 0 ++ (intBytes 0 ++ [])) := by
        rw [ceProcessEntry, List.append_nil, List.append_assoc]
      rw [noName]
      refine (decodes_intWord isInt_zero).bind ?_
      refine (decodes_intWord isInt_zero).bind ?_
      refine (decodes_intWord isInt_zero).bind ?_
      exact decodes_noName.map _
  | some e =>
      obtain ⟨pid, short⟩ := fits e rfl
      rw [ceProcessEntry, List.append_assoc, List.append_assoc]
      refine (decodes_intWord isInt_one).bind ?_
      refine (decodes_intWord pid).bind ?_
      refine (decodes_length (by omega)).bind ?_
      exact (decodes_bytes rfl).map _

/-- The fields before a name are decoded whatever the name is. -/
theorem decodes_moduleHeader {result modulesize modulenamesize : Int} {modulebase : Nat}
    {name : List UInt8} (flag : IsInt result) (base : modulebase < 2 ^ 64) (size : IsInt modulesize)
    (nameSize : IsInt modulenamesize) (named : Decodes (bytes modulenamesize.toNat) name name)
    : Decodes moduleEntry
        (ceModuleHeader result modulebase 0 modulesize 0 modulenamesize ++ name)
        (if result ≠ 0 then some ⟨modulebase, modulesize, name⟩ else none) := by
  simp only [ceModuleHeader, List.append_assoc]
  refine (decodes_intWord flag).bind ?_
  refine (decodes_word base).bind ?_
  refine (decodes_intWord isInt_zero).bind ?_
  refine (decodes_intWord size).bind ?_
  refine (decodes_word (by decide)).bind ?_
  refine (decodes_intWord nameSize).bind ?_
  exact named.map _

theorem decodes_moduleEntry {me : Option ModuleListEntry}
    (fits : ∀ e, me = some e →
      e.baseAddress < 2 ^ 64 ∧ IsInt e.moduleSize ∧ e.moduleName.length ≤ 511)
    : Decodes moduleEntry (ceModuleEntry me) me := by
  cases me with
  | none =>
      have header := decodes_moduleHeader isInt_zero (by decide : 0 < 2 ^ 64) isInt_zero isInt_zero
        decodes_noName
      rwa [List.append_nil] at header
  | some e =>
      obtain ⟨base, size, short⟩ := fits e rfl
      have named : Decodes (bytes (e.moduleName.length : Int).toNat) e.moduleName e.moduleName :=
        decodes_bytes rfl
      exact decodes_moduleHeader isInt_one base size ⟨by omega, by omega⟩ named

/-- The regions that `CMD_VIRTUALQUERYEXFULL` is answered with. -/
theorem decodes_regionList {listed : List RegionInfo} (few : listed.length < 2 ^ 32)
    (fits : ∀ r ∈ listed, r.Fits)
    : Decodes regionList (leBytes 4 listed.length ++ listed.flatMap RegionInfo.bytes)
        (if listed.length ≠ 0 then some listed else none) := by
  refine (decodes_word few).bind ?_
  exact (decodes_many (fun r member => decodes_regionInfoWords (fits r member))).map _

end Decoding

section Replying

/-- Reading the operand leaves what was sent as it is. -/
theorem Exchange.exists_recvall {x : Exchange σ} {front behind : List UInt8}
    (here : x.connection.At (front ++ behind)) (some_ : front ≠ [])
    : ∃ rest, Exchange.handle answer (.recvall front.length) x
          = .ok (some front, { x with connection.packets := rest })
        ∧ rest.flatten = behind := by
  obtain ⟨rest, took, stays⟩ := here.exists_recvall answer some_
  exact ⟨rest, congrArg (Except.map _) took, stays⟩

/-- Behind its operands the handler has sent the reply and nothing else. -/
def Replies (p : Handler) (operands : List UInt8) (reply : σ → List UInt8) : Prop :=
  ∀ (x : Exchange σ) behind, x.connection.At (operands ++ behind) →
    ∃ x', run (Exchange.handle answer) p x = .ok ((), x')
      ∧ x'.connection.At behind
      ∧ x'.sent = x.sent ++ reply x.connection.state

variable {answer}

/-- A handler reads its operands one behind the other. -/
theorem Replies.behind {take : Int → (List UInt8 → Handler) → Handler}
    {body : List UInt8 → Handler} {operand rest : List UInt8} {reply : σ → List UInt8} {size : Int}
    (replies : Replies answer (body operand) rest reply)
    (reads : take = readOrSkip ∨ take = readOrClose) (asked : operand.length = size)
    (pos : 0 < size)
    : Replies answer (take size body) (operand ++ rest) reply := by
  intro x behind here
  rw [List.append_assoc] at here
  subst asked
  have some_ : operand ≠ [] := List.ne_nil_of_length_pos (by omega)
  obtain ⟨packets, took, stays⟩ := Exchange.exists_recvall answer here some_
  obtain ⟨x', ran, there, sent⟩ :=
    replies { x with connection.packets := packets } behind ⟨here.opened, stays⟩
  refine ⟨x', ?_, there, sent⟩
  obtain rfl | rfl := reads
  · exact (run_call took).trans ran
  · exact (run_call took).trans ran

theorem replies_sendall (bytes : List UInt8) : Replies answer (sendall bytes) [] (fun _ => bytes) :=
  fun _ _ here => ⟨_, rfl, here, rfl⟩

/-- What is sent first is the front of the reply. -/
theorem Replies.after_sendall {p : Handler} {rest : List UInt8} (bytes : List UInt8)
    (replies : Replies answer p [] (fun _ => rest))
    : Replies answer (do sendall bytes; p) [] (fun _ => bytes ++ rest) := by
  intro x behind here
  obtain ⟨x', ran, there, sent⟩ := replies { x with sent := x.sent ++ bytes } behind here
  rw [List.append_assoc] at sent
  exact ⟨x', ran, there, sent⟩

/-- By induction on the blocks. -/
theorem replies_sendEach (blocks : List (List UInt8))
    : Replies answer (sendEach blocks) [] (fun _ => blocks.flatten) := by
  induction blocks with
  | nil => exact fun x _ here => ⟨x, rfl, here, (List.append_nil x.sent).symm⟩
  | cons bytes rest ih => exact ih.after_sendall bytes

/-- A call of `CApi` goes before a part that replies with its answer. -/
theorem replies_api (call : ApiCall) (reply : call.Reply → List UInt8) {f : call.Reply → Handler}
    (replies : ∀ value, Replies answer (f value) [] (fun _ => reply value))
    : Replies answer (api call >>= f) [] (fun state => reply (answer call state).1) := by
  intro x behind here
  let state := (answer call x.connection.state).2
  obtain ⟨x', ran, there, sent⟩ := replies (answer call x.connection.state).1
    { x with connection.state := state } behind ⟨here.opened, here.bytes⟩
  exact ⟨x', ran, there, sent⟩

/-- Most handlers call `CApi` once and send its answer as a record. -/
theorem replies_answer (call : ApiCall) (encode : call.Reply → List UInt8)
    : Replies answer (do let value ← api call; sendall (encode value)) []
        (fun state => encode (answer call state).1) :=
  replies_api call encode (fun value => replies_sendall (encode value))

/-- The bytes of the reply to an uncompressed read. -/
def readReply (o : ReadResult) : List UInt8 :=
  (intBytes o.read ++ o.buffer).take (4 + o.read).toNat

/-- The bytes of the reply to `CMD_VIRTUALQUERYEXFULL`. -/
def regionsReply : Option (List RegionInfo) → List UInt8
  | some vRinfo => leBytes 4 vRinfo.length ++ vRinfo.flatMap RegionInfo.bytes
  | none => leBytes 4 0

/-- The bytes of the reply to `CMD_GETREGIONINFO`. -/
def namedReply (query : QueryResult) : List UInt8 :=
  let size := query.memName.length % 2 ^ 8
  ceVirtualQueryExOutput query.found query.rinfo ++ (leBytes 1 size ++ query.memName.take size)

/-- The bytes of the reply to a command. -/
def replyBytes (answer : (call : ApiCall) → σ → call.Reply × σ) (record tail : List UInt8)
    (state : σ)
    : CeCommand → List UInt8
  | .process32First => ceProcessEntry (answer (.process32First (intAt record 0)) state).1
  | .process32Next => ceProcessEntry (answer (.process32Next (intAt record 0)) state).1
  | .module32First => ceModuleEntry (answer (.module32First (intAt record 0)) state).1
  | .module32Next => ceModuleEntry (answer (.module32Next (intAt record 0)) state).1
  | .openProcess => intBytes (answer (.openProcess (intAt record 0)) state).1
  | .readProcessMemory =>
      readReply (answer (.readProcessMemory (intAt record 0) (wordAt record 4 8)
        (wordAt record 12 4)) state).1
  | .writeProcessMemory =>
      if intAt record 12 ≠ 0 then
        intBytes (answer (.writeProcessMemory (intAt record 0) (wordAt record 4 8) tail) state).1
      else intBytes 0
  | .virtualQueryEx =>
      let query : QueryResult :=
        (answer (.virtualQueryEx (intAt record 0) (wordAt record 4 8)) state).1
      ceVirtualQueryExOutput query.found query.rinfo
  | .getRegionInfo =>
      namedReply (answer (.virtualQueryEx (intAt record 0) (wordAt record 4 8)) state).1
  | .virtualQueryExFull =>
      regionsReply (answer (.virtualQueryExFull (intAt record 0) (wordAt record 4 1)) state).1
  | _ => []

theorem Replies.behind_last {take : Int → (List UInt8 → Handler) → Handler}
    {body : List UInt8 → Handler} {operand : List UInt8} {reply : σ → List UInt8} {size : Int}
    (replies : Replies answer (body operand) [] reply)
    (reads : take = readOrSkip ∨ take = readOrClose) (asked : operand.length = size)
    (pos : 0 < size)
    : Replies answer (take size body) operand reply := by
  have taken := replies.behind reads asked pos
  rwa [List.append_nil] at taken

/-- Most handlers read a record with nothing behind it. -/
theorem Replies.behind_record {take : Int → (List UInt8 → Handler) → Handler}
    {body : List UInt8 → Handler} {record tail : List UInt8} {reply : σ → List UInt8} {n : Nat}
    {size : Int} (replies : Replies answer (body record) [] reply)
    (reads : take = readOrSkip ∨ take = readOrClose) (same : size = n) (pos : 0 < n)
    (long : record.length = n) (nothing : tail.length = 0)
    : Replies answer (take size body) (record ++ tail) reply := by
  rw [List.length_eq_zero_iff.mp nothing, List.append_nil]
  exact replies.behind_last reads (by rw [long, same]) (by omega)

/-- The size of a write selects whether there is a tail. -/
theorem replies_writeProcessMemory {record tail : List UInt8} (long : record.length = 16)
    (behind : tail.length = (intAt record 12).toNat) (natural : 0 ≤ intAt record 12)
    : Replies answer writeProcessMemory (record ++ tail)
        (fun state => replyBytes answer record tail state .writeProcessMemory) := by
  have asked : tail.length = intAt record 12 := by omega
  refine Replies.behind ?_ (.inl rfl) (by rw [long]; rfl) (by decide)
  dsimp only [replyBytes]
  split
  · refine Replies.behind_last ?_ (.inl rfl) asked (by omega)
    exact replies_answer (.writeProcessMemory _ _ tail) intBytes
  · next nothing =>
      rw [List.length_eq_zero_iff.mp (by omega : tail.length = 0)]
      exact replies_sendall _

theorem replies_readProcessMemory {record tail : List UInt8} (plain : wordAt record 16 1 = 0)
    (long : record.length = 17) (nothing : tail.length = 0)
    : Replies answer readProcessMemory (record ++ tail)
        (fun state => replyBytes answer record tail state .readProcessMemory) := by
  refine Replies.behind_record ?_ (.inl rfl) rfl (by decide) long nothing
  refine replies_api (.readProcessMemory _ _ _) readReply (fun o => ?_)
  rw [if_neg (not_not_intro plain)]
  exact replies_sendall _

theorem replies_getRegionInfo {record tail : List UInt8} (long : record.length = 12)
    (nothing : tail.length = 0)
    : Replies answer getRegionInfo (record ++ tail)
        (fun state => replyBytes answer record tail state .getRegionInfo) := by
  refine Replies.behind_record ?_ (.inl rfl) rfl (by decide) long nothing
  refine replies_api (.virtualQueryEx _ _) namedReply (fun query => ?_)
  refine Replies.after_sendall _ (Replies.after_sendall _ ?_)
  by_cases size : query.memName.length % 2 ^ 8 ≠ 0
  · rw [if_pos size]
    exact replies_sendall _
  · rw [if_neg size, not_not.mp size]
    exact replies_sendEach []

theorem replies_virtualQueryExFull {record tail : List UInt8} (long : record.length = 5)
    (nothing : tail.length = 0)
    : Replies answer virtualQueryExFull (record ++ tail)
        (fun state => replyBytes answer record tail state .virtualQueryExFull) := by
  refine Replies.behind_record ?_ (.inl rfl) rfl (by decide) long nothing
  refine replies_api (.virtualQueryExFull _ _) regionsReply (fun listed => ?_)
  cases listed with
  | none => exact replies_sendall _
  | some vRinfo => exact (replies_sendEach (vRinfo.map RegionInfo.bytes)).after_sendall _

/-- Every handler reads its operands and sends the reply. -/
theorem replies_handlerOf {record tail : List UInt8} {case : CeCommand}
    (queried : case.IsQueried record) (long : record.length = case.recordSize)
    (behind : tail.length = case.tailSize record)
    : Replies answer (handlerOf case) (record ++ tail)
        (fun state => replyBytes answer record tail state case) := by
  cases case with
  | writeProcessMemory => exact replies_writeProcessMemory long behind queried
  | readProcessMemory => exact replies_readProcessMemory queried long behind
  | getRegionInfo => exact replies_getRegionInfo long behind
  | virtualQueryExFull => exact replies_virtualQueryExFull long behind
  | process32First =>
      exact (replies_answer (.process32First (intAt record 0)) ceProcessEntry).behind_record
        (.inl rfl) rfl (by decide) long behind
  | process32Next =>
      exact (replies_answer (.process32Next (intAt record 0)) ceProcessEntry).behind_record
        (.inl rfl) rfl (by decide) long behind
  | module32First =>
      exact (replies_answer (.module32First (intAt record 0)) ceModuleEntry).behind_record
        (.inl rfl) rfl (by decide) long behind
  | module32Next =>
      exact (replies_answer (.module32Next (intAt record 0)) ceModuleEntry).behind_record
        (.inl rfl) rfl (by decide) long behind
  | openProcess =>
      exact (replies_answer (.openProcess (intAt record 0)) intBytes).behind_record
        (.inr rfl) rfl (by decide) long behind
  | virtualQueryEx =>
      exact (replies_answer (.virtualQueryEx (intAt record 0) (wordAt record 4 8))
        (fun query => ceVirtualQueryExOutput query.found query.rinfo)).behind_record
        (.inl rfl) rfl (by decide) long behind
  | _ => exact queried.elim

end Replying

section Conveying

/-- What the reply has room for: a name of at most 255 bytes behind a region, and, since the answer
`FALSE` is sent as an empty list, a list that is not empty.
-/
def CeCommand.IsConveyed (record : List UInt8) (state : σ) : CeCommand → Prop
  | .getRegionInfo =>
      let query : QueryResult :=
        (answer (.virtualQueryEx (intAt record 0) (wordAt record 4 8)) state).1
      query.memName.length < 2 ^ 8
  | .virtualQueryExFull =>
      let listed : Option (List RegionInfo) :=
        (answer (.virtualQueryExFull (intAt record 0) (wordAt record 4 1)) state).1
      listed ≠ some []
  | _ => True

variable {answer}

/-- The bytes that were read stand behind their count. -/
theorem readReply_eq {o : ReadResult} (natural : 0 ≤ o.read)
    : readReply o = intBytes o.read ++ o.buffer.take o.read.toNat := by
  have count : (intBytes o.read).length = 4 := length_leBytes 4 _
  have whole : (4 + o.read).toNat = (intBytes o.read).length + o.read.toNat := by omega
  rw [readReply, whole, List.take_length_add_append]

theorem decodes_readReply {o : ReadResult} {size : Nat} (read : IsInt o.read)
    (natural : 0 ≤ o.read) (short : o.read ≤ size) (whole : o.buffer.length = size)
    : Decodes (replyDecoder .readProcessMemory) (readReply o)
        (.data o.read (o.buffer.take o.read.toNat)) := by
  rw [readReply_eq natural]
  refine (decodes_intWord read).bind ?_
  exact (decodes_bytes (List.length_take_of_le (by omega))).map _

/-- Behind a region, the name is cut to its length in one byte. -/
theorem decodes_namedReply {query : QueryResult} (low : 0 ≤ query.found) (high : query.found ≤ 1)
    (fits : query.rinfo.Fits)
    : Decodes (replyDecoder .getRegionInfo) (namedReply query)
        (.namedRegion query.found query.rinfo
          (query.memName.take (query.memName.length % 2 ^ 8))) := by
  refine (decodes_queryWords low high fits).bind ?_
  refine (decodes_word (by omega)).bind ?_
  exact (decodes_bytes (List.length_take_of_le (Nat.mod_le _ _))).map _

theorem take_length_mod_eq_iff {name : List UInt8}
    : name.take (name.length % 2 ^ 8) = name ↔ name.length < 2 ^ 8 := by
  constructor
  · intro same
    have cut := congrArg List.length same
    rw [List.length_take] at cut
    omega
  · intro short
    rw [Nat.mod_eq_of_lt short, List.take_length]

/-- A list without regions is decoded as the answer `FALSE`. -/
theorem decodes_regionsReply {listed : Option (List RegionInfo)}
    (fits : ∀ regions, listed = some regions →
      regions.length < 2 ^ 32 ∧ ∀ r ∈ regions, r.Fits)
    : Decodes regionList (regionsReply listed) (listed.filter (· ≠ [])) := by
  cases listed with
  | none =>
      have few : ([] : List RegionInfo).length < 2 ^ 32 := by decide
      have list := decodes_regionList few (fun _ member => nomatch member)
      simpa [regionsReply] using list
  | some regions =>
      obtain ⟨few, each⟩ := fits regions rfl
      have list := decodes_regionList few each
      simpa [Option.filter, regionsReply] using list

theorem filter_eq_self_iff {listed : Option (List RegionInfo)}
    : listed.filter (· ≠ []) = listed ↔ listed ≠ some [] := by
  cases listed <;> simp [Option.filter]

/-- The bytes of a reply are decoded to the values of `CApi` exactly when they have room for them.
-/
theorem decodes_replyBytes_iff {record tail : List UInt8} {state : σ} {case : CeCommand}
    (fits : ∀ call, ApiCall.ReplyFits call (answer call state).1) (queried : case.IsQueried record)
    : whole (replyDecoder case) (replyBytes answer record tail state case)
        = some (valuesOf answer record tail state case)
      ↔ case.IsConveyed answer record state := by
  cases case with
  | process32First =>
      exact iff_of_true ((decodes_processEntry (fits (.process32First _))).map _).whole trivial
  | process32Next =>
      exact iff_of_true ((decodes_processEntry (fits (.process32Next _))).map _).whole trivial
  | module32First =>
      exact iff_of_true ((decodes_moduleEntry (fits (.module32First _))).map _).whole trivial
  | module32Next =>
      exact iff_of_true ((decodes_moduleEntry (fits (.module32Next _))).map _).whole trivial
  | openProcess =>
      exact iff_of_true ((decodes_intWord (fits (.openProcess _))).map _).whole trivial
  | readProcessMemory =>
      obtain ⟨read, natural, short, whole⟩ := fits (.readProcessMemory _ _ _)
      exact iff_of_true (decodes_readReply read natural short whole).whole trivial
  | writeProcessMemory =>
      refine iff_of_true ?_ trivial
      dsimp only [replyBytes, valuesOf]
      split
      · exact ((decodes_intWord (fits (.writeProcessMemory _ _ _))).map _).whole
      · exact ((decodes_intWord isInt_zero).map _).whole
  | virtualQueryEx =>
      obtain ⟨low, high, rinfo, _⟩ := fits (.virtualQueryEx _ _)
      exact iff_of_true ((decodes_queryWords low high rinfo).map _).whole trivial
  | getRegionInfo =>
      obtain ⟨low, high, rinfo, _⟩ :=
        fits (.virtualQueryEx (intAt record 0) (wordAt record 4 8))
      have decodes := decodes_namedReply low high rinfo
      refine decodes.whole_iff.trans (Iff.trans ?_ take_length_mod_eq_iff)
      exact ⟨fun same => (Values.namedRegion.inj same).2.2, congrArg _⟩
  | virtualQueryExFull =>
      have decodes := decodes_regionsReply
        (fits (.virtualQueryExFull (intAt record 0) (wordAt record 4 1)))
      refine (decodes.map Values.regions).whole_iff.trans (Iff.trans ?_ filter_eq_self_iff)
      exact ⟨fun same => Values.regions.inj same, congrArg _⟩
  | _ => exact queried.elim

end Conveying

/-- In every state, the bytes sent for a request are one reply to it, and a client that reads them
by the records and the lengths in them has the values of `CApi` and nothing left over.
-/
def RepliesDecode (answer : (call : ApiCall) → σ → call.Reply × σ) : Prop :=
  ∀ (r : Request) (case : CeCommand) (x : Exchange σ) behind,
    CeCommand.ofByte r.command = some case → case.IsQueried r.record →
    x.connection.At (r.operands ++ behind) →
    (∀ call, ApiCall.ReplyFits call (answer call x.connection.state).1) →
    ∃ x' reply, run (Exchange.handle answer) (dispatchCommand r.command) x = .ok ((), x')
      ∧ x'.sent = x.sent ++ reply
      ∧ whole (replyDecoder case) reply
        = some (valuesOf answer r.record r.tail x.connection.state case)

/-- In every state, every request is answered with one reply behind its operands. It is decoded to
the values of `CApi` with nothing left over exactly when it has room for them.
-/
theorem replyDecodes_iff_isConveyed (answer : (call : ApiCall) → σ → call.Reply × σ) (r : Request)
    {case : CeCommand} (selects : CeCommand.ofByte r.command = some case)
    (queried : case.IsQueried r.record) (x : Exchange σ) (behind : List UInt8)
    (here : x.connection.At (r.operands ++ behind))
    (fits : ∀ call, ApiCall.ReplyFits call (answer call x.connection.state).1)
    : ∃ x' reply, run (Exchange.handle answer) (dispatchCommand r.command) x = .ok ((), x')
        ∧ x'.connection.At behind
        ∧ x'.sent = x.sent ++ reply
        ∧ (whole (replyDecoder case) reply
            = some (valuesOf answer r.record r.tail x.connection.state case)
          ↔ case.IsConveyed answer r.record x.connection.state) := by
  have long := r.record_length
  have tail := r.tail_length
  rw [selects] at long tail
  have dispatched : dispatchCommand r.command = handlerOf case := by
    rw [dispatchCommand, selects]
  obtain ⟨x', ran, there, sent⟩ := replies_handlerOf queried long tail x behind here
  rw [dispatched]
  exact ⟨x', _, ran, there, sent, decodes_replyBytes_iff fits queried⟩

/-- A server on which every address is in one region of this name. -/
def oneRegion (name : List UInt8) : (call : ApiCall) → Unit → call.Reply × Unit
  | .virtualQueryEx _ _, s => (⟨1, ⟨4096, 4096, 2, 131072⟩, name⟩, s)
  | other, s => failAll other s

theorem replyFits_oneRegion {name : List UInt8} (short : name.length ≤ 511) (call : ApiCall)
    : ApiCall.ReplyFits call (oneRegion name call ()).1 := by
  cases call with
  | openProcess pid => exact isInt_zero
  | writeProcessMemory hProcess address buffer => exact isInt_zero
  | virtualQueryEx hProcess address =>
      have rinfo : RegionInfo.Fits ⟨4096, 4096, 2, 131072⟩ :=
        ⟨by decide, by decide, by decide, by decide⟩
      exact ⟨Int.one_nonneg, Int.le_refl 1, rinfo, short⟩
  | readProcessMemory hProcess address size =>
      exact ⟨isInt_zero, Int.le_refl 0, Int.natCast_nonneg size, List.length_replicate⟩
  | process32First _ => exact fun _ found => nomatch found
  | process32Next _ => exact fun _ found => nomatch found
  | module32First _ => exact fun _ found => nomatch found
  | module32Next _ => exact fun _ found => nomatch found
  | virtualQueryExFull _ _ => exact fun _ found => nomatch found
  | _ => exact trivial

/-- `CMD_GETREGIONINFO` of the address 4096 in the process with the handle 1. -/
def getRegionOne : Request where
  command := 32
  record := [1, 0, 0, 0, 0, 16, 0, 0, 0, 0, 0, 0]
  tail := []
  record_length := rfl
  tail_length := by decide

def regionAsked : Exchange Unit := ⟨⟨[getRegionOne.operands], false, ()⟩, []⟩

theorem replyDecodes_iff_isConveyed_shortName
    : ∃ x' reply, run (Exchange.handle (oneRegion [108, 105, 98])) (dispatchCommand 32) regionAsked
          = .ok ((), x')
        ∧ x'.connection.At []
        ∧ x'.sent = [] ++ reply
        ∧ (whole (replyDecoder .getRegionInfo) reply
            = some (valuesOf (oneRegion [108, 105, 98]) getRegionOne.record [] () .getRegionInfo)
          ↔ CeCommand.IsConveyed (oneRegion [108, 105, 98]) getRegionOne.record () .getRegionInfo) :=
  replyDecodes_iff_isConveyed (oneRegion [108, 105, 98]) getRegionOne
    (CeCommand.ofByte_code .getRegionInfo) trivial regionAsked [] ⟨rfl, rfl⟩
    (replyFits_oneRegion (by decide))

def longName : List UInt8 := List.replicate 256 97

/-- A name of 256 bytes is sent as no name: its length is 0 in one byte. -/
theorem not_repliesDecode : ¬RepliesDecode (oneRegion longName) := by
  intro decode
  have length : longName.length = 256 := List.length_replicate
  have fits := replyFits_oneRegion (by rw [length]; decide : longName.length ≤ 511)
  have here : regionAsked.connection.At (getRegionOne.operands ++ []) := ⟨rfl, rfl⟩
  have selects : CeCommand.ofByte getRegionOne.command = some .getRegionInfo :=
    CeCommand.ofByte_code .getRegionInfo
  have queried : CeCommand.IsQueried getRegionOne.record .getRegionInfo := trivial
  obtain ⟨x', reply, ran, sent, decoded⟩ :=
    decode getRegionOne .getRegionInfo regionAsked [] selects queried here fits
  obtain ⟨y, ran', -, sent'⟩ := replies_handlerOf queried getRegionOne.record_length
    getRegionOne.tail_length regionAsked [] here
  cases ran.symm.trans ran'
  rw [List.append_cancel_left (sent.symm.trans sent')] at decoded
  have conveyed : longName.length < 2 ^ 8 := (decodes_replyBytes_iff fits queried).mp decoded
  omega

end RwMem.CeServer
