import RwMem.CeServer.Stream

/-! Requests as `ceserver.h` declares them, and when the handlers take exactly the bytes of each. -/

namespace RwMem.CeServer

open Memory RwMem.Driver Transition Transition.Program

/-- The bytes of the record that a command is followed by: its packed structure in `ceserver.h`,
or the handle or length that has none.
-/
def CeCommand.recordSize : CeCommand → Nat
  | .getArchitecture => 4
  | .openProcess => 4
  | .closeHandle => 4
  | .process32First => 4
  | .process32Next => 4
  | .module32First => 4
  | .module32Next => 4
  | .getSymbolListFromFile => 4
  | .createToolhelp32Snapshot => 4 + 4
  | .createToolhelp32SnapshotEx => 4 + 4
  | .virtualQueryEx => 4 + 8
  | .getRegionInfo => 4 + 8
  | .virtualQueryExFull => 4 + 1
  | .readProcessMemory => 4 + 8 + 4 + 1
  | .writeProcessMemory => 4 + 8 + 4
  | .setBreakpoint => 4 + 4 + 4 + 8 + 4 + 4
  | .removeBreakpoint => 4 + 4 + 4 + 4
  | .suspendThread => 4 + 4
  | .resumeThread => 4 + 4
  | .alloc => 4 + 8 + 4 + 4
  | .free => 4 + 8 + 4
  | .createThread => 4 + 8 + 8
  | .loadModule => 4 + 4
  | .speedhackSetSpeed => 4 + 4
  | .aobScan => 4 + 8 + 8 + 4 + 4 + 4
  | _ => 0

/-- The bytes behind the record that its length field announces: the data to write, a path, or
a pattern with its mask.
-/
def CeCommand.tailSize (record : List UInt8) : CeCommand → Nat
  | .writeProcessMemory => (intAt record 12).toNat
  | .getSymbolListFromFile => wordAt record 0 4
  | .loadModule => wordAt record 4 4
  | .aobScan => (intAt record 28 * 2).toNat
  | _ => 0

/-- A request with the record and the tail that its command declares. -/
structure Request where
  command : UInt8
  record : List UInt8
  tail : List UInt8
  record_length : record.length = ((CeCommand.ofByte command).map CeCommand.recordSize).getD 0
  tail_length :
    tail.length = ((CeCommand.ofByte command).map (CeCommand.tailSize record)).getD 0

def Request.operands (r : Request) : List UInt8 := r.record ++ r.tail

/-- What a client sends for its requests. -/
def stream (requests : List Request) : List UInt8 :=
  requests.flatMap (fun r => r.command :: r.operands)

/-- A command passed to `DispatchCommand`, and how many bytes of the stream were behind it. -/
structure Dispatched where
  command : UInt8
  behind : Nat
deriving DecidableEq

/-- The commands of the requests, each with the bytes behind it. -/
def dispatches : List Request → List Dispatched
  | [] => []
  | r :: rest => ⟨r.command, r.operands.length + (stream rest).length⟩ :: dispatches rest

/-- How the loop of a connection thread ends. -/
inductive Ending where
  | returned
  | stopped (stop : Stop)
  | running
deriving DecidableEq

structure Served where
  log : List Dispatched
  ending : Ending
deriving DecidableEq

def Served.behind (entry : Dispatched) (served : Served) : Served :=
  { served with log := entry :: served.log }

variable {σ : Type} (answer : (call : ApiCall) → σ → call.Reply × σ)

/-- The first turns of the loop of `newConnectionThread`, with the commands that they dispatch. -/
def newConnectionThread : Nat → Connection σ → Served
  | 0, _ => ⟨[], .running⟩
  | turns + 1, c =>
      match run (Connection.handle answer) (recvall 1) c with
      | .error stop => ⟨[], .stopped stop⟩
      | .ok (none, _) => ⟨[], .returned⟩
      | .ok (some command, c) =>
          let entry := ⟨command.headD 0, c.packets.flatten.length⟩
          match run (Connection.handle answer) (dispatchCommand (command.headD 0)) c with
          | .error stop => ⟨[entry], .stopped stop⟩
          | .ok (_, c) => (newConnectionThread turns c).behind entry

/-- The commands dispatched are those of the requests, each read at its place in the stream, and
the thread has come to its end without undefined behaviour.
-/
structure Framed (requests : List Request) (served : Served) : Prop where
  log : served.log = dispatches requests
  ending : served.ending = .returned ∨ served.ending = .stopped .exited

/-- The handler takes the operands: the command is not one of those that declare a record and
print only that they are not supported, the length stays in the range of the buffer that is made
from it, and the library has the level of compression.
-/
def CeCommand.IsReadInFull (record : List UInt8) : CeCommand → Prop
  | .setBreakpoint => False
  | .removeBreakpoint => False
  | .suspendThread => False
  | .resumeThread => False
  | .alloc => False
  | .free => False
  | .createThread => False
  | .loadModule => False
  | .speedhackSetSpeed => False
  | .readProcessMemory => wordAt record 16 1 ≤ 9
  | .aobScan => -2 ^ 31 ≤ intAt record 28 * 2 ∧ intAt record 28 * 2 < 2 ^ 31
  | .getSymbolListFromFile => wordAt record 0 4 < 2 ^ 32 - 1
  | _ => True

/-- The handler closes the connection or ends the process. -/
def CeCommand.EndsConnection (record : List UInt8) : CeCommand → Prop
  | .closeConnection => True
  | .terminateServer => True
  | .getSymbolListFromFile => wordAt record 0 4 = 0
  | _ => False

def Request.IsReadInFull (r : Request) : Prop :=
  ∀ case, CeCommand.ofByte r.command = some case → case.IsReadInFull r.record

def Request.EndsConnection (r : Request) : Prop :=
  ∃ case, CeCommand.ofByte r.command = some case ∧ case.EndsConnection r.record

/-- The requests whose operands are taken, with only the last one ending the connection. -/
structure WellSent (requests : List Request) : Prop where
  inFull : ∀ r ∈ requests, r.IsReadInFull
  lastEnds : ∀ r ∈ requests.dropLast, ¬r.EndsConnection

variable {answer}

theorem RepliesTo.takes {take : Int → (List UInt8 → Handler) → Handler} {n : Nat} {size : Int}
    {p : Handler} {record tail : List UInt8} (answers : RepliesTo take size p)
    (reads : take = readOrSkip ∨ take = readOrClose) (same : size = n) (pos : 0 < n)
    (long : record.length = n) (nothing : tail.length = 0)
    : Consumes answer p (record ++ tail) := by
  rw [List.length_eq_zero_iff.mp nothing, List.append_nil]
  exact answers.consumes reads (by rw [long, same]) (List.ne_nil_of_length_pos (by omega))

/-- A handler without operands that only replies takes nothing. -/
theorem OnlyReplies.takes {p : Handler} {record tail : List UInt8} (replies : OnlyReplies p)
    (short : record.length = 0) (nothing : tail.length = 0)
    : Consumes answer p (record ++ tail) := by
  rw [List.length_eq_zero_iff.mp short, List.length_eq_zero_iff.mp nothing]
  exact replies.consumes

/-- A second read behind the record takes the tail, if there is one to take. -/
theorem consumes_tail {size : Int} {body : List UInt8 → Handler} {tail : List UInt8}
    (long : tail.length = size.toNat) (replies : OnlyReplies (body tail))
    : Consumes answer (readOrSkip size body) tail := by
  by_cases some_ : tail = []
  · subst some_
    have nothing : size ≤ 0 := Int.toNat_eq_zero.mp long.symm
    intro c behind here
    exact ⟨c, run_call (here.recvall_nonpos answer nothing), here⟩
  · have pos := List.length_pos_iff.mpr some_
    have asked : (tail.length : Int) = size := by omega
    have served : Consumes answer (body tail) [] := replies.consumes
    have taken := consumes_read (.inl rfl) asked some_ served
    rwa [List.append_nil] at taken

theorem consumes_getArchitecture {record tail : List UInt8} (long : record.length = 4)
    (nothing : tail.length = 0)
    : Consumes answer getArchitecture (record ++ tail) := by
  rw [List.length_eq_zero_iff.mp nothing, List.append_nil]
  intro c behind here
  obtain ⟨c', took, there⟩ := here.recvall answer (List.ne_nil_of_length_pos (by omega))
  obtain ⟨c'', ran, stays⟩ := (onlyReplies_sendall [3]).consumes c' behind there
  rw [long] at took
  exact ⟨c'', (run_call took).trans ran, stays⟩

theorem consumes_writeProcessMemory {record tail : List UInt8} (long : record.length = 16)
    (longTail : tail.length = (intAt record 12).toNat)
    : Consumes answer writeProcessMemory (record ++ tail) := by
  refine consumes_read (.inl rfl) (by rw [long]; rfl) (List.ne_nil_of_length_pos (by omega)) ?_
  refine Consumes.ite (fun _ => ?_) (fun zero => ?_)
  · refine consumes_tail longTail ?_
    exact (onlyReplies_api _).bind (fun _ => onlyReplies_sendall _)
  · rw [Classical.not_not.mp zero] at longTail
    rw [List.length_eq_zero_iff.mp longTail]
    exact (onlyReplies_sendall _).consumes

theorem consumes_readProcessMemory {record tail : List UInt8} (long : record.length = 17)
    (nothing : tail.length = 0) (level : wordAt record 16 1 ≤ 9)
    : Consumes answer readProcessMemory (record ++ tail) := by
  rw [List.length_eq_zero_iff.mp nothing]
  refine consumes_read (.inl rfl) (by rw [long]; rfl) (List.ne_nil_of_length_pos (by omega)) ?_
  refine OnlyReplies.consumes ((onlyReplies_api _).bind (fun o => ?_))
  rw [if_pos level]
  exact (onlyReplies_sendCompressed _ o).ite (onlyReplies_sendall _)

theorem consumes_aobScan {record tail : List UInt8} (long : record.length = 32)
    (longTail : tail.length = (intAt record 28 * 2).toNat)
    (inRange : -2 ^ 31 ≤ intAt record 28 * 2 ∧ intAt record 28 * 2 < 2 ^ 31)
    : Consumes answer aobScan (record ++ tail) := by
  refine consumes_read (.inl rfl) (by rw [long]; rfl) (List.ne_nil_of_length_pos (by omega)) ?_
  refine Consumes.ite (fun _ => ?_) (fun outside => absurd inRange outside)
  refine consumes_tail longTail ?_
  exact (onlyReplies_sendall _).bind (fun _ => onlyReplies_sendall _)

/-- The buffer for a path has room for it and its terminator unless the sum wraps. -/
theorem pathBuffer_le_iff {n : Nat} (fits : n < 2 ^ 32)
    : (n + 1) % 2 ^ 32 ≤ n ↔ ¬n < 2 ^ 32 - 1 := by
  omega

theorem consumes_getSymbolListFromFile {record tail : List UInt8} (long : record.length = 4)
    (longTail : tail.length = wordAt record 0 4) (inRange : wordAt record 0 4 < 2 ^ 32 - 1)
    (some_ : wordAt record 0 4 ≠ 0)
    : Consumes answer getSymbolListFromFile (record ++ tail) := by
  refine consumes_read (.inl rfl) (by rw [long]; rfl) (List.ne_nil_of_length_pos (by omega)) ?_
  refine Consumes.ite (fun wraps => ?_) (fun _ => ?_)
  · exact absurd inRange ((pathBuffer_le_iff (wordAt_lt record 0 4)).mp wraps)
  · have asked : (tail.length : Int) = wordAt record 0 4 := by rw [longTail]
    have served : Consumes answer (sendall (leBytes 8 0)) [] := (onlyReplies_sendall _).consumes
    have taken : Consumes answer
        (readOrClose (wordAt record 0 4) (fun _ => sendall (leBytes 8 0))) (tail ++ []) :=
      consumes_read (.inr rfl) asked (List.ne_nil_of_length_pos (by omega)) served
    rwa [List.append_nil] at taken

/-- A handler that reads in full and does not end the connection takes record and tail. -/
theorem consumes_handlerOf (case : CeCommand) {record tail : List UInt8}
    (long : record.length = case.recordSize) (longTail : tail.length = case.tailSize record)
    (full : case.IsReadInFull record) (stays : ¬case.EndsConnection record)
    : Consumes answer (handlerOf case) (record ++ tail) := by
  cases case with
  | getArchitecture => exact consumes_getArchitecture long longTail
  | closeHandle => exact repliesTo_closeHandle.takes (.inr rfl) rfl (by decide) long longTail
  | createToolhelp32Snapshot =>
      exact repliesTo_createToolhelp32Snapshot.takes (.inr rfl) rfl (by decide) long longTail
  | openProcess => exact repliesTo_openProcess.takes (.inr rfl) rfl (by decide) long longTail
  | createToolhelp32SnapshotEx =>
      exact repliesTo_createToolhelp32SnapshotEx.takes (.inr rfl) rfl (by decide) long longTail
  | process32First => exact repliesTo_process32First.takes (.inl rfl) rfl (by decide) long longTail
  | process32Next => exact repliesTo_process32Next.takes (.inl rfl) rfl (by decide) long longTail
  | module32First => exact repliesTo_module32First.takes (.inl rfl) rfl (by decide) long longTail
  | module32Next => exact repliesTo_module32Next.takes (.inl rfl) rfl (by decide) long longTail
  | readProcessMemory => exact consumes_readProcessMemory long longTail full
  | virtualQueryExFull =>
      exact repliesTo_virtualQueryExFull.takes (.inl rfl) rfl (by decide) long longTail
  | getRegionInfo => exact repliesTo_getRegionInfo.takes (.inl rfl) rfl (by decide) long longTail
  | virtualQueryEx => exact repliesTo_virtualQueryEx.takes (.inl rfl) rfl (by decide) long longTail
  | writeProcessMemory => exact consumes_writeProcessMemory long longTail
  | aobScan => exact consumes_aobScan long longTail full
  | getSymbolListFromFile => exact consumes_getSymbolListFromFile long longTail full stays
  | closeConnection | terminateServer => exact absurd trivial stays
  | getVersion | getOptions | getAbi | isAndroid =>
      exact (onlyReplies_sendall _).takes long longTail
  | startDebug | waitForDebugEvent | continueFromDebugEvent | getThreadContext
  | setThreadContext | loadExtension =>
      exact (onlyReplies_ret ()).takes long longTail
  | setBreakpoint | removeBreakpoint | suspendThread | resumeThread | alloc | free
  | createThread | loadModule | speedhackSetSpeed => exact full.elim

/-- A handler that ends the connection closes it, or ends the process. -/
theorem handlerOf_ends {case : CeCommand} {record tail behind : List UInt8}
    {c : Connection σ} (long : record.length = case.recordSize)
    (longTail : tail.length = case.tailSize record) (ends : case.EndsConnection record)
    (here : c.At (record ++ tail ++ behind))
    : (∃ c', run (Connection.handle answer) (handlerOf case) c = .ok ((), c')
        ∧ c'.closed = true)
      ∨ run (Connection.handle answer) (handlerOf case) c = .error .exited := by
  cases case with
  | closeConnection => exact Or.inl ⟨_, rfl, rfl⟩
  | terminateServer => exact Or.inr rfl
  | getSymbolListFromFile =>
      have empty : wordAt record 0 4 = 0 := ends
      have nothing : tail = [] := List.length_eq_zero_iff.mp (longTail.trans empty)
      rw [nothing, List.append_nil] at here
      obtain ⟨c', took, there⟩ := here.recvall answer (List.ne_nil_of_length_pos (by
        rw [long]
        decide))
      rw [long] at took
      left
      refine ⟨{ c' with closed := true }, ?_, rfl⟩
      have taken : Connection.handle answer (.recvall (wordAt record 0 4)) c' = .ok (none, c') := by
        rw [empty]
        exact there.recvall_nonpos answer (Int.le_refl 0)
      have bounded : ¬(wordAt record 0 4 + 1) % 2 ^ 32 ≤ wordAt record 0 4 := by
        rw [empty]
        decide
      exact (run_readOrSkip_neg took bounded).trans (run_call taken)
  | _ => exact ends.elim

/-- A handler that does not read in full leaves all operands, of which there are some, or has
no defined behaviour.
-/
theorem handlerOf_leaves {case : CeCommand} {record tail : List UInt8}
    (long : record.length = case.recordSize) (partly : ¬case.IsReadInFull record)
    : (record ≠ [] ∧ handlerOf case = notSupported)
      ∨ ∀ (c : Connection σ) behind, c.At (record ++ tail ++ behind) →
          run (Connection.handle answer) (handlerOf case) c = .error .undefined := by
  cases case with
  | setBreakpoint | removeBreakpoint | suspendThread | resumeThread | alloc | free
  | createThread | loadModule | speedhackSetSpeed =>
      exact Or.inl ⟨List.ne_nil_of_length_pos (by rw [long]; decide), rfl⟩
  | getSymbolListFromFile =>
      right
      intro c behind here
      rw [List.append_assoc] at here
      obtain ⟨c', took, _⟩ := here.recvall answer (List.ne_nil_of_length_pos (by
        rw [long]
        decide))
      rw [long] at took
      have wraps := (pathBuffer_le_iff (wordAt_lt record 0 4)).mpr partly
      exact run_readOrSkip_pos took wraps
  | readProcessMemory =>
      right
      intro c behind here
      have high : ¬wordAt record 16 1 ≤ 9 := partly
      rw [List.append_assoc] at here
      obtain ⟨c', took, _⟩ := here.recvall answer (List.ne_nil_of_length_pos (by
        rw [long]
        decide))
      rw [long] at took
      have stuck (o : ReadResult) (d : Connection σ)
          : run (Connection.handle answer)
              (if wordAt record 16 1 ≠ 0 then
                if wordAt record 16 1 ≤ 9 then sendCompressed (wordAt record 16 1) o
                else undefinedBehaviour
              else sendall ((intBytes o.read ++ o.buffer).take (4 + o.read).toNat)) d
            = .error .undefined := by
        rw [if_pos (by omega), if_neg high]
        rfl
      exact (run_call took).trans (stuck _ _)
  | aobScan =>
      right
      intro c behind here
      rw [List.append_assoc] at here
      obtain ⟨c', took, _⟩ := here.recvall answer (List.ne_nil_of_length_pos (by
        rw [long]
        decide))
      rw [long] at took
      exact run_readOrSkip_neg took partly
  | _ => exact absurd trivial partly

theorem Request.consumes {r : Request} (full : r.IsReadInFull) (stays : ¬r.EndsConnection)
    : Consumes answer (dispatchCommand r.command) r.operands := by
  obtain ⟨command, record, tail, long, longTail⟩ := r
  change Consumes answer (dispatchCommand command) (record ++ tail)
  rw [dispatchCommand]
  cases selected : CeCommand.ofByte command with
  | none =>
      rw [selected] at long longTail
      exact (onlyReplies_ret ()).takes long longTail
  | some case =>
      rw [selected] at long longTail
      exact consumes_handlerOf case long longTail (full case selected)
        (fun ends => stays ⟨case, selected, ends⟩)

theorem Request.ends {r : Request} (ending : r.EndsConnection) {c : Connection σ}
    {behind : List UInt8} (here : c.At (r.operands ++ behind))
    : (∃ c', run (Connection.handle answer) (dispatchCommand r.command) c = .ok ((), c')
        ∧ c'.closed = true)
      ∨ run (Connection.handle answer) (dispatchCommand r.command) c = .error .exited := by
  obtain ⟨command, record, tail, long, longTail⟩ := r
  obtain ⟨case, selected, ends⟩ := ending
  change CeCommand.ofByte command = some case at selected
  rw [selected] at long longTail
  change (∃ c', run _ (dispatchCommand command) c = _ ∧ _)
    ∨ run _ (dispatchCommand command) c = _
  rw [dispatchCommand, selected]
  exact handlerOf_ends long longTail ends here

theorem Request.leaves {r : Request} (partly : ¬r.IsReadInFull)
    : (r.operands ≠ [] ∧ dispatchCommand r.command = notSupported)
      ∨ ∀ (c : Connection σ) behind, c.At (r.operands ++ behind) →
          run (Connection.handle answer) (dispatchCommand r.command) c = .error .undefined := by
  obtain ⟨command, record, tail, long, longTail⟩ := r
  obtain ⟨case, partly⟩ := Classical.not_forall.mp partly
  obtain ⟨selected, partly⟩ := Classical.not_imp.mp partly
  change CeCommand.ofByte command = some case at selected
  rw [selected] at long
  change (record ++ tail ≠ [] ∧ dispatchCommand command = notSupported)
    ∨ ∀ (c : Connection σ) behind, c.At (record ++ tail ++ behind) →
        run _ (dispatchCommand command) c = _
  rw [dispatchCommand, selected]
  rcases handlerOf_leaves long partly with ⟨some_, prints⟩ | undefined
  · exact Or.inl ⟨fun empty => some_ (List.append_eq_nil_iff.mp empty).1, prints⟩
  · exact Or.inr undefined

/-- A thread whose connection is closed or has ended returns. -/
theorem newConnectionThread_ended {c : Connection σ} (turns : Nat)
    (ended : c.closed = true ∨ c.packets.flatten = [])
    : newConnectionThread answer (turns + 1) c = ⟨[], .returned⟩ := by
  obtain ⟨c', took⟩ := recvall_ended answer ended
  have ran : run (Connection.handle answer) (recvall 1) c = .ok (none, c') :=
    (run_call took).trans rfl
  rw [newConnectionThread, ran]

variable (answer) in
/-- The next byte of an open connection is dispatched with the bytes behind it. -/
theorem newConnectionThread_reads {c : Connection σ} {command : UInt8} {unread : List UInt8}
    (turns : Nat) (here : c.At (command :: unread))
    : ∃ c', c'.At unread
        ∧ (∀ stop, run (Connection.handle answer) (dispatchCommand command) c' = .error stop →
            newConnectionThread answer (turns + 1) c
              = ⟨[⟨command, unread.length⟩], .stopped stop⟩)
        ∧ ∀ c'', run (Connection.handle answer) (dispatchCommand command) c' = .ok ((), c'') →
            newConnectionThread answer (turns + 1) c
              = (newConnectionThread answer turns c'').behind ⟨command, unread.length⟩ := by
  have asked : c.At ([command] ++ unread) := here
  obtain ⟨c', took, there⟩ := asked.recvall answer (List.cons_ne_nil _ _)
  have ran : run (Connection.handle answer) (recvall 1) c = .ok (some [command], c') :=
    (run_call took).trans rfl
  refine ⟨c', there, fun stop stopped => ?_, fun c'' served => ?_⟩
  · rw [newConnectionThread, ran]
    simp only [List.headD_cons, stopped, there.bytes]
  · rw [newConnectionThread, ran]
    simp only [List.headD_cons, served, there.bytes]

variable (answer) in
/-- The first command dispatched is the next byte, whatever its handler does. -/
theorem head_newConnectionThread {c : Connection σ} {command : UInt8} {unread : List UInt8}
    (turns : Nat) (here : c.At (command :: unread))
    : (newConnectionThread answer (turns + 1) c).log.head?
      = some ⟨command, unread.length⟩ := by
  obtain ⟨c', -, stopped, served⟩ := newConnectionThread_reads answer turns here
  cases ran : run (Connection.handle answer) (dispatchCommand command) c' with
  | error stop => rw [stopped stop ran, List.head?_cons]
  | ok result => rw [served result.2 ran, Served.behind, List.head?_cons]

/-- The commands of the requests are read from within what is sent for them. -/
theorem head_dispatches_behind {requests : List Request} {entry : Dispatched}
    (first : (dispatches requests).head? = some entry)
    : entry.behind < (stream requests).length := by
  cases requests with
  | nil => cases first
  | cons r rest =>
      cases first
      simp [stream]

theorem stream_cons (r : Request) (rest : List Request)
    : stream (r :: rest) = r.command :: (r.operands ++ stream rest) := by
  simp [stream]

theorem wellSent_cons {r : Request} {rest : List Request}
    : WellSent (r :: rest)
      ↔ r.IsReadInFull ∧ (rest = [] ∨ ¬r.EndsConnection) ∧ WellSent rest := by
  cases rest with
  | nil =>
      constructor
      · intro sent
        exact ⟨sent.inFull r (by simp), Or.inl rfl, by simp, by simp⟩
      · intro sent
        exact ⟨by simpa using sent.1, by simp⟩
  | cons q more =>
      constructor
      · intro sent
        have here := sent.lastEnds r (by simp [List.dropLast])
        refine ⟨sent.inFull r (by simp), Or.inr here, ?_, ?_⟩
        · intro p member
          exact sent.inFull p (List.mem_cons_of_mem r member)
        · intro p member
          exact sent.lastEnds p (List.mem_cons_of_mem r member)
      · intro sent
        obtain ⟨full, stays, later⟩ := sent
        refine ⟨?_, ?_⟩
        · intro p member
          rcases List.mem_cons.mp member with rfl | inside
          · exact full
          · exact later.inFull p inside
        · intro p member
          rcases List.mem_cons.mp member with rfl | inside
          · exact stays.resolve_left (List.cons_ne_nil q more)
          · exact later.lastEnds p inside

theorem framed_cons {r : Request} {rest : List Request} {served : Served} {behind : Nat}
    (place : behind = r.operands.length + (stream rest).length)
    : Framed (r :: rest) (served.behind ⟨r.command, behind⟩) ↔ Framed rest served := by
  subst place
  constructor
  · intro framed
    exact ⟨(List.cons.inj framed.log).2, framed.ending⟩
  · intro framed
    exact ⟨congrArg _ framed.log, framed.ending⟩

/-- A thread that has ended has dispatched the commands of no requests. -/
theorem framed_nil_iff {rest : List Request} {ending : Ending}
    (fine : ending = .returned ∨ ending = .stopped .exited)
    : Framed rest ⟨[], ending⟩ ↔ rest = [] := by
  constructor
  · intro framed
    cases rest with
    | nil => rfl
    | cons r more => cases framed.log
  · intro none
    subst none
    exact ⟨rfl, fine⟩

/-- Operands that are left in the stream are dispatched, from further back than any command of
the requests behind them.
-/
theorem not_framed_of_operands {operands : List UInt8} {rest : List Request}
    {c : Connection σ} (turns : Nat) (some_ : operands ≠ [])
    (here : c.At (operands ++ stream rest))
    : ¬Framed rest (newConnectionThread answer (turns + 1) c) := by
  intro framed
  obtain ⟨byte, more, rfl⟩ := List.exists_cons_of_ne_nil some_
  have first := head_newConnectionThread answer turns here
  rw [framed.log] at first
  have close := head_dispatches_behind first
  simp at close

/-- From any point at which the unread stream is that of the requests, the commands dispatched
are theirs exactly if they are well sent. Induction on the requests: the first one is taken
whole, or it ends the loop, or its operands are read as commands.
-/
theorem framed_iff {requests : List Request} {c : Connection σ} {turns : Nat}
    (here : c.At (stream requests)) (enough : (stream requests).length < turns)
    : Framed requests (newConnectionThread answer turns c) ↔ WellSent requests := by
  induction requests generalizing c turns with
  | nil =>
      obtain ⟨turns, rfl⟩ := Nat.exists_eq_add_one_of_ne_zero (Nat.ne_zero_of_lt enough)
      rw [newConnectionThread_ended turns (Or.inr here.bytes), framed_nil_iff (Or.inl rfl)]
      exact ⟨fun _ => ⟨by simp, by simp⟩, fun _ => rfl⟩
  | cons r rest ih =>
      obtain ⟨turns, rfl⟩ := Nat.exists_eq_add_one_of_ne_zero (Nat.ne_zero_of_lt enough)
      rw [stream_cons] at here enough
      rw [List.length_cons, List.length_append] at enough
      obtain ⟨c', there, stopped, served⟩ := newConnectionThread_reads answer turns here
      have place : (r.operands ++ stream rest).length
          = r.operands.length + (stream rest).length := List.length_append
      obtain ⟨turns, rfl⟩ : ∃ n, turns = n + 1 :=
        Nat.exists_eq_add_one_of_ne_zero (by omega)
      rw [wellSent_cons]
      by_cases full : r.IsReadInFull
      · by_cases ends : r.EndsConnection
        · have only : (r.IsReadInFull ∧ (rest = [] ∨ ¬r.EndsConnection) ∧ WellSent rest)
              ↔ rest = [] := by
            simp only [full, ends, not_true, or_false, true_and]
            constructor
            · exact And.left
            · intro none
              subst none
              exact ⟨rfl, by simp, by simp⟩
          rw [only]
          rcases r.ends ends there with ⟨c'', ran, closed⟩ | exits
          · rw [served c'' ran, framed_cons place,
              newConnectionThread_ended turns (Or.inl closed), framed_nil_iff (Or.inl rfl)]
          · rw [stopped _ exits]
            have stop : Framed (r :: rest) (Served.behind _ ⟨[], .stopped .exited⟩) ↔ _ :=
              framed_cons place
            exact stop.trans (framed_nil_iff (Or.inr rfl))
        · obtain ⟨c'', ran, stays⟩ := Request.consumes full ends c' (stream rest) there
          rw [served c'' ran, framed_cons place, ih stays (by omega)]
          simp [full, ends]
      · refine iff_of_false ?_ (fun sent => full sent.1)
        rcases Request.leaves full with ⟨some_, prints⟩ | undefined
        · have ran : run (Connection.handle answer) (dispatchCommand r.command) c'
              = .ok ((), c') := by
            rw [prints]
            rfl
          rw [served c' ran, framed_cons place]
          exact not_framed_of_operands turns some_ there
        · rw [stopped _ (undefined c' (stream rest) there)]
          intro framed
          exact framed.ending.elim (fun same => by cases same) (fun same => by cases same)

/-- For all requests, however their bytes are cut into packets and whatever `CApi` answers from
whatever state: the commands that a connection thread dispatches are those of the requests, each
read at its place, exactly if every request is read in full and only the last one ends the
connection.
-/
theorem framed_iff_wellSent (answer : (call : ApiCall) → σ → call.Reply × σ) (state : σ)
    (requests : List Request) (packets : List (List UInt8))
    (cut : packets.flatten = stream requests) (turns : Nat)
    (enough : (stream requests).length < turns)
    : Framed requests (newConnectionThread answer turns ⟨packets, false, state⟩)
      ↔ WellSent requests :=
  framed_iff ⟨rfl, cut⟩ enough

/-- A server on which no process can be opened. -/
def failAll : (call : ApiCall) → Unit → call.Reply × Unit
  | .closeHandle _, s => ((), s)
  | .createToolhelp32Snapshot _ _, s => ((0 : Int), s)
  | .process32First _, s => (none, s)
  | .process32Next _, s => (none, s)
  | .module32First _, s => (none, s)
  | .module32Next _, s => (none, s)
  | .moduleEntries _, s => ([], s)
  | .threadList _, s => ([], s)
  | .openProcess _, s => ((0 : Int), s)
  | .readProcessMemory _ _ size, s => (⟨0, List.replicate size 0⟩, s)
  | .writeProcessMemory _ _ _, s => ((0 : Int), s)
  | .virtualQueryExFull _ _, s => (none, s)
  | .virtualQueryEx _ _, s => (⟨0, ⟨0, 0, 0, 0⟩, []⟩, s)
  | .deflate _ _, s => (⟨0, []⟩, s)
  | .uninitialized, s => (fun _ => 0, s)

/-- `CMD_OPENPROCESS` of process 1. -/
def openOne : Request where
  command := 3
  record := [1, 0, 0, 0]
  tail := []
  record_length := rfl
  tail_length := rfl

/-- `CMD_WRITEPROCESSMEMORY` of two bytes. -/
def writeTwo : Request where
  command := 10
  record := [0, 0, 0, 0] ++ [0, 16, 0, 0, 0, 0, 0, 0] ++ [2, 0, 0, 0]
  tail := [7, 7]
  record_length := rfl
  tail_length := by decide +kernel

theorem framed_iff_wellSent_openAndWrite
    : Framed [openOne, writeTwo]
        (newConnectionThread failAll 30 ⟨[[3, 1], [], [0, 0, 0, 10, 0, 0, 0, 0, 0, 16],
          [0, 0, 0, 0, 0, 0, 2, 0, 0, 0, 7], [7]], false, ()⟩)
      ↔ WellSent [openOne, writeTwo] :=
  framed_iff_wellSent failAll () [openOne, writeTwo]
    [[3, 1], [], [0, 0, 0, 10, 0, 0, 0, 0, 0, 16], [0, 0, 0, 0, 0, 0, 2, 0, 0, 0, 7], [7]] rfl 30
    (by decide)

/-- `CMD_SETBREAKPOINT`, with 2 for the handle of the process. -/
def setOne : Request where
  command := 15
  record := 2 :: List.replicate 27 0
  tail := []
  record_length := rfl
  tail_length := rfl

/-- The record of an unsupported command stays in the stream, and its first byte is executed as
`CMD_TERMINATESERVER`.
-/
theorem not_framed_setOne
    : newConnectionThread failAll 30 ⟨[stream [setOne]], false, ()⟩
        = ⟨[⟨15, 28⟩, ⟨2, 27⟩], .stopped .exited⟩
      ∧ ¬Framed [setOne] (newConnectionThread failAll 30 ⟨[stream [setOne]], false, ()⟩) := by
  have ran : newConnectionThread failAll 30 ⟨[stream [setOne]], false, ()⟩
      = ⟨[⟨15, 28⟩, ⟨2, 27⟩], .stopped .exited⟩ := rfl
  refine ⟨ran, fun framed => ?_⟩
  have log := framed.log
  rw [ran] at log
  exact absurd log (by decide)

end RwMem.CeServer
