import RwMem.CeServer.Sockets

/-! Each connection thread owns the number of its socket until it closes it, unless a command makes
`DispatchCommand` close the socket and return to the loop.
-/

namespace RwMem.CeServer

open Transition Transition.Program

/-- The answers of `recvall` in a turn, and whether the turn has closed the socket. -/
structure Lifeline where
  inputs : List (Option (List UInt8))
  closed : Bool

/-- Forbids every call on the socket behind its `close`. -/
def lifelineMonitor : Monitor ServerCall ServerCall.Reply Lifeline where
  allows m request :=
    match request with
    | .recvall _ => m.closed = false
    | .sendall _ => m.closed = false
    | .close => m.closed = false
    | _ => True
  after m request :=
    match request with
    | .recvall _ => fun (reply : Option (List UInt8)) => { m with inputs := m.inputs ++ [reply] }
    | .close => fun _ => { m with closed := true }
    | _ => fun _ => m

/-- A handler that closed the socket had the inputs for it. -/
def Settled (m : Lifeline) (_ : Unit) : Prop :=
  m.closed = true → ClosesAndReturns m.inputs = true

/-- Between two turns the socket is open, unless the handler closed it and returned. -/
def TurnEnds (m : Lifeline) (more : Bool) : Prop :=
  if more = true then Settled m () else m.closed = true

/-- Replies leave the inputs and the socket as they are. -/
theorem OnlyReplies.settled {p : Handler} (replies : OnlyReplies p)
    (inputs : List (Option (List UInt8)))
    : Safe lifelineMonitor Settled ⟨inputs, false⟩ p := by
  have allowed : ∀ (_ : Unit) (m : Lifeline) request, m = ⟨inputs, false⟩
      → replyMonitor.allows () request → lifelineMonitor.allows m request := by
    intro _ m request same isReply
    subst same
    cases request with
    | sendall bytes => rfl
    | api call => trivial
    | _ => exact isReply.elim
  refine Safe.transport replies rfl allowed ?_ ?_
  · intro _ m request reply same isReply
    subst same
    cases request with
    | sendall bytes => rfl
    | api call => rfl
    | _ => exact isReply.elim
  · intro _ m _ same _ closed
    subst same
    exact absurd closed Bool.false_ne_true

theorem settled_readOrSkip {size : Int} {body : List UInt8 → Handler}
    {inputs : List (Option (List UInt8))}
    (served : ∀ operand,
      Safe lifelineMonitor Settled ⟨inputs ++ [some operand], false⟩ (body operand))
    : Safe lifelineMonitor Settled ⟨inputs, false⟩ (readOrSkip size body) := by
  refine .call rfl (fun reply => ?_)
  cases reply with
  | some operand => exact served operand
  | none => exact .ret (fun closed => absurd closed Bool.false_ne_true)

theorem settled_readOrClose {size : Int} {body : List UInt8 → Handler}
    {inputs : List (Option (List UInt8))}
    (served : ∀ operand,
      Safe lifelineMonitor Settled ⟨inputs ++ [some operand], false⟩ (body operand))
    (closes : ClosesAndReturns (inputs ++ [none]) = true)
    : Safe lifelineMonitor Settled ⟨inputs, false⟩ (readOrClose size body) := by
  refine .call rfl (fun reply => ?_)
  cases reply with
  | some operand => exact served operand
  | none => exact .call rfl (fun _ => .ret (fun _ => closes))

theorem RepliesTo.settled_skip {size : Int} {p : Handler} (answers : RepliesTo readOrSkip size p)
    (inputs : List (Option (List UInt8)))
    : Safe lifelineMonitor Settled ⟨inputs, false⟩ p := by
  obtain ⟨body, rfl, replies⟩ := answers
  exact settled_readOrSkip (fun operand => (replies operand).settled _)

theorem RepliesTo.settled_close {size : Int} {p : Handler}
    (answers : RepliesTo readOrClose size p) {inputs : List (Option (List UInt8))}
    (closes : ClosesAndReturns (inputs ++ [none]) = true)
    : Safe lifelineMonitor Settled ⟨inputs, false⟩ p := by
  obtain ⟨body, rfl, replies⟩ := answers
  exact settled_readOrClose (fun operand => (replies operand).settled _) closes

theorem settled_getArchitecture (inputs : List (Option (List UInt8)))
    : Safe lifelineMonitor Settled ⟨inputs, false⟩ getArchitecture :=
  .call rfl (fun _ => (onlyReplies_sendall [3]).settled _)

theorem settled_writeProcessMemory (inputs : List (Option (List UInt8)))
    : Safe lifelineMonitor Settled ⟨inputs, false⟩ writeProcessMemory := by
  refine settled_readOrSkip (fun c => Safe.ite (fun _ => ?_) (fun _ => ?_))
  · refine settled_readOrSkip (fun buf => ?_)
    exact ((onlyReplies_api _).bind (fun _ => onlyReplies_sendall _)).settled _
  · exact (onlyReplies_sendall _).settled _

theorem settled_readProcessMemory (inputs : List (Option (List UInt8)))
    : Safe lifelineMonitor Settled ⟨inputs, false⟩ readProcessMemory := by
  refine settled_readOrSkip (fun c => .call trivial (fun o => ?_))
  refine Safe.ite (fun _ => Safe.ite (fun _ => ?_) (fun _ => ?_)) (fun _ => ?_)
  · exact (onlyReplies_sendCompressed _ o).settled _
  · exact .call trivial (fun never => nomatch never)
  · exact (onlyReplies_sendall _).settled _

theorem settled_aobScan (inputs : List (Option (List UInt8)))
    : Safe lifelineMonitor Settled ⟨inputs, false⟩ aobScan := by
  refine settled_readOrSkip (fun c => Safe.ite (fun _ => ?_) (fun _ => ?_))
  · refine settled_readOrSkip (fun _ => ?_)
    exact ((onlyReplies_sendall _).bind (fun _ => onlyReplies_sendall _)).settled _
  · exact .call trivial (fun never => nomatch never)

theorem settled_getSymbolListFromFile {command : List UInt8}
    (selected : CeCommand.ofByte (command.headD 0) = some .getSymbolListFromFile)
    : Safe lifelineMonitor Settled ⟨[some command], false⟩ getSymbolListFromFile := by
  refine settled_readOrSkip (fun c => Safe.ite (fun _ => ?_) (fun _ => ?_))
  · exact .call trivial (fun never => nomatch never)
  · refine settled_readOrClose (fun _ => (onlyReplies_sendall _).settled _) ?_
    rw [List.singleton_append, List.cons_append, ClosesAndReturns, selected]
    rfl

theorem settled_closeConnection {command : List UInt8}
    (selected : CeCommand.ofByte (command.headD 0) = some .closeConnection)
    : Safe lifelineMonitor Settled ⟨[some command], false⟩ closeConnection := by
  refine .call rfl (fun _ => .ret (fun _ => ?_))
  change ClosesAndReturns [some command] = true
  rw [ClosesAndReturns, selected]

theorem settled_terminateServer (inputs : List (Option (List UInt8)))
    : Safe lifelineMonitor Settled ⟨inputs, false⟩ terminateServer :=
  .call rfl (fun _ => .call trivial (fun never => nomatch never))

/-- Every case of the switch closes the socket only with the inputs for it, and does nothing
with the socket behind that.
-/
theorem settled_dispatchCommand (command : List UInt8)
    : Safe lifelineMonitor Settled ⟨[some command], false⟩
        (dispatchCommand (command.headD 0)) := by
  rw [dispatchCommand]
  cases selected : CeCommand.ofByte (command.headD 0) with
  | none => exact (onlyReplies_ret ()).settled _
  | some case =>
      have closing {p : Handler} {size : Int} (answers : RepliesTo readOrClose size p)
          (listed : ClosesAndReturns [some command, none] = true)
          : Safe lifelineMonitor Settled ⟨[some command], false⟩ p :=
        answers.settled_close listed
      cases case with
      | getArchitecture => exact settled_getArchitecture _
      | closeConnection => exact settled_closeConnection selected
      | terminateServer => exact settled_terminateServer _
      | closeHandle => exact closing repliesTo_closeHandle (by rw [ClosesAndReturns, selected]; rfl)
      | createToolhelp32Snapshot =>
          exact closing repliesTo_createToolhelp32Snapshot (by rw [ClosesAndReturns, selected]; rfl)
      | openProcess => exact closing repliesTo_openProcess (by rw [ClosesAndReturns, selected]; rfl)
      | createToolhelp32SnapshotEx =>
          exact closing repliesTo_createToolhelp32SnapshotEx
            (by rw [ClosesAndReturns, selected]; rfl)
      | process32First => exact repliesTo_process32First.settled_skip _
      | process32Next => exact repliesTo_process32Next.settled_skip _
      | module32First => exact repliesTo_module32First.settled_skip _
      | module32Next => exact repliesTo_module32Next.settled_skip _
      | readProcessMemory => exact settled_readProcessMemory _
      | writeProcessMemory => exact settled_writeProcessMemory _
      | virtualQueryExFull => exact repliesTo_virtualQueryExFull.settled_skip _
      | getRegionInfo => exact repliesTo_getRegionInfo.settled_skip _
      | virtualQueryEx => exact repliesTo_virtualQueryEx.settled_skip _
      | getSymbolListFromFile => exact settled_getSymbolListFromFile selected
      | aobScan => exact settled_aobScan _
      | getVersion => exact (onlyReplies_sendall _).settled _
      | getOptions => exact (onlyReplies_sendall _).settled _
      | getAbi => exact (onlyReplies_sendall _).settled _
      | isAndroid => exact (onlyReplies_sendall _).settled _
      | startDebug | waitForDebugEvent | continueFromDebugEvent | setBreakpoint
      | removeBreakpoint | getThreadContext | setThreadContext | suspendThread | resumeThread
      | loadExtension | alloc | free | createThread | loadModule | speedhackSetSpeed =>
          exact (onlyReplies_ret ()).settled _

/-- A turn of the loop closes the socket at most once and does nothing with it afterwards. -/
theorem safe_newConnectionTurn
    : Safe lifelineMonitor TurnEnds ⟨[], false⟩ newConnectionTurn := by
  refine .call rfl (fun reply => ?_)
  cases reply with
  | some command =>
      exact ((settled_dispatchCommand command).mono (fun _ _ settled => .ret settled)).bind
  | none => exact .call rfl (fun _ => .ret rfl)

/-- What is left of the thread respects its socket, which it has closed or not. -/
def Thread.Kept (closed : Bool) (t : Thread) : Prop :=
  match t.program with
  | none => closed = true
  | some p => Safe lifelineMonitor TurnEnds ⟨t.inputs, closed⟩ p

theorem kept_initial (number : Nat) : (Thread.initial number).Kept false :=
  safe_newConnectionTurn

/-- A thread at a `recvall` goes on with that, or behind it with some reply. -/
theorem Thread.next_of_recvall {t t' : Thread} {isOpen : Bool} {event : Event} {size : Int}
    {next : Option (List UInt8) → Program ServerCall ServerCall.Reply Bool}
    (front : t.program = some (.call (.recvall size) next))
    (taken : t.next isOpen event = some t')
    : event.op ≠ some .close
      ∧ t'.socket = t.socket
      ∧ (t'.program = t.program ∧ t'.inputs = t.inputs
        ∨ ∃ reply, t'.program = some (next reply) ∧ t'.inputs = t.inputs ++ [reply]) := by
  obtain ⟨socket, inputs, program, received, sent⟩ := t
  cases front
  cases event with
  | recv result =>
      refine ⟨fun closes => by simp [Event.op] at closes, ?_⟩
      simp only [Thread.next] at taken
      split at taken
      · split at taken
        · cases taken
          exact ⟨rfl, Or.inl ⟨rfl, rfl⟩⟩
        · cases taken
          exact ⟨rfl, Or.inr ⟨none, rfl, rfl⟩⟩
      · cases taken
  | proceed =>
      refine ⟨fun closes => by simp [Event.op] at closes, ?_⟩
      simp only [Thread.next] at taken
      split at taken
      · cases taken
        exact ⟨rfl, Or.inr ⟨_, rfl, rfl⟩⟩
      · cases taken
  | _ => cases taken

/-- A thread at a `sendall` goes on with that, or behind it. -/
theorem Thread.next_of_sendall {t t' : Thread} {isOpen : Bool} {event : Event} {bytes : List UInt8}
    {next : Unit → Program ServerCall ServerCall.Reply Bool}
    (front : t.program = some (.call (.sendall bytes) next))
    (taken : t.next isOpen event = some t')
    : event.op ≠ some .close
      ∧ t'.socket = t.socket
      ∧ t'.inputs = t.inputs
      ∧ (t'.program = t.program ∨ t'.program = some (next ())) := by
  obtain ⟨socket, inputs, program, received, sent⟩ := t
  cases front
  cases event with
  | send result =>
      refine ⟨fun closes => by simp [Event.op] at closes, ?_⟩
      simp only [Thread.next] at taken
      split at taken
      · split at taken
        · cases taken
          exact ⟨rfl, rfl, Or.inl rfl⟩
        · cases taken
          exact ⟨rfl, rfl, Or.inr rfl⟩
      · cases taken
  | proceed =>
      refine ⟨fun closes => by simp [Event.op] at closes, ?_⟩
      simp only [Thread.next] at taken
      split at taken
      · cases taken
        exact ⟨rfl, rfl, Or.inr rfl⟩
      · cases taken
  | _ => cases taken

theorem Thread.kept_of_program {closed : Bool} {t : Thread}
    {p : Program ServerCall ServerCall.Reply Bool} (front : t.program = some p)
    : t.Kept closed ↔ Safe lifelineMonitor TurnEnds ⟨t.inputs, closed⟩ p := by
  rw [Thread.Kept, front]

/-- An event keeps what is left of the thread. Only a thread whose socket is open calls
anything on it. The cases are the calls at the front of the turn.
-/
theorem Thread.Kept.next {closed isOpen : Bool} {t t' : Thread} {event : Event}
    (kept : t.Kept closed) (stays : ClosesAndReturns t.inputs = false)
    (taken : t.next isOpen event = some t')
    : (∀ op, event.op = some op → closed = false)
      ∧ t'.Kept (closed || decide (event.op = some .close))
      ∧ t'.socket = t.socket := by
  cases front : t.program with
  | none => exact absurd taken (by simp [Thread.next, front])
  | some p =>
      have safe := (Thread.kept_of_program front).mp kept
      cases p with
      | ret more =>
          have ends : TurnEnds ⟨t.inputs, closed⟩ more := Safe.of_ret safe
          rw [Thread.next, front] at taken
          cases event with
          | proceed =>
              cases taken
              refine ⟨fun op made => by simp [Event.op] at made, ?_, rfl⟩
              cases more with
              | true =>
                  have opened : closed = false := by
                    cases closed with
                    | false => rfl
                    | true => exact absurd (ends rfl) (by simp [stays])
                  subst opened
                  exact safe_newConnectionTurn
              | false => exact Bool.or_eq_true_iff.mpr (Or.inl ends)
          | _ => cases taken
      | call request next =>
          obtain ⟨allowed, rest⟩ := Safe.of_call safe
          cases request with
          | recvall size =>
              have opened : closed = false := allowed
              subst opened
              obtain ⟨open_, socket, moved⟩ := Thread.next_of_recvall front taken
              rw [decide_eq_false open_]
              refine ⟨fun _ _ => rfl, ?_, socket⟩
              rcases moved with ⟨program, inputs⟩ | ⟨reply, program, inputs⟩
              · rw [Thread.kept_of_program (program.trans front), inputs]
                exact safe
              · rw [Thread.kept_of_program program, inputs]
                exact rest reply
          | sendall bytes =>
              have opened : closed = false := allowed
              subst opened
              obtain ⟨open_, socket, inputs, moved⟩ := Thread.next_of_sendall front taken
              rw [decide_eq_false open_]
              refine ⟨fun _ _ => rfl, ?_, socket⟩
              rcases moved with program | program
              · rw [Thread.kept_of_program (program.trans front), inputs]
                exact safe
              · rw [Thread.kept_of_program program, inputs]
                exact rest ()
          | close =>
              have opened : closed = false := allowed
              subst opened
              rw [Thread.next, front] at taken
              cases event with
              | close =>
                  cases taken
                  exact ⟨fun _ _ => rfl, rest (), rfl⟩
              | _ => cases taken
          | exit => exact absurd taken (by simp [Thread.next, front])
          | undefined => exact absurd taken (by simp [Thread.next, front])
          | api request =>
              rw [Thread.next, front] at taken
              cases event with
              | answer answers =>
                  cases taken
                  refine ⟨fun op made => by simp [Event.op] at made, ?_, rfl⟩
                  rw [show (closed || decide ((Event.answer answers).op = some .close)) = closed
                    from Bool.or_false closed]
                  exact rest (answers request)
              | _ => cases taken

/-- Thread `i` has closed its socket once, or its number stands for its own connection. -/
def State.Holds (s : State) (i : Nat) (t : Thread) (closed : Bool) : Prop :=
  if closed = true then s.closes i = 1
  else s.closes i = 0 ∧ s.fds t.socket = some (.connection i)

/-- Every thread respects its socket and holds it as long as it uses it. -/
structure Owned (s : State) : Prop where
  kept : ∀ i t, s.threads[i]? = some t → ∃ closed, t.Kept closed ∧ s.Holds i t closed
  known : ∀ u ∈ s.log, u.thread < s.threads.length
  own : ∀ u ∈ s.log, u.target = some (.connection u.thread)
  silent : ∀ before u after,
    s.log = before ++ u :: after → u.op = .close → ∀ v ∈ after, v.thread ≠ u.thread

theorem owned_initial : Owned State.initial where
  kept _ _ present := by simp [State.initial] at present
  known _ member := by simp [State.initial] at member
  own _ member := by simp [State.initial] at member
  silent _ _ _ split := by simp [State.initial] at split

/-- A table that leaves the connections where they are leaves the owners. -/
theorem Owned.refill {s : State} (owned : Owned s) {fds : Nat → Option Descriptor}
    (same : ∀ n i, s.fds n = some (.connection i) → fds n = some (.connection i))
    : Owned { s with fds := fds } := by
  refine ⟨fun i t present => ?_, owned.known, owned.own, owned.silent⟩
  obtain ⟨closed, kept, holds⟩ := owned.kept i t present
  refine ⟨closed, kept, ?_⟩
  cases closed with
  | true => exact holds
  | false => exact ⟨holds.1, same _ _ holds.2⟩

theorem closes_eq_zero {s : State} {i : Nat} (unknown : ∀ u ∈ s.log, u.thread ≠ i)
    : s.closes i = 0 := by
  rw [State.closes, List.length_eq_zero_iff, List.filter_eq_nil_iff]
  intro u member
  simp [unknown u member]

/-- A thread that has not closed its number has no `close` in the log. -/
theorem op_ne_close_of_closes {s : State} {u : SocketUse} (none : s.closes u.thread = 0)
    (member : u ∈ s.log)
    : u.op ≠ .close := by
  intro closing
  rw [State.closes, List.length_eq_zero_iff, List.filter_eq_nil_iff] at none
  exact none u member (by simp [closing])

/-- A number taken by `accept` was closed, so that no thread holds it. -/
theorem Owned.accept {s : State} (owned : Owned s) {number : Nat}
    (closed : s.fds number = none)
    : Owned { s with
        fds := Function.update s.fds number (some (.connection s.threads.length))
        threads := s.threads ++ [Thread.initial number] } := by
  refine ⟨fun i t present => ?_, fun u member => ?_, owned.own, owned.silent⟩
  · rcases Nat.lt_or_ge i s.threads.length with old | new
    · rw [List.getElem?_append_left old] at present
      obtain ⟨released, kept, holds⟩ := owned.kept i t present
      refine ⟨released, kept, ?_⟩
      cases released with
      | true => exact holds
      | false =>
          have apart : t.socket ≠ number := by
            intro same
            rw [← same, holds.2] at closed
            cases closed
          exact ⟨holds.1, (Function.update_of_ne apart _ _).trans holds.2⟩
    · have inside : i < (s.threads ++ [Thread.initial number]).length :=
        (List.getElem?_eq_some_iff.mp present).1
      rw [List.length_append, List.length_singleton] at inside
      obtain rfl : i = s.threads.length := by omega
      rw [List.getElem?_concat_length] at present
      cases present
      refine ⟨false, kept_initial number, closes_eq_zero (fun u member => ?_), ?_⟩
      · exact Nat.ne_of_lt (owned.known u member)
      · exact Function.update_self _ _ _
  · exact Nat.lt_of_lt_of_le (owned.known u member) (by simp)

/-- What a thread has closed after an event of thread `i`. -/
theorem closes_logAfter (s : State) (i j : Nat) (t : Thread) (event : Event)
    : ((s.logAfter i t event).filter (fun u => u.thread = j ∧ u.op = .close)).length
      = s.closes j + if i = j ∧ event.op = some .close then 1 else 0 := by
  rw [State.logAfter, List.filter_append, List.length_append, State.closes]
  congr 1
  cases made : event.op with
  | none => simp
  | some op => by_cases here : i = j <;> by_cases closing : op = .close <;> simp [here, closing]

/-- The thread of the event closes its number once, and holds it until then. -/
theorem State.Holds.event {s : State} {i : Nat} {t t' : Thread} {event : Event} {closed : Bool}
    {threads : List Thread} (holds : s.Holds i t closed)
    (opened : ∀ op, event.op = some op → closed = false) (socket : t'.socket = t.socket)
    : State.Holds
        { s with
          fds := s.fdsAfter t event
          threads := threads
          log := s.logAfter i t event }
        i t' (closed || decide (event.op = some .close)) := by
  have count := closes_logAfter s i i t event
  by_cases closing : event.op = some .close
  · rw [opened _ closing] at holds
    rw [holds.1] at count
    simpa [State.Holds, State.closes, closing] using count
  · have table : s.fdsAfter t event = s.fds := if_neg closing
    have same : s.closes i + (if i = i ∧ event.op = some .close then 1 else 0) = s.closes i := by
      simp [closing]
    rw [same] at count
    rw [decide_eq_false closing, Bool.or_false]
    cases closed with
    | true => exact count.trans holds
    | false =>
        refine ⟨count.trans holds.1, ?_⟩
        rw [socket]
        exact (congrFun table t.socket).trans holds.2

/-- Another thread neither closes nor loses its number. -/
theorem State.Holds.frame {s : State} {i j : Nat} {t r : Thread} {event : Event}
    {released : Bool} {threads : List Thread} (holds : s.Holds j r released) (other : i ≠ j)
    (user : ∀ op, event.op = some op → s.fds t.socket = some (.connection i))
    : State.Holds
        { s with
          fds := s.fdsAfter t event
          threads := threads
          log := s.logAfter i t event }
        j r released := by
  have count := closes_logAfter s i j t event
  rw [if_neg (fun both => other both.1), Nat.add_zero] at count
  cases released with
  | true => exact count.trans holds
  | false =>
      refine ⟨count.trans holds.1, ?_⟩
      by_cases closing : event.op = some .close
      · have apart : r.socket ≠ t.socket := by
          intro same
          have target := holds.2
          rw [same, user _ closing] at target
          cases target
          exact other rfl
        have table : s.fdsAfter t event = Function.update s.fds t.socket none := if_pos closing
        exact ((congrFun table r.socket).trans (Function.update_of_ne apart _ _)).trans holds.2
      · have table : s.fdsAfter t event = s.fds := if_neg closing
        rw [table]
        exact holds.2

/-- An event of a thread that holds its number while it uses it keeps the owners. The other
threads hold other numbers.
-/
theorem Owned.event {s : State} (owned : Owned s) {i : Nat} {t t' : Thread} {event : Event}
    (present : s.threads[i]? = some t) (stays : ClosesAndReturns t.inputs = false)
    (taken : t.next (s.fds t.socket).isSome event = some t')
    : Owned { s with
        fds := s.fdsAfter t event
        threads := s.threads.set i t'
        log := s.logAfter i t event } := by
  obtain ⟨closed, kept, holds⟩ := owned.kept i t present
  obtain ⟨opened, kept', socket⟩ := kept.next stays taken
  have inside : i < s.threads.length := (List.getElem?_eq_some_iff.mp present).1
  have used : ∀ u ∈ s.logAfter i t event,
      u ∈ s.log ∨ (u.thread = i ∧ u.target = some (.connection i) ∧ s.closes i = 0) := by
    intro u member
    rcases List.mem_append.mp member with old | new
    · exact Or.inl old
    · obtain ⟨op, made, rfl⟩ := List.mem_map.mp new
      have made' : event.op = some op := Option.mem_toList.mp made
      rw [opened op made'] at holds
      exact Or.inr ⟨rfl, holds.2, holds.1⟩
  refine ⟨fun j r found => ?_, fun u member => ?_, fun u member => ?_, ?_⟩
  · by_cases here : i = j
    · subst here
      rw [List.getElem?_set_self inside] at found
      cases found
      refine ⟨_, kept', ?_⟩
      exact holds.event opened socket
    · rw [List.getElem?_set_ne here] at found
      obtain ⟨released, keptOther, holdsOther⟩ := owned.kept j r found
      refine ⟨released, keptOther, ?_⟩
      refine holdsOther.frame here (fun op made => ?_)
      rw [opened op made] at holds
      exact holds.2
  · rw [List.length_set]
    rcases used u member with old | ⟨here, -⟩
    · exact owned.known u old
    · rwa [here]
  · rcases used u member with old | ⟨here, target, -⟩
    · exact owned.own u old
    · rwa [here]
  · intro before u after split closing v later
    cases made : event.op with
    | none =>
        have same : s.log = before ++ u :: after := by simpa [State.logAfter, made] using split
        exact owned.silent before u after same closing v later
    | some op =>
        rcases List.eq_nil_or_concat after with rfl | ⟨init, w, rfl⟩
        · cases later
        · simp only [State.logAfter, made, Option.toList_some, List.map_cons, List.map_nil,
            List.concat_eq_append, ← List.cons_append, ← List.append_assoc] at split
          obtain ⟨same, last⟩ := List.append_inj' split rfl
          cases last
          rw [List.concat_eq_append, List.mem_append, List.mem_singleton] at later
          rcases later with old | rfl
          · exact owned.silent before u init same closing v old
          · rw [opened op made] at holds
            intro here
            have none : s.closes u.thread = 0 := here ▸ holds.1
            exact op_ne_close_of_closes none (by simp [same]) closing

/-- No thread has received the inputs with which its handler closes the socket and returns. -/
def NoneDropped (s : State) (_ : Action) : Prop :=
  ∀ t ∈ s.threads, ClosesAndReturns t.inputs = false

instance (s : State) (a : Action) : Decidable (NoneDropped s a) :=
  inferInstanceAs (Decidable (∀ t ∈ s.threads, ClosesAndReturns t.inputs = false))

/-- A step keeps the owners as long as no handler has closed its socket and returned. -/
theorem Owned.next {s u : State} {a : Action} (owned : Owned s) (stays : NoneDropped s a)
    (taken : step s a = some u)
    : Owned u := by
  rw [step.eq_def] at taken
  split at taken
  · cases taken
  · cases a with
    | accept number =>
        obtain ⟨closed, same⟩ := Option.ite_none_right_eq_some.mp taken
        cases same
        exact owned.accept closed
    | openOther number =>
        obtain ⟨closed, same⟩ := Option.ite_none_right_eq_some.mp taken
        cases same
        refine owned.refill (fun n i here => ?_)
        have apart : n ≠ number := by
          intro same
          rw [← same, here] at closed
          cases closed
        exact (Function.update_of_ne apart _ _).trans here
    | closeOther number =>
        obtain ⟨other, same⟩ := Option.ite_none_right_eq_some.mp taken
        cases same
        refine owned.refill (fun n i here => ?_)
        have apart : n ≠ number := by
          intro same
          rw [← same, here] at other
          cases other
        exact (Function.update_of_ne apart _ _).trans here
    | thread i event =>
        obtain ⟨t, present, taken⟩ := Option.bind_eq_some_iff.mp taken
        obtain ⟨t', next, rfl⟩ := Option.map_eq_some_iff.mp taken
        exact owned.event present (stays t (List.mem_of_getElem? present)) next
    | endProcess i =>
        obtain ⟨-, same⟩ := Option.ite_none_right_eq_some.mp taken
        cases same
        exact ⟨owned.kept, owned.known, owned.own, owned.silent⟩

theorem Owned.respected {s : State} (owned : Owned s) : SocketsRespected s := by
  refine ⟨owned.own, fun i t present returned => ?_, owned.silent⟩
  obtain ⟨closed, kept, holds⟩ := owned.kept i t present
  rw [Thread.Kept, returned] at kept
  rwa [kept] at holds

/-- In every run in which no handler closes its socket and returns, whatever the threads
receive, send and are answered in any order with the calls of `accept`, each socket is closed
once by its own thread and not used afterwards.
-/
theorem sockets_respected (acts : List Action)
    (stays : Along step NoneDropped State.initial acts)
    : Throughout step SocketsRespected State.initial acts := by
  have owned : Throughout step Owned State.initial acts :=
    invariant NoneDropped owned_initial (fun _ _ _ owned stays taken => owned.next stays taken)
      stays
  intro before after t split reached
  exact (owned before after t split reached).respected

/-- A client asks for the ABI and disconnects; its number goes to the next connection. -/
def askAndLeave : List Action :=
  [.accept 5, .thread 0 (.recv (.received [33])), .thread 0 .proceed,
    .thread 0 (.send (.sent 1)), .thread 0 .proceed, .thread 0 .proceed,
    .thread 0 (.recv .ended), .thread 0 .close, .accept 5, .thread 0 .proceed,
    .thread 1 (.recv (.received [1]))]

theorem sockets_respected_askAndLeave
    : (exec step State.initial askAndLeave).isSome
      ∧ Throughout step SocketsRespected State.initial askAndLeave := by
  refine ⟨rfl, sockets_respected askAndLeave ?_⟩
  exact along_of_alongTest (fun s a passed => of_decide_eq_true passed)
    (show alongTest step (fun s a => decide (NoneDropped s a)) State.initial askAndLeave = true
      from rfl)

/-- A client asks to close its connection. The number goes to the next connection, and the first
thread, back in its loop, receives from it.
-/
def closeAndStay : List Action :=
  [.accept 5, .thread 0 (.recv (.received [1])), .thread 0 .proceed, .thread 0 .close,
    .thread 0 .proceed, .accept 5, .thread 0 (.recv (.received [7]))]

/-- The byte that the second client sent is consumed by the thread of the first one. -/
theorem not_sockets_respected
    : ¬∀ acts, Throughout step SocketsRespected State.initial acts := by
  intro always
  have own := (always closeAndStay closeAndStay [] _ rfl rfl).own
    ⟨0, .recv, some (.connection 1)⟩ (List.mem_of_getElem? (i := 2) rfl)
  exact absurd own (by decide)

end RwMem.CeServer
