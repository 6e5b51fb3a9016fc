import Mathlib.Logic.Function.Basic
import RwMem.CeServer.Connection
import RwMem.Transition.Runs

/-! The connection threads over the table of file descriptors, where `accept` may take any number
that is closed, and when a socket is used by the thread of its own connection only.
-/

namespace RwMem.CeServer

open Transition Transition.Program

/-- A result of `recv` for `left` bytes, on a number that is open or not. -/
def RecvResult.Fits (left : Int) (isOpen : Bool) : RecvResult → Prop
  | .received bytes => isOpen = true ∧ bytes ≠ [] ∧ bytes.length ≤ left
  | .ended => isOpen = true
  | .interrupted => isOpen = true
  | .failed => True

instance (left : Int) (isOpen : Bool) : DecidablePred (RecvResult.Fits left isOpen)
  | .received bytes =>
      inferInstanceAs (Decidable (isOpen = true ∧ bytes ≠ [] ∧ bytes.length ≤ left))
  | .ended => inferInstanceAs (Decidable (isOpen = true))
  | .interrupted => inferInstanceAs (Decidable (isOpen = true))
  | .failed => inferInstanceAs (Decidable True)

/-- A result of `send` for `left` bytes. -/
def SendResult.Fits (left : Nat) (isOpen : Bool) : SendResult → Prop
  | .sent n => isOpen = true ∧ 0 < n ∧ n ≤ left
  | .refused => isOpen = true
  | .interrupted => isOpen = true
  | .failed => True

instance (left : Nat) (isOpen : Bool) : DecidablePred (SendResult.Fits left isOpen)
  | .sent n => inferInstanceAs (Decidable (isOpen = true ∧ 0 < n ∧ n ≤ left))
  | .refused => inferInstanceAs (Decidable (isOpen = true))
  | .interrupted => inferInstanceAs (Decidable (isOpen = true))
  | .failed => inferInstanceAs (Decidable True)

/-- A connection thread: its `currentsocket`, what `recvall` answered in this turn of its loop,
what is left of the turn, and how far the `recvall` or `sendall` at its front has come. Nothing
is left once the thread has returned.
-/
structure Thread where
  socket : Nat
  inputs : List (Option (List UInt8))
  program : Option (Program ServerCall ServerCall.Reply Bool)
  received : List UInt8
  sent : Nat

def Thread.initial (socket : Nat) : Thread :=
  { socket := socket, inputs := [], program := some newConnectionTurn, received := [], sent := 0 }

inductive SocketOp where
  | recv
  | send
  | close
deriving DecidableEq

/-- What a thread does next. A call of `CApi` is answered by some function of the call;
`proceed` stands for what needs nothing from outside.
-/
inductive Event where
  | recv (result : RecvResult)
  | send (result : SendResult)
  | close
  | answer (answers : (call : ApiCall) → call.Reply)
  | proceed

/-- The call that the event makes on the thread's number. -/
def Event.op : Event → Option SocketOp
  | .recv _ => some .recv
  | .send _ => some .send
  | .close => some .close
  | .answer _ => none
  | .proceed => none

/-- The thread behind the call at its front. -/
def Thread.resume (t : Thread) (inputs : List (Option (List UInt8)))
    (program : Option (Program ServerCall ServerCall.Reply Bool))
    : Thread :=
  { t with inputs := inputs, program := program, received := [], sent := 0 }

/-- The thread after `recvall` has answered. -/
def Thread.answered (t : Thread) (reply : Option (List UInt8))
    (next : Option (List UInt8) → Program ServerCall ServerCall.Reply Bool)
    : Thread :=
  t.resume (t.inputs ++ [reply]) (some (next reply))

/-- The thread after the event, if it is the one that is due. `recvall` returns once it has all
bytes, which makes its result positive unless there were none to receive.
-/
def Thread.next (t : Thread) (isOpen : Bool) (event : Event) : Option Thread :=
  match t.program with
  | none => none
  | some (.ret more) =>
      match event with
      | .proceed => some (t.resume [] (if more then some newConnectionTurn else none))
      | _ => none
  | some (.call (.recvall size) next) =>
      match event with
      | .recv result =>
          if t.received.length < size ∧ result.Fits (size - t.received.length) isOpen then
            match recvallTurn t.received result with
            | some received => some { t with received := received }
            | none => some (t.answered none next)
          else none
      | .proceed =>
          if size ≤ t.received.length then
            some (t.answered (if t.received = [] then none else some t.received) next)
          else none
      | _ => none
  | some (.call (.sendall bytes) next) =>
      match event with
      | .send result =>
          if t.sent < bytes.length ∧ result.Fits (bytes.length - t.sent) isOpen then
            match sendallTurn t.sent result with
            | some sent => some { t with sent := sent }
            | none => some (t.resume t.inputs (some (next ())))
          else none
      | .proceed =>
          if bytes.length ≤ t.sent then some (t.resume t.inputs (some (next ()))) else none
      | _ => none
  | some (.call .close next) =>
      match event with
      | .close => some (t.resume t.inputs (some (next ())))
      | _ => none
  | some (.call .exit _) => none
  | some (.call .undefined _) => none
  | some (.call (.api request) next) =>
      match event with
      | .answer answers => some (t.resume t.inputs (some (next (answers request))))
      | _ => none

/-- The thread is about to end the process, or to do what has no defined behaviour. -/
def Thread.EndsProcess (t : Thread) : Bool :=
  match t.program with
  | some (.call .exit _) => true
  | some (.call .undefined _) => true
  | _ => false

/-- What an open number stands for: the socket of the connection that the `i`-th call of
`accept` returned, or anything else that the process has open.
-/
inductive Descriptor where
  | connection (i : Nat)
  | other
deriving DecidableEq

/-- A call that a thread made on its number, and what the number stood for. -/
structure SocketUse where
  thread : Nat
  op : SocketOp
  target : Option Descriptor
deriving DecidableEq

/-- The threads in the order in which `main` accepted their connections. -/
structure State where
  fds : Nat → Option Descriptor
  threads : List Thread
  ended : Bool
  log : List SocketUse

def State.initial : State :=
  { fds := fun _ => none, threads := [], ended := false, log := [] }

/-- `openOther` and `closeOther` are the other files of the process. -/
inductive Action where
  | accept (number : Nat)
  | openOther (number : Nat)
  | closeOther (number : Nat)
  | thread (i : Nat) (event : Event)
  | endProcess (i : Nat)

/-- The table after an event of a thread. -/
def State.fdsAfter (s : State) (t : Thread) (event : Event) : Nat → Option Descriptor :=
  if event.op = some .close then Function.update s.fds t.socket none else s.fds

/-- The log after an event of thread `i`. -/
def State.logAfter (s : State) (i : Nat) (t : Thread) (event : Event) : List SocketUse :=
  s.log ++ event.op.toList.map (fun op => ⟨i, op, s.fds t.socket⟩)

/-- One step of the server. Nothing happens once the process is over. -/
def step (s : State) (a : Action) : Option State :=
  if s.ended then none
  else
    match a with
    | .accept number =>
        if s.fds number = none then
          some { s with
            fds := Function.update s.fds number (some (.connection s.threads.length))
            threads := s.threads ++ [Thread.initial number] }
        else none
    | .openOther number =>
        if s.fds number = none then
          some { s with fds := Function.update s.fds number (some .other) }
        else none
    | .closeOther number =>
        if s.fds number = some .other then
          some { s with fds := Function.update s.fds number none }
        else none
    | .thread i event =>
        (s.threads[i]?).bind (fun t =>
          (t.next (s.fds t.socket).isSome event).map (fun t' =>
            { s with
              fds := s.fdsAfter t event
              threads := s.threads.set i t'
              log := s.logAfter i t event }))
    | .endProcess i =>
        if (s.threads[i]?).any Thread.EndsProcess then some { s with ended := true } else none

/-- How often the thread has called `close` on its number. -/
def State.closes (s : State) (i : Nat) : Nat :=
  (s.log.filter (fun u => u.thread = i ∧ u.op = .close)).length

/-- Every call that a thread makes on its number reaches the connection of the thread, a thread
that has returned closed it once, and after closing it a thread makes no further call on it.
-/
structure SocketsRespected (s : State) : Prop where
  own : ∀ u ∈ s.log, u.target = some (.connection u.thread)
  once : ∀ i t, s.threads[i]? = some t → t.program = none → s.closes i = 1
  silent : ∀ before u after,
    s.log = before ++ u :: after → u.op = .close → ∀ v ∈ after, v.thread ≠ u.thread

/-- The inputs of a turn with which `DispatchCommand` closes the socket and returns: the command
to close the connection, an operand that does not arrive for the commands that treat that as an
error of the connection, or a path of symbols that is empty or does not arrive.
-/
def ClosesAndReturns : List (Option (List UInt8)) → Bool
  | some command :: operands =>
      match CeCommand.ofByte (command.headD 0) with
      | some .closeConnection => true
      | some .closeHandle => operands = [none]
      | some .createToolhelp32Snapshot => operands = [none]
      | some .openProcess => operands = [none]
      | some .createToolhelp32SnapshotEx => operands = [none]
      | some .getSymbolListFromFile => operands[1]? = some none
      | _ => false
  | _ => false

end RwMem.CeServer
