import RwMem.CeServer.Dispatch

/-! The loops of `recvall`, `sendall` and `newConnectionThread`, and the handlers that, once their
operands are read, only send and call `CApi`.
-/

namespace RwMem.CeServer

open Memory RwMem.Driver Transition Transition.Program

/-- What one call of `recv` returns: bytes, 0, or -1 with `errno` at `EINTR` or not. -/
inductive RecvResult where
  | received (bytes : List UInt8)
  | ended
  | interrupted
  | failed

/-- What one call of `send` returns. -/
inductive SendResult where
  | sent (n : Nat)
  | refused
  | interrupted
  | failed

/-- One turn of the loop of `recvall`: the bytes so far, or `none` where it returns early. -/
def recvallTurn (received : List UInt8) : RecvResult → Option (List UInt8)
  | .received bytes => some (received ++ bytes)
  | .interrupted => some received
  | .ended => none
  | .failed => none

/-- One turn of the loop of `sendall`: the count so far, or `none` where it returns early. -/
def sendallTurn (sent : Nat) : SendResult → Option Nat
  | .sent n => some (sent + n)
  | .interrupted => some sent
  | .refused => none
  | .failed => none

/-- One turn of the loop of `newConnectionThread`, and whether there is another one. -/
def newConnectionTurn : Program ServerCall ServerCall.Reply Bool := do
  match ← recvall 1 with
  | some command => do
      dispatchCommand (command.headD 0)
      return true
  | none => do
      close
      return false

/-- The calls that neither read from the socket nor close it nor end the process. -/
def ServerCall.IsReply : ServerCall → Prop
  | .sendall _ => True
  | .api _ => True
  | _ => False

/-- Allows the sends and the calls of `CApi`, and keeps nothing. -/
def replyMonitor : Monitor ServerCall ServerCall.Reply Unit where
  allows _ request := request.IsReply
  after _ _ _ := ()

/-- The program sends and calls `CApi`, and does nothing else. -/
def OnlyReplies {α : Type} (p : Program ServerCall ServerCall.Reply α) : Prop :=
  Safe replyMonitor (fun _ _ => True) () p

theorem onlyReplies_ret {α : Type} (value : α)
    : OnlyReplies (.ret value : Program ServerCall ServerCall.Reply α) :=
  .ret trivial

theorem onlyReplies_sendall (bytes : List UInt8) : OnlyReplies (sendall bytes) :=
  .call trivial (fun _ => .ret trivial)

theorem onlyReplies_api (call : ApiCall) : OnlyReplies (api call) :=
  .call trivial (fun _ => .ret trivial)

/-- A sequence of two parts that only reply only replies. -/
theorem OnlyReplies.bind {α β : Type} {p : Program ServerCall ServerCall.Reply α}
    {f : α → Program ServerCall ServerCall.Reply β} (first : OnlyReplies p)
    (second : ∀ value, OnlyReplies (f value))
    : OnlyReplies (p >>= f) :=
  Safe.bind (Safe.mono first (fun _ value _ => second value))

theorem OnlyReplies.ite {α : Type} {c : Prop} [Decidable c]
    {p q : Program ServerCall ServerCall.Reply α} (yes : OnlyReplies p) (no : OnlyReplies q)
    : OnlyReplies (if c then p else q) :=
  Safe.ite (fun _ => yes) (fun _ => no)

theorem onlyReplies_sendEach (blocks : List (List UInt8)) : OnlyReplies (sendEach blocks) := by
  induction blocks with
  | nil => exact onlyReplies_ret ()
  | cons bytes rest ih => exact (onlyReplies_sendall bytes).bind (fun _ => ih)

theorem onlyReplies_sendCompressed (compress : Nat) (o : ReadResult)
    : OnlyReplies (sendCompressed compress o) := by
  refine (onlyReplies_api _).bind (fun deflated => ?_)
  refine (onlyReplies_sendall _).bind (fun _ => ?_)
  exact (onlyReplies_sendall _).bind (fun _ => onlyReplies_sendEach deflated.blocks)

theorem onlyReplies_sendModules (modules : List ModuleListEntry) (outputstream : List UInt8)
    : OnlyReplies (sendModules modules outputstream) := by
  induction modules generalizing outputstream with
  | nil =>
      exact (onlyReplies_sendall outputstream).ite (onlyReplies_ret _)
  | cons me rest ih =>
      exact ((onlyReplies_sendall outputstream).bind (fun _ => ih _)).ite (ih _)

theorem onlyReplies_sendThreadList (r : Int) : OnlyReplies (sendThreadList r) := by
  refine OnlyReplies.ite ?_ (onlyReplies_sendall _)
  refine (onlyReplies_api _).bind (fun tl => ?_)
  refine (onlyReplies_sendall _).bind (fun _ => ?_)
  exact (onlyReplies_sendall _).bind (fun _ => onlyReplies_api _)

theorem onlyReplies_modulesOf (r : Int) : OnlyReplies (modulesOf r) :=
  (onlyReplies_api _).ite (onlyReplies_ret _)

theorem onlyReplies_sendModuleList (r : Int) : OnlyReplies (sendModuleList r) := by
  refine (onlyReplies_modulesOf r).bind (fun modules => ?_)
  refine (onlyReplies_sendModules modules []).bind (fun _ => ?_)
  refine (onlyReplies_api _).bind (fun eol => ?_)
  exact (onlyReplies_sendall _).bind (fun _ => (onlyReplies_api _).ite (onlyReplies_ret _))

/-- The handler reads an operand of the size, and only replies to it. -/
def RepliesTo (take : Int → (List UInt8 → Handler) → Handler) (size : Int) (p : Handler) : Prop :=
  ∃ body, p = take size body ∧ ∀ operand, OnlyReplies (body operand)

/-- Most handlers call `CApi` once and send its answer. -/
theorem onlyReplies_answer (call : ApiCall) (encode : call.Reply → List UInt8)
    : OnlyReplies (do let value ← api call; sendall (encode value)) :=
  (onlyReplies_api call).bind (fun value => onlyReplies_sendall (encode value))

theorem repliesTo_closeHandle : RepliesTo readOrClose 4 closeHandle :=
  ⟨_, rfl, fun _ => onlyReplies_answer _ _⟩

theorem repliesTo_createToolhelp32Snapshot : RepliesTo readOrClose 8 createToolhelp32Snapshot :=
  ⟨_, rfl, fun _ => onlyReplies_answer _ _⟩

theorem repliesTo_openProcess : RepliesTo readOrClose 4 openProcess :=
  ⟨_, rfl, fun _ => onlyReplies_answer _ _⟩

theorem repliesTo_createToolhelp32SnapshotEx
    : RepliesTo readOrClose 8 createToolhelp32SnapshotEx := by
  refine ⟨_, rfl, fun params => ?_⟩
  refine (onlyReplies_api _).bind (fun r => ?_)
  exact (onlyReplies_sendThreadList r).ite
    ((onlyReplies_sendModuleList r).ite (onlyReplies_sendall _))

theorem repliesTo_process32First : RepliesTo readOrSkip 4 process32First :=
  ⟨_, rfl, fun _ => onlyReplies_answer _ _⟩

theorem repliesTo_process32Next : RepliesTo readOrSkip 4 process32Next :=
  ⟨_, rfl, fun _ => onlyReplies_answer _ _⟩

theorem repliesTo_module32First : RepliesTo readOrSkip 4 module32First :=
  ⟨_, rfl, fun _ => onlyReplies_answer _ _⟩

theorem repliesTo_module32Next : RepliesTo readOrSkip 4 module32Next :=
  ⟨_, rfl, fun _ => onlyReplies_answer _ _⟩

theorem repliesTo_virtualQueryExFull : RepliesTo readOrSkip 5 virtualQueryExFull := by
  refine ⟨_, rfl, fun c => ?_⟩
  refine (onlyReplies_api _).bind (fun listed => ?_)
  cases listed with
  | some vRinfo => exact (onlyReplies_sendall _).bind (fun _ => onlyReplies_sendEach _)
  | none => exact onlyReplies_sendall _

theorem repliesTo_virtualQueryEx : RepliesTo readOrSkip 12 virtualQueryEx :=
  ⟨_, rfl, fun _ => onlyReplies_answer _ _⟩

theorem repliesTo_getRegionInfo : RepliesTo readOrSkip 12 getRegionInfo := by
  refine ⟨_, rfl, fun c => ?_⟩
  refine (onlyReplies_api _).bind (fun query => ?_)
  refine (onlyReplies_sendall _).bind (fun _ => ?_)
  exact (onlyReplies_sendall _).bind (fun _ => (onlyReplies_sendall _).ite (onlyReplies_ret _))

end RwMem.CeServer
