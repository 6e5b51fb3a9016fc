import RwMem.CeServer.CompressedSessions
import RwMem.CeServer.MemorySessions

/-! Compressed reads of the memory of processes: a client that inflates them has the memory of the
targets.
-/

namespace RwMem.CeServer

open Memory Memory.Decoder RwMem.Driver RwMem.Server RwMem.Transfer Transition

variable {σ : Type} {answer : (call : ApiCall) → σ → call.Reply × σ}
variable {deflate : Nat → List UInt8 → Deflated}

/-- The answers of `CApi`, and what the handler makes by its loops over the library. -/
def deflating (answer : (call : ApiCall) → σ → call.Reply × σ)
    (deflate : Nat → List UInt8 → Deflated)
    : (call : ApiCall) → σ → call.Reply × σ
  | .deflate level input, s => (deflate level input, s)
  | call, s => answer call s

theorem answerFits_deflating {s : σ} {call : ApiCall} (fits : AnswerFits answer s call)
    : AnswerFits (deflating answer deflate) s call := by
  cases call with
  | deflate level input => exact trivial
  | _ => exact fits

/-- A request that is not to be compressed asks nothing of the library. -/
theorem askedStep_deflating : askedStep (deflating answer deflate) = askedStep answer := by
  funext s r
  rw [askedStep, askedStep]
  cases CeCommand.ofByte r.command with
  | none => rfl
  | some case =>
      cases case with
      | writeProcessMemory =>
          dsimp only [askedValues, valuesOf, askedCall]
          split <;> rfl
      | _ => rfl

variable {P : Type} [DecidableEq P] {g : PageGeometry} {kernel : Nat → Kernel P}
variable {ptes : P → PteBits} {targets : Nat → Targets}
variable {lib : DeflateLibrary} {inflate : List UInt8 → Option (List UInt8)}

/-- Whatever commands a client sends, with any reads to be compressed, and whatever the targets
store between the calls: what it decodes from the replies, and inflates, are answers that processes
by their handles over the memory of the targets may give, and the server stands for what these then
are.
-/
theorem compressedMemorySession_mayReply (contract : lib.Compresses inflate)
    (deflates
      : ∀ level input, ∃ size fresh, deflate level input = lib.deflated level input size fresh)
    (around : ServesCalls g kernel ptes targets) (nDriverLink : Int)
    (env : Nat → Environment) (stores : Nat → List (Nat × UInt8))
    (s : DriverServer (KernelState P)) (m : HandleMemory) (stands : Stands ptes s m)
    (commands : List MemoryCommand)
    (supplied
      : GuardedReplies
          (memoryCommandStep
            (besideStores stores (driverAnswer (linuxDriver g kernel) nDriverLink env)))
          (IsSupplied env) s commands)
    (requests : List Request)
    (plain : requests.map Request.plain = commands.map MemoryCommand.request)
    (level : ∀ r ∈ requests, r.compresses = true → wordAt r.record 16 1 ≤ 9)
    (packets : List (List UInt8)) (cut : packets.flatten = stream requests)
    (turns : Nat) (enough : requests.length < turns)
    : ∃ x values u,
        serveSession
            (deflating (besideStores stores (driverAnswer (linuxDriver g kernel) nDriverLink env))
              deflate)
            turns ⟨⟨packets, false, s⟩, []⟩
          = .ok x
        ∧ x.connection.closed = true
        ∧ whole (inOrder (requests.map (inflatingDecoder inflate))) x.sent
          = some (values.map some)
        ∧ MayReply (HandleMemory.MayServe g nDriverLink targets stores) (m, s.turn) commands
            values u
        ∧ Stands ptes x.connection.state u.1 := by
  let answer := besideStores stores (driverAnswer (linuxDriver g kernel) nDriverLink env)
  obtain ⟨rooms, values, u, arrives, may, ends⟩ :=
    replies_mayReply around nDriverLink env stores s m stands commands supplied
  rw [← plain] at rooms arrives ends
  have asked : ∀ r ∈ requests, r.IsAskedAtLevel := by
    intro r member
    have listed : r.plain ∈ commands.map MemoryCommand.request :=
      plain ▸ List.mem_map_of_mem member
    obtain ⟨c, _, same⟩ := List.mem_map.mp listed
    exact { asked := same ▸ c.isAsked_request, level := level r member }
  have fits : GuardedReplies (askedStep (deflating answer deflate))
      (ReplyHasRoom (deflating answer deflate)) s (requests.map Request.plain) := by
    rw [askedStep_deflating]
    exact rooms.imp (fun _ _ _ room c same => answerFits_deflating (room c same))
  have library : DeflatesBy (deflating answer deflate) lib := by
    intro level input state
    obtain ⟨size, fresh, same⟩ := deflates level input
    exact ⟨size, fresh, congrArg (·, state) same⟩
  obtain ⟨x, ran, closed, final, decoded⟩ :=
    compressedSession_decodes contract library requests asked s fits packets cut turns enough
  rw [askedStep_deflating] at final decoded
  exact ⟨x, values, u, ran, closed, decoded.trans (congrArg some arrives), may, final ▸ ends⟩

theorem one_le : 1 ≤ 2 ^ 31 - 18 := by decide

/-- A process is opened, one byte is written and read back, and the handle is closed. -/
def writeAndReadByte : List MemoryCommand :=
  [.openProcess 42, .writeProcessMemory 10000 0xfff [97] one_le,
    .readProcessMemory 10000 0xfff 1 one_le, .closeHandle 10000]

/-- The read with its reply to be compressed at level 1. -/
def readByteCompressed : Request where
  command := 9
  record := [16, 39, 0, 0] ++ [255, 15, 0, 0, 0, 0, 0, 0] ++ [1, 0, 0, 0] ++ [1]
  tail := []
  record_length := rfl
  tail_length := by decide

def writeAndReadByteCompressed : List Request :=
  [(MemoryCommand.openProcess 42).request,
    (MemoryCommand.writeProcessMemory 10000 0xfff [97] one_le).request, readByteCompressed,
    (MemoryCommand.closeHandle 10000).request]

theorem plain_writeAndReadByte
    : writeAndReadByteCompressed.map Request.plain
      = writeAndReadByte.map MemoryCommand.request := rfl

theorem level_writeAndReadByte {r : Request} (member : r ∈ writeAndReadByteCompressed)
    : wordAt r.record 16 1 ≤ 9 := by
  have levels : ∀ r ∈ writeAndReadByteCompressed, wordAt r.record 16 1 ≤ 9 := by decide
  exact levels r member

theorem compressedMemorySession_mayReply_oneByte
    : let g := arm64.toPageGeometry
      let answer := besideStores storesOnce
        (driverAnswer (linuxDriver g (mappedKernel g)) 3 (fun _ => quietEnvironment 16 0))
      let deflate := fun level input => oneByteLibrary.deflated level input 0 (fun _ _ => 0)
      ∃ x values u,
        serveSession (deflating answer deflate) 5
            ⟨⟨[stream writeAndReadByteCompressed], false,
              ⟨.initial, 0, ⟨0, AddressSpace.oneUp.ptes, UInt8.ofNat⟩⟩⟩, []⟩
          = .ok x
        ∧ x.connection.closed = true
        ∧ whole (inOrder (writeAndReadByteCompressed.map (inflatingDecoder oneByteInflate))) x.sent
          = some (values.map some)
        ∧ MayReply (HandleMemory.MayServe g 3 mappedTargets storesOnce)
            (⟨fun _ => none, ⟨0, UInt8.ofNat⟩⟩, 0) writeAndReadByte values u
        ∧ Stands AddressSpace.oneUp.ptes x.connection.state u.1 := by
  intro g answer deflate
  have start : Stands AddressSpace.oneUp.ptes _ _ := stands_initial 0 UInt8.ofNat
  refine compressedMemorySession_mayReply oneByteLibrary_compresses
    (fun _ _ => ⟨0, fun _ _ => 0, rfl⟩) servesCalls_mapped 3 _ storesOnce _ _ start writeAndReadByte
    ?_ _
    plain_writeAndReadByte (fun _ member _ => level_writeAndReadByte member) _
    (List.append_nil _) 5 (by decide)
  refine guardedReplies_cons (fun _ _ => by decide) ?_
  refine guardedReplies_cons (isSupplied_of_ne fun _ => MemoryCommand.noConfusion) ?_
  refine guardedReplies_cons (isSupplied_of_ne fun _ => MemoryCommand.noConfusion) ?_
  exact guardedReplies_cons (isSupplied_of_ne fun _ => MemoryCommand.noConfusion)
    (guardedReplies_nil _)

end RwMem.CeServer
