import Mathlib.Logic.Function.Basic
import RwMem.Cli.Library

/-! The commands of the shell, and `run_cmd` over the breakpoints that it has. -/

namespace RwMem.Cli

open RwMem.Breakpoint RwMem.Client Transition

inductive Commands where
  | addBp (pid : Int32) (bpType : BreakpointType) (len : UInt8) (addr : UInt64)
  | delBp (id : Int32)
  | cont (id : Int32)
  | setReg (id : Int32) (regId : UInt8) (value : UInt64)
  | setSimdReg (id : Int32) (regId : UInt8) (value : BitVec 128)
  | getRegs (id : Int32) (simd : Bool)
  | wait (id : Int32)
  | getMemMap (pid : Int32)
  | writeMem (pid : Int32) (addr : UInt64) (value : List UInt8)
  | readMem (pid : Int32) (addr : UInt64) (size : UInt64)
  | step (id : Int32)
  | isStopped (id : Int32)

/-- What a command prints, if it prints something. -/
inductive Output (M : Type) where
  | silent
  | added (id : Int32)
  | regs (regs : RwMem.Breakpoint.Regs) (simd : Bool)
  | stopped (stopped : Bool)
  | memory (answer : M)

/-- A failed wait ends in the variant that the library has for every `io::Error`. -/
inductive Error where
  | breakpointNotFound
  | library (error : RegisterError)
  | mapsParseError (error : Int)
  | io (error : Int)

abbrev Answer (M : Type) := Except Error (Output M)

/-- `HashMap<i32, Breakpoint>` -/
abbrev Bps := Int32 → Option Breakpoint

variable {M : Type}

/-- The result of a library call that the command ends with. -/
def answerOf {α : Type} (output : α → Output M) : Except RegisterError α → Answer M
  | .error e => .error (.library e)
  | .ok value => .ok (output value)

/-- `bps.insert(id, bp)`, at whose end a breakpoint that was there before is dropped. -/
def insertBp (bps : Bps) (id : Int32) (bp : Breakpoint) : Sys M Bps := do
  match bps id with
  | none => pure (Function.update bps id (some bp))
  | some replaced =>
      replaced.drop
      pure (Function.update bps id (some bp))

/-- A command that uses one breakpoint. -/
def withBp {α : Type} (bps : Bps) (id : Int32) (answer : α → Answer M)
    (use : Breakpoint → Sys M α)
    : Sys M (Answer M) := do
  match bps id with
  | none => pure (.error .breakpointNotFound)
  | some bp =>
      let result ← use bp
      pure (answer result)

/-- A runtime is built for the wait alone. -/
def waitOn (bp : Breakpoint) : Sys M (Answer M) := do
  let built ← sys .buildRuntime
  if built < 0 then pure (.error (.io (-built)))
  else
    match ← bp.wait with
    | .error e => pure (.error (.mapsParseError e))
    | .ok () => pure (.ok .silent)

/-- `run_cmd`: what the command answers, and the breakpoints behind it. -/
def runCmd (cmd : Commands) (bps : Bps) : Sys M (Answer M × Bps) := do
  match cmd with
  | .addBp pid bpType len addr =>
      match ← addBp pid bpType len addr with
      | .error e => pure (.error (.library e), bps)
      | .ok bp =>
          let id := bp.asRawFd
          let bps ← insertBp bps id bp
          pure (.ok (.added id), bps)
  | .delBp id =>
      match bps id with
      | none => pure (.error .breakpointNotFound, bps)
      | some bp =>
          bp.drop
          pure (.ok .silent, Function.update bps id none)
  | .cont id =>
      let answer ← withBp bps id (answerOf fun _ => .silent) Breakpoint.cont
      pure (answer, bps)
  | .setReg id regId value =>
      let answer ← withBp bps id (answerOf fun _ => .silent) (fun bp => bp.setReg regId value)
      pure (answer, bps)
  | .setSimdReg id regId value =>
      let answer ← withBp bps id (answerOf fun _ => .silent) (fun bp => bp.setSimdReg regId value)
      pure (answer, bps)
  | .getRegs id simd =>
      let answer ← withBp bps id (answerOf fun regs => .regs regs simd) (fun bp =>
        if simd then bp.getRegsWithSimd else bp.getRegs)
      pure (answer, bps)
  | .wait id =>
      let answer ← withBp bps id (fun answer => answer) waitOn
      pure (answer, bps)
  | .getMemMap pid =>
      let answer ← sys (.memory (.getMemMap pid true))
      pure (.ok (.memory answer), bps)
  | .writeMem pid addr value =>
      let answer ← sys (.memory (.writeMem pid addr value))
      pure (.ok (.memory answer), bps)
  | .readMem pid addr size =>
      let answer ← sys (.memory (.readMem pid addr size))
      pure (.ok (.memory answer), bps)
  | .step id =>
      let answer ← withBp bps id (answerOf fun _ => .silent) Breakpoint.step
      pure (answer, bps)
  | .isStopped id =>
      let answer ← withBp bps id (answerOf .stopped) Breakpoint.isStopped
      pure (answer, bps)

end RwMem.Cli
