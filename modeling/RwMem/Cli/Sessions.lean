import RwMem.Breakpoint.HeldData
import RwMem.Breakpoint.Lifetime
import RwMem.Cli.Debugger

/-! Every session of the shell is one of a debugger, and the process holds what the breakpoints of
the debugger need.
-/

namespace RwMem.Cli

open Collections Memory RwMem.Breakpoint RwMem.Client RwMem.Driver Transition

variable {M : Type} {others : List Nat} {bps : List OpenBp} {s : Session} {d : Debugger}
variable {env : Env M} {cmd : Commands} {id : Int32} {f : FileId} {k : Kernel}
variable {runtime : Runtime}

-----------------------------------------------------------------------------------------
-- The commands as system calls
-----------------------------------------------------------------------------------------

theorem runCmd_unknown {bps : Bps} (names : cmd.id = some id) (absent : bps id = none)
    : runCmd (M := M) cmd bps = .ret (.error .breakpointNotFound, bps) := by
  cases cmd with
  | addBp _ _ _ _ => contradiction
  | getMemMap _ => contradiction
  | writeMem _ _ _ => contradiction
  | readMem _ _ _ => contradiction
  | _ =>
      cases names
      simp [runCmd, withBp, absent]

theorem runCmd_invalid {bps : Bps} {bp : Breakpoint} {error : RegisterError}
    (names : cmd.id = some id) (found : bps id = some bp) (call : cmd.call = some (.error error))
    : runCmd (M := M) cmd bps = .ret (.error (.library error), bps) := by
  cases cmd with
  | setReg _ reg value =>
      cases names
      simp only [Commands.call, registerCall] at call
      split at call
      · next large =>
          cases call
          simp [runCmd, withBp, found, Breakpoint.setReg, large, answerOf]
      · cases call
  | setSimdReg _ reg value =>
      cases names
      simp only [Commands.call, registerCall] at call
      split at call
      · next large =>
          cases call
          simp [runCmd, withBp, found, Breakpoint.setSimdReg, large, answerOf]
      · cases call
  | _ => cases call

/-- What is printed of a call, from its result and what it left in the buffer of the caller. -/
def Commands.printed (ret : Int) (buf : RwMem.Breakpoint.Regs) (cmd : Commands) : Answer M :=
  if ret < 0 then .error (.library (.errno (-ret)))
  else
    match cmd with
    | .getRegs _ simd => .ok (.regs buf simd)
    | .isStopped _ => .ok (.stopped (ret != 0))
    | _ => .ok .silent

/-- A command that stands for a call on the file of its breakpoint makes this call and no other. -/
theorem run_runCmd_call {bps : Bps} {bp : Breakpoint} {call : Call} (names : cmd.id = some id)
    (found : bps id = some bp) (stands : cmd.call = some (.ok call))
    : (runCmd cmd bps).run (Kernel.handle runtime env) k
      = .ok ((cmd.printed (k.bp env bp.fd call).1.1 (k.bp env bp.fd call).1.2, bps),
          (k.bp env bp.fd call).2) := by
  have answer {α : Type} (ret : Int) (output : α → Output M) (value : α)
      : answerOf output (errnoOf ret value)
        = if ret < 0 then .error (.library (.errno (-ret))) else .ok (output value) := by
    rw [errnoOf]
    split <;> rfl
  cases cmd with
  | cont _ | step _ | isStopped _ =>
      cases names
      cases stands
      simp [runCmd, withBp, found, Breakpoint.cont, Breakpoint.step, Breakpoint.isStopped, sys,
        Program.run, Kernel.handle, answer, Commands.printed]
  | setReg _ reg value | setSimdReg _ reg value =>
      cases names
      simp only [Commands.call, registerCall] at stands
      split at stands
      · cases stands
      · next small =>
          cases stands
          simp [runCmd, withBp, found, Breakpoint.setReg, Breakpoint.setSimdReg, small, sys,
            Program.run, Kernel.handle, answer, Commands.printed]
  | getRegs _ simd =>
      cases names
      cases stands
      cases simd <;>
        simp [runCmd, withBp, found, Breakpoint.getRegs, Breakpoint.getRegsWithSimd, sys,
          Program.run, Kernel.handle, answer, Commands.printed]
  | _ => cases stands

/-- What is left in the buffer is what is printed of the registers of the target. -/
theorem printed_copied {call : Call} (ret : Int) (regs : RwMem.Breakpoint.Regs)
    (stands : cmd.call = some (.ok call))
    : cmd.printed (M := M) ret (copied call ret regs) = cmd.report ret regs := by
  cases cmd with
  | getRegs _ simd =>
      cases stands
      cases simd <;>
        by_cases error : ret < 0 <;>
          simp [Commands.printed, Commands.report, copied, error, Commands.output, userRegsSize,
            userFpsimdStateSize]
  | _ => rfl

-----------------------------------------------------------------------------------------
-- Descriptors and names
-----------------------------------------------------------------------------------------

/-- The number by which the shell knows an open breakpoint. -/
def idOf (bp : OpenBp) : Int32 := Int32.ofNat bp.fd

/-- The shell has exactly the breakpoints that its process holds open, each under its descriptor,
and a debugger with the same names for their files.
-/
structure Linked (others : List Nat) (bps : List OpenBp) (s : Session) (d : Debugger) : Prop where
  held : Holds others bps s.kernel.held
  files : s.kernel.files = d.files
  small : ∀ bp ∈ bps, bp.fd < 2 ^ 31
  opened : ∀ bp ∈ bps, (d.files.files bp.data).status = .opened
  named : ∀ id f, d.named id = some f ↔ ∃ bp ∈ bps, idOf bp = id ∧ bp.data = f
  mapped : ∀ id, s.bps id = (d.named id).map (fun _ => ⟨id⟩)

/-- A number that is used leads to the descriptor. -/
theorem toNat_idOf {bp : OpenBp} (small : bp.fd < 2 ^ 31)
    : 0 ≤ idOf bp ∧ (idOf bp).toNatClampNeg = bp.fd := by
  refine ⟨?_, Int32.toNatClampNeg_ofNat_of_lt small⟩
  rw [Int32.le_iff_toInt_le, idOf, Int32.toInt_ofNat_of_lt small]
  exact Int.natCast_nonneg bp.fd

namespace Linked

variable (linked : Linked others bps s d)
include linked

/-- The descriptor of a name is that of the file that has it. -/
theorem descriptor (found : d.named id = some f)
    : s.kernel.descriptor id = some (.bpFile f) := by
  obtain ⟨bp, member, rfl, rfl⟩ := (linked.named id f).mp found
  obtain ⟨nonneg, same⟩ := toNat_idOf (linked.small bp member)
  rw [Kernel.descriptor, if_pos nonneg, same]
  exact linked.held.lookup_fd member

theorem bps_eq_none (absent : d.named id = none) : s.bps id = none := by
  rw [linked.mapped, absent]
  rfl

theorem bps_eq_some (found : d.named id = some f) : s.bps id = some ⟨id⟩ := by
  rw [linked.mapped, found]
  rfl

/-- Files that change as a step of the system and stay open keep the link. -/
theorem files_step {files : State} (stays : ∀ bp ∈ bps, (files.files bp.data).status = .opened)
    : Linked others bps { s with kernel := { s.kernel with files := files } } ⟨d.named, files⟩ :=
  ⟨linked.held, rfl, linked.small, stays, linked.named, linked.mapped⟩

/-- A call on the file of a breakpoint. -/
theorem bp_eq (found : d.named id = some f) (env : Env M) (call : Call)
    : s.kernel.bp env id call
      = (((d.files.call f call).2, copied call (d.files.call f call).2 (d.regsOf f)),
          { s.kernel with files := (d.files.call f call).1 }) := by
  rw [Kernel.bp, linked.descriptor found, linked.files]
  rfl

theorem call (f : FileId) (call : Call)
    : Linked others bps { s with kernel := { s.kernel with files := (d.files.call f call).1 } }
        ⟨d.named, (d.files.call f call).1⟩ := by
  refine linked.files_step (fun bp member => ?_)
  rw [(d.files.files_call f bp.data call).1]
  exact linked.opened bp member

/-- A step elsewhere leaves the breakpoints alone that the shell has. -/
theorem elsewhere {act : Act} {k : Kernel} (taken : s.kernel.elsewhere act = some k)
    : ∃ files,
        d.Foreign act
        ∧ d.files.step act = some files
        ∧ Linked others bps { s with kernel := k } ⟨d.named, files⟩ := by
  rw [Kernel.elsewhere] at taken
  split at taken
  · next apart =>
      obtain ⟨files, stepped, rfl⟩ := Option.map_eq_some_iff.mp taken
      rw [linked.held.openFiles_eq] at apart
      rw [linked.files] at stepped
      refine ⟨files, ?_, stepped, linked.files_step (fun bp member => ?_)⟩
      · intro f used id found
        obtain ⟨bp, member, _, rfl⟩ := (linked.named id f).mp found
        exact apart bp.data used (List.mem_map_of_mem member)
      · obtain ⟨enabled, rfl⟩ := State.step_eq_some.mp stepped
        refine (State.opened_next enabled).mpr (Or.inl ⟨linked.opened bp member, ?_⟩)
        rintro rfl
        exact apart bp.data rfl (List.mem_map_of_mem member)
  · contradiction

end Linked

/-- Steps elsewhere, by induction on the steps. -/
theorem Linked.exec_elsewhere {acts : List Act} {k : Kernel}
    (linked : Linked others bps s d) (taken : exec Kernel.elsewhere s.kernel acts = some k)
    : ∃ files,
        (∀ act ∈ acts, d.Foreign act)
        ∧ exec State.step d.files acts = some files
        ∧ Linked others bps { s with kernel := k } ⟨d.named, files⟩ := by
  induction acts generalizing s d with
  | nil =>
      cases taken
      exact ⟨d.files, by simp, rfl, linked⟩
  | cons act rest ih =>
      obtain ⟨k', first, later⟩ := Option.bind_eq_some_iff.mp taken
      obtain ⟨files, foreign, stepped, linked'⟩ := linked.elsewhere first
      obtain ⟨files', foreign', stepped', ends⟩ := ih linked' later
      refine ⟨files', ?_, Option.bind_eq_some_iff.mpr ⟨files, stepped, stepped'⟩, ends⟩
      intro act' member
      rcases List.mem_cons.mp member with rfl | among
      · exact foreign
      · exact foreign' act' among

/-- A wait that ends has polled the file, and ends as the runtime makes of what the polls found.
Induction on what happens before the polls.
-/
theorem Linked.waitReadable {seen : List Int} {meanwhile : List (List Act)} {ret : Int} {k : Kernel}
    (linked : Linked others bps s d) (found : d.named id = some f)
    (waited : Kernel.waitReadable runtime env id seen meanwhile s.kernel = some (ret, k))
    : ∃ rets files,
        runtime (seen ++ rets) = some ret
        ∧ Debugger.Polled d.Foreign f d.files rets files
        ∧ Linked others bps { s with kernel := k } ⟨d.named, files⟩ := by
  induction meanwhile generalizing seen s d with
  | nil =>
      rw [Kernel.waitReadable] at waited
      split at waited
      · next ends =>
          cases waited
          exact ⟨[], d.files, by rw [List.append_nil, ends], .done _, linked⟩
      · contradiction
  | cons acts rest ih =>
      rw [Kernel.waitReadable] at waited
      split at waited
      · next ends =>
          cases waited
          exact ⟨[], d.files, by rw [List.append_nil, ends], .done _, linked⟩
      · obtain ⟨k', meanwhile, later⟩ := Option.bind_eq_some_iff.mp waited
        obtain ⟨files, foreign, stepped, linked'⟩ := linked.exec_elsewhere meanwhile
        have polled := linked'.bp_eq found env .poll
        simp only at polled later
        rw [polled] at later
        obtain ⟨rets, files', ends, polls, linked''⟩ := ih (linked'.call f .poll) found later
        rw [List.append_assoc, List.singleton_append] at ends
        exact ⟨_ :: rets, files', ends, .poll foreign stepped polls, linked''⟩

-----------------------------------------------------------------------------------------
-- New breakpoints and dropped ones
-----------------------------------------------------------------------------------------

/-- The driver reads the parameters where the library has put them. -/
theorem ofBytes_addBpBuf (pid : Int32) (bpType : BreakpointType) (len : UInt8) (addr : UInt64)
    : AddBpParam.ofBytes (cells (userBuf (addBpBuf pid bpType len addr)) 0 16)
      = ⟨pid, bpType.code.toNat, len.toNat, addr.toNat⟩ := by
  have bytes : cells (userBuf (addBpBuf pid bpType len addr)) 0 16
      = addBpBuf pid bpType len addr := by
    have front := cells_userBuf (addBpBuf pid bpType len addr) []
    rwa [List.append_nil] at front
  have pidFits : pid.toUInt32.toNat < 256 ^ 4 := pid.toUInt32.toNat_lt
  have addrFits : addr.toNat < 256 ^ 8 := addr.toNat_lt
  have pidWord := wordAt_leBytes pidFits [] ([bpType.code, len, 0, 0] ++ leBytes 8 addr.toNat)
  have typeWord : wordAt (addBpBuf pid bpType len addr) 4 1 = bpType.code.toNat := rfl
  have lenWord : wordAt (addBpBuf pid bpType len addr) 5 1 = len.toNat := rfl
  have addrWord := wordAt_leBytes addrFits (leBytes 4 pid.toUInt32.toNat
    ++ [bpType.code, len, 0, 0]) []
  have pidSame : Int32.ofNat pid.toUInt32.toNat = pid :=
    Int32.toBitVec_inj.mp (by simp [Int32.toBitVec_ofNat'])
  rw [List.nil_append, List.length_nil, ← List.append_assoc] at pidWord
  rw [List.append_nil] at addrWord
  rw [bytes, AddBpParam.ofBytes, typeWord, lenWord]
  refine (congrArg₂ (fun p a => AddBpParam.mk (Int32.ofNat p) bpType.code.toNat len.toNat a)
    pidWord addrWord).trans ?_
  rw [pidSame]

theorem idOf_inj {a b : OpenBp} (smallA : a.fd < 2 ^ 31) (smallB : b.fd < 2 ^ 31)
    (same : idOf a = idOf b)
    : a.fd = b.fd := by
  rw [← (toNat_idOf smallA).2, ← (toNat_idOf smallB).2, same]

/-- One breakpoint more, under a number that no other has. -/
theorem Linked.add {bp : OpenBp} {held : Resources} {files : State}
    (linked : Linked others bps s d) (holds : Holds others (bp :: bps) held)
    (small : bp.fd < 2 ^ 31)
    (opened : ∀ other ∈ bp :: bps, (files.files other.data).status = .opened)
    : d.named (idOf bp) = none
      ∧ Linked others (bp :: bps) ⟨Function.update s.bps (idOf bp) (some ⟨idOf bp⟩), ⟨held, files⟩⟩
        ⟨Function.update d.named (idOf bp) (some bp.data), files⟩ := by
  have fds := (List.nodup_append.mp holds.apart.fds).1
  rw [List.map_cons, List.nodup_cons] at fds
  have new : ∀ old ∈ bps, idOf old ≠ idOf bp := by
    intro old member same
    have fd := idOf_inj (linked.small old member) small same
    exact fds.1 (fd ▸ List.mem_map_of_mem member)
  exact
    ⟨Lists.eq_none linked.named new,
      { held := holds
        files := rfl
        small := List.forall_mem_cons.mpr ⟨small, linked.small⟩
        opened := opened
        named := Lists.cons linked.named new
        mapped := update_shows linked.mapped (idOf bp) (some bp.data) }⟩

/-- A dropped breakpoint. -/
theorem Linked.remove {before after : List OpenBp} {bp : OpenBp} {held : Resources} {files : State}
    (linked : Linked others (before ++ bp :: after) s d) (holds : Holds others (before ++ after) held)
    (opened : ∀ other ∈ before ++ after, (files.files other.data).status = .opened)
    : Linked others (before ++ after) ⟨Function.update s.bps (idOf bp) none, ⟨held, files⟩⟩
        ⟨Function.update d.named (idOf bp) none, files⟩ := by
  have member : bp ∈ before ++ bp :: after := List.mem_append_right before List.mem_cons_self
  have apart : ∀ other ∈ before ++ after, idOf other ≠ idOf bp := by
    intro other left same
    exact key_ne_of_nodup (List.nodup_append.mp linked.held.apart.fds).1 left
      (idOf_inj (linked.small other (mem_of_mem_append left)) (linked.small bp member) same)
  exact
    { held := holds
      files := rfl
      small := fun other left => linked.small other (mem_of_mem_append left)
      opened := opened
      named := Lists.remove linked.named apart
      mapped := update_shows linked.mapped (idOf bp) none }

/-- What a request for a breakpoint can do to the link: nothing, or add one. -/
theorem Linked.kernel_addBp {adding : AddBpEnv} {pid : Int32} {bpType : BreakpointType}
    {len : UInt8} {addr : UInt64} {ret : Int} {k : Kernel} (linked : Linked others bps s d)
    (taken : s.kernel.addBp adding (addBpBuf pid bpType len addr) = some (ret, k))
    : (ret < 0
        ∧ ¬adding.Grants ⟨pid, bpType.code.toNat, len.toNat, addr.toNat⟩
        ∧ Linked others bps { s with kernel := k } d)
      ∨ ∃ task bp,
          (adding.findGetPid pid).bind adding.getPidTask = some task
          ∧ adding.perfEventFails ⟨addr.toNat, len.toNat, bpType.code.toNat⟩ task = none
          ∧ 0 ≤ ret
          ∧ Int32.ofInt ret = idOf bp
          ∧ d.named (idOf bp) = none
          ∧ (d.files.files bp.data).status = .unused
          ∧ Linked others (bp :: bps) ⟨Function.update s.bps (idOf bp) (some ⟨idOf bp⟩), k⟩
              ⟨Function.update d.named (idOf bp) (some bp.data),
                d.files.next (.addBp bp.data task)⟩ := by
  rw [Kernel.addBp] at taken
  split at taken
  · next fresh =>
      obtain ⟨fresh, small, unused⟩ := fresh
      obtain ⟨⟨ret', held⟩, returned, same⟩ := Option.map_eq_some_iff.mp taken
      have outcome := linked.held.addBp fresh returned
      rw [ofBytes_addBpBuf] at outcome
      rcases outcome with ⟨negative, denied, holds, unknown⟩ | ⟨task, found, event, rfl, holds, target⟩
      · simp only [unknown] at same
        cases same
        exact Or.inl ⟨negative, denied, holds, linked.files, linked.small, linked.opened, linked.named,
          linked.mapped⟩
      · simp only [target] at same
        cases same
        rw [linked.files] at unused ⊢
        have opened : ∀ other ∈ (⟨adding.fd, adding.data, adding.event, task⟩ : OpenBp) :: bps,
            ((d.files.next (.addBp adding.data task)).files other.data).status = .opened := by
          have enabled : d.files.enabled (.addBp adding.data task) = true := by
            simpa [State.enabled] using unused
          intro other member
          refine (State.opened_next enabled).mpr ?_
          rcases List.mem_cons.mp member with rfl | old
          · exact Or.inr ⟨task, rfl⟩
          · exact Or.inl ⟨linked.opened other old, by simp⟩
        obtain ⟨absent, linked'⟩ := linked.add holds small opened
        exact Or.inr ⟨task, ⟨adding.fd, adding.data, adding.event, task⟩, found, event,
          Int.natCast_nonneg _, Int32.ofInt_eq_ofNat, absent, unused, linked'⟩
  · contradiction

/-- A breakpoint is dropped: its descriptor is closed, and with it its file. -/
theorem Linked.drop (linked : Linked others bps s d) (found : d.named id = some f)
    : ∃ bps',
        Linked others bps' ⟨Function.update s.bps id none, (s.kernel.close id).2⟩
          ⟨Function.update d.named id none, d.files.next (.close f)⟩ := by
  have known := linked.descriptor found
  obtain ⟨bp, member, rfl, rfl⟩ := (linked.named id f).mp found
  obtain ⟨before, after, rfl⟩ := List.append_of_mem member
  have small := linked.small bp member
  have closed : (s.kernel.close (idOf bp)).2
      = ⟨(s.kernel.held.closeFd bp.fd).runPending, d.files.next (.close bp.data)⟩ := by
    rw [Kernel.close, known, (toNat_idOf small).2, linked.files]
  refine ⟨before ++ after, ?_⟩
  rw [closed]
  refine linked.remove linked.held.close (fun other left => ?_)
  have enabled : d.files.enabled (.close bp.data) = true := by
    simpa [State.enabled] using linked.opened bp member
  refine (State.opened_next enabled).mpr (Or.inl ⟨linked.opened other (mem_of_mem_append left), ?_⟩)
  intro same
  exact key_ne_of_nodup linked.held.apart.data left (Act.close.inj same).symm

-----------------------------------------------------------------------------------------
-- Sessions
-----------------------------------------------------------------------------------------

/-- A command that uses the file of its breakpoint. -/
theorem Linked.step_call {call : Except RegisterError Call} {answer : Option (Answer M)}
    {s' : Session} (linked : Linked others bps s d) (names : cmd.id = some id)
    (found : d.named id = some f) (stands : cmd.call = some call)
    (taken : s.step runtime (.command env cmd) = some (answer, s'))
    : ∃ d', Debugger.May d (.command env cmd) answer d' ∧ ∃ bps', Linked others bps' s' d' := by
  have own := linked.bps_eq_some found
  cases call with
  | error e =>
      rw [Session.step, runCmd_invalid names own stands] at taken
      cases taken
      exact ⟨d, .invalid names found stands, bps, linked⟩
  | ok call =>
      rw [Session.step, run_runCmd_call names own stands] at taken
      simp only [linked.bp_eq found, printed_copied _ _ stands] at taken
      cases taken
      exact ⟨_, .called names found stands, bps, linked.call f call⟩

theorem Linked.step_addBp {pid : Int32} {bpType : BreakpointType} {len : UInt8} {addr : UInt64}
    {answer : Option (Answer M)} {s' : Session} (linked : Linked others bps s d)
    (taken : s.step runtime (.command env (.addBp pid bpType len addr)) = some (answer, s'))
    : ∃ d',
        Debugger.May d (.command env (.addBp pid bpType len addr)) answer d'
        ∧ ∃ bps', Linked others bps' s' d' := by
  cases added : s.kernel.addBp env.adding (addBpBuf pid bpType len addr) with
  | none =>
      simp [Session.step, runCmd, addBp, sys, Program.run, Kernel.handle, added] at taken
  | some result =>
      obtain ⟨ret, k⟩ := result
      rcases linked.kernel_addBp added with ⟨negative, denied, linked'⟩
        | ⟨task, bp, thread, event, nonneg, same, absent, unused, linked'⟩
      · simp [Session.step, runCmd, addBp, sys, Program.run, Kernel.handle, added, errnoOf,
          negative] at taken
        obtain ⟨rfl, rfl⟩ := taken
        exact ⟨d, .refused (by omega) denied, bps, linked'⟩
      · have accepted : ¬ret < 0 := by omega
        have unknown := linked.bps_eq_none absent
        simp [Session.step, runCmd, addBp, sys, Program.run, Kernel.handle, added, errnoOf,
          accepted, insertBp, Breakpoint.asRawFd, same, unknown] at taken
        obtain ⟨rfl, rfl⟩ := taken
        exact ⟨_, .added absent unused thread event, _, linked'⟩

theorem Linked.step_delBp {answer : Option (Answer M)} {s' : Session}
    (linked : Linked others bps s d) (found : d.named id = some f)
    (taken : s.step runtime (.command env (.delBp id)) = some (answer, s'))
    : ∃ d', Debugger.May d (.command env (.delBp id)) answer d'
        ∧ ∃ bps', Linked others bps' s' d' := by
  obtain ⟨bps', linked'⟩ := linked.drop found
  simp [Session.step, runCmd, linked.bps_eq_some found, Breakpoint.drop, sys, Program.run,
    Kernel.handle] at taken
  obtain ⟨rfl, rfl⟩ := taken
  exact ⟨_, .deleted found, bps', linked'⟩

theorem Linked.step_wait {answer : Option (Answer M)} {s' : Session} (reports : runtime.Reports)
    (linked : Linked others bps s d) (found : d.named id = some f)
    (taken : s.step runtime (.command env (.wait id)) = some (answer, s'))
    : ∃ d', Debugger.May d (.command env (.wait id)) answer d'
        ∧ ∃ bps', Linked others bps' s' d' := by
  have own := linked.bps_eq_some found
  by_cases built : env.building < 0
  · simp [Session.step, runCmd, withBp, own, waitOn, sys, Program.run, Kernel.handle, built]
      at taken
    obtain ⟨rfl, rfl⟩ := taken
    exact ⟨d, .notBuilt found (by omega), bps, linked⟩
  · cases waited : Kernel.waitReadable runtime env id [] env.meanwhile s.kernel with
    | none =>
        simp [Session.step, runCmd, withBp, own, waitOn, Breakpoint.wait, sys, Program.run,
          Kernel.handle, built, waited] at taken
    | some result =>
        obtain ⟨ret, k⟩ := result
        obtain ⟨rets, files, ends, polled, linked'⟩ := linked.waitReadable found waited
        rw [List.nil_append] at ends
        by_cases failed : ret < 0
        · simp [Session.step, runCmd, withBp, own, waitOn, Breakpoint.wait, sys, Program.run,
            Kernel.handle, built, waited, failed] at taken
          obtain ⟨rfl, rfl⟩ := taken
          exact ⟨_, .notWaited found polled (by omega), bps, linked'⟩
        · simp [Session.step, runCmd, withBp, own, waitOn, Breakpoint.wait, sys, Program.run,
            Kernel.handle, built, waited, failed] at taken
          obtain ⟨rfl, rfl⟩ := taken
          exact ⟨_, .waited found polled (reports rets ret ends (by omega)), bps, linked'⟩

/-- What one event leads to, in the session and in the debugger. -/
theorem Linked.step {event : Event M} {answer : Option (Answer M)} {s' : Session}
    (reports : runtime.Reports) (linked : Linked others bps s d)
    (taken : s.step runtime event = some (answer, s'))
    : ∃ d', Debugger.May d event answer d' ∧ ∃ bps', Linked others bps' s' d' := by
  cases event with
  | elsewhere act =>
      obtain ⟨k, moved, same⟩ := Option.map_eq_some_iff.mp taken
      cases same
      obtain ⟨files, foreign, stepped, linked'⟩ := linked.elsewhere moved
      exact ⟨_, .elsewhere foreign stepped, bps, linked'⟩
  | command env cmd =>
      cases names : cmd.id with
      | none =>
          cases cmd with
          | addBp pid bpType len addr => exact linked.step_addBp taken
          | getMemMap _ | writeMem _ _ _ | readMem _ _ _ =>
              cases taken
              exact ⟨d, .memory rfl, bps, linked⟩
          | _ => contradiction
      | some id =>
          cases found : d.named id with
          | none =>
              rw [Session.step, runCmd_unknown names (linked.bps_eq_none found)] at taken
              cases taken
              exact ⟨d, .unknown names found, bps, linked⟩
          | some f =>
              cases cmd with
              | addBp _ _ _ _ | getMemMap _ | writeMem _ _ _ | readMem _ _ _ => contradiction
              | delBp _ =>
                  cases names
                  exact linked.step_delBp found taken
              | wait _ =>
                  cases names
                  exact linked.step_wait reports found taken
              | _ => exact linked.step_call names found rfl taken

end RwMem.Cli
