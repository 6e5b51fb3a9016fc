import RwMem.CeServer.Cursors
import RwMem.CeServer.TableIntegrity
import RwMem.Transition.Answers

/-! The requests on one snapshot among all other calls of all clients: they are answered as if there
were no other calls.
-/

namespace RwMem.CeServer

open Collections RwMem.Driver Transition

variable {kind : ListKind} {s t : ApiState} {h j : Int}

-----------------------------------------------------------------------------------------
-- What a call leaves alone
-----------------------------------------------------------------------------------------

/-- The handle, if it is there, stays, with its object as it was. -/
def Keeps (s t : ApiState) (h : Int) : Prop :=
  ∀ info, s.handles.find? h = some info
    → t.handles.find? h = some info ∧ t.heap info.p = s.heap info.p

theorem keeps_refl (s : ApiState) (h : Int) : Keeps s s h := fun _ found => ⟨found, rfl⟩

/-- A handle that is kept is that of the same snapshot. -/
theorem IsSnapshot.of_keeps {α : Type} {kind : SnapshotKind α} {entries : List α} {readIter : Nat}
    (snapshot : IsSnapshot kind s h entries readIter) (keeps : Keeps s t h)
    : IsSnapshot kind t h entries readIter := by
  obtain ⟨info, found, type⟩ := exists_find_of_type snapshot.typed kind.type_ne_htEmpty
  obtain ⟨stays, same⟩ := keeps info found
  have live := snapshot.live
  rw [getPointerFromHandle_of_find found] at live
  refine ⟨(getHandleType_of_find stays).trans type, ?_⟩
  rw [getPointerFromHandle_of_find stays, same, live]

/-- The handles of different objects do not touch each other. -/
theorem keeps_setObject (ok : TableOk s) {info : HandleInfo} (found : s.handles.find? j = some info)
    (other : j ≠ h) (object : Object)
    : Keeps s (s.setObject j object) h := by
  intro info' found'
  refine ⟨found', Function.update_of_ne ?_ _ _⟩
  rw [getPointerFromHandle_of_find found]
  exact fun same => other (ok.apart j h info info' found found' same.symm)

theorem keeps_newHandle (ok : TableOk s) {supply : Supply} {object : Object}
    (made : s.newHandle supply object = some (j, t))
    : Keeps s t h := by
  obtain ⟨absent, _, fresh, rfl⟩ := newHandle_cases made
  intro info found
  have other : h ≠ j := by
    rintro rfl
    rw [absent] at found
    contradiction
  have apart : info.p ≠ supply.address := by
    intro same
    have live := ok.typed h info found
    rw [same, fresh] at live
    contradiction
  refine ⟨?_, Function.update_of_ne apart _ _⟩
  rw [OrderedMap.find?_insert absent, if_neg other, found]

theorem keeps_closeHandle (ok : TableOk s) (other : j ≠ h) (closed : s.closeHandle j = some t)
    : Keeps s t h := by
  have apart : h ≠ j := fun same => other same.symm
  cases found : s.handles.find? j with
  | none =>
      cases (closeHandle_of_absent found).symm.trans closed
      intro info found'
      refine ⟨?_, rfl⟩
      rw [ApiState.removeHandle, OrderedMap.find?_erase, if_neg apart, found']
  | some info =>
      cases (closeHandle_of_find ok found).symm.trans closed
      intro info' found'
      refine ⟨?_, Function.update_of_ne ?_ _ _⟩
      · rw [OrderedMap.find?_erase, if_neg apart, found']
      · exact fun same => apart (ok.apart h j info' info found' found same)

theorem keeps_moveIter {α : Type} {kind : SnapshotKind α} (ok : TableOk s) {move : Nat → Nat}
    {behind : Nat → α} {reply : Option α} (other : j ≠ h ∨ s.getHandleType h ≠ kind.type)
    (moved : s.moveIter kind move behind j = some (reply, t))
    : Keeps s t h := by
  by_cases typed : s.getHandleType j = kind.type
  · have apart : j ≠ h := by
      rcases other with apart | different
      · exact apart
      · rintro rfl
        exact different typed
    obtain ⟨entries, readIter, snapshot⟩ := ok.exists_snapshot typed
    cases (snapshot.moveIter move behind).symm.trans moved
    obtain ⟨info, found, _⟩ := exists_find_of_type typed kind.type_ne_htEmpty
    exact keeps_setObject ok found apart _
  · cases (moveIter_of_type_ne typed move behind).symm.trans moved
    exact keeps_refl s h

theorem keeps_moduleEntries {env : Environment} {entries : List ModuleListEntry} (ok : TableOk s)
    (other : j ≠ h) (gathered : s.moduleEntries env j = some (entries, t))
    : Keeps s t h := by
  by_cases typed : s.getHandleType j = .htTHSModule
  · have typed : s.getHandleType j = moduleSnapshot.type := typed
    obtain ⟨_, _, snapshot⟩ := ok.exists_snapshot typed
    cases (moduleEntries_eq snapshot).symm.trans gathered
    obtain ⟨info, found, _⟩ := exists_find_of_type typed moduleSnapshot.type_ne_htEmpty
    exact keeps_setObject ok found other _
  · cases (moduleEntries_of_type_ne typed).symm.trans gathered
    exact keeps_refl s h

/-- What changes only a cache keeps the handles that are not those of processes. -/
theorem keeps_onlyCache (ok : TableOk s) (other : s.getHandleType h ≠ .htProcesHandle)
    (cache : OnlyCache s t)
    : Keeps s t h := by
  rcases cache with rfl | ⟨i, process, process', ⟨info, found, type, _⟩, _, _, rfl⟩
  · exact keeps_refl t h
  · have apart : i ≠ h := by
      rintro rfl
      exact other ((getHandleType_of_find found).trans type)
    exact keeps_setObject ok found apart (.openProcess process')

-----------------------------------------------------------------------------------------
-- The requests on one snapshot
-----------------------------------------------------------------------------------------

/-- The request on the iterator of a handle that a call is, if it is one. -/
def ListKind.requestOn (kind : ListKind) (h : Int) (a : Invocation)
    : Option (ListRequest × Environment) :=
  match kind, a.call with
  | .processes, .process32First j => if j = h then some (.first, a.env) else none
  | .processes, .process32Next j => if j = h then some (.next, a.env) else none
  | .modules, .module32First j => if j = h then some (.first, a.env) else none
  | .modules, .module32Next j => if j = h then some (.next, a.env) else none
  | _, _ => none

/-- What such a request is answered with. -/
def ListKind.replyOn (h : Int)
    : (kind : ListKind) → (call : ApiCall) → call.Reply → Option (Option kind.Entry)
  | .processes, .process32First j, reply => if j = h then some reply else none
  | .processes, .process32Next j, reply => if j = h then some reply else none
  | .modules, .module32First j, reply => if j = h then some reply else none
  | .modules, .module32Next j, reply => if j = h then some reply else none
  | _, _, _ => none

/-- A call of any client, of which the answers to requests on one handle are seen. -/
def watchStep (kind : ListKind) (h : Int) (s : ApiState) (a : Invocation)
    : Option (Option (Option kind.Entry) × ApiState) :=
  (s.answer a.env a.call).map (fun (reply, t) => (kind.replyOn h a.call reply, t))

/-- The list alone, with a place in it. -/
def iterate (kind : ListKind) (entries : List kind.Entry) (readIter : Nat)
    (a : ListRequest × Environment)
    : Option kind.Entry × Nat :=
  (entryAt (kind.behind a.2) entries (a.1.move readIter), a.1.move readIter)

/-- A call that neither closes the handle nor reads its whole list on its own. -/
def LeavesIterator (h : Int) (a : Invocation) : Prop :=
  a.call ≠ .closeHandle h ∧ a.call ≠ .moduleEntries h

/-- A request on the handle moves its iterator. -/
theorem watchStep_of_requestOn {a : Invocation} {request : ListRequest × Environment}
    (requests : kind.requestOn h a = some request)
    : watchStep kind h s a
      = (s.moveIter kind.snapshot request.1.move (kind.behind request.2) h).map
          (fun (reply, t) => (some reply, t)) := by
  obtain ⟨call, env⟩ := a
  cases kind with
  | processes =>
      cases call with
      | process32First j | process32Next j =>
          simp only [ListKind.requestOn] at requests
          split at requests
          · next same =>
              subst same
              cases requests
              simp only [watchStep, ListKind.replyOn, if_true]
              rfl
          · cases requests
      | _ => cases requests
  | modules =>
      cases call with
      | module32First j | module32Next j =>
          simp only [ListKind.requestOn] at requests
          split at requests
          · next same =>
              subst same
              cases requests
              simp only [watchStep, ListKind.replyOn, if_true]
              rfl
          · cases requests
      | _ => cases requests

theorem ListKind.type_ne {kind kind' : ListKind} (other : kind' ≠ kind)
    : kind.snapshot.type ≠ kind'.snapshot.type := by
  cases kind <;> cases kind' <;> first | exact absurd rfl other | decide

/-- So do requests on other handles and of the other kind. -/
theorem keeps_of_request {kind' : ListKind} {env : Environment} (request : ListRequest)
    {reply : Option kind'.Entry} (ok : TableOk s)
    (typed : s.getHandleType h = kind.snapshot.type) (other : kind' = kind → j ≠ h)
    (answered : kind'.request env request s j = some (reply, t))
    : Keeps s t h := by
  rw [ListKind.request_eq] at answered
  refine keeps_moveIter ok ?_ answered
  by_cases same : kind' = kind
  · exact Or.inl (other same)
  · rw [typed]
    exact Or.inr (ListKind.type_ne same)

/-- The call of `CApi` that a request is. -/
def ListKind.call : ListKind → ListRequest → Int → ApiCall
  | .processes, .first => .process32First
  | .processes, .next => .process32Next
  | .modules, .first => .module32First
  | .modules, .next => .module32Next

/-- A request that is none on the handle is of the other kind, or on another handle. -/
theorem ListKind.ne_of_requestOn_none (kind' : ListKind) (request : ListRequest)
    {env : Environment} (others : kind.requestOn h ⟨kind'.call request j, env⟩ = none)
    (same : kind' = kind)
    : j ≠ h := by
  rintro rfl
  subst same
  cases kind' <;> cases request <;> simp [ListKind.requestOn, ListKind.call] at others

/-- Every other call leaves the snapshot alone. -/
theorem keeps_of_answer {a : Invocation} {reply : a.call.Reply} (ok : TableOk s)
    (typed : s.getHandleType h = kind.snapshot.type) (others : kind.requestOn h a = none)
    (leaves : LeavesIterator h a) (answered : s.answer a.env a.call = some (reply, t))
    : Keeps s t h := by
  have notProcess : s.getHandleType h ≠ .htProcesHandle := by
    rw [typed]
    exact kind.snapshot.not_process
  obtain ⟨call, env⟩ := a
  obtain ⟨notClosed, notGathered⟩ := leaves
  cases call with
  | closeHandle j =>
      obtain ⟨t', closed, same⟩ := Option.map_eq_some_iff.mp answered
      cases same
      exact keeps_closeHandle ok (fun same => notClosed (congrArg ApiCall.closeHandle same)) closed
  | createToolhelp32Snapshot dwFlags pid =>
      rcases createToolhelp32Snapshot_cases answered with ⟨_, rfl⟩ | ⟨_, _, made⟩
      · exact keeps_refl _ h
      · exact keeps_newHandle ok made
  | openProcess pid =>
      rcases openProcess_newHandle answered with rfl | ⟨_, made⟩
      · exact keeps_refl _ h
      · exact keeps_newHandle ok made
  | process32First j =>
      have other := ListKind.ne_of_requestOn_none .processes .first others
      exact keeps_of_request .first ok typed other answered
  | process32Next j =>
      have other := ListKind.ne_of_requestOn_none .processes .next others
      exact keeps_of_request .next ok typed other answered
  | module32First j =>
      have other := ListKind.ne_of_requestOn_none .modules .first others
      exact keeps_of_request .first ok typed other answered
  | module32Next j =>
      have other := ListKind.ne_of_requestOn_none .modules .next others
      exact keeps_of_request .next ok typed other answered
  | moduleEntries j =>
      exact keeps_moduleEntries ok (fun same => notGathered (congrArg ApiCall.moduleEntries same))
        answered
  | virtualQueryExFull j flags =>
      exact keeps_onlyCache ok notProcess (virtualQueryExFull_onlyCache answered)
  | virtualQueryEx j address =>
      exact keeps_onlyCache ok notProcess (virtualQueryEx_onlyCache answered)
  | threadList _ | readProcessMemory _ _ _ | writeProcessMemory _ _ _ =>
      obtain ⟨_, _, same⟩ := Option.map_eq_some_iff.mp answered
      cases same
      exact keeps_refl s h
  | deflate _ _ | uninitialized =>
      cases answered
      exact keeps_refl s h

theorem replyOn_of_requestOn_none {a : Invocation} (others : kind.requestOn h a = none)
    (reply : a.call.Reply)
    : kind.replyOn h a.call reply = none := by
  obtain ⟨call, env⟩ := a
  cases kind with
  | processes =>
      cases call with
      | process32First j | process32Next j =>
          simp only [ListKind.requestOn] at others
          split at others
          · cases others
          · next other => exact if_neg other
      | _ => rfl
  | modules =>
      cases call with
      | module32First j | module32Next j =>
          simp only [ListKind.requestOn] at others
          split at others
          · cases others
          · next other => exact if_neg other
      | _ => rfl

/-- What one call of any client does to a snapshot: the requests on its handle are answered by the
list, and no other call has to do with it.
-/
theorem watchStep_cases {a : Invocation} {entries : List kind.Entry} {readIter : Nat}
    {seen : Option (Option kind.Entry)} (ok : TableOk s)
    (snapshot : IsSnapshot kind.snapshot s h entries readIter) (leaves : LeavesIterator h a)
    (taken : watchStep kind h s a = some (seen, t))
    : (∃ request,
        kind.requestOn h a = some request
        ∧ seen = some (iterate kind entries readIter request).1
        ∧ IsSnapshot kind.snapshot t h entries (iterate kind entries readIter request).2)
      ∨ (kind.requestOn h a = none
        ∧ seen = none
        ∧ IsSnapshot kind.snapshot t h entries readIter) := by
  cases requests : kind.requestOn h a with
  | some request =>
      rw [watchStep_of_requestOn requests, snapshot.moveIter] at taken
      cases taken
      exact Or.inl ⟨request, rfl, rfl, snapshot.setObject _⟩
  | none =>
      obtain ⟨⟨reply, t'⟩, answered, same⟩ := Option.map_eq_some_iff.mp taken
      cases same
      refine Or.inr ⟨rfl, replyOn_of_requestOn_none requests reply, ?_⟩
      exact snapshot.of_keeps (keeps_of_answer ok snapshot.typed requests leaves answered)

/-- The requests on a handle among all calls are answered as by its list alone, by induction on the
calls.
-/
theorem replies_of_watchStep {entries : List kind.Entry} {readIter : Nat}
    {acts : List Invocation} {seen : List (Option (Option kind.Entry))} (ok : TableOk s)
    (snapshot : IsSnapshot kind.snapshot s h entries readIter)
    (leaves : ∀ a ∈ acts, LeavesIterator h a)
    (run : answers (watchStep kind h) s acts = some (seen, t))
    : seen.filterMap id
        = (replies (iterate kind entries) readIter (acts.filterMap (kind.requestOn h))).1 := by
  induction acts generalizing s readIter seen with
  | nil =>
      cases run
      rfl
  | cons a rest ih =>
      obtain ⟨⟨first, s'⟩, taken, later⟩ := Option.bind_eq_some_iff.mp run
      obtain ⟨⟨others, t'⟩, tail, same⟩ := Option.map_eq_some_iff.mp later
      cases same
      have ok' : TableOk s' := by
        obtain ⟨⟨reply, s''⟩, answered, same⟩ := Option.map_eq_some_iff.mp taken
        cases same
        exact (effect_of_answer ok answered).tableOk ok
      have leavesLater : ∀ b ∈ rest, LeavesIterator h b :=
        fun b member => leaves b (List.mem_cons_of_mem a member)
      rcases watchStep_cases ok snapshot (leaves a List.mem_cons_self) taken with
        ⟨request, requests, rfl, moved⟩ | ⟨requests, rfl, stays⟩
      · rw [List.filterMap_cons_some requests, replies_cons, ← ih ok' moved leavesLater tail]
        rfl
      · rw [List.filterMap_cons_none requests, ← ih ok' stays leavesLater tail]
        rfl

-----------------------------------------------------------------------------------------
-- Lists that are read to their ends
-----------------------------------------------------------------------------------------

/-- From a place in the list on, the requests for the next entry give the rest of it one by one, and
then `FALSE`. Induction on the requests.
-/
theorem replies_next {entries : List kind.Entry} {requests : List (ListRequest × Environment)}
    {readIter left : Nat} (nexts : requests.map Prod.fst = List.replicate left .next)
    (ends : readIter + left = entries.length)
    : entries[readIter]? :: (replies (iterate kind entries) readIter requests).1
      = (entries.drop readIter).map some ++ [none] := by
  induction left generalizing readIter requests with
  | zero =>
      obtain rfl := List.map_eq_nil_iff.mp nexts
      rw [List.getElem?_eq_none (by omega), List.drop_of_length_le (by omega)]
      rfl
  | succ left ih =>
      obtain ⟨request, rest, rfl, next, later⟩ := List.map_eq_cons_iff.mp nexts
      have here : readIter < entries.length := by omega
      have there : readIter + 1 ≤ entries.length := by omega
      have first : (iterate kind entries readIter request).1 = entries[readIter + 1]? := by
        rw [iterate, next]
        exact entryAt_eq _ there
      have place : (iterate kind entries readIter request).2 = readIter + 1 := by
        rw [iterate, next]
        rfl
      rw [replies_cons, first, place, ih later (by omega), List.getElem?_eq_getElem here,
        List.drop_eq_getElem_cons here, List.map_cons, List.cons_append]

/-- The first entry is asked for, and as many further ones as there are entries. -/
theorem replies_list {entries : List kind.Entry} {requests : List (ListRequest × Environment)}
    (readIter : Nat)
    (asked : requests.map Prod.fst = .first :: List.replicate entries.length .next)
    : (replies (iterate kind entries) readIter requests).1 = entries.map some ++ [none] := by
  obtain ⟨request, rest, rfl, first, later⟩ := List.map_eq_cons_iff.mp asked
  have start : iterate kind entries readIter request = (entries[0]?, 0) := by
    rw [iterate, first]
    exact congrArg (fun entry => (entry, 0)) (entryAt_eq _ (Nat.zero_le _))
  rw [replies_cons, start]
  exact replies_next later (Nat.zero_add _)

/-- What a snapshot is made of: the numbered directories of `/proc`, or the modules among the
regions that the driver lists.
-/
def ListKind.taken (env : Environment) (pid : Int) : (kind : ListKind) → List kind.Entry
  | .processes => getProcessListInfo env.proc
  | .modules => addModules (env.readMagic (toUint64 pid)) (env.virtualQueryExFull (toUint64 pid) false) []

/-- A snapshot that was made has its entries, with the iterator at the first. -/
theorem isSnapshot_of_createToolhelp32Snapshot {env : Environment} {dwFlags : UInt32} {pid : Int}
    (ok : TableOk s) (made : s.createToolhelp32Snapshot env dwFlags pid = some (h, t))
    (present : h ≠ 0) (asks : snapshotType dwFlags = kind.snapshot.type)
    : IsSnapshot kind.snapshot t h (kind.taken env pid) 0 := by
  cases kind with
  | processes =>
      have process : dwFlags &&& TH32CS_SNAPPROCESS ≠ 0 := by
        by_contra none
        rw [snapshotType, if_neg (not_not_intro none)] at asks
        split at asks <;> contradiction
      rw [ApiState.createToolhelp32Snapshot, if_pos process] at made
      exact isSnapshot_of_newHandle made
  | modules =>
      have flags : ¬dwFlags &&& TH32CS_SNAPPROCESS ≠ 0 ∧ dwFlags &&& TH32CS_SNAPMODULE ≠ 0 := by
        rw [snapshotType] at asks
        split at asks
        · contradiction
        · next process =>
            split at asks
            · next module => exact ⟨process, module⟩
            · contradiction
      rw [ApiState.createToolhelp32Snapshot, if_neg flags.1, if_pos flags.2] at made
      obtain ⟨hm, found, made⟩ := Option.bind_eq_some_iff.mp made
      split at made
      · cases made
        exact absurd rfl present
      · next opened =>
          obtain ⟨process, ⟨info, listed, _, here⟩, same⟩ := findHandleByPID_spec found opened
          have driver : process.u64DriverProcessHandle = toUint64 pid := by
            rw [ok.driver info.p process here, same]
          rw [getPointerFromHandle_of_find listed, here, Option.bind_some] at made
          dsimp only at made
          split at made
          · cases made
            exact absurd rfl present
          · rw [driver] at made
            exact isSnapshot_of_newHandle made

/-- The calls of any run leave the table in order. -/
theorem tableOk_of_exec {acts : List Invocation} (reached : exec invocationStep .initial acts = some s)
    : TableOk s := by
  refine (invariant_of_step acts tableOk_initial (fun _ _ _ ok taken => ?_)).final reached
  exact (effect_of_invocationStep ok taken).tableOk ok

/-- The requests on a snapshot's handle are answered by the list that was taken when the snapshot was
made, whatever calls any clients make in between, and whatever has become of the device. So a client
that asks for the first entry and then for the next ones gets each entry once, in its order, and
then `FALSE`.
-/
theorem snapshot_isolated (kind : ListKind) (before : List Invocation)
    (reached : exec invocationStep .initial before = some s) {env : Environment} {dwFlags : UInt32}
    {pid : Int} (asks : snapshotType dwFlags = kind.snapshot.type)
    (made : s.createToolhelp32Snapshot env dwFlags pid = some (h, t)) (present : h ≠ 0)
    (acts : List Invocation) (leaves : ∀ a ∈ acts, LeavesIterator h a)
    {seen : List (Option (Option kind.Entry))} {u : ApiState}
    (run : answers (watchStep kind h) t acts = some (seen, u))
    : let requests := acts.filterMap (kind.requestOn h)
      let entries := kind.taken env pid
      seen.filterMap id = (replies (iterate kind entries) 0 requests).1
      ∧ (requests.map Prod.fst = .first :: List.replicate entries.length .next
        → seen.filterMap id = entries.map some ++ [none]) := by
  intro requests entries
  have ok := tableOk_of_exec reached
  have snapshot := isSnapshot_of_createToolhelp32Snapshot ok made present asks
  have ok' := (effect_of_createToolhelp32Snapshot made).tableOk ok
  have answered := replies_of_watchStep ok' snapshot leaves run
  exact ⟨answered, fun asked => answered.trans (replies_list 0 asked)⟩

/-- The one process is asked for, another client opens it, and the end is met. -/
def listAndOpen : List Invocation :=
  [⟨.process32First 10000, quietEnvironment 128 0⟩, ⟨.openProcess 1, quietEnvironment 192 9000⟩,
    ⟨.process32Next 10000, quietEnvironment 128 0⟩]

theorem leavesIterator_listAndOpen : ∀ a ∈ listAndOpen, LeavesIterator 10000 a := by
  simp [listAndOpen, LeavesIterator]

theorem snapshot_isolated_listAndOpen
    : ∃ t seen u,
        ApiState.initial.createToolhelp32Snapshot (quietEnvironment 64 0) 2 0 = some (10000, t)
        ∧ answers (watchStep .processes 10000) t listAndOpen = some (seen, u)
        ∧ seen.filterMap id = [some ⟨1, [97, 32]⟩, none] := by
  have ran : ((ApiState.initial.createToolhelp32Snapshot (quietEnvironment 64 0) 2 0).bind
      (fun made => (answers (watchStep .processes 10000) made.2 listAndOpen).map
        (fun result => (made.1, result.1))))
      = some (10000, [some (some ⟨1, [97, 32]⟩), none, some none]) := by decide +kernel
  obtain ⟨⟨h, t⟩, made, answered⟩ := Option.bind_eq_some_iff.mp ran
  obtain ⟨⟨seen, u⟩, run, same⟩ := Option.map_eq_some_iff.mp answered
  cases same
  refine ⟨t, _, u, made, run, ?_⟩
  have taken : ListKind.processes.taken (quietEnvironment 64 0) 0 = [⟨1, [97, 32]⟩] := by
    decide +kernel
  have isolated := snapshot_isolated .processes [] rfl (by decide) made (by decide) listAndOpen
    leavesIterator_listAndOpen run
  rw [taken] at isolated
  exact isolated.2 rfl

end RwMem.CeServer
