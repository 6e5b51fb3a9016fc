import RwMem.CeServer.ApiTable
import RwMem.Transition.Runs

/-! The iterator of a snapshot under any sequence of requests on its handle. -/

namespace RwMem.CeServer

open Collections RwMem.Driver Transition

/-- The snapshots that have an iterator. -/
inductive ListKind where
  | processes
  | modules

abbrev ListKind.Entry : ListKind → Type
  | .processes => ProcessListEntry
  | .modules => ModuleListEntry

def ListKind.snapshot : (kind : ListKind) → SnapshotKind kind.Entry
  | .processes => processSnapshot
  | .modules => moduleSnapshot

/-- A request on an iterator. -/
inductive ListRequest where
  | first
  | next
deriving DecidableEq

/-- The function of `CApi` for a request. -/
def ListKind.request (env : Environment)
    : (kind : ListKind) → ListRequest → ApiState → Int → Option (Option kind.Entry × ApiState)
  | .processes, .first, s, h => s.process32First env h
  | .processes, .next, s, h => s.process32Next env h
  | .modules, .first, s, h => s.module32First env h
  | .modules, .next, s, h => s.module32Next env h

/-- What is read behind a list. -/
def ListKind.behind (env : Environment) : (kind : ListKind) → Nat → kind.Entry
  | .processes => env.processBehind
  | .modules => env.moduleBehind

def ListRequest.move : ListRequest → Nat → Nat
  | .first, _ => 0
  | .next, readIter => readIter + 1

/-- The four functions move the iterator, each in its kind of list. -/
theorem ListKind.request_eq (env : Environment) (kind : ListKind) (request : ListRequest)
    (s : ApiState) (h : Int)
    : kind.request env request s h
      = s.moveIter kind.snapshot request.move (kind.behind env) h := by
  cases kind <;> cases request <;> rfl

/-- A handle that was just made for a snapshot has its iterator at the first entry. -/
theorem isSnapshot_of_newHandle {α : Type} {kind : SnapshotKind α} {s t : ApiState}
    {supply : Supply} {entries : List α} {h : Int}
    (made : s.newHandle supply (kind.object entries 0) = some (h, t))
    : IsSnapshot kind t h entries 0 := by
  obtain ⟨absent, _, _, rfl⟩ := newHandle_cases made
  have found : (s.handles.insert h ⟨supply.address, (kind.object entries 0).handleType⟩).find? h
      = some ⟨supply.address, (kind.object entries 0).handleType⟩ := by
    rw [OrderedMap.find?_insert absent, if_pos rfl]
  refine ⟨(getHandleType_of_find found).trans (kind.object_type entries 0), ?_⟩
  rw [getPointerFromHandle_of_find found]
  exact Function.update_self _ _ _

/-- The state with the last reply, and how many entries have been asked for behind the first one
since it was last asked for.
-/
structure CursorState (α : Type) where
  api : ApiState
  reply : Option α
  since : Option Nat

/-- The requests since the last one for the first entry. -/
def ListRequest.count : ListRequest → Option Nat → Option Nat
  | .first, _ => some 0
  | .next, since => since.map (fun k => k + 1)

/-- A request on the handle, with what surrounds it. -/
def cursorStep (kind : ListKind) (h : Int) (s : CursorState kind.Entry)
    (a : ListRequest × Environment)
    : Option (CursorState kind.Entry) :=
  (kind.request a.2 a.1 s.api h).map (fun (reply, api) =>
    { api := api, reply := reply, since := a.1.count s.since })

/-- The handle of the snapshot that nothing was asked of. -/
def CursorState.start {α : Type} (s : ApiState) : CursorState α :=
  { api := s, reply := none, since := none }

/-- The iterator stays in the list, and the replies are the entries asked for: none behind the last
one, and nothing that is not in the list.
-/
structure CursorInside (kind : ListKind) (h : Int) (entries : List kind.Entry)
    (s : CursorState kind.Entry)
    : Prop where
  iterator : ∃ readIter ≤ entries.length, IsSnapshot kind.snapshot s.api h entries readIter
  counted : ∀ k, s.since = some k → s.reply = entries[k]?
  listed : ∀ entry, s.reply = some entry → entry ∈ entries

/-- The next entry is asked for only while the iterator is not at the end. -/
def BeforeEnd (kind : ListKind) (h : Int) (entries : List kind.Entry) (s : CursorState kind.Entry)
    (a : ListRequest × Environment)
    : Prop :=
  a.1 = .next → ∃ readIter < entries.length, IsSnapshot kind.snapshot s.api h entries readIter

/-- The iterator is where the requests have moved it, be it in the list or not. -/
def Moved (kind : ListKind) (h : Int) (entries : List kind.Entry) (s : CursorState kind.Entry)
    : Prop :=
  ∃ readIter, IsSnapshot kind.snapshot s.api h entries readIter
    ∧ ∀ k, s.since = some k → readIter = k

/-- A snapshot has one iterator. -/
theorem IsSnapshot.unique {α : Type} {kind : SnapshotKind α} {s : ApiState} {h : Int}
    {entries entries' : List α} {readIter readIter' : Nat}
    (one : IsSnapshot kind s h entries readIter)
    (other : IsSnapshot kind s h entries' readIter')
    : readIter = readIter' := by
  have same := congrArg (Option.map kind.list?) (one.live.symm.trans other.live)
  simp only [Option.map_some, kind.list?_object, Option.some.injEq, Prod.mk.injEq] at same
  exact same.2

/-- What a request does to the snapshot. -/
theorem cursorStep_of_isSnapshot {kind : ListKind} {h : Int} {entries : List kind.Entry}
    {s : CursorState kind.Entry} {readIter : Nat}
    (snapshot : IsSnapshot kind.snapshot s.api h entries readIter)
    (a : ListRequest × Environment)
    : cursorStep kind h s a
      = some
          { api := s.api.setObject h (kind.snapshot.object entries (a.1.move readIter))
            reply := entryAt (kind.behind a.2) entries (a.1.move readIter)
            since := a.1.count s.since } := by
  rw [cursorStep, ListKind.request_eq, snapshot.moveIter]
  rfl

/-- The place of the iterator is the count of the requests. -/
theorem move_eq_of_count {request : ListRequest} {since : Option Nat} {readIter k : Nat}
    (before : ∀ j, since = some j → readIter = j) (counted : request.count since = some k)
    : request.move readIter = k := by
  cases request with
  | first => exact Option.some.inj counted
  | next =>
      obtain ⟨j, earlier, rfl⟩ := Option.map_eq_some_iff.mp counted
      exact congrArg (fun n => n + 1) (before j earlier)

theorem moved_cursorStep {kind : ListKind} {h : Int} {entries : List kind.Entry}
    {s t : CursorState kind.Entry} {a : ListRequest × Environment}
    (moved : Moved kind h entries s) (taken : cursorStep kind h s a = some t)
    : Moved kind h entries t := by
  obtain ⟨readIter, snapshot, since⟩ := moved
  obtain rfl := Option.some.inj ((cursorStep_of_isSnapshot snapshot a).symm.trans taken)
  exact ⟨a.1.move readIter, snapshot.setObject _, fun k counted => move_eq_of_count since counted⟩

/-- Inside of the list and at its end the entry at the iterator is the one of the list. -/
theorem entryAt_eq {α : Type} (behind : Nat → α) {entries : List α} {readIter : Nat}
    (inside : readIter ≤ entries.length)
    : entryAt behind entries readIter = entries[readIter]? := by
  rw [entryAt]
  split
  · next other =>
      have here : readIter < entries.length := Nat.lt_of_le_of_ne inside other
      rw [List.getElem?_eq_getElem here]
      rfl
  · next same => exact (List.getElem?_eq_none (Nat.le_of_eq (not_not.mp same).symm)).symm

/-- A request stays in the list exactly if it does not ask for more at the end. -/
theorem cursorInside_iff {kind : ListKind} {h : Int} {entries : List kind.Entry}
    {s t : CursorState kind.Entry} {a : ListRequest × Environment}
    (moved : Moved kind h entries s) (inside : CursorInside kind h entries s)
    (taken : cursorStep kind h s a = some t)
    : CursorInside kind h entries t ↔ BeforeEnd kind h entries s a := by
  obtain ⟨readIter, snapshot, since⟩ := moved
  obtain ⟨readIter', within, snapshot'⟩ := inside.iterator
  obtain rfl := snapshot.unique snapshot'
  obtain rfl := Option.some.inj ((cursorStep_of_isSnapshot snapshot a).symm.trans taken)
  have there := snapshot.setObject (a.1.move readIter)
  have ends (stays : a.1.move readIter ≤ entries.length)
      : CursorInside kind h entries
          { api := s.api.setObject h (kind.snapshot.object entries (a.1.move readIter))
            reply := entryAt (kind.behind a.2) entries (a.1.move readIter)
            since := a.1.count s.since } := by
    refine ⟨⟨_, stays, there⟩, fun k counted => ?_, fun entry replied => ?_⟩
    · rw [← move_eq_of_count since counted]
      exact entryAt_eq _ stays
    · exact List.mem_of_getElem? ((entryAt_eq _ stays).symm.trans replied)
  obtain ⟨request, env⟩ := a
  cases request with
  | first => exact iff_of_true (ends (Nat.zero_le _)) (fun next => nomatch next)
  | next =>
      constructor
      · intro later _
        obtain ⟨readIter'', within', snapshot''⟩ := later.iterator
        obtain rfl := there.unique snapshot''
        exact ⟨readIter, within', snapshot⟩
      · intro before
        obtain ⟨readIter'', within', snapshot''⟩ := before rfl
        obtain rfl := snapshot.unique snapshot''
        exact ends within'

/-- For every snapshot and every sequence of requests on its handle, all are answered, and the
iterator stays in the list and the replies are the entries asked for exactly if no request asks for
the next entry while the iterator is at the end.
-/
theorem cursorInside_iff_beforeEnd (kind : ListKind) (s : ApiState) (h : Int)
    (entries : List kind.Entry) (snapshot : IsSnapshot kind.snapshot s h entries 0)
    (acts : List (ListRequest × Environment))
    : (∃ t, exec (cursorStep kind h) (.start s) acts = some t)
      ∧ (Throughout (cursorStep kind h) (CursorInside kind h entries) (.start s) acts
        ↔ Along (cursorStep kind h) (BeforeEnd kind h entries) (.start s) acts) := by
  have moved : Moved kind h entries (.start s) := ⟨0, snapshot, fun k counted => nomatch counted⟩
  have inside : CursorInside kind h entries (.start s) :=
    ⟨⟨0, Nat.zero_le _, snapshot⟩, fun k counted => (nomatch counted),
      fun entry replied => nomatch replied⟩
  have known : Throughout (cursorStep kind h) (Moved kind h entries) (.start s) acts :=
    invariant_of_step acts moved (fun _ _ _ now taken => moved_cursorStep now taken)
  have allowed : Along (cursorStep kind h) (fun _ _ => True) (.start s) acts :=
    along_of_forall (fun _ _ _ => trivial) _
  have enabled : ∀ t a, Moved kind h entries t → ∃ u, cursorStep kind h t a = some u := by
    intro t a now
    obtain ⟨readIter, there, _⟩ := now
    exact ⟨_, cursorStep_of_isSnapshot there a⟩
  obtain ⟨t, run⟩ := exists_exec acts moved enabled
    (fun _ _ _ now taken => moved_cursorStep now taken)
  refine ⟨⟨t, run⟩, throughout_iff_along known allowed inside ?_ run⟩
  intro u a v now _ stays taken
  exact cursorInside_iff now stays taken

/-- A server with one handle, which is that of a snapshot of one process. -/
def oneProcess : ApiState where
  handles := OrderedMap.empty.insert 10000 ⟨64, .htTHSProcess⟩
  heap p := if p = 64 then some (.processList ⟨[⟨1, [97]⟩], 0⟩) else none

theorem isSnapshot_oneProcess
    : IsSnapshot ListKind.processes.snapshot oneProcess 10000 [⟨1, [97]⟩] 0 :=
  ⟨by decide +kernel, by decide +kernel⟩

/-- The entry is asked for, then the end is met, and the entry is asked for again. -/
def firstNextFirst : List (ListRequest × Environment) :=
  [.first, .next, .first].map (fun request => (request, quietEnvironment 128 0))

theorem cursorInside_iff_beforeEnd_oneProcess
    : (∃ t, exec (cursorStep .processes 10000) (.start oneProcess) firstNextFirst = some t)
      ∧ (Throughout (cursorStep .processes 10000) (CursorInside .processes 10000 [⟨1, [97]⟩])
          (.start oneProcess) firstNextFirst
        ↔ Along (cursorStep .processes 10000) (BeforeEnd .processes 10000 [⟨1, [97]⟩])
          (.start oneProcess) firstNextFirst) :=
  cursorInside_iff_beforeEnd .processes oneProcess 10000 [⟨1, [97]⟩] isSnapshot_oneProcess
    firstNextFirst

/-- After the last entry `FALSE` is answered once. The request behind it answers with what lies
behind the list.
-/
theorem not_cursorInside
    : ¬∀ kind s h entries, IsSnapshot (ListKind.snapshot kind) s h entries 0 → ∀ acts,
        Throughout (cursorStep kind h) (CursorInside kind h entries) (.start s) acts := by
  intro always
  let acts := [ListRequest.next, .next].map (fun request => (request, quietEnvironment 128 0))
  have ran : (exec (cursorStep .processes 10000) (.start oneProcess) acts).map
      CursorState.reply = some (some ⟨0, []⟩) := by decide +kernel
  obtain ⟨t, run, replied⟩ := Option.map_eq_some_iff.mp ran
  have inside := (always .processes oneProcess 10000 _ isSnapshot_oneProcess acts).final run
  exact absurd (inside.listed ⟨0, []⟩ replied) (by decide)

end RwMem.CeServer
