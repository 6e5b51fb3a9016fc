import RwMem.CeServer.RegionWalk
import RwMem.Transition.Runs

/-! The cache of the regions of a process over any run of opens and queries: which queries the driver
was asked, and when an answer is made of a list that it gave.
-/

namespace RwMem.CeServer

open Collections RwMem.Driver RwMem.Server Transition

/-- What the driver answered to a query. The list is as old as the reading of the clock behind the
query.
-/
structure RegionQuery where
  maps : List Server.RegionInfo
  time : Nat
deriving DecidableEq

def askDriver (driver : Surroundings) (process : CeOpenProcess) : RegionQuery where
  maps := driver.virtualQueryExFull process.u64DriverProcessHandle true
  time := driver.thenTime

/-- An empty list leaves the time of a process that was never queried. -/
def CeOpenProcess.keep (process : CeOpenProcess) (query : RegionQuery) : CeOpenProcess :=
  { process with
    vLastMaps := query.maps
    nLastGetMapsTime := if query.maps = [] then 0 else query.time }

/-- The output of a query before its regions are looked at. -/
def pageOutput (rinfo : RegionInfo) (lpAddress : Nat) : RegionInfo :=
  { rinfo with protection := 0, baseaddress := pageOf lpAddress }

/-- `VirtualQueryEx`, with the queries that it asks the driver. -/
def ApiState.virtualQueryExAsking (driver : Surroundings) (s : ApiState) (hProcess : Int)
    (lpAddress : Nat) (rinfo : RegionInfo)
    : Option (List RegionQuery × QueryResult × ApiState) :=
  (s.processOf hProcess).map (fun found =>
    match found with
    | none => ([], ⟨0, rinfo, []⟩, s)
    | some process =>
        if IsStale driver process then
          let query := askDriver driver process
          ([query],
            if query.maps = [] then ⟨0, rinfo, []⟩
            else queryRegions (pageOutput rinfo lpAddress) query.maps,
            s.setProcess hProcess (process.keep query))
        else
          ([], queryRegions (pageOutput rinfo lpAddress) process.vLastMaps,
            s.setProcess hProcess process))

/-- `VirtualQueryExFull`, with the query that it asks the driver. -/
def ApiState.virtualQueryExFullAsking (driver : Surroundings) (s : ApiState) (hProcess : Int)
    (flags : Nat)
    : Option (List RegionQuery × Option (List RegionInfo) × ApiState) :=
  (s.processOf hProcess).map (fun found =>
    match found with
    | none => ([], none, s)
    | some process =>
        let query := askDriver driver process
        ([query], if query.maps = [] then none else some (listedRegions flags query.maps),
          s.setProcess hProcess (process.keep query)))

theorem refreshed_of_stale {driver : Surroundings} {process : CeOpenProcess}
    (stale : ApiState.IsStale driver process)
    : ApiState.refreshed driver process = process.keep (askDriver driver process) :=
  if_pos stale

theorem refreshed_of_not_stale {driver : Surroundings} {process : CeOpenProcess}
    (cached : ¬ApiState.IsStale driver process)
    : ApiState.refreshed driver process = process :=
  if_neg cached

/-- What a query does on a cache that is too old, and on one that is not. -/
theorem virtualQueryExAsking_of_isProcess {s : ApiState} {h : Int} {process : CeOpenProcess}
    (here : IsProcess s h process) (driver : Surroundings) (lpAddress : Nat) (rinfo : RegionInfo)
    : s.virtualQueryExAsking driver h lpAddress rinfo
      = some
          (if ApiState.IsStale driver process then
            ([askDriver driver process],
              if (askDriver driver process).maps = [] then ⟨0, rinfo, []⟩
              else queryRegions (pageOutput rinfo lpAddress) (askDriver driver process).maps,
              s.setProcess h (process.keep (askDriver driver process)))
          else
            ([], queryRegions (pageOutput rinfo lpAddress) process.vLastMaps,
              s.setProcess h process)) := by
  rw [ApiState.virtualQueryExAsking, processOf_eq_some.mpr here]
  rfl

/-- The queries are only written down. -/
theorem virtualQueryEx_eq_asking (driver : Surroundings) (s : ApiState) (hProcess : Int)
    (lpAddress : Nat) (rinfo : RegionInfo)
    : s.virtualQueryEx driver hProcess lpAddress rinfo
      = (s.virtualQueryExAsking driver hProcess lpAddress rinfo).map Prod.snd := by
  cases passed : s.processOf hProcess with
  | none => rw [ApiState.virtualQueryEx, ApiState.virtualQueryExAsking, passed]; rfl
  | some found =>
      cases found with
      | none => rw [ApiState.virtualQueryEx, ApiState.virtualQueryExAsking, passed]; rfl
      | some process =>
          have here := processOf_eq_some.mp passed
          rw [virtualQueryEx_of_isProcess here, virtualQueryExAsking_of_isProcess here,
            Option.map_some]
          by_cases stale : ApiState.IsStale driver process
          · rw [if_pos stale, refreshed_of_stale stale]
            simp only [stale, true_and]
            rfl
          · rw [if_neg stale, refreshed_of_not_stale stale]
            simp only [stale, false_and, if_false]
            rfl

theorem virtualQueryExFull_eq_asking (driver : Surroundings) (s : ApiState) (hProcess : Int)
    (flags : Nat)
    : s.virtualQueryExFull driver hProcess flags
      = (s.virtualQueryExFullAsking driver hProcess flags).map Prod.snd := by
  rw [ApiState.virtualQueryExFull, ApiState.virtualQueryExFullAsking, Option.map_map]
  congr 1
  funext found
  cases found with
  | none => rfl
  | some process => rfl

inductive CacheRequest where
  | openProcess (pid : Int)
  | virtualQueryEx (hProcess : Int) (lpAddress : Nat) (rinfo : RegionInfo)
  | virtualQueryExFull (hProcess : Int) (flags : Nat)

/-- A request with what its surroundings give to it. -/
structure CacheAction where
  request : CacheRequest
  supply : Supply
  driver : Surroundings

/-- The queries of the request with the handle that they are for, and the state after it. -/
def CacheAction.perform (a : CacheAction) (s : ApiState)
    : Option ((Int × List RegionQuery) × ApiState) :=
  match a.request with
  | .openProcess pid =>
      (s.openProcess a.supply pid).map (fun (h, t) => ((h, []), t))
  | .virtualQueryEx hProcess lpAddress rinfo =>
      (s.virtualQueryExAsking a.driver hProcess lpAddress rinfo).map (fun (asked, _, t) =>
        ((hProcess, asked), t))
  | .virtualQueryExFull hProcess flags =>
      (s.virtualQueryExFullAsking a.driver hProcess flags).map (fun (asked, _, t) =>
        ((hProcess, asked), t))

/-- The state with the last reading of the clock, and all queries for one handle in their order. -/
structure CacheState where
  api : ApiState
  clock : Nat
  queries : List RegionQuery

def CacheState.start (clock : Nat) : CacheState := { api := .initial, clock, queries := [] }

/-- The readings do not go back, and fit into the `uint64_t` that they are kept in. -/
def CacheAction.Ticks (a : CacheAction) (clock : Nat) : Prop :=
  clock ≤ a.driver.nowTime ∧ a.driver.nowTime ≤ a.driver.thenTime ∧ a.driver.thenTime < 2 ^ 64

instance (a : CacheAction) (clock : Nat) : Decidable (a.Ticks clock) :=
  inferInstanceAs (Decidable (_ ∧ _ ∧ _))

def cacheStep (h : Int) (s : CacheState) (a : CacheAction) : Option CacheState :=
  if a.Ticks s.clock then
    (a.perform s.api).map (fun ((hProcess, asked), t) =>
      { api := t
        clock := a.driver.thenTime
        queries := if hProcess = h then s.queries ++ asked else s.queries })
  else none

/-- A list that the driver gave, and that is not older than 60 seconds. -/
def RegionQuery.Fresh (query : RegionQuery) (nowTime : Nat) : Prop :=
  query.maps ≠ [] ∧ nowTime ≤ query.time + 1000 * 60

/-- What the answer to `VirtualQueryEx` has to be, by the queries before the call and those that the
call asked.
-/
structure FreshAnswer (before asked : List RegionQuery) (nowTime : Nat) (lpAddress : Nat)
    (rinfo : RegionInfo) (reply : QueryResult)
    : Prop where
  served :
    (∃ query ∈ before ++ asked, query.Fresh nowTime
      ∧ reply = queryRegions (pageOutput rinfo lpAddress) query.maps)
    ∨ (∃ query ∈ asked, query.maps = [] ∧ reply = ⟨0, rinfo, []⟩)
  asksFirst : (∀ query ∈ before, ¬query.Fresh nowTime) → asked ≠ []
  asksAgain : (∃ last, before.getLast? = some last ∧ last.maps = []) → asked ≠ []

/-- The request, if it asks for a region of the process of the handle, is answered so. -/
def ServesFresh (h : Int) (s : CacheState) (a : CacheAction) : Prop :=
  ∀ lpAddress rinfo process asked reply t,
    a.request = .virtualQueryEx h lpAddress rinfo → IsProcess s.api h process → a.Ticks s.clock →
    s.api.virtualQueryExAsking a.driver h lpAddress rinfo = some (asked, reply, t) →
    FreshAnswer s.queries asked a.driver.nowTime lpAddress rinfo reply

/-- The last query has given a list, or a minute has passed since the clock was at zero. -/
def ListedOrLate (h : Int) (s : CacheState) (a : CacheAction) : Prop :=
  ∀ lpAddress rinfo process,
    a.request = .virtualQueryEx h lpAddress rinfo → IsProcess s.api h process → a.Ticks s.clock →
    (∃ last, s.queries.getLast? = some last ∧ last.maps ≠ []) ∨ 1000 * 60 < a.driver.nowTime

/-- A handle leads to one process. -/
theorem IsProcess.unique {s : ApiState} {h : Int} {process process' : CeOpenProcess}
    (one : IsProcess s h process) (other : IsProcess s h process')
    : process = process' := by
  have same := (processOf_eq_some.mpr one).symm.trans (processOf_eq_some.mpr other)
  exact Option.some.inj (Option.some.inj same)

/-- The handle leads to the process now, and the other handles to what they led to. -/
def Puts (s : ApiState) (h : Int) (process : CeOpenProcess) (t : ApiState) : Prop :=
  ∀ j q, IsProcess t j q ↔ (j = h ∧ q = process) ∨ (j ≠ h ∧ IsProcess s j q)

theorem puts_setProcess {s : ApiState} (ok : TableOk s) {h : Int}
    {process : CeOpenProcess} (here : IsProcess s h process) (process' : CeOpenProcess)
    : Puts s h process' (s.setProcess h process') := by
  intro j q
  obtain ⟨info, found, type, there⟩ := here
  have live : (s.setProcess h process').openProcessAt info.p = some process' := by
    rw [ApiState.setProcess, getPointerFromHandle_of_find found]
    exact openProcessAt_eq_some.mpr (Function.update_self _ _ _)
  have elsewhere {p : Nat} (apart : p ≠ info.p)
      : (s.setProcess h process').openProcessAt p = s.openProcessAt p := by
    rw [ApiState.setProcess, getPointerFromHandle_of_find found]
    exact openProcessAt_congr (Function.update_of_ne apart _ _)
  by_cases same : j = h
  · subst same
    have changed : IsProcess (s.setProcess j process') j process' := ⟨info, found, type, live⟩
    constructor
    · intro now
      exact Or.inl ⟨rfl, now.unique changed⟩
    · intro either
      rcases either with ⟨_, rfl⟩ | ⟨other, _⟩
      · exact changed
      · exact absurd rfl other
  · have apart {info' : HandleInfo} (found' : s.handles.find? j = some info') : info'.p ≠ info.p :=
      fun one => same (ok.apart j h info' info found' found one)
    constructor
    · intro now
      obtain ⟨info', found', type', there'⟩ := now
      exact Or.inr ⟨same, info', found', type', (elsewhere (apart found')).symm.trans there'⟩
    · intro either
      rcases either with ⟨one, _⟩ | ⟨_, info', found', type', there'⟩
      · exact absurd one same
      · exact ⟨info', found', type', (elsewhere (apart found')).trans there'⟩

theorem puts_insert {s : ApiState} (ok : TableOk s) {h : Int} {p : Nat}
    (absent : s.handles.find? h = none) (fresh : s.heap p = none) (process : CeOpenProcess)
    : Puts s h process
        { handles := s.handles.insert h ⟨p, .htProcesHandle⟩
          heap := Function.update s.heap p (some (.openProcess process)) } := by
  intro j q
  let t : ApiState :=
    { handles := s.handles.insert h ⟨p, .htProcesHandle⟩
      heap := Function.update s.heap p (some (.openProcess process)) }
  have elsewhere {info : HandleInfo} (found : s.handles.find? j = some info)
      : t.openProcessAt info.p = s.openProcessAt info.p := by
    refine openProcessAt_congr (Function.update_of_ne ?_ _ _)
    intro one
    have live := ok.typed j info found
    rw [one, fresh] at live
    cases live
  by_cases same : j = h
  · subst same
    have new : IsProcess t j process :=
      ⟨⟨p, .htProcesHandle⟩, by rw [OrderedMap.find?_insert absent, if_pos rfl], rfl,
        openProcessAt_eq_some.mpr (Function.update_self _ _ _)⟩
    constructor
    · intro now
      exact Or.inl ⟨rfl, now.unique new⟩
    · intro either
      rcases either with ⟨_, rfl⟩ | ⟨other, _⟩
      · exact new
      · exact absurd rfl other
  · have listed : t.handles.find? j = s.handles.find? j := by
      rw [OrderedMap.find?_insert absent, if_neg same]
    constructor
    · intro now
      obtain ⟨info, found, type, there⟩ := now
      have found : s.handles.find? j = some info := listed.symm.trans found
      exact Or.inr ⟨same, info, found, type, (elsewhere found).symm.trans there⟩
    · intro either
      rcases either with ⟨one, _⟩ | ⟨_, info, found, type, there⟩
      · exact absurd one same
      · exact ⟨info, listed.trans found, type, (elsewhere found).trans there⟩

theorem not_isProcess_of_absent {s : ApiState} {h : Int} (absent : s.handles.find? h = none)
    {process : CeOpenProcess}
    : ¬IsProcess s h process := by
  intro here
  obtain ⟨info, found, _⟩ := here
  rw [absent] at found
  cases found

/-- All that a request can do, with the queries that it asks for a handle. -/
inductive CacheEffect (s : ApiState) (thenTime : Nat)
    : (hProcess : Int) → (asked : List RegionQuery) → ApiState → Prop
  | unchanged {hProcess : Int} : CacheEffect s thenTime hProcess [] s
  | opened {hProcess h : Int} {p : Nat} {pid : Int} (absent : s.handles.find? h = none)
      (pos : 0 < h) (fresh : s.heap p = none)
      : CacheEffect s thenTime hProcess []
          { handles := s.handles.insert h ⟨p, .htProcesHandle⟩
            heap := Function.update s.heap p
              (some (.openProcess ⟨pid, toUint64 pid, [], 0⟩)) }
  | queried {hProcess : Int} {process : CeOpenProcess} {query : RegionQuery}
      (here : IsProcess s hProcess process) (age : query.time = thenTime)
      : CacheEffect s thenTime hProcess [query] (s.setProcess hProcess (process.keep query))

theorem CacheAction.perform_effect {a : CacheAction} {s t : ApiState} {hProcess : Int}
    {asked : List RegionQuery} (performed : a.perform s = some ((hProcess, asked), t))
    : CacheEffect s a.driver.thenTime hProcess asked t := by
  obtain ⟨request, supply, driver⟩ := a
  cases request with
  | openProcess pid =>
      obtain ⟨⟨h, t'⟩, opened, same⟩ := Option.map_eq_some_iff.mp performed
      cases same
      rcases openProcess_cases opened with ⟨rfl, _⟩ | ⟨absent, pos, fresh, rfl⟩
      · exact .unchanged
      · exact .opened absent pos fresh
  | virtualQueryEx h lpAddress rinfo =>
      obtain ⟨⟨asked', reply, t'⟩, answered, same⟩ := Option.map_eq_some_iff.mp performed
      cases same
      obtain ⟨found, passed, same⟩ := Option.map_eq_some_iff.mp answered
      cases found with
      | none =>
          cases same
          exact .unchanged
      | some process =>
          have here := processOf_eq_some.mp passed
          dsimp only at same
          split at same
          · cases same
            exact .queried here rfl
          · cases same
            rw [setProcess_self here]
            exact .unchanged
  | virtualQueryExFull h flags =>
      obtain ⟨⟨asked', reply, t'⟩, answered, same⟩ := Option.map_eq_some_iff.mp performed
      cases same
      obtain ⟨found, passed, same⟩ := Option.map_eq_some_iff.mp answered
      cases found with
      | none =>
          cases same
          exact .unchanged
      | some process =>
          cases same
          exact .queried (processOf_eq_some.mp passed) rfl

/-- The cache holds what the last query gave; without a query it is as it was made. -/
structure CeOpenProcess.Caches (process : CeOpenProcess) (queries : List RegionQuery)
    : Prop where
  never : queries = [] → process.vLastMaps = [] ∧ process.nLastGetMapsTime = 0
  last : ∀ query, queries.getLast? = some query → process.keep query = process

theorem CeOpenProcess.caches_keep (process : CeOpenProcess) (queries : List RegionQuery)
    (query : RegionQuery)
    : (process.keep query).Caches (queries ++ [query]) where
  never empty := absurd empty (List.append_ne_nil_of_right_ne_nil queries (List.cons_ne_nil _ _))
  last query' last := by
    rw [List.getLast?_concat] at last
    cases last
    rfl

/-- What holds of the handle in every state of a run. -/
structure CacheInv (h : Int) (s : CacheState) : Prop where
  ok : TableOk s.api
  closed : (∀ process, ¬IsProcess s.api h process) → s.queries = []
  cached : ∀ process, IsProcess s.api h process → process.Caches s.queries
  past : ∀ query ∈ s.queries, query.time ≤ s.clock

theorem cacheInv_start (h : Int) (clock : Nat) : CacheInv h (.start clock) where
  ok := tableOk_initial
  closed _ := rfl
  cached process here := by
    obtain ⟨info, found, _⟩ := here
    cases found
  past query member := nomatch member

/-- What a step is made of. -/
theorem cacheStep_eq_some {h : Int} {s t : CacheState} {a : CacheAction}
    : cacheStep h s a = some t ↔ a.Ticks s.clock ∧ ∃ hProcess asked api,
        a.perform s.api = some ((hProcess, asked), api)
        ∧ t = { api
                clock := a.driver.thenTime
                queries := if hProcess = h then s.queries ++ asked else s.queries } := by
  rw [cacheStep, Option.ite_none_right_eq_some, Option.map_eq_some_iff]
  constructor
  · intro taken
    obtain ⟨ticks, ⟨⟨hProcess, asked⟩, api⟩, performed, rfl⟩ := taken
    exact ⟨ticks, hProcess, asked, api, performed, rfl⟩
  · intro taken
    obtain ⟨ticks, hProcess, asked, api, performed, rfl⟩ := taken
    exact ⟨ticks, ((hProcess, asked), api), performed, rfl⟩

/-- A step keeps the invariant: only a query touches a cache, and it is written down. -/
theorem cacheInv_cacheStep {h : Int} {s t : CacheState} {a : CacheAction} (inv : CacheInv h s)
    (taken : cacheStep h s a = some t)
    : CacheInv h t := by
  obtain ⟨ticks, hProcess, asked, api, performed, rfl⟩ := cacheStep_eq_some.mp taken
  have later : s.clock ≤ a.driver.thenTime := ticks.1.trans ticks.2.1
  cases CacheAction.perform_effect performed with
  | unchanged =>
      simp only [List.append_nil, ite_self]
      exact ⟨inv.ok, inv.closed, inv.cached, fun query member => (inv.past query member).trans later⟩
  | @opened j p pid absent pos fresh =>
      simp only [List.append_nil, ite_self]
      have puts := puts_insert inv.ok absent fresh ⟨pid, toUint64 pid, [], 0⟩
      have ok := inv.ok.insert (.openProcess ⟨pid, toUint64 pid, [], 0⟩) absent pos fresh
        (fun process same => by cases same; rfl)
      refine ⟨ok, fun closed => inv.closed (fun process here => ?_), fun process here => ?_,
        fun query member => (inv.past query member).trans later⟩
      · have other : h ≠ j := fun same => not_isProcess_of_absent absent (same ▸ here)
        exact closed process ((puts h process).mpr (Or.inr ⟨other, here⟩))
      · rcases (puts h process).mp here with ⟨rfl, rfl⟩ | ⟨_, here⟩
        · have none := inv.closed (fun process here => not_isProcess_of_absent absent here)
          rw [none]
          exact ⟨fun _ => ⟨rfl, rfl⟩, fun query last => nomatch last⟩
        · exact inv.cached process here
  | @queried process query here age =>
      have puts := puts_setProcess inv.ok here (process.keep query)
      refine ⟨inv.ok.setProcess here rfl rfl, fun closed => ?_, fun process' here' => ?_,
        fun query' member => ?_⟩
      · have other : hProcess ≠ h :=
          fun same => closed _ ((puts h _).mpr (Or.inl ⟨same.symm, rfl⟩))
        rw [if_neg other]
        exact inv.closed (fun process' here' =>
          closed process' ((puts h process').mpr (Or.inr ⟨other.symm, here'⟩)))
      · rcases (puts h process').mp here' with ⟨rfl, rfl⟩ | ⟨other, here'⟩
        · rw [if_pos rfl]
          exact process.caches_keep s.queries query
        · rw [if_neg other.symm]
          exact inv.cached process' here'
      · have old (member : query' ∈ s.queries) : query'.time ≤ a.driver.thenTime :=
          (inv.past query' member).trans later
        dsimp only at member
        split at member
        · rcases List.mem_append.mp member with member | new
          · exact old member
          · rw [List.mem_singleton.mp new]
            exact Nat.le_of_eq age
        · exact old member

/-- The difference is that of the times, and not a wrapped one. -/
theorem isStale_iff {driver : Surroundings} {process : CeOpenProcess}
    (past : process.nLastGetMapsTime ≤ driver.nowTime) (fits : driver.nowTime < 2 ^ 64)
    : ApiState.IsStale driver process ↔ process.nLastGetMapsTime + 1000 * 60 < driver.nowTime := by
  rw [ApiState.IsStale, diff_of_le past fits]
  omega

/-- A cache without a list has the time of a process that was never queried. -/
theorem CeOpenProcess.Caches.of_unlisted {process : CeOpenProcess} {queries : List RegionQuery}
    (caches : process.Caches queries)
    (unlisted : ∀ last, queries.getLast? = some last → last.maps = [])
    : process.vLastMaps = [] ∧ process.nLastGetMapsTime = 0 := by
  cases ends : queries.getLast? with
  | none => exact caches.never (List.getLast?_eq_none_iff.mp ends)
  | some last =>
      have empty := unlisted last ends
      rw [← caches.last last ends]
      exact ⟨empty, if_pos empty⟩

theorem CeOpenProcess.Caches.of_listed {process : CeOpenProcess} {queries : List RegionQuery}
    {last : RegionQuery} (caches : process.Caches queries) (ends : queries.getLast? = some last)
    (listed : last.maps ≠ [])
    : process.vLastMaps = last.maps ∧ process.nLastGetMapsTime = last.time := by
  rw [← caches.last last ends]
  exact ⟨rfl, if_neg listed⟩

/-- A cache that was not asked for, with a clock in its first minute, looks young. -/
theorem not_isStale_of_unlisted {driver : Surroundings} {process : CeOpenProcess}
    {queries : List RegionQuery} (caches : process.Caches queries)
    (unlisted : ∀ last, queries.getLast? = some last → last.maps = [])
    (early : driver.nowTime ≤ 1000 * 60)
    : ¬ApiState.IsStale driver process := by
  have never := (caches.of_unlisted unlisted).2
  rw [isStale_iff (by omega) (by omega), never]
  omega

/-- A cache with a list is young exactly as long as the list is fresh. -/
theorem fresh_iff_not_isStale {driver : Surroundings} {process : CeOpenProcess}
    {queries : List RegionQuery} {last : RegionQuery} (caches : process.Caches queries)
    (ends : queries.getLast? = some last) (listed : last.maps ≠ [])
    (past : last.time ≤ driver.nowTime) (fits : driver.nowTime < 2 ^ 64)
    : last.Fresh driver.nowTime ↔ ¬ApiState.IsStale driver process := by
  have time := (caches.of_listed ends listed).2
  rw [isStale_iff (by omega) fits, time, Nat.not_lt]
  exact and_iff_right listed

/-- A call that asks the driver answers from the new list, or fails without one. -/
theorem freshAnswer_of_asked {driver : Surroundings} {process : CeOpenProcess}
    (before : List RegionQuery) (ticks : driver.nowTime ≤ driver.thenTime) (lpAddress : Nat)
    (rinfo : RegionInfo)
    : FreshAnswer before [askDriver driver process] driver.nowTime lpAddress rinfo
        (if (askDriver driver process).maps = [] then ⟨0, rinfo, []⟩
          else queryRegions (pageOutput rinfo lpAddress) (askDriver driver process).maps) where
  served := by
    split
    · next empty => exact Or.inr ⟨_, List.mem_singleton_self _, empty, rfl⟩
    · next listed =>
        have young : driver.nowTime ≤ (askDriver driver process).time + 1000 * 60 :=
          ticks.trans (Nat.le_add_right _ _)
        exact Or.inl ⟨_, List.mem_append_right _ (List.mem_singleton_self _), ⟨listed, young⟩, rfl⟩
  asksFirst _ := List.cons_ne_nil _ _
  asksAgain _ := List.cons_ne_nil _ _

/-- A call that asks nothing answers from the list of the last query. -/
theorem freshAnswer_of_last {before : List RegionQuery} {last : RegionQuery} {nowTime : Nat}
    (ends : before.getLast? = some last) (fresh : last.Fresh nowTime) (lpAddress : Nat)
    (rinfo : RegionInfo)
    : FreshAnswer before [] nowTime lpAddress rinfo
        (queryRegions (pageOutput rinfo lpAddress) last.maps) where
  served := by
    have member := List.mem_of_getLast? ends
    exact Or.inl ⟨last, List.mem_append_left _ member, fresh, rfl⟩
  asksFirst none := absurd fresh (none last (List.mem_of_getLast? ends))
  asksAgain failed := by
    obtain ⟨last', ends', empty⟩ := failed
    cases ends.symm.trans ends'
    exact absurd empty fresh.1

/-- On a cache that holds what the last query gave, a call is answered as it has to be exactly if
that query gave a list or the clock is past its first minute.
-/
theorem servesFresh_iff_listedOrLate {h : Int} {s : CacheState} (inv : CacheInv h s) (a : CacheAction)
    : ServesFresh h s a ↔ ListedOrLate h s a := by
  constructor
  · intro serves lpAddress rinfo process isQuery here ticks
    by_contra unasked
    obtain ⟨unlisted, early⟩ := not_or.mp unasked
    have unlisted : ∀ last, s.queries.getLast? = some last → last.maps = [] :=
      fun last ends => by_contra (fun listed => unlisted ⟨last, ends, listed⟩)
    have young := not_isStale_of_unlisted (inv.cached process here) unlisted (Nat.not_lt.mp early)
    have answer := serves lpAddress rinfo process _ _ _ isQuery here ticks
      ((virtualQueryExAsking_of_isProcess here a.driver lpAddress rinfo).trans
        (congrArg some (if_neg young)))
    cases ends : s.queries.getLast? with
    | none =>
        have none := List.getLast?_eq_none_iff.mp ends
        exact answer.asksFirst (fun query member => by rw [none] at member; cases member) rfl
    | some last => exact answer.asksAgain ⟨last, ends, unlisted last ends⟩ rfl
  · intro asked lpAddress rinfo process queries reply t isQuery here ticks answered
    have caches := inv.cached process here
    have fits : a.driver.nowTime < 2 ^ 64 := Nat.lt_of_le_of_lt ticks.2.1 ticks.2.2
    have made := (virtualQueryExAsking_of_isProcess here a.driver lpAddress rinfo).symm.trans answered
    split at made
    · cases made
      exact freshAnswer_of_asked s.queries ticks.2.1 lpAddress rinfo
    · next young =>
        cases made
        by_cases some_ : ∃ last, s.queries.getLast? = some last ∧ last.maps ≠ []
        · obtain ⟨last, ends, listed⟩ := some_
          have past := (inv.past last (List.mem_of_getLast? ends)).trans ticks.1
          rw [(caches.of_listed ends listed).1]
          exact freshAnswer_of_last ends
            ((fresh_iff_not_isStale caches ends listed past fits).mpr young) lpAddress rinfo
        · have late := (asked lpAddress rinfo process isQuery here ticks).resolve_left some_
          have unlisted : ∀ last, s.queries.getLast? = some last → last.maps = [] :=
            fun last ends => by_contra (fun listed => some_ ⟨last, ends, listed⟩)
          have never := (caches.of_unlisted unlisted).2
          refine absurd ((isStale_iff (by omega) fits).mpr ?_) young
          omega

/-- For every handle, every reading at which the clock starts and every run of opens and queries, all
queries for a region are answered from a fresh list, and ask the driver where there is none, exactly
if the queries that come when the last one has given no list come after the first minute of the
clock.
-/
theorem servesFresh_iff (h : Int) (clock : Nat) (acts : List CacheAction)
    : Along (cacheStep h) (ServesFresh h) (.start clock) acts
      ↔ Along (cacheStep h) (ListedOrLate h) (.start clock) acts := by
  have known : Throughout (cacheStep h) (CacheInv h) (.start clock) acts :=
    invariant_of_step acts (cacheInv_start h clock)
      (fun _ _ _ inv taken => cacheInv_cacheStep inv taken)
  constructor
  · intro serves before a after s split reached
    have inv := known before (a :: after) s split reached
    exact (servesFresh_iff_listedOrLate inv a).mp (serves before a after s split reached)
  · intro asked before a after s split reached
    have inv := known before (a :: after) s split reached
    exact (servesFresh_iff_listedOrLate inv a).mpr (asked before a after s split reached)

/-- A device that has been up for one second, with one region in every process. -/
def youngDriver : Surroundings :=
  { idleDriver with
    virtualQueryExFull := fun _ _ => [⟨4096, 4096, PAGE_READWRITE, MEM_PRIVATE, []⟩]
    nowTime := 1000
    thenTime := 1000 }

/-- A process is opened, and its region is asked for. -/
def openAndQuery : List CacheAction :=
  [⟨.openProcess 7, ⟨64, [0]⟩, youngDriver⟩,
    ⟨.virtualQueryEx 10000 4096 ⟨0, 0, 0, 0⟩, ⟨128, [0]⟩, youngDriver⟩]

/-- The first query of a process in the first minute of the clock answers from a list that nobody
gave.
-/
theorem not_servesFresh
    : ¬∀ h clock acts, Along (cacheStep h) (ServesFresh h) (.start clock) acts := by
  intro always
  let start := CacheState.start 1000
  have opened : (exec (cacheStep 10000) start (openAndQuery.take 1)).map
      (fun s => (s.queries, s.clock, s.api.processOf 10000))
      = some ([], 1000, some (some ⟨7, 7, [], 0⟩)) := by decide +kernel
  obtain ⟨s, reached, same⟩ := Option.map_eq_some_iff.mp opened
  obtain ⟨none, clock, there⟩ : s.queries = [] ∧ s.clock = 1000
      ∧ s.api.processOf 10000 = some (some ⟨7, 7, [], 0⟩) := by simpa using same
  have inv := invariant_of_step (openAndQuery.take 1) (cacheInv_start 10000 1000)
    (fun _ _ _ inv taken => cacheInv_cacheStep inv taken) _ [] s (List.append_nil _).symm reached
  have serves := always 10000 1000 openAndQuery (openAndQuery.take 1) _ [] s rfl reached
  have ticks : 1000 ≤ 1000 ∧ 1000 ≤ 1000 ∧ 1000 < 2 ^ 64 := by decide
  rcases (servesFresh_iff_listedOrLate inv _).mp serves 4096 ⟨0, 0, 0, 0⟩ _ rfl
    (processOf_eq_some.mp there) (clock ▸ ticks) with ⟨last, ends, _⟩ | late
  · rw [none] at ends
    cases ends
  · exact absurd late (by decide)

end RwMem.CeServer
