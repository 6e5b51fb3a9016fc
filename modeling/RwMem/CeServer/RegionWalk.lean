import RwMem.CeServer.HandleTable

/-! Queries of single addresses against the list of all regions, over one cached list. -/

namespace RwMem.CeServer

open Collections RwMem.Driver RwMem.Server ApiState

/-- Where a region ends. -/
abbrev stopOf (r : Server.RegionInfo) : Nat := r.baseaddress + r.size

/-- The regions are ascending and disjoint, of whole pages and not empty, and end below `2^64`. -/
structure WellLaid (maps : List Server.RegionInfo) : Prop where
  apart : maps.Pairwise (fun a b => stopOf a ≤ b.baseaddress)
  aligned : ∀ r ∈ maps, r.baseaddress % 4096 = 0 ∧ r.size % 4096 = 0
  nonempty : ∀ r ∈ maps, 0 < r.size
  bounded : ∀ r ∈ maps, stopOf r < 2 ^ 64

/-- The page of an address. -/
def pageOf (lpAddress : Nat) : Nat := lpAddress - lpAddress % 4096

/-- An answer on a page: the part of one region from the page to its end, or the gap up to the next
region.
-/
structure Describes (maps : List Server.RegionInfo) (page : Nat) (q : QueryResult) : Prop where
  starts : q.rinfo.baseaddress = page
  nonempty : 0 < q.rinfo.size
  covers :
    (∃ r ∈ maps, r.baseaddress ≤ page ∧ page + q.rinfo.size = stopOf r
      ∧ q.rinfo.protection = r.protection.toNat ∧ q.rinfo.type = r.type.toNat)
    ∨ (q.rinfo.protection = PAGE_NOACCESS.toNat
      ∧ (∃ r ∈ maps, page + q.rinfo.size = r.baseaddress)
      ∧ ∀ r ∈ maps, stopOf r ≤ page ∨ page + q.rinfo.size ≤ r.baseaddress)

/-- What an answer has to be: found exactly if some region ends behind the page. -/
structure AnswersPage (maps : List Server.RegionInfo) (page : Nat) (q : QueryResult) : Prop where
  found : q.found = 1 ↔ ∃ r ∈ maps, page < stopOf r
  otherwise : q.found ≠ 1 → q.found = 0
  describes : q.found = 1 → Describes maps page q

variable {maps : List Server.RegionInfo} {rinfo : RegionInfo}

theorem WellLaid.of_append {before : List Server.RegionInfo} (laid : WellLaid (before ++ maps))
    : WellLaid maps :=
  ⟨(List.pairwise_append.mp laid.apart).2.1,
    fun a member => laid.aligned a (List.mem_append_right before member),
    fun a member => laid.nonempty a (List.mem_append_right before member),
    fun a member => laid.bounded a (List.mem_append_right before member)⟩

theorem WellLaid.tail {r : Server.RegionInfo} (laid : WellLaid (r :: maps)) : WellLaid maps := by
  have split : WellLaid ([r] ++ maps) := laid
  exact split.of_append

/-- What the loop does with its first region. -/
theorem queryRegions_cons {r : Server.RegionInfo} (laid : WellLaid (r :: maps))
    : queryRegions rinfo (r :: maps)
      = if stopOf r > rinfo.baseaddress then
          if rinfo.baseaddress ≥ r.baseaddress then
            ⟨1, { rinfo with
                  protection := r.protection.toNat
                  type := r.type.toNat
                  size := stopOf r - rinfo.baseaddress }, r.name⟩
          else
            ⟨1, { rinfo with
                  size := r.baseaddress - rinfo.baseaddress
                  protection := PAGE_NOACCESS.toNat
                  type := 0 }, r.name⟩
        else queryRegions rinfo maps := by
  have small := laid.bounded r List.mem_cons_self
  rw [queryRegions, wrap_of_lt small]
  split
  · split
    · rw [diff_of_le (by omega) small]
    · rw [diff_of_le (by omega) (Nat.lt_of_le_of_lt (Nat.le_add_right _ _) small)]
  · rfl

variable (rinfo) in
/-- The loop answers on its page, by induction on the regions: those passed end in front of it. -/
theorem queryRegions_answers (laid : WellLaid maps)
    : AnswersPage maps rinfo.baseaddress (queryRegions rinfo maps) := by
  induction maps with
  | nil => exact ⟨by simp [queryRegions], fun _ => rfl, fun found => nomatch found⟩
  | cons r rest ih =>
      have later := ih laid.tail
      rw [queryRegions_cons laid]
      split
      · next behind =>
          have found : ∃ a ∈ r :: rest, rinfo.baseaddress < stopOf a :=
            ⟨r, List.mem_cons_self, behind⟩
          split
          · next inside =>
              refine ⟨iff_of_true rfl found, fun other => absurd rfl other, fun _ => ?_⟩
              refine ⟨rfl, by simp; omega, Or.inl ⟨r, List.mem_cons_self, inside, ?_, rfl, rfl⟩⟩
              simp; omega
          · next before =>
              refine ⟨iff_of_true rfl found, fun other => absurd rfl other, fun _ => ?_⟩
              have gap : rinfo.baseaddress + (r.baseaddress - rinfo.baseaddress) = r.baseaddress := by
                omega
              refine ⟨rfl, by simp; omega, Or.inr ⟨rfl, ⟨r, List.mem_cons_self, gap⟩, ?_⟩⟩
              intro a member
              dsimp only
              rw [gap]
              rcases List.mem_cons.mp member with rfl | member
              · exact Or.inr (Nat.le_refl _)
              · have above := List.rel_of_pairwise_cons laid.apart member
                exact Or.inr ((Nat.le_add_right _ _).trans above)
      · next passed =>
          refine ⟨?_, later.otherwise, fun found => ?_⟩
          · rw [later.found]
            constructor
            · intro some_
              obtain ⟨a, member, behind⟩ := some_
              exact ⟨a, List.mem_cons_of_mem r member, behind⟩
            · intro some_
              obtain ⟨a, member, behind⟩ := some_
              rcases List.mem_cons.mp member with rfl | member
              · exact absurd behind passed
              · exact ⟨a, member, behind⟩
          · obtain ⟨starts, nonempty, covers⟩ := later.describes found
            refine ⟨starts, nonempty, ?_⟩
            rcases covers with ⟨a, member, inside⟩ | ⟨none, ⟨a, member, next⟩, apart⟩
            · exact Or.inl ⟨a, List.mem_cons_of_mem r member, inside⟩
            · refine Or.inr ⟨none, ⟨a, List.mem_cons_of_mem r member, next⟩, ?_⟩
              intro b listed
              rcases List.mem_cons.mp listed with rfl | listed
              · exact Or.inl (Nat.le_of_not_lt passed)
              · exact apart b listed

/-- What the query of a process answers, on its cache as the query finds it. -/
theorem virtualQueryEx_of_isProcess {s : ApiState} {h : Int} {process : CeOpenProcess}
    (here : IsProcess s h process) (driver : Surroundings) (lpAddress : Nat) (rinfo : RegionInfo)
    : s.virtualQueryEx driver h lpAddress rinfo
      = some
          (if IsStale driver process ∧ (refreshed driver process).vLastMaps = [] then ⟨0, rinfo, []⟩
            else
              queryRegions { rinfo with protection := 0, baseaddress := pageOf lpAddress }
                (refreshed driver process).vLastMaps,
            s.setProcess h (refreshed driver process)) := by
  rw [ApiState.virtualQueryEx, processOf_eq_some.mpr here]
  rfl

/-- A query answers for the page of its address. -/
theorem virtualQueryEx_answers {s : ApiState} {h : Int} {process : CeOpenProcess}
    (here : IsProcess s h process) (driver : Surroundings)
    (laid : WellLaid (refreshed driver process).vLastMaps) (lpAddress : Nat) (rinfo : RegionInfo)
    : ∃ q t, s.virtualQueryEx driver h lpAddress rinfo = some (q, t)
        ∧ AnswersPage (refreshed driver process).vLastMaps (pageOf lpAddress) q := by
  refine ⟨_, _, virtualQueryEx_of_isProcess here driver lpAddress rinfo, ?_⟩
  split
  · next empty =>
      rw [empty.2]
      exact ⟨by simp, fun _ => rfl, fun found => nomatch found⟩
  · exact queryRegions_answers { rinfo with protection := 0, baseaddress := pageOf lpAddress } laid

theorem setProcess_self {s : ApiState} {h : Int} {process : CeOpenProcess}
    (here : IsProcess s h process)
    : s.setProcess h process = s := by
  obtain ⟨info, found, _, live⟩ := here
  rw [ApiState.setProcess, getPointerFromHandle_of_find found,
    ← openProcessAt_eq_some.mp live, Function.update_eq_self]

/-- A query on a cache that is not stale answers from it and changes nothing. -/
theorem virtualQueryEx_cached {s : ApiState} {h : Int} {process : CeOpenProcess}
    (here : IsProcess s h process) {driver : Surroundings} (cached : ¬IsStale driver process)
    (lpAddress : Nat) (rinfo : RegionInfo)
    : s.virtualQueryEx driver h lpAddress rinfo
      = some
          (queryRegions { rinfo with protection := 0, baseaddress := pageOf lpAddress }
            process.vLastMaps, s) := by
  have same : refreshed driver process = process := by rw [refreshed, if_neg cached]
  rw [virtualQueryEx_of_isProcess here, same, setProcess_self here,
    if_neg (fun both => cached both.1)]

/-- The queries of a client that asks for an address and then for the end of each answer, until
nothing is found. Each query has its own surroundings and an output that holds something.
-/
def walk (around : Nat → Surroundings × RegionInfo) (h : Int)
    : (turns i lpAddress : Nat) → ApiState → Option (List QueryResult × ApiState)
  | 0, _, _, s => some ([], s)
  | turns + 1, i, lpAddress, s =>
      (s.virtualQueryEx (around i).1 h lpAddress (around i).2).bind (fun (q, s) =>
        if q.found = 0 then some ([q], s)
        else
          (walk around h turns (i + 1) (wrap (q.rinfo.baseaddress + q.rinfo.size)) s).map
            (fun (rest, s) => (q :: rest, s)))

/-- The ranges found whose protection is not `PAGE_NOACCESS`. -/
def accessible (qs : List QueryResult) : List RegionInfo :=
  (qs.filter (fun q => q.found = 1 ∧ q.rinfo.protection ≠ PAGE_NOACCESS.toNat)).map
    QueryResult.rinfo

/-- The regions in front of the page are passed. -/
theorem queryRegions_append {before rest : List Server.RegionInfo}
    (laid : WellLaid (before ++ rest))
    (passed : ∀ r ∈ before, stopOf r ≤ rinfo.baseaddress)
    : queryRegions rinfo (before ++ rest) = queryRegions rinfo rest := by
  induction before with
  | nil => rfl
  | cons r before ih =>
      rw [List.cons_append] at laid ⊢
      rw [queryRegions_cons laid, if_neg (Nat.not_lt.mpr (passed r List.mem_cons_self))]
      exact ih laid.tail (fun a member => passed a (List.mem_cons_of_mem r member))

/-- At the start of a region the answer is the region. -/
theorem queryRegions_region {r : Server.RegionInfo} (laid : WellLaid (r :: maps))
    (starts : rinfo.baseaddress = r.baseaddress)
    : queryRegions rinfo (r :: maps) = ⟨1, regionInfo r, r.name⟩ := by
  have nonempty := laid.nonempty r List.mem_cons_self
  rw [queryRegions_cons laid, starts, if_pos (Nat.lt_add_of_pos_right nonempty),
    if_pos (Nat.le_refl _), regionInfo]
  simp

/-- In front of a region the answer is the gap. -/
theorem queryRegions_gap {r : Server.RegionInfo} (laid : WellLaid (r :: maps))
    (before : rinfo.baseaddress < r.baseaddress)
    : queryRegions rinfo (r :: maps)
      = ⟨1, { baseaddress := rinfo.baseaddress
              size := r.baseaddress - rinfo.baseaddress
              protection := PAGE_NOACCESS.toNat
              type := 0 }, r.name⟩ := by
  have behind : stopOf r > rinfo.baseaddress := Nat.lt_of_lt_of_le before (Nat.le_add_right _ _)
  rw [queryRegions_cons laid, if_pos behind, if_neg (Nat.not_le.mpr before)]

section Walk

variable {s : ApiState} {h : Int} {process : CeOpenProcess}
  {around : Nat → Surroundings × RegionInfo}

/-- A query that finds a range is followed by the query at its end. -/
theorem walk_succ (here : IsProcess s h process)
    (cached : ∀ i, ¬IsStale (around i).1 process) {turns i page : Nat} {q : QueryResult}
    (answer : queryRegions { (around i).2 with protection := 0, baseaddress := pageOf page }
      process.vLastMaps = q)
    (found : q.found = 1)
    : walk around h (turns + 1) i page s
      = (walk around h turns (i + 1) (wrap (q.rinfo.baseaddress + q.rinfo.size)) s).map
          (fun (rest, s) => (q :: rest, s)) := by
  rw [walk, virtualQueryEx_cached here (cached i), answer, Option.bind_some]
  dsimp only
  rw [if_neg (by omega)]

theorem accessible_cons (q : QueryResult) (qs : List QueryResult)
    : accessible (q :: qs)
      = if q.found = 1 ∧ q.rinfo.protection ≠ PAGE_NOACCESS.toNat then q.rinfo :: accessible qs
        else accessible qs := by
  rw [accessible, List.filter_cons]
  split
  · next holds => rw [if_pos (of_decide_eq_true holds), List.map_cons, accessible]
  · next fails => rw [if_neg (fun holds => fails (decide_eq_true holds)), accessible]

/-- A region is listed unless it is not accessible. -/
theorem listedRegions_cons (r : Server.RegionInfo) (maps : List Server.RegionInfo)
    : listedRegions 0 (r :: maps)
      = if (regionInfo r).protection ≠ PAGE_NOACCESS.toNat then regionInfo r :: listedRegions 0 maps
        else listedRegions 0 maps := by
  have same : r.protection = PAGE_NOACCESS ↔ (regionInfo r).protection = PAGE_NOACCESS.toNat :=
    UInt32.toNat_inj.symm
  by_cases none : r.protection = PAGE_NOACCESS
  · rw [if_neg (not_not.mpr (same.mp none))]
    simp [listedRegions, none]
  · rw [if_pos (fun other => none (same.mpr other))]
    simp [listedRegions, none]

/-- The walk has come to an end: nothing is found by its last query only. -/
def HasEnded (qs : List QueryResult) : Prop :=
  ∃ init last, qs = init ++ [last] ∧ last.found = 0 ∧ ∀ q ∈ init, q.found = 1

theorem HasEnded.cons {q : QueryResult} {qs : List QueryResult} (ended : HasEnded qs)
    (found : q.found = 1)
    : HasEnded (q :: qs) := by
  obtain ⟨init, last, rfl, nothing, others⟩ := ended
  exact ⟨q :: init, last, rfl, nothing, List.forall_mem_cons.mpr ⟨found, others⟩⟩

/-- What a walk gives that has `n` queries at most and finds the regions. -/
def WalkGives (around : Nat → Surroundings × RegionInfo) (h : Int) (s : ApiState)
    (turns i page n : Nat) (regions : List RegionInfo)
    : Prop :=
  ∃ qs, walk around h turns i page s = some (qs, s) ∧ qs.length ≤ n ∧ HasEnded qs
    ∧ accessible qs = regions

/-- A query in front of a walk. -/
theorem walkGives_succ (here : IsProcess s h process)
    (cached : ∀ i, ¬IsStale (around i).1 process) {turns i page n : Nat} (aligned : page % 4096 = 0)
    {q : QueryResult} {regions : List RegionInfo}
    (answer : ∀ rinfo : RegionInfo, rinfo.baseaddress = page →
      queryRegions rinfo process.vLastMaps = q)
    (found : q.found = 1) (small : q.rinfo.baseaddress + q.rinfo.size < 2 ^ 64)
    (later : WalkGives around h s turns (i + 1) (q.rinfo.baseaddress + q.rinfo.size) n regions)
    : WalkGives around h s (turns + 1) i page (n + 1)
        (if q.rinfo.protection ≠ PAGE_NOACCESS.toNat then q.rinfo :: regions else regions) := by
  obtain ⟨qs, walked, bound, ended, lists⟩ := later
  have whole : pageOf page = page := by rw [pageOf, aligned, Nat.sub_zero]
  refine ⟨q :: qs, ?_, by simpa using bound, ended.cons found, ?_⟩
  · rw [walk_succ here cached (answer _ whole) found, wrap_of_lt small, walked]
    rfl
  · rw [accessible_cons, lists]
    simp only [found, true_and]

/-- A walk from a page on which the regions left begin lists them, by induction on the regions: each
takes the query for the gap in front of it, if there is one, and its own.
-/
theorem walk_from (here : IsProcess s h process)
    (cached : ∀ i, ¬IsStale (around i).1 process) {before rest : List Server.RegionInfo}
    (split : process.vLastMaps = before ++ rest) (laid : WellLaid (before ++ rest)) {page : Nat}
    (passed : ∀ r ∈ before, stopOf r ≤ page) (ahead : ∀ r ∈ rest, page ≤ r.baseaddress)
    (aligned : page % 4096 = 0) {turns i : Nat} (enough : 2 * rest.length + 1 ≤ turns)
    : WalkGives around h s turns i page (2 * rest.length + 1) (listedRegions 0 rest) := by
  induction rest generalizing before page turns i with
  | nil =>
      obtain ⟨turns, rfl⟩ : ∃ n, turns = n + 1 := ⟨turns - 1, by omega⟩
      have whole : pageOf page = page := by rw [pageOf, aligned, Nat.sub_zero]
      let rinfo := { (around i).2 with protection := 0, baseaddress := pageOf page }
      have nothing : queryRegions rinfo process.vLastMaps = ⟨0, rinfo, []⟩ := by
        rw [split]
        exact queryRegions_append laid (fun r member =>
          (passed r member).trans (Nat.le_of_eq whole.symm))
      have walked : walk around h (turns + 1) i page s = some ([⟨0, rinfo, []⟩], s) := by
        rw [walk, virtualQueryEx_cached here (cached i), nothing]
        rfl
      have ended : HasEnded [(⟨0, rinfo, []⟩ : QueryResult)] :=
        ⟨[], _, rfl, rfl, fun q member => nomatch member⟩
      exact ⟨_, walked, Nat.le_refl 1, ended, rfl⟩
  | cons r rest ih =>
      have listed : r ∈ before ++ r :: rest := List.mem_append_right _ List.mem_cons_self
      have here' : WellLaid (r :: rest) := laid.of_append
      have shifted : before ++ r :: rest = (before ++ [r]) ++ rest := by simp
      have passed' : ∀ a ∈ before ++ [r], stopOf a ≤ stopOf r := by
        intro a member
        rcases List.mem_append.mp member with old | last
        · have := ahead r List.mem_cons_self
          exact ((passed a old).trans this).trans (Nat.le_add_right _ _)
        · rw [List.mem_singleton.mp last]
      have ahead' : ∀ a ∈ rest, stopOf r ≤ a.baseaddress := fun a member =>
        List.rel_of_pairwise_cons here'.apart member
      have aligned' : stopOf r % 4096 = 0 := by
        have := laid.aligned r listed
        rw [stopOf]
        omega
      have later {turns i : Nat} (enough : 2 * rest.length + 1 ≤ turns)
          : WalkGives around h s turns i (stopOf r) (2 * rest.length + 1) (listedRegions 0 rest) :=
        ih (split.trans shifted) (shifted ▸ laid) passed' ahead' aligned' enough
      have own {turns i : Nat} (enough : 2 * rest.length + 2 ≤ turns)
          : WalkGives around h s turns i r.baseaddress (2 * rest.length + 2)
              (listedRegions 0 (r :: rest)) := by
        obtain ⟨turns, rfl⟩ : ∃ n, turns = n + 1 := ⟨turns - 1, by omega⟩
        have answer (rinfo : RegionInfo) (starts : rinfo.baseaddress = r.baseaddress)
            : queryRegions rinfo process.vLastMaps = ⟨1, regionInfo r, r.name⟩ := by
          rw [split, queryRegions_append laid, queryRegions_region here' starts]
          intro a member
          exact (passed a member).trans (starts ▸ ahead r List.mem_cons_self)
        rw [listedRegions_cons]
        exact walkGives_succ here cached (laid.aligned r listed).1 answer rfl
          (laid.bounded r listed) (later (by omega))
      obtain ⟨turns, rfl⟩ : ∃ n, turns = n + 1 := ⟨turns - 1, by omega⟩
      by_cases gap : page < r.baseaddress
      · have answer (rinfo : RegionInfo) (starts : rinfo.baseaddress = page)
            : queryRegions rinfo process.vLastMaps
              = ⟨1, { baseaddress := page
                      size := r.baseaddress - page
                      protection := PAGE_NOACCESS.toNat
                      type := 0 }, r.name⟩ := by
          rw [split, queryRegions_append laid, queryRegions_gap here' (starts ▸ gap), starts]
          intro a member
          exact starts ▸ passed a member
        have upto : page + (r.baseaddress - page) = r.baseaddress := by omega
        have small : r.baseaddress < 2 ^ 64 :=
          Nat.lt_of_le_of_lt (Nat.le_add_right _ _) (laid.bounded r listed)
        have through : WalkGives around h s turns (i + 1) r.baseaddress (2 * rest.length + 2)
            (listedRegions 0 (r :: rest)) := own (Nat.le_of_succ_le_succ enough)
        rw [← upto] at through small
        have walked := walkGives_succ here cached aligned answer rfl small through
        rwa [if_neg (not_not.mpr rfl)] at walked
      · have same : page = r.baseaddress :=
          Nat.le_antisymm (ahead r List.mem_cons_self) (Nat.le_of_not_lt gap)
        rw [same]
        obtain ⟨qs, walked, bound, ended, lists⟩ := own (Nat.le_of_succ_le enough)
        exact ⟨qs, walked, Nat.le_succ_of_le bound, ended, lists⟩

end Walk

/-- A full query answers with the regions of the list that it puts into the cache. -/
theorem virtualQueryExFull_lists {s : ApiState} {h : Int} {process : CeOpenProcess}
    (here : IsProcess s h process) {driver : Surroundings} {maps : List Server.RegionInfo}
    (listed : driver.virtualQueryExFull process.u64DriverProcessHandle true = maps)
    : (s.virtualQueryExFull driver h 0).map Prod.fst
      = some (if maps = [] then none else some (listedRegions 0 maps)) := by
  rw [ApiState.virtualQueryExFull, processOf_eq_some.mpr here, ← listed]
  rfl

/-- Single queries see what the full list shows. Each answers for the page of its address. A walk
from address 0 over one cached list of `n` regions ends with its query `2 * n + 1` at the latest,
and its ranges that are accessible are the list that a full query gives for these regions.
-/
theorem virtualQueryEx_refines_virtualQueryExFull (s : ApiState) (h : Int)
    (process : CeOpenProcess) (here : IsProcess s h process)
    : (∀ driver, WellLaid (refreshed driver process).vLastMaps → ∀ lpAddress rinfo,
        ∃ q t, s.virtualQueryEx driver h lpAddress rinfo = some (q, t)
          ∧ AnswersPage (refreshed driver process).vLastMaps (pageOf lpAddress) q)
      ∧ (WellLaid process.vLastMaps → ∀ around : Nat → Surroundings × RegionInfo,
        (∀ i, ¬IsStale (around i).1 process) →
          ∃ qs, walk around h (2 * process.vLastMaps.length + 1) 0 0 s = some (qs, s)
            ∧ qs.length ≤ 2 * process.vLastMaps.length + 1
            ∧ HasEnded qs
            ∧ ∀ driver : Surroundings,
                driver.virtualQueryExFull process.u64DriverProcessHandle true = process.vLastMaps →
                (s.virtualQueryExFull driver h 0).map Prod.fst
                  = some (if process.vLastMaps = [] then none else some (accessible qs))) := by
  constructor
  · intro driver laid lpAddress rinfo
    exact virtualQueryEx_answers here driver laid lpAddress rinfo
  · intro laid around cached
    have split : process.vLastMaps = [] ++ process.vLastMaps := rfl
    rw [split] at laid
    obtain ⟨qs, walked, bound, ended, lists⟩ :=
      walk_from here cached split laid (fun r member => absurd member List.not_mem_nil)
        (fun r _ => Nat.zero_le _) (Nat.zero_mod _) (Nat.le_refl _)
    refine ⟨qs, walked, bound, ended, fun driver listed => ?_⟩
    rw [virtualQueryExFull_lists here listed, lists]

/-- A process with a readable region behind a gap and one without access behind it. -/
def twoRegions : CeOpenProcess where
  pid := 7
  u64DriverProcessHandle := 7
  vLastMaps := [⟨4096, 8192, PAGE_READONLY, MEM_PRIVATE, [97]⟩,
    ⟨12288, 4096, PAGE_NOACCESS, MEM_PRIVATE, [98]⟩]
  nLastGetMapsTime := 0

def twoRegionsState : ApiState where
  handles := OrderedMap.empty.insert 10000 ⟨64, .htProcesHandle⟩
  heap p := if p = 64 then some (.openProcess twoRegions) else none

theorem wellLaid_twoRegions : WellLaid twoRegions.vLastMaps :=
  ⟨by decide, by decide, by decide, by decide⟩

theorem virtualQueryEx_refines_virtualQueryExFull_twoRegions
    : (∀ lpAddress rinfo, ∃ q t,
        twoRegionsState.virtualQueryEx idleDriver 10000 lpAddress rinfo = some (q, t)
          ∧ AnswersPage twoRegions.vLastMaps (pageOf lpAddress) q)
      ∧ ∃ qs, walk (fun _ => (idleDriver, ⟨0, 0, 0, 0⟩)) 10000 5 0 0 twoRegionsState
          = some (qs, twoRegionsState) ∧ qs.length ≤ 5 ∧ HasEnded qs := by
  have here : IsProcess twoRegionsState 10000 twoRegions :=
    ⟨⟨64, .htProcesHandle⟩, by decide +kernel, rfl, by decide +kernel⟩
  obtain ⟨answers, walks⟩ :=
    virtualQueryEx_refines_virtualQueryExFull twoRegionsState 10000 twoRegions here
  refine ⟨answers idleDriver wellLaid_twoRegions, ?_⟩
  obtain ⟨qs, walked, bound, ended, _⟩ :=
    walks wellLaid_twoRegions (fun _ => (idleDriver, ⟨0, 0, 0, 0⟩)) (fun _ => by decide)
  exact ⟨qs, walked, bound, ended⟩

end RwMem.CeServer
