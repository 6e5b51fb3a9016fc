import RwMem.CeServer.Snapshots

/-! The loop that makes the modules of a process from its regions, with the update of the list in
place, and what the modules are.
-/

namespace RwMem.CeServer

open Memory RwMem.Driver RwMem.Server

-----------------------------------------------------------------------------------------
-- The update in place
-----------------------------------------------------------------------------------------

/-- An entry that has grown. -/
def ModuleListEntry.grow (me : ModuleListEntry) (size : Nat) : ModuleListEntry :=
  { me with moduleSize := toInt (toUint64 me.moduleSize + size : Nat) }

/-- The loop over the list that looks for the name: the entry that has it is inserted again with the
size added, and the old one behind it is erased. It gives whether the name was found. `none` if the
iterator passes the end, or if the turns are used up.
-/
def mergeLoop (name : List UInt8) (size : Nat)
    : (turns iter : Nat) → (isExist : Bool) → List ModuleListEntry →
      Option (Bool × List ModuleListEntry)
  | 0, _, _, _ => none
  | turns + 1, iter, isExist, vModuleList =>
      if iter = vModuleList.length then some (isExist, vModuleList)
      else
        vModuleList[iter]?.bind (fun me =>
          if me.moduleName = name then
            let vModuleList := vModuleList.insertIdx iter (me.grow size)
            let iter := iter + 1
            if iter ≠ vModuleList.length then some (true, vModuleList.eraseIdx iter)
            else mergeLoop name size turns (iter + 1) true vModuleList
          else mergeLoop name size turns (iter + 1) isExist vModuleList)

/-- The iterator is not at the end as often as the list has entries. -/
def mergeModule (name : List UInt8) (size : Nat) (vModuleList : List ModuleListEntry)
    : Option (Bool × List ModuleListEntry) :=
  mergeLoop name size (vModuleList.length + 1) 0 false vModuleList

theorem insertIdx_length {α : Type} (before rest : List α) (a : α)
    : (before ++ rest).insertIdx before.length a = before ++ a :: rest := by
  induction before with
  | nil => rfl
  | cons b before ih => exact congrArg (List.cons b) ih

theorem eraseIdx_length_succ {α : Type} (before after : List α) (a b : α)
    : (before ++ a :: b :: after).eraseIdx (before.length + 1) = before ++ a :: after := by
  rw [List.eraseIdx_append_of_length_le (Nat.le_add_right _ 1), Nat.add_sub_cancel_left]
  rfl

/-- The loop over the rest of the list, by induction on it: the entries passed have other names. -/
theorem mergeLoop_eq {name : List UInt8} {size turns : Nat} {before rest : List ModuleListEntry}
    (enough : rest.length < turns)
    : mergeLoop name size turns before.length false (before ++ rest)
      = some (rest.any (fun me => me.moduleName = name), before ++ growModule name size rest) := by
  induction rest generalizing before turns with
  | nil =>
      obtain ⟨turns, rfl⟩ : ∃ n, turns = n + 1 := ⟨turns - 1, by omega⟩
      rw [mergeLoop, if_pos (by simp)]
      rfl
  | cons me rest ih =>
      obtain ⟨turns, rfl⟩ : ∃ n, turns = n + 1 := ⟨turns - 1, by omega⟩
      have inside : before.length ≠ (before ++ me :: rest).length := by simp
      have here : (before ++ me :: rest)[before.length]? = some me := by simp
      rw [mergeLoop, if_neg inside, here, Option.bind_some]
      by_cases same : me.moduleName = name
      · -- the old entry stands behind the new one, so that the iterator is not at the end
        have behind : before.length + 1 ≠ (before ++ me.grow size :: me :: rest).length := by simp
        rw [if_pos same]
        simp only [insertIdx_length]
        rw [if_pos behind, eraseIdx_length_succ]
        simp [growModule, same, ModuleListEntry.grow]
      · have fewer : rest.length < turns := by simpa using enough
        have later : mergeLoop name size turns (before ++ [me]).length false
            ((before ++ [me]) ++ rest) = _ := ih fewer
        rw [if_neg same]
        simpa [growModule, same] using later

/-- The update comes to an end, finds the name if an entry has it, and changes that entry. -/
theorem mergeModule_eq (name : List UInt8) (size : Nat) (vModuleList : List ModuleListEntry)
    : mergeModule name size vModuleList
      = some (vModuleList.any (fun me => me.moduleName = name), growModule name size vModuleList) :=
  @mergeLoop_eq name size (vModuleList.length + 1) [] vModuleList (Nat.lt_succ_self _)

-----------------------------------------------------------------------------------------
-- The loop over the regions
-----------------------------------------------------------------------------------------

/-- A region with what comes of the read of its first four bytes: `none` if the read fails. -/
structure Probed where
  rinfo : Server.RegionInfo
  magic : Option Nat

/-- The regions that the loop does not skip. -/
def Probed.Eligible (p : Probed) : Prop :=
  ¬(p.rinfo.protection = PAGE_NOACCESS ∨ p.rinfo.type = MEM_MAPPED ∨ p.rinfo.name = []
    ∨ p.rinfo.name = asciiBytes "[heap]")

instance (p : Probed) : Decidable p.Eligible := inferInstanceAs (Decidable (¬_))

/-- A turn of the loop over the regions. -/
def addProbed (p : Probed) (vModuleList : List ModuleListEntry) : Option (List ModuleListEntry) :=
  if p.Eligible then
    let name := stripBrackets p.rinfo.name
    (mergeModule name p.rinfo.size vModuleList).map (fun (isExist, vModuleList) =>
      if isExist then vModuleList
      else if p.magic = some elfMagic then
        vModuleList ++ [⟨p.rinfo.baseaddress, toInt p.rinfo.size, name⟩]
      else vModuleList)
  else some vModuleList

def fillModules : List Probed → List ModuleListEntry → Option (List ModuleListEntry)
  | [], vModuleList => some vModuleList
  | p :: rest, vModuleList => (addProbed p vModuleList).bind (fillModules rest)

/-- Without an entry of the name the update leaves the list, by induction on it. -/
theorem growModule_of_absent {name : List UInt8} {size : Nat} {modules : List ModuleListEntry}
    (absent : ¬modules.any (fun me => me.moduleName = name))
    : growModule name size modules = modules := by
  induction modules with
  | nil => rfl
  | cons me rest ih =>
      simp only [List.any_cons, Bool.or_eq_true, decide_eq_true_eq, not_or] at absent
      rw [growModule, if_neg absent.1, ih absent.2]

/-- The entries in front of the one of the name are passed, by induction on them. -/
theorem growModule_middle {name : List UInt8} {size : Nat} {before after : List ModuleListEntry}
    {me : ModuleListEntry} (same : me.moduleName = name)
    (others : ∀ other ∈ before, other.moduleName ≠ name)
    : growModule name size (before ++ me :: after) = before ++ me.grow size :: after := by
  induction before with
  | nil => rw [List.nil_append, growModule, if_pos same, ModuleListEntry.grow, List.nil_append]
  | cons other before ih =>
      have passed := others other List.mem_cons_self
      rw [List.cons_append, growModule, if_neg passed,
        ih (fun o member => others o (List.mem_cons_of_mem _ member)), List.cons_append]

/-- A turn, without the iterator. -/
theorem addProbed_of_eligible {p : Probed} (eligible : p.Eligible)
    (modules : List ModuleListEntry)
    : addProbed p modules
      = some
          (if modules.any (fun me => me.moduleName = stripBrackets p.rinfo.name) then
            growModule (stripBrackets p.rinfo.name) p.rinfo.size modules
          else if p.magic = some elfMagic then
            modules ++ [⟨p.rinfo.baseaddress, toInt p.rinfo.size, stripBrackets p.rinfo.name⟩]
          else modules) := by
  rw [addProbed, if_pos eligible]
  dsimp only
  rw [mergeModule_eq]
  by_cases present : modules.any (fun me => me.moduleName = stripBrackets p.rinfo.name)
  · simp only [Option.map_some, present, if_true]
  · simp only [Option.map_some, present, if_false, growModule_of_absent present,
      Bool.false_eq_true]

/-- The loop of a snapshot, with each region read where it begins, by induction on the regions. -/
theorem fillModules_eq_addModules (readMagic : (address : Nat) → Option Nat)
    (regions : List Server.RegionInfo) (modules : List ModuleListEntry)
    : fillModules (regions.map (fun rinfo => ⟨rinfo, readMagic rinfo.baseaddress⟩)) modules
      = some (addModules readMagic regions modules) := by
  induction regions generalizing modules with
  | nil => rfl
  | cons rinfo rest ih =>
      rw [List.map_cons, fillModules, addModules]
      split
      · next skipped =>
          have ineligible : ¬Probed.Eligible ⟨rinfo, readMagic rinfo.baseaddress⟩ :=
            not_not.mpr skipped
          rw [addProbed, if_neg ineligible]
          exact ih modules
      · next eligible =>
          rw [addProbed_of_eligible (p := ⟨rinfo, readMagic rinfo.baseaddress⟩) eligible,
            Option.bind_some, ih]
          dsimp only
          split
          · rfl
          · split <;> rfl

-----------------------------------------------------------------------------------------
-- What the modules are
-----------------------------------------------------------------------------------------

/-- The region adds to the module of the name, if there is one. -/
def Probed.Named (name : List UInt8) (p : Probed) : Prop :=
  p.Eligible ∧ stripBrackets p.rinfo.name = name

/-- The region makes the module of the name, if there is none yet. -/
def Probed.Starts (name : List UInt8) (p : Probed) : Prop :=
  p.Named name ∧ p.magic = some elfMagic

instance (name : List UInt8) (p : Probed) : Decidable (p.Named name) :=
  inferInstanceAs (Decidable (_ ∧ _))

instance (name : List UInt8) (p : Probed) : Decidable (p.Starts name) :=
  inferInstanceAs (Decidable (_ ∧ _))

/-- The size of the regions of a name. -/
def totalSize (name : List UInt8) (probed : List Probed) : Nat :=
  ((probed.filter (fun p => p.Named name)).map (fun p => p.rinfo.size)).sum

/-- The module begins with the first region that starts its name, and takes the later ones of the
name with it.
-/
structure ModuleAt (probed : List Probed) (me : ModuleListEntry) (before : List Probed)
    (first : Probed) (after : List Probed)
    : Prop where
  split : probed = before ++ first :: after
  starts : first.Starts me.moduleName
  earliest : ∀ p ∈ before, ¬p.Starts me.moduleName
  baseAddress : me.baseAddress = first.rinfo.baseaddress
  moduleSize : me.moduleSize = toInt (totalSize me.moduleName (first :: after))

/-- Where the first region is that starts a name. -/
def firstStart (name : List UInt8) (probed : List Probed) : Nat :=
  probed.findIdx (fun p => p.Starts name)

/-- The modules of the regions: one for each name that a region starts, in the order of these. -/
structure ModulesOf (probed : List Probed) (modules : List ModuleListEntry) : Prop where
  distinct : (modules.map ModuleListEntry.moduleName).Nodup
  named : ∀ name, (∃ me ∈ modules, me.moduleName = name) ↔ ∃ p ∈ probed, p.Starts name
  ordered : modules.Pairwise (fun a b =>
    firstStart a.moduleName probed < firstStart b.moduleName probed)
  described : ∀ me ∈ modules, ∃ before first after, ModuleAt probed me before first after

/-- The size of one more region. -/
theorem totalSize_snoc (name : List UInt8) (probed : List Probed) (p : Probed)
    : totalSize name (probed ++ [p])
      = totalSize name probed + if p.Named name then p.rinfo.size else 0 := by
  by_cases same : p.Named name
  · simp [totalSize, same]
  · simp [totalSize, same]

/-- An `int` is made of the low 32 bits. -/
theorem toInt_congr {m n : Int} (same : m % 2 ^ 32 = n % 2 ^ 32) : toInt m = toInt n := by
  have low (k : Int) : toInt (k % 2 ^ 32) = toInt k := Int.emod_bmod k (2 ^ 32)
  rw [← low m, same, low]

/-- Sizes that are added in an `int` are the sum in an `int`. -/
theorem toInt_add (sum size : Nat)
    : toInt (toUint64 (toInt sum) + size : Nat) = toInt (sum + size : Nat) := by
  have same : (toInt sum) % 2 ^ 32 = (sum : Int) % 2 ^ 32 := Int.bmod_emod
  refine toInt_congr ?_
  rw [toUint64]
  omega

theorem toInt_of_lt {n : Nat} (small : n < 2 ^ 31) : toInt n = n :=
  Int.bmod_eq_of_le (by omega) (by omega)

/-- An entry after one more region. -/
def Probed.extend (p : Probed) (me : ModuleListEntry) : ModuleListEntry :=
  if p.Named me.moduleName then me.grow p.rinfo.size else me

theorem Probed.extend_moduleName (p : Probed) (me : ModuleListEntry)
    : (p.extend me).moduleName = me.moduleName := by
  by_cases named : p.Named me.moduleName
  · rw [Probed.extend, if_pos named, ModuleListEntry.grow]
  · rw [Probed.extend, if_neg named]

theorem Probed.extend_baseAddress (p : Probed) (me : ModuleListEntry)
    : (p.extend me).baseAddress = me.baseAddress := by
  by_cases named : p.Named me.moduleName
  · rw [Probed.extend, if_pos named, ModuleListEntry.grow]
  · rw [Probed.extend, if_neg named]

/-- A region of the name adds its size to the module, the others nothing. -/
theorem ModuleAt.extend {probed : List Probed} {me : ModuleListEntry} {before after : List Probed}
    {first : Probed} (at_ : ModuleAt probed me before first after) (p : Probed)
    : ModuleAt (probed ++ [p]) (p.extend me) before first (after ++ [p]) where
  split := by rw [at_.split, List.append_assoc, List.cons_append]
  starts := by rw [p.extend_moduleName]; exact at_.starts
  earliest := by rw [p.extend_moduleName]; exact at_.earliest
  baseAddress := by rw [p.extend_baseAddress]; exact at_.baseAddress
  moduleSize := by
    rw [p.extend_moduleName, ← List.cons_append, totalSize_snoc]
    by_cases named : p.Named me.moduleName
    · rw [Probed.extend, if_pos named, if_pos named, ModuleListEntry.grow, at_.moduleSize, toInt_add]
    · rw [Probed.extend, if_neg named, if_neg named, at_.moduleSize, Nat.add_zero]

/-- A later region leaves the first one of a name. -/
theorem firstStart_snoc {name : List UInt8} {probed : List Probed}
    (some_ : ∃ p ∈ probed, p.Starts name) (p : Probed)
    : firstStart name (probed ++ [p]) = firstStart name probed := by
  have inside : firstStart name probed < probed.length := by
    obtain ⟨q, member, starts⟩ := some_
    exact List.findIdx_lt_length.mpr ⟨q, member, decide_eq_true starts⟩
  exact List.findIdx_append.trans (if_pos inside)

/-- The first region of a name is the last one. -/
theorem firstStart_last {name : List UInt8} {probed : List Probed} {p : Probed}
    (none : ¬∃ q ∈ probed, q.Starts name) (starts : p.Starts name)
    : firstStart name (probed ++ [p]) = probed.length := by
  have outside : ¬firstStart name probed < probed.length := by
    intro inside
    obtain ⟨q, member, starts⟩ := List.findIdx_lt_length.mp inside
    exact none ⟨q, member, of_decide_eq_true starts⟩
  have here : [p].findIdx (fun q => q.Starts name) = 0 := by simp [starts]
  refine List.findIdx_append.trans ((if_neg outside).trans ?_)
  rw [here, Nat.zero_add]

/-- A region that starts no new name leaves the modules, or makes one of them grow. -/
theorem ModulesOf.extend {probed : List Probed} {modules : List ModuleListEntry}
    (made : ModulesOf probed modules) {p : Probed}
    (old : ∀ name, p.Starts name → ∃ me ∈ modules, me.moduleName = name)
    : ModulesOf (probed ++ [p]) (modules.map p.extend) where
  distinct := by
    rw [List.map_map]
    have same : ModuleListEntry.moduleName ∘ p.extend = ModuleListEntry.moduleName :=
      funext p.extend_moduleName
    rw [same]
    exact made.distinct
  named name := by
    constructor
    · intro present
      obtain ⟨_, listed, rfl⟩ := present
      obtain ⟨me, earlier, rfl⟩ := List.mem_map.mp listed
      rw [p.extend_moduleName]
      obtain ⟨q, member, starts⟩ := (made.named me.moduleName).mp ⟨me, earlier, rfl⟩
      exact ⟨q, List.mem_append_left _ member, starts⟩
    · intro started
      obtain ⟨q, member, starts⟩ := started
      have present : ∃ me ∈ modules, me.moduleName = name := by
        rcases List.mem_append.mp member with member | last
        · exact (made.named name).mpr ⟨q, member, starts⟩
        · exact old name (List.mem_singleton.mp last ▸ starts)
      obtain ⟨me, member, same⟩ := present
      exact ⟨p.extend me, List.mem_map_of_mem member, (p.extend_moduleName me).trans same⟩
  ordered := by
    refine List.pairwise_map.mpr ?_
    refine made.ordered.imp_of_mem (fun {a b} first second before => ?_)
    rw [p.extend_moduleName, p.extend_moduleName,
      firstStart_snoc ((made.named _).mp ⟨a, first, rfl⟩),
      firstStart_snoc ((made.named _).mp ⟨b, second, rfl⟩)]
    exact before
  described _ listed := by
    obtain ⟨me, earlier, rfl⟩ := List.mem_map.mp listed
    obtain ⟨before, first, after, at_⟩ := made.described me earlier
    exact ⟨before, first, after ++ [p], at_.extend p⟩

/-- The module that a region makes. -/
def Probed.module (p : Probed) : ModuleListEntry :=
  ⟨p.rinfo.baseaddress, toInt p.rinfo.size, stripBrackets p.rinfo.name⟩

/-- A module stands where a region starts its name. -/
theorem ModulesOf.firstStart_lt {probed : List Probed} {modules : List ModuleListEntry}
    (made : ModulesOf probed modules) {me : ModuleListEntry} (member : me ∈ modules)
    : firstStart me.moduleName probed < probed.length := by
  obtain ⟨q, there, starts⟩ := (made.named _).mp ⟨me, member, rfl⟩
  exact List.findIdx_lt_length.mpr ⟨q, there, decide_eq_true starts⟩

/-- A region that starts a new name makes the last of the modules. -/
theorem ModulesOf.snoc {probed : List Probed} {modules : List ModuleListEntry}
    (made : ModulesOf probed modules) {p : Probed} (starts : p.Starts p.module.moduleName)
    (new : ¬∃ me ∈ modules, me.moduleName = p.module.moduleName)
    : ModulesOf (probed ++ [p]) (modules ++ [p.module]) := by
  have none : ¬∃ q ∈ probed, q.Starts p.module.moduleName :=
    fun started => new ((made.named _).mpr started)
  refine ⟨?_, fun name => ⟨fun present => ?_, fun started => ?_⟩, ?_, fun me member => ?_⟩
  · rw [List.map_append, List.nodup_append]
    refine ⟨made.distinct, List.nodup_singleton _, fun name listed last other same => ?_⟩
    obtain ⟨me, member, rfl⟩ := List.mem_map.mp listed
    exact new ⟨me, member, same.trans (List.mem_singleton.mp other)⟩
  · obtain ⟨me, member, rfl⟩ := present
    rcases List.mem_append.mp member with member | last
    · obtain ⟨q, there, starts⟩ := (made.named _).mp ⟨me, member, rfl⟩
      exact ⟨q, List.mem_append_left _ there, starts⟩
    · rw [List.mem_singleton.mp last]
      exact ⟨p, List.mem_append_right _ (List.mem_singleton_self p), starts⟩
  · obtain ⟨q, member, started⟩ := started
    rcases List.mem_append.mp member with member | last
    · obtain ⟨me, there, same⟩ := (made.named name).mpr ⟨q, member, started⟩
      exact ⟨me, List.mem_append_left _ there, same⟩
    · obtain rfl := List.mem_singleton.mp last
      exact ⟨q.module, List.mem_append_right _ (List.mem_singleton_self _), started.1.2⟩
  · refine List.pairwise_append.mpr ⟨?_, List.pairwise_singleton _ _, fun me member last other => ?_⟩
    · refine made.ordered.imp_of_mem (fun {a b} first second before => ?_)
      rw [firstStart_snoc ((made.named _).mp ⟨a, first, rfl⟩),
        firstStart_snoc ((made.named _).mp ⟨b, second, rfl⟩)]
      exact before
    · rw [List.mem_singleton.mp other, firstStart_last none starts,
        firstStart_snoc ((made.named _).mp ⟨me, member, rfl⟩)]
      exact made.firstStart_lt member
  · rcases List.mem_append.mp member with member | last
    · obtain ⟨before, first, after, at_⟩ := made.described me member
      have same : p.extend me = me := if_neg (fun named => new ⟨me, member, named.2.symm⟩)
      exact ⟨before, first, after ++ [p], same ▸ at_.extend p⟩
    · rw [List.mem_singleton.mp last]
      refine ⟨probed, p, [], rfl, starts, fun q member started => none ⟨q, member, started⟩, rfl, ?_⟩
      have total : totalSize p.module.moduleName [p] = p.rinfo.size := by
        simp [totalSize, starts.1]
      rw [total, Probed.module]

/-- The modules of other names stay. -/
theorem map_extend_of_others {p : Probed} {modules : List ModuleListEntry}
    (others : ∀ me ∈ modules, ¬p.Named me.moduleName)
    : modules.map p.extend = modules :=
  (List.map_congr_left (fun me member => if_neg (others me member))).trans (List.map_id _)

/-- Where names are distinct, the update makes the one entry of the name grow, by induction on the
list.
-/
theorem growModule_eq_map {p : Probed} {modules : List ModuleListEntry} (eligible : p.Eligible)
    (distinct : (modules.map ModuleListEntry.moduleName).Nodup)
    : growModule (stripBrackets p.rinfo.name) p.rinfo.size modules = modules.map p.extend := by
  induction modules with
  | nil => rfl
  | cons me rest ih =>
      obtain ⟨alone, distinct⟩ := List.nodup_cons.mp distinct
      rw [growModule, List.map_cons, Probed.extend]
      by_cases same : me.moduleName = stripBrackets p.rinfo.name
      · have others : ∀ other ∈ rest, ¬p.Named other.moduleName := by
          intro other member named
          exact alone (List.mem_map.mpr ⟨other, member, (same.trans named.2).symm⟩)
        rw [if_pos same, if_pos ⟨eligible, same.symm⟩, map_extend_of_others others,
          ModuleListEntry.grow]
      · rw [if_neg same, if_neg (fun named => same named.2.symm), ih distinct]

/-- A turn of the loop makes the modules of one more region. -/
theorem ModulesOf.addProbed {probed : List Probed} {modules : List ModuleListEntry}
    (made : ModulesOf probed modules) (p : Probed)
    : ∃ modules', CeServer.addProbed p modules = some modules'
        ∧ ModulesOf (probed ++ [p]) modules' := by
  by_cases eligible : p.Eligible
  · rw [addProbed_of_eligible eligible]
    refine ⟨_, rfl, ?_⟩
    by_cases present : modules.any (fun me => me.moduleName = stripBrackets p.rinfo.name)
    · rw [if_pos present, growModule_eq_map eligible made.distinct]
      refine made.extend (fun name starts => ?_)
      obtain ⟨me, member, same⟩ := List.any_eq_true.mp present
      exact ⟨me, member, (of_decide_eq_true same).trans starts.1.2⟩
    · have absent : ¬∃ me ∈ modules, me.moduleName = stripBrackets p.rinfo.name := by
        simpa using present
      rw [if_neg present]
      by_cases elf : p.magic = some elfMagic
      · rw [if_pos elf]
        exact made.snoc ⟨⟨eligible, rfl⟩, elf⟩ absent
      · have others : ∀ me ∈ modules, ¬p.Named me.moduleName :=
          fun me member named => absent ⟨me, member, named.2.symm⟩
        rw [if_neg elf, ← map_extend_of_others others]
        exact made.extend (fun name starts => absurd starts.2 elf)
  · have others : ∀ me ∈ modules, ¬p.Named me.moduleName := fun _ _ named => eligible named.1
    refine ⟨modules, if_neg eligible, ?_⟩
    have made := made.extend (p := p) (fun name starts => absurd starts.1.1 eligible)
    rwa [map_extend_of_others others] at made

/-- The loop makes the modules of all regions, by induction on those that are left. -/
theorem ModulesOf.fillModules {probed rest : List Probed} {modules : List ModuleListEntry}
    (made : ModulesOf probed modules)
    : ∃ modules', CeServer.fillModules rest modules = some modules'
        ∧ ModulesOf (probed ++ rest) modules' := by
  induction rest generalizing probed modules with
  | nil => exact ⟨modules, rfl, by rwa [List.append_nil]⟩
  | cons p rest ih =>
      obtain ⟨modules', turned, made'⟩ := made.addProbed p
      obtain ⟨modules'', filled, made''⟩ := ih made'
      refine ⟨modules'', ?_, ?_⟩
      · rw [CeServer.fillModules, turned, Option.bind_some, filled]
      · rwa [List.append_assoc] at made''

theorem modulesOf_nil : ModulesOf [] [] where
  distinct := List.nodup_nil
  named name := by simp
  ordered := List.Pairwise.nil
  described me member := nomatch member

/-- For every list of regions and all that their reads can give, the loop ends with the modules of
the regions, each of the size of its regions if an `int` can hold it. The update in place comes to
its end on every list and changes only the first entry of the name. A snapshot has the modules that
the loop makes.
-/
theorem fillModules_modulesOf
    : (∀ probed, ∃ modules, fillModules probed [] = some modules ∧ ModulesOf probed modules
        ∧ ∀ me ∈ modules, ∃ before first after, ModuleAt probed me before first after
          ∧ (totalSize me.moduleName (first :: after) < 2 ^ 31 →
            me.moduleSize = totalSize me.moduleName (first :: after)))
      ∧ (∀ name size before me after, me.moduleName = name →
        (∀ other ∈ before, ModuleListEntry.moduleName other ≠ name) →
        mergeModule name size (before ++ me :: after)
          = some (true, before ++ me.grow size :: after))
      ∧ (∀ name size vModuleList, (∀ me ∈ vModuleList, ModuleListEntry.moduleName me ≠ name) →
        mergeModule name size vModuleList = some (false, vModuleList))
      ∧ ∀ readMagic regions,
        fillModules (regions.map (fun rinfo => ⟨rinfo, readMagic rinfo.baseaddress⟩)) []
          = some (addModules readMagic regions []) := by
  refine ⟨fun probed => ?_, fun name size before me after same others => ?_,
    fun name size vModuleList others => ?_,
    fun readMagic regions => fillModules_eq_addModules readMagic regions []⟩
  · obtain ⟨modules, filled, made⟩ := @ModulesOf.fillModules [] probed [] modulesOf_nil
    refine ⟨modules, filled, made, fun me member => ?_⟩
    obtain ⟨before, first, after, at_⟩ := made.described me member
    exact ⟨before, first, after, at_, fun small => at_.moduleSize.trans (toInt_of_lt small)⟩
  · rw [mergeModule_eq, growModule_middle same others]
    simp [same]
  · have absent : ¬vModuleList.any (fun me => me.moduleName = name) := by simpa using others
    rw [mergeModule_eq, growModule_of_absent absent, Bool.eq_false_of_not_eq_true absent]

end RwMem.CeServer
