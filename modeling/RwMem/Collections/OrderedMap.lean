import Mathlib.Data.List.Sigma
import Mathlib.Data.List.Sort

/-! Maps whose entries are kept in the order of their keys, with lookup, insertion of a key that
is absent, and removal.
-/

namespace Collections

variable {κ ν : Type} [LinearOrder κ]

/-- The order of the entries of a map. -/
def KeyLe (a b : (_ : κ) × ν) : Prop := a.1 ≤ b.1

instance : DecidableRel (@KeyLe κ ν _) :=
  fun a b => inferInstanceAs (Decidable (a.1 ≤ b.1))

instance : Std.Total (@KeyLe κ ν _) := ⟨fun a b => le_total a.1 b.1⟩

instance : IsTrans ((_ : κ) × ν) KeyLe := ⟨fun _ _ _ first second => le_trans first second⟩

/-- Entries in ascending order, no two with one key. -/
structure OrderedMap (κ ν : Type) [LinearOrder κ] where
  entries : List ((_ : κ) × ν)
  sorted : entries.Pairwise KeyLe
  nodup : entries.NodupKeys

namespace OrderedMap

def empty : OrderedMap κ ν := ⟨[], List.Pairwise.nil, List.nodupKeys_nil⟩

def find? (m : OrderedMap κ ν) (k : κ) : Option ν := m.entries.dlookup k

theorem nodupKeys_orderedInsert {entries : List ((_ : κ) × ν)} {k : κ} (v : ν)
    (nodup : entries.NodupKeys) (absent : k ∉ entries.keys)
    : (entries.orderedInsert KeyLe ⟨k, v⟩).NodupKeys :=
  (List.perm_nodupKeys (List.perm_orderedInsert _ _ _)).mpr
    (List.nodupKeys_cons.mpr ⟨absent, nodup⟩)

/-- A key that is present keeps its value. -/
def insert (m : OrderedMap κ ν) (k : κ) (v : ν) : OrderedMap κ ν :=
  if absent : k ∈ m.entries.keys then m
  else
    { entries := m.entries.orderedInsert KeyLe ⟨k, v⟩
      sorted := m.sorted.orderedInsert _ _
      nodup := nodupKeys_orderedInsert v m.nodup absent }

def erase (m : OrderedMap κ ν) (k : κ) : OrderedMap κ ν :=
  { entries := m.entries.kerase k
    sorted := m.sorted.sublist (List.kerase_sublist k _)
    nodup := m.nodup.kerase k }

@[simp] theorem find?_empty (k : κ) : (empty : OrderedMap κ ν).find? k = none := rfl

theorem mem_entries_iff {m : OrderedMap κ ν} {k : κ} {v : ν}
    : ⟨k, v⟩ ∈ m.entries ↔ m.find? k = some v :=
  (List.mem_dlookup_iff m.nodup).symm

/-- A new key is found with its value, and every other key as before. -/
theorem find?_insert {m : OrderedMap κ ν} {k : κ} (absent : m.find? k = none) (v : ν) (j : κ)
    : (m.insert k v).find? j = if j = k then some v else m.find? j := by
  have outside : k ∉ m.entries.keys := List.dlookup_eq_none.mp absent
  have nodup := nodupKeys_orderedInsert v m.nodup outside
  rw [insert, dif_neg outside, find?,
    List.perm_dlookup j nodup (List.perm_orderedInsert _ _ _)]
  split
  · next same =>
      subst same
      exact List.dlookup_cons_eq _ _ _
  · next other => exact List.dlookup_cons_ne _ _ other

/-- The key is gone, and every other key is found as before. -/
theorem find?_erase (m : OrderedMap κ ν) (k j : κ)
    : (m.erase k).find? j = if j = k then none else m.find? j := by
  rw [erase, find?]
  split
  · next same =>
      subst same
      exact List.dlookup_kerase _ m.nodup
  · next other => exact List.dlookup_kerase_ne other

end OrderedMap

end Collections
