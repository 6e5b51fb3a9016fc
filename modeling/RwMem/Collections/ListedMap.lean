import Mathlib.Data.List.Nodup
import Mathlib.Logic.Function.Basic

/-! Maps that are given by a list of what is in them, where one element comes in or is taken out.
-/

namespace Collections

section Elements

variable {α κ : Type} {before after : List α} {a b : α}

/-- What is left where one element is taken away. -/
theorem mem_of_mem_append (left : b ∈ before ++ after) : b ∈ before ++ a :: after := by
  rcases List.mem_append.mp left with first | last
  · exact List.mem_append_left _ first
  · exact List.mem_append_right _ (List.mem_cons_of_mem a last)

theorem mem_append_of_ne (member : b ∈ before ++ a :: after) (other : b ≠ a)
    : b ∈ before ++ after := by
  rcases List.mem_append.mp member with first | last
  · exact List.mem_append_left _ first
  · rcases List.mem_cons.mp last with same | later
    · exact absurd same other
    · exact List.mem_append_right _ later

/-- Where the keys are distinct, those that are left differ from the one that is taken away. -/
theorem key_ne_of_nodup {key : α → κ} (nodup : ((before ++ a :: after).map key).Nodup)
    (left : b ∈ before ++ after)
    : key b ≠ key a := by
  rw [List.map_append, List.map_cons, List.nodup_middle, ← List.map_append] at nodup
  intro same
  exact (List.nodup_cons.mp nodup).1 (same ▸ List.mem_map_of_mem left)

end Elements

variable {α κ β γ : Type} {key : α → κ} {value : α → β} {map : κ → Option β}
variable {elements before after : List α} {a : α}

/-- The map has the values of the elements under their keys, and nothing else. -/
def Lists (key : α → κ) (value : α → β) (elements : List α) (map : κ → Option β) : Prop :=
  ∀ k v, map k = some v ↔ ∃ a ∈ elements, key a = k ∧ value a = v

theorem Lists.eq_none {k : κ} (lists : Lists key value elements map)
    (absent : ∀ a ∈ elements, key a ≠ k)
    : map k = none := by
  cases found : map k with
  | none => rfl
  | some v =>
      obtain ⟨a, member, same, _⟩ := (lists k v).mp found
      exact absurd same (absent a member)

variable [DecidableEq κ]

/-- An element comes in under a new key. -/
theorem Lists.cons (lists : Lists key value elements map)
    (new : ∀ b ∈ elements, key b ≠ key a)
    : Lists key value (a :: elements) (Function.update map (key a) (some (value a))) := by
  intro k v
  by_cases here : k = key a
  · subst here
    rw [Function.update_self]
    constructor
    · intro same
      exact ⟨a, List.mem_cons_self, rfl, Option.some.inj same⟩
    · rintro ⟨b, member, same, rfl⟩
      rcases List.mem_cons.mp member with rfl | old
      · rfl
      · exact absurd same (new b old)
  · rw [Function.update_of_ne here, lists k v]
    constructor
    · rintro ⟨b, old, same, own⟩
      exact ⟨b, List.mem_cons_of_mem a old, same, own⟩
    · rintro ⟨b, member, rfl, own⟩
      rcases List.mem_cons.mp member with rfl | old
      · exact absurd rfl here
      · exact ⟨b, old, rfl, own⟩

/-- An element is taken out, whose key no other has. -/
theorem Lists.remove (lists : Lists key value (before ++ a :: after) map)
    (apart : ∀ b ∈ before ++ after, key b ≠ key a)
    : Lists key value (before ++ after) (Function.update map (key a) none) := by
  intro k v
  by_cases here : k = key a
  · subst here
    rw [Function.update_self]
    constructor
    · intro same
      contradiction
    · rintro ⟨b, left, same, _⟩
      exact absurd same (apart b left)
  · rw [Function.update_of_ne here, lists k v]
    constructor
    · rintro ⟨b, member, rfl, own⟩
      have other : b ≠ a := fun same => here (congrArg key same)
      exact ⟨b, mem_append_of_ne member other, rfl, own⟩
    · rintro ⟨b, left, same, own⟩
      exact ⟨b, mem_of_mem_append left, same, own⟩

/-- A map that shows another one shows it also where both change alike. -/
theorem update_shows {shown : κ → Option γ} {show_ : κ → β → γ}
    (shows : ∀ k, shown k = (map k).map (show_ k)) (k : κ) (v : Option β)
    : ∀ i, Function.update shown k (v.map (show_ k)) i
        = (Function.update map k v i).map (show_ i) := by
  intro i
  by_cases here : i = k
  · subst here
    rw [Function.update_self, Function.update_self]
  · rw [Function.update_of_ne here, Function.update_of_ne here]
    exact shows i

end Collections
