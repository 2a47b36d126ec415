import Mathlib
import BearerAuth.FileTree

/-!
# Entries of a directory

The names of the entries, and what is found under a name.  As long as no name occurs twice, every
entry is found, and setting an entry brings no name twice.
-/

namespace BearerAuth

namespace Entries

variable {name other : FileName} {node : Node}

/-- The names of the entries, in order. -/
def names (es : Entries) : List FileName :=
  es.toList.map (·.1)

/-- An entry of a name is found if and only if there is one. -/
theorem find?_eq_none_iff : ∀ {es : Entries}, es.find? name = none ↔ name ∉ es.names
  | nil => by simp [find?, names, toList]
  | cons n x rest => by
    have ih : rest.find? name = none ↔ name ∉ rest.names := find?_eq_none_iff
    by_cases h : name = n
    · simp [find?, names, toList, h]
    · rw [find?, if_neg h, ih]
      simp [names, toList, h]

/-- What is found has one of the names. -/
theorem mem_names_of_find? {es : Entries} (h : es.find? name = some node) : name ∈ es.names := by
  by_contra hnot
  rw [find?_eq_none_iff.mpr hnot] at h
  cases h

/-- What is found is an entry. -/
theorem mem_toList_of_find? : ∀ {es : Entries}, es.find? name = some node →
    (name, node) ∈ es.toList
  | nil, h => by cases h
  | cons n x rest, h => by
    rw [find?] at h
    split at h
    · rename_i heq
      rw [heq, ← Option.some.inj h]
      exact List.mem_cons_self
    · exact List.mem_cons_of_mem _ (mem_toList_of_find? h)

/-- In a directory that lists no name twice every entry is found. -/
theorem find?_of_mem_toList : ∀ {es : Entries}, es.names.Nodup → (name, node) ∈ es.toList →
    es.find? name = some node
  | cons n x rest, hnodup, h => by
    obtain ⟨hn, hrest⟩ := List.nodup_cons.mp hnodup
    rw [find?]
    rcases List.mem_cons.mp h with heq | hmem
    · obtain ⟨rfl, rfl⟩ := Prod.mk.inj heq
      exact if_pos rfl
    · rw [if_neg, find?_of_mem_toList hrest hmem]
      rintro rfl
      exact hn (List.mem_map.mpr ⟨_, hmem, rfl⟩)

/-- Setting an entry adds no other. -/
theorem mem_toList_set {e : FileName × Node} : ∀ {es : Entries},
    e ∈ (es.set name node).toList → e = (name, node) ∨ e ∈ es.toList
  | nil, h => .inl (List.mem_singleton.mp h)
  | cons n x rest, h => by
    rw [set] at h
    split at h
    · rcases List.mem_cons.mp h with heq | hrest
      · exact .inl heq
      · exact .inr (List.mem_cons_of_mem _ hrest)
    · rcases List.mem_cons.mp h with heq | hrest
      · exact .inr (heq ▸ List.mem_cons_self)
      · rcases mem_toList_set hrest with heq | hold
        · exact .inl heq
        · exact .inr (List.mem_cons_of_mem _ hold)

/-- Setting an entry brings no name twice. -/
theorem nodup_names_set : ∀ {es : Entries}, es.names.Nodup → (es.set name node).names.Nodup
  | nil, _ => List.nodup_singleton name
  | cons n x rest, h => by
    obtain ⟨hn, hrest⟩ := List.nodup_cons.mp h
    rw [set]
    split
    · rename_i heq
      exact List.nodup_cons.mpr ⟨heq ▸ hn, hrest⟩
    · rename_i hne
      refine List.nodup_cons.mpr ⟨?_, nodup_names_set hrest⟩
      intro hmem
      obtain ⟨e, he, hname⟩ := List.mem_map.mp hmem
      rcases mem_toList_set he with heq | hold
      · rw [heq] at hname
        exact hne hname
      · exact hn (List.mem_map.mpr ⟨e, hold, hname⟩)

end Entries

end BearerAuth
