/-!
# Registries

A finite map from names to values, kept in the order of the names.  Names are compared character by
character by code point, which is also the order of their UTF-8 bytes.  Because the order is part
of the type, two registries with the same entries are equal.

Main statements: `Registry.find?_insert` and `Registry.find?_erase` say what the
operations do to the view `find?`, and `Registry.mem_names_iff` and
`Registry.names_sorted` what the list of names is.
-/

namespace BearerAuth

/-- A finite map from names to values. -/
structure Registry (α : Type) where
  /-- The entries, in the order of their names. -/
  entries : List (String × α)
  sorted : entries.Pairwise fun e f => e.1 < f.1

namespace Registry

variable {α : Type}

instance [DecidableEq α] : DecidableEq (Registry α) := fun r s =>
  decidable_of_iff (r.entries = s.entries) <| by
    cases r; cases s; simp

/-- The registry without entries. -/
def empty : Registry α := ⟨[], .nil⟩

instance : Inhabited (Registry α) := ⟨empty⟩

/-- The value of the first entry of that name. -/
def search? (name : String) : List (String × α) → Option α
  | [] => none
  | (n, v) :: rest => if name = n then some v else search? name rest

/-- Puts an entry in its place, over an entry of the same name. -/
def insertEntry (name : String) (value : α) : List (String × α) → List (String × α)
  | [] => [(name, value)]
  | (n, v) :: rest =>
      if name = n then (name, value) :: rest
      else if name < n then (name, value) :: (n, v) :: rest
      else (n, v) :: insertEntry name value rest

theorem fst_of_mem_insertEntry {name : String} {value : α} {es : List (String × α)}
    {e : String × α} (h : e ∈ insertEntry name value es) : e.1 = name ∨ e ∈ es := by
  induction es with
  | nil => simp_all [insertEntry]
  | cons f rest ih => grind [insertEntry]

theorem insertEntry_sorted (name : String) (value : α) {es : List (String × α)}
    (h : es.Pairwise fun e f => e.1 < f.1) :
    (insertEntry name value es).Pairwise fun e f => e.1 < f.1 := by
  induction es with
  | nil => simp [insertEntry]
  | cons f rest ih =>
    obtain ⟨n, v⟩ := f
    rw [List.pairwise_cons] at h
    unfold insertEntry
    split
    · rename_i heq
      subst heq
      exact List.pairwise_cons.2 h
    · split
      · rename_i hne hlt
        refine List.pairwise_cons.2 ⟨fun e he => ?_, List.pairwise_cons.2 h⟩
        rcases List.mem_cons.1 he with rfl | he
        · exact hlt
        · exact String.lt_trans hlt (h.1 e he)
      · rename_i hne hlt
        refine List.pairwise_cons.2 ⟨fun e he => ?_, ih h.2⟩
        rcases fst_of_mem_insertEntry he with heq | he
        · rw [heq]
          have hle : n ≤ name := hlt
          by_cases hnn : n < name
          · exact hnn
          · exact absurd (String.le_antisymm hnn hle) hne
        · exact h.1 e he

/-- The value registered under a name. -/
def find? (r : Registry α) (name : String) : Option α :=
  search? name r.entries

/-- Some value is registered under the name. -/
def contains (r : Registry α) (name : String) : Bool :=
  (r.find? name).isSome

/-- Registers a value under a name, in place of an earlier one. -/
def insert (r : Registry α) (name : String) (value : α) : Registry α :=
  ⟨insertEntry name value r.entries, insertEntry_sorted name value r.sorted⟩

/-- Removes what is registered under a name. -/
def erase (r : Registry α) (name : String) : Registry α :=
  ⟨r.entries.filter fun e => e.1 ≠ name, r.sorted.filter _⟩

/-- The registered names, in order. -/
def names (r : Registry α) : List String :=
  r.entries.map (·.1)

/-- The number of entries. -/
def size (r : Registry α) : Nat :=
  r.entries.length

/-- The registry of a list of entries, of which a later one replaces an earlier one. -/
def ofList (es : List (String × α)) : Registry α :=
  es.foldl (fun r e => r.insert e.1 e.2) empty

@[simp] theorem find?_empty (name : String) : (empty : Registry α).find? name = none := rfl

theorem search?_insertEntry (name other : String) (value : α) (es : List (String × α)) :
    search? other (insertEntry name value es) =
      if other = name then some value else search? other es := by
  induction es with
  | nil => simp [insertEntry, search?]
  | cons f rest ih => grind [insertEntry, search?]

theorem find?_insert (r : Registry α) (name other : String) (value : α) :
    (r.insert name value).find? other = if other = name then some value else r.find? other :=
  search?_insertEntry name other value r.entries

theorem search?_filter (name other : String) (es : List (String × α)) :
    search? other (es.filter fun e => e.1 ≠ name) =
      if other = name then none else search? other es := by
  induction es with
  | nil => simp [search?]
  | cons f rest ih => grind [search?]

theorem find?_erase (r : Registry α) (name other : String) :
    (r.erase name).find? other = if other = name then none else r.find? other :=
  search?_filter name other r.entries

theorem mem_names_iff (r : Registry α) (name : String) :
    name ∈ r.names ↔ r.contains name := by
  unfold names contains find?
  induction r.entries with
  | nil => simp [search?]
  | cons f rest ih => grind [search?]

theorem names_sorted (r : Registry α) : r.names.Pairwise (· < ·) :=
  List.pairwise_map.2 r.sorted

end Registry

/-- A finite set of names, kept in order. -/
abbrev NameSet := Registry Unit

/-- The set of the names in a list. -/
def NameSet.ofNames (names : List String) : NameSet :=
  Registry.ofList (names.map (·, ()))

end BearerAuth
