import Mathlib
import BearerAuth.Registry

/-!
# Equal registries

A registry is determined by what it finds, because its entries are kept in order.

Main statement: `Registry.ext_find?`.
-/

namespace BearerAuth

namespace Registry

variable {α : Type}

/-- Nothing is found in front of the first name. -/
theorem search?_eq_none {name : String} {es : List (String × α)} (h : ∀ e ∈ es, name < e.1) :
    search? name es = none := by
  induction es with
  | nil => rfl
  | cons e es ih =>
    have hne : name ≠ e.1 := (h e List.mem_cons_self).ne
    rw [search?, if_neg hne]
    exact ih fun f hf => h f (List.mem_cons_of_mem e hf)

/-- Entries in order are determined by what is found among them. -/
theorem eq_of_search? {es fs : List (String × α)} (hes : es.Pairwise fun e f => e.1 < f.1)
    (hfs : fs.Pairwise fun e f => e.1 < f.1) (h : ∀ name, search? name es = search? name fs) :
    es = fs := by
  induction es generalizing fs with
  | nil =>
    cases fs with
    | nil => rfl
    | cons f fs =>
      have hfirst := h f.1
      simp [search?] at hfirst
  | cons e es ih =>
    obtain ⟨he, hes⟩ := List.pairwise_cons.mp hes
    cases fs with
    | nil =>
      have hfirst := h e.1
      simp [search?] at hfirst
    | cons f fs =>
      obtain ⟨hf, hfs⟩ := List.pairwise_cons.mp hfs
      -- Of two different first names the lesser one is found in one list only.
      have hnames : e.1 = f.1 := by
        rcases lt_trichotomy e.1 f.1 with hlt | heq | hgt
        · have hfirst := h e.1
          have hnone := search?_eq_none fun g hg => hlt.trans (hf g hg)
          rw [search?, if_pos rfl, search?, if_neg hlt.ne, hnone] at hfirst
          cases hfirst
        · exact heq
        · have hfirst := h f.1
          have hnone := search?_eq_none fun g hg => hgt.trans (he g hg)
          rw [search?, if_neg hgt.ne, hnone, search?, if_pos rfl] at hfirst
          cases hfirst
      have hvalues : e.2 = f.2 := by
        have hfirst := h e.1
        rw [search?, if_pos rfl, search?, if_pos hnames] at hfirst
        exact Option.some.inj hfirst
      have hrest : es = fs := by
        refine ih hes hfs ?_
        intro name
        by_cases hname : name = e.1
        · have hnone := search?_eq_none fun g hg => hname ▸ he g hg
          have hnone' := search?_eq_none fun g hg => (hname.trans hnames) ▸ hf g hg
          rw [hnone, hnone']
        · have hname' := h name
          rwa [search?, if_neg hname, search?, if_neg (hnames ▸ hname)] at hname'
      rw [hrest, Prod.ext hnames hvalues]

/-- Two registries in which the same is found are the same. -/
theorem ext_find? {r s : Registry α} (h : ∀ name, r.find? name = s.find? name) : r = s := by
  have hentries : r.entries = s.entries := eq_of_search? r.sorted s.sorted h
  cases r
  cases s
  cases hentries
  rfl

/-- A name is registered if something is found under it. -/
theorem mem_names_iff_exists {r : Registry α} {name : String} :
    name ∈ r.names ↔ ∃ value, r.find? name = some value := by
  rw [mem_names_iff, contains, Option.isSome_iff_exists]

/-- No name is registered twice. -/
theorem names_nodup (r : Registry α) : r.names.Nodup :=
  r.names_sorted.imp fun h => h.ne

end Registry

end BearerAuth
