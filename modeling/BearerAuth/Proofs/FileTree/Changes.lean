import Mathlib
import BearerAuth.Proofs.FileTree.Writing

/-!
# Where trees differ

Of what is done to a tree it is told in which places a file or a link may have changed.  Everywhere
else there are the same files and links, and no directory has gone.

Main statements: `FileTree.SameOutside.trans` and `FileTree.WrittenAt.sameOutside`.
-/

namespace BearerAuth

namespace FileTree

variable {t t' t'' : FileTree} {path : Path} {place : Location} {places places' : List Location}

/-- Outside of the places the same files and links stand in both trees, and no directory of the
first has gone from the second. -/
structure SameOutside (places : List Location) (t t' : FileTree) : Prop where
  workingDirectory : t'.workingDirectory = t.workingDirectory
  directory : ∀ {place}, t.HasDirectory place → t'.HasDirectory place
  others : ∀ {place node}, place ∉ places → node.isDirectory = false →
    (t'.at? place = some node ↔ t.at? place = some node)

theorem SameOutside.trans (h : t.SameOutside places t') (h' : t'.SameOutside places' t'') :
    t.SameOutside (places ++ places') t'' := by
  refine ⟨h'.workingDirectory.trans h.workingDirectory, fun hd => h'.directory (h.directory hd), ?_⟩
  intro place node hplace hnode
  rw [List.mem_append, not_or] at hplace
  exact (h'.others hplace.2 hnode).trans (h.others hplace.1 hnode)

/-- What is not a directory does not stand where there is one. -/
theorem not_hasDirectory_of_at? {node : Node} (h : t.at? place = some node)
    (hnode : node.isDirectory = false) : ¬ t.HasDirectory place := by
  rintro ⟨es, hes⟩
  rw [hes] at h
  obtain rfl := Option.some.inj h
  cases hnode

/-- Where directories are made all files and links stay, and there are no new ones. -/
theorem Grown.sameOutside (h : t.Grown t') : t.SameOutside [] t' := by
  refine ⟨h.workingDirectory, h.hasDirectory, ?_⟩
  intro place node _ hnode
  rcases h.at?_eq_or place with hsame | ⟨hmade, hbefore⟩
  · rw [hsame]
  · refine iff_of_false (fun hat => not_hasDirectory_of_at? hat hnode hmade) ?_
    intro hat
    rcases hbefore with hdirectory | hnone
    · exact not_hasDirectory_of_at? hat hnode hdirectory
    · rw [hnone] at hat
      cases hat

/-- Where a file is written no other file and no link changes. -/
theorem WrittenAt.sameOutside {mode : FileMode} {content : Bytes}
    (h : t.WrittenAt t' path place mode content) : t.SameOutside [place] t' := by
  refine ⟨h.workingDirectory, h.directory, ?_⟩
  intro other node hother hnode
  have hne : other ≠ place := fun heq => hother (List.mem_singleton.mpr heq)
  cases hbefore : t.at? other with
  | none => rw [h.others (.inl hbefore) hne, hbefore]
  | some found =>
    cases found with
    | file mode content => rw [h.others (.inr ⟨mode, content, hbefore⟩) hne, hbefore]
    | link target => rw [h.link hbefore]
    | directory entries =>
      have hdirectory : t.HasDirectory other := ⟨entries, hbefore⟩
      rw [← hbefore]
      exact iff_of_false
        (fun hat => not_hasDirectory_of_at? hat hnode (h.directory hdirectory))
        (fun hat => not_hasDirectory_of_at? hat hnode hdirectory)

end FileTree

end BearerAuth
