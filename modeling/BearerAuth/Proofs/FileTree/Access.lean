import Mathlib
import BearerAuth.FileTree.Host
import BearerAuth.Proofs.Failable
import BearerAuth.Proofs.FileTree.Walk

/-!
# Files of a directory

What a program sees of a directory that it knows by a path.  A plain name behind the path leads
to an entry of the directory, to read a file finds the entry, and to make the directory where
there is one changes nothing.

Main statements: `FileTree.walk_join`, `FileTree.read_join` and `FileTree.makeDirectories_of_list`.
-/

namespace BearerAuth

/-- Nothing stands under the name, or a file. -/
def Entries.IsFree (es : Entries) (name : FileName) : Prop :=
  es.find? name = none ∨ ∃ mode content, es.find? name = some (.file mode content)

namespace FileTree

variable {t t' : FileTree} {path : Path} {name : FileName} {place : Location} {es : Entries}
  {d : Destination}

/-! ### Entries -/

/-- The entry of a directory stands below it. -/
theorem at?_append_singleton (h : t.at? place = some (.directory es)) (name : FileName) :
    t.at? (place ++ [name]) = es.find? name := by
  rw [at?, Node.at?_append]
  rw [at?] at h
  rw [h, Option.bind_some, Node.at?]
  cases es.find? name <;> rfl

/-- The directory of a file that is put there gets its entry. -/
theorem at?_put_entry (h : t.at? place = some (.directory es)) (name : FileName) (node : Node) :
    (t.put (place ++ [name]) node).at? place = some (.directory (es.set name node)) := by
  have hput : (t.root.at? place) = some (.directory es) := h
  rw [put, at?]
  dsimp only
  rw [Node.at?_put_append hput, Node.put_singleton]

/-- To put a file or an empty directory where no directory and no link stands changes nothing in
other places, except that the directories above it get an entry. -/
theorem at?_put_leaf {node : Node} (h : t.at? place = some (.directory es)) (hfree : es.IsFree name)
    (hleaf : ∀ n below, node.at? (n :: below) = none) (other : Location) :
    other = place ++ [name] ∨
      (t.HasDirectory other ∧ (t.put (place ++ [name]) node).HasDirectory other) ∨
      (t.put (place ++ [name]) node).at? other = t.at? other := by
  by_cases hbelow : place ++ [name] <+: other
  · obtain ⟨below, rfl⟩ := hbelow
    cases below with
    | nil => exact .inl (List.append_nil _)
    | cons n below =>
      have hput : (t.put (place ++ [name]) node).at? (place ++ [name]) = some node :=
        Node.at?_put_self h
      refine .inr (.inr ?_)
      rw [at?] at hput
      rw [at?, Node.at?_append, hput, Option.bind_some, hleaf, at?, Node.at?_append, ← at?,
        at?_append_singleton h]
      rcases hfree with hnone | ⟨mode, content, hfile⟩
      · rw [hnone]
        rfl
      · rw [hfile]
        rfl
  · by_cases habove : other <+: place ++ [name]
    · rcases List.prefix_concat_iff.mp habove with rfl | ⟨below, rfl⟩
      · exact absurd (List.prefix_refl _) hbelow
      · exact .inr (.inl ⟨HasDirectory.of_append below ⟨es, h⟩,
          HasDirectory.of_append below ⟨_, at?_put_entry h name node⟩⟩)
    · exact .inr (.inr (Node.at?_put_of_apart hbelow habove))

/-- Directories and links of one tree stay directories and links in the other. -/
structure Keeps (t t' : FileTree) : Prop where
  directory : ∀ {place}, t.HasDirectory place → t'.HasDirectory place
  link : ∀ {place target}, t.at? place = some (.link target) → t'.at? place = some (.link target)

/-- What is put where no directory and no link stands keeps the others. -/
theorem keeps_put_leaf {node : Node} (h : t.at? place = some (.directory es))
    (hfree : es.IsFree name) (hleaf : ∀ n below, node.at? (n :: below) = none) :
    t.Keeps (t.put (place ++ [name]) node) := by
  have hentry : ∀ {found}, t.at? (place ++ [name]) = some found →
      ∃ mode content, found = .file mode content := by
    intro found hfound
    rw [at?_append_singleton h] at hfound
    rcases hfree with hnone | ⟨mode, content, hfile⟩
    · rw [hnone] at hfound
      cases hfound
    · rw [hfile] at hfound
      exact ⟨mode, content, (Option.some.inj hfound).symm⟩
  constructor
  · rintro other ⟨below, hbelow⟩
    rcases at?_put_leaf h hfree hleaf other with rfl | ⟨-, hdirectory⟩ | hsame
    · obtain ⟨mode, content, heq⟩ := hentry hbelow
      cases heq
    · exact hdirectory
    · exact ⟨below, hsame.trans hbelow⟩
  · intro other target hlink
    rcases at?_put_leaf h hfree hleaf other with rfl | ⟨⟨below, hbelow⟩, -⟩ | hsame
    · obtain ⟨mode, content, heq⟩ := hentry hlink
      cases heq
    · rw [hlink] at hbelow
      cases hbelow
    · exact hsame.trans hlink

/-! ### Paths to a directory -/

theorem walk_eq_ok_iff :
    t.walk path = .ok d ↔ nul ∉ path ∧ path ≠ [] ∧
      walkSteps t maxLinks path.endsWithSlash path.steps (startOf path t.workingDirectory) =
        .ok d := by
  unfold walk
  split
  · rename_i hnul
    simp [hnul]
  · rename_i hnul
    split
    · rename_i hempty
      simp [List.isEmpty_iff.mp hempty]
    · rename_i hempty
      have hne : path ≠ [] := fun h => hempty (List.isEmpty_iff.mpr h)
      simp [hnul, hne]

/-- A directory is listed where a walk ends at it. -/
theorem list_eq_ok_iff :
    t.list path = .ok es ↔
      ∃ d, t.walk path = .ok d ∧ t.at? d.place = some (.directory es) := by
  unfold list resolve
  cases hwalk : t.walk path with
  | error cause => simp
  | ok d =>
    cases hnode : t.at? d.place with
    | none => simp [hnode]
    | some node =>
      cases node with
      | directory entries => simp [hnode]
      | link target => simp [hnode]
      | file mode content =>
        by_cases hdirectory : d.asDirectory = true <;> simp [hnode, hdirectory]

/-- A path joined with a name leads to the place of the name in the directory of the path. -/
theorem walk_join (h : t.walk path = .ok d) (hd : t.at? d.place = some (.directory es))
    (hname : FileName.IsPlain name) (hfree : es.IsFree name) :
    t.walk (path.join name) =
      if name.length > maxNameLength then .error .nameTooLong
      else .ok ⟨d.place ++ [name], false⟩ := by
  obtain ⟨hnul, hne, hwalk⟩ := walk_eq_ok_iff.mp h
  have hplace : t.at? (d.place ++ [name]) = none ∨
      ∃ mode content, t.at? (d.place ++ [name]) = some (.file mode content) := by
    rw [at?_append_singleton hd]
    exact hfree
  have hjoined := walkSteps_append_entry false ⟨es, hd⟩ hplace hwalk
  have hstart : startOf (path.join name) t.workingDirectory = startOf path t.workingDirectory := by
    rw [startOf, startOf, Path.isAbsolute_join hne hname]
  rw [walk, if_neg (Path.nul_notMem_join hne hname hnul),
    if_neg (by simpa using Path.join_ne_nil hne hname), Path.endsWithSlash_join hne hname,
    Path.steps_join hne hname, hstart, hjoined]

/-- A file is read under its name. -/
theorem read_join {mode : FileMode} {content : Bytes} (h : t.list path = .ok es)
    (hname : FileName.IsPlain name) (hlength : name.length ≤ maxNameLength)
    (hfile : es.find? name = some (.file mode content)) :
    t.read (path.join name) = .ok content := by
  obtain ⟨d, hwalk, hd⟩ := list_eq_ok_iff.mp h
  have hentry := at?_append_singleton hd name
  rw [read, resolve, walk_join hwalk hd hname (.inr ⟨mode, content, hfile⟩),
    if_neg (Nat.not_lt.mpr hlength)]
  simp [hentry, hfile]

/-! ### Making directories -/

/-- A node is made where the last step of a path leads to a name under which nothing stands. -/
theorem exists_of_create {node : Node} (h : t.create path node = .ok t') :
    ∃ steps name d, path.steps = steps ++ [.entry name] ∧ name.length ≤ maxNameLength ∧
      walkSteps t maxLinks false steps (startOf path t.workingDirectory) = .ok d ∧
      t.HasDirectory d.place ∧ t.at? (d.place ++ [name]) = none ∧
      t' = t.put (d.place ++ [name]) node := by
  obtain ⟨⟨parent, found⟩, hparent, h⟩ := Except.bind_eq_ok_iff.mp h
  cases found with
  | none => cases h
  | some name =>
    dsimp only at h
    split at h
    · rename_i hnone
      unfold walkToParent at hparent
      split at hparent
      · cases hparent
      · split at hparent
        · cases hparent
        · dsimp only at hparent
          obtain ⟨d, hwalk, hparent⟩ := Except.bind_eq_ok_iff.mp hparent
          split at hparent
          · rename_i es hes
            split at hparent
            · rename_i last hlast
              split at hparent
              · cases hparent
              · rename_i hlength
                obtain ⟨rfl, hname⟩ := Prod.mk.inj (Except.ok.inj hparent)
                obtain rfl : last = name := Option.some.inj hname
                obtain ⟨steps, hsteps⟩ := List.getLast?_eq_some_iff.mp hlast
                rw [hsteps, List.dropLast_concat] at hwalk
                exact ⟨steps, last, d, hsteps, Nat.not_lt.mp hlength, hwalk, ⟨es, hes⟩, hnone,
                  (Except.ok.inj h).symm⟩
            · cases hparent
          · cases hparent
          · cases hparent
    · cases h

/-- No directory is made where there is one. -/
theorem makeDirectory_ne_ok (h : t.list path = .ok es) : t.makeDirectory path ≠ .ok t' := by
  intro hmade
  obtain ⟨steps, name, d, hsteps, hlength, hwalk, hd, hnone, -⟩ := exists_of_create hmade
  obtain ⟨found, hfound, hes⟩ := list_eq_ok_iff.mp h
  obtain ⟨-, -, hfound⟩ := walk_eq_ok_iff.mp hfound
  have hjoined := walkSteps_append_entry path.endsWithSlash hd (.inl hnone) hwalk
  rw [← hsteps, hfound, if_neg (Nat.not_lt.mpr hlength)] at hjoined
  obtain rfl := Except.ok.inj hjoined
  rw [hnone] at hes
  cases hes

/-- A directory that there is lacks nothing above it, unless its path only goes up. -/
theorem not_isEntry_of_notFound (h : t.list path = .ok es)
    (hmissing : t.makeDirectory path = .error .notFound) :
    ∀ step ∈ path.steps, ¬ step.IsEntry := by
  obtain ⟨d, hwalk, hd⟩ := list_eq_ok_iff.mp h
  obtain ⟨hnul, hne, hwalk⟩ := walk_eq_ok_iff.mp hwalk
  cases hlast : path.steps.getLast? with
  | none =>
    rw [List.getLast?_eq_none_iff.mp hlast]
    simp
  | some last =>
    obtain ⟨steps, hsteps⟩ := List.getLast?_eq_some_iff.mp hlast
    rw [hsteps] at hwalk ⊢
    rcases walkSteps_dropLast false ⟨es, hd⟩ hwalk with ⟨d', hwalk', es', hes'⟩ | ⟨-, hup⟩
    · -- The step is refused for another reason, because the directory above it is found.
      have hempty : ¬ path.isEmpty = true := by simpa using hne
      have hreason : t.makeDirectory path ≠ .error .notFound := by
        rw [makeDirectory, create, walkToParent, if_neg hnul, if_neg hempty]
        dsimp only
        rw [hsteps, List.dropLast_concat, hwalk', Except.ok_bind, hes', List.getLast?_concat]
        cases last with
        | here => simp
        | up => simp
        | entry name =>
          dsimp only
          split
          · simp
          · rw [Except.ok_bind]
            dsimp only
            split <;> simp
      exact absurd hmissing hreason
    · exact hup

/-- Nothing is changed where no directory can be made. -/
theorem makeDirectoryIfMissing_snd (h : ∀ t', t.makeDirectory path ≠ .ok t') :
    (Host.lenient.makeDirectoryIfMissing t path).2 = t := by
  have hmade : Host.lenient.makeDirectory t path = t.makeDirectory path := rfl
  rw [Host.makeDirectoryIfMissing, hmade]
  split
  · rename_i made heq
    exact absurd heq (h made)
  · rfl

theorem makeDirectory_ne_ok_of_up (h : ∀ step ∈ path.steps, ¬ step.IsEntry) :
    t.makeDirectory path ≠ .ok t' := by
  intro hmade
  obtain ⟨steps, name, -, hsteps, -⟩ := exists_of_create hmade
  refine h (.entry name) ?_ trivial
  rw [hsteps]
  simp

/-- A path that only goes up makes nothing. -/
theorem makeDirectoriesWithin_of_up {above : Nat} (h : ∀ step ∈ path.steps, ¬ step.IsEntry) :
    (Host.lenient.makeDirectoriesWithin above t path).2 = t := by
  induction above generalizing path with
  | zero => exact makeDirectoryIfMissing_snd fun t' => makeDirectory_ne_ok_of_up h
  | succ above ih =>
    rw [Host.makeDirectoriesWithin]
    split
    · rfl
    · split
      · rename_i parent _ hparent
        have hsame := ih (Path.not_isEntry_of_parent? h hparent)
        split
        · rename_i t' hmade
          rw [hmade] at hsame
          obtain rfl : t' = t := hsame
          exact makeDirectoryIfMissing_snd fun t' => makeDirectory_ne_ok_of_up h
        · exact hsame
      · exact makeDirectoryIfMissing_snd fun t' => makeDirectory_ne_ok_of_up h

/-- To make a directory where there is one changes nothing. -/
theorem makeDirectories_of_list (h : t.list path = .ok es) : (t.makeDirectories path).2 = t := by
  rw [makeDirectories, Host.makeDirectories, Host.makeDirectoriesWithin]
  split
  · rfl
  · split
    · rename_i parent hmissing hparent
      have hup := not_isEntry_of_notFound h hmissing
      have hsame : (Host.lenient.makeDirectoriesWithin path.components.length t parent).2 = t :=
        makeDirectoriesWithin_of_up (Path.not_isEntry_of_parent? hup hparent)
      split
      · rename_i t' hmade
        rw [hmade] at hsame
        obtain rfl : t' = t := hsame
        exact makeDirectoryIfMissing_snd fun t' => makeDirectory_ne_ok h
      · exact hsame
    · exact makeDirectoryIfMissing_snd fun t' => makeDirectory_ne_ok h

end FileTree

end BearerAuth
