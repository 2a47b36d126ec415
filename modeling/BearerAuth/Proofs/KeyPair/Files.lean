import Mathlib
import BearerAuth.Fixtures
import BearerAuth.KeyPair.Files
import BearerAuth.Proofs.FileTree.Host
import BearerAuth.Proofs.KeyPair.Drawn

/-!
# Files that pairs are written to

A pair is written to two files, one after the other.  A private file that is new may be accessed by
its owner only.  One that was there keeps its mode, and a public path that leads to the private file
puts the public half into it.

Main statements: `KeyPair.of_writeToTree` and `KeyPair.privateFile_of_writeToTree`.
-/

namespace BearerAuth

/-! ### Steps on a tree -/

/-- Steps on a state go on behind the first one if it succeeds, and end with it if it fails. -/
theorem run_bind {ε σ α β : Type} (x : ExceptT ε (StateM σ) α) (f : α → ExceptT ε (StateM σ) β)
    (s : σ) :
    (x >>= f).run s =
      match x.run s with
      | (.ok a, middle) => (f a).run middle
      | (.error e, middle) => (.error e, middle) := by
  have hrun : (x >>= f).run s = ExceptT.bindCont f (x.run s).1 (x.run s).2 := rfl
  rw [hrun]
  rcases x.run s with ⟨_ | _, middle⟩ <;> rfl

/-- The mode grants nothing to anyone but the owner. -/
def FileMode.IsPrivate (mode : FileMode) : Prop :=
  mode &&& 0o077 = 0

instance (mode : FileMode) : Decidable (FileMode.IsPrivate mode) :=
  inferInstanceAs (Decidable (mode &&& 0o077 = 0))

namespace KeyPair

variable {t t' : FileTree} {p : KeyPair}

/-- A step on a path is taken on the tree. -/
theorem run_onPath (path : Path) (step : StateM FileTree (Except IoCause Unit)) (t : FileTree) :
    (onPath path step).run t = ((step t).1.mapError (.io path), (step t).2) := rfl

/-- To write a pair is to make the directory, to write the private file and then the public one, up
to the first of these steps that fails. -/
theorem run_writeFiles (h : Host) (p : KeyPair) (t : FileTree)
    (directory privateName publicName : Path) :
    (p.writeFiles h.writer directory privateName publicName).run t =
      match h.makeDirectories t directory with
      | (.error cause, made) => (.error (.io directory cause), made)
      | (.ok (), made) =>
        match p.privatePem with
        | .error e => (.error e, made)
        | .ok pem =>
          match h.write made (directory.join privateName) .ownerOnly (utf8 pem) with
          | (.error cause, t') => (.error (.io (directory.join privateName) cause), t')
          | (.ok (), written) =>
            match h.write written (directory.join publicName) .shared (utf8 p.publicPem) with
            | (.error cause, t') => (.error (.io (directory.join publicName) cause), t')
            | (.ok (), t') =>
                (.ok (directory.join privateName, directory.join publicName), t') := by
  have htext : ∀ made : FileTree, (ExceptT.mk (pure p.privatePem) :
      ExceptT KeyFailure (StateM FileTree) String).run made = (p.privatePem, made) := fun _ => rfl
  unfold writeFiles
  rw [run_bind, run_onPath, Host.writer]
  dsimp only
  rcases h.makeDirectories t directory with ⟨_ | _, made⟩
  · rfl
  · dsimp only [Except.mapError]
    rw [run_bind, htext]
    cases p.privatePem with
    | error e => rfl
    | ok pem =>
      dsimp only
      rw [run_bind, run_onPath]
      rcases h.write made (directory.join privateName) .ownerOnly (utf8 pem) with ⟨_ | _, written⟩
      · rfl
      · dsimp only [Except.mapError]
        rw [run_bind, run_onPath]
        rcases h.write written (directory.join publicName) .shared (utf8 p.publicPem)
          with ⟨_ | _, t'⟩
        · rfl
        · rfl

/-- To write a pair to a tree is to write it under a lenient host. -/
theorem writeToTree_eq (p : KeyPair) (t : FileTree) (directory privateName publicName : Path) :
    p.writeToTree t directory privateName publicName =
      (p.writeFiles Host.lenient.writer directory privateName publicName).run t := rfl

/-- Where writing a pair to a tree succeeds, the directory is made, the pair has a text, and
both files are written. -/
theorem of_writeToTree {directory privateName publicName : Path} {paths : Path × Path}
    (h : p.writeToTree t directory privateName publicName = (.ok paths, t')) :
    ∃ written pem, p.privatePem = .ok pem ∧
      (t.makeDirectories directory).2.write (directory.join privateName) .ownerOnly (utf8 pem) =
        .ok written ∧
      written.write (directory.join publicName) .readable (utf8 p.publicPem) = .ok t' ∧
      paths = (directory.join privateName, directory.join publicName) := by
  rw [writeToTree_eq, run_writeFiles] at h
  rw [FileTree.makeDirectories]
  split at h
  · cases h
  · rename_i made hmade
    rw [hmade]
    split at h
    · cases h
    · rename_i pem hpem
      split at h
      · cases h
      · rename_i written hwritten
        split at h
        · cases h
        · rename_i last hlast
          obtain ⟨hpaths, rfl⟩ := Prod.mk.inj h
          exact ⟨written, pem, hpem, Host.write_of_lenient hwritten, Host.write_of_lenient hlast,
            (Except.ok.inj hpaths).symm⟩

/-! ### The private file -/

/-- The texts of both halves are different, because they start with different labels. -/
theorem privatePem_ne_publicPem {pem : String} (h : p.privatePem = .ok pem) :
    utf8 pem ≠ utf8 p.publicPem := by
  obtain ⟨k, -, rfl⟩ := privatePem_eq_ok_iff.mp h
  obtain ⟨rest, hprivate⟩ := Pem.exists_utf8_encode_eq privateLabel (Der.encodePrivateKey k)
  obtain ⟨rest', hpublic⟩ :=
    Pem.exists_utf8_encode_eq publicLabel (Der.encodePublicKeyInfo p.publicKey)
  rw [publicPem, hprivate, hpublic]
  intro heq
  have hlabels := List.append_cancel_left heq
  have hprivate : utf8 privateLabel = ascii 'R' :: utf8 "SA PRIVATE KEY" := by decide +kernel
  have hpublic : utf8 publicLabel = ascii 'P' :: utf8 "UBLIC KEY" := by decide +kernel
  rw [hprivate, hpublic, List.cons_append, List.cons_append] at hlabels
  exact absurd (List.cons.inj hlabels).1 (by decide)

variable {privateName publicName privatePath publicPath directory : Path}

/-- Once a pair is written, the private path leads to a file.  It has the mode of the file that was
there, if there was one, and the public half as its content, if the public path leads to it too. -/
theorem resolve_of_writeToTree (hstart : t.HasDirectory t.workingDirectory)
    (h : p.writeToTree t directory privateName publicName = (.ok (privatePath, publicPath), t')) :
    ∃ pem place other, p.privatePem = .ok pem ∧ t'.walk privatePath = .ok ⟨place, false⟩ ∧
      t'.walk publicPath = .ok ⟨other, false⟩ ∧
      t'.resolve privatePath = .ok (.file (FileTree.modeOver (t.at? place) .ownerOnly)
        (if other = place then utf8 p.publicPem else utf8 pem)) := by
  obtain ⟨written, pem, hpem, hprivate, hpublic, hpaths⟩ := of_writeToTree h
  obtain ⟨rfl, rfl⟩ := Prod.mk.inj hpaths
  have hgrown : t.Grown (t.makeDirectories directory).2 :=
    Host.lenient.grown_makeDirectories t directory
  generalize (t.makeDirectories directory).2 = made at hgrown hprivate
  have hmade := hgrown.hasDirectory_workingDirectory hstart
  obtain ⟨place, hplace⟩ := FileTree.exists_writtenAt hmade hprivate
  obtain ⟨other, hother⟩ :=
    FileTree.exists_writtenAt (hplace.hasDirectory_workingDirectory hmade) hpublic
  -- What stood in the place before the directories were made stands there when it is written to.
  have hfile := hplace.file
  rw [hgrown.at?_eq_of_isFree hplace.isFree] at hfile
  have hwalk : t'.walk (directory.join privateName) = .ok ⟨place, false⟩ :=
    hother.walk_eq (hplace.walk_eq hplace.walk)
  refine ⟨pem, place, other, hpem, hwalk, hother.walk_eq hother.walk,
    FileTree.resolve_eq_of_file hwalk ?_⟩
  by_cases hsame : other = place
  · subst hsame
    rw [if_pos rfl, hother.file, hfile]
    rfl
  · rw [if_neg hsame, ← hfile]
    exact hother.others (.inr ⟨_, _, hfile⟩) (Ne.symm hsame)

/-- The mode of a file that is written for its owner is private unless the file was there
with a mode that is not. -/
theorem isPrivate_modeOver_iff {standing : Option Node} :
    FileMode.IsPrivate (FileTree.modeOver standing .ownerOnly) ↔
      ∀ mode content, standing = some (.file mode content) → FileMode.IsPrivate mode := by
  have hnew : FileMode.IsPrivate .ownerOnly := by decide
  cases standing with
  | none => simp [FileTree.modeOver, hnew]
  | some node =>
    cases node with
    | file mode content => simp [FileTree.modeOver]
    | link target => simp [FileTree.modeOver, hnew]
    | directory entries => simp [FileTree.modeOver, hnew]

/-- When a private key that was written is private.  Its file holds the private half and
grants nothing to anyone but the owner if and only if no file with another mode stood in its
place, and the public path does not lead to it.  Otherwise it has the mode that it had, or
holds the public half. -/
theorem privateFile_of_writeToTree (hstart : t.HasDirectory t.workingDirectory)
    (h : p.writeToTree t directory privateName publicName = (.ok (privatePath, publicPath), t')) :
    ∃ pem place other mode content, p.privatePem = .ok pem ∧
      t'.walk privatePath = .ok ⟨place, false⟩ ∧ t'.walk publicPath = .ok ⟨other, false⟩ ∧
      t'.resolve privatePath = .ok (.file mode content) ∧
      mode = FileTree.modeOver (t.at? place) .ownerOnly ∧
      content = (if other = place then utf8 p.publicPem else utf8 pem) ∧
      (FileMode.IsPrivate mode ∧ content = utf8 pem ↔
        (∀ before old, t.at? place = some (.file before old) → FileMode.IsPrivate before) ∧
          other ≠ place) := by
  obtain ⟨pem, place, other, hpem, hwalk, hwalk', hresolve⟩ := resolve_of_writeToTree hstart h
  refine ⟨pem, place, other, _, _, hpem, hwalk, hwalk', hresolve, rfl, rfl,
    and_congr isPrivate_modeOver_iff ?_⟩
  by_cases hsame : other = place
  · simp [hsame, (privatePem_ne_publicPem hpem).symm]
  · simp [hsame]

/-- The first pair is written to a directory of a tree. -/
def writeFirst (t : FileTree) : Except KeyFailure (Path × Path) × FileTree :=
  Fixtures.primaryPair.writeToTree t (utf8 "out") (utf8 "private.pem") (utf8 "public.pem")

/-- A tree with a file that everyone may read in the place of the private file. -/
def readableTree : FileTree :=
  ⟨.directory (.cons (utf8 "out") (.directory
    (.cons (utf8 "private.pem") (.file .readable (utf8 "old")) .nil)) .nil), []⟩

/-- A private key that is written over a file that everyone may read can be read by everyone. -/
theorem exists_readable_privateFile :
    ∃ privatePath publicPath t' content,
      writeFirst readableTree = (.ok (privatePath, publicPath), t') ∧
      t'.resolve privatePath = .ok (.file .readable content) ∧
      ¬ FileMode.IsPrivate .readable := by
  have hstart : readableTree.HasDirectory readableTree.workingDirectory := ⟨_, rfl⟩
  have hresult : (writeFirst readableTree).1 =
      .ok (utf8 "out/private.pem", utf8 "out/public.pem") := by decide +kernel
  have hplace : (writeFirst readableTree).2.walk (utf8 "out/private.pem") =
      .ok ⟨[utf8 "out", utf8 "private.pem"], false⟩ := by decide +kernel
  rcases hwritten : writeFirst readableTree with ⟨result, t'⟩
  rw [hwritten] at hresult hplace
  obtain rfl : result = .ok (utf8 "out/private.pem", utf8 "out/public.pem") := hresult
  obtain ⟨pem, place, other, -, hwalk, -, hresolve⟩ := resolve_of_writeToTree hstart hwritten
  obtain rfl : [utf8 "out", utf8 "private.pem"] = place :=
    congrArg FileTree.Destination.place (Except.ok.inj (hplace.symm.trans hwalk))
  exact ⟨_, _, _, _, rfl, hresolve, by decide⟩

/-- A tree with a link in the place of the public file that leads to the private file. -/
def linkedTree : FileTree :=
  ⟨.directory (.cons (utf8 "out") (.directory
    (.cons (utf8 "public.pem") (.link (utf8 "private.pem")) .nil)) .nil), []⟩

/-- Where the public path leads to the private file, the private half is not kept. -/
theorem privateFile_of_writeToTree_linked :
    ∃ privatePath publicPath t' pem mode content,
      linkedTree.HasDirectory linkedTree.workingDirectory ∧
      writeFirst linkedTree = (.ok (privatePath, publicPath), t') ∧
      Fixtures.primaryPair.privatePem = .ok pem ∧
      t'.resolve privatePath = .ok (.file mode content) ∧
      content = utf8 Fixtures.primaryPair.publicPem ∧
      ¬ (FileMode.IsPrivate mode ∧ content = utf8 pem) := by
  have hstart : linkedTree.HasDirectory linkedTree.workingDirectory := ⟨_, rfl⟩
  have hresult : (writeFirst linkedTree).1 =
      .ok (utf8 "out/private.pem", utf8 "out/public.pem") := by decide +kernel
  have hprivate : (writeFirst linkedTree).2.walk (utf8 "out/private.pem") =
      .ok ⟨[utf8 "out", utf8 "private.pem"], false⟩ := by decide +kernel
  have hpublic : (writeFirst linkedTree).2.walk (utf8 "out/public.pem") =
      .ok ⟨[utf8 "out", utf8 "private.pem"], false⟩ := by decide +kernel
  rcases hwritten : writeFirst linkedTree with ⟨result, t'⟩
  rw [hwritten] at hresult hprivate hpublic
  obtain rfl : result = .ok (utf8 "out/private.pem", utf8 "out/public.pem") := hresult
  obtain ⟨pem, place, other, mode, content, hpem, hwalk, hwalk', hresolve, -, hcontent, hiff⟩ :=
    privateFile_of_writeToTree hstart hwritten
  have hsame : other = place := congrArg FileTree.Destination.place
    (Except.ok.inj ((hwalk'.symm.trans hpublic).trans (hprivate.symm.trans hwalk)))
  rw [if_pos hsame] at hcontent
  exact ⟨_, _, _, pem, mode, content, hstart, rfl, hpem, hresolve, hcontent,
    fun h => (hiff.mp h).2 hsame⟩

end KeyPair

end BearerAuth
