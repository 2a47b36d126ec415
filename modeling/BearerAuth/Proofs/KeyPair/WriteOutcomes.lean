import Mathlib
import BearerAuth.Keygen
import BearerAuth.Proofs.KeyPair.Files

/-!
# What writing a pair leaves behind

The two files of a pair are written one after the other, and nothing is taken back.  If the
directory is refused, or the private file is before it is open, all files are as they were.  If
writing to the open private file breaks off, it holds a front of the private half, and its old
content is gone.  If the public file is refused or breaks off, the private file has been written
already.  In all cases no file changes to which none of the two paths leads.

The key generator looks at the size that it is asked for before it draws or writes anything.

Main statements: `KeyPair.writeOutcome_writeFiles` and `KeyPair.writeOutcome_and_small_refused`.
-/

namespace BearerAuth

namespace KeyPair

variable {host : Host} {p : KeyPair} {t : FileTree} {directory : Path}

/-! ### Outcomes -/

/-- Why nothing of a pair is written to a directory: the directory cannot be made, as far as it has
been made, or the pair has no text, or the private file is refused. -/
inductive PrivateRefusal (host : Host) (p : KeyPair) (t made : FileTree)
    (directory privatePath : Path) : KeyFailure → Prop
  | directory {cause : IoCause}
      (unmade : host.makeDirectories t directory = (.error cause, made)) :
      PrivateRefusal host p t made directory privatePath (.io directory cause)
  | text {e : KeyFailure} (unwritten : p.privatePem = .error e) :
      PrivateRefusal host p t made directory privatePath e
  | file {pem : String} {cause : IoCause} (text : p.privatePem = .ok pem)
      (refused : host.write made privatePath .ownerOnly (utf8 pem) = (.error cause, made)) :
      PrivateRefusal host p t made directory privatePath (.io privatePath cause)

/-- The mode of a private file that is written in a place: that of the file which was there, or else
what the host leaves of the one for its owner only. -/
def privateMode (host : Host) (t : FileTree) (place : Location) : FileMode :=
  FileTree.modeOver (t.at? place) (FileMode.ownerOnly.without host.withheld)

/-- What writing a pair to a directory of a tree answers, and what it leaves behind. -/
inductive WriteOutcome (host : Host) (p : KeyPair) (t : FileTree)
    (directory privatePath publicPath : Path) : Except KeyFailure (Path × Path) → FileTree → Prop
  /-- Both halves are written.  They are found under their paths, the private half if these lead to
  two places, and no other file has changed. -/
  | written {t' : FileTree} {pem : String} {place other : Location} (text : p.privatePem = .ok pem)
      (privateWalk : t'.walk privatePath = .ok ⟨place, false⟩)
      (publicWalk : t'.walk publicPath = .ok ⟨other, false⟩)
      (privateFile : place ≠ other →
        t'.resolve privatePath = .ok (.file (privateMode host t place) (utf8 pem)))
      (publicRead : t'.read publicPath = .ok (utf8 p.publicPem))
      (same : t.SameOutside [place, other] t') :
      WriteOutcome host p t directory privatePath publicPath (.ok (privatePath, publicPath)) t'
  /-- Nothing is written, and no file has changed. -/
  | refused {t' : FileTree} {e : KeyFailure}
      (reason : PrivateRefusal host p t t' directory privatePath e) (same : t.SameOutside [] t') :
      WriteOutcome host p t directory privatePath publicPath (.error e) t'
  /-- Writing the private half breaks off.  Its file holds a front of it, and no other file has
  changed. -/
  | privateBrokenOff {t' : FileTree} {pem : String} {front : Bytes} {place : Location}
      {cause : IoCause} (text : p.privatePem = .ok pem) (starts : front <+: utf8 pem)
      (short : front.length < (utf8 pem).length)
      (privateWalk : t'.walk privatePath = .ok ⟨place, false⟩)
      (privateFile : t'.resolve privatePath = .ok (.file (privateMode host t place) front))
      (same : t.SameOutside [place] t') :
      WriteOutcome host p t directory privatePath publicPath (.error (.io privatePath cause)) t'
  /-- The private half is written and the public file is refused.  No other file has changed. -/
  | half {t' : FileTree} {pem : String} {place : Location} {cause : IoCause}
      (text : p.privatePem = .ok pem) (privateWalk : t'.walk privatePath = .ok ⟨place, false⟩)
      (privateFile : t'.resolve privatePath = .ok (.file (privateMode host t place) (utf8 pem)))
      (refused : host.write t' publicPath .shared (utf8 p.publicPem) = (.error cause, t'))
      (same : t.SameOutside [place] t') :
      WriteOutcome host p t directory privatePath publicPath (.error (.io publicPath cause)) t'
  /-- The private half is written, and writing the public half breaks off.  The public file
  holds a front of it, the private file holds the private half if it is not the same, and no
  other file has changed. -/
  | publicBrokenOff {t' : FileTree} {pem : String} {front : Bytes} {place other : Location}
      {cause : IoCause} (text : p.privatePem = .ok pem) (starts : front <+: utf8 p.publicPem)
      (short : front.length < (utf8 p.publicPem).length)
      (privateWalk : t'.walk privatePath = .ok ⟨place, false⟩)
      (publicWalk : t'.walk publicPath = .ok ⟨other, false⟩)
      (privateFile : place ≠ other →
        t'.resolve privatePath = .ok (.file (privateMode host t place) (utf8 pem)))
      (publicRead : t'.read publicPath = .ok front) (same : t.SameOutside [place, other] t') :
      WriteOutcome host p t directory privatePath publicPath (.error (.io publicPath cause)) t'

/-! ### Steps -/

section Steps

variable {made written t' : FileTree} {privatePath publicPath : Path} {place : Location}
  {content : Bytes}

/-- The private file that is written once directories are made has its mode from what
stood in its place before. -/
theorem resolve_privateFile (hgrown : t.Grown made)
    (hplace : made.WrittenAt written privatePath place (FileMode.ownerOnly.without host.withheld)
      content) :
    written.resolve privatePath = .ok (.file (privateMode host t place) content) := by
  rw [hplace.resolve_eq, hgrown.at?_eq_of_isFree hplace.isFree, privateMode]

/-- Once the private half is written, what becomes of the public half decides the outcome. -/
theorem writeOutcome_of_private {pem : String} {result : Except IoCause Unit}
    (hpem : p.privatePem = .ok pem) (hgrown : t.Grown made)
    (hmade : made.HasDirectory made.workingDirectory)
    (hplace : made.WrittenAt written privatePath place (FileMode.ownerOnly.without host.withheld)
      (utf8 pem))
    (hpublic : host.write written publicPath .shared (utf8 p.publicPem) = (result, t')) :
    WriteOutcome host p t directory privatePath publicPath
      ((result.mapError (.io publicPath)).map fun _ => (privatePath, publicPath)) t' := by
  have hsame : t.SameOutside [place] written := hgrown.sameOutside.trans hplace.sameOutside
  have hwalk := hplace.walk_eq hplace.walk
  have hfile := resolve_privateFile hgrown hplace
  have hmiddle := hplace.hasDirectory_workingDirectory hmade
  have hkept : ∀ {other mode content}, written.WrittenAt t' publicPath other mode content →
      place ≠ other →
        t'.resolve privatePath = .ok (.file (privateMode host t place) (utf8 pem)) := by
    intro other mode content hother hne
    rw [hother.resolve_of_ne hne hwalk hplace.file, ← hplace.resolve_eq, hfile]
  have hstep := host.writeStep_write written publicPath .shared (utf8 p.publicPem)
  rw [hpublic] at hstep
  cases hstep with
  | done hwritten =>
    obtain ⟨other, hother⟩ := FileTree.exists_writtenAt hmiddle hwritten
    exact .written hpem (hother.walk_eq hwalk) (hother.walk_eq hother.walk) (hkept hother)
      (FileTree.read_eq_of_resolve hother.resolve_eq) (hsame.trans hother.sameOutside)
  | refused cause => exact .half hpem hwalk hfile hpublic hsame
  | brokenOff cause starts short hwritten =>
    obtain ⟨other, hother⟩ := FileTree.exists_writtenAt hmiddle hwritten
    exact .publicBrokenOff hpem starts short (hother.walk_eq hwalk) (hother.walk_eq hother.walk)
      (hkept hother) (FileTree.read_eq_of_resolve hother.resolve_eq)
      (hsame.trans hother.sameOutside)

end Steps

/-- Writing a pair has one of these outcomes, whatever the host refuses or breaks off. -/
theorem writeOutcome_writeFiles (hstart : t.HasDirectory t.workingDirectory) (host : Host)
    (p : KeyPair) (directory privateName publicName : Path) :
    WriteOutcome host p t directory (directory.join privateName) (directory.join publicName)
      ((p.writeFiles host.writer directory privateName publicName).run t).1
      ((p.writeFiles host.writer directory privateName publicName).run t).2 := by
  have hgrown := host.grown_makeDirectories t directory
  rw [run_writeFiles]
  rcases hmade : host.makeDirectories t directory with ⟨_ | _, made⟩
  · rw [hmade] at hgrown
    exact .refused (.directory hmade) hgrown.sameOutside
  · rw [hmade] at hgrown
    have hstart' := hgrown.hasDirectory_workingDirectory hstart
    dsimp only
    cases hpem : p.privatePem with
    | error e => exact .refused (.text hpem) hgrown.sameOutside
    | ok pem =>
      dsimp only
      have hstep := host.writeStep_write made (directory.join privateName) .ownerOnly (utf8 pem)
      rcases hprivate : host.write made (directory.join privateName) .ownerOnly (utf8 pem) with
        ⟨result, written⟩
      rw [hprivate] at hstep
      cases hstep with
      | done hwritten =>
        obtain ⟨place, hplace⟩ := FileTree.exists_writtenAt hstart' hwritten
        dsimp only
        rcases hpublic : host.write written (directory.join publicName) .shared
          (utf8 p.publicPem) with ⟨_ | _, t'⟩
        · exact writeOutcome_of_private hpem hgrown hstart' hplace hpublic
        · exact writeOutcome_of_private hpem hgrown hstart' hplace hpublic
      | refused cause => exact .refused (.file hpem hprivate) hgrown.sameOutside
      | brokenOff cause starts short hwritten =>
        obtain ⟨place, hplace⟩ := FileTree.exists_writtenAt hstart' hwritten
        exact .privateBrokenOff hpem starts short (hplace.walk_eq hplace.walk)
          (resolve_privateFile hgrown hplace) (hgrown.sameOutside.trans hplace.sameOutside)

end KeyPair

namespace Keygen

variable {m : Type → Type} [Monad m] [LawfulMonad m]

/-- A run that is asked for a pair that is too small only reports this: nothing is drawn or
written. -/
theorem run_of_sizeFault (w : FileWriter m) (draw : Nat → m (Except KeyFailure KeyPair))
    {o : Options} {e : KeyFailure} (h : KeyPair.sizeFault? o.bits = some e) :
    run w draw (.generate o) = pure (.reported (.failed e)) := by
  have hgenerate : (generate w draw o).run = pure (.error e) := by
    unfold generate
    rw [h]
    rfl
  unfold run
  dsimp only
  rw [hgenerate, pure_bind]

end Keygen

namespace KeyPair

variable {host : Host} {p : KeyPair} {t : FileTree} {directory : Path}

/-- How far writing a pair can go under any host.  It writes both halves, each to the place to which
its path leads; or it changes no file; or it breaks off in the private file; or it writes the
private half and is refused the public file, or breaks off in it.  No other file changes.  A run of
the key generator that is asked for a pair that is too small leaves the tree as it is. -/
theorem writeOutcome_and_small_refused (hstart : t.HasDirectory t.workingDirectory) (host : Host)
    (p : KeyPair) (directory privateName publicName : Path) :
    WriteOutcome host p t directory (directory.join privateName) (directory.join publicName)
        ((p.writeFiles host.writer directory privateName publicName).run t).1
        ((p.writeFiles host.writer directory privateName publicName).run t).2 ∧
      ∀ draw arguments o, Keygen.Command.ofArguments arguments = .generate o → o.bits < minBits →
        ∃ e, sizeFault? o.bits = some e ∧
          (Keygen.run host.writer draw (Keygen.Command.ofArguments arguments)).run t =
            (.reported (.failed e), t) := by
  refine ⟨writeOutcome_writeFiles hstart host p directory privateName publicName, ?_⟩
  intro draw arguments o hasks hbits
  refine ⟨_, if_pos hbits, ?_⟩
  rw [hasks, Keygen.run_of_sizeFault host.writer draw (if_pos hbits)]
  rfl

/-! ### Outcomes that are halfway -/

section Halfway

variable {t' : FileTree} {privatePath publicPath : Path} {cause : IoCause}

/-- Where a file has changed and the public one, which is reported, is not there, the private
half has been written. -/
theorem WriteOutcome.exists_half
    (h : WriteOutcome host p t directory privatePath publicPath (.error (.io publicPath cause)) t')
    (hnames : privatePath ≠ publicPath) (hchanged : ¬ t.SameOutside [] t')
    (hunread : ∀ content, t'.read publicPath ≠ .ok content) :
    ∃ pem place, p.privatePem = .ok pem ∧ t'.walk privatePath = .ok ⟨place, false⟩ ∧
      t'.resolve privatePath = .ok (.file (privateMode host t place) (utf8 pem)) ∧
      t.SameOutside [place] t' := by
  cases h with
  | refused reason same => exact absurd same hchanged
  | privateBrokenOff => exact absurd rfl hnames
  | half text privateWalk privateFile refused same =>
    exact ⟨_, _, text, privateWalk, privateFile, same⟩
  | publicBrokenOff text starts short privateWalk publicWalk privateFile publicRead same =>
    exact absurd publicRead (hunread _)

/-- Where a file has changed and the private one is reported, it holds a front of the private
half. -/
theorem WriteOutcome.exists_front
    (h : WriteOutcome host p t directory privatePath publicPath (.error (.io privatePath cause)) t')
    (hnames : privatePath ≠ publicPath) (hchanged : ¬ t.SameOutside [] t') :
    ∃ pem front place, p.privatePem = .ok pem ∧ front <+: utf8 pem ∧
      front.length < (utf8 pem).length ∧ t'.walk privatePath = .ok ⟨place, false⟩ ∧
      t'.resolve privatePath = .ok (.file (privateMode host t place) front) ∧
      t.SameOutside [place] t' := by
  cases h with
  | refused reason same => exact absurd same hchanged
  | privateBrokenOff text starts short privateWalk privateFile same =>
    exact ⟨_, _, _, text, starts, short, privateWalk, privateFile, same⟩
  | half => exact absurd rfl hnames
  | publicBrokenOff => exact absurd rfl hnames

end Halfway

/-- A tree with a directory in the place of the public file. -/
def blockedTree : FileTree :=
  ⟨.directory (.cons (utf8 "out") (.directory
    (.cons (utf8 "public.pem") (.directory .nil) .nil)) .nil), []⟩

theorem hasDirectory_blockedTree : blockedTree.HasDirectory blockedTree.workingDirectory :=
  ⟨_, rfl⟩

/-- Writing the first pair to the tree as a host lets one do it. -/
def writeBlocked (host : Host) : Except KeyFailure (Path × Path) × FileTree :=
  (Fixtures.primaryPair.writeFiles host.writer (utf8 "out") (utf8 "private.pem")
    (utf8 "public.pem")).run blockedTree

/-- The paths of the files of the first pair. -/
theorem join_out : Path.join (utf8 "out") (utf8 "private.pem") = utf8 "out/private.pem" ∧
    Path.join (utf8 "out") (utf8 "public.pem") = utf8 "out/public.pem" := by decide +kernel

/-- A host that has room for so many bytes in a file, and withholds everything from all but the
owner. -/
def fullHost (room : Nat) : Host where
  withheld := 0o077
  refusal? _ _ _ := none
  breakOff? _ _ content := if (content.drop room).isEmpty then none else some (room, .storageFull)
  breakOff?_lt h := by
    split at h
    · cases h
    · rename_i hrest
      cases h
      simpa using hrest

/-- The private file is there behind a call under the host. -/
def leavesPrivate (host : Host) : Bool :=
  ((writeBlocked host).2.at? [utf8 "out", utf8 "private.pem"]).any fun node => !node.isDirectory

/-- There was none, so that a file has changed. -/
theorem not_sameOutside_of_leavesPrivate (h : leavesPrivate host = true) :
    ¬ blockedTree.SameOutside [] (writeBlocked host).2 := by
  intro hsame
  rw [leavesPrivate] at h
  cases hat : (writeBlocked host).2.at? [utf8 "out", utf8 "private.pem"] with
  | none =>
    rw [hat] at h
    cases h
  | some node =>
    rw [hat] at h
    have hnode : node.isDirectory = false := by simpa using h
    have hbefore := (hsame.others List.not_mem_nil hnode).mp hat
    have hnone : blockedTree.at? [utf8 "out", utf8 "private.pem"] = none := by rfl
    rw [hnone] at hbefore
    cases hbefore

/-- Under a lenient host only the outcome halfway is left: the private half is in a new file for its
owner only, and nothing else has changed. -/
theorem exists_half_of_blocked
    (h : WriteOutcome .lenient Fixtures.primaryPair blockedTree (utf8 "out")
      (Path.join (utf8 "out") (utf8 "private.pem")) (Path.join (utf8 "out") (utf8 "public.pem"))
      (writeBlocked .lenient).1 (writeBlocked .lenient).2) :
    ∃ t' pem, writeBlocked .lenient = (.error (.io (utf8 "out/public.pem") .isADirectory), t') ∧
      Fixtures.primaryPair.privatePem = .ok pem ∧
      t'.resolve (utf8 "out/private.pem") = .ok (.file .ownerOnly (utf8 pem)) ∧
      blockedTree.SameOutside [[utf8 "out", utf8 "private.pem"]] t' := by
  have hresult : (writeBlocked .lenient).1 =
      .error (.io (utf8 "out/public.pem") .isADirectory) := by decide +kernel
  have hwalk : (writeBlocked .lenient).2.walk (utf8 "out/private.pem") =
      .ok ⟨[utf8 "out", utf8 "private.pem"], false⟩ := by decide +kernel
  have hread : (writeBlocked .lenient).2.read (utf8 "out/public.pem") = .error .isADirectory := by
    decide +kernel
  have hchanged : ¬ blockedTree.SameOutside [] (writeBlocked .lenient).2 :=
    not_sameOutside_of_leavesPrivate (by decide +kernel)
  rcases hwritten : writeBlocked .lenient with ⟨result, t'⟩
  rw [hwritten] at h hresult hwalk hread hchanged
  dsimp only at hresult hwalk hread hchanged
  rw [join_out.1, join_out.2, hresult] at h
  obtain ⟨pem, place, hpem, hwalk', hfile, hsame⟩ := h.exists_half (by decide +kernel) hchanged
    fun content hcontent => by rw [hread] at hcontent; cases hcontent
  obtain rfl : [utf8 "out", utf8 "private.pem"] = place :=
    congrArg FileTree.Destination.place (Except.ok.inj (hwalk.symm.trans hwalk'))
  exact ⟨t', pem, by rw [hresult], hpem, hfile, hsame⟩

/-- Under a host with little room the private half breaks off: a front of it is in a new file, and
nothing else has changed. -/
theorem exists_front_of_full
    (h : WriteOutcome (fullHost 10) Fixtures.primaryPair blockedTree (utf8 "out")
      (Path.join (utf8 "out") (utf8 "private.pem")) (Path.join (utf8 "out") (utf8 "public.pem"))
      (writeBlocked (fullHost 10)).1 (writeBlocked (fullHost 10)).2) :
    ∃ t' pem front, writeBlocked (fullHost 10) =
        (.error (.io (utf8 "out/private.pem") .storageFull), t') ∧
      Fixtures.primaryPair.privatePem = .ok pem ∧ front <+: utf8 pem ∧ front.length = 10 ∧
      t'.resolve (utf8 "out/private.pem") = .ok (.file .ownerOnly front) ∧
      blockedTree.SameOutside [[utf8 "out", utf8 "private.pem"]] t' := by
  have hresult : (writeBlocked (fullHost 10)).1 =
      .error (.io (utf8 "out/private.pem") .storageFull) := by decide +kernel
  have hwalk : (writeBlocked (fullHost 10)).2.walk (utf8 "out/private.pem") =
      .ok ⟨[utf8 "out", utf8 "private.pem"], false⟩ := by decide +kernel
  have hlength : ((writeBlocked (fullHost 10)).2.read (utf8 "out/private.pem")).map List.length =
      .ok 10 := by decide +kernel
  have hchanged : ¬ blockedTree.SameOutside [] (writeBlocked (fullHost 10)).2 :=
    not_sameOutside_of_leavesPrivate (by decide +kernel)
  rcases hwritten : writeBlocked (fullHost 10) with ⟨result, t'⟩
  rw [hwritten] at h hresult hwalk hlength hchanged
  dsimp only at hresult hwalk hlength hchanged
  rw [join_out.1, join_out.2, hresult] at h
  obtain ⟨pem, front, place, hpem, hstarts, -, hwalk', hfile, hsame⟩ :=
    h.exists_front (by decide +kernel) hchanged
  obtain rfl : [utf8 "out", utf8 "private.pem"] = place :=
    congrArg FileTree.Destination.place (Except.ok.inj (hwalk.symm.trans hwalk'))
  rw [FileTree.read_eq_of_resolve hfile] at hlength
  exact ⟨t', pem, front, by rw [hresult], hpem, hstarts, Except.ok.inj hlength, hfile, hsame⟩

/-- A pair may be written halfway: a call fails and leaves a new private file.  One that succeeds
need not leave both halves, if both files have one name. -/
theorem exists_half_written_pair :
    (∃ t' pem, writeFirst blockedTree =
        (.error (.io (utf8 "out/public.pem") .isADirectory), t') ∧
      blockedTree.read (utf8 "out/private.pem") = .error .notFound ∧
      t'.read (utf8 "out/private.pem") = .ok (utf8 pem)) ∧
    ∃ path t' pem, Fixtures.primaryPair.writeToTree blockedTree (utf8 "out") (utf8 "key.pem")
        (utf8 "key.pem") = (.ok (path, path), t') ∧
      Fixtures.primaryPair.privatePem = .ok pem ∧ t'.read path ≠ .ok (utf8 pem) := by
  constructor
  · obtain ⟨t', pem, hresult, -, hfile, -⟩ := exists_half_of_blocked
      (writeOutcome_writeFiles hasDirectory_blockedTree .lenient Fixtures.primaryPair
        (utf8 "out") (utf8 "private.pem") (utf8 "public.pem"))
    have hfirst : writeFirst blockedTree = writeBlocked .lenient := by
      rw [writeFirst, writeToTree_eq, writeBlocked]
    exact ⟨t', pem, hfirst.trans hresult, by decide +kernel, FileTree.read_eq_of_resolve hfile⟩
  · have houtcome := writeOutcome_writeFiles hasDirectory_blockedTree .lenient
      Fixtures.primaryPair (utf8 "out") (utf8 "key.pem") (utf8 "key.pem")
    have hresult : (Fixtures.primaryPair.writeToTree blockedTree (utf8 "out") (utf8 "key.pem")
        (utf8 "key.pem")).1 = .ok (Path.join (utf8 "out") (utf8 "key.pem"),
          Path.join (utf8 "out") (utf8 "key.pem")) := by decide +kernel
    obtain ⟨pem, hpem⟩ := Fixtures.exists_primaryPem
    rw [← writeToTree_eq] at houtcome
    rcases hwritten : Fixtures.primaryPair.writeToTree blockedTree (utf8 "out") (utf8 "key.pem")
      (utf8 "key.pem") with ⟨result, t'⟩
    rw [hwritten] at houtcome hresult
    dsimp only at hresult
    rw [hresult] at houtcome ⊢
    refine ⟨_, t', pem, rfl, hpem, ?_⟩
    intro hread
    cases houtcome with
    | written text privateWalk publicWalk privateFile publicRead same =>
      rw [publicRead] at hread
      exact privatePem_ne_publicPem hpem (Except.ok.inj hread).symm

/-- Under a lenient host the private half is written to a new file, which is the only one that has
changed.  Under a host with little room a front of it is.  A run that is asked for a pair of half
the size changes nothing. -/
theorem writeOutcome_and_small_refused_blocked :
    blockedTree.HasDirectory blockedTree.workingDirectory ∧
      (∃ t' pem, writeBlocked .lenient = (.error (.io (utf8 "out/public.pem") .isADirectory), t') ∧
        Fixtures.primaryPair.privatePem = .ok pem ∧
        t'.resolve (utf8 "out/private.pem") = .ok (.file .ownerOnly (utf8 pem)) ∧
        blockedTree.SameOutside [[utf8 "out", utf8 "private.pem"]] t') ∧
      (∃ t' pem front, writeBlocked (fullHost 10) =
          (.error (.io (utf8 "out/private.pem") .storageFull), t') ∧
        Fixtures.primaryPair.privatePem = .ok pem ∧ front <+: utf8 pem ∧ front.length = 10 ∧
        t'.resolve (utf8 "out/private.pem") = .ok (.file .ownerOnly front) ∧
        blockedTree.SameOutside [[utf8 "out", utf8 "private.pem"]] t') ∧
      Keygen.Command.ofArguments ["--bits", "1024"] = .generate ⟨1024, ".", none⟩ ∧
      1024 < minBits ∧
      Keygen.runOnTree blockedTree Fixtures.primaryPair
          (Keygen.Command.ofArguments ["--bits", "1024"]) =
        (.reported (.failed
          (.internal "RSA modulus of 1024 bits is too small (minimum 2048)")), blockedTree) := by
  obtain ⟨houtcome, hsmall⟩ := writeOutcome_and_small_refused hasDirectory_blockedTree .lenient
    Fixtures.primaryPair (utf8 "out") (utf8 "private.pem") (utf8 "public.pem")
  obtain ⟨houtcome', -⟩ := writeOutcome_and_small_refused hasDirectory_blockedTree (fullHost 10)
    Fixtures.primaryPair (utf8 "out") (utf8 "private.pem") (utf8 "public.pem")
  obtain ⟨e, he, hrun⟩ := hsmall (fun _ => pure (.ok Fixtures.primaryPair))
    ["--bits", "1024"] ⟨1024, ".", none⟩ (by decide +kernel) (by decide)
  have hmessage : sizeFault? 1024 =
      some (.internal "RSA modulus of 1024 bits is too small (minimum 2048)") := by
    decide +kernel
  obtain rfl := Option.some.inj (hmessage.symm.trans he)
  exact ⟨hasDirectory_blockedTree, exists_half_of_blocked houtcome, exists_front_of_full houtcome',
    by decide +kernel, by decide, hrun⟩

end KeyPair

end BearerAuth
