import Mathlib
import BearerAuth.FileTree.Host
import BearerAuth.Proofs.FileTree.Changes

/-!
# What hosts do to trees

When a file is written under a path, the tree is left as it was, or the file stands there with the
whole content, or with a front of it if the writing broke off.  When directories are made, some of
them may be there though others are refused, and nothing else happens.

Main statements: `Host.writeStep_write` and `Host.grown_makeDirectories`.
-/

namespace BearerAuth

namespace Host

/-! ### Files -/

/-- What is answered to the writing of a file, and the tree that is left. -/
inductive WriteStep (t : FileTree) (path : Path) (mode : FileMode) (content : Bytes) :
    Except IoCause Unit → FileTree → Prop
  | done {t' : FileTree} (written : t.write path mode content = .ok t') :
      WriteStep t path mode content (.ok ()) t'
  | refused (cause : IoCause) : WriteStep t path mode content (.error cause) t
  /-- The file was opened, and a front of the content was written to it. -/
  | brokenOff {t' : FileTree} {front : Bytes} (cause : IoCause) (starts : front <+: content)
      (short : front.length < content.length) (written : t.write path mode front = .ok t') :
      WriteStep t path mode content (.error cause) t'

/-- Writing is such a step, in which a new file gets what is not withheld from it. -/
theorem writeStep_write (h : Host) (t : FileTree) (path : Path) (mode : FileMode)
    (content : Bytes) :
    WriteStep t path (mode.without h.withheld) content (h.write t path mode content).1
      (h.write t path mode content).2 := by
  rw [write]
  cases h.refusal? t .write path with
  | some cause => exact .refused cause
  | none =>
    cases hbreak : h.breakOff? t path content with
    | none =>
      dsimp only
      cases hwrite : t.write path (mode.without h.withheld) content with
      | error cause => exact .refused cause
      | ok t' => exact .done hwrite
    | some broken =>
      obtain ⟨n, cause⟩ := broken
      have hshort : (content.take n).length < content.length := by
        have hn := h.breakOff?_lt hbreak
        rw [List.length_take]
        omega
      dsimp only
      cases hwrite : t.write path (mode.without h.withheld) (content.take n) with
      | error other => exact .refused other
      | ok t' => exact .brokenOff cause (List.take_prefix n content) hshort hwrite

/-- Where nothing is refused, what was written was written in full. -/
theorem write_of_lenient {t t' : FileTree} {path : Path} {mode : FileMode} {content : Bytes}
    (h : lenient.write t path mode content = (.ok (), t')) :
    t.write path (mode.without lenient.withheld) content = .ok t' := by
  have hstep := writeStep_write lenient t path mode content
  rw [h] at hstep
  cases hstep with
  | done written => exact written

/-! ### Directories -/

variable (h : Host)

theorem grown_makeDirectoryIfMissing (t : FileTree) (path : Path) :
    t.Grown (h.makeDirectoryIfMissing t path).2 := by
  rw [makeDirectoryIfMissing, makeDirectory]
  cases h.refusal? t .makeDirectory path with
  | some cause => exact FileTree.Grown.refl t
  | none =>
    dsimp only
    split
    · rename_i made hmade
      exact FileTree.grown_makeDirectory hmade
    · exact FileTree.Grown.refl t

theorem grown_makeDirectoriesWithin (above : Nat) (t : FileTree) (path : Path) :
    t.Grown (h.makeDirectoriesWithin above t path).2 := by
  induction above generalizing t path with
  | zero => exact grown_makeDirectoryIfMissing h t path
  | succ above ih =>
    rw [makeDirectoriesWithin]
    split
    · exact FileTree.Grown.refl t
    · split
      · rename_i parent _ hparent
        have hgrown := ih t parent
        split
        · rename_i made hmade
          rw [hmade] at hgrown
          exact hgrown.trans (grown_makeDirectoryIfMissing h made path)
        · exact hgrown
      · exact grown_makeDirectoryIfMissing h t path

/-- Making a directory with the ones above it makes directories where nothing stood, whatever
is refused on the way. -/
theorem grown_makeDirectories (t : FileTree) (path : Path) : t.Grown (h.makeDirectories t path).2 :=
  grown_makeDirectoriesWithin h _ t path

end Host

end BearerAuth
