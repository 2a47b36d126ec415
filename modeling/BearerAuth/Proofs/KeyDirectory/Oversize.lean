import Mathlib
import BearerAuth.Proofs.KeyDirectory.Loading
import BearerAuth.Proofs.Utf8

/-!
# Key files that are too long

Of a key file no more is read than the greatest size and one byte.  What was read is taken for a
text before its size is looked at.  So a file that is too long is refused for its size only if the
bytes that were read are a text, and a long text only if no character of it stands across their end.
A file that is not too long is judged by its whole content.

Main statement: `KeyDirectory.ofDirectory_of_first_refused`.
-/

namespace BearerAuth

namespace KeyDirectory

variable {t : FileTree} {directory path : Path} {es : Entries} {place : Location} {kid : String}
  {content : Bytes} {e : KeyFailure}

/-- Of a long text the bytes that are read are a text where no character stands across their end. -/
theorem startsAsText_utf8_iff {text : String} (hlong : maxFileSize < (utf8 text).length) :
    StartsAsText (utf8 text) ↔
      ∃ front back, text = front ++ back ∧ (utf8 front).length = maxFileSize + 1 := by
  constructor
  · rintro ⟨front, hfront⟩
    obtain ⟨back, htext⟩ := utf8_isPrefix_iff.mp (hfront ▸ List.take_prefix _ _)
    refine ⟨front, back, htext, ?_⟩
    rw [← hfront, List.length_take]
    omega
  · rintro ⟨front, back, rfl, hlength⟩
    refine ⟨front, ?_⟩
    rw [Bytes.utf8_append, ← hlength, List.take_left]

/-! ### Reading -/

/-- No file is refused for its size, unless it is too long. -/
theorem pairAt_ne_tooLong {fs : FileSystem} {other : String}
    (hread : fs.read (pathBelow directory place) = .ok content)
    (hshort : content.length ≤ maxFileSize) :
    pairAt fs directory place kid ≠ .error (tooLong other) := by
  intro hpair
  have hverdict := verdict_pairAt fs directory place kid
  rw [hread, hpair, tooLong] at hverdict
  cases hverdict with
  | tooLong text long => exact absurd hshort (Nat.not_le.mpr long)

/-! ### Loading -/

/-- Loading a directory ends at its first key file that holds no pair. -/
theorem ofDirectory_of_first (honce : (Node.directory es).ListsOnce)
    (hlist : t.list directory = .ok es) (hfile : KeyFileAt es place kid)
    (herror : pairAt t directory place kid = .error e)
    (hfirst : ∀ p k, KeyFileAt es p k → p < place → ∃ pair, pairAt t directory p k = .ok pair) :
    (KeyStore.ofDirectory t directory).1 = .error e :=
  (outcome_of_tree honce hlist).unique (fun _ _ _ h h' => h.unique h')
    (.failed hfile herror hfirst)

/-- What is reported of the first key file that is refused.  It is refused for its size if and only
if it is too long and what is read of it is a text; a long text is read as one where no character
stands across the end of what is read.  Otherwise it is reported that the file is not a text, or, of
a text that is not too long, what the reader of keys finds in the whole of it. -/
theorem ofDirectory_of_first_refused (honce : t.root.ListsOnce) (hlist : t.list directory = .ok es)
    (hfile : KeyFileAt es place kid) (hread : t.read (pathBelow directory place) = .ok content)
    (hrefused : ∀ pair, pairAt t directory place kid ≠ .ok pair)
    (hfirst : ∀ p k, KeyFileAt es p k → p < place → ∃ pair, pairAt t directory p k = .ok pair) :
    ((KeyStore.ofDirectory t directory).1 = .error (tooLong kid) ↔
        maxFileSize < content.length ∧ StartsAsText content) ∧
      (¬ StartsAsText content → (KeyStore.ofDirectory t directory).1 =
        .error (.io (pathBelow directory place) .invalidData)) ∧
      (∀ text, content = utf8 text → maxFileSize < content.length →
        (StartsAsText content ↔
          ∃ front back, text = front ++ back ∧ (utf8 front).length = maxFileSize + 1)) ∧
      (content.length ≤ maxFileSize →
        (∀ other, (KeyStore.ofDirectory t directory).1 ≠ .error (tooLong other)) ∧
        ∀ text, content = utf8 text → ∃ e, KeyPair.fromPem kid text = .error e ∧
          (KeyStore.ofDirectory t directory).1 = .error e) := by
  obtain ⟨e, he⟩ : ∃ e, pairAt t directory place kid = .error e := by
    cases hpair : pairAt t directory place kid with
    | error e => exact ⟨e, rfl⟩
    | ok pair => exact absurd hpair (hrefused pair)
  rw [ofDirectory_of_first (listsOnce_of_list honce hlist) hlist hfile he hfirst]
  rw [← FileSystem.read_coe] at hread
  have hstarts : maxFileSize < content.length → StartsAsText content → e = tooLong kid := by
    intro hlong hstarts
    rw [pairAt_of_startsAsText hread hlong hstarts] at he
    exact (Except.error.inj he).symm
  have hnot : ¬ StartsAsText content → e = .io (pathBelow directory place) .invalidData := by
    intro hstarts
    rw [pairAt_of_not_startsAsText hread hstarts] at he
    exact (Except.error.inj he).symm
  have hshort : content.length ≤ maxFileSize → ∀ other, e ≠ tooLong other := by
    rintro hle other rfl
    exact pairAt_ne_tooLong hread hle he
  refine ⟨⟨?_, ?_⟩, ?_, ?_, ?_⟩
  · intro h
    obtain rfl := Except.error.inj h
    have hlong : maxFileSize < content.length := by
      by_contra hle
      exact hshort (Nat.not_lt.mp hle) kid rfl
    refine ⟨hlong, ?_⟩
    by_contra hstarts
    cases hnot hstarts
  · rintro ⟨hlong, hfront⟩
    rw [hstarts hlong hfront]
  · intro hfront
    rw [hnot hfront]
  · rintro text rfl hlong
    exact startsAsText_utf8_iff hlong
  · intro hle
    refine ⟨fun other h => hshort hle other (Except.error.inj h), ?_⟩
    rintro text rfl
    rw [pairAt_of_text hread hle] at he
    exact ⟨e, he, rfl⟩

/-! ### Long files of one character -/

/-- The entries of a directory with one key file. -/
def hugeEntries (content : Bytes) : Entries :=
  .cons (utf8 "huge.pem") (.file 0o644 content) .nil

/-- A tree with this file in a directory for keys. -/
def hugeTree (content : Bytes) : FileTree :=
  ⟨.directory (.cons (utf8 "keys") (.directory (hugeEntries content)) .nil), []⟩

theorem listsOnce_hugeTree (content : Bytes) : (hugeTree content).root.ListsOnce := by
  refine Node.listsOnce_directory (List.nodup_singleton _) ?_
  intro e he
  obtain rfl := List.mem_singleton.mp he
  refine Node.listsOnce_directory (List.nodup_singleton _) ?_
  intro e he
  obtain rfl := List.mem_singleton.mp he
  exact Node.listsOnce_of_notDirectory rfl

theorem list_hugeTree (content : Bytes) :
    (hugeTree content).list (Path.ofText "keys") = .ok (hugeEntries content) := by rfl

theorem read_hugeTree (content : Bytes) :
    (hugeTree content).read (pathBelow (Path.ofText "keys") [utf8 "huge.pem"]) = .ok content := by
  rfl

/-- There is no other key file in the tree. -/
theorem keyFileAt_hugeEntries_iff (content : Bytes) :
    KeyFileAt (hugeEntries content) place kid ↔ place = [utf8 "huge.pem"] ∧ kid = "huge" := by
  have honce := listsOnce_of_list (listsOnce_hugeTree content) (list_hugeTree content)
  have hplaces : keyFiles (hugeEntries content) = [[utf8 "huge.pem"]] := by rfl
  have hkid : kidOf? [utf8 "huge.pem"] = some "huge" := by decide +kernel
  rw [← keyFileAt_iff honce, hplaces, List.mem_singleton]
  refine and_congr_right ?_
  rintro rfl
  rw [hkid, Option.some.injEq, eq_comm]

/-- A text that repeats one character. -/
def repeated (n : Nat) (c : Char) : String :=
  String.ofList (List.replicate n c)

theorem length_utf8_repeated (n : Nat) (c : Char) :
    (utf8 (repeated n c)).length = n * (String.utf8EncodeChar c).length := by
  rw [repeated, utf8_ofList, List.length_flatMap, List.map_replicate, List.sum_replicate,
    smul_eq_mul]

/-- A long file that is a text is refused as if it were none, where a character stands across the
end of what is read of it. -/
theorem exists_long_text_not_tooLong :
    ∃ text, maxFileSize < (utf8 text).length ∧
      (hugeTree (utf8 text)).root.ListsOnce ∧
      (hugeTree (utf8 text)).list (Path.ofText "keys") = .ok (hugeEntries (utf8 text)) ∧
      KeyFileAt (hugeEntries (utf8 text)) [utf8 "huge.pem"] "huge" ∧
      (hugeTree (utf8 text)).read (pathBelow (Path.ofText "keys") [utf8 "huge.pem"]) =
        .ok (utf8 text) ∧
      (∀ p k, KeyFileAt (hugeEntries (utf8 text)) p k → ¬ p < [utf8 "huge.pem"]) ∧
      (KeyStore.ofDirectory (hugeTree (utf8 text)) (Path.ofText "keys")).1 =
        .error (.io (Path.ofText "keys/huge.pem") .invalidData) ∧
      (KeyStore.ofDirectory (hugeTree (utf8 text)) (Path.ofText "keys")).1 ≠
        .error (tooLong "huge") := by
  have hmax : maxFileSize = 1048576 := rfl
  have hwidth : (String.utf8EncodeChar 'é').length = 2 := by decide
  obtain ⟨text, htext⟩ : ∃ text, text = repeated (maxFileSize / 2 + 1) 'é' := ⟨_, rfl⟩
  have hlong : maxFileSize < (utf8 text).length := by
    rw [htext, length_utf8_repeated, hwidth]
    omega
  have hstarts : ¬ StartsAsText (utf8 text) := by
    rw [startsAsText_utf8_iff hlong]
    rintro ⟨front, back, happend, hlength⟩
    -- The front repeats the character, which has two bytes, so that its length is even.
    have hprefix : front.toList <+: List.replicate (maxFileSize / 2 + 1) 'é' := by
      refine ⟨back.toList, ?_⟩
      rw [← String.toList_append, ← happend, htext, repeated, String.toList_ofList]
    have hfront : front = repeated front.toList.length 'é' := by
      rw [repeated, ← (List.prefix_replicate_iff.mp hprefix).2, String.ofList_toList]
    rw [hfront, length_utf8_repeated, hwidth] at hlength
    omega
  have hfiles : ∀ p k, KeyFileAt (hugeEntries (utf8 text)) p k → ¬ p < [utf8 "huge.pem"] := by
    intro p k hfile
    rw [((keyFileAt_hugeEntries_iff _).mp hfile).1]
    exact List.lt_irrefl _
  have hfile := (keyFileAt_hugeEntries_iff (utf8 text)).mpr ⟨rfl, rfl⟩
  have herror : pairAt (hugeTree (utf8 text)) (Path.ofText "keys") [utf8 "huge.pem"] "huge" =
      .error (.io (Path.ofText "keys/huge.pem") .invalidData) := by
    have hread := (FileSystem.read_coe ..).trans (read_hugeTree (utf8 text))
    rw [pairAt_of_not_startsAsText hread hstarts]
    rfl
  have hresult := ofDirectory_of_first
    (listsOnce_of_list (listsOnce_hugeTree _) (list_hugeTree _)) (list_hugeTree _) hfile herror
    fun p k hp hlt => absurd hlt (hfiles p k hp)
  refine ⟨text, hlong, listsOnce_hugeTree _, list_hugeTree _, hfile, read_hugeTree _, hfiles,
    hresult, ?_⟩
  rw [hresult]
  intro h
  cases h

/-- A file of one byte too many is refused for its size, if it is a text. -/
theorem ofDirectory_of_first_refused_ascii :
    ∃ text, (utf8 text).length = maxFileSize + 1 ∧
      (hugeTree (utf8 text)).root.ListsOnce ∧
      (hugeTree (utf8 text)).list (Path.ofText "keys") = .ok (hugeEntries (utf8 text)) ∧
      KeyFileAt (hugeEntries (utf8 text)) [utf8 "huge.pem"] "huge" ∧
      (hugeTree (utf8 text)).read (pathBelow (Path.ofText "keys") [utf8 "huge.pem"]) =
        .ok (utf8 text) ∧
      (∀ pair, pairAt (hugeTree (utf8 text)) (Path.ofText "keys") [utf8 "huge.pem"] "huge" ≠
        .ok pair) ∧
      (∀ p k, KeyFileAt (hugeEntries (utf8 text)) p k → p < [utf8 "huge.pem"] →
        ∃ pair, pairAt (hugeTree (utf8 text)) (Path.ofText "keys") p k = .ok pair) ∧
      (KeyStore.ofDirectory (hugeTree (utf8 text)) (Path.ofText "keys")).1 =
        .error (.invalidKey "huge" "key file exceeds 1048576 bytes") := by
  have hwidth : (String.utf8EncodeChar 'A').length = 1 := by decide
  obtain ⟨text, htext⟩ : ∃ text, text = repeated (maxFileSize + 1) 'A' := ⟨_, rfl⟩
  have hlength : (utf8 text).length = maxFileSize + 1 := by
    rw [htext, length_utf8_repeated, hwidth, mul_one]
  have hlong : maxFileSize < (utf8 text).length := by omega
  have hrefused : ∀ pair, pairAt (hugeTree (utf8 text)) (Path.ofText "keys") [utf8 "huge.pem"]
      "huge" ≠ .ok pair := by
    intro pair hpair
    obtain ⟨found, hread, hle, -⟩ := pairAt_eq_ok_iff.mp hpair
    rw [FileSystem.read_coe, read_hugeTree] at hread
    rw [Except.ok.inj hread] at hlong
    omega
  have hfirst : ∀ p k, KeyFileAt (hugeEntries (utf8 text)) p k → p < [utf8 "huge.pem"] →
      ∃ pair, pairAt (hugeTree (utf8 text)) (Path.ofText "keys") p k = .ok pair := by
    intro p k hfile hlt
    rw [((keyFileAt_hugeEntries_iff _).mp hfile).1] at hlt
    exact absurd hlt (List.lt_irrefl _)
  have hfile := (keyFileAt_hugeEntries_iff (utf8 text)).mpr ⟨rfl, rfl⟩
  obtain ⟨hsize, -, hstarts, -⟩ := ofDirectory_of_first_refused (listsOnce_hugeTree _)
    (list_hugeTree _) hfile (read_hugeTree _) hrefused hfirst
  have hmessage : tooLong "huge" = .invalidKey "huge" "key file exceeds 1048576 bytes" := by
    decide +kernel
  refine ⟨text, hlength, listsOnce_hugeTree _, list_hugeTree _, hfile, read_hugeTree _, hrefused,
    hfirst, ?_⟩
  rw [← hmessage, hsize]
  refine ⟨hlong, (hstarts text rfl hlong).mpr ⟨text, "", ?_, hlength⟩⟩
  rw [String.append_empty]

end KeyDirectory

end BearerAuth
