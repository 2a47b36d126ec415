import Mathlib
import BearerAuth.Proofs.Pem

/-!
# Written blocks under the strict reading

The strict reading wants lines of one length, no line end too many, and one label at both ends.  All
of this is as the writer has it, so a block that was written is read back.

Main statement: `Block.decode?_encode`.
-/

namespace BearerAuth.Pem

/-! ### Marks and line ends -/

theorem after?_append (xs rest : Bytes) : after? xs (xs ++ rest) = some rest := by
  induction xs with
  | nil => rfl
  | cons x xs ih => rw [List.cons_append, after?, if_pos rfl, ih]

theorem eq_append_of_after? {xs input rest : Bytes} (h : after? xs input = some rest) :
    input = xs ++ rest := by
  induction xs generalizing input with
  | nil =>
    obtain rfl := Option.some.inj h
    rfl
  | cons x xs ih =>
    cases input with
    | nil => cases h
    | cons y input =>
      rw [after?] at h
      split at h
      · rename_i heq
        rw [heq, ih h, List.cons_append]
      · cases h

theorem before?_append (ending front : Bytes) : before? ending (front ++ ending) = some front := by
  rw [before?, List.reverse_append, after?_append, Option.map_some, List.reverse_reverse]

theorem eq_append_of_before? {ending input front : Bytes} (h : before? ending input = some front) :
    input = front ++ ending := by
  obtain ⟨rest, hrest, rfl⟩ := Option.map_eq_some_iff.mp h
  rw [← List.reverse_reverse input, eq_append_of_after? hrest, List.reverse_append,
    List.reverse_reverse]

theorem dropLineEnd?_lineFeed (rest : Bytes) : dropLineEnd? (lineFeed :: rest) = some rest := by
  rw [dropLineEnd?, if_pos rfl]

/-- A line feed is dropped from the end, if there is no carriage return in front of it. -/
theorem dropFinalLineEnd?_append {front : Bytes} (h : carriageReturn ∉ front) :
    dropFinalLineEnd? (front ++ [lineFeed]) = some front := by
  have hhead : front.reverse.head? ≠ some carriageReturn := by
    intro hhead
    exact h (List.mem_reverse.mp (List.mem_of_mem_head? hhead))
  rw [dropFinalLineEnd?, List.reverse_append, List.reverse_singleton, List.singleton_append]
  simp only [if_neg hhead, if_true, List.reverse_reverse]

/-! ### Lines -/

theorem joined_cons (row : List Char) (rows : List (List Char)) :
    joined (row :: rows) = row ++ '\n' :: joined rows := by
  simp [joined]

/-- Lines that are not none end with a line feed. -/
theorem exists_joined_eq {rows : List (List Char)} (h : rows ≠ []) :
    ∃ body, joined rows = body ++ ['\n'] := by
  induction rows with
  | nil => exact absurd rfl h
  | cons row rows ih =>
    rw [joined_cons]
    cases rows with
    | nil => exact ⟨row, rfl⟩
    | cons next rows =>
      obtain ⟨body, hbody⟩ := ih (List.cons_ne_nil _ _)
      exact ⟨row ++ '\n' :: body, by rw [hbody, List.append_assoc, List.cons_append]⟩

/-- Every line that is not empty has two characters at least, with its line feed. -/
theorem two_mul_length_le_joined {rows : List (List Char)} (h : ∀ row ∈ rows, row ≠ []) :
    2 * rows.length ≤ (joined rows).length := by
  induction rows with
  | nil => exact Nat.zero_le _
  | cons row rows ih =>
    have hrow : 0 < row.length := List.length_pos_iff.mpr (h row List.mem_cons_self)
    have hrows := ih fun r hr => h r (List.mem_cons_of_mem row hr)
    rw [joined_cons, List.length_append, List.length_cons, List.length_cons]
    omega

/-- Lines of which all but the last are full are joined, if there is no line feed behind the
last. -/
theorem joinLines_of_filled {rows : List (List Char)} {body : List Char} {fuel : Nat}
    (hfilled : Filled rows) (hbody : joined rows = body ++ ['\n']) (hfuel : rows.length ≤ fuel) :
    joinLines fuel (body.map ascii) = some (rows.flatten.map ascii) := by
  induction rows generalizing body fuel with
  | nil => simp [joined] at hbody
  | cons row rows ih =>
    obtain ⟨fuel, rfl⟩ : ∃ left, fuel = left + 1 := by
      rw [List.length_cons] at hfuel
      exact ⟨fuel - 1, by omega⟩
    rw [joined_cons] at hbody
    cases rows with
    | nil =>
      obtain rfl : row = body := (List.append_inj_left' hbody rfl)
      have hdone : (row.map ascii).drop lineLength = [] :=
        List.drop_eq_nil_of_le (by rw [List.length_map]; exact hfilled)
      rw [joinLines, hdone, List.flatten_cons, List.flatten_nil, List.append_nil]
    | cons next rows =>
      obtain ⟨rest, hrest⟩ := exists_joined_eq (List.cons_ne_nil next rows)
      obtain rfl : row ++ '\n' :: rest = body := by
        rw [hrest, ← List.cons_append, ← List.append_assoc] at hbody
        exact List.append_inj_left' hbody rfl
      have hlength : (row.map ascii).length = lineLength := by
        rw [List.length_map]
        exact hfilled.1
      have hsplit : (row ++ '\n' :: rest).map ascii =
          row.map ascii ++ lineFeed :: rest.map ascii := by
        rw [List.map_append, List.map_cons]
        rfl
      have hlines := ih hfilled.2 hrest (Nat.le_of_succ_le_succ hfuel)
      rw [joinLines, hsplit, List.drop_left' hlength, List.take_left' hlength]
      simp only [dropLineEnd?_lineFeed, Option.bind_eq_bind, Option.bind_some, hlines,
        List.flatten_cons, List.map_append]
      rfl

/-- Neither kind of line end but the line feed stands in lines of data. -/
theorem carriageReturn_notMem {rows : List (List Char)}
    (hdata : ∀ row ∈ rows, ∀ c ∈ row, isDataChar c = true) :
    carriageReturn ∉ (joined rows).map ascii := by
  intro hmem
  obtain ⟨c, hc, heq⟩ := List.mem_map.mp hmem
  obtain ⟨row, hrow, hc⟩ := List.mem_flatMap.mp hc
  rcases List.mem_append.mp hc with hc | hc
  · exact ascii_ne_of_isDataChar (d := '\r') (hdata row hrow c hc) (by decide) (by decide) heq
  · rw [List.mem_singleton.mp hc] at heq
    cases heq

/-- The characters of ASCII bytes. -/
theorem map_ofNat_map_ascii {cs : List Char} (h : ∀ c ∈ cs, c.toNat < 128) :
    (cs.map ascii).map (fun b => Char.ofNat b.toNat) = cs := by
  rw [List.map_map]
  conv => rhs; rw [← List.map_id cs]
  refine List.map_congr_left fun c hc => ?_
  rw [Function.comp_apply, toNat_ascii (h c hc), Char.ofNat_toNat, id_eq]

/-- The characters in lines of data are those of their bytes. -/
theorem map_ofNat_rows {rows : List (List Char)}
    (hdata : ∀ row ∈ rows, ∀ c ∈ row, isDataChar c = true) :
    (rows.flatten.map ascii).map (fun b => Char.ofNat b.toNat) = rows.flatten := by
  refine map_ofNat_map_ascii fun c hc => ?_
  obtain ⟨row, hrow, hc⟩ := List.mem_flatten.mp hc
  exact (isDataChar_iff.mp (hdata row hrow c hc)).1

/-- Something takes at least one line. -/
theorem rows_ne_nil {rows : List (List Char)} {content : Bytes} (hne : content ≠ [])
    (hflatten : rows.flatten = Base64.Alphabet.standard.encodePadded content) : rows ≠ [] := by
  rintro rfl
  have hlength := congrArg List.length hflatten
  rw [Base64.Alphabet.encodePadded, List.length_append, Base64.Alphabet.length_encode] at hlength
  have hpos : 0 < content.length := List.length_pos_iff.mpr hne
  simp only [List.flatten_nil, List.length_nil] at hlength
  omega

/-! ### Blocks -/

section Block

variable {label : String} {rows : List (List Char)}

/-- A label reaches up to the hyphens behind it. -/
theorem takeWhile_label (hlabel : ∀ b ∈ utf8 label, isLabelByte b = true) (rest : Bytes) :
    (utf8 label ++ (utf8 closingMark ++ rest)).takeWhile isLabelByte = utf8 label := by
  rw [List.takeWhile_append_of_pos hlabel]
  exact List.append_nil _

/-- What stands behind the first line ends with one line feed. -/
theorem dropFinalLineEnd?_closed (hlabel : ∀ b ∈ utf8 label, isLabelByte b = true)
    (hdata : ∀ row ∈ rows, ∀ c ∈ row, isDataChar c = true) :
    dropFinalLineEnd? ((joined rows).map ascii ++ (utf8 endMark ++ (utf8 label ++
        (utf8 closingMark ++ [lineFeed])))) =
      some ((joined rows).map ascii ++ (utf8 endMark ++ utf8 label ++ utf8 closingMark)) := by
  have hnoReturn : carriageReturn ∉ (joined rows).map ascii ++ (utf8 endMark ++ utf8 label ++
      utf8 closingMark) := by
    simp only [List.mem_append, not_or]
    refine ⟨carriageReturn_notMem hdata, ⟨by decide, ?_⟩, by decide⟩
    intro hmem
    have hbyte := hlabel _ hmem
    cases hbyte
  rw [← dropFinalLineEnd?_append hnoReturn]
  simp only [List.append_assoc]

/-- A block that was written is read back. -/
theorem Block.decode?_encode (hlabel : ∀ b ∈ utf8 label, isLabelByte b = true) {content : Bytes}
    (hne : content ≠ []) :
    Block.decode? (utf8 (Block.encode ⟨label, content⟩)) = some ⟨label, content⟩ := by
  obtain ⟨rows, hwrap, hflatten, hrows, hdata, hfilled⟩ := exists_rows content
  have hsome := rows_ne_nil hne hflatten
  obtain ⟨body, hbody⟩ := exists_joined_eq hsome
  have hfeed : (joined rows).map ascii = body.map ascii ++ [lineFeed] := by
    rw [hbody, List.map_append]
    rfl
  have hreturn := carriageReturn_notMem hdata
  rw [hfeed, List.mem_append, not_or] at hreturn
  -- No line is empty, so the body has enough bytes to count the lines by.
  have hlength : 2 * rows.length ≤ body.length + 1 := by
    rw [← List.length_singleton, ← List.length_append, ← hbody]
    exact two_mul_length_le_joined hrows
  have hpos : 0 < rows.length := List.length_pos_iff.mpr hsome
  have hbodyNe : (body.map ascii).isEmpty = false := by
    rw [List.isEmpty_eq_false_iff, ← List.length_pos_iff, List.length_map]
    omega
  have hfuel : rows.length ≤ (body.map ascii).length := by
    rw [List.length_map]
    omega
  have hchars := map_ofNat_rows hdata
  rw [hflatten] at hchars
  rw [Block.decode?, utf8_encode label hwrap hdata]
  simp only [List.isPrefixOf_iff_prefix.mpr (List.prefix_append _ _), if_true, Option.bind_eq_bind,
    Option.bind_some, after?_append, takeWhile_label hlabel, List.drop_left, dropLineEnd?_lineFeed,
    dropFinalLineEnd?_closed hlabel hdata, Option.getD_some, before?_append]
  rw [hfeed, dropFinalLineEnd?_append hreturn.1]
  simp only [Option.bind_some, hbodyNe, joinLines_of_filled hfilled hbody hfuel, hflatten, hchars,
    Base64.Alphabet.decodePadded_encodePadded Base64.Alphabet.standard_lawful rfl,
    Bytes.text?_utf8]
  rfl

end Block

/-! ### Lengths -/

/-- Line ends take no more space than the lines. -/
theorem length_joined_le {rows : List (List Char)} (h : ∀ row ∈ rows, row ≠ []) :
    (joined rows).length ≤ 2 * rows.flatten.length := by
  induction rows with
  | nil => exact Nat.zero_le _
  | cons row rows ih =>
    have hrow : 0 < row.length := List.length_pos_iff.mpr (h row List.mem_cons_self)
    have hrest := ih fun r hr => h r (List.mem_cons_of_mem row hr)
    rw [joined_cons, List.length_append, List.length_cons, List.flatten_cons, List.length_append]
    omega

/-- The text of a block is less than twice as long as base64 has to be, apart from its first and its
last line. -/
theorem length_utf8_encode_le (label : String) (content : Bytes) :
    (utf8 (Block.encode ⟨label, content⟩)).length ≤
      2 * (utf8 label).length + 3 * content.length + 40 := by
  obtain ⟨rows, hwrap, hflatten, hrows, hdata, -⟩ := exists_rows content
  have hchars : rows.flatten.length ≤ (4 * content.length + 2) / 3 + 2 := by
    rw [hflatten, Base64.Alphabet.encodePadded, List.length_append, Base64.Alphabet.length_encode,
      List.length_replicate]
    omega
  have hbody := length_joined_le hrows
  have hmarks : (utf8 beginMark).length = 11 ∧ (utf8 closingMark).length = 5 ∧
      (utf8 endMark).length = 9 := by decide
  rw [utf8_encode label hwrap hdata]
  simp only [List.length_append, List.length_cons, List.length_map, List.length_nil]
  omega

theorem suffix_of_skipPreamble {input rest : Bytes} (h : skipPreamble input = some rest) :
    rest <:+ input := by
  induction input with
  | nil => cases h
  | cons x input ih =>
    rw [skipPreamble] at h
    split at h
    · cases h
    · split at h
      · obtain rfl := Option.some.inj h
        exact List.suffix_cons x _
      · exact (ih h).trans (List.suffix_cons x input)

theorem suffix_of_dropLineEnd? {input rest : Bytes} (h : dropLineEnd? input = some rest) :
    rest <:+ input := by
  cases input with
  | nil => cases h
  | cons x input =>
    rw [dropLineEnd?] at h
    split at h
    · obtain rfl := Option.some.inj h
      exact List.suffix_cons x _
    · split at h
      · split at h
        · obtain rfl := Option.some.inj h
          exact (List.tail_suffix input).trans (List.suffix_cons x input)
        · obtain rfl := Option.some.inj h
          exact List.suffix_cons x _
      · cases h

theorem length_le_of_dropFinalLineEnd? {input front : Bytes}
    (h : dropFinalLineEnd? input = some front) : front.length ≤ input.length := by
  have hreverse : input.reverse.length = input.length := List.length_reverse
  rw [← hreverse]
  unfold dropFinalLineEnd? at h
  generalize input.reverse = reversed at h
  cases reversed with
  | nil => cases h
  | cons x rest =>
    dsimp only at h
    split at h
    · obtain rfl := Option.some.inj h
      split
      · rw [List.length_reverse, List.length_cons]
        exact le_trans rest.tail_sublist.length_le (Nat.le_succ _)
      · simp
    · split at h
      · obtain rfl := Option.some.inj h
        simp
      · cases h

theorem length_le_of_joinLines {fuel : Nat} {input text : Bytes}
    (h : joinLines fuel input = some text) : text.length ≤ input.length := by
  induction fuel generalizing input text with
  | zero =>
    rw [joinLines] at h
    split at h
    · obtain rfl := Option.some.inj h
      exact Nat.zero_le _
    · cases h
  | succ fuel ih =>
    rw [joinLines] at h
    split at h
    · obtain rfl := Option.some.inj h
      exact le_rfl
    · obtain ⟨next, hnext, h⟩ := Option.bind_eq_some_iff.mp h
      obtain ⟨joined, hjoined, h⟩ := Option.bind_eq_some_iff.mp h
      obtain rfl := Option.some.inj h
      have hdrop := (suffix_of_dropLineEnd? hnext).length_le
      have hrest := ih hjoined
      rw [List.length_drop] at hdrop
      rw [List.length_append, List.length_take]
      omega

/-- A block that is read has no more bytes than its text. -/
theorem Block.length_content_le {input : Bytes} {b : Block} (h : Block.decode? input = some b) :
    b.content.length ≤ input.length := by
  unfold Block.decode? at h
  dsimp only [Option.bind_eq_bind] at h
  rw [← apply_ite (Option.bind · _)] at h
  obtain ⟨start, hstart, h⟩ := Option.bind_eq_some_iff.mp h
  obtain ⟨labelled, hlabelled, h⟩ := Option.bind_eq_some_iff.mp h
  obtain ⟨opened, hopened, h⟩ := Option.bind_eq_some_iff.mp h
  obtain ⟨body, hbody, h⟩ := Option.bind_eq_some_iff.mp h
  obtain ⟨closed, hclosed, h⟩ := Option.bind_eq_some_iff.mp h
  obtain ⟨last, hlast, h⟩ := Option.bind_eq_some_iff.mp h
  obtain ⟨_, -, h⟩ := Option.bind_eq_some_iff.mp h
  obtain ⟨text, htext, h⟩ := Option.bind_eq_some_iff.mp h
  obtain ⟨content, hcontent, h⟩ := Option.bind_eq_some_iff.mp h
  obtain ⟨label, -, h⟩ := Option.bind_eq_some_iff.mp h
  obtain rfl := Option.some.inj h
  have hstart : start.length ≤ input.length := by
    split at hstart
    · rw [Option.some.inj hstart]
    · exact (suffix_of_skipPreamble hstart).length_le
  have hlabelled := congrArg List.length (eq_append_of_after? hlabelled)
  have hopened := congrArg List.length (eq_append_of_after? hopened)
  have hbody := (suffix_of_dropLineEnd? hbody).length_le
  have hclosed := congrArg List.length (eq_append_of_before? hclosed)
  have hending : ((dropFinalLineEnd? body).getD body).length ≤ body.length := by
    cases hfinal : dropFinalLineEnd? body with
    | none => exact le_rfl
    | some front => exact length_le_of_dropFinalLineEnd? hfinal
  have hlast := length_le_of_dropFinalLineEnd? hlast
  have htext := length_le_of_joinLines htext
  have hcontent := Base64.Alphabet.length_le_of_decodePadded hcontent
  rw [List.length_append] at hlabelled hopened hclosed
  rw [List.length_drop] at hopened
  rw [List.length_map] at hcontent
  dsimp only
  omega

end BearerAuth.Pem
