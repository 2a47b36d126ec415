import Mathlib
import BearerAuth.Pem.Lenient
import BearerAuth.Proofs.Base64
import BearerAuth.Proofs.Utf8

/-!
# Written blocks of keys

The lenient reading finds a block that was written: each of its four marks is found where it was
put, the lines of the data are joined again, and there are no headers.

Main statement: `Block.decodeLenient?_encode`.
-/

namespace BearerAuth.Pem

/-! ### Marks -/

/-- A mark that was matched in part is found where the rest of it follows. -/
theorem findMark_drop (mark rest : Bytes) {found : Nat} (hfound : found < mark.length)
    (acc : Bytes) :
    findMark mark (mark.drop found ++ rest) found acc =
      some ((((mark.drop found).reverse ++ acc).drop mark.length).reverse, rest) := by
  -- The measure is the part of the mark that is still to be matched.
  induction hleft : mark.length - found generalizing found acc with
  | zero => omega
  | succ left ih =>
    have hsome : mark[found]? = some mark[found] := List.getElem?_eq_getElem hfound
    rw [List.drop_eq_getElem_cons hfound, List.cons_append, findMark]
    simp only [hsome, if_true]
    split
    · rename_i hlast
      have hdone : mark.drop (found + 1) = [] := List.drop_eq_nil_of_le (by omega)
      simp [hdone]
    · rename_i hmore
      have hacc : (mark[found] :: mark.drop (found + 1)).reverse ++ acc =
          (mark.drop (found + 1)).reverse ++ mark[found] :: acc := by
        rw [List.reverse_cons, List.append_assoc, List.singleton_append]
      rw [ih (by omega) _ (by omega), hacc]

/-- Bytes with which the mark does not begin are passed. -/
theorem findMark_append (mark rest : Bytes) {front : Bytes}
    (h : ∀ b ∈ front, mark.head? ≠ some b) (hne : mark ≠ []) (acc : Bytes) :
    findMark mark (front ++ rest) 0 acc = findMark mark rest 0 (front.reverse ++ acc) := by
  induction front generalizing acc with
  | nil => rfl
  | cons x front ih =>
    have hfirst : mark[0]? ≠ some x := by
      rw [← List.head?_eq_getElem?]
      exact h x List.mem_cons_self
    have hlength : 0 ≠ mark.length := (List.length_pos_iff.mpr hne).ne
    rw [List.cons_append, findMark]
    simp only [if_neg hfirst, if_neg hlength]
    rw [ih fun b hb => h b (List.mem_cons_of_mem x hb)]
    simp

/-- A mark is found behind bytes with which it does not begin. -/
theorem findMark_append_mark {mark front : Bytes} (h : ∀ b ∈ front, mark.head? ≠ some b)
    (hne : mark ≠ []) (rest : Bytes) :
    findMark mark (front ++ (mark ++ rest)) 0 [] = some (front, rest) := by
  have hfind := findMark_drop mark rest (List.length_pos_iff.mpr hne) (front.reverse ++ [])
  rw [List.drop_zero, List.drop_left' List.length_reverse] at hfind
  rw [findMark_append mark _ h hne, hfind]
  simp

/-- A mark is not found among bytes with which it does not begin. -/
theorem findMark_eq_none {mark input : Bytes} (h : ∀ b ∈ input, mark.head? ≠ some b)
    (hne : mark ≠ []) : findMark mark input 0 [] = none := by
  have hfind := findMark_append mark [] h hne []
  rw [List.append_nil] at hfind
  rw [hfind]
  rfl

/-! ### Lines -/

/-- The characters of which the data of a block consist. -/
def isDataChar (c : Char) : Bool :=
  c.toNat < 128 && !Text.isBlank c && c ≠ '-'

theorem isDataChar_iff {c : Char} :
    isDataChar c = true ↔ c.toNat < 128 ∧ Text.isBlank c = false ∧ c ≠ '-' := by
  simp [isDataChar, and_assoc]

/-- Base64 is data. -/
theorem isDataChar_of_mem {b : Bytes} {c : Char}
    (h : c ∈ Base64.Alphabet.standard.encodePadded b) : isDataChar c = true := by
  have hsymbol : ∀ n < 64, isDataChar (Base64.Alphabet.standard.symbol n) = true := by decide
  rw [Base64.Alphabet.encodePadded, List.mem_append] at h
  rcases h with h | h
  · obtain ⟨n, hn, rfl⟩ := List.mem_map.mp h
    exact hsymbol n (Base64.lt_of_mem_sextets hn)
  · rw [List.eq_of_mem_replicate h]
    rfl

/-- The byte of a character of data is the byte of no other ASCII character. -/
theorem ascii_ne_of_isDataChar {c d : Char} (h : isDataChar c = true) (hd : d.toNat < 128)
    (hnot : isDataChar d = false) : ascii c ≠ ascii d := by
  intro heq
  rw [ascii_injOn (isDataChar_iff.mp h).1 hd heq, hnot] at h
  cases h

/-- Lines with a line feed behind each. -/
def joined (rows : List (List Char)) : List Char :=
  rows.flatMap fun row => row ++ ['\n']

/-- All lines but the last are full, and no line is longer. -/
def Filled : List (List Char) → Prop
  | [] => True
  | [row] => row.length ≤ lineLength
  | row :: next :: rows => row.length = lineLength ∧ Filled (next :: rows)

/-- A full line stands in front of lines of which all but the last are full. -/
theorem Filled.cons {row : List Char} {rows : List (List Char)} (hrow : row.length = lineLength)
    (hrows : Filled rows) : Filled (row :: rows) := by
  cases rows with
  | nil => exact hrow.le
  | cons next rows => exact ⟨hrow, hrows⟩

/-- Wrapping puts line feeds behind pieces that are not empty, and all of them but the last are
full.  `line` is the line that is being filled and `front` what is in front of it. -/
theorem exists_joined_of_wrap (room : Nat) (cs front line : List Char)
    (h : line.length + room = lineLength) :
    ∃ rows, wrap room cs (line.reverse ++ front.reverse) = front ++ joined rows ∧
      rows.flatten = line ++ cs ∧ (∀ row ∈ rows, row ≠ []) ∧ Filled rows := by
  induction cs generalizing room front line with
  | nil =>
    rw [wrap]
    split
    · have hline : line = [] := List.length_eq_zero_iff.mp (by omega)
      exact ⟨[], by simp [hline, joined], by simp [hline], by simp, trivial⟩
    · have hline : line ≠ [] := fun heq => by simp_all
      have hlength : line.length ≤ lineLength := h ▸ Nat.le_add_right _ _
      exact ⟨[line], by simp [joined], by simp, by simp [hline], hlength⟩
  | cons c cs ih =>
    cases room with
    | zero =>
      have hline : line ≠ [] := fun heq => by simp_all
      obtain ⟨rows, hwrap, hflatten, hrows, hfilled⟩ :=
        ih (lineLength - 1) (front ++ line ++ ['\n']) [c] rfl
      refine ⟨line :: rows, ?_, by simp [hflatten], by simpa [hline] using hrows, hfilled.cons h⟩
      have hacc : c :: '\n' :: (line.reverse ++ front.reverse) =
          [c].reverse ++ (front ++ line ++ ['\n']).reverse := by simp
      rw [wrap, hacc, hwrap]
      simp [joined]
    | succ room =>
      obtain ⟨rows, hwrap, hflatten, hrows, hfilled⟩ :=
        ih room front (line ++ [c]) (by simp; omega)
      refine ⟨rows, ?_, by simp [hflatten], hrows, hfilled⟩
      have hacc : c :: (line.reverse ++ front.reverse) =
          (line ++ [c]).reverse ++ front.reverse := by simp
      rw [wrap, hacc, hwrap]

/-- The lines of lines with a line feed behind each. -/
theorem lines_joined {rows : List (List Char)} (h : ∀ row ∈ rows, '\n' ∉ row) :
    lines (joined rows) = rows := by
  have hsplit : (joined rows).splitOn '\n' = rows ++ [[]] := by
    induction rows with
    | nil => rfl
    | cons row rows ih =>
      have hrow := h row List.mem_cons_self
      have hrows := ih fun r hr => h r (List.mem_cons_of_mem row hr)
      have hcons : joined (row :: rows) = row ++ '\n' :: joined rows := by simp [joined]
      rw [hcons, List.splitOn_append_cons_self_of_not_mem hrow, hrows]
      rfl
  simp [lines, hsplit]

/-- Nothing is trimmed from a line of data. -/
theorem trimEnd_of_isDataChar {row : List Char} (h : ∀ c ∈ row, isDataChar c = true) :
    Text.trimEnd row = row := by
  have hkept : row.reverse.dropWhile Text.isBlank = row.reverse := by
    rw [List.dropWhile_eq_self_iff]
    intro hlt
    have hmem : row.reverse[0] ∈ row := List.mem_reverse.mp (List.getElem_mem hlt)
    rw [(isDataChar_iff.mp (h _ hmem)).2.1]
    exact Bool.false_ne_true
  rw [Text.trimEnd, hkept, List.reverse_reverse]

/-- There is no empty line between lines of data; `found` says whether a line feed was just
passed. -/
theorem findMark_emptyLine {rows : List (List Char)} (hne : ∀ row ∈ rows, row ≠ [])
    (hdata : ∀ row ∈ rows, ∀ c ∈ row, isDataChar c = true) {found : Nat} (hfound : found < 2)
    (acc : Bytes) :
    findMark [lineFeed, lineFeed] ((joined rows).map ascii) found acc = none := by
  induction rows generalizing found acc with
  | nil => rfl
  | cons row rows ih =>
    obtain ⟨c, row, rfl⟩ := List.exists_cons_of_ne_nil (hne row List.mem_cons_self)
    have hnotFeed : ∀ x ∈ c :: row, ascii x ≠ lineFeed := fun x hx =>
      ascii_ne_of_isDataChar (d := '\n') (hdata _ List.mem_cons_self x hx) (by decide) (by decide)
    have hmark : [lineFeed, lineFeed][found]? = some lineFeed := by
      have hcases : found = 0 ∨ found = 1 := by omega
      rcases hcases with rfl | rfl <;> rfl
    have hfirst : ¬ some lineFeed = some (ascii c) := fun heq =>
      hnotFeed c List.mem_cons_self (Option.some.inj heq).symm
    have hpassed : ∀ b ∈ row.map ascii, [lineFeed, lineFeed].head? ≠ some b := by
      intro b hb heq
      obtain ⟨x, hx, rfl⟩ := List.mem_map.mp hb
      exact hnotFeed x (List.mem_cons_of_mem c hx) (Option.some.inj heq).symm
    have hcons : (joined ((c :: row) :: rows)).map ascii =
        ascii c :: (row.map ascii ++ lineFeed :: (joined rows).map ascii) := by
      simp [joined, ascii]
      rfl
    rw [hcons, findMark]
    simp only [hmark, if_neg hfirst, List.length_cons, List.length_nil]
    rw [if_neg (by decide), findMark_append _ _ hpassed (by decide), findMark]
    exact ih (fun r hr => hne r (List.mem_cons_of_mem _ hr))
      (fun r hr => hdata r (List.mem_cons_of_mem _ hr)) (by decide) _

/-! ### Blocks -/

/-- A mark is cut out where it stands. -/
theorem cutAt_append {mark : String} {front : Bytes} (h : ∀ b ∈ front, (utf8 mark).head? ≠ some b)
    (hne : utf8 mark ≠ []) (rest : Bytes) :
    cutAt mark (front ++ (utf8 mark ++ rest)) = some (front, rest) :=
  findMark_append_mark h hne rest

/-- The bytes of lines of data are those of a text. -/
theorem utf8_joined {rows : List (List Char)}
    (hdata : ∀ row ∈ rows, ∀ c ∈ row, isDataChar c = true) :
    utf8 (String.ofList (joined rows)) = (joined rows).map ascii := by
  apply utf8_ofList_of_lt
  intro c hc
  obtain ⟨row, hrow, hc⟩ := List.mem_flatMap.mp hc
  rcases List.mem_append.mp hc with hc | hc
  · exact (isDataChar_iff.mp (hdata row hrow c hc)).1
  · rw [List.mem_singleton.mp hc]
    decide

/-- No hyphen stands in lines of data. -/
theorem hyphen_ne_of_mem_joined {rows : List (List Char)}
    (hdata : ∀ row ∈ rows, ∀ c ∈ row, isDataChar c = true) {b : UInt8}
    (h : b ∈ (joined rows).map ascii) : some (ascii '-') ≠ some b := by
  obtain ⟨c, hc, rfl⟩ := List.mem_map.mp h
  obtain ⟨row, hrow, hc⟩ := List.mem_flatMap.mp hc
  intro heq
  rcases List.mem_append.mp hc with hc | hc
  · exact ascii_ne_of_isDataChar (hdata row hrow c hc) (by decide) (by decide)
      (Option.some.inj heq).symm
  · rw [List.mem_singleton.mp hc] at heq
    cases heq

/-- Nothing but the line feed in front of lines of data is skipped. -/
theorem skipSpace_joined {rows : List (List Char)} (hne : ∀ row ∈ rows, row ≠ [])
    (hdata : ∀ row ∈ rows, ∀ c ∈ row, isDataChar c = true) {rest : Bytes}
    (hrest : rest.head? = some (ascii '-')) :
    skipSpace (lineFeed :: ((joined rows).map ascii ++ rest)) =
      (joined rows).map ascii ++ rest := by
  have hfeed : skipSpace (lineFeed :: ((joined rows).map ascii ++ rest)) =
      skipSpace ((joined rows).map ascii ++ rest) := rfl
  rw [hfeed]
  cases rows with
  | nil =>
    obtain ⟨x, rest, rfl⟩ := List.exists_cons_of_ne_nil fun h : rest = [] => by simp [h] at hrest
    obtain rfl : x = ascii '-' := Option.some.inj hrest
    rfl
  | cons row rows =>
    obtain ⟨c, row, rfl⟩ := List.exists_cons_of_ne_nil (hne row List.mem_cons_self)
    have hc := hdata _ List.mem_cons_self c List.mem_cons_self
    have hspace : ascii c ≠ 0x20 := ascii_ne_of_isDataChar hc (d := ' ') (by decide) (by decide)
    have htab : ascii c ≠ 0x09 := ascii_ne_of_isDataChar hc (d := '\t') (by decide) (by decide)
    have hline : ascii c ≠ lineFeed :=
      ascii_ne_of_isDataChar hc (d := '\n') (by decide) (by decide)
    have hreturn : ascii c ≠ carriageReturn :=
      ascii_ne_of_isDataChar hc (d := '\r') (by decide) (by decide)
    have hcons : (joined ((c :: row) :: rows)).map ascii ++ rest =
        ascii c :: ((row ++ '\n' :: joined rows).map ascii ++ rest) := by simp [joined]
    rw [hcons, skipSpace, List.dropWhile_cons_of_neg]
    simp [hspace, htab, hline, hreturn]

/-- Lines of data hold no headers. -/
theorem divide_joined {rows : List (List Char)} (hne : ∀ row ∈ rows, row ≠ [])
    (hdata : ∀ row ∈ rows, ∀ c ∈ row, isDataChar c = true) :
    divide ((joined rows).map ascii) = ([], (joined rows).map ascii) := by
  have hempty : cutAt "\n\n" ((joined rows).map ascii) = none :=
    findMark_emptyLine hne hdata (by decide) []
  have hreturn : ∀ b ∈ (joined rows).map ascii, (utf8 "\r\n\r\n").head? ≠ some b := by
    intro b hb heq
    obtain ⟨c, hc, rfl⟩ := List.mem_map.mp hb
    obtain ⟨row, hrow, hc⟩ := List.mem_flatMap.mp hc
    rcases List.mem_append.mp hc with hc | hc
    · exact ascii_ne_of_isDataChar (d := '\r') (hdata row hrow c hc) (by decide) (by decide)
        (Option.some.inj heq).symm
    · rw [List.mem_singleton.mp hc] at heq
      cases heq
  have hemptyReturn : cutAt "\r\n\r\n" ((joined rows).map ascii) = none :=
    findMark_eq_none hreturn (by decide)
  rw [divide, hempty, hemptyReturn]
  rfl

/-- The lines of data that wrapping makes of base64. -/
theorem exists_rows (content : Bytes) :
    ∃ rows, wrap lineLength (Base64.Alphabet.standard.encodePadded content) [] = joined rows ∧
      rows.flatten = Base64.Alphabet.standard.encodePadded content ∧ (∀ row ∈ rows, row ≠ []) ∧
      (∀ row ∈ rows, ∀ c ∈ row, isDataChar c = true) ∧ Filled rows := by
  obtain ⟨rows, hwrap, hflatten, hrows, hfilled⟩ := exists_joined_of_wrap lineLength
    (Base64.Alphabet.standard.encodePadded content) [] [] rfl
  rw [List.reverse_nil, List.nil_append, List.nil_append] at hwrap
  rw [List.nil_append] at hflatten
  refine ⟨rows, hwrap, hflatten, hrows, ?_, hfilled⟩
  intro row hrow c hc
  have hmem : c ∈ rows.flatten := List.mem_flatten.mpr ⟨row, hrow, hc⟩
  rw [hflatten] at hmem
  exact isDataChar_of_mem hmem

/-- Lines of data are decoded to the bytes from which they were made. -/
theorem decodePadded_rows {rows : List (List Char)} {content : Bytes}
    (hflatten : rows.flatten = Base64.Alphabet.standard.encodePadded content)
    (hdata : ∀ row ∈ rows, ∀ c ∈ row, isDataChar c = true) :
    Base64.Alphabet.standard.decodePadded ((lines (joined rows)).flatMap Text.trimEnd) =
      some content := by
  have hfeeds : ∀ row ∈ rows, '\n' ∉ row := fun row hrow hc => by
    have hfeed := hdata row hrow '\n' hc
    cases hfeed
  have hrow : ∀ row ∈ rows, Text.trimEnd row = row := by
    intro row hmem
    exact trimEnd_of_isDataChar (hdata row hmem)
  have htrim : rows.flatMap Text.trimEnd = rows.flatten := by
    rw [List.flatMap_def, List.map_congr_left hrow, List.map_id']
  rw [lines_joined hfeeds, htrim, hflatten]
  exact Base64.Alphabet.decodePadded_encodePadded Base64.Alphabet.standard_lawful rfl content

/-- The bytes of a block that was written. -/
theorem utf8_encode {content : Bytes} {rows : List (List Char)} (label : String)
    (hbody : wrap lineLength (Base64.Alphabet.standard.encodePadded content) [] = joined rows)
    (hdata : ∀ row ∈ rows, ∀ c ∈ row, isDataChar c = true) :
    utf8 (Block.encode ⟨label, content⟩) =
      utf8 beginMark ++ (utf8 label ++ (utf8 closingMark ++ (lineFeed ::
        ((joined rows).map ascii ++ (utf8 endMark ++
          (utf8 label ++ (utf8 closingMark ++ [lineFeed]))))))) := by
  have hfeed : utf8 "\n" = [lineFeed] := rfl
  unfold Block.encode
  dsimp only
  rw [hbody]
  simp only [Bytes.utf8_append]
  rw [utf8_joined hdata, hfeed]
  simp only [List.append_assoc, List.cons_append, List.nil_append]

/-- The text of a block starts with its label, apart from what all blocks start with. -/
theorem exists_utf8_encode_eq (label : String) (content : Bytes) :
    ∃ rest, utf8 (Block.encode ⟨label, content⟩) = utf8 beginMark ++ (utf8 label ++ rest) := by
  obtain ⟨rows, hwrap, -, -, hdata, -⟩ := exists_rows content
  exact ⟨_, utf8_encode label hwrap hdata⟩

/-- A block that was written is read back. -/
theorem Block.decodeLenient?_encode {label : String} (hlabel : ascii '-' ∉ utf8 label)
    (hne : label ≠ "") (content : Bytes) :
    Block.decodeLenient? (utf8 (Block.encode ⟨label, content⟩)) = some ⟨label, content⟩ := by
  obtain ⟨rows, hbody, hflatten, hrows, hdata, -⟩ := exists_rows content
  have hhyphen : ∀ b ∈ utf8 label, (utf8 closingMark).head? ≠ some b := by
    intro b hb heq
    obtain rfl : ascii '-' = b := Option.some.inj heq
    exact hlabel hb
  have hbegin : ∀ rest, cutAt beginMark (utf8 beginMark ++ rest) = some ([], rest) :=
    cutAt_append (by simp : ∀ b ∈ ([] : Bytes), _) (by decide)
  have hclosing : ∀ rest, cutAt closingMark (utf8 label ++ (utf8 closingMark ++ rest)) =
      some (utf8 label, rest) := cutAt_append hhyphen (by decide)
  have hend : ∀ rest, cutAt endMark ((joined rows).map ascii ++ (utf8 endMark ++ rest)) =
      some ((joined rows).map ascii, rest) :=
    cutAt_append (fun b hb => hyphen_ne_of_mem_joined hdata hb) (by decide)
  have hskip : ∀ rest, skipSpace (lineFeed :: ((joined rows).map ascii ++ (utf8 endMark ++ rest))) =
      (joined rows).map ascii ++ (utf8 endMark ++ rest) :=
    fun rest => skipSpace_joined hrows hdata rfl
  have hbytes : Bytes.text? ((joined rows).map ascii) = some (String.ofList (joined rows)) := by
    rw [← utf8_joined hdata, Bytes.text?_utf8]
  have hnone : Bytes.text? [] = some "" := rfl
  rw [Block.decodeLenient?, utf8_encode label hbody hdata, hbegin]
  simp only [Option.bind_eq_bind, Option.bind_some, hclosing, hskip, hend,
    divide_joined hrows hdata, Bytes.text?_utf8, hbytes, hnone, String.toList_ofList,
    decodePadded_rows hflatten hdata]
  simp [hne, lines]

end BearerAuth.Pem
