import Mathlib
import BearerAuth.Proofs.Json.Soundness
import BearerAuth.Proofs.Token.NamedKey
import BearerAuth.Proofs.Token.Segments

/-!
# The two readings of a header

The key of a token is chosen by a reading of the header in which the last of several members with a
name counts.  The signature is checked after another reading, for which no registered name may occur
twice.  A header that passes both has each of the names that matter once, so both found the same
text under it.

Main statements: `sole_of_readings` for headers, and `exists_hasHeader_of_verify` for tokens.
-/

namespace BearerAuth.Token

open Json (Value Members Document)

/-! ### Members with a name -/

/-- One member has the name, no matter how this is escaped, and its value is a string with the
text. -/
def Sole (name text : String) (ms : Members) : Prop :=
  ∃ key raw, (ms.toList.filter fun m => Json.textOf? m.1 = some name) = [(key, .string raw)] ∧
    Json.textOf? raw = some text

/-- The last member with a name is the last of all with this name. -/
theorem lastMember?_eq_getLast? (name : String) (ms : Members) :
    lastMember? name ms = (membersNamed name ms).getLast? := by
  unfold lastMember? membersNamed
  rw [List.getLast?_map, List.getLast?_eq_head?_reverse, ← List.filter_reverse, List.head?_filter]

/-- A name that occurs at most once, and whose last value has a text, occurs once and with this
text. -/
theorem sole_of_lastMember? {name text : String} {ms : Members}
    (hlength : (membersNamed name ms).length ≤ 1)
    (hlast : (lastMember? name ms).bind textOfValue? = some text) : Sole name text ms := by
  obtain ⟨v, hv, htext⟩ := Option.bind_eq_some_iff.mp hlast
  rw [lastMember?_eq_getLast?, membersNamed, List.getLast?_map] at hv
  rw [membersNamed, List.length_map] at hlength
  obtain ⟨⟨key, found⟩, hmember, rfl⟩ := Option.map_eq_some_iff.mp hv
  obtain ⟨raw, rfl, hraw⟩ : ∃ raw, found = .string raw ∧ Json.textOf? raw = some text := by
    cases found with
    | string raw => exact ⟨raw, rfl, htext⟩
    | _ => cases htext
  -- The last of one at most is the only one.
  obtain ⟨front, hfilter⟩ := List.getLast?_eq_some_iff.mp hmember
  rw [hfilter, List.length_append, List.length_singleton] at hlength
  obtain rfl : front = [] := List.length_eq_zero_iff.mp (by omega)
  exact ⟨key, raw, hfilter, hraw⟩

/-! ### The tolerant reading -/

/-- A header is read if it is an object to its end, every string in it is a text, and neither its
numbers nor its nesting go beyond their limits. -/
theorem readObject_eq_ok_iff {header : Bytes} {ms : Members} :
    readObject header = .ok ms ↔
      Document.ofBytes header = ⟨.object ms, true⟩ ∧ isSound maxDepth (.object ms) := by
  unfold readObject
  dsimp only
  constructor
  · intro h
    split at h
    · rename_i found hvalue
      split at h
      · rename_i hsound
        cases h
        rw [hvalue, Bool.and_eq_true] at hsound
        refine ⟨?_, hsound.1⟩
        rw [← hvalue, ← hsound.2]
      · cases h
    · cases h
  · rintro ⟨hdocument, hsound⟩
    rw [hdocument]
    simp [hsound]

/-! ### The strict reading -/

/-- What is optional occurs at most once. -/
theorem length_le_one_of_isOptionalMember {ms : Members} {m : String × (Value → Bool)}
    (h : isOptionalMember ms m) : (membersNamed m.1 ms).length ≤ 1 := by
  unfold isOptionalMember at h
  split at h
  · rename_i hnone
    simp [hnone]
  · rename_i v hone
    simp [hone]
  · cases h

/-- In an object that passes the strict reading no registered name occurs twice. -/
theorem length_le_one_of_headerAlgorithmOf? {ms : Members} {alg name : String}
    (h : headerAlgorithmOf? (.object ms) = some alg)
    (hname : name ∈ "alg" :: optionalHeaderMembers.map Prod.fst) :
    (membersNamed name ms).length ≤ 1 := by
  obtain ⟨_, hguard, h⟩ := Option.bind_eq_some_iff.mp h
  rcases List.mem_cons.mp hname with rfl | hoptional
  · split at h
    · rename_i v hone
      simp [hone]
    · cases h
  · obtain ⟨m, hm, rfl⟩ := List.mem_map.mp hoptional
    rw [guard] at hguard
    split at hguard
    · rename_i hall
      rw [Bool.and_eq_true] at hall
      exact length_le_one_of_isOptionalMember (List.all_eq_true.mp hall.2 m hm)
    · cases hguard

/-- A header that passes the strict reading has a value that does. -/
theorem headerAlgorithmOf?_of_headerAlgorithm? {header : Bytes} {alg : String}
    (h : headerAlgorithm? header = some alg) :
    headerAlgorithmOf? (Document.ofBytes header).value = some alg := by
  obtain ⟨_, -, h⟩ := Option.bind_eq_some_iff.mp h
  obtain ⟨found, hfound, h⟩ := Option.bind_eq_some_iff.mp h
  obtain ⟨_, -, h⟩ := Option.bind_eq_some_iff.mp h
  cases h
  exact hfound

/-! ### Both readings -/

/-- A header that passes both readings spells an object, and what the tolerant reading takes for the
text of a registered member is the text of the only member with this name. -/
theorem sole_of_readings {header : Bytes} {ms : Members} {alg name text : String}
    (hread : readObject header = .ok ms) (hstrict : headerAlgorithm? header = some alg)
    (hname : name ∈ "alg" :: optionalHeaderMembers.map Prod.fst)
    (hlast : (lastMember? name ms).bind textOfValue? = some text) : Sole name text ms := by
  have hvalue := headerAlgorithmOf?_of_headerAlgorithm? hstrict
  rw [(readObject_eq_ok_iff.mp hread).1] at hvalue
  exact sole_of_lastMember? (length_le_one_of_headerAlgorithmOf? hvalue hname) hlast

/-! ### Tokens -/

/-- What stands in front of the first dot of the token is base64 of an object with the members. -/
def HasHeader (token : String) (ms : Members) : Prop :=
  ∃ piece rest header, token.toList = piece ++ '.' :: rest ∧ '.' ∉ piece ∧
    decodeSegment piece = some header ∧ (Value.object ms).SpellsDocument header

/-- What stands behind the last dot of the token is base64 of a signature over everything in front
of this dot, under the public key in the text. -/
def SignedUnder (token pem : String) : Prop :=
  ∃ message piece signature material key, token.toList = message ++ '.' :: piece ∧ '.' ∉ piece ∧
    decodeSegment piece = some signature ∧ KeyMaterial.ofPem? pem = some material ∧
    material.publicKey? = some key ∧ key.verifies (utf8 (String.ofList message)) signature

/-- A token has one header at most. -/
theorem HasHeader.unique {token : String} {ms ms' : Members} (h : HasHeader token ms)
    (h' : HasHeader token ms') : ms = ms' := by
  obtain ⟨piece, rest, header, htoken, hdot, hdecode, hspells⟩ := h
  obtain ⟨piece', rest', header', htoken', hdot', hdecode', hspells'⟩ := h'
  have hcut := Text.cutFirst_eq_some_iff.mpr ⟨htoken, hdot⟩
  rw [Text.cutFirst_eq_some_iff.mpr ⟨htoken', hdot'⟩] at hcut
  obtain ⟨rfl, -⟩ := Prod.mk.inj (Option.some.inj hcut)
  obtain rfl : header' = header := Option.some.inj (hdecode'.symm.trans hdecode)
  have hvalue := Json.ofBytes_eq_whole_iff.mpr hspells
  rw [Json.ofBytes_eq_whole_iff.mpr hspells'] at hvalue
  cases hvalue
  rfl

/-- A token that verifies is signed under the key for which it verifies. -/
theorem signedUnder_of_verify {token pem : String} {leeway : Duration} {now : Clock}
    {claims : Claims} (h : verify token pem leeway now = .ok claims) : SignedUnder token pem := by
  obtain ⟨material, pieces, -, key, signature, -, hpem, hpieces, -, -, hkey, hsignature, hverifies,
    -, -⟩ := verify_eq_ok_iff.mp h
  obtain ⟨htoken, -, -, -, hdot⟩ := segments?_eq_some_iff.mp hpieces
  exact ⟨pieces.message, pieces.signature, signature, material, key, htoken, hdot, hsignature, hpem,
    hkey, hverifies⟩

/-- A token that verifies has a header whose only algorithm is the accepted one, and whose only key
id is the one that the token names. -/
theorem exists_hasHeader_of_verify {token kid pem : String} {leeway : Duration} {now : Clock}
    {claims : Claims} (hkid : namedKid token = .ok kid)
    (hverify : verify token pem leeway now = .ok claims) :
    ∃ ms, HasHeader token ms ∧ isSound maxDepth (.object ms) ∧
      Sole "alg" acceptedAlgorithm ms ∧ Sole "kid" kid ms := by
  obtain ⟨pieces, header, ms, -, hpieces, hheader, hread, -, halg, hkid, -⟩ :=
    namedKid_eq_ok_iff.mp hkid
  obtain ⟨-, pieces', header', -, -, -, -, hpieces', hheader', hstrict, -⟩ :=
    verify_eq_ok_iff.mp hverify
  obtain rfl : pieces = pieces' := Option.some.inj (hpieces.symm.trans hpieces')
  obtain rfl : header = header' := Option.some.inj (hheader.symm.trans hheader')
  obtain ⟨htoken, -, hdot, -, -⟩ := segments?_eq_some_iff.mp hpieces
  obtain ⟨hdocument, hsound⟩ := readObject_eq_ok_iff.mp hread
  have hspells := Json.ofBytes_eq_whole_iff.mp hdocument
  have hfront : token.toList =
      pieces.header ++ '.' :: (pieces.payload ++ '.' :: pieces.signature) := by
    rw [htoken, Segments.message, List.append_assoc, List.cons_append]
  refine ⟨ms, ⟨_, _, header, hfront, hdot, hheader, hspells⟩, hsound, ?_, ?_⟩
  · exact sole_of_readings hread hstrict (by decide) halg
  · exact sole_of_readings hread hstrict (by decide) hkid

end BearerAuth.Token
