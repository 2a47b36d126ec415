import BearerAuth.Json.Lexeme

/-!
# Reading JSON

`readValue` reads a text as far as it is JSON.  Nesting is not limited; the recursion is bounded by
the length of the text, since every second call consumes a byte.
-/

namespace BearerAuth.Json

mutual

/-- The value at the front, and what follows it unless the reading was cut. -/
def readValueAux : Nat → Bytes → Value × Option Bytes
  | 0, _ => (.cut, none)
  | fuel + 1, input =>
      match skipBlank input with
      | [] => (.cut, none)
      | b :: rest =>
          if b = ascii '"' then
            match scanString rest [] with
            | some (raw, rest) => (.string raw, some rest)
            | none => (.cut, none)
          else if b = ascii '[' then
            match skipBlank rest with
            | [] => (.array .cut, none)
            | c :: after =>
                if c = ascii ']' then (.array .closed, some after)
                else
                  let (es, rest?) := readElements fuel rest
                  (.array es, rest?)
          else if b = ascii '\x7b' then
            match skipBlank rest with
            | [] => (.object .cut, none)
            | c :: after =>
                if c = ascii '\x7d' then (.object .closed, some after)
                else
                  let (ms, rest?) := readMembers fuel rest
                  (.object ms, rest?)
          else if b = ascii 'n' then
            match scanWord (utf8 "ull") rest with
            | .ok rest => (.null, some rest)
            | .error _ => (.cut, none)
          else if b = ascii 't' then
            match scanWord (utf8 "rue") rest with
            | .ok rest => (.bool true, some rest)
            | .error _ => (.cut, none)
          else if b = ascii 'f' then
            match scanWord (utf8 "alse") rest with
            | .ok rest => (.bool false, some rest)
            | .error _ => (.cut, none)
          else
            match scanNumber (b :: rest) with
            | .ok (n, rest) => (.number n, some rest)
            | .error _ => (.cut, none)

/-- The elements of an array from the start of one of them on, and what follows the bracket. -/
def readElements : Nat → Bytes → Elements × Option Bytes
  | 0, _ => (.cut, none)
  | fuel + 1, input =>
      match readValueAux fuel input with
      | (v, none) => (.cons v .cut, none)
      | (v, some rest) =>
          match skipBlank rest with
          | [] => (.cons v .cut, none)
          | c :: rest =>
              if c = ascii ',' then
                let (es, rest?) := readElements fuel rest
                (.cons v es, rest?)
              else if c = ascii ']' then (.cons v .closed, some rest)
              else (.cons v .cut, none)

/-- The members of an object from the start of one of them on, and what follows the brace. -/
def readMembers : Nat → Bytes → Members × Option Bytes
  | 0, _ => (.cut, none)
  | fuel + 1, input =>
      match skipBlank input with
      | [] => (.cut, none)
      | q :: rest =>
          if q = ascii '"' then
            match scanString rest [] with
            | none => (.cut, none)
            | some (name, rest) =>
                match skipBlank rest with
                | [] => (.cons name .cut .cut, none)
                | c :: rest =>
                    if c = ascii ':' then
                      match readValueAux fuel rest with
                      | (v, none) => (.cons name v .cut, none)
                      | (v, some rest) =>
                          match skipBlank rest with
                          | [] => (.cons name v .cut, none)
                          | c :: rest =>
                              if c = ascii ',' then
                                let (ms, rest?) := readMembers fuel rest
                                (.cons name v ms, rest?)
                              else if c = ascii '\x7d' then (.cons name v .closed, some rest)
                              else (.cons name v .cut, none)
                    else (.cons name .cut .cut, none)
          else (.cut, none)

end

/-- The value at the front of a text, and what follows it unless the reading was cut. -/
def readValue (input : Bytes) : Value × Option Bytes :=
  readValueAux (2 * input.length + 2) input

/-- A document as far as it was read. -/
structure Document where
  value : Value
  /-- The value is not cut off and nothing but white space follows it. -/
  complete : Bool

/-- Reads a document. -/
def Document.ofBytes (input : Bytes) : Document :=
  match readValue input with
  | (v, none) => ⟨v, false⟩
  | (v, some rest) => ⟨v, (skipBlank rest).isEmpty⟩

end BearerAuth.Json
