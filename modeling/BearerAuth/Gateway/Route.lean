import BearerAuth.FileTree.Path
import BearerAuth.Json.Lexeme

/-!
# Routes

Which requests a gateway knows, by the paths of their addresses, and the parameters that a path
carries.  A path is matched as it is written; escapes are only resolved inside parameters.
-/

namespace BearerAuth

/-- A part of a pattern between slashes. -/
inductive RoutePart where
  | literal (text : Bytes)
  /-- Stands for any part that is not empty. -/
  | parameter (name : String)
deriving DecidableEq, Repr

/-- A pattern of paths. -/
abbrev Route := List RoutePart

/-- The parameters of a path. -/
inductive PathParameters where
  /-- The request was not matched by a pattern. -/
  | missing
  /-- Some parameter is not UTF-8. -/
  | undecodable
  | decoded (parameters : List (String × String))
deriving DecidableEq, Repr

namespace Route

/-- The part of a pattern that a piece of text stands for. -/
def partOfText (piece : List Char) : RoutePart :=
  match piece with
  | ':' :: name => .parameter (String.ofList name)
  | piece => .literal (utf8 (String.ofList piece))

/-- The pattern of a text such as `/users/:user_id`. -/
def ofText (pattern : String) : Route :=
  (pattern.toList.splitOn '/').map partOfText

/-- The path of an address: what stands in front of the query and the fragment. -/
def pathOf (uri : String) : Bytes :=
  (utf8 uri).takeWhile fun b => b ≠ ascii '?' && b ≠ ascii '#'

/-- The parameters, as they are written, of pieces that fit a pattern. -/
def bind? : Route → List Bytes → Option (List (String × Bytes))
  | [], [] => some []
  | .literal text :: route, piece :: pieces =>
      if text = piece then bind? route pieces else none
  | .parameter name :: route, piece :: pieces =>
      if piece.isEmpty then none else (bind? route pieces).map ((name, piece) :: ·)
  | _, _ => none

/-- Resolves escapes of a percent sign and two hexadecimal digits; other percent signs stand for
themselves. -/
def percentDecode : Bytes → Bytes
  | [] => []
  | [x] => [x]
  | [x, y] => [x, y]
  | x :: y :: z :: rest =>
      match x == ascii '%', Json.hexValue? y, Json.hexValue? z with
      | true, some a, some b => UInt8.ofNat (a * 16 + b) :: percentDecode rest
      | _, _, _ => x :: percentDecode (y :: z :: rest)

/-- The parameters with their escapes resolved. -/
def decode (parameters : List (String × Bytes)) : PathParameters :=
  match parameters.mapM fun p => (percentDecode p.2).text?.map (p.1, ·) with
  | some decoded => .decoded decoded
  | none => .undecodable

/-- The parameters of an address by the first pattern that fits it. -/
def resolve (routes : List Route) (uri : String) : Option PathParameters :=
  (routes.findSome? (·.bind? (Path.cut (pathOf uri)))).map decode

end Route

/-- The value of a parameter. -/
def PathParameters.find? (name : String) : PathParameters → Option String
  | decoded parameters => (parameters.find? (·.1 = name)).map (·.2)
  | _ => none

end BearerAuth
