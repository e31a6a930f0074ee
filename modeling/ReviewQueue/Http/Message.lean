import ReviewQueue.Http.StatusText
import ReviewQueue.Route

/-! Requests, responses, and the parts of a request target.

A target is a path and, after a question mark, a query. Paths are compared segment by segment,
after percent escapes are replaced by the bytes they stand for. -/

namespace ReviewQueue.Http

/-- A request. An empty method is `GET`. -/
structure Request where
  method : String
  target : String
  body : String := ""
  deriving DecidableEq, Repr

/-- A response with the headers that matter here. -/
structure Response where
  status : Int
  body : String := ""
  contentType : Option String := none
  allow : Option String := none
  location : Option String := none
  /-- Whether the response carries the headers that allow requests from other origins. -/
  crossOrigin : Bool := false
  deriving DecidableEq, Repr

namespace Target

/-- The path of a target. -/
def path (target : String) : List Char :=
  target.toList.takeWhile (· != '?')

/-- The query of a target, with its question mark. -/
def queryPart (target : String) : List Char :=
  target.toList.dropWhile (· != '?')

/-- Removes empty segments and `.`, and resolves `..`; the segments kept are last first. -/
def resolve (kept : List (List Char)) : List (List Char) → List (List Char)
  | [] => kept.reverse
  | segment :: rest =>
    if segment = [] ∨ segment = ['.'] then resolve kept rest
    else if segment = ['.', '.'] then resolve kept.tail rest
    else resolve (segment :: kept) rest

/-- The shortest path that is equivalent; a slash at the end stays. -/
def clean (path : List Char) : List Char :=
  match resolve [] (path.splitOn '/') with
  | [] => ['/']
  | segments =>
    segments.flatMap ('/' :: ·) ++ (if path.getLast? = some '/' then ['/'] else [])

/-- The segments of a clean path; a slash at the end makes an empty last one. -/
def segments (path : List Char) : List (List UInt8) :=
  (path.splitOn '/').tail.map Route.unescape

/-- Whether a path holds a character as it is when the path is written again. -/
def staysInPath (c : Char) : Bool :=
  isUnreserved c || ['$', '&', '+', ',', '/', ':', ';', '=', '@'].contains c

/-- A path as it is written in a redirect: every other character is escaped, the percent sign of an
escape too. -/
def escape (path : List Char) : List Char :=
  path.flatMap fun c =>
    if staysInPath c then [c]
    else (String.utf8EncodeChar c).flatMap fun b => PathTemplate.escapeByte b.toNat

/-- Reads the percent escapes and the plus signs of a query text; none when an escape is broken. -/
def unescapeQuery : List Char → Option (List UInt8)
  | [] => some []
  | '+' :: rest => (unescapeQuery rest).map (0x20 :: ·)
  | '%' :: a :: b :: rest =>
    match Json.hexValue? a, Json.hexValue? b with
    | some x, some y => (unescapeQuery rest).map (UInt8.ofNat (x * 16 + y) :: ·)
    | _, _ => none
  | c :: rest =>
    if c = '%' then none else (unescapeQuery rest).map (String.utf8EncodeChar c ++ ·)

/-- One pair of a query. A pair with a semicolon or a broken escape is dropped. -/
def queryPair? (s : List Char) : Option (List UInt8 × List UInt8) :=
  if s.isEmpty || s.contains ';' then none
  else do
    let name ← unescapeQuery (s.takeWhile (· != '='))
    let value ← unescapeQuery (s.dropWhile (· != '=')).tail
    return (name, value)

/-- The first value of a name in a query, as text. -/
def queryValue (target : String) (name : String) : String :=
  let pairs := ((queryPart target).tail.splitOn '&').filterMap queryPair?
  match pairs.find? fun p => p.1 = Text.toBytes name.toList with
  | some (_, value) => Text.lossy value
  | none => ""

end Target
end ReviewQueue.Http
