import ReviewQueue.Remote.Authority

/-! URLs of requests.

A URL is cut into its scheme, authority, path, query and fragment. The path and the fragment are
kept as they were written when they are valid encodings, and encoded anew otherwise; the query is
kept as it is. -/

namespace ReviewQueue

/-- A URL by its parts. After a scheme without a slash everything is path, and the URL is
rootless. -/
structure Url where
  scheme : List Char := []
  /-- The authority, missing when the URL has none. -/
  authority : Option Authority := none
  path : List Char := []
  query : List Char := []
  fragment : List Char := []
  rootless : Bool := false
  deriving DecidableEq, Repr

namespace Url

open Http
open Authority (checkEscapes)

/-- Whether a character may stand in a scheme after its first letter. -/
def isSchemeChar (c : Char) : Bool :=
  c.isAlphanum || c == '+' || c == '-' || c == '.'

/-- Cuts the scheme off a text that has one. -/
def splitScheme (s : List Char) : Except RequestDefect (List Char × List Char) :=
  match s with
  | [] => .ok ([], [])
  | c :: _ =>
    if c = ':' then .error .noScheme
    else
      match s.dropWhile isSchemeChar with
      | ':' :: rest =>
        if c.isAlpha then .ok ((s.takeWhile isSchemeChar).map Char.toLower, rest) else .ok ([], s)
      | _ => .ok ([], s)

/-- Whether an encoded path may hold a character as it is. -/
def isPathChar (c : Char) : Bool :=
  Target.staysInPath c || ['!', '\'', '(', ')', '*', '[', ']', '%'].contains c

/-- The path with every character escaped that needs it. A path that is a valid encoding stays. -/
def encodePath (path : List Char) : List Char :=
  if path.all isPathChar then path else Authority.escape Target.staysInPath (Route.unescape path)

/-- The fragment with every character escaped that needs it. -/
def encodeFragment (fragment : List Char) : List Char :=
  if fragment.all (fun c => isPathChar c || c == '?') then fragment
  else
    Authority.escape (fun c => Target.staysInPath c || ['?', '!', '(', ')', '*'].contains c)
      (Route.unescape fragment)

/-- Reads what follows the scheme, without query and fragment. -/
def readHierarchy (scheme rest : List Char) : Except RequestDefect Url := do
  match rest with
  | '/' :: '/' :: after =>
    if scheme.isEmpty && rest.take 3 = ['/', '/', '/'] then
      checkEscapes rest
      return { scheme, path := rest }
    let authority ← Authority.read (after.takeWhile (· != '/'))
    let path := after.dropWhile (· != '/')
    checkEscapes path
    return { scheme, authority := some authority, path }
  | '/' :: _ =>
    checkEscapes rest
    return { scheme, path := rest }
  | _ =>
    if !scheme.isEmpty then return { scheme, path := rest, rootless := true }
    if (rest.takeWhile (· != '/')).contains ':' then throw .colonInSegment
    checkEscapes rest
    return { path := rest }

/-- Reads a URL. -/
def read (s : List Char) : Except RequestDefect Url := do
  let main := s.takeWhile (· != '#')
  if main.any (fun c => c.toNat < 0x20 || c.toNat = 0x7F) then throw .control
  let (scheme, rest) ← splitScheme main
  let url ← readHierarchy scheme (rest.takeWhile (· != '?'))
  let fragment := (s.dropWhile (· != '#')).tail
  checkEscapes fragment
  return { url with query := rest.dropWhile (· != '?'), fragment }

/-! ## References -/

/-- Leaves out the segments `.` and takes back one segment for every `..`. The segments that are
kept are last first. -/
def resolveSegments (kept : List (List Char)) : List (List Char) → List (List Char)
  | [] => kept
  | segment :: rest =>
    let kept :=
      if segment = ['.'] then (if kept = [] then [[]] else kept)
      else if segment = ['.', '.'] then kept.tail
      else segment :: kept
    resolveSegments kept rest

/-- A path without segments that stand for others. One that ends in such a segment ends in a slash
then. -/
def resolvePath (path : List Char) : List Char :=
  if path.isEmpty then []
  else
    let segments := path.splitOn '/'
    let last := segments.getLast?
    let resolved := ['/'].intercalate (resolveSegments [] segments).reverse ++
      (if last = some ['.'] ∨ last = some ['.', '.'] then ['/'] else [])
    if resolved.head? = some '/' then resolved else '/' :: resolved

/-- The path of a reference, seen from a base: one without a slash in front replaces the last
segment. -/
def joinPath (base path : List Char) : List Char :=
  if path.isEmpty then base
  else if path.head? = some '/' then path
  else (base.reverse.dropWhile (· != '/')).reverse ++ path

/-- Whether a URL names a host or a user. -/
def namesHost (u : Url) : Bool :=
  u.authority.any fun a => a.user.isSome || !a.host.isEmpty

/-- The URL that a reference stands for in a document under a base URL. -/
def resolve (base u : Url) : Url :=
  if !u.scheme.isEmpty || u.namesHost then
    { u with
      scheme := if u.scheme.isEmpty then base.scheme else u.scheme
      path := if u.rootless then u.path else resolvePath (encodePath u.path) }
  else
    let stays := u.path.isEmpty && u.query.isEmpty
    let query := if !stays then u.query else if base.query = ['?'] then [] else base.query
    let fragment := if stays && u.fragment.isEmpty then base.fragment else u.fragment
    if u.path.isEmpty && base.rootless && !base.path.isEmpty then
      { base with authority := none, query, fragment }
    else
      let path := if base.rootless then [] else encodePath base.path
      { base with
        path := resolvePath (joinPath path (encodePath u.path))
        query
        fragment
        rootless := false }

/-! ## Texts -/

/-- The scheme and the authority of a URL, with users written as `user` says. -/
def origin (user : UserInfo → List Char) (u : Url) : List Char :=
  (if u.scheme.isEmpty then [] else u.scheme ++ [':']) ++
    (match u.authority with
    | some a => '/' :: '/' :: a.text user
    | none => [])

/-- The path and the query, as they are asked for. -/
def target (u : Url) : List Char :=
  (if u.rootless then u.path else encodePath u.path) ++ u.query

/-- The text of a URL, with users written as `user` says. -/
def textWith (user : UserInfo → List Char) (u : Url) : String :=
  .ofList (u.origin user ++ u.target ++
    (if u.fragment.isEmpty then [] else '#' :: encodeFragment u.fragment))

/-- The text of a URL. -/
def text (u : Url) : String := u.textWith Authority.userText

/-- The text of a URL in messages, which tell no password. -/
def shownText (u : Url) : String := u.textWith Authority.shownUser

/-- The target with which a request is sent. -/
def requestTarget (u : Url) : String :=
  match u.target with
  | '/' :: rest => .ofList ('/' :: rest)
  | t => .ofList ('/' :: t)

end Url
end ReviewQueue
