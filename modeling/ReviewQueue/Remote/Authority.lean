import ReviewQueue.Http.Message
import ReviewQueue.Remote.Error

/-! The authority of a URL: who asks, and where.

An authority is a host with its port, and before an at sign perhaps a user with a password. It is
kept as the bytes that its escapes stand for, and written with the escapes it needs. In a host only
bytes outside of ASCII may be escaped, and the percent sign. -/

namespace ReviewQueue

/-- A user, perhaps with a password. -/
structure UserInfo where
  name : List UInt8
  password : Option (List UInt8) := none
  deriving DecidableEq, Repr

/-- The authority of a URL. The host holds its port. -/
structure Authority where
  user : Option UserInfo := none
  host : List UInt8
  deriving DecidableEq, Repr

namespace Authority

/-- Whether three characters are an escape. -/
def isEscape (s : List Char) : Bool :=
  match s with
  | '%' :: a :: b :: _ => (Json.hexValue? a).isSome && (Json.hexValue? b).isSome
  | _ => false

/-- The first percent sign that starts no escape, with the two bytes that follow it. -/
def brokenEscape? : List Char → Option (List UInt8)
  | [] => none
  | c :: rest =>
    if c = '%' && !isEscape (c :: rest) then some ((Text.toBytes (c :: rest)).take 3)
    else brokenEscape? rest

/-- Refuses a text with a broken escape. -/
def checkEscapes (s : List Char) : Except RequestDefect Unit :=
  match brokenEscape? s with
  | some bytes => .error (.escape bytes)
  | none => .ok ()

/-- The text of bytes, of which those outside of ASCII and those that do not stay are escaped. -/
def escape (stays : Char → Bool) (bytes : List UInt8) : List Char :=
  bytes.flatMap fun b =>
    let c := Char.ofNat b.toNat
    if b < 0x80 && stays c then [c] else PathTemplate.escapeByte b.toNat

/-! ## Hosts -/

/-- Whether a host may hold a character of ASCII as it is. -/
def staysInHost (c : Char) : Bool :=
  isUnreserved c ||
    ['!', '$', '&', '\'', '(', ')', '*', '+', ',', ';', '=', ':', '[', ']', '<', '>',
      '"'].contains c

/-- Whether a text is empty, or a colon and a number. -/
def isPort (s : List Char) : Bool :=
  match s with
  | [] => true
  | c :: digits => c == ':' && digits.all Text.isDigit

/-- What follows the last bracket of a host in brackets, or starts at the last colon of any other
host. -/
def portPart (host : List Char) : Except RequestDefect (List Char) :=
  if host.head? = some '[' then
    if host.contains ']' then .ok (host.reverse.takeWhile (· != ']')).reverse
    else .error .openBracket
  else if host.contains ':' then .ok (':' :: (host.reverse.takeWhile (· != ':')).reverse)
  else .ok []

/-- Refuses an escape of a character that needs none, and a character that needs one. -/
def checkHost : List Char → Except RequestDefect Unit
  | [] => .ok ()
  | '%' :: a :: b :: rest =>
    if !isEscape ['%', a, b] then .error (.escape ((Text.toBytes ['%', a, b]).take 3))
    else if ((Json.hexValue? a).getD 0) < 8 && !(a == '2' && b == '5') then
      .error (.escape (Text.toBytes ['%', a, b]))
    else checkHost rest
  | c :: rest =>
    if c = '%' then .error (.escape (Text.toBytes (c :: rest)))
    else if c.toNat < 0x80 && !staysInHost c then .error (.host (String.singleton c))
    else checkHost rest

/-- Reads a host with its port. A colon without a port is dropped. -/
def readHost (s : List Char) : Except RequestDefect (List UInt8) := do
  let port ← portPart s
  if !isPort port then throw (.port (.ofList port))
  checkHost s
  return Route.unescape (if port = [':'] then s.dropLast else s)

/-! ## Users -/

/-- Whether a character may stand before the at sign. -/
def isUserChar (c : Char) : Bool :=
  c.isAlphanum ||
    ['-', '.', '_', ':', '~', '!', '$', '&', '\'', '(', ')', '*', '+', ',', ';', '=', '%',
      '@'].contains c

/-- Whether a name or a password is written with a character as it is. -/
def staysInUser (c : Char) : Bool :=
  isUnreserved c || ['$', '&', '+', ',', ';', '='].contains c

/-- Reads a user. The first colon stands before the password. -/
def readUser (s : List Char) : Except RequestDefect UserInfo := do
  if !s.all isUserChar then throw .user
  checkEscapes s
  let password := match s.dropWhile (· != ':') with
    | _ :: rest => some (Route.unescape rest)
    | [] => none
  return { name := Route.unescape (s.takeWhile (· != ':')), password }

/-- The text of a user. -/
def userText (u : UserInfo) : List Char :=
  escape staysInUser u.name ++
    (match u.password with
    | some p => ':' :: escape staysInUser p
    | none => [])

/-- The text of a user in messages, which tell no password. -/
def shownUser (u : UserInfo) : List Char :=
  match u.password with
  | some _ => (Text.lossy u.name).toList ++ ":***".toList
  | none => userText u

/-! ## Authorities -/

/-- Reads an authority. The last at sign ends the user. -/
def read (s : List Char) : Except RequestDefect Authority := do
  let host ← readHost (s.reverse.takeWhile (· != '@')).reverse
  match s.reverse.dropWhile (· != '@') with
  | _ :: user => return { user := some (← readUser user.reverse), host }
  | [] => return { host }

/-- The text of an authority, with users written as `user` says. -/
def text (user : UserInfo → List Char) (a : Authority) : List Char :=
  (match a.user with
  | some u => user u ++ ['@']
  | none => []) ++ escape staysInHost a.host

end Authority
end ReviewQueue
