import ReviewQueue.Number.Literal
import ReviewQueue.Text.Quoted

/-! Flags on the command line.

A flag has a long name and may have a letter. A truth flag takes a value only after an equals sign;
every other flag takes one after an equals sign, or as the next argument. Letters may stand
together, and the value of the last of them may follow it directly. After two dashes everything is
an argument. -/

namespace ReviewQueue.Cli

/-- What kind of value a flag takes. -/
inductive FlagKind where
  | bool
  | int
  | text
  deriving DecidableEq, Repr

/-- A flag. -/
structure Flag where
  name : String
  kind : FlagKind
  letter : Option Char := none
  deriving DecidableEq, Repr

/-- The value of a flag. -/
inductive FlagValue where
  | bool (value : Bool)
  | int (value : Int)
  | text (value : String)
  deriving DecidableEq, Repr

/-- Why the arguments could not be read. -/
inductive FlagError where
  | malformed (arg : String)
  | unknown (name : String)
  | unknownLetter (letter : Char) (letters : String)
  | noValue (arg : String)
  | noLetterValue (letter : Char) (letters : String)
  | badBool (flag : Flag) (value : String)
  | badInt (flag : Flag) (value : String) (cause : Text.NumeralError)
  deriving DecidableEq, Repr

/-- A flag as messages name it. -/
def Flag.title (f : Flag) : String :=
  match f.letter with
  | some c => "-" ++ String.singleton c ++ ", --" ++ f.name
  | none => "--" ++ f.name

/-- A letter in single quotes. -/
def quotedLetter (c : Char) : String :=
  if c = '\'' then "'\\''"
  else if c = '"' then "'\"'"
  else
    let body := ((Text.quoted (String.singleton c)).toList.drop 1).dropLast
    "'" ++ .ofList body ++ "'"

/-- The wording of a flag error. -/
def FlagError.message : FlagError → String
  | .malformed arg => "bad flag syntax: " ++ arg
  | .unknown name => "unknown flag: --" ++ name
  | .unknownLetter c letters => "unknown shorthand flag: " ++ quotedLetter c ++ " in -" ++ letters
  | .noValue arg => "flag needs an argument: " ++ arg
  | .noLetterValue c letters => "flag needs an argument: " ++ quotedLetter c ++ " in -" ++ letters
  | .badBool f value =>
    "invalid argument " ++ Text.quoted value ++ " for " ++ Text.quoted f.title ++
      " flag: strconv.ParseBool: parsing " ++ Text.quoted value ++ ": invalid syntax"
  | .badInt f value cause =>
    "invalid argument " ++ Text.quoted value ++ " for " ++ Text.quoted f.title ++
      " flag: strconv.ParseInt: parsing " ++ Text.quoted value ++ ": " ++ cause.message

/-- Reads the value of a flag. -/
def Flag.read (f : Flag) (value : String) : Except FlagError FlagValue :=
  match f.kind with
  | .text => .ok (.text value)
  | .bool =>
    if ["1", "t", "T", "true", "TRUE", "True"].contains value then .ok (.bool true)
    else if ["0", "f", "F", "false", "FALSE", "False"].contains value then .ok (.bool false)
    else .error (.badBool f value)
  | .int =>
    match Literal.readWord value.toList with
    | .ok n => .ok (.int n)
    | .error cause => .error (.badInt f value cause)

/-- What the arguments say: the flags that were given, in order, and what is left. -/
structure Parsed where
  given : List (String × FlagValue) := []
  args : List String := []
  deriving DecidableEq, Repr, Inhabited

namespace Parsed

/-- The last value that a flag was given. -/
def value? (p : Parsed) (name : String) : Option FlagValue :=
  (p.given.reverse.find? (·.1 == name)).map (·.2)

def isGiven (p : Parsed) (name : String) : Bool := (p.value? name).isSome

def bool (p : Parsed) (name : String) : Bool := p.value? name == some (.bool true)

def text (p : Parsed) (name : String) : String :=
  match p.value? name with
  | some (.text s) => s
  | _ => ""

/-- All values that a flag was given. -/
def texts (p : Parsed) (name : String) : List String :=
  p.given.filterMap fun
    | (n, .text s) => if n == name then some s else none
    | _ => none

end Parsed

/-- A flag that waits for its value, and the error when none comes. -/
structure Waiting where
  flag : Flag
  missing : FlagError

/-- What reading letters or a long flag gives. -/
structure FlagRead where
  given : List (String × FlagValue) := []
  waiting : Option Waiting := none

/-- Reads a flag with its value. -/
def FlagRead.one (f : Flag) (value : String) : Except FlagError FlagRead :=
  (f.read value).map fun v => { given := [(f.name, v)] }

/-- The letter that a message shows for letters that start with `c`: the first byte of it. -/
def firstByte (c : Char) : Char :=
  match String.utf8EncodeChar c with
  | b :: _ => Char.ofNat b.toNat
  | [] => c

/-- Reads letters that stand together. -/
def readLetters (flags : List Flag) : List Char → Except FlagError FlagRead
  | [] => .ok {}
  | c :: rest =>
    let letters : String := .ofList (c :: rest)
    match flags.find? (·.letter == some c) with
    | none => .error (.unknownLetter (firstByte c) letters)
    | some f =>
      match rest with
      | '=' :: d :: value => FlagRead.one f (.ofList (d :: value))
      | _ =>
        if f.kind = .bool then do
          let first ← FlagRead.one f "true"
          let more ← readLetters flags rest
          return { more with given := first.given ++ more.given }
        else if rest.isEmpty then
          .ok { waiting := some ⟨f, .noLetterValue (firstByte c) letters⟩ }
        else FlagRead.one f (.ofList rest)

/-- Reads a long flag without its dashes. -/
def readLong (flags : List Flag) (arg : String) (body : List Char) : Except FlagError FlagRead :=
  match body with
  | [] => .error (.malformed arg)
  | c :: _ =>
    if c = '-' ∨ c = '=' then .error (.malformed arg)
    else
      let name : String := .ofList (body.takeWhile (· != '='))
      match flags.find? (·.name == name) with
      | none => .error (.unknown name)
      | some f =>
        match body.dropWhile (· != '=') with
        | _ :: value => FlagRead.one f (.ofList value)
        | [] =>
          if f.kind = .bool then FlagRead.one f "true"
          else .ok { waiting := some ⟨f, .noValue arg⟩ }

/-- Reads the arguments, of which the first may be the value of a flag that waits for it. -/
def parseFrom (flags : List Flag) : Option Waiting → List String → Except FlagError Parsed
  | none, [] => .ok {}
  | some w, [] => .error w.missing
  | some w, arg :: rest => do
    let v ← w.flag.read arg
    let p ← parseFrom flags none rest
    return { p with given := (w.flag.name, v) :: p.given }
  | none, arg :: rest =>
    let flag (r : Except FlagError FlagRead) : Except FlagError Parsed := do
      let r ← r
      let p ← parseFrom flags r.waiting rest
      return { p with given := r.given ++ p.given }
    match arg.toList with
    | '-' :: '-' :: [] => .ok { args := rest }
    | '-' :: '-' :: body => flag (readLong flags arg body)
    | '-' :: c :: letters => flag (readLetters flags (c :: letters))
    | _ => do
      let p ← parseFrom flags none rest
      return { p with args := arg :: p.args }

/-- Reads the arguments of a command that has these flags. -/
def parse (flags : List Flag) (args : List String) : Except FlagError Parsed :=
  parseFrom flags none args

/-! ## Arguments that are no flags -/

/-- Whether an argument is a flag that takes the next one as its value. -/
def takesNext (flags : List Flag) (arg : String) : Bool :=
  let isBool (f : Option Flag) : Bool := f.any (·.kind == .bool)
  match arg.toList with
  | '-' :: '-' :: name =>
    !name.contains '=' && !isBool (flags.find? (·.name == .ofList name))
  | ['-', c] => c.toNat < 128 && c != '=' && !isBool (flags.find? (·.letter == some c))
  | _ => false

/-- Whether an argument starts with a dash. -/
def startsDash (arg : String) : Bool := arg.toList.head? == some '-'

/-- The arguments that are neither flags nor values of flags. -/
def positional (flags : List Flag) : List String → List String
  | [] => []
  | arg :: rest =>
    if arg = "--" then []
    else if takesNext flags arg then
      match rest with
      | _ :: next :: more => positional flags (next :: more)
      | _ => []
    else if arg ≠ "" ∧ !startsDash arg then arg :: positional flags rest
    else positional flags rest

/-- The arguments without the first one that names a command. -/
def withoutName (flags : List Flag) (name : String) : List String → List String
  | [] => []
  | arg :: rest =>
    if arg = "--" then arg :: rest
    else if takesNext flags arg then
      match rest with
      | value :: more => arg :: value :: withoutName flags name more
      | [] => [arg]
    else if arg = name then rest
    else arg :: withoutName flags name rest

end ReviewQueue.Cli
