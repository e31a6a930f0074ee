import ReviewQueue.Cli.Flag
import ReviewQueue.Text.Distance

/-! The commands, and which of them the arguments name.

The names of a command may stand between its flags. At each level the first argument that is neither
a flag nor the value of one names the next command, if there is one of that name. -/

namespace ReviewQueue.Cli

/-- The commands. -/
inductive Command where
  | root
  | version
  | mcp
  | help
  | completion
  | config
  | configInit
  | configShow
  | configEdit
  | submission
  | submissionList
  | submissionShow
  | submissionImport
  | serve
  | serveStart
  | serveStop
  | serveStatus
  | review
  deriving DecidableEq, Repr

namespace Command

/-- The name of a command among its siblings. -/
def name : Command → String
  | .root => "rq"
  | .version => "version"
  | .mcp => "mcp"
  | .help => "help"
  | .completion => "completion"
  | .config => "config"
  | .configInit => "init"
  | .configShow => "show"
  | .configEdit => "edit"
  | .submission => "submission"
  | .submissionList => "list"
  | .submissionShow => "show"
  | .submissionImport => "import"
  | .serve => "serve"
  | .serveStart => "start"
  | .serveStop => "stop"
  | .serveStatus => "status"
  | .review => "review"

/-- Another name of a command. -/
def aliasName? : Command → Option String
  | .submission => some "sub"
  | .submissionList => some "ls"
  | _ => none

/-- The commands under a command. -/
def children : Command → List Command
  | .root => [.config, .mcp, .review, .serve, .submission, .version, .help, .completion]
  | .config => [.configInit, .configShow, .configEdit]
  | .submission => [.submissionList, .submissionShow, .submissionImport]
  | .serve => [.serveStart, .serveStop, .serveStatus]
  | _ => []

/-- The flags of every command. -/
def globalFlags : List Flag :=
  [⟨"verbose", .bool, some 'v'⟩, ⟨"dry-run", .bool, some 'n'⟩, ⟨"config", .text, none⟩]

/-- The flags of a command of its own. -/
def ownFlags : Command → List Flag
  | .configInit => [⟨"force", .bool, none⟩]
  | .submissionList => [⟨"project", .text, none⟩, ⟨"batch", .text, none⟩, ⟨"status", .text, none⟩]
  | .serve | .serveStart | .serveStop | .serveStatus => [⟨"port", .int, some 'p'⟩]
  | .review =>
    [⟨"project", .text, none⟩, ⟨"batch", .text, none⟩, ⟨"status", .text, none⟩,
     ⟨"feedback", .text, none⟩, ⟨"part", .text, none⟩, ⟨"draft", .bool, none⟩,
     ⟨"once", .bool, none⟩]
  | _ => []

/-- The flags that a command knows while it is looked up. -/
def flags (c : Command) : List Flag := c.ownFlags ++ globalFlags

/-- The flag that asks for help, which a command knows once it is found. -/
def helpFlag : Flag := ⟨"help", .bool, some 'h'⟩

/-- The flags that have to be given, in order of their names. -/
def required : Command → List String
  | .submissionList | .review => ["batch", "project"]
  | _ => []

/-- Whether a command does something by itself. -/
def isRunnable : Command → Bool
  | .root | .submission | .help | .completion => false
  | _ => true

end Command

/-- How many arguments a command takes. -/
inductive Arity where
  | any
  | exactly (n : Nat)
  | atMost (n : Nat)
  deriving DecidableEq, Repr

/-- Whether a number of arguments is right. -/
def Arity.admits : Arity → Nat → Bool
  | .any, _ => true
  | .exactly n, k => k == n
  | .atMost n, k => decide (k ≤ n)

/-- What is said about a wrong number of arguments. -/
def Arity.refusal (received : Nat) : Arity → String
  | .any => ""
  | .exactly n =>
    "accepts " ++ Text.ofInt n ++ " arg(s), received " ++ Text.ofInt received
  | .atMost n =>
    "accepts at most " ++ Text.ofInt n ++ " arg(s), received " ++ Text.ofInt received

namespace Command

/-- How many arguments a command takes. -/
def arity : Command → Arity
  | .submissionShow | .submissionImport => .exactly 1
  | .review => .atMost 1
  | _ => .any

/-- The command of a name under a command. -/
def child? (c : Command) (name : String) : Option Command :=
  c.children.find? fun d => d.name == name || d.aliasName? == some name

/-- The command that the arguments name, and the arguments without its names. Commands are nested
at most `depth` deep. -/
def locate : Nat → Command → List String → Command × List String
  | 0, c, args => (c, args)
  | depth + 1, c, args =>
    match positional c.flags args with
    | [] => (c, args)
    | name :: _ =>
      match c.child? name with
      | some d => locate depth d (withoutName c.flags name args)
      | none => (c, args)

/-- Whether a command is suggested for a name: its own name is similar, or starts like it. -/
def isSimilar (typed : String) (c : Command) : Bool :=
  let typed := typed.toLower
  decide (Text.distance typed.toUTF8.toList c.name.toUTF8.toList ≤ 2) ||
    typed.toList.isPrefixOf c.name.toList

/-- The names that are suggested for one that no command has. -/
def suggestions (typed : String) : List String :=
  ((Command.root.children.filter (· != .help)).filter (isSimilar typed)).map name

/-- What is said about a name that no command has. -/
def unknownText (typed : String) : String :=
  let lines := (suggestions typed).map fun s => "\t" ++ s ++ "\n"
  "unknown command " ++ Text.quoted typed ++ " for \"rq\"" ++
    (if lines.isEmpty then "" else "\n\nDid you mean this?\n" ++ String.join lines)

/-- A name that no command has. -/
structure Unknown where
  typed : String
  deriving DecidableEq, Repr

/-- Finds the command that the arguments name. -/
def find (args : List String) : Except Unknown (Command × List String) :=
  match locate 3 .root args with
  | (.root, args) =>
    match positional Command.root.flags args with
    | typed :: _ => .error ⟨typed⟩
    | [] => .ok (.root, args)
  | found => .ok found

end Command
end ReviewQueue.Cli
