import ReviewQueue.Store.Basic

/-! Files, and the paths that name them.

Directories are there by the files in them. Two paths name one file when their shortest forms are
equal. -/

namespace ReviewQueue

namespace Path

/-- Takes `.` and empty segments away and resolves `..`; the segments kept are last first. -/
def resolve (rooted : Bool) (kept : List String) : List String → List String
  | [] => kept.reverse
  | segment :: rest =>
    if segment = "" ∨ segment = "." then resolve rooted kept rest
    else if segment = ".." then
      match kept with
      | last :: before =>
        if last = ".." then resolve rooted (segment :: kept) rest else resolve rooted before rest
      | [] => resolve rooted (if rooted then [] else [segment]) rest
    else resolve rooted (segment :: kept) rest

/-- The segments of a path. -/
def segments (path : String) : List String :=
  (path.toList.splitOn '/').map String.ofList

/-- The shortest path that is equivalent. -/
def clean (path : String) : String :=
  let rooted := path.toList.head? = some '/'
  let body := "/".intercalate (resolve rooted [] (segments path))
  if rooted then "/" ++ body else if body = "" then "." else body

/-- A path inside a directory. -/
def join (directory name : String) : String :=
  clean (if directory = "" then name else directory ++ "/" ++ name)

/-- The directory of a path. -/
def directory (path : String) : String :=
  clean (.ofList (path.toList.reverse.dropWhile (· != '/')).reverse)

/-- What follows the last point of the last segment, in a path that has one. -/
def extension (path : String) : String :=
  let last := ((segments path).getLast?.getD "").toList
  if last.contains '.' then .ofList (last.reverse.takeWhile (· != '.')).reverse else ""

/-- The path itself and the directories above it, the outermost first. -/
def chain (path : String) : List String :=
  let path := clean path
  let segs := segments path
  (List.range segs.length).map fun n => clean ("/".intercalate (segs.take (n + 1)))

end Path

/-- What is in a file. -/
inductive FileContent where
  | text (content : String)
  | database (store : Store)
  deriving DecidableEq, Repr

/-- Why a file operation failed. -/
inductive FileCause where
  | missing
  | isDirectory
  | notDirectory
  deriving DecidableEq, Repr

/-- A failed file operation. -/
structure FileError where
  operation : String
  path : String
  cause : FileCause
  deriving DecidableEq, Repr

/-- The wording of a file error. -/
def FileError.message (e : FileError) : String :=
  e.operation ++ " " ++ e.path ++ ": " ++
    match e.cause with
    | .missing => "no such file or directory"
    | .isDirectory => "is a directory"
    | .notDirectory => "not a directory"

/-- All files, by their shortest paths. -/
abbrev Files := List (String × FileContent)

namespace Files

/-- The content of a file. -/
def find? (files : Files) (path : String) : Option FileContent :=
  if path = "" then none else files.lookup (Path.clean path)

/-- The text of a file. -/
def text? (files : Files) (path : String) : Option String :=
  match files.find? path with
  | some (.text content) => some content
  | _ => none

/-- Whether some file is inside a path. -/
def isDirectory (files : Files) (path : String) : Bool :=
  let path := Path.clean path
  path == "." || files.any fun f => ((path ++ "/").toList).isPrefixOf f.1.toList

/-- Whether there is something at a path. -/
def exist (files : Files) (path : String) : Bool :=
  (files.find? path).isSome || (path != "" && files.isDirectory path)

/-- The file that stands where a directory is needed. -/
def blocking? (files : Files) (path : String) : Option String :=
  (Path.chain path).find? fun p => (files.find? p).isSome

/-- Writes a file. -/
def put (files : Files) (path : String) (content : FileContent) : Files :=
  (Path.clean path, content) :: files.filter (·.1 != Path.clean path)

/-- Removes a file. -/
def erase (files : Files) (path : String) : Files :=
  files.filter (·.1 != Path.clean path)

/-- Reads a file as text. -/
def read (files : Files) (path : String) : Except FileError String :=
  match files.find? path with
  | some (.text content) => .ok content
  | some (.database _) => .ok "SQLite format 3\x00"
  | none =>
    if path = "" then .error ⟨"open", path, .missing⟩
    else if files.isDirectory path then .error ⟨"read", path, .isDirectory⟩
    else if (files.blocking? (Path.directory path)).isSome then .error ⟨"open", path, .notDirectory⟩
    else .error ⟨"open", path, .missing⟩

/-- Makes sure that there can be files inside a path. -/
def makeDirectory (files : Files) (path : String) : Except FileError Unit :=
  match files.blocking? path with
  | some p => .error ⟨"mkdir", p, .notDirectory⟩
  | none => .ok ()

end Files
end ReviewQueue
