import EditorLink.Config.Read

/-! Configuration files: the folder a process starts in, what a path leads to, where the
configuration is looked for, and loading it. -/
namespace EditorLink

inductive Content where
  | file (bytes : ByteArray)
  | folder

/-- The names that lead there: from the root if `/` comes first, else from the starting folder. Each
`..` stands in front and leads one folder above the start. -/
abbrev Place := List String

namespace Place

/-- Where a path starts. -/
def start (path : String) : Place := if path.startsWith "/" then ["/"] else []

/-- The root, the starting folder and all above it. -/
def isOutermost (place : Place) : Bool := place = ["/"] || place.all (· = "..")

/-- One folder up; the root has none above it. -/
def up (place : Place) : Place :=
  if place = ["/"] then place else if place.isOutermost then place ++ [".."] else place.dropLast

end Place

/-- What is known beside the outermost folders. -/
abbrev Storage := List (Place × Content)

namespace Storage

def find? (storage : Storage) (place : Place) : Option Content :=
  if place.isOutermost then some .folder
  else (List.find? (fun e => e.1 = place) storage).map Prod.snd

def put (storage : Storage) (place : Place) (content : Content) : Storage :=
  storage.filter (fun e => e.1 ≠ place) ++ [(place, content)]

/-- Goes on by one name, and makes the folder of that name where there is nothing. -/
def enter : Storage × Place → String → Storage × Place
  | (storage, place), name =>
    if name = ".." then (storage, place.up)
    else
      let inner := place ++ [name]
      (if (storage.find? inner).isSome then storage else storage.put inner .folder, inner)

/-- Puts something at a path, with the folders on the way. -/
def create (storage : Storage) (path : String) (content : Content) : Storage :=
  let names := (path.splitOn "/").filter fun p => p ≠ "" ∧ p ≠ "."
  let (storage, place) := names.dropLast.foldl enter (storage, .start path)
  match names.getLast? with
  | none => storage
  | some name => if name = ".." then storage else storage.put (place ++ [name]) content

/-- One name of a path leads on from a folder only; an empty name or `.` stays there. -/
def step (storage : Storage) (place : Place) (name : String) : Option Place :=
  match storage.find? place with
  | some .folder =>
    if name = "" ∨ name = "." then some place
    else if name = ".." then some place.up
    else (storage.find? (place ++ [name])).map fun _ => place ++ [name]
  | _ => none

/-- How many bytes a path may have. -/
def longestPath : Nat := 4095

/-- What a path leads to, if it leads anywhere. -/
def resolve? (storage : Storage) (path : String) : Option Content :=
  if path = "" ∨ path.contains '\x00' ∨ longestPath < path.utf8ByteSize then none
  else ((path.splitOn "/").foldlM (step storage) (.start path)).bind storage.find?

end Storage

/-- The environment's say on where the configuration is. -/
structure Environment where
  explicit : Option ByteArray
  home : String

namespace Config

def join (folder name : String) : String :=
  if folder.endsWith "/" then folder ++ name else folder ++ "/" ++ name

/-- A path named outright wins when it is text; otherwise the home folder has the configuration. -/
def path (env : Environment) : String :=
  match env.explicit.bind String.fromUTF8? with
  | some path => path
  | none => join env.home ".tablink/config.toml"

/-- Defaults where there is nothing; a folder, or bytes that are no text, cannot be read. -/
def load (storage : Storage) (path : String) : Except ConfigError Config :=
  match storage.resolve? path with
  | none => .ok {}
  | some .folder => .error (.unreadable path "Is a directory (os error 21)")
  | some (.file bytes) => match String.fromUTF8? bytes with
    | none => .error (.unreadable path "stream did not contain valid UTF-8")
    | some document => ofDocument document

def loadDefault (storage : Storage) (env : Environment) : Except ConfigError Config :=
  load storage (path env)

end Config
end EditorLink
