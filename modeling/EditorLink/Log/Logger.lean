import EditorLink.Log.Filter

/-! The logger of a program: it is set up once, and then writes the notices its filter lets through,
as plain lines or as records. -/
namespace EditorLink

inductive LogFormat where
  | text
  | record
deriving DecidableEq, Repr

structure Logger where
  filter : Filter
  format : LogFormat
deriving DecidableEq, Repr

structure LoggerRequest where
  directive : String
  format : LogFormat := .text

inductive SetupError where
  | directive (e : DirectiveError)
  | alreadySet
deriving DecidableEq, Repr

/-- A crash has no message. -/
def SetupError.message : SetupError → Option String
  | directive e => e.message
  | alreadySet => some "a global default trace dispatcher has already been set"

namespace Logger

/-- The directive of the request goes on top of those of the environment. Whether it can be read
matters before whether there is a logger yet. -/
def setUp (environment : String) (logger : Option Logger) (r : LoggerRequest) :
    Except SetupError Logger := do
  let filter ← (Filter.read environment).mapError .directive
  let directive ← (Directive.read r.directive).mapError .directive
  match logger with
  | some _ => throw .alreadySet
  | none => pure ⟨filter.insert directive, r.format⟩

/-- The answers to several requests, and the logger that there is afterwards. -/
def setUpAll (environment : String) (logger : Option Logger) :
    List LoggerRequest → List (Except SetupError Unit) × Option Logger
  | [] => ([], logger)
  | r :: rest =>
    match setUp environment logger r with
    | .ok l =>
      let (answers, last) := setUpAll environment (some l) rest
      (.ok () :: answers, last)
    | .error e =>
      let (answers, last) := setUpAll environment logger rest
      (.error e :: answers, last)

def admitted (l : Logger) (notices : List Notice) : List Notice := notices.filter l.filter.admits

end Logger

namespace Notice

def fieldText : String × FieldValue → String
  | (name, value) => " " ++ name ++ "=" ++ value.toText

/-- The random id of a link is written ID. -/
def toText (n : Notice) : String :=
  n.level.name ++ " " ++ n.target ++ ": " ++ n.message ++
    (if n.namesLink then " link_id=ID" else "") ++ String.join (n.fields.map fieldText)

/-- A line break in a value goes out as it is. -/
def lines (n : Notice) : List String := n.toText.splitOn "\n"

end Notice
end EditorLink
