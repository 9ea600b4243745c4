import EditorLink.Config.Error
import EditorLink.Decimal.Shortest
import EditorLink.Toml.Document
import EditorLink.Toml.Excerpt

/-! Reading a configuration from a document. Keys that are missing keep their defaults, keys that
are unknown are skipped, and the first value of a wrong kind is reported where it stands. -/
namespace EditorLink
namespace Config
open Toml

inductive Field where
  | editorId
  | stopTimeout
  | pollInterval
  | live
deriving DecidableEq, Repr

namespace Field

def all : List Field := [editorId, stopTimeout, pollInterval, live]

def key : Field → String
  | editorId => "editor_id"
  | stopTimeout => "process_kill_timeout_ms"
  | pollInterval => "kill_poll_interval_ms"
  | live => "live"

def ofKey? (key : String) : Option Field := all.find? fun f => f.key = key

def expected : Field → String
  | editorId => "a string"
  | stopTimeout => "u64"
  | pollInterval => "u64"
  | live => "a boolean"

end Field

inductive Mismatch where
  | kind (found : String) (expected : String)
  | negative (value : Int) (expected : String)
deriving DecidableEq, Repr

def Mismatch.message : Mismatch → String
  | kind found expected => "invalid type: " ++ found ++ ", expected " ++ expected
  | negative value expected =>
    "invalid value: integer `" ++ toString value ++ "`, expected " ++ expected

end Config

namespace Toml

def Scalar.describe : Scalar → String
  | text s => "string " ++ EditorLink.Text.quote s
  | integer i => "integer `" ++ toString i ++ "`"
  | float x => "floating point `" ++ x.text ++ "`"
  | boolean b => "boolean `" ++ (if b then "true" else "false") ++ "`"
  | moment => "map"

def Node.describe : Node → String
  | scalar value => value.describe
  | array _ => "sequence"
  | tables _ => "sequence"
  | table _ _ => "map"

end Toml

namespace Config
open Toml

def millis? (field : Field) : Node → Except Mismatch UInt64
  | .scalar (.integer i) =>
    if 0 ≤ i then .ok (UInt64.ofNat i.toNat) else .error (.negative i field.expected)
  | node => .error (.kind node.describe field.expected)

/-- Sets one field from a value of the kind it asks for. -/
def set? (c : Config) (field : Field) (node : Node) : Except Mismatch Config :=
  match field with
  | .editorId => match node with
    | .scalar (.text s) => .ok { c with editorId := s }
    | _ => .error (.kind node.describe field.expected)
  | .live => match node with
    | .scalar (.boolean b) => .ok { c with live := b }
    | _ => .error (.kind node.describe field.expected)
  | .stopTimeout => do return { c with stopTimeout := ← millis? field node }
  | .pollInterval => do return { c with pollInterval := ← millis? field node }

/-- Goes through the keys in the order of the document. -/
def decode (c : Config) : Entries → Except (Span × Mismatch) Config
  | [] => .ok c
  | e :: rest => match Field.ofKey? e.key with
    | none => decode c rest
    | some field => match c.set? field e.node with
      | .ok c => decode c rest
      | .error mismatch => .error (e.span, mismatch)

def ofDocument (document : String) : Except ConfigError Config :=
  match Toml.read? document with
  | none => .error (.unparsed .malformed)
  | some entries => match decode {} entries with
    | .error (span, mismatch) =>
      .error (.unparsed (.mistyped ((Excerpt.of document span).render mismatch.message)))
    | .ok c => do
      c.validate
      return c

end Config
end EditorLink
