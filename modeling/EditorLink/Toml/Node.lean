import EditorLink.Toml.Scan
import EditorLink.Decimal.Binary

/-! The tree of a document: values, tables and arrays of tables, each under its key in the order in
which the keys arrived, and the rules by which keys and headers may add to it. -/
namespace EditorLink.Toml
open Decimal

inductive Scalar where
  | text (s : String)
  | integer (i : Int)
  | float (x : Binary64)
  | boolean (b : Bool)
  | moment
deriving DecidableEq, Repr

/-- A key, the stretch of the document to point at when its value is wrong, and the value. -/
structure Entry (α : Type) where
  key : String
  span : Span
  node : α

/-- How a table came to be: written out by a header, named only on the way of a longer header, made
by a dotted key, or closed by the braces around it. -/
inductive Form where
  | written
  | implied
  | dotted
  | closed
deriving DecidableEq, Repr

inductive Node where
  | scalar (value : Scalar)
  | array (items : List Node)
  | table (form : Form) (entries : List (Entry Node))
  | tables (items : List (List (Entry Node)))

abbrev Entries := List (Entry Node)

/-- One part of a key, with its place. -/
structure Part where
  text : String
  span : Span
deriving DecidableEq, Repr

namespace Entries

def find? (entries : Entries) (key : String) : Option (Entry Node) :=
  List.find? (fun e => e.key = key) entries

def replace (entries : Entries) (key : String) (f : Entry Node → Entry Node) : Entries :=
  entries.map fun e => if e.key = key then f e else e

/-- A change to a table: it sees how the table was made, and may refuse. -/
abbrev Change := Form → Entries → Option Entries

/-- Carries a change to the table that a path leads to, making tables of the given form where there
are none. An array of tables leads to its last table. No path enters a closed table, and a dotted
one does not enter a table that was written out. -/
def descend (form : Form) : List Part → Change → Change
  | [], change, here, entries => change here entries
  | part :: path, change, _, entries =>
    match find? entries part.text with
    | none => do
      let inner ← descend form path change form []
      some (entries ++ [⟨part.text, part.span, .table form inner⟩])
    | some ⟨_, _, .table there inner⟩ =>
      if there = .closed ∨ (form = .dotted ∧ there = .written) then none
      else do
        let inner ← descend form path change there inner
        some (replace entries part.text fun e => { e with node := .table there inner })
    | some ⟨_, _, .tables items⟩ => do
      let last ← items.getLast?
      let last ← descend form path change .written last
      let items := items.dropLast ++ [last]
      some (replace entries part.text fun e => { e with node := .tables items })
    | some _ => none

/-- Adds a new key. A dotted key ends in a table made by dotted keys, a plain one does not. -/
def add (isDotted : Bool) (part : Part) (span : Span) (node : Node) : Change := fun here entries =>
  if decide (here = .dotted) = isDotted ∧ (find? entries part.text).isNone then
    some (entries ++ [⟨part.text, span, node⟩])
  else none

/-- Adds the value of a key that may have several parts, the last one given apart. -/
def insert (path : List Part) (last : Part) (span : Span) (node : Node) : Change :=
  descend .dotted path (add (!path.isEmpty) last span node)

/-- A table header. A table that was only implied becomes a written one, and moves to the end. -/
def openTable (path : List Part) (last : Part) (span : Span) : Change :=
  descend .implied path fun _ entries =>
    match find? entries last.text with
    | none => some (entries ++ [⟨last.text, span, .table .written []⟩])
    | some ⟨_, _, .table .implied inner⟩ =>
      let others := entries.filter fun e => e.key ≠ last.text
      some (others ++ [⟨last.text, span, .table .written inner⟩])
    | some _ => none

/-- A header of an array of tables opens a new last table in it. -/
def openItem (path : List Part) (last : Part) (span : Span) : Change :=
  descend .implied path fun _ entries =>
    match find? entries last.text with
    | none => some (entries ++ [⟨last.text, span, .tables [[]]⟩])
    | some ⟨_, _, .tables items⟩ =>
      some (replace entries last.text fun e =>
        { e with span := ⟨e.span.start, span.stop⟩, node := .tables (items ++ [[]]) })
    | some _ => none

/-- Carries a change to the open section, which then reaches to the given end. -/
def inSection (stop : Nat) : List String → Change → Change
  | [], change, here, entries => change here entries
  | key :: path, change, _, entries => do
    let found ← find? entries key
    let node ← match found.node with
      | .table there inner => do
        let inner ← inSection stop path change there inner
        some (Node.table there inner)
      | .tables items => do
        let last ← items.getLast?
        let last ← inSection stop path change .written last
        some (Node.tables (items.dropLast ++ [last]))
      | _ => none
    let reach (span : Span) : Span := if path.isEmpty then ⟨span.start, stop⟩ else span
    some (replace entries key fun e => { e with span := reach e.span, node := node })

end Entries
end EditorLink.Toml
