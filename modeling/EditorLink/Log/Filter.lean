import EditorLink.Log.Directive

/-! Filters: several directives together, of which the most specific one decides. -/
namespace EditorLink

/-- No two directives have one target. -/
structure Filter where
  directives : List Directive := []
deriving DecidableEq, Repr

namespace Filter

/-- Takes the place of a directive for the same target. -/
def insert (f : Filter) (d : Directive) : Filter :=
  { directives := f.directives.filter (fun e => e.target ≠ d.target) ++ [d] }

def moreSpecific (best : Option Directive) (d : Directive) : Option Directive :=
  match best with
  | some b => if b.target.length < d.target.length then some d else some b
  | none => some d

/-- Of the directives whose targets start the given one, that with the longest. -/
def decisive? (f : Filter) (target : String) : Option Directive :=
  (f.directives.filter fun d => d.target.toList.isPrefixOf target.toList).foldl moreSpecific none

def admits (f : Filter) (n : Notice) : Bool :=
  ((f.decisive? n.target).bind Directive.limit).any fun limit => limit.covers n.level

/-- Lets errors through and nothing else. -/
def errorsOnly : Filter := { directives := [⟨"", some .error⟩] }

/-- None for a part that is passed over. -/
def readPart (part : String) : Except DirectiveError (Option Directive) :=
  match Directive.read part with
  | .ok d => .ok (some d)
  | .error .torn => .error .torn
  | .error _ => .ok none

/-- Reads directives between commas and passes over those that cannot be read; a crash is passed
on. -/
def read (text : String) : Except DirectiveError Filter := do
  let directives := (← (text.splitOn ",").mapM readPart).filterMap id
  pure (if directives.isEmpty then errorsOnly else directives.foldl insert {})

end Filter
end EditorLink
