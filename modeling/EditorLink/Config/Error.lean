import EditorLink.Config.Basic
import EditorLink.Text.Quoted

/-! Why a configuration cannot be had, and where two paths name the same place. -/
namespace EditorLink

/-- The parts of a path that count: the root, a leading `.`, and every other part but `.`. -/
def pathParts (path : String) : List String :=
  match path.splitOn "/" with
  | [] => []
  | first :: others =>
    let rest := others.filter fun p => p ≠ "" ∧ p ≠ "."
    if first = "" then (if others.isEmpty then rest else "/" :: rest) else first :: rest

inductive DocumentFault where
  | malformed
  | mistyped (report : String)
deriving DecidableEq, Repr

inductive ConfigError where
  | unreadable (path : String) (cause : String)
  | unparsed (fault : DocumentFault)
  | invalid (field : String) (demand : String)
deriving Repr

namespace ConfigError

def broken (rule : Config.Rule) : ConfigError := .invalid rule.field rule.demand

def message : ConfigError → String
  | unreadable path cause => "failed to read " ++ Text.quote path ++ ": " ++ cause
  | unparsed .malformed => "failed to parse config: malformed document"
  | unparsed (.mistyped report) => "failed to parse config: " ++ report
  | invalid field demand => "invalid value for " ++ field ++ ": " ++ demand

/-- Paths are the same when their parts are. -/
def same : ConfigError → ConfigError → Bool
  | unreadable p c, unreadable q d => pathParts p = pathParts q ∧ c = d
  | unparsed f, unparsed g => f = g
  | invalid f d, invalid g e => f = g ∧ d = e
  | _, _ => false

end ConfigError

/-- A configuration that keeps every rule, or the first rule it breaks. -/
def Config.validate (c : Config) : Except ConfigError Unit :=
  match c.firstBroken? with
  | some rule => .error (.broken rule)
  | none => .ok ()

/-- A valid configuration keeps every rule. -/
theorem Config.holds_of_valid {c : Config} (valid : c.validate = .ok ()) (r : Config.Rule) : r.Holds c := by
  unfold validate at valid
  split at valid
  · cases valid
  · rename_i none
    have listed : r ∈ Rule.all := by cases r <;> decide
    simpa using List.find?_eq_none.mp none r listed

theorem Config.valid_of_holds {c : Config} (holds : ∀ r : Config.Rule, r.Holds c) : c.validate = .ok () := by
  have none : c.firstBroken? = none := List.find?_eq_none.mpr fun r _ => by simpa using holds r
  rw [validate,none]

theorem Config.positive_of_valid {c : Config} (valid : c.validate = .ok ()) :
    0 < c.pollInterval.toNat ∧ c.pollInterval.toNat ≤ c.stopTimeout.toNat := by
  have positive : c.pollInterval ≠ 0 := holds_of_valid valid .pollPositive
  have within : c.pollInterval ≤ c.stopTimeout := holds_of_valid valid .pollWithinTimeout
  exact ⟨Nat.pos_of_ne_zero fun zero => positive (UInt64.toNat_inj.mp zero),within⟩

end EditorLink
