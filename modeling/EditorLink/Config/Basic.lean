import EditorLink.Duration
import EditorLink.Text.Classes

/-! Settings of a link: which editor it serves, how long a stop attempt may take, how often the
model is asked in the meantime, and whether typing starts updates. -/
namespace EditorLink

structure Config where
  editorId : String := "editor"
  stopTimeout : UInt64 := 2000
  pollInterval : UInt64 := 10
  live : Bool := true
deriving DecidableEq, Repr

namespace Config

inductive Change where
  | editorId (id : String)
  | live (on : Bool)
  | stopTimeout (d : Duration)
  | pollInterval (d : Duration)

/-- Spans of time are kept in whole milliseconds. -/
def apply (c : Config) : Change → Config
  | .editorId id => { c with editorId := id }
  | .live on => { c with live := on }
  | .stopTimeout d => { c with stopTimeout := d.toMillis }
  | .pollInterval d => { c with pollInterval := d.toMillis }

def timeout (c : Config) : Duration := .ofMillis c.stopTimeout

def interval (c : Config) : Duration := .ofMillis c.pollInterval

@[simp] theorem timeout_toMillis (c : Config) : c.timeout.toMillis = c.stopTimeout :=
  Duration.toMillis_ofMillis c.stopTimeout

@[simp] theorem interval_toMillis (c : Config) : c.interval.toMillis = c.pollInterval :=
  Duration.toMillis_ofMillis c.pollInterval

/-- What every usable configuration satisfies, in the order in which it is checked. -/
inductive Rule where
  | idNotBlank
  | timeoutPositive
  | pollPositive
  | pollWithinTimeout
deriving DecidableEq, Repr

namespace Rule

def all : List Rule := [idNotBlank, timeoutPositive, pollPositive, pollWithinTimeout]

def Holds (c : Config) : Rule → Prop
  | idNotBlank => Text.allBlank c.editorId = false
  | timeoutPositive => c.stopTimeout ≠ 0
  | pollPositive => c.pollInterval ≠ 0
  | pollWithinTimeout => c.pollInterval ≤ c.stopTimeout

instance (c : Config) : (r : Rule) → Decidable (r.Holds c)
  | idNotBlank => inferInstanceAs (Decidable (_ = false))
  | timeoutPositive => inferInstanceAs (Decidable (_ ≠ _))
  | pollPositive => inferInstanceAs (Decidable (_ ≠ _))
  | pollWithinTimeout => inferInstanceAs (Decidable (_ ≤ _))

def field : Rule → String
  | idNotBlank => "editor_id"
  | timeoutPositive => "process_kill_timeout_ms"
  | pollPositive => "kill_poll_interval_ms"
  | pollWithinTimeout => "kill_poll_interval_ms"

def demand : Rule → String
  | idNotBlank => "must not be empty"
  | timeoutPositive => "must be greater than 0"
  | pollPositive => "must be greater than 0"
  | pollWithinTimeout => "must not exceed process_kill_timeout_ms"

end Rule

def firstBroken? (c : Config) : Option Rule := Rule.all.find? fun r => ¬ r.Holds c

end Config
end EditorLink
