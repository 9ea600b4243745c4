/-! What the library notes as it works: each notice with its level, where it comes from, its message
and its fields. -/
namespace EditorLink

inductive Level where
  | error
  | warn
  | info
  | debug
  | trace
deriving DecidableEq, Repr

namespace Level

def severity : Level → Nat
  | error => 1
  | warn => 2
  | info => 3
  | debug => 4
  | trace => 5

def name : Level → String
  | error => "ERROR"
  | warn => "WARN"
  | info => "INFO"
  | debug => "DEBUG"
  | trace => "TRACE"

/-- At least as severe. -/
def covers (limit level : Level) : Bool := level.severity ≤ limit.severity

end Level

inductive Notice where
  | widgetResolved (editor : String)
  | computationDropped
  | stopTimedOut (ms : Nat)
  | listenerAttached (editor : String)
  | listenerDetached (editor : String)
  | liveChanged (live : Bool)
  | updating (bytes : Nat)
  | superseding
  | cacheCleared
  | killed
  | inputSkipped
  | liveUpdateFailed (error : String)
  | created (editor : String)
  | teardownFailed (error : String)
  | killedInTeardown
deriving DecidableEq, Repr

inductive FieldValue where
  | text (s : String)
  | number (n : Nat)
  | flag (b : Bool)
deriving DecidableEq, Repr

def FieldValue.toText : FieldValue → String
  | text s => s
  | number n => toString n
  | flag b => if b then "true" else "false"

namespace Notice

def level : Notice → Level
  | computationDropped => .trace
  | killed => .info
  | created _ => .info
  | inputSkipped => .warn
  | liveUpdateFailed _ => .warn
  | teardownFailed _ => .warn
  | killedInTeardown => .warn
  | _ => .debug

def target : Notice → String
  | widgetResolved _ => "tablink_core::editor"
  | computationDropped => "tablink_core::cancel"
  | stopTimedOut _ => "tablink::shutdown"
  | created _ => "tablink::registry"
  | teardownFailed _ => "tablink::registry"
  | killedInTeardown => "tablink::registry"
  | _ => "tablink::orchestrator"

def message : Notice → String
  | widgetResolved _ => "Resolved editor widget"
  | computationDropped => "Cancelable computation dropped"
  | stopTimedOut _ => "Model still active at kill timeout"
  | listenerAttached _ => "Attached input listener"
  | listenerDetached _ => "Detached input listener"
  | liveChanged _ => "Live mode changed"
  | updating _ => "Updating model"
  | superseding => "Superseding in-flight stop attempt"
  | cacheCleared => "Cleared model cache"
  | killed => "Killed editor link"
  | inputSkipped => "Editor input outside a tokio runtime, live update skipped"
  | liveUpdateFailed _ => "Live update failed"
  | created _ => "Created editor link"
  | teardownFailed _ => "Initial teardown failed, discarding link"
  | killedInTeardown => "Link killed during initial teardown"

/-- Notices about a link name it first; those of a widget, a promise or a stop attempt do not know
of any link. -/
def namesLink : Notice → Bool
  | widgetResolved _ => false
  | computationDropped => false
  | stopTimedOut _ => false
  | _ => true

def fields : Notice → List (String × FieldValue)
  | widgetResolved editor => [("editor_id", .text editor)]
  | stopTimedOut ms => [("timeout_ms", .number ms)]
  | listenerAttached editor => [("editor_id", .text editor)]
  | listenerDetached editor => [("editor_id", .text editor)]
  | liveChanged live => [("live", .flag live)]
  | updating bytes => [("chars", .number bytes)]
  | liveUpdateFailed error => [("error", .text error)]
  | created editor => [("editor_id", .text editor)]
  | teardownFailed error => [("error", .text error)]
  | _ => []

end Notice
end EditorLink
