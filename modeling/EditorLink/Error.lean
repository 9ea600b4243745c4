import EditorLink.Config.Error

/-! Everything that can go wrong with a link, and what is said about it. -/
namespace EditorLink

inductive ModelError where
  | interrupted
  | failed (message : String)
deriving DecidableEq, Repr

def ModelError.message : ModelError → String
  | interrupted => "update interrupted"
  | failed message => message

inductive LinkError where
  | alreadyExists
  | killed
  | stopTimedOut (ms : Nat)
  | superseded
  | uncache (reason : String)
  | editorUnavailable (id : String)
  | model (cause : ModelError)
  | config (cause : ConfigError)
  | lockPoisoned
deriving Repr

namespace LinkError

def message : LinkError → String
  | alreadyExists => "Only one live link instance can exist at a time"
  | killed => "This link instance has been killed and cannot be used any longer"
  | stopTimedOut ms =>
    "Attempt to stop the current running update process timed out after " ++ toString ms ++ "ms"
  | superseded => "Stop attempt was superseded by a newer attempt"
  | uncache reason => "Could not uncache editor object model.\nReason:\n" ++ reason
  | editorUnavailable id => "Editor widget not available: " ++ id
  | model cause => "Model error: " ++ cause.message
  | config cause => "Configuration error: " ++ cause.message
  | lockPoisoned => "Link lock poisoned"

/-- A failed teardown carries the text of what made it fail. -/
def uncacheBecause (cause : LinkError) : LinkError := uncache cause.message

/-- The text of the error underneath, where there is one. -/
def cause? : LinkError → Option String
  | model cause => some cause.message
  | config cause => some cause.message
  | _ => none

def isLifecycle : LinkError → Bool
  | alreadyExists => true
  | killed => true
  | _ => false

def isTimeout : LinkError → Bool
  | stopTimedOut _ => true
  | _ => false

def same : LinkError → LinkError → Bool
  | alreadyExists, alreadyExists => true
  | killed, killed => true
  | stopTimedOut m, stopTimedOut n => m = n
  | superseded, superseded => true
  | uncache r, uncache s => r = s
  | editorUnavailable i, editorUnavailable j => i = j
  | model e, model f => e = f
  | config e, config f => e.same f
  | lockPoisoned, lockPoisoned => true
  | _, _ => false

end LinkError
end EditorLink
