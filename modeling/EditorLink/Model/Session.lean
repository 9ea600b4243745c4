import EditorLink.Model.Basic

/-! A model driven by hand against a clock. -/
namespace EditorLink.Model

inductive Command where
  | advance (ms : Nat)
  | busy (ms : Nat)
  | stall
  | settle
  | failUncache (on : Bool)
  | interrupt
  | update (text : String)
  | uncache

inductive Answer where
  | nothing
  | state (s : ModelState)
  | uncached (result : Except ModelError Unit)

structure Session where
  now : Nat := 0
  model : Model

def perform (s : Session) : Command → Answer × Session
  | .advance ms => (.nothing, { s with now := s.now + ms })
  | .busy ms => (.nothing, { s with model := s.model.busyFor s.now ms })
  | .stall => (.nothing, { s with model := s.model.stall })
  | .settle => (.nothing, { s with model := s.model.settle })
  | .failUncache on => (.nothing, { s with model := { s.model with failsUncache := on } })
  | .interrupt => (.nothing, { s with model := s.model.interrupt })
  | .update text =>
    let (state, model) := s.model.update s.now text
    (.state state, { s with model })
  | .uncache => match s.model.uncache with
    | .ok model => (.uncached (.ok ()), { s with model })
    | .error e => (.uncached (.error e), s)

def runFrom (s : Session) : List Command → List (Answer × Session)
  | [] => []
  | c :: rest =>
    let (a, s) := perform s c
    (a, s) :: runFrom s rest

end EditorLink.Model
