import EditorLink.Link.Session

/-! A tour through a session: a script is gone through command by command, and after each one an entry tells
what is seen. -/
namespace EditorLink
namespace World

/-- What is seen after a command; reports, updates and notices are those since the one before. -/
structure Entry where
  reply : Reply
  events : List (Event Report)
  pending : List Nat
  time : Nat
  updates : List (Nat × Nat × String)
  current : List (Option Nat)
  links : List (String × Status)
  editors : List (Option (Widget Nat))
  models : List (Model × Bool)
  handles : List (Nat × Promise Verdict)
  lookups : Nat
  notices : List Notice

def waiting (w : World) : List Nat :=
  w.started.filter fun n => w.tasks.any fun t => t.any fun t => t.label = some n

def updatesSince (before after : World) : List (Nat × Nat × String) :=
  after.models.zipIdx.flatMap fun (m, i) =>
    let known := before.models[i]?.elim 0 fun m => m.model.updates.length
    (m.model.updates.drop known).map fun u => (i, u)

def entry (reply : Reply) (before after : World) : Entry where
  reply := reply
  events := Event.inOrder (after.events.drop before.events.length)
  pending := after.waiting
  time := after.now
  updates := updatesSince before after
  current := (List.range after.registries.length).map fun r =>
    (after.current? r).bind fun link => after.links[link]?.map Link.model
  links := after.names.filterMap fun (name, link) => (after.status? link).map fun s => (name, s)
  editors := after.widgets.zipIdx.map fun (x, i) => if after.alive i then some x else none
  models := after.models.map fun m => (m.model, m.model.isActive after.now)
  handles := after.handles.filterMap fun (h, p) => after.promises[p]?.map fun p => (h, p)
  lookups := after.lookups
  notices := after.notices.drop before.notices.length

def step (w : World) (number : Nat) (s : Step Command) : Entry × World :=
  let (reply, after) := w.perform number s.command
  let after := if s.settles then Scheduled.drain after else after
  (entry reply w after, after)

def runFrom (w : World) (number : Nat) : List (Step Command) → List Entry
  | [] => []
  | s :: rest =>
    let (e, w) := w.step number s
    e :: w.runFrom (number + 1) rest

end World

/-- Widgets crash only in a setting that has such widgets. -/
def Setting.admit (s : Setting) : Command → Command
  | .outside (.crash .hook on) => .outside (.crash .hook (on && s.widgetsCrash))
  | c => c

def Setting.run (s : Setting) (steps : List (Step Command)) :
    Except LinkError (List World.Entry) := do
  let w ← s.world
  return w.runFrom 0 (steps.map fun st => { st with command := s.admit st.command })

/-! One tour through a link's life that meets most kinds of notices: creation, updates by hand and by
typing, a failing update, a stop attempt that a teardown supersedes and that runs out of time, a
kill, and a creation that fails. -/
namespace Tour

def setting : Setting := { text := "a\nb" }

def commands : List Command :=
  [.create "a" 0, .create "b" 0, .update "a", .advance 50, .setLive "a" false,
   .outside (.failUpdate 0 (some (.failed "boom"))), .setLive "a" true,
   .outside (.type 0 "c" true), .advance 50, .outside (.stall 0), .stop "a" true, .advance 10,
   .uncache "a", .advance 2000, .kill "a", .outside (.factory { failsUncache := true }),
   .create "c" 0]

def notices : List Notice :=
  match setting.run (commands.map fun command => { command }) with
  | .ok entries => entries.flatMap World.Entry.notices
  | .error _ => []

end Tour
end EditorLink
