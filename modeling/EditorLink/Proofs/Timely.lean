import EditorLink.Proofs.Run

/-! Runs in which time goes by as it does for tasks: those that are ready get their turns in the order in
which they got ready, the clock moves on only once none is left, and it never moves past a timer. -/
namespace EditorLink

def Command.waits : Command → Bool
  | .advance _ => true
  | _ => false

namespace World

/-- It is time for the move. -/
def Due (w : World) : Move → Prop
  | .perform _ c => c.waits = false
  | .turn id => w.schedule.ready.head? = some id
  | .arrive now => w.schedule.ready = [] ∧ w.now ≤ now ∧ ∀ t ∈ w.schedule.timers, now ≤ t.deadline

instance (w : World) : (m : Move) → Decidable (w.Due m)
  | .perform _ c => inferInstanceAs (Decidable (c.waits = false))
  | .turn id => inferInstanceAs (Decidable (w.schedule.ready.head? = some id))
  | .arrive now => inferInstanceAs
    (Decidable (w.schedule.ready = [] ∧ w.now ≤ now ∧ ∀ t ∈ w.schedule.timers, now ≤ t.deadline))

def Timely (w : World) : List Move → Prop
  | [] => True
  | m :: rest => w.Due m ∧ Timely (w.move m) rest

instance decideTimely (w : World) : (moves : List Move) → Decidable (w.Timely moves)
  | [] => inferInstanceAs (Decidable True)
  | m :: rest =>
    have := decideTimely (w.move m) rest
    inferInstanceAs (Decidable (w.Due m ∧ (w.move m).Timely rest))

/-- The same, but any of the ready tasks may be the next one to get its turn. -/
def Ripe (w : World) : Move → Prop
  | .perform _ c => c.waits = false
  | .turn id => id ∈ w.schedule.ready
  | .arrive now => w.schedule.ready = [] ∧ w.now ≤ now ∧ ∀ t ∈ w.schedule.timers, now ≤ t.deadline

def Paced (w : World) : List Move → Prop
  | [] => True
  | m :: rest => w.Ripe m ∧ Paced (w.move m) rest

instance (w : World) : (m : Move) → Decidable (w.Ripe m)
  | .perform _ c => inferInstanceAs (Decidable (c.waits = false))
  | .turn id => inferInstanceAs (Decidable (id ∈ w.schedule.ready))
  | .arrive now => inferInstanceAs
    (Decidable (w.schedule.ready = [] ∧ w.now ≤ now ∧ ∀ t ∈ w.schedule.timers, now ≤ t.deadline))

instance decidePaced (w : World) : (moves : List Move) → Decidable (w.Paced moves)
  | [] => inferInstanceAs (Decidable True)
  | m :: rest =>
    have := decidePaced (w.move m) rest
    inferInstanceAs (Decidable (w.Ripe m ∧ (w.move m).Paced rest))

variable {w : World} {m : Move} {moves : List Move}

theorem Ripe.single (ripe : w.Ripe m) : m.Single := by
  intro number ms same
  subst same
  cases ripe

theorem Due.ripe (due : w.Due m) : w.Ripe m := by
  cases m with
  | perform _ c => exact due
  | turn id => exact List.mem_of_head? due
  | arrive now => exact due

theorem Due.single (due : w.Due m) : m.Single := due.ripe.single

theorem Timely.paced (timely : w.Timely moves) : w.Paced moves := by
  induction moves generalizing w with
  | nil => trivial
  | cons m rest ih => exact ⟨timely.1.ripe,ih timely.2⟩

theorem paced_append (w : World) (first rest : List Move) :
    w.Paced (first ++ rest) ↔ w.Paced first ∧ (w.run first).Paced rest := by
  induction first generalizing w with
  | nil => simp [Paced,run]
  | cons m first ih =>
    simp only [List.cons_append,Paced,ih,and_assoc]
    exact Iff.rfl

theorem timely_append (w : World) (first rest : List Move) :
    w.Timely (first ++ rest) ↔ w.Timely first ∧ (w.run first).Timely rest := by
  induction first generalizing w with
  | nil => simp [Timely,run]
  | cons m first ih =>
    simp only [List.cons_append,Timely,ih,and_assoc]
    exact Iff.rfl

theorem reaches_run {allowed : Move → Prop} (w : World) {moves : List Move} (fine : ∀ m ∈ moves, allowed m) :
    Reaches allowed w (w.run moves) := ⟨moves,fine,rfl⟩

end World
end EditorLink
