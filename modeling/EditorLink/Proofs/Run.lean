import EditorLink.Link.Tour
import EditorLink.Proofs.Exec
import EditorLink.Proofs.Scheduled

/-! Runs: callers act, tasks get their turns in any order, and the clock moves on. What a script
does between two of its commands is a run of turns and of moves of the clock. -/
namespace EditorLink

inductive Move where
  | perform (number : Nat) (command : Command)
  | turn (task : Nat)
  | arrive (now : Nat)

namespace Move

/-- Nobody acts: a task gets its turn, or time goes by. -/
def Internal : Move → Prop
  | perform _ _ => False
  | turn _ => True
  | arrive _ => True

/-- One thing happens. Waiting for some time lets many tasks have their turns. -/
def Single (m : Move) : Prop := ∀ number ms, m ≠ perform number (.advance ms)

/-- A collaborator is not made to crash. -/
def Spares (site : Site) (m : Move) : Prop := ∀ number, m ≠ perform number (.outside (.crash site true))

theorem Internal.spares {m : Move} (internal : m.Internal) (site : Site) : m.Spares site := by
  intro number same
  subst same
  exact internal

theorem Internal.single {m : Move} (internal : m.Internal) : m.Single := by
  intro number ms same
  subst same
  exact internal

end Move

namespace World

/-- A task that gets its turn leaves the queue. -/
def taken (w : World) (task : Nat) : World :=
  { w with schedule := { w.schedule with ready := w.schedule.ready.erase task } }

def turn (w : World) (task : Nat) : World := poll task (w.taken task)

def move (w : World) : Move → World
  | .perform number command => (w.perform number command).2
  | .turn task => w.turn task
  | .arrive now => Scheduled.arriveAt now w

def run (w : World) (moves : List Move) : World := moves.foldl move w

theorem run_append (w : World) (first rest : List Move) :
    w.run (first ++ rest) = (w.run first).run rest := List.foldl_append

/-- Only allowed moves are made on the way from one world to the other. -/
def Reaches (allowed : Move → Prop) (v w : World) : Prop :=
  ∃ moves, (∀ m ∈ moves, allowed m) ∧ w = v.run moves

instance (allowed : Move → Prop) : Frame (Reaches allowed) where
  refl w := ⟨[],by simp,rfl⟩
  trans := by
    rintro u v w ⟨first,inner,rfl⟩ ⟨rest,outer,rfl⟩
    refine ⟨first ++ rest,?_,(run_append u first rest).symm⟩
    intro m member
    rcases List.mem_append.mp member with h | h
    · exact inner m h
    · exact outer m h

theorem Reaches.mono {allowed more : Move → Prop} {v w : World} (reached : Reaches allowed v w)
    (wider : ∀ m, allowed m → more m) : Reaches more v w := by
  obtain ⟨moves,fine,same⟩ := reached
  exact ⟨moves,fun m member => wider m (fine m member),same⟩

theorem Reaches.anyhow {allowed : Move → Prop} {v w : World} (reached : Reaches allowed v w) :
    Reaches (fun _ => True) v w := reached.mono fun _ _ => trivial

theorem reaches_move {allowed : Move → Prop} (w : World) (m : Move) (fine : allowed m) :
    Reaches allowed w (w.move m) :=
  ⟨[m],by simpa using fine,rfl⟩

abbrev Passes : World → World → Prop := Reaches Move.Internal

theorem passes_turn (w : World) : Passes w (Scheduled.turn w) := by
  rcases queue : w.schedule.ready with _ | ⟨task,rest⟩
  · have same : Scheduled.turn w = w := by
      simp only [Scheduled.turn,Scheduled.schedule,Schedule.next?,queue]
    rw [same]
    exact Frame.refl w
  · have same : Scheduled.turn w = w.move (.turn task) := by
      simp only [Scheduled.turn,Scheduled.schedule,Schedule.next?,queue,move,turn,taken,
        List.erase_cons_head]
      rfl
    rw [same]
    exact reaches_move w (.turn task) trivial

theorem passes_drain (w : World) : Passes w (Scheduled.drain w) :=
  Scheduled.drain_keeps (fun v reached => Frame.trans reached (passes_turn v)) (Frame.refl w)

theorem passes_advance (ms : Nat) (w : World) : Passes w (Scheduled.advance ms w) := by
  apply Scheduled.advance_keeps
  · exact fun v reached => Frame.trans reached (passes_turn v)
  · exact fun now v reached => Frame.trans reached (reaches_move v (.arrive now) trivial)
  · exact Frame.refl w

/-- A step of a script is a run: its command first, and then whatever the tasks have to do. -/
theorem step_run (w : World) (number : Nat) (s : Step Command) :
    ∃ moves, (∀ m ∈ moves, Move.Internal m) ∧
      (w.step number s).2 = w.run (.perform number s.command :: moves) := by
  have after : (w.step number s).2 = if s.settles then Scheduled.drain (w.perform number s.command).2
      else (w.perform number s.command).2 := rfl
  rw [after]
  split
  · exact passes_drain _
  · exact ⟨[],by simp,rfl⟩

theorem run_keeps {R : World → World → Prop} [Frame R] {allowed : Move → Prop}
    (internal : ∀ m, Move.Internal m → allowed m)
    (step : ∀ w m, allowed m → Move.Single m → R w (w.move m)) {v w : World}
    (reached : Reaches allowed v w) : R v w := by
  obtain ⟨moves,fine,rfl⟩ := reached
  have plain (v : World) (quiet : List Move) (inside : ∀ m ∈ quiet, Move.Internal m) :
      R v (v.run quiet) := by
    induction quiet generalizing v with
    | nil => exact Frame.refl v
    | cons m rest ih =>
      have head := inside m List.mem_cons_self
      exact Frame.trans (step v m (internal m head) head.single)
        (ih _ fun k member => inside k (List.mem_cons_of_mem m member))
  induction moves generalizing v with
  | nil => exact Frame.refl v
  | cons m rest ih =>
    -- a move that is not single waits, and that is a run of turns
    have first : R v (v.move m) := by
      by_cases single : Move.Single m
      · exact step v m (fine m List.mem_cons_self) single
      · simp only [Move.Single,Classical.not_forall,Classical.not_not] at single
        obtain ⟨number,ms,rfl⟩ := single
        obtain ⟨moves,inside,same⟩ := passes_advance ms v
        have moved : v.move (.perform number (.advance ms)) = v.run moves := same
        rw [moved]
        exact plain v moves inside
    exact Frame.trans first (ih fun k member => fine k (List.mem_cons_of_mem m member))

/-- Waiting can be told as the turns and moves of the clock that it comes to. -/
theorem Reaches.singly {allowed : Move → Prop} (internal : ∀ m, Move.Internal m → allowed m)
    {v w : World} (reached : Reaches allowed v w) : Reaches (fun m => allowed m ∧ m.Single) v w :=
  run_keeps (R := Reaches fun m => allowed m ∧ m.Single) internal
    (fun _ m fine single => ⟨[m],by simpa using ⟨fine,single⟩,rfl⟩) reached

end World
end EditorLink
