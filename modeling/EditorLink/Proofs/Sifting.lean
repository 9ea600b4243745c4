import EditorLink.Schedule
import EditorLink.Proofs.Weave

/-! Two schedules, one of them without some of the tasks. Only tasks that both have wait for timers, so the clocks
halt at the same places. -/
namespace EditorLink

theorem Sifted.of_forall₂ {α : Type} {R : Bool → α → α → Prop} {as cs : List α}
    (all : List.Forall₂ (R true) as cs) : Sifted R as cs := by
  induction all with
  | nil => exact ⟨[],.nil⟩
  | cons alike _ ih => exact ih.cons_kept alike

namespace Schedule

/-- The same moment, and the same task. -/
structure SameTimer (p : List Bool) (x y : Timer) : Prop where
  deadline : x.deadline = y.deadline
  task : Stands true p x.task y.task

/-- The first schedule is without the tasks that the pattern does not mark. -/
structure Sifts (p : List Bool) (a c : Schedule) : Prop where
  now : a.now = c.now
  ready : Sifted (fun side => Stands side p) a.ready c.ready
  timers : List.Forall₂ (SameTimer p) a.timers c.timers

variable {p : List Bool} {a c : Schedule} {xs ys : List Timer} {i j id : Nat} {is js : List Nat}

theorem sameTimer_filter (f : Nat → Bool) (sets : List.Forall₂ (SameTimer p) xs ys) :
    List.Forall₂ (SameTimer p) (xs.filter fun t => f t.deadline) (ys.filter fun t => f t.deadline) := by
  apply List.rel_filter
  · intro x y both
    simp only [both.deadline]
  · exact sets

theorem sameTimer_apart (sets : List.Forall₂ (SameTimer p) xs ys) (stands : Stands false p j j) :
    ∀ y ∈ ys, y.task ≠ j := by
  induction sets with
  | nil => nofun
  | cons both _ ih => exact List.forall_mem_cons.mpr ⟨both.task.apart stands,ih⟩

namespace Sifts

theorem grow (sifts : Sifts p a c) (q : List Bool) : Sifts (p ++ q) a c where
  now := sifts.now
  ready := sifts.ready.mono fun _ _ _ stands => stands.grow q
  timers := sifts.timers.imp fun _ _ both => ⟨both.deadline,both.task.grow q⟩

theorem deadlines (sifts : Sifts p a c) : a.timers.map Timer.deadline = c.timers.map Timer.deadline := by
  rw [← List.forall₂_eq_eq_eq,List.forall₂_map_left_iff,List.forall₂_map_right_iff]
  exact sifts.timers.imp fun _ _ both => both.deadline

theorem wake_kept (sifts : Sifts p a c) (stands : Stands true p i j) : Sifts p (a.wake i) (c.wake j) := by
  unfold wake
  simp only [sifts.ready.mem_iff stands]
  split
  · exact sifts
  · exact { sifts with ready := sifts.ready.push_kept stands }

theorem wake_other (sifts : Sifts p a c) (stands : Stands false p j j) : Sifts p a (c.wake j) := by
  unfold wake
  split
  · exact sifts
  · exact { sifts with ready := sifts.ready.push_other stands }

theorem wakeAll (sifts : Sifts p a c) (sifted : Sifted (fun side => Stands side p) is js) :
    Sifts p (a.wakeAll is) (c.wakeAll js) := by
  obtain ⟨q,woven⟩ := sifted
  induction woven generalizing a c with
  | nil => exact sifts
  | kept i j stands _ ih => exact ih (sifts.wake_kept stands)
  | other j stands _ ih => exact ih (sifts.wake_other stands)

theorem take_kept (sifts : Sifts p a c) (stands : Stands true p i j) :
    Sifts p { a with ready := a.ready.erase i } { c with ready := c.ready.erase j } := by
  obtain ⟨q,woven⟩ := sifts.ready
  have erased := woven.erase_kept (fun _ _ other => other.same_iff stands) fun _ other => (stands.apart other).symm
  exact { sifts with ready := erased }

theorem take_other (sifts : Sifts p a c) (marked : p[id]? ≠ some true) :
    Sifts p a { c with ready := c.ready.erase id } := by
  obtain ⟨q,woven⟩ := sifts.ready
  have apart (k l : Nat) (stands : Stands true p k l) : l ≠ id := by
    rintro rfl
    exact marked stands.marked
  exact { sifts with ready := woven.erase_other apart }

theorem sleep (sifts : Sifts p a c) (stands : Stands true p i j) (ms : Nat) : Sifts p (a.sleep i ms) (c.sleep j ms) where
  now := sifts.now
  ready := sifts.ready
  timers := List.rel_append sifts.timers (.cons ⟨by rw [sifts.now],stands⟩ .nil)

theorem forget_kept (sifts : Sifts p a c) (stands : Stands true p i j) : Sifts p (a.forget i) (c.forget j) where
  now := sifts.now
  ready := sifts.ready
  timers := List.rel_filter (fun _ _ both => by simp [both.task.same_iff stands]) sifts.timers

/-- No timer is lost with a task that is left out. -/
theorem forget_other (sifts : Sifts p a c) (stands : Stands false p j j) : Sifts p a (c.forget j) := by
  have all := sameTimer_apart sifts.timers stands
  refine { sifts with timers := ?_ }
  rw [Schedule.forget,List.filter_eq_self.mpr fun t member => decide_eq_true (all t member)]
  exact sifts.timers

/-- The first task is the first one still, if it stays. -/
theorem head (sifts : Sifts p a c) (marked : p[id]? = some true) (first : c.ready.head? = some id) :
    a.ready.head? = some (rank p id) := by
  obtain ⟨q,woven⟩ := sifts.ready
  generalize a.ready = as, c.ready = cs at woven first
  cases woven with
  | nil => cases first
  | kept i j stands _ =>
    cases first
    exact congrArg some stands.placed
  | other j stands _ =>
    cases first
    exact absurd (marked.symm.trans stands.marked) nofun

theorem arrive (sifts : Sifts p a c) (now : Nat) : Sifts p (a.arrive now) (c.arrive now) := by
  have due := List.rel_map (fun _ _ both => both.task) (sameTimer_filter (fun d => d ≤ now) sifts.timers)
  have later : Sifts p { a with now, timers := a.timers.filter fun t => ¬ t.deadline ≤ now }
      { c with now, timers := c.timers.filter fun t => ¬ t.deadline ≤ now } :=
    ⟨rfl,sifts.ready,sameTimer_filter (fun d => ¬ d ≤ now) sifts.timers⟩
  exact later.wakeAll (.of_forall₂ due)

end Sifts
end Schedule
end EditorLink
