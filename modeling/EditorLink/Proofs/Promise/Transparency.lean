import EditorLink.Proofs.Promise.Cause
import EditorLink.Proofs.Promise.Draining
import EditorLink.Proofs.Promise.Omission

/-! Observing is transparent: whoever only looks, or only holds a handle, changes nothing for the others. -/
namespace EditorLink

namespace Scheduled
variable {σ : Type} [Scheduled σ]

theorem turnsUpTo_of_idle {s : σ} (idle : (schedule s).ready = []) (n : Nat) : turnsUpTo n s = s := by
  cases n with
  | zero => rfl
  | succ n => rw [turnsUpTo,if_pos (List.isEmpty_iff.mpr idle)]

/-- It does not matter how many turns more than enough a drain has. -/
theorem turnsUpTo_unique {s : σ} {m n : Nat} (one : (schedule (turnsUpTo m s)).ready = [])
    (other : (schedule (turnsUpTo n s)).ready = []) : turnsUpTo m s = turnsUpTo n s := by
  induction m generalizing s n with
  | zero => exact (turnsUpTo_of_idle one n).symm
  | succ m ih =>
    cases n with
    | zero => exact turnsUpTo_of_idle other _
    | succ n =>
      rw [turnsUpTo] at one ⊢
      rw [turnsUpTo] at other ⊢
      by_cases idle : (schedule s).ready.isEmpty
      · rw [if_pos idle,if_pos idle]
      · rw [if_neg idle] at one other ⊢
        rw [if_neg idle]
        exact ih one other

end Scheduled

namespace Promise.Session
variable {α : Type} {out : Nat → Bool} {p : List Bool} {v w : Session α} {number : Nat}

theorem turnsUpTo_first {s : Session α} {id : Nat} {rest : List Nat} (queue : s.schedule.ready = id :: rest) (n : Nat) :
    Scheduled.turnsUpTo (n + 1) s = Scheduled.turnsUpTo n (s.turn id) := by
  have busy : ¬ (Scheduled.schedule s).ready.isEmpty := fun idle => by
    have empty : s.schedule.ready = [] := List.isEmpty_iff.mp idle
    rw [queue] at empty
    cases empty
  rw [Scheduled.turnsUpTo,if_neg busy,turn_first queue]

/-- In the place of what is left out nothing happens, but the tasks have their turns all the same. -/
def idled (out : Nat → Bool) (number : Nat) : List (Step (Command α)) → List (Step (Command α))
  | [] => []
  | st :: rest => (if out number then { st with command := .advance 0 } else st) :: idled out (number + 1) rest

/-- What a script may do without. -/
def AllowsScript (out : Nat → Bool) (s : Session α) (number : Nat) : List (Step (Command α)) → Prop
  | [] => True
  | st :: rest =>
    (if out number then st.command.Spare out else st.command.waits = true ∨ st.command.Firm out s) ∧
      AllowsScript out (s.step number st).2 (number + 1) rest

instance decideAllowsScript (out : Nat → Bool) (s : Session α) (number : Nat) :
    (steps : List (Step (Command α))) → Decidable (AllowsScript out s number steps)
  | [] => isTrue trivial
  | st :: rest =>
    have := decideAllowsScript out (s.step number st).2 (number + 1) rest
    inferInstanceAs (Decidable ((if out number then st.command.Spare out else
      st.command.waits = true ∨ st.command.Firm out s) ∧ AllowsScript out (s.step number st).2 (number + 1) rest))

namespace Thins

theorem turnsUpTo (thins : Thins out p v w) (n : Nat) :
    ∃ m, Thins out p (Scheduled.turnsUpTo m v) (Scheduled.turnsUpTo n w) := by
  induction n generalizing v w with
  | zero => exact ⟨0,thins⟩
  | succ n ih =>
    cases queue : w.schedule.ready with
    | nil =>
      rw [Scheduled.turnsUpTo_of_idle queue]
      exact ⟨0,thins⟩
    | cons id rest =>
      rw [turnsUpTo_first queue]
      by_cases marked : p[id]? = some true
      · obtain ⟨m,after⟩ := ih (thins.turn marked)
        have first := thins.schedule.head marked (queue ▸ rfl)
        obtain ⟨others,queue⟩ := List.head?_eq_some_iff.mp first
        refine ⟨m + 1,?_⟩
        rw [turnsUpTo_first queue]
        exact after
      · exact ih (thins.turn_other marked)

theorem drain (thins : Thins out p v w) (one : AllHomed v) (other : AllHomed w) :
    Thins out p (Scheduled.drain v) (Scheduled.drain w) := by
  obtain ⟨m,after⟩ := thins.turnsUpTo (Scheduled.turns w)
  obtain ⟨_,homed⟩ := one
  obtain ⟨_,homed'⟩ := other
  have idle := after.seenAlike.idle homed'.drain
  have same : Scheduled.turnsUpTo m v = Scheduled.drain v := Scheduled.turnsUpTo_unique idle homed.drain
  rw [← same]
  exact after

theorem runTo (target now : Nat) (w : Session α) : ∀ v, Thins out p v w → AllHomed v → AllHomed w →
    Thins out p (Scheduled.runTo target now v) (Scheduled.runTo target now w) := by
  fun_induction Scheduled.runTo target now w with
  | case1 now w early idle stop ih =>
    intro v thins one other
    have drained := thins.drain one other
    have same : (Scheduled.drain v).schedule.nextStop now target = stop := by
      have stops : (Scheduled.drain w).schedule.nextStop now target = stop := rfl
      rw [← stops,Schedule.nextStop,Schedule.nextStop,drained.schedule.deadlines]
    have halts : Scheduled.runTo target now v =
        Scheduled.runTo target stop (Scheduled.arriveAt stop (Scheduled.drain v)) := by
      rw [Scheduled.runTo,dif_pos early,← same]
      rfl
    rw [halts]
    exact ih _ (drained.arrive stop) (one.settle.arrive stop) (other.settle.arrive stop)
  | case2 now w late =>
    intro v thins _ _
    rw [Scheduled.runTo,dif_neg late]
    exact thins

theorem advance (thins : Thins out p v w) (one : AllHomed v) (other : AllHomed w) (ms : Nat) :
    Thins out p (Scheduled.advance ms v) (Scheduled.advance ms w) := by
  have now : (Scheduled.schedule v).now = (Scheduled.schedule w).now := thins.schedule.now
  rw [Scheduled.advance,Scheduled.advance,now]
  exact runTo _ _ w v thins one other

end Thins

theorem advance_nothing (s : Session α) : Scheduled.advance 0 s = s := by
  rw [Scheduled.advance,Nat.add_zero,Scheduled.runTo,dif_neg (Nat.lt_irrefl _)]

/-- A step of a script does the same for everyone else whether observers are left out or not. -/
theorem Thins.step (thins : Thins out p v w) (one : AllHomed v) (other : AllHomed w) (free : v.Unused number)
    (free' : w.Unused number) (st : Step (Command α))
    (allows : if out number then st.command.Spare out else st.command.waits = true ∨ st.command.Firm out w) :
    ∃ q, Thins out q (v.step number (if out number then { st with command := .advance 0 } else st)).2
      (w.step number st).2 := by
  have settles {q : List Bool} {x y : Session α} (after : Thins out q x y) (one : AllHomed x) (other : AllHomed y) :
      Thins out q (if st.settles then Scheduled.drain x else x) (if st.settles then Scheduled.drain y else y) := by
    split
    · exact after.drain one other
    · exact after
  rw [step_eq,step_eq]
  split at allows
  next left =>
    have idle : v.move (.perform number (.advance 0)) = v := advance_nothing v
    rw [if_pos left,idle]
    exact ⟨_,settles (thins.perform_other left allows) one (other.move free')⟩
  next stays =>
    rw [if_neg stays]
    have stays : out number = false := Bool.eq_false_iff.mpr stays
    rcases allows with waits | firm
    · cases command : st.command with
      | advance ms =>
        exact ⟨p,settles (thins.advance one other ms) (one.advance ms) (other.advance ms)⟩
      | _ => rw [command] at waits; cases waits
    · exact ⟨_,settles (thins.perform free.fresh stays firm) (one.move free) (other.move free')⟩

theorem thins_after (steps : List (Step (Command α))) (thins : Thins out p v w) (one : AllHomed v)
    (other : AllHomed w)
    (free : ∀ k, number ≤ k → v.Unused k) (free' : ∀ k, number ≤ k → w.Unused k)
    (allows : AllowsScript out w number steps) :
    ∃ q, Thins out q (v.after number (idled out number steps)) (w.after number steps) := by
  induction steps generalizing p v w number with
  | nil => exact ⟨p,thins⟩
  | cons st rest ih =>
    have mine := free number (Nat.le_refl _)
    have mine' := free' number (Nat.le_refl _)
    obtain ⟨q,after⟩ := thins.step one other mine mine' st allows.1
    exact ih after (allHomed_step one mine _) (allHomed_step other mine' _) (step_leads _ _ _ free).2
      (step_leads _ _ _ free').2
      allows.2

/-- Leave out calls for outcomes with their aborts, drops of handles, and clones that are neither cancelled nor continued
by. Whatever the order of turns is, at every moment the promises, what their computations have still to do, and all that
the other observers are told and when are the same, and so is the order in which tasks get ready. The same holds of
scripts, which drain their own queues. Nothing cancels a promise but one that is to cancel it. -/
theorem observing_is_transparent (out : Nat → Bool) :
    (∀ first rest : List (Move α), ((first ++ rest).filterMap Move.number?).Nodup → AllowsAll out {} (first ++ rest) →
      without out [] {} first <+: without out [] {} (first ++ rest) ∧
      SeenAlike out (({} : Session α).through (without out [] {} first)) (({} : Session α).through first) ∧
      (Timely {} first → Timely {} (without out [] {} first))) ∧
    (∀ steps : List (Step (Command α)), AllowsScript out {} 0 steps →
      SeenAlike out (({} : Session α).after 0 (idled out 0 steps)) (({} : Session α).after 0 steps)) ∧
    ∀ (s : Session α) (m : Move α) (promise : Nat), Single m → (s.move m).Cancelled promise →
      s.Cancelled promise ∨ s.Cancels promise m := by
  refine ⟨fun first rest numbered allows => ?_,fun steps allows => ?_,fun s m promise => cancelled_by⟩
  · rw [List.filterMap_append] at numbered
    obtain ⟨⟨q,thins⟩,timely⟩ := thins_through (thins_start out) (allowsAll_append first rest allows).1
      (List.nodup_append.mp numbered).1 fun n _ => unused_start n
    exact ⟨without_first out [] {} first rest,thins.seenAlike,timely⟩
  · have unused (k : Nat) (_ : 0 ≤ k) : ({} : Session α).Unused k := unused_start k
    obtain ⟨q,thins⟩ := thins_after steps (thins_start out) allHomed_start allHomed_start unused unused allows
    exact thins.seenAlike

/-- WillCancel for outcomes, one of them by a clone of its own, an abort, and drops of both handles. -/
def onlookers (n : Nat) : Bool := n ∈ [1,2,3,6,7,8]

/-- A computation of five milliseconds with a continuation, an outcome that stays, and the onlookers. -/
def watchedRun : List (Move Nat) :=
  [.perform 0 (.spawn [.sleep 5] (some 7)),.perform 1 (.outcome 0),.perform 2 (.clone 0),.perform 3 (.outcome 2),
    .perform 4 (.continuation 0 none false),.perform 5 (.outcome 0),.turn 0,.turn 1,.turn 2,.turn 3,.turn 4,
    .perform 6 (.abort 1),.perform 7 (.drop 2),.perform 8 (.drop 0),.turn 1,.arrive 5,.turn 0,.turn 1,.turn 2,.turn 3,
    .turn 4]

def watchedScript : List (Step (Command Nat)) :=
  [⟨.spawn [.sleep 5] (some 7),false⟩,⟨.outcome 0,false⟩,⟨.clone 0,false⟩,⟨.outcome 2,false⟩,
    ⟨.continuation 0 none false,false⟩,⟨.outcome 0,true⟩,⟨.abort 1,false⟩,⟨.drop 2,false⟩,⟨.drop 0,true⟩,
    ⟨.advance 9,true⟩]

/-- A session with one handle. -/
def held : Session Nat := ({} : Session Nat).through [.perform 0 (.spawn [.sleep 5] (some 7))]

theorem onlookers_are_transparent :
    ((watchedRun.filterMap Move.number?).Nodup ∧ AllowsAll onlookers {} watchedRun ∧ Timely {} watchedRun ∧
      SeenAlike onlookers (({} : Session Nat).through (without onlookers [] {} watchedRun))
        (({} : Session Nat).through watchedRun) ∧
      Timely {} (without onlookers [] {} watchedRun)) ∧
    (AllowsScript onlookers {} 0 watchedScript ∧
      SeenAlike onlookers (({} : Session Nat).after 0 (idled onlookers 0 watchedScript))
        (({} : Session Nat).after 0 watchedScript)) ∧
    Single (.perform 1 (.cancel 0) : Move Nat) ∧ (held.move (.perform 1 (.cancel 0))).Cancelled 0 ∧
      (held.Cancelled 0 ∨ held.Cancels 0 (.perform 1 (.cancel 0))) := by
  have numbered : (watchedRun.filterMap Move.number?).Nodup := by decide
  have allows : AllowsAll onlookers {} watchedRun := by decide
  have timely : Timely {} watchedRun := by decide
  have script : AllowsScript onlookers {} 0 watchedScript := by decide +kernel
  have single : Single (.perform 1 (.cancel 0) : Move Nat) := rfl
  have cancelled : (held.move (.perform 1 (.cancel 0))).Cancelled 0 := ⟨_,rfl,rfl⟩
  obtain ⟨runs,scripts,cancels⟩ := @observing_is_transparent Nat onlookers
  obtain ⟨-,seenAlike,stays⟩ := runs watchedRun [] numbered allows
  exact ⟨⟨numbered,allows,timely,seenAlike,stays timely⟩,⟨script,scripts watchedScript script⟩,single,cancelled,
    cancels held _ 0 single cancelled⟩

end Promise.Session
end EditorLink
