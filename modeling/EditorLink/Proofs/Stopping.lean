import EditorLink.Proofs.Checks

/-! The course of a stop attempt against the clock. -/
namespace EditorLink
open World EditorLink.Action

namespace StopPlan

/-- The sleep between two checks: the interval, unless that is longer than the longest sleep. -/
def pause (plan : StopPlan) : Nat := min plan.poll Schedule.longestSleep

/-- When an attempt that began at `start` makes its check number `i`, counted from zero. -/
def due (plan : StopPlan) (start i : Nat) : Nat := start + min (i * plan.pause) plan.timeout

/-- How many sleeps it takes to come to the deadline. -/
def rounds (plan : StopPlan) : Nat := (plan.timeout + plan.pause - 1) / plan.pause

def times (plan : StopPlan) (start : Nat) : List Nat := (List.range (plan.rounds + 1)).map (plan.due start)

variable {plan : StopPlan} {start i : Nat}

theorem pause_of_short (short : plan.poll ≤ Schedule.longestSleep) : plan.pause = plan.poll :=
  Nat.min_eq_left short

/-- No check is put off by the cut of longer sleeps where the interval is short enough. -/
theorem times_of_short (short : plan.poll ≤ Schedule.longestSleep) (start : Nat) :
    plan.times start = (List.range ((plan.timeout + plan.poll - 1) / plan.poll + 1)).map fun i =>
      start + min (i * plan.poll) plan.timeout := by
  rw [times,rounds,pause_of_short short]
  refine List.map_congr_left fun i _ => ?_
  rw [due,pause_of_short short]

theorem due_zero (plan : StopPlan) (start : Nat) : plan.due start 0 = start := by simp [due]

theorem due_le (plan : StopPlan) (start i : Nat) : plan.due start i ≤ start + plan.timeout := by
  unfold due
  omega

theorem due_step (plan : StopPlan) (start i : Nat) : plan.due start (i + 1) ≤ plan.due start i + plan.pause := by
  have next : (i + 1) * plan.pause = i * plan.pause + plan.pause := Nat.succ_mul _ _
  unfold due
  omega

/-- The last sleep is as much shorter as it takes to end at the deadline. -/
theorem due_succ (early : plan.due start i < start + plan.timeout) :
    plan.due start i + min (min plan.poll (start + plan.timeout - plan.due start i)) Schedule.longestSleep =
      plan.due start (i + 1) := by
  have next : (i + 1) * plan.pause = i * plan.pause + plan.pause := Nat.succ_mul _ _
  unfold due at early ⊢
  rw [next]
  generalize i * plan.pause = slept at early ⊢
  unfold pause
  omega

theorem le_rounds (positive : 0 < plan.pause) (early : ∀ j < i, plan.due start j < start + plan.timeout) :
    i ≤ plan.rounds := by
  cases i with
  | zero => exact Nat.zero_le _
  | succ j =>
    have last := early j (Nat.lt_succ_self j)
    unfold rounds
    rw [Nat.le_div_iff_mul_le positive,Nat.succ_mul]
    unfold due at last
    omega

theorem times_prefix (early : i ≤ plan.rounds + 1) :
    (List.range i).map (plan.due start) <+: plan.times start := by
  obtain ⟨rest,same⟩ := Nat.exists_eq_add_of_le early
  rw [times,same,List.range_add,List.map_append]
  exact List.prefix_append _ _

/-- The times of the first checks, each with what an active model answers. -/
def active (plan : StopPlan) (start i : Nat) : List (Nat × Bool) :=
  (List.range i).map fun j => (plan.due start j,true)

theorem active_succ (plan : StopPlan) (start i : Nat) :
    plan.active start (i + 1) = plan.active start i ++ [(plan.due start i,true)] := by
  simp [active,List.range_succ]

end StopPlan

def crashed : Except Fault Next → Bool
  | .error .crash => true
  | _ => false

namespace World

/-- Whether the task asks in its next turn if its model is active, which is seen by making it crash where it
is asked and nowhere else. -/
def asks (w : World) (id : Nat) : Bool :=
  match w.tasks[id]? with
  | some (some t) =>
    !t.aborted && crashed (exec (resume id t.job) { w.taken id with sites := [.isActive] }).1
  | _ => false

/-- The check that the task makes in this move: its time, and whether the model is active then. -/
def checkIn (w : World) (id model : Nat) : Move → List (Nat × Bool)
  | .turn task => if task = id ∧ w.asks id then [(w.now,w.modelActive model)] else []
  | _ => []

/-- All checks that the task makes in these moves. -/
def checks (w : World) (id model : Nat) : List Move → List (Nat × Bool)
  | [] => []
  | m :: rest => w.checkIn id model m ++ (w.move m).checks id model rest

/-- What the attempt has settled for. -/
def verdictOf (w : World) (p : Nat) : Option Verdict := w.promises[p]?.bind Promise.value

/-- The task gets its turn at this time: it has just been woken, or its only timer is set for it. -/
def Awaits (w : World) (id time : Nat) : Prop :=
  (id ∈ w.schedule.ready ∧ w.now = time ∧ ∀ t ∈ w.schedule.timers, t.task ≠ id) ∨
    id ∉ w.schedule.ready ∧ w.now ≤ time ∧ (w.schedule.timers.filter fun t => t.task == id) = [⟨time,id⟩]

variable {w : World} {m : Move} {id p k start i time : Nat} {plan : StopPlan} {deadline : Option Nat}

theorem asks_of_pursues (pursues : w.Pursues id p plan deadline) (uncancelled : w.isCancelled p = false) :
    w.asks id = true := by
  have asked : (exec (resumeStop id p plan deadline) { w.taken id with sites := [.isActive] }).1 = .error .crash :=
    (resumeStop_crashes_iff (w := { w.taken id with sites := [.isActive] }) (by simp)).mpr uncancelled
  unfold asks
  rw [pursues]
  simp [resume,asked,crashed]

theorem asks_of_ended (ended : w.tasks[id]? = some none) : w.asks id = false := by
  unfold asks
  rw [ended]

theorem checkIn_turn (asks : w.asks id = true) (k : Nat) :
    w.checkIn id k (.turn id) = [(w.now,w.modelActive k)] := by
  rw [checkIn,if_pos ⟨rfl,asks⟩]

theorem checkIn_other (other : m ≠ .turn id) (k : Nat) : w.checkIn id k m = [] := by
  cases m with
  | turn task => exact if_neg fun both => other (by rw [both.1])
  | _ => rfl

theorem mem_checkIn {c : Nat × Bool} (member : c ∈ w.checkIn id k m) : c = (w.now,w.modelActive k) := by
  unfold checkIn at member
  split at member
  · split at member
    · exact List.mem_singleton.mp member
    · cases member
  · cases member

theorem checkIn_ended (ended : w.tasks[id]? = some none) (k : Nat) (m : Move) : w.checkIn id k m = [] := by
  cases m with
  | turn task => exact if_neg fun both => by simp [asks_of_ended ended] at both
  | _ => rfl

theorem awaits_arrive {now : Nat} (ripe : w.Ripe (.arrive now)) (awaits : w.Awaits id time) :
    (w.move (.arrive now)).Awaits id time := by
  obtain ⟨idle,onward,early⟩ := ripe
  rcases awaits with ⟨ready,-⟩ | ⟨-,-,timers⟩
  · rw [idle] at ready
    cases ready
  · have only (t : Timer) : t ∈ w.schedule.timers ∧ t.task = id ↔ t = ⟨time,id⟩ := by
      have found : (t ∈ w.schedule.timers.filter fun t => t.task == id) ↔ t ∈ [(⟨time,id⟩ : Timer)] := by
        rw [timers]
      simpa using found
    have set := ((only ⟨time,id⟩).mpr rfl).1
    have inTime : now ≤ time := early _ set
    rcases Nat.lt_or_eq_of_le inTime with before | rfl
    · refine .inr ⟨fun ready => ?_,by rw [move_arrive_now]; exact inTime,?_⟩
      · obtain ⟨t,member,late,own⟩ := (mem_arrive_ready idle).mp ready
        have same := (only t).mp ⟨member,own⟩
        rw [same] at late
        exact absurd late (Nat.not_le.mpr before)
      · rw [arrive_timers,List.filter_filter]
        refine Eq.trans (List.filter_congr fun t member => ?_) timers
        by_cases own : t.task = id
        · have same := (only t).mp ⟨member,own⟩
          simp [same,before]
        · simp [own]
    · have woken := (mem_arrive_ready idle).mpr ⟨_,set,Nat.le_refl _,rfl⟩
      refine .inl ⟨woken,move_arrive_now w now,fun t member own => ?_⟩
      rw [arrive_timers,List.mem_filter] at member
      have same := (only t).mp ⟨member.1,own⟩
      simp [same] at member

/-- A stop attempt that is not cancelled is woken by its own timers only. -/
theorem unwoken_of_pursues (enrolled : w.Enrolled) (pursues : w.Pursues id p plan deadline)
    (kept : (w.move m).isCancelled p = false) : ¬ MayWake w (w.move m) id := by
  rintro (⟨q,seen⟩ | ⟨q,heard,gone⟩)
  · exact (enrolled.values q id seen).2 _ pursues
  · obtain rfl : q = p := (enrolled.cancels q id heard).2 _ pursues
    rw [kept] at gone
    cases gone

theorem awaits_move (enrolled : w.Enrolled) (ripe : w.Ripe m) (other : m ≠ .turn id)
    (pursues : w.Pursues id p plan deadline) (after : (w.move m).Pursues id p plan deadline)
    (kept : (w.move m).isCancelled p = false) (awaits : w.Awaits id time) : (w.move m).Awaits id time := by
  by_cases arrival : ∃ now, m = .arrive now
  · obtain ⟨now,rfl⟩ := arrival
    exact awaits_arrive ripe awaits
  · have still (now : Nat) : m ≠ .arrive now := fun same => arrival ⟨now,same⟩
    have own {j : Nat} (same : (j == id) = true) : j = id := by simpa using same
    have away (j : Nat) (turned : m = .turn j) : (j == id) = false :=
      Bool.eq_false_iff.mpr fun same => other (own same ▸ turned)
    have uncut (j : Nat) (cut : (w.move m).Cut j) : (j == id) = false := by
      refine Bool.eq_false_iff.mpr fun same => ?_
      obtain ⟨t,there,aborted⟩ := cut
      rw [own same,after] at there
      cases there
      cases aborted
    have unwoken (j : Nat) (told : MayWake w (w.move m) j) : (j == id) = false :=
      Bool.eq_false_iff.mpr fun same => unwoken_of_pursues enrolled pursues kept (own same ▸ told)
    have known (j : Nat) (same : (j == id) = true) : j < w.tasks.length :=
      own same ▸ (List.getElem?_eq_some_iff.mp pursues).1
    have timers := move_timers ripe.single still (B := fun j => j == id) away uncut
    have queue := move_ready ripe.single still (B := fun j => j == id) away known uncut unwoken
    have ready : id ∈ (w.move m).schedule.ready ↔ id ∈ w.schedule.ready := by
      have both := congrArg (fun l => id ∈ l) queue
      simpa using both
    rw [Awaits,move_now ripe.single still,ready,timers]
    rcases awaits with ⟨woken,now,none⟩ | set
    · refine .inl ⟨woken,now,fun t member same => ?_⟩
      have left : t ∈ (w.move m).schedule.timers.filter fun t => t.task == id :=
        List.mem_filter.mpr ⟨member,by simpa using same⟩
      rw [timers] at left
      exact none t (List.mem_filter.mp left).1 same
    · exact .inr set

/-- Nobody but itself gets on with an attempt. -/
theorem move_pursues (single : m.Single) (pursues : w.Pursues id p plan deadline) (other : m ≠ .turn id) :
    (w.move m).Pursues id p plan deadline := by
  rcases move_others single pursues other with same | ⟨t,label,number,same,labelled,-⟩
  · exact same
  · cases same
    cases labelled

/-- How an attempt ends with its check number `i`. -/
def Concludes (plan : StopPlan) (start i : Nat) (active : Bool) (v : Verdict) : Prop :=
  active = false ∧ v = .ok () ∨
    active = true ∧ start + plan.timeout ≤ plan.due start i ∧ v = .error (.stopTimedOut plan.timeout)

/-- How far an attempt that began at `start` has come, with the checks it has made. -/
inductive Pursuit (w : World) (id p : Nat) (plan : StopPlan) (start : Nat) : List (Nat × Bool) → Prop
  | goes (i : Nat) (early : ∀ j < i, plan.due start j < start + plan.timeout)
      (pursues : w.Pursues id p plan (some (start + plan.timeout)))
      (awaits : w.Awaits id (plan.due start i)) : Pursuit w id p plan start (plan.active start i)
  | settled (i : Nat) (early : ∀ j < i, plan.due start j < start + plan.timeout)
      (ended : w.tasks[id]? = some none) (x : Promise Verdict) (there : w.outcomes[p]? = some x)
      (closed : x.pending = false) (active : Bool) (v : Verdict) (value : x.value = some v)
      (ends : Concludes plan start i active v) :
      Pursuit w id p plan start (plan.active start i ++ [(plan.due start i,active)])

theorem turn_pursuit (lossless : w.LosesNoAttempt) (enrolled : w.Enrolled) (pursues : w.Pursues id p plan deadline)
    (uncancelled : w.isCancelled p = false) (unset : ∀ t ∈ w.schedule.timers, t.task ≠ id)
    (target : deadline.getD (w.now + plan.timeout) = start + plan.timeout) (now : w.now = plan.due start i)
    (early : ∀ j < i, plan.due start j < start + plan.timeout) :
    Pursuit (w.turn id) id p plan start (plan.active start i ++ [(plan.due start i,w.modelActive plan.model)]) := by
  have decided : w.decides plan deadline =
      plan.check (start + plan.timeout) (plan.due start i) (w.modelActive plan.model) := by
    rw [decides,target,now]
  obtain ⟨x,there,-⟩ := lossless.orderly.pursued id p plan deadline pursues
  have settles (v : Verdict) (check : w.decides plan deadline = .settle v)
      (ends : Concludes plan start i (w.modelActive plan.model) v) :
      Pursuit (w.turn id) id p plan start
        (plan.active start i ++ [(plan.due start i,w.modelActive plan.model)]) := by
    obtain ⟨ended,outcomes⟩ := turn_settles pursues uncancelled lossless.interrupt lossless.isActive check
    exact .settled i early ended (x.ended (some v)) (by simp [outcomes,there]) rfl _ v rfl ends
  rw [StopPlan.check] at decided
  rcases active : w.modelActive plan.model with _ | _
  · rw [active] at decided settles
    exact settles (.ok ()) decided (.inl ⟨rfl,rfl⟩)
  · by_cases late : start + plan.timeout ≤ plan.due start i
    · rw [active] at decided settles
      simp only [Bool.not_true,Bool.false_eq_true,if_false,if_pos late] at decided
      exact settles _ decided (.inr ⟨rfl,late,rfl⟩)
    · rw [active] at decided
      simp only [Bool.not_true,Bool.false_eq_true,if_false,if_neg late] at decided
      obtain ⟨goes,schedule,-⟩ := turn_sleeps pursues uncancelled lossless.interrupt lossless.isActive decided
      have before := Nat.lt_of_not_le late
      rw [target] at goes
      rw [← StopPlan.active_succ]
      refine .goes (i + 1) (fun j inside => ?_) goes (.inr ⟨?_,?_,?_⟩)
      · rcases Nat.lt_succ_iff_lt_or_eq.mp inside with old | rfl
        · exact early j old
        · exact before
      · rw [schedule]
        exact enrolled.nodup.not_mem_erase
      · have same : (w.turn id).now = w.now := by rw [World.now,schedule]; rfl
        rw [same,now,← StopPlan.due_succ before]
        exact Nat.le_add_right _ _
      · have none : (w.schedule.timers.filter fun t => t.task == id) = [] := by
          rw [List.filter_eq_nil_iff]
          intro t member
          simpa using unset t member
        have slept : (w.turn id).schedule.timers = w.schedule.timers ++ [⟨plan.due start (i + 1),id⟩] := by
          rw [schedule,← StopPlan.due_succ before,← now]
          rfl
        rw [slept,List.filter_append,none]
        simp

theorem move_pursuit {done : List (Nat × Bool)} (lossless : w.LosesNoAttempt) (enrolled : w.Enrolled)
    (ripe : w.Ripe m) (kept : (w.move m).isCancelled p = false) (pursuit : Pursuit w id p plan start done) :
    Pursuit (w.move m) id p plan start (done ++ w.checkIn id plan.model m) := by
  obtain ⟨-,onward⟩ := move_goes w ripe.single lossless.orderly
  have uncancelled := onward.uncancelled kept
  cases pursuit with
  | goes i early pursues awaits =>
    by_cases own : m = .turn id
    · subst own
      have ready : id ∈ w.schedule.ready := ripe
      rcases awaits with ⟨-,now,unset⟩ | ⟨waiting,-⟩
      · rw [checkIn_turn (asks_of_pursues pursues uncancelled),now]
        exact turn_pursuit lossless enrolled pursues uncancelled unset rfl now early
      · exact absurd ready waiting
    · rw [checkIn_other own,List.append_nil]
      have after := move_pursues ripe.single pursues own
      exact .goes i early after (awaits_move enrolled ripe own pursues after kept awaits)
  | settled i early ended x there closed active v value ends =>
    obtain ⟨y,found,still,same⟩ := onward.closed p x there closed
    rw [checkIn_ended ended,List.append_nil]
    exact .settled i early (move_ended ripe.single ended) y found still active v (same.trans value) ends

theorem run_pursuit {s : Setting} {moves : List Move} {done : List (Nat × Bool)}
    (reached : Reaches Move.Sturdy s.start w) (sturdy : ∀ m ∈ moves, m.Sturdy) (paced : w.Paced moves)
    (kept : (w.run moves).isCancelled p = false) (pursuit : Pursuit w id p plan start done) :
    Pursuit (w.run moves) id p plan start (done ++ w.checks id plan.model moves) := by
  induction moves generalizing w done with
  | nil => simpa [run,checks] using pursuit
  | cons m rest ih =>
    have lossless := losesNoAttempt_of_reached reached
    have fine := sturdy m List.mem_cons_self
    have others (k : Move) (member : k ∈ rest) : k.Sturdy := sturdy k (List.mem_cons_of_mem m member)
    have there : Reaches Move.Sturdy s.start (w.move m) := Frame.trans reached (reaches_move w m fine)
    have onward := (onward_of_reaches (losesNoAttempt_of_reached there).orderly (reaches_run (w.move m) others)).2
    have now : (w.move m).isCancelled p = false := onward.uncancelled kept
    have step := move_pursuit lossless (enrolled_of_reached (reached.mono fun _ _ => trivial)) paced.1 now pursuit
    rw [checks,← List.append_assoc]
    exact ih there others paced.2 kept step

theorem first_pursuit {s : Setting} (reached : Reaches Move.Sturdy s.start w) (fresh : w.Pursues id p plan none)
    (uncancelled : w.isCancelled p = false) :
    Pursuit (w.turn id) id p plan w.now (w.checkIn id plan.model (.turn id)) := by
  have anywhere : Reaches (fun _ => True) s.start w := reached.mono fun _ _ => trivial
  have checked : Pursuit (w.turn id) id p plan w.now
      (plan.active w.now 0 ++ [(plan.due w.now 0,w.modelActive plan.model)]) :=
    turn_pursuit (losesNoAttempt_of_reached reached) (enrolled_of_reached anywhere) fresh uncancelled
      (unslept_of_reached anywhere id _ fresh rfl trivial) rfl (plan.due_zero _).symm nofun
  rw [StopPlan.due_zero] at checked
  rw [checkIn_turn (asks_of_pursues fresh uncancelled)]
  exact checked

end World
end EditorLink
