import EditorLink.Proofs.Clearing
import EditorLink.Proofs.Stopping

/-! Stop attempts keep to their schedule: one interrupt, then a check at every interval and a last one at the
deadline, and a verdict with the first check that finds the model idle or with the last one. -/
namespace EditorLink
open World EditorLink.Action

theorem Setting.valid {s : Setting} {w : World} (made : s.world = .ok w) : ∀ c ∈ s.configs, c.validate = .ok () := by
  have checked (configs : List Config) (rest : Except LinkError World)
      (made : (do
        for c in configs do
          Except.mapError LinkError.config c.validate
        rest) = .ok w) : ∀ c ∈ configs, c.validate = .ok () := by
    induction configs with
    | nil => nofun
    | cons c others ih =>
      rw [List.forIn_cons] at made
      rcases valid : c.validate with e | ⟨⟩
      · rw [valid] at made
        cases made
      · rw [valid] at made
        intro k member
        rcases List.mem_cons.mp member with rfl | other
        · exact valid
        · exact ih made k other
  exact checked s.configs _ made

namespace World

/-- Registries and links have configurations that the setting gives. -/
structure Configured (s : Setting) (w : World) : Prop where
  registries : ∀ r ∈ w.registries, r.config ∈ s.configs
  links : ∀ l ∈ w.links, l.config ∈ s.configs

theorem endures_configured (s : Setting) : Endures fun v w => Configured s v → Configured s w where
  frame := inferInstance
  entities entities configured := ⟨entities.registries ▸ configured.registries,entities.links ▸ configured.links⟩
  quiet quiet configured := by
    refine ⟨quiet.registries ▸ configured.registries,fun l member => ?_⟩
    obtain ⟨n,there⟩ := List.mem_iff_getElem?.mp member
    obtain ⟨k,before,alike⟩ := quiet.link_back there
    rw [(core_fields alike).2.1]
    exact configured.links k (List.mem_of_getElem? before)
  handling {_ _ v w} handling configured := by
    have registries : w.registries = v.registries := by rw [handling.same]
    refine ⟨registries ▸ configured.registries,fun l member => ?_⟩
    obtain ⟨n,there⟩ := List.mem_iff_getElem?.mp member
    have known := (List.getElem?_eq_some_iff.mp there).1
    rw [handling.size] at known
    obtain ⟨k,found,-,handled⟩ := handling.links n _ (List.getElem?_eq_getElem known)
    rw [there] at found
    cases found
    rw [handled.config]
    exact configured.links _ (List.getElem_mem known)
  made w registry r there configured := by
    refine ⟨fun k member => ?_,fun l member => ?_⟩
    · obtain ⟨old,known,same,-⟩ := mem_withLink member
      rw [same]
      exact configured.registries old known
    · rcases List.mem_append.mp member with old | new
      · exact configured.links l old
      · rw [List.mem_singleton.mp new]
        exact configured.registries r (List.mem_of_getElem? there)
  crashed w registry configured := by
    refine ⟨fun k member => ?_,configured.links⟩
    obtain ⟨i,found⟩ := List.mem_iff_getElem?.mp member
    simp only [withoutFactory,List.getElem?_modify] at found
    obtain ⟨old,was,same⟩ := Option.map_eq_some_iff.mp found
    have config : k.config = old.config := by split at same <;> rw [← same]
    rw [config]
    exact configured.registries old (List.mem_of_getElem? was)

theorem configured_of_reached {s : Setting} {w : World} (reached : Reaches (fun _ => True) s.start w) :
    Configured s w := by
  refine (endures_configured s).reaches (fun _ _ => trivial) (fun w _ o _ configured => ?_) reached ⟨?_,nofun⟩
  · have around := change_around w o
    exact ⟨around.registries ▸ configured.registries,around.links ▸ configured.links⟩
  · intro r member
    obtain ⟨c,there,rfl⟩ := List.mem_map.mp member
    exact there

variable {w : World} {id p start : Nat} {plan : StopPlan} {done : List (Nat × Bool)}

/-- What is known of an attempt from its checks: they are the first on the schedule, all but the last are
early and found the model active, and the verdict is with the last one. -/
structure OnSchedule (w : World) (p : Nat) (plan : StopPlan) (start : Nat) (checks : List (Nat × Bool)) :
    Prop where
  times : checks.map Prod.fst <+: plan.times start
  active : ∀ c ∈ checks.dropLast, c.2 = true ∧ c.1 < start + plan.timeout
  stopped : w.verdictOf p = some (.ok ()) ↔ ∃ time, checks.getLast? = some (time,false)
  timedOut : w.verdictOf p = some (.error (.stopTimedOut plan.timeout)) ↔
    checks.getLast? = some (start + plan.timeout,true)
  verdicts : ∀ v, w.verdictOf p = some v → v = .ok () ∨ v = .error (.stopTimedOut plan.timeout)
  waits : w.verdictOf p = none → ∃ next, (plan.times start)[checks.length]? = some next ∧ w.now ≤ next

theorem verdictOf_eq {x : Promise Verdict} (there : w.outcomes[p]? = some x) : w.verdictOf p = x.value := by
  rw [World.outcomes,List.getElem?_map] at there
  obtain ⟨y,found,rfl⟩ := Option.map_eq_some_iff.mp there
  rw [verdictOf,found]
  rfl

theorem mem_active {c : Nat × Bool} {i : Nat} (early : ∀ j < i, plan.due start j < start + plan.timeout)
    (member : c ∈ plan.active start i) : c.2 = true ∧ c.1 < start + plan.timeout := by
  obtain ⟨j,inside,rfl⟩ := List.mem_map.mp member
  exact ⟨rfl,early j (List.mem_range.mp inside)⟩

theorem active_times (plan : StopPlan) (start i : Nat) :
    (plan.active start i).map Prod.fst = (List.range i).map (plan.due start) := by
  simp [StopPlan.active,Function.comp_def]

theorem onSchedule_of_goes {i : Nat} (orderly : w.Orderly) (positive : 0 < plan.pause)
    (early : ∀ j < i + 1, plan.due start j < start + plan.timeout)
    (pursues : w.Pursues id p plan (some (start + plan.timeout))) (awaits : w.Awaits id (plan.due start (i + 1))) :
    w.OnSchedule p plan start (plan.active start (i + 1)) := by
  obtain ⟨x,there,pending⟩ := orderly.pursued id p plan _ pursues
  have unsettled : w.verdictOf p = none := (verdictOf_eq there).trans (orderly.pending p x there pending).1
  have within := StopPlan.le_rounds positive early
  have last : (plan.active start (i + 1)).getLast? = some (plan.due start i,true) := by
    rw [StopPlan.active_succ,List.getLast?_concat]
  have before := early i (Nat.lt_succ_self i)
  refine ⟨?_,fun c member => mem_active early (List.dropLast_subset _ member),?_,?_,?_,fun _ => ?_⟩
  · rw [active_times]
    exact StopPlan.times_prefix (Nat.le_succ_of_le within)
  · simp [unsettled,last]
  · rw [unsettled,last]
    refine ⟨nofun,fun same => ?_⟩
    have time : plan.due start i = start + plan.timeout := congrArg Prod.fst (Option.some.inj same)
    omega
  · simp [unsettled]
  · refine ⟨plan.due start (i + 1),?_,awaits.elim (fun ready => Nat.le_of_eq ready.2.1) fun set => set.2.1⟩
    have inside : (List.range (plan.rounds + 1))[i + 1]? = some (i + 1) :=
      List.getElem?_range (Nat.succ_lt_succ within)
    simp [StopPlan.times,StopPlan.active,inside]

theorem onSchedule_of_settled {i : Nat} {x : Promise Verdict} {active : Bool} {v : Verdict} (positive : 0 < plan.pause)
    (early : ∀ j < i, plan.due start j < start + plan.timeout) (there : w.outcomes[p]? = some x)
    (value : x.value = some v) (concludes : Concludes plan start i active v) :
    w.OnSchedule p plan start (plan.active start i ++ [(plan.due start i,active)]) := by
  have settled : w.verdictOf p = some v := (verdictOf_eq there).trans value
  have last : (plan.active start i ++ [(plan.due start i,active)]).getLast? = some (plan.due start i,active) :=
    List.getLast?_concat
  refine ⟨?_,fun c member => ?_,?_,?_,fun u same => ?_,fun none => ?_⟩
  · have all : (plan.active start i ++ [(plan.due start i,active)]).map Prod.fst =
        (List.range (i + 1)).map (plan.due start) := by
      simp [active_times,List.range_succ]
    rw [all]
    exact StopPlan.times_prefix (Nat.succ_le_succ (StopPlan.le_rounds positive early))
  · rw [List.dropLast_concat] at member
    exact mem_active early member
  · rw [settled,last]
    rcases concludes with ⟨rfl,rfl⟩ | ⟨rfl,-,rfl⟩ <;> simp
  · rw [settled,last]
    rcases concludes with ⟨rfl,rfl⟩ | ⟨rfl,late,rfl⟩
    · simp
    · have time := Nat.le_antisymm (plan.due_le start i) late
      simp [time]
  · rw [settled] at same
    cases same
    exact concludes.imp And.right fun late => late.2.2
  · rw [settled] at none
    cases none

theorem Pursuit.onSchedule (pursuit : Pursuit w id p plan start done) (orderly : w.Orderly)
    (positive : 0 < plan.pause) (begun : done ≠ []) : w.OnSchedule p plan start done := by
  cases pursuit with
  | goes i early pursues awaits =>
    cases i with
    | zero => exact absurd rfl begun
    | succ i => exact onSchedule_of_goes orderly positive early pursues awaits
  | settled i early ended x there closed active v value concludes =>
    exact onSchedule_of_settled positive early there value concludes

theorem OnSchedule.time {checks : List (Nat × Bool)} {i : Nat} {c : Nat × Bool}
    (punctual : w.OnSchedule p plan start checks) (there : checks[i]? = some c) : c.1 = plan.due start i := by
  obtain ⟨rest,same⟩ := punctual.times
  have first : (checks.map Prod.fst)[i]? = some c.1 := by simp [there]
  have listed : (plan.times start)[i]? = some c.1 := same ▸ getElem?_append_some first rest
  rw [StopPlan.times,List.getElem?_map] at listed
  obtain ⟨j,found,same⟩ := Option.map_eq_some_iff.mp listed
  obtain ⟨inside,rfl⟩ := List.getElem?_eq_some_iff.mp found
  rw [← same,List.getElem_range]

/-- From the given time on the model is not active. -/
def IdleFrom (w : World) (model time : Nat) (moves : List Move) : Prop :=
  ∀ first rest, moves = first ++ rest → time ≤ (w.run first).now → (w.run first).modelActive model = false

theorem checks_seen {k : Nat} {moves : List Move} {c : Nat × Bool} (member : c ∈ w.checks id k moves) :
    ∃ first rest, moves = first ++ rest ∧ (w.run first).now = c.1 ∧ (w.run first).modelActive k = c.2 := by
  induction moves generalizing w with
  | nil => cases member
  | cons m rest ih =>
    rcases List.mem_append.mp member with here | later
    · refine ⟨[],m :: rest,rfl,?_⟩
      rw [mem_checkIn here]
      exact ⟨rfl,rfl⟩
    · obtain ⟨first,others,same,time,found⟩ := ih later
      exact ⟨m :: first,others,by rw [same]; rfl,time,found⟩

theorem IdleFrom.active {k time : Nat} {moves : List Move} (idle : w.IdleFrom k time moves) {c : Nat × Bool}
    (member : c ∈ w.checks id k moves) (active : c.2 = true) : c.1 < time := by
  obtain ⟨first,rest,same,now,found⟩ := checks_seen member
  refine Nat.lt_of_not_le fun late => ?_
  have quiet := idle first rest same (now ▸ late)
  rw [found,active] at quiet
  cases quiet

/-- The attempt has settled well by its deadline, with its first check or with one that is made less than
`long` after the given time; or it has not settled, and there is time left until then. -/
def StopsWithin (w : World) (p : Nat) (plan : StopPlan) (start time long : Nat) (checks : List (Nat × Bool)) :
    Prop :=
  (w.verdictOf p = some (.ok ()) ∧ ∃ last, checks.getLast? = some (last,false) ∧ last ≤ start + plan.timeout ∧
    (last = start ∨ last < time + long)) ∨
  w.verdictOf p = none ∧ w.now ≤ start + plan.timeout ∧ w.now < time + long

/-- A model that is idle from some time before the deadline on is found idle with the first check from
then on. -/
theorem OnSchedule.idle {checks : List (Nat × Bool)} {time : Nat} (punctual : w.OnSchedule p plan start checks)
    (begun : checks ≠ []) (early : time ≤ start + plan.timeout) (idle : ∀ c ∈ checks, c.2 = true → c.1 < time) :
    w.StopsWithin p plan start time plan.pause checks := by
  have before {i : Nat} {c : Nat × Bool} (there : checks[i]? = some c) (active : c.2 = true) :
      plan.due start (i + 1) < time + plan.pause := by
    have found := idle c (List.mem_of_getElem? there) active
    have step := plan.due_step start i
    rw [punctual.time there] at found
    omega
  obtain ⟨⟨last,found⟩,ends⟩ : ∃ c, checks.getLast? = some c := ⟨_,List.getLast?_eq_some_getLast begun⟩
  have place := ends
  rw [List.getLast?_eq_getElem?] at place
  obtain ⟨i,size⟩ : ∃ i, checks.length = i + 1 := Nat.exists_eq_succ_of_ne_zero fun none =>
    begun (List.eq_nil_of_length_eq_zero none)
  rw [size,Nat.add_sub_cancel] at place
  rcases settled : w.verdictOf p with _ | v
  · have active : found = true := by
      refine Bool.not_eq_false _ ▸ fun idle => ?_
      rw [punctual.stopped.mpr ⟨last,idle ▸ ends⟩] at settled
      cases settled
    obtain ⟨next,listed,now⟩ := punctual.waits settled
    have due : next = plan.due start (i + 1) := by
      rw [size,StopPlan.times,List.getElem?_map] at listed
      obtain ⟨j,known,same⟩ := Option.map_eq_some_iff.mp listed
      obtain ⟨inside,rfl⟩ := List.getElem?_eq_some_iff.mp known
      rw [← same,List.getElem_range]
    have late := plan.due_le start (i + 1)
    have soon := before place active
    exact .inr ⟨settled,by omega,by omega⟩
  · rcases punctual.verdicts v settled with rfl | rfl
    · obtain ⟨time,same⟩ := punctual.stopped.mp settled
      rw [ends] at same
      cases same
      have due : last = plan.due start i := punctual.time place
      refine .inl ⟨settled,last,ends,?_,?_⟩
      · rw [due]
        exact plan.due_le start i
      · rw [due]
        cases i with
        | zero => exact .inl (plan.due_zero start)
        | succ i =>
          have inside : i < checks.dropLast.length := by
            rw [List.length_dropLast,size]
            omega
          have there : checks[i]? = some (checks.dropLast[i]) := by
            rw [List.getElem_dropLast]
            exact List.getElem?_eq_getElem _
          exact .inr (before there (punctual.active _ (List.getElem_mem inside)).1)
    · have ended := punctual.timedOut.mp settled
      have late := idle _ (List.mem_of_getLast? ended) rfl
      omega

/-- The model is interrupted once, in the first turn and before it is asked anything: so it is even where
the question makes it crash. -/
structure InterruptsOnce (w : World) (id p : Nat) (plan : StopPlan) (after : List Move) : Prop where
  first : ∀ k, (w.turn id).interruptsOf k = if k = plan.model then w.interruptsOf k + 1 else w.interruptsOf k
  before : ∀ k, World.interruptsOf
    (exec (resume id (.stop p plan none)) { w.taken id with sites := [.isActive] }).2 k = (w.turn id).interruptsOf k
  again : ∀ moves m rest, after = moves ++ m :: rest → ¬ ((w.turn id).run moves).Interrupts m p

theorem interruptsOnce_of_fresh {s : Setting} {after : List Move} (reached : Reaches Move.Sturdy s.start w)
    (fresh : w.Pursues id p plan none) (uncancelled : w.isCancelled p = false)
    (known : plan.model < w.models.length) (sturdy : ∀ m ∈ after, m.Sturdy) : w.InterruptsOnce id p plan after := by
  have lossless := losesNoAttempt_of_reached reached
  have counts := turn_interrupts fresh uncancelled lossless.interrupt known
  refine ⟨counts,fun k => ?_,fun moves m rest same => ?_⟩
  · have asked := resumeStop_interrupts (w := { w.taken id with sites := [.isActive] }) id plan uncancelled (by simp)
    rw [counts,interruptsOf,resume,asked]
    refine (interruptsOf_interrupt (w := w) known k).trans ?_
    split
    · rename_i here
      rw [here]
    · rfl
  · have interrupts : w.Interrupts (.turn id) p := by
      refine ⟨id,plan,none,rfl,fresh,plan.model,fun unchanged => ?_⟩
      rw [move,counts,if_pos rfl] at unchanged
      omega
    refine interrupts_once (m := .turn id) lossless.orderly (Move.Internal.single trivial) interrupts
      (reaches_run _ fun k member => sturdy k ?_)
    rw [same]
    exact List.mem_append_left _ member

theorem plan_of_fresh {s : Setting} (made : s.world = .ok s.start) (reached : Reaches Move.Sturdy s.start w)
    (fresh : w.Pursues id p plan none) (uncancelled : w.isCancelled p = false) :
    (∃ n l, w.stopOf n = some p ∧ w.links[n]? = some l ∧ plan = l.plan ∧
      plan.timeout = l.config.timeout.toMillis.toNat ∧ plan.poll = l.config.interval.toMillis.toNat) ∧
      0 < plan.poll ∧ plan.poll ≤ plan.timeout ∧ plan.model < w.models.length := by
  have anywhere : Reaches (fun _ => True) s.start w := reached.mono fun _ _ => trivial
  have orderly := orderly_of_reached anywhere
  rcases orderly.owned id p plan none fresh with gone | ⟨n,stop⟩
  · rw [uncancelled] at gone
    cases gone
  · obtain ⟨l,there,rfl⟩ := Option.map_eq_some_iff.mp (orderly.owner n p id plan none stop fresh)
    have config := (configured_of_reached anywhere).links l (List.mem_of_getElem? there)
    obtain ⟨positive,within⟩ := Config.positive_of_valid (Setting.valid made l.config config)
    refine ⟨⟨n,l,stop,there,rfl,?_,?_⟩,positive,within,housed_of_reached anywhere n l there⟩
    · rw [Config.timeout_toMillis]
      rfl
    · rw [Config.interval_toMillis]
      rfl

end World

/-- A stop attempt keeps to its schedule, for every model, timeout and poll interval that a valid
configuration gives, as long as the model is not made to crash and time goes by as it does for tasks: those
that are ready get their turns, in any order, before the clock moves on, and it never moves past a timer. Say
the attempt has its first turn at some time, and is not cancelled. Its timeout and interval are those of its
link, in whole milliseconds. It interrupts the model exactly once, before it asks anything. Then it asks
whether the model is active at that time, after every `pause`, and last at the deadline, `rounds + 1` times
at most. It settles well with the first check that finds the model idle, and settles that its time is up,
with the very timeout of the configuration, if and only if all checks up to that at the deadline find the
model active; until it has settled the clock does not pass its next check. So if the model is idle from some
time before the deadline on, it is reported as stopped at most one pause after that, and never after the
deadline. A pause is as long as the interval, but no timer is set for more than thirty years: a longer
interval is cut to that. Up to thirty years the schedule is that of the interval itself. -/
theorem stop_keeps_its_schedule (s : Setting) (made : s.world = .ok s.start) (before after : List Move)
    (id p : Nat) (plan : StopPlan) (sturdy : ∀ m ∈ before ++ after, m.Sturdy)
    (paced : s.start.Paced (before ++ .turn id :: after))
    (fresh : (s.start.run before).Pursues id p plan none)
    (kept : (s.start.run (before ++ .turn id :: after)).isCancelled p = false) :
    let w := s.start.run before
    let v := w.run (.turn id :: after)
    let checks := w.checks id plan.model (.turn id :: after)
    (∃ n l, w.stopOf n = some p ∧ w.links[n]? = some l ∧ plan = l.plan ∧
      plan.timeout = l.config.timeout.toMillis.toNat ∧ plan.poll = l.config.interval.toMillis.toNat) ∧
    0 < plan.poll ∧ plan.poll ≤ plan.timeout ∧ w.InterruptsOnce id p plan after ∧
    checks.length ≤ plan.rounds + 1 ∧ v.OnSchedule p plan w.now checks ∧
    (∀ time ≤ w.now + plan.timeout, w.IdleFrom plan.model time (.turn id :: after) →
      v.StopsWithin p plan w.now time plan.pause checks) ∧
    (plan.poll ≤ Schedule.longestSleep →
      (checks.map Prod.fst <+: (List.range ((plan.timeout + plan.poll - 1) / plan.poll + 1)).map fun i =>
        w.now + min (i * plan.poll) plan.timeout) ∧
      ∀ time ≤ w.now + plan.timeout, w.IdleFrom plan.model time (.turn id :: after) →
        v.StopsWithin p plan w.now time plan.poll checks) := by
  intro w v checks
  have first (m : Move) (member : m ∈ before) : m.Sturdy := sturdy m (List.mem_append_left _ member)
  have later (m : Move) (member : m ∈ after) : m.Sturdy := sturdy m (List.mem_append_right _ member)
  have turns : Move.Sturdy (.turn id) := Move.Internal.sturdy trivial
  have all : ∀ m ∈ Move.turn id :: after, m.Sturdy := List.forall_mem_cons.mpr ⟨turns,later⟩
  have reached : Reaches Move.Sturdy s.start w := reaches_run _ first
  have turned : Reaches Move.Sturdy s.start (w.turn id) := Frame.trans reached (reaches_move w (.turn id) turns)
  have arrived : Reaches Move.Sturdy s.start v := Frame.trans reached (reaches_run w all)
  rw [run_append] at kept
  have uncancelled : w.isCancelled p = false :=
    (onward_of_reaches (losesNoAttempt_of_reached reached).orderly (reaches_run w all)).2.uncancelled kept
  obtain ⟨link,positive,within,known⟩ := plan_of_fresh made reached fresh uncancelled
  have pauses : 0 < plan.pause := Nat.lt_min.mpr ⟨positive,by decide⟩
  have pursuit : Pursuit v id p plan w.now checks :=
    run_pursuit turned later ((paced_append _ _ _).mp paced).2.2 kept (first_pursuit reached fresh uncancelled)
  have begun : checks ≠ [] := by
    have now := checkIn_turn (asks_of_pursues fresh uncancelled) plan.model
    intro none
    have both := List.append_eq_nil_iff.mp none
    rw [now] at both
    cases both.1
  have punctual := pursuit.onSchedule (losesNoAttempt_of_reached arrived).orderly pauses begun
  have stops (time : Nat) (early : time ≤ w.now + plan.timeout)
      (idle : w.IdleFrom plan.model time (.turn id :: after)) :
        v.StopsWithin p plan w.now time plan.pause checks :=
    punctual.idle begun early fun c member active => idle.active member active
  refine ⟨link,positive,within,interruptsOnce_of_fresh reached fresh uncancelled known later,?_,punctual,stops,
    fun short => ⟨?_,?_⟩⟩
  · have fits := punctual.times.length_le
    simpa [StopPlan.times] using fits
  · rw [← StopPlan.times_of_short short]
    exact punctual.times
  · rw [← StopPlan.pause_of_short short]
    exact stops

def stalledSetting : Setting where
  configs := [{ stopTimeout := 25, pollInterval := 10 }]
  blueprint := { stalled := true }

def stalledUntilStop : List Move := [.perform 0 (.create "a" 0),.turn 0]

def stalledFromStop : List Move := [.arrive 10,.turn 1,.arrive 20,.turn 1,.arrive 25,.turn 1]

/-- A model that stays active is asked four times within twenty-five milliseconds. -/
theorem stalled_model_times_out :
    stalledSetting.start.Timely (stalledUntilStop ++ .turn 1 :: stalledFromStop) ∧
      (stalledSetting.start.run stalledUntilStop).checks 1 0 (.turn 1 :: stalledFromStop) =
        [(0,true),(10,true),(20,true),(25,true)] ∧
      ((stalledSetting.start.run stalledUntilStop).run (.turn 1 :: stalledFromStop)).verdictOf 0 =
        some (.error (.stopTimedOut 25)) := by
  have timely : stalledSetting.start.Timely (stalledUntilStop ++ .turn 1 :: stalledFromStop) := by decide
  have sturdy : ∀ m ∈ stalledUntilStop ++ stalledFromStop, m.Sturdy := by
    simp [stalledUntilStop,stalledFromStop,Move.Sturdy,Move.Spares]
  obtain ⟨-,-,-,-,-,punctual,-⟩ := stop_keeps_its_schedule stalledSetting rfl stalledUntilStop stalledFromStop 1 0
    ⟨0,25,10⟩ sturdy timely.paced rfl rfl
  exact ⟨timely,rfl,punctual.timedOut.mpr rfl⟩

end EditorLink
