import EditorLink.Proofs.Course
import EditorLink.Proofs.Endure
import EditorLink.Proofs.Silence

/-! Stop attempts that supersede each other: of all the attempts that a link has started, only the last one
can still reach the model, and nobody hears from any other. -/
namespace EditorLink
open World EditorLink.Action

/-- The model is not made to crash where it is interrupted or asked whether it is active. -/
def Move.Sturdy (m : Move) : Prop := m.Spares .interrupt ∧ m.Spares .isActive

theorem Move.Internal.sturdy {m : Move} (internal : m.Internal) : m.Sturdy :=
  ⟨internal.spares _,internal.spares _⟩

/-- At some time on the way the promise was that of the link's stop attempt. Promises bear numbers in the
order in which the attempts were started. -/
def AttemptOf (s : Setting) (w : World) (n p : Nat) : Prop :=
  ∃ v, Reaches Move.Sturdy s.start v ∧ Reaches Move.Sturdy v w ∧ v.stopOf n = some p

namespace World

/-- The next turn of the attempt's task calls the model, which is seen by making the model crash. -/
def Calls (w : World) (p : Nat) : Prop :=
  ∃ id plan deadline, w.Pursues id p plan deadline ∧
    (exec (resumeStop id p plan deadline) { w with sites := [.interrupt,.isActive] }).1 = .error .crash

/-- The attempt may call the model, now or at some later time. -/
def CanCall (w : World) (p : Nat) : Prop := ∃ v, Reaches Move.Sturdy w v ∧ v.Calls p

/-- The move is a turn of the attempt's task, and interrupts a model. -/
def Interrupts (w : World) (m : Move) (p : Nat) : Prop :=
  ∃ id plan deadline, m = .turn id ∧ w.Pursues id p plan deadline ∧
    ∃ k, (w.move m).interruptsOf k ≠ w.interruptsOf k

/-- Who asks for the attempt's verdict gets none and is told that it was superseded, no continuation of it
runs, and it interrupts no model. -/
structure Mute (w : World) (p : Nat) : Prop where
  observers : ∀ id, exec (await id p) w = (.ok (some none),w)
  waits : ∀ id label, w.tasks[id]? = some (some { label := some label, job := .wait p }) →
    (w.turn id).tasks[id]? = some none ∧
      (w.turn id).events = w.events ++ [⟨w.now,label,.waited (.error .superseded)⟩]
  continuations : ∀ id label, w.tasks[id]? = some (some { label := some label, job := .continuation p }) →
    (w.turn id).tasks[id]? = some none ∧ (w.turn id).events = w.events
  interrupts : ∀ m, ¬ w.Interrupts m p

/-- An attempt that can deliver no more has a verdict or was cancelled. -/
def AllAccounted (w : World) : Prop :=
  ∀ (p : Nat) (x : Promise Verdict), w.outcomes[p]? = some x → x.pending = false →
    x.value ≠ none ∨ x.cancelled = true

variable {v w : World} {n p q : Nat} {m : Move}

theorem calls_iff : w.Calls p ↔ (∃ id plan deadline, w.Pursues id p plan deadline) ∧
    w.isCancelled p = false := by
  have crashes (id : Nat) (plan : StopPlan) (deadline : Option Nat) :
      (exec (resumeStop id p plan deadline) { w with sites := [.interrupt,.isActive] }).1 = .error .crash ↔
        w.isCancelled p = false :=
    resumeStop_crashes_iff (w := { w with sites := [.interrupt,.isActive] }) (by simp)
  simp only [Calls,crashes]
  constructor
  · rintro ⟨id,plan,deadline,pursues,uncancelled⟩
    exact ⟨⟨id,plan,deadline,pursues⟩,uncancelled⟩
  · rintro ⟨⟨id,plan,deadline,pursues⟩,uncancelled⟩
    exact ⟨id,plan,deadline,pursues,uncancelled⟩

theorem onward_of_reaches (orderly : v.Orderly) (reached : Reaches Move.Sturdy v w) :
    w.Orderly ∧ Onward v w :=
  reaches_goes (fun _ internal => internal.sturdy) reached orderly

theorem CanCall.uncancelled (orderly : w.Orderly) (can : w.CanCall p) : w.isCancelled p = false := by
  obtain ⟨v,reached,calls⟩ := can
  obtain ⟨-,fine⟩ := calls_iff.mp calls
  exact (onward_of_reaches orderly reached).2.uncancelled fine

theorem Bides.settled (bides : Bides v w) (orderly : v.Orderly) (settled : v.AllAccounted) : w.AllAccounted := by
  intro p x there ended
  obtain ⟨y,before,done,value⟩ := bides.over_before orderly there ended
  refine (settled p y before done).imp (fun known => value ▸ known) fun gone => ?_
  have onward := (bides orderly).2.1
  obtain ⟨z,found,also⟩ := isCancelled_iff.mp (onward.cancelled p (isCancelled_iff.mpr ⟨y,before,gone⟩))
  rw [there] at found
  cases found
  exact also

/-- As long as the model is not made to crash, no attempt is lost. -/
structure LosesNoAttempt (w : World) : Prop where
  orderly : w.Orderly
  interrupt : Site.interrupt ∉ w.sites
  isActive : Site.isActive ∉ w.sites
  settled : w.AllAccounted

theorem Turned.settled {id : Nat} {plan : StopPlan} {deadline : Option Nat}
    (turned : Turned w id p plan deadline v) (lossless : w.LosesNoAttempt) : v.AllAccounted := by
  intro q x there ended
  rcases turned.goes with ⟨_,_,same⟩ | ⟨value,_,same,lost,-⟩
  · exact lossless.settled q x (same ▸ there) ended
  · by_cases here : p = q
    · subst here
      rw [same,List.getElem?_modify_eq] at there
      obtain ⟨y,before,rfl⟩ := Option.map_eq_some_iff.mp there
      cases value with
      | some verdict => exact .inl nofun
      | none =>
        rcases lost rfl with gone | wild | wild
        · obtain ⟨z,found,cancelled⟩ := isCancelled_iff.mp gone
          rw [before] at found
          cases found
          exact .inr cancelled
        · exact absurd wild lossless.interrupt
        · exact absurd wild lossless.isActive
    · rw [same,List.getElem?_modify_ne _ _ here] at there
      exact lossless.settled q x there ended

theorem move_spares {site : Site} (single : m.Single) (spares : m.Spares site) (spared : site ∉ w.sites) :
    site ∉ (w.move m).sites := by
  refine (endures_spared site).move w m single (fun number o same spared => ?_) spared
  refine change_sites w o ?_ spared
  rintro rfl
  exact spares number same

theorem losesNoAttempt_of_reached {s : Setting} (reached : Reaches Move.Sturdy s.start w) : w.LosesNoAttempt := by
  have kept : s.start.LosesNoAttempt → w.LosesNoAttempt := by
    refine run_keeps (R := fun v w => v.LosesNoAttempt → w.LosesNoAttempt)
      (fun _ internal => internal.sturdy) ?_ reached
    intro v m sturdy single lossless
    refine ⟨(move_goes v single lossless.orderly).1,move_spares single sturdy.1 lossless.interrupt,
      move_spares single sturdy.2 lossless.isActive,?_⟩
    rcases move_cases single lossless.orderly with ⟨id,p,plan,deadline,rfl,own⟩ | bides
    · exact (turn_turned own).settled lossless
    · exact bides.settled lossless.orderly lossless.settled
  refine kept ⟨orderly_of_reached (Frame.refl _),nofun,nofun,?_⟩
  intro p x there
  cases there

theorem interruptsOf_interrupt {k : Nat} (known : k < w.models.length) (j : Nat) :
    (w.modifyModel k Model.interrupt).interruptsOf j =
      if j = k then w.interruptsOf k + 1 else w.interruptsOf j := by
  simp only [interruptsOf,modifyModel,List.getElem?_modify]
  by_cases here : k = j
  · subst here
    simp [List.getElem?_eq_getElem known,Model.interrupt]
  · simp [here,Ne.symm here]

/-- Only an attempt that is not cancelled interrupts a model, its own, and only in its first turn. -/
theorem Interrupts.spec (interrupts : w.Interrupts m p) : ∃ id plan, m = .turn id ∧
    w.Pursues id p plan none ∧ w.isCancelled p = false ∧
      ∀ k, (w.move m).interruptsOf k = if k = plan.model then w.interruptsOf k + 1 else w.interruptsOf k := by
  obtain ⟨id,plan,deadline,rfl,own,k,changed⟩ := interrupts
  have turned := turn_turned own
  rcases turned.models with same | ⟨uncancelled,rfl,made⟩
  · refine absurd ?_ changed
    simp only [interruptsOf,move,same]
  · refine ⟨id,plan,rfl,own,uncancelled,fun j => ?_⟩
    have after (i : Nat) : (w.turn id).interruptsOf i = (w.modifyModel plan.model Model.interrupt).interruptsOf i := by
      rw [interruptsOf,made]
      rfl
    by_cases known : plan.model < w.models.length
    · rw [move,after,interruptsOf_interrupt known]
      split
      · rename_i here
        rw [here]
      · rfl
    · refine absurd ?_ changed
      have beyond : w.models.modify plan.model (fun m => { m with model := m.model.interrupt }) = w.models :=
        List.modify_eq_self (Nat.not_lt.mp known)
      rw [move,after,interruptsOf,modifyModel,beyond]
      rfl

end World

section InForce

variable {s : Setting} {w : World} {n p q : Nat}

theorem AttemptOf.standing (attempt : AttemptOf s w n p) :
    w.stopOf n = some p ∨ w.isCancelled p = true ∧ ∀ q, w.stopOf n = some q → p < q := by
  obtain ⟨v,reached,later,stop⟩ := attempt
  have orderly : v.Orderly := orderly_of_reached (reached.mono fun _ _ => trivial)
  obtain ⟨-,onward⟩ := onward_of_reaches orderly later
  rcases onward.stops n with same | ⟨gone,new⟩
  · exact .inl (same.trans stop)
  · exact .inr ⟨gone p stop,fun q now => Nat.lt_of_lt_of_le (orderly.slot n p stop) (new q now)⟩

theorem AttemptOf.in_force (attempt : AttemptOf s w n p) (kept : w.isCancelled p = false) :
    w.stopOf n = some p := by
  rcases attempt.standing with stop | ⟨gone,-⟩
  · exact stop
  · rw [kept] at gone
    cases gone

theorem AttemptOf.superseded (attempt : AttemptOf s w n p) (later : AttemptOf s w n q) (order : p < q) :
    w.isCancelled p = true := by
  rcases attempt.standing with stop | ⟨gone,-⟩
  · rcases later.standing with same | ⟨-,above⟩
    · rw [stop] at same
      cases same
      exact absurd order (Nat.lt_irrefl _)
    · exact absurd (above p stop) (Nat.lt_asymm order)
  · exact gone

theorem await_cancelled (gone : w.isCancelled p = true) (id : Nat) :
    exec (await id p) w = (.ok (some none),w) := by
  obtain ⟨x,there,ended⟩ := (Option.any_eq_true _ _).mp gone
  have answer : w.promises[p]?.bind Promise.answer? = some none := by
    simp [there,Promise.answer?,ended]
  rw [exec_await,answer]

theorem mute_of_cancelled (gone : w.isCancelled p = true) : w.Mute p where
  observers := await_cancelled gone
  waits id label there := by
    have ran : exec (resume id (.wait p)) (w.taken id) =
        (.ok (.finish (some (.waited (.error .superseded)))),w.taken id) :=
      exec_bind_ok (await_cancelled (w := w.taken id) gone id)
    exact turn_reports there rfl rfl ran
  continuations id label there := by
    have ran : exec (resume id (.continuation p)) (w.taken id) = (.ok (.finish none),w.taken id) :=
      exec_bind_ok (await_cancelled (w := w.taken id) gone id)
    have inside := (List.getElem?_eq_some_iff.mp there).1
    rw [turn_active there rfl,ran]
    exact ⟨conclude_ended (w := w.taken id) inside _ nofun,rfl⟩
  interrupts m interrupts := by
    obtain ⟨id,plan,-,-,fine,-⟩ := interrupts.spec
    rw [gone] at fine
    cases fine

theorem interrupts_once {v : World} {m k : Move} (orderly : w.Orderly) (single : m.Single) (first : w.Interrupts m p)
    (reached : Reaches Move.Sturdy (w.move m) v) : ¬ v.Interrupts k p := by
  intro again
  obtain ⟨id,plan,rfl,own,-,-⟩ := first.spec
  obtain ⟨i,other,-,fresh,-,-⟩ := again.spec
  have turned := turn_turned own
  have onward := turned.onward own orderly
  obtain ⟨-,later⟩ := onward_of_reaches (turned.orderly own orderly) reached
  have known := orderly.known own
  have before := later.begun i p other (Nat.lt_of_lt_of_le known onward.size) fresh
  -- the attempt's only task has its deadline from that first turn on
  obtain ⟨deadline,was,own'⟩ := turned.pursues own before
  have here : i = id := orderly.single i id p other plan deadline none was own
  exact (own' here).1 rfl

theorem stopping_iff : w.stopping n = true ↔ w.jammed n = false ∧ ∃ p x, w.stopOf n = some p ∧
    w.outcomes[p]? = some x ∧ x.value = none ∧ x.cancelled = false := by
  have looked (p : Nat) : (w.promises[p]?.any fun x => !x.settled && !x.cancelled) = true ↔
      ∃ x, w.outcomes[p]? = some x ∧ x.value = none ∧ x.cancelled = false := by
    rcases there : w.promises[p]? with _ | x
    · simp [World.outcomes,there]
    · simp [World.outcomes,there,Promise.settled,Promise.core]
  unfold World.stopping jammed stopOf
  rcases w.links[n]? with _ | l
  · simp
  · rcases stop : l.stop with _ | p
    · simp [stop]
    · simp [stop,looked]

theorem pursued_of_open (lossless : w.LosesNoAttempt) {x : Promise Verdict} (there : w.outcomes[p]? = some x)
    (none : x.value = none) (kept : x.cancelled = false) : w.Calls p := by
  have uncancelled : w.isCancelled p = false := by
    rw [← Bool.not_eq_true,isCancelled_iff]
    rintro ⟨y,found,gone⟩
    rw [there] at found
    cases found
    rw [kept] at gone
    cases gone
  cases open' : x.pending with
  | true => exact calls_iff.mpr ⟨(lossless.orderly.pending p x there open').2,uncancelled⟩
  | false =>
    rcases lossless.settled p x there open' with known | gone
    · exact absurd none known
    · rw [kept] at gone
      cases gone

/-- What may call the model later is under way already, if it was started. -/
theorem World.CanCall.calls (orderly : w.Orderly) (known : p < w.promises.length) (can : w.CanCall p) :
    w.Calls p ∧ ∃ x, w.outcomes[p]? = some x ∧ x.value = none ∧ x.cancelled = false := by
  have uncancelled := can.uncancelled orderly
  obtain ⟨v,reached,calls⟩ := can
  obtain ⟨⟨id,plan,deadline,pursues⟩,-⟩ := calls_iff.mp calls
  obtain ⟨later,onward⟩ := onward_of_reaches orderly reached
  rw [← outcomes_length] at known
  have there := List.getElem?_eq_getElem known
  generalize w.outcomes[p] = x at there
  have kept : x.cancelled = false := by
    rw [← Bool.not_eq_true]
    intro gone
    rw [isCancelled_iff.mpr ⟨x,there,gone⟩] at uncancelled
    cases uncancelled
  cases open' : x.pending with
  | true =>
    obtain ⟨none,pursued⟩ := orderly.pending p x there open'
    exact ⟨calls_iff.mpr ⟨pursued,uncancelled⟩,x,there,none,kept⟩
  | false =>
    obtain ⟨y,after,settled,-⟩ := onward.closed p x there open'
    obtain ⟨z,found,pending⟩ := later.pursued id p plan deadline pursues
    rw [after] at found
    cases found
    rw [settled] at pending
    cases pending

theorem AttemptOf.known (attempt : AttemptOf s w n p) : p < w.promises.length := by
  obtain ⟨v,reached,later,stop⟩ := attempt
  have orderly : v.Orderly := orderly_of_reached (reached.mono fun _ _ => trivial)
  exact Nat.lt_of_lt_of_le (orderly.slot n p stop) (onward_of_reaches orderly later).2.size

theorem attempt_here (reached : Reaches Move.Sturdy s.start w) (stop : w.stopOf n = some p) :
    AttemptOf s w n p := ⟨w,reached,Frame.refl w,stop⟩

theorem stopping_iff_calls (reached : Reaches Move.Sturdy s.start w) (n : Nat) :
    w.stopping n = true ↔ ∃ p, AttemptOf s w n p ∧ w.CanCall p := by
  have lossless := losesNoAttempt_of_reached reached
  rw [stopping_iff]
  constructor
  · rintro ⟨-,p,x,stop,there,none,kept⟩
    exact ⟨p,attempt_here reached stop,w,Frame.refl w,pursued_of_open lossless there none kept⟩
  · rintro ⟨p,attempt,can⟩
    have stop := attempt.in_force (can.uncancelled lossless.orderly)
    obtain ⟨-,x,there,none,kept⟩ := can.calls lossless.orderly attempt.known
    refine ⟨?_,p,x,stop,there,none,kept⟩
    rw [← Bool.not_eq_true]
    intro jam
    rw [lossless.orderly.jammed n jam] at stop
    cases stop

end InForce

/-- One stop attempt at most is in force, whatever callers do, as long as the model is not made to crash
where it is interrupted or asked whether it is active. Of the attempts of a link, numbered as they were
started, all but the last are cancelled, nobody who waits for them gets a verdict, no continuation of
them runs, and they interrupt nothing; so at most one attempt of the link can still call the model, now
or later, and every attempt that can is one of some link. An attempt interrupts the link's model once and
never again. The link is said to be stopping if and only if an attempt of it can still call the model. -/
theorem one_stop_attempt_in_force (s : Setting) (w : World) (reached : Reaches Move.Sturdy s.start w)
    (n : Nat) :
    (∀ v p q, Reaches Move.Sturdy w v → w.stopOf n = some p → v.stopOf n = some q → p ≤ q) ∧
    (∀ p q, AttemptOf s w n p → AttemptOf s w n q → p < q → w.isCancelled p = true ∧ w.Mute p) ∧
    (∀ p q, AttemptOf s w n p → AttemptOf s w n q → w.CanCall p → w.CanCall q → p = q) ∧
    (∀ p, p < w.promises.length → w.CanCall p → ∃ m, AttemptOf s w m p) ∧
    (∀ p m, AttemptOf s w n p → w.Interrupts m p →
      (∃ k, w.modelOf n = some k ∧ ∀ j, (w.move m).interruptsOf j =
        if j = k then w.interruptsOf j + 1 else w.interruptsOf j) ∧
      ∀ v, Reaches Move.Sturdy (w.move m) v → ∀ again, ¬ v.Interrupts again p) ∧
    ∀ status, w.status? n = some status →
      (status.stopping = true ↔ ∃ p, AttemptOf s w n p ∧ w.CanCall p) := by
  have orderly := (losesNoAttempt_of_reached reached).orderly
  refine ⟨fun v p q later before after => ?_,fun p q attempt later order => ?_,
    fun p q one two can also => ?_,fun p known can => ?_,fun p m attempt interrupts => ?_,
    fun status told => ?_⟩
  · have attempt : AttemptOf s v n p := ⟨w,reached,later,before⟩
    rcases attempt.standing with stop | ⟨-,above⟩
    · rw [stop] at after
      exact Nat.le_of_eq (Option.some.inj after)
    · exact Nat.le_of_lt (above q after)
  · have gone := attempt.superseded later order
    exact ⟨gone,mute_of_cancelled gone⟩
  · have first := one.in_force (can.uncancelled orderly)
    rw [two.in_force (also.uncancelled orderly)] at first
    exact (Option.some.inj first).symm
  · obtain ⟨⟨id,plan,deadline,pursues⟩,kept⟩ := calls_iff.mp (can.calls orderly known).1
    rcases orderly.owned id p plan deadline pursues with gone | ⟨m,stop⟩
    · rw [kept] at gone
      cases gone
    · exact ⟨m,attempt_here reached stop⟩
  · obtain ⟨id,plan,rfl,pursues,kept,counts⟩ := interrupts.spec
    have owner := orderly.model (attempt.in_force kept) pursues
    exact ⟨⟨plan.model,owner,counts⟩,fun v later again => interrupts_once (m := .turn id) orderly nofun interrupts later⟩
  · have tells : status.stopping = w.stopping n := by
      obtain ⟨l,-,rfl⟩ := Option.map_eq_some_iff.mp told
      rfl
    rw [tells]
    exact stopping_iff_calls reached n

/-- A busy model is asked to stop, the attempt has its first turn, and a second one is started. -/
def stoppedOnce : World :=
  oneLink.run [.perform 1 (.outside (.busy 0 100)),.perform 2 (.stop "a" true)]

def stoppedTwice : World :=
  stoppedOnce.run [.turn 2,.perform 3 (.wait 2),.perform 4 (.stop "a" true)]

theorem second_attempt_supersedes_first :
    Reaches Move.Sturdy ({} : Setting).start stoppedTwice ∧ AttemptOf {} stoppedTwice 0 1 ∧
      AttemptOf {} stoppedTwice 0 2 ∧ stoppedTwice.isCancelled 1 = true ∧
      (stoppedTwice.turn 3).events = stoppedTwice.events ++ [⟨0,3,.waited (.error .superseded)⟩] := by
  have first : Reaches Move.Sturdy ({} : Setting).start stoppedOnce := by
    refine Frame.trans (reaches_oneLink.mono fun m calm => ?_) ⟨_,by simp [Move.Sturdy,Move.Spares],rfl⟩
    exact ⟨calm _,calm _⟩
  have second : Reaches Move.Sturdy stoppedOnce stoppedTwice :=
    ⟨_,by simp [Move.Sturdy,Move.Spares],rfl⟩
  have reached := Frame.trans first second
  have one : AttemptOf {} stoppedTwice 0 1 := ⟨stoppedOnce,first,second,rfl⟩
  have two : AttemptOf {} stoppedTwice 0 2 := ⟨stoppedTwice,reached,Frame.refl _,rfl⟩
  obtain ⟨-,superseded,-⟩ := one_stop_attempt_in_force {} stoppedTwice reached 0
  obtain ⟨gone,mute⟩ := superseded 1 2 one two (by decide)
  exact ⟨reached,one,two,gone,(mute.waits 3 3 rfl).2⟩

end EditorLink
