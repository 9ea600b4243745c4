import EditorLink.Proofs.Promise.Computation
import EditorLink.Proofs.Promise.Observers

/-! What a computation that nobody cancels comes to, and what its observers hear of it. -/
namespace EditorLink.Promise.Session
variable {α : Type} {s t : Session α} {n id promise : Nat} {result : Option α}

/-- The computation is on its way, or it has ended with its result, unless a cancel dropped it. -/
def Runs (s : Session α) (n id promise : Nat) (result : Option α) : Prop :=
  (∃ sleeping stages,
    s.tasks[id]? = some (some ⟨n,.compute promise sleeping stages result,false⟩)) ∨
  EndedWith s id promise result ∨ s.Cancelled promise

theorem runs_spawned (stages : List Stage) :
    Runs (s.move (.perform n (.spawn stages result))) n s.tasks.length s.promises.length result :=
  .inl ⟨false,stages,by simp [Session.move,perform?,spawn]⟩

theorem Runs.move {m : Move α} (runs : Runs s n id promise result) (wellFormed : WellFormed s)
    (fits : s.Fits m) : Runs (s.move m) n id promise result := by
  rcases runs with ⟨sleeping,stages,there⟩ | ⟨gone,past⟩ | cancelled
  · by_cases turns : m = .turn id
    · subst turns
      obtain ⟨-,p,found,-⟩ := (wellFormed.fit id _ there).owner promise rfl
      rcases turn_computing there found with ⟨already,-⟩ | ⟨-,ends | ⟨rest,q,goes_on,-⟩⟩
      · have cancelled : s.Cancelled promise := ⟨p,found,already⟩
        exact .inr (.inr (cancelled.move fits))
      · exact .inr (.inl ends)
      · exact .inl ⟨true,rest,goes_on⟩
    · exact .inl ⟨sleeping,stages,wellFormed.computes_on fits there rfl turns⟩
  · exact .inr (.inl ⟨gone_move gone fits,past.move wellFormed fits⟩)
  · exact .inr (.inr (cancelled.move fits))

/-- The move does not abort the observer of this number. -/
def NotAborting (n : Nat) (m : Move α) : Prop := ∀ number, m ≠ .perform number (.abort n)

theorem observer_delivered {job : Job α} (registered : Registered (NotAborting n) n job t)
    (observes : job.observes? = some promise) (wanted : ¬ t.Cancelled promise) :
    ObserverWaits t n job false ∨ ∃ answer, t.Over promise answer ∧ Ended t n (job.tells false answer) := by
  obtain ⟨u,command,begun,fits,called,later⟩ := registered
  obtain ⟨begun',waits⟩ := registered_waits begun fits called
  revert wanted
  apply later.keeps (P := fun v => ¬ v.Cancelled promise →
    ObserverWaits v n job false ∨ ∃ answer, v.Over promise answer ∧ Ended v n (job.tells false answer))
  · exact fun _ => .inl waits
  intro v m before fits spares holds wanted
  have begun := begun'.leads before.leads
  have wellFormed := wellFormed_of_begun begun
  have before_cancel : ¬ v.Cancelled promise := fun cancelled => wanted (cancelled.move fits)
  rcases holds before_cancel with waits | ⟨answer,past,ended⟩
  · rcases waits.move wellFormed fits observes with ⟨next,still,same | ⟨number,abort⟩⟩ | ⟨answer,known,ended⟩
    · subst same
      exact .inl still
    · exact absurd abort (spares number)
    · rcases known with aborted | told
      · cases aborted
      · exact .inr ⟨answer,(answer_over begun told before_cancel).move wellFormed fits,ended⟩
  · exact .inr ⟨answer,past.move wellFormed fits,ended.move fits⟩

/-- Nobody waits for a computation that is over, except in the queue. -/
theorem nobody_left {task : Task α} (wellFormed : WellFormed s) (past : s.Over promise result)
    (there : s.tasks[id]? = some (some task)) (observes : task.job.observes? = some promise) :
    id ∈ s.schedule.ready := by
  obtain ⟨-,told,-⟩ := (wellFormed.fit id task there).told promise observes
  rcases told with ready | ⟨p,found,waits,-⟩
  · exact ready
  · obtain ⟨q,found',ended,-⟩ := past
    obtain rfl : p = q := by simpa [found] using found'
    have answered : p.answer? ≠ none := by
      unfold Promise.answer?
      split
      · nofun
      · cases p.value with
        | none => simp [ended]
        | some v => nofun
    exact absurd waits answered

/-- What becomes of an observer: it hears exactly once, unless the computation or its own turn is still
to come. -/
def Heard (t : Session α) (p : Promise α) (n : Nat) (job : Job α) (reports : List (Report α)) : Prop :=
  (ObserverWaits t n job false ∧ t.heard n = [] ∧ (p.pending = false → t.schedule.ready ≠ [])) ∨
    p.pending = false ∧ t.heard n = reports ∧ ∀ u, Leads t u → u.heard n = reports

theorem heard_of_registered {job : Job α} {p : Promise α} (registered : Registered (NotAborting n) n job t)
    (observes : job.observes? = some promise) (wanted : ¬ t.Cancelled promise)
    (found : t.promises[promise]? = some p) : Heard t p n job (job.tells false p.value) := by
  have wellFormed := wellFormed_of_begun registered.begun
  rcases observer_delivered registered observes wanted with waits | ⟨answer,⟨q,found',ended,same⟩,past⟩
  · refine .inl ⟨waits,waits.heard wellFormed observes,fun ended empty => ?_⟩
    obtain ⟨id,there⟩ := waits
    have ready := nobody_left wellFormed ⟨p,found,ended,rfl⟩ there observes
    simp [empty] at ready
  · obtain rfl : p = q := by simpa [found] using found'
    rw [same]
    exact .inr ⟨ended,past.heard,fun u later => (past.leads later).heard⟩

theorem delivered_exactly_once {s t : Session α} {n : Nat} {stages : List Stage} {result : Option α}
    (begun : Begun s) (fits : s.Fits (.perform n (.spawn stages result)))
    (later : Leads (s.move (.perform n (.spawn stages result))) t)
    (wanted : ¬ t.Cancelled s.promises.length) :
    ∃ p, t.promises[s.promises.length]? = some p ∧
      (p.pending = true ∧ p.value = none ∧
          (∃ sleeping rest, t.tasks[s.tasks.length]? =
            some (some ⟨n,.compute s.promises.length sleeping rest result,false⟩)) ∨
        p.pending = false ∧ p.value = result ∧ t.tasks[s.tasks.length]? = some none ∧
          ∀ u, Leads t u → u.Over s.promises.length result) ∧
      (∀ k, Registered (NotAborting k) k (.outcome s.promises.length) t →
        Heard t p k (.outcome s.promises.length) [.outcome p.value]) ∧
      (∀ k sequel, Registered (NotAborting k) k (.continuation s.promises.length sequel) t →
        Heard t p k (.continuation s.promises.length sequel) (p.value.toList.map .continued)) ∧
      (p.pending = false → t.schedule.ready = [] →
        ∀ (id : Nat) (task : Task α), t.tasks[id]? = some (some task) →
          task.job.observes? ≠ some s.promises.length) := by
  have born : Begun (s.move (.perform n (.spawn stages result))) := .move _ begun fits trivial
  have wellFormed := wellFormed_of_begun (born.leads later)
  have runs : Runs t n s.tasks.length s.promises.length result := by
    apply later.keeps (P := fun u => Runs u n s.tasks.length s.promises.length result)
      (runs_spawned stages)
    exact fun u m before fits _ holds => holds.move (wellFormed_of_begun (born.leads before)) fits
  have there : ∃ p, t.promises[s.promises.length]? = some p ∧
      (p.pending = true ∧ p.value = none ∧
          (∃ sleeping rest, t.tasks[s.tasks.length]? =
            some (some ⟨n,.compute s.promises.length sleeping rest result,false⟩)) ∨
        p.pending = false ∧ p.value = result ∧ t.tasks[s.tasks.length]? = some none ∧
          ∀ u, Leads t u → u.Over s.promises.length result) := by
    rcases runs with ⟨sleeping,rest,there⟩ | ⟨gone,p,found,ended,value⟩ | cancelled
    · obtain ⟨-,p,found,pending,value⟩ := (wellFormed.fit _ _ there).owner _ rfl
      exact ⟨p,found,.inl ⟨pending,value,sleeping,rest,there⟩⟩
    · have past : t.Over s.promises.length result := ⟨p,found,ended,value⟩
      exact ⟨p,found,.inr ⟨ended,value,gone,fun u after => past.leads (born.leads later) after⟩⟩
    · exact absurd cancelled wanted
  obtain ⟨p,found,course⟩ := there
  refine ⟨p,found,course,?outcomes,?continuations,?nobody⟩
  case outcomes => exact fun k registered => heard_of_registered registered rfl wanted found
  case continuations =>
    intro k sequel registered
    have heard := heard_of_registered registered rfl wanted found
    cases value : p.value <;> rwa [value] at heard
  case nobody =>
    intro ended empty id task there observes
    have ready := nobody_left wellFormed ⟨p,found,ended,rfl⟩ there observes
    simp [empty] at ready

/-! A computation of five milliseconds, an observer, and a continuation that crashes. -/

def fiveSpawned : Session Nat := ({} : Session Nat).move (.perform 0 (.spawn [.sleep 5] (some 7)))

def fiveAsked : Session Nat := fiveSpawned.move (.perform 1 (.outcome 0))

def fiveWatched : Session Nat := fiveAsked.move (.perform 2 (.continuation 0 none true))

/-- Everyone has had a turn, five milliseconds have gone by, and everyone has had another one. -/
def fiveOver : Session Nat :=
  [.turn 0,.turn 1,.turn 2,.arrive 5,.turn 0,.turn 2,.turn 1].foldl Session.move fiveWatched

theorem crash_of_a_continuation_hurts_nobody :
    ¬ fiveOver.Cancelled 0 ∧ fiveOver.Over 0 (some 7) ∧ fiveOver.schedule.ready = [] ∧
      fiveOver.heard 1 = [.outcome (some 7)] ∧ fiveOver.heard 2 = [.continued 7] := by
  have fits : ({} : Session Nat).Fits (.perform 0 (.spawn [.sleep 5] (some 7))) :=
    ⟨unused_start 0,nofun⟩
  have free (k : Nat) (late : 0 < k) : fiveSpawned.Unused k := by
    apply (unused_start k).move fits
    intro command same
    injection same
    omega
  have asks : fiveSpawned.Fits (.perform 1 (.outcome 0)) := ⟨free 1 (by decide),nofun⟩
  have continues : fiveAsked.Fits (.perform 2 (.continuation 0 none true)) :=
    ⟨(free 2 (by decide)).move asks nofun,nofun⟩
  have begun : Begun fiveSpawned := .move _ .refl fits trivial
  have turns (n : Nat) : Reaches (NotAborting n) fiveWatched fiveOver :=
    reaches_inside _ (by simp [NotAborting])
  have watched (n : Nat) : Reaches (NotAborting n) fiveAsked fiveOver :=
    .trans (.move _ .refl continues nofun) (turns n)
  have later : Leads fiveSpawned fiveOver :=
    .trans (.move _ .refl asks trivial) (watched 1).leads
  have outcome : Registered (NotAborting 1) 1 (.outcome 0) fiveOver :=
    registered_of_call begun asks rfl (watched 1)
  have continuation : Registered (NotAborting 2) 2 (.continuation 0 .crash) fiveOver :=
    registered_of_call (.move _ begun asks trivial) continues rfl (turns 2)
  have wanted : ¬ fiveOver.Cancelled 0 := by
    rw [cancelled_iff]
    decide +kernel
  have empty : fiveOver.schedule.ready = [] := by decide +kernel
  have gone : (fiveOver.tasks[0]?.any Option.isSome) = false := by decide +kernel
  obtain ⟨p,-,course,outcomes,continuations,-⟩ := delivered_exactly_once .refl fits later wanted
  rcases course with ⟨-,-,_,_,there⟩ | ⟨ended,value,-,stays⟩
  · have here : fiveOver.tasks[0]? = _ := there
    simp [here] at gone
  refine ⟨wanted,stays fiveOver .refl,empty,?_,?_⟩
  · rcases outcomes 1 outcome with ⟨-,-,busy⟩ | ⟨-,heard,-⟩
    · exact absurd empty (busy ended)
    · rw [heard,value]
  · rcases continuations 2 _ continuation with ⟨-,-,busy⟩ | ⟨-,heard,-⟩
    · exact absurd empty (busy ended)
    · rw [heard,value]
      rfl

end EditorLink.Promise.Session
