import EditorLink.Proofs.Pause

/-! A stop attempt by itself: what it takes to start one in place of the one before, and what each of its
turns comes to. Who waits for its promise is left out. -/
namespace EditorLink
open World EditorLink.Action

namespace Promise

variable {α : Type}

def core (x : Promise α) : Promise α := { x with onCancel := [], onValue := [] }

def ended (value : Option α) (x : Promise α) : Promise α := { x with value, pending := false }

def revoked (x : Promise α) : Promise α := { x with cancelled := true }

theorem core_cancel (x : Promise α) : x.cancel.1.core = x.core.revoked := by
  unfold cancel
  split
  · rename_i gone
    simp [core,revoked,gone]
  · rfl

end Promise

namespace World

def outcomes (w : World) : List (Promise Verdict) := w.promises.map Promise.core

def isCancelled (w : World) (p : Nat) : Bool := w.promises[p]?.any Promise.cancelled

/-- The last stop attempt of a link. -/
def stopOf (w : World) (n : Nat) : Option Nat := w.links[n]?.bind Link.stop

def jammed (w : World) (n : Nat) : Bool := w.links[n]?.any Link.stopPoisoned

def modelOf (w : World) (n : Nat) : Option Nat := w.links[n]?.map Link.model

def interruptsOf (w : World) (k : Nat) : Nat := w.models[k]?.elim 0 fun m => m.model.interrupts

/-- The task sees to a stop attempt. -/
def Pursues (w : World) (id p : Nat) (plan : StopPlan) (deadline : Option Nat) : Prop :=
  w.tasks[id]? = some (some { label := none, job := .stop p plan deadline })

theorem isCancelled_iff {w : World} {p : Nat} :
    w.isCancelled p = true ↔ ∃ x, w.outcomes[p]? = some x ∧ x.cancelled = true := by
  simp only [isCancelled,outcomes,Option.any_eq_true,List.getElem?_map,Option.map_eq_some_iff]
  constructor
  · rintro ⟨x,there,gone⟩
    exact ⟨_,⟨x,there,rfl⟩,gone⟩
  · rintro ⟨_,⟨x,there,rfl⟩,gone⟩
    exact ⟨x,there,gone⟩

theorem outcomes_length (w : World) : w.outcomes.length = w.promises.length := List.length_map _

theorem updatePromise_same (w : World) (p : Nat) (f : Promise Verdict → Promise Verdict × List Nat) :
    ∃ schedule, w.updatePromise p f =
      { w with schedule, promises := w.promises.modify p fun x => (f x).1 } := by
  unfold updatePromise
  rcases there : w.promises[p]? with _ | x
  · have beyond : w.promises.modify p (fun x => (f x).1) = w.promises :=
      List.modify_eq_self (by simpa using there)
    exact ⟨w.schedule,by rw [beyond]⟩
  · exact ⟨_,by rw [modify_eq_set _ there]⟩

theorem outcomes_cancel (w : World) (p : Nat) :
    (w.updatePromise p Promise.cancel).outcomes = w.outcomes.modify p Promise.revoked := by
  obtain ⟨schedule,same⟩ := updatePromise_same w p Promise.cancel
  rw [same]
  exact map_modify Promise.core Promise.core_cancel w.promises p

theorem modelActive_interrupt (w : World) (k n : Nat) :
    (w.modifyModel k Model.interrupt).modelActive n = w.modelActive n := by
  have elim (v : World) : v.modelActive n = v.models[n]?.elim false fun m => m.model.isActive v.now := by
    unfold modelActive
    cases v.models[n]? <;> rfl
  rw [elim,elim]
  exact elim_modifyModel (f := Model.interrupt) (fun m => m.isActive w.now) (fun _ => rfl) w k n false

end World

/-- How the link goes about an attempt. -/
def Link.plan (l : Link) : StopPlan := ⟨l.model,l.config.stopTimeout.toNat,l.config.pollInterval.toNat⟩

namespace World

/-- How a link goes about its attempts. -/
def planOf (w : World) (n : Nat) : Option StopPlan := w.links[n]?.map Link.plan

theorem modelOf_planOf (w : World) (n : Nat) : w.modelOf n = (w.planOf n).map StopPlan.model := by
  simp only [modelOf,planOf,Option.map_map]
  rfl

/-- The link has a new attempt. -/
def attempted (w : World) (n : Nat) (l : Link) : World :=
  World.modifyLink
    ({ w with promises := w.promises ++ [({} : Promise Verdict)] }.spawn none
      (.stop w.promises.length l.plan none))
    n fun l => { l with stop := some w.promises.length }

/-- The link has let go of its attempt, and cancelled it. -/
structure Released (n : Nat) (l : Link) (w v : World) : Prop where
  same : v = { w with schedule := v.schedule, notices := v.notices, links := v.links, promises := v.promises }
  links : v.links = w.links.set n { l with stop := none }
  outcomes : v.outcomes = match l.stop with
    | none => w.outcomes
    | some p => w.outcomes.modify p Promise.revoked

theorem Released.found {n : Nat} {l : Link} {w v : World} (released : Released n l w v)
    (there : w.links[n]? = some l) : v.links[n]? = some { l with stop := none } := by
  rw [released.links]
  exact List.getElem?_set_self (List.getElem?_eq_some_iff.mp there).1

end World

namespace Action

variable {w : World} {n : Nat} {l : Link}

theorem supersede_released (there : w.links[n]? = some l) :
    ∃ v, exec (supersede n) w = (.ok (),v) ∧ Released n l w v := by
  rw [supersede,exec_bind_ok (exec_link_some there)]
  rcases stop : l.stop with _ | p
  · refine ⟨w,rfl,rfl,?_,by rw [stop]⟩
    obtain ⟨inside,same⟩ := List.getElem?_eq_some_iff.mp there
    have unchanged : { l with stop := none } = l := by rw [← stop]
    rw [unchanged,← same,List.set_getElem_self]
  · dsimp only
    have forgot : exec (modifyLink n fun l => { l with stop := none }) w =
        (.ok (),{ w with links := w.links.set n { l with stop := none } }) := by
      rw [exec_modifyLink,World.modifyLink,modify_eq_set _ there]
    rw [exec_bind_ok forgot,exec_bind_ok (exec_get _)]
    have cancels (notices : List Notice) :
        ∃ v, exec (cancelPromise p) { w with links := w.links.set n { l with stop := none }, notices } =
          (.ok (),v) ∧ Released n l w v := by
      obtain ⟨schedule,same⟩ := updatePromise_same
        { w with links := w.links.set n { l with stop := none }, notices } p Promise.cancel
      refine ⟨_,exec_modify _ _,by rw [same],by rw [same],?_⟩
      rw [stop]
      exact outcomes_cancel _ p
    split
    · rw [exec_bind_ok (exec_note _ _)]
      exact cancels _
    · exact cancels w.notices

/-- An attempt is refused and nothing happens, or the one before is cancelled. Then there is a new one,
or nothing can run it and the link's attempts are jammed. -/
theorem startStop_cases (n : Nat) (canSpawn : Bool) (w : World) :
    (∃ fault, exec (startStop n canSpawn) w = (.error fault,w)) ∨
      ∃ l v, w.links[n]? = some l ∧ l.stopPoisoned = false ∧ Released n l w v ∧
        exec (startStop n canSpawn) w =
          if canSpawn then (.ok v.promises.length,v.attempted n { l with stop := none })
          else (.error .crash,v.modifyLink n fun l => { l with stopPoisoned := true }) := by
  rcases there : w.links[n]? with _ | l
  · have missing : exec (ensureAlive n) w = (.error .crash,w) := by
      rw [ensureAlive,exec_bind_error (exec_link_none there)]
    exact .inl ⟨_,exec_bind_error missing⟩
  · rw [startStop]
    have looked := reads_ensureAlive n w
    rcases alive : exec (ensureAlive n) w with ⟨fault | _,u⟩
    · rw [alive] at looked
      obtain rfl := looked
      exact .inl ⟨fault,exec_bind_error alive⟩
    · rw [alive] at looked
      obtain rfl := looked
      rw [exec_bind_ok alive,exec_bind_ok (exec_link_some there)]
      cases poisoned : l.stopPoisoned with
      | true => exact .inl ⟨_,rfl⟩
      | false =>
        obtain ⟨v,released,how⟩ := supersede_released there
        refine .inr ⟨l,v,rfl,poisoned,how,?_⟩
        rw [if_neg (by simp),exec_bind_ok released]
        cases canSpawn with
        | false => rfl
        | true =>
          rw [if_pos rfl,exec_bind_ok (exec_get v),exec_bind_ok (exec_link_some (how.found there))]
          dsimp only
          rw [Config.timeout_toMillis,Config.interval_toMillis]
          rfl

variable {p : Nat} {plan : StopPlan}

theorem endPromise_ends (p : Nat) (value : Option Verdict) (w : World) :
    ∃ v, exec (endPromise p value) w = (.ok (),v) ∧
      v = { w with schedule := v.schedule, promises := v.promises } ∧
      v.outcomes = w.outcomes.modify p (Promise.ended value) := by
  obtain ⟨schedule,same⟩ := updatePromise_same w p fun x => x.finish value
  refine ⟨_,exec_modify _ w,by rw [same],?_⟩
  rw [same]
  exact map_modify (h := Promise.ended value) Promise.core (fun _ => rfl) w.promises p

/-- What a turn of an attempt comes to. It pauses with all attempts as they were, or its own one ends. -/
structure Tried (w : World) (p : Nat) (plan : StopPlan) (deadline : Option Nat) (r : Except Fault Next)
    (v : World) : Prop where
  same : v = { w with
    schedule := v.schedule, notices := v.notices, models := v.models, promises := v.promises }
  models : v.models = w.models ∨ w.isCancelled p = false ∧ deadline = none ∧
    v.models = (w.modifyModel plan.model Model.interrupt).models
  goes : (∃ next, r = .ok (.pause (.stop p plan (some next))) ∧ v.outcomes = w.outcomes) ∨
    ∃ value, (r = .ok (.finish none) ∨ r = .error .crash) ∧
      v.outcomes = w.outcomes.modify p (Promise.ended value) ∧
      (value = none → w.isCancelled p = true ∨ .interrupt ∈ w.sites ∨ .isActive ∈ w.sites) ∧
      (value = some (.ok ()) → w.modelActive plan.model = false) ∧
      ∀ e, value = some (.error e) → e = .stopTimedOut plan.timeout

theorem checkStop_cases (id p : Nat) (plan : StopPlan) (deadline : Nat) (w : World) :
    .isActive ∈ w.sites ∧ exec (checkStop id p plan deadline) w = (.error .crash,w) ∨
      .isActive ∉ w.sites ∧ ∃ next v, exec (checkStop id p plan deadline) w = (.ok next,v) ∧
        Tried w p plan (some deadline) (.ok next) v := by
  rw [checkStop]
  by_cases wild : .isActive ∈ w.sites
  · exact .inl ⟨wild,exec_bind_error (exec_visit_wild wild)⟩
  · refine .inr ⟨wild,?_⟩
    rw [exec_bind_ok (exec_visit wild),exec_bind_ok (exec_get w)]
    have settles (v : Verdict) (notices : List Notice) (idle : v = .ok () → w.modelActive plan.model = false)
        (late : ∀ e, v = .error e → e = .stopTimedOut plan.timeout) :
        ∃ next u, exec (do endPromise p (some v); pure (Next.finish none)) { w with notices } =
          (.ok next,u) ∧ Tried w p plan (some deadline) (.ok next) u := by
      obtain ⟨u,ended,same,outcomes⟩ := endPromise_ends p (some v) { w with notices }
      refine ⟨_,u,by rw [exec_bind_ok ended,exec_pure],by rw [same],.inl (by rw [same]),.inr ?_⟩
      refine ⟨some v,.inl rfl,outcomes,nofun,fun fine => idle (Option.some.inj fine),fun e failed => ?_⟩
      exact late e (Option.some.inj failed)
    unfold StopPlan.check
    rcases active : w.modelActive plan.model with _ | _
    · rw [active] at settles
      exact settles (.ok ()) w.notices (fun _ => rfl) nofun
    · simp only [Bool.not_true,Bool.false_eq_true,if_false]
      split
      · exact ⟨_,_,rfl,rfl,.inl rfl,.inl ⟨deadline,rfl,rfl⟩⟩
      · rename_i v settled
        split at settled
        · cases settled
          exact settles _ _ nofun fun _ same => (Except.error.inj same).symm
        · cases settled

theorem stopDeadline_cases (plan : StopPlan) (deadline : Option Nat) (w : World) :
    deadline = none ∧ .interrupt ∈ w.sites ∧ exec (stopDeadline plan deadline) w = (.error .crash,w) ∨
      ∃ next v, exec (stopDeadline plan deadline) w = (.ok next,v) ∧
        v = { w with models := v.models } ∧ (v.models = w.models ∨ deadline = none ∧ .interrupt ∉ w.sites ∧
          v.models = (w.modifyModel plan.model Model.interrupt).models) := by
  cases deadline with
  | some d => exact .inr ⟨d,w,rfl,rfl,.inl rfl⟩
  | none =>
    rw [stopDeadline]
    by_cases wild : .interrupt ∈ w.sites
    · exact .inl ⟨rfl,wild,exec_bind_error (exec_visit_wild wild)⟩
    · rw [exec_bind_ok (exec_visit wild)]
      exact .inr ⟨_,_,rfl,rfl,.inr ⟨rfl,wild,rfl⟩⟩

theorem outcomes_attend (w : World) (p id : Nat) :
    World.outcomes { w with promises := w.promises.modify p fun x => x.attend id } = w.outcomes :=
  map_modify_same Promise.core (fun x => x.attend id) (fun _ => rfl) w.promises p

theorem isCancelled_of_outcomes {w v : World} (same : v.outcomes = w.outcomes) (p : Nat) :
    v.isCancelled p = w.isCancelled p := by
  rw [Bool.eq_iff_iff,isCancelled_iff,isCancelled_iff,same]

theorem resumeStop_cancelled (id : Nat) (plan : StopPlan) (deadline : Option Nat)
    (cancelled : w.isCancelled p = true) :
    ∃ v, exec (resumeStop id p plan deadline) w = (.ok (.finish none),v) ∧
      v = { w with schedule := v.schedule, notices := v.notices, promises := v.promises } ∧
      v.outcomes = w.outcomes.modify p (Promise.ended none) := by
  obtain ⟨v,ended,same,outcomes⟩ := endPromise_ends p none (w.note .computationDropped)
  refine ⟨v,?_,by rw [same]; rfl,outcomes⟩
  have gone : w.promises[p]?.any Promise.cancelled = true := cancelled
  rw [resumeStop,exec_bind_ok (exec_get w),if_pos gone,exec_bind_ok (exec_note _ w),exec_bind_ok ended,
    exec_pure]

theorem exec_resumeStop (id : Nat) (plan : StopPlan) (deadline : Option Nat)
    (uncancelled : w.isCancelled p = false) :
    exec (resumeStop id p plan deadline) w =
      exec (onCrash (do checkStop id p plan (← stopDeadline plan deadline)) (endPromise p none))
        { w with promises := w.promises.modify p fun x => x.attend id } := by
  have kept : ¬ w.promises[p]?.any Promise.cancelled = true := by
    rw [Bool.not_eq_true]
    exact uncancelled
  rw [resumeStop,exec_bind_ok (exec_get w),if_neg kept]
  rfl

/-- The attempt has said that it wants to hear of a cancel, and has interrupted the model if it is its
first turn. -/
structure Readied (w : World) (plan : StopPlan) (deadline : Option Nat) (t : World) : Prop where
  same : t = { w with models := t.models, promises := t.promises }
  outcomes : t.outcomes = w.outcomes
  models : t.models = w.models ∨ deadline = none ∧
    t.models = (w.modifyModel plan.model Model.interrupt).models

variable {deadline : Option Nat} {t : World}

theorem Readied.active (readied : Readied w plan deadline t) :
    t.modelActive plan.model = w.modelActive plan.model := by
  have active := modelActive_interrupt w plan.model plan.model
  have now : t.now = w.now := by rw [readied.same]; rfl
  rcases readied.models with made | ⟨-,made⟩
  · rw [modelActive,modelActive,made,now]
  · rw [← active,modelActive,modelActive,made,now]
    rfl

theorem Readied.crashed (readied : Readied w plan deadline t) (uncancelled : w.isCancelled p = false)
    (wild : .interrupt ∈ w.sites ∨ .isActive ∈ w.sites) {r : Except Fault Next} {v : World}
    (ran : exec (do endPromise p none; crash : Action Next) t = (r,v)) : Tried w p plan deadline r v := by
  obtain ⟨u,ended,known,outcomes⟩ := endPromise_ends p none t
  rw [exec_bind_ok ended,exec_crash] at ran
  cases ran
  have models : v.models = t.models := by rw [known]
  rw [readied.outcomes] at outcomes
  refine ⟨by rw [known,readied.same],?_,.inr ⟨none,.inr rfl,outcomes,fun _ => .inr wild,nofun,nofun⟩⟩
  rw [models]
  exact readied.models.imp_right fun made => ⟨uncancelled,made⟩

theorem Readied.tried (readied : Readied w plan deadline t) (uncancelled : w.isCancelled p = false)
    {next : Nat} {r : Except Fault Next} {v : World} (tried : Tried t p plan (some next) r v) :
    Tried w p plan deadline r v where
  same := by rw [tried.same,readied.same]
  models := by
    rcases tried.models with models | ⟨-,fresh,-⟩
    · rw [models]
      exact readied.models.imp_right fun made => ⟨uncancelled,made⟩
    · cases fresh
  goes := by
    rcases tried.goes with ⟨after,paused,outcomes⟩ | ⟨value,ended,outcomes,lost,idle,late⟩
    · exact .inl ⟨after,paused,outcomes.trans readied.outcomes⟩
    · have sites : t.sites = w.sites := by rw [readied.same]
      rw [readied.outcomes] at outcomes
      rw [isCancelled_of_outcomes readied.outcomes,sites] at lost
      rw [readied.active] at idle
      exact .inr ⟨value,ended,outcomes,lost,idle,late⟩

theorem resumeStop_tried (id p : Nat) (plan : StopPlan) (deadline : Option Nat) (w : World) :
    Tried w p plan deadline (exec (resumeStop id p plan deadline) w).1
      (exec (resumeStop id p plan deadline) w).2 := by
  cases cancelled : w.isCancelled p with
  | true =>
    obtain ⟨v,ran,same,outcomes⟩ := resumeStop_cancelled id plan deadline cancelled
    rw [ran]
    exact ⟨by rw [same],.inl (by rw [same]),.inr ⟨none,.inl rfl,outcomes,fun _ => .inl cancelled,nofun,nofun⟩⟩
  | false =>
    rw [exec_resumeStop id plan deadline cancelled,exec_onCrash]
    have attended := outcomes_attend w p id
    generalize ready : { w with promises := w.promises.modify p fun x => x.attend id } = u at attended ⊢
    have sites : u.sites = w.sites := by rw [← ready]
    have models : u.models = w.models := by rw [← ready]
    rcases stopDeadline_cases plan deadline u with ⟨-,wild,crashed⟩ | ⟨next,t,set,same,made⟩
    · have readied : Readied w plan deadline u := ⟨by rw [← ready],attended,.inl models⟩
      rw [exec_bind_error crashed]
      exact readied.crashed cancelled (.inl (sites ▸ wild)) rfl
    · have readied : Readied w plan deadline t := by
        refine ⟨by rw [same,← ready],by rw [same]; exact attended,?_⟩
        rw [← ready] at made
        exact made.imp_right fun made => ⟨made.1,made.2.2⟩
      rw [exec_bind_ok set]
      rcases checkStop_cases id p plan next t with ⟨wild,crashed⟩ | ⟨-,after,v,checked,tried⟩
      · have seen : t.sites = w.sites := by rw [same,sites]
        rw [crashed]
        exact readied.crashed cancelled (.inr (seen ▸ wild)) rfl
      · rw [checked]
        exact readied.tried cancelled tried

theorem resumeStop_crashes_iff {id : Nat} (wild : .isActive ∈ w.sites) :
    (exec (resumeStop id p plan deadline) w).1 = .error .crash ↔ w.isCancelled p = false := by
  cases cancelled : w.isCancelled p with
  | true =>
    obtain ⟨v,ran,-⟩ := resumeStop_cancelled id plan deadline cancelled
    simp [ran]
  | false =>
    have crashes {t : World} : (exec (do endPromise p none; crash : Action Next) t).1 = .error .crash := rfl
    rw [exec_resumeStop id plan deadline cancelled,exec_onCrash]
    refine ⟨fun _ => rfl,fun _ => ?_⟩
    generalize ready : { w with promises := w.promises.modify p fun x => x.attend id } = u
    have sites : u.sites = w.sites := by rw [← ready]
    rcases stopDeadline_cases plan deadline u with ⟨-,-,crashed⟩ | ⟨next,t,set,same,-⟩
    · rw [exec_bind_error crashed]
      exact crashes
    · rw [exec_bind_ok set]
      rcases checkStop_cases id p plan next t with ⟨-,crashed⟩ | ⟨spared,-⟩
      · rw [crashed]
        exact crashes
      · refine absurd ?_ spared
        rw [same]
        exact sites ▸ wild

end Action
end EditorLink
