import EditorLink.Proofs.Parallel

/-! What tasks do in two worlds: teardowns, stop attempts, updates, and the wait for a verdict. -/
namespace EditorLink
open EditorLink.Action

variable {s : Split} {v : World} {side : Bool} {e d : Marks} {n m i j p q : Nat}

/-- Where a turn ends. -/
inductive NextAlike (s : Split) (e : Marks) (side : Bool) : Next → Next → Prop
  | pause {j k : Job} (alike : JobAlike s e side j k) : NextAlike s e side (.pause j) (.pause k)
  | finish {x y : Option Report} (reports : Option.Rel (ReportAlike e side) x y) :
      NextAlike s e side (.finish x) (.finish y)

theorem join_alike {is js : List Nat} (all : List.Forall₂ (Stands side e.tasks) is js)
    (stands : Stands side e.tasks i j) : List.Forall₂ (Stands side e.tasks) (Promise.join is i) (Promise.join js j) := by
  have member : i ∈ is ↔ j ∈ js := by
    induction all with
    | nil => exact ⟨nofun,nofun⟩
    | cons head _ ih => rw [List.mem_cons,List.mem_cons,ih,stands.same_iff head]
  rw [Promise.join,Promise.join]
  simp only [member]
  split
  · exact all
  · exact List.rel_append all (.cons stands .nil)

theorem PromiseAlike.answer {x y : Promise Verdict} (alike : PromiseAlike e side x y) : x.answer? = y.answer? := by
  rw [Promise.answer?,Promise.answer?,alike.cancelled,alike.value,alike.pending]

namespace Action

theorem cancelPromise_parallel (stands : Stands side e.promises p q) :
    Parallel s v side Same e (cancelPromise p) (cancelPromise q) := .modifies fun _ _ beside => beside.cancel stands

theorem supersede_parallel (stands : Stands side e.links n m) :
    Parallel s v side Same e (supersede n) (supersede m) := by
  refine (link_parallel stands).bind fun d l k grows alike => ?_
  have stop := alike.stop
  revert stop
  generalize l.stop = x
  generalize k.stop = y
  rintro (promise | -)
  · refine (adjust_parallel (grows.link stands) (fun l => { l with stop := none })
      fun _ _ alike => { alike with stop := .none }).bind fun c _ _ more _ => .gets fun u w beside => ?_
    have promise := more.promise promise
    obtain ⟨x,y,here,there,alike⟩ := beside.promise promise
    rw [here,there,Option.any_some,Option.any_some,Promise.settled,Promise.settled,alike.value]
    split
    · exact (note_parallel _).bind fun _ _ _ last _ => cancelPromise_parallel (last.promise promise)
    · exact cancelPromise_parallel promise
  · exact .gives rfl

theorem startStop_parallel (stands : Stands side e.links n m) (canSpawn : Bool) :
    Parallel s v side (fun d => Stands side d.promises) e (startStop n canSpawn) (startStop m canSpawn) := by
  refine (ensureAlive_parallel stands).bind fun d _ _ grows _ => ?_
  have stands := grows.link stands
  refine (link_parallel stands).bind fun c l k more alike => ?_
  have stands := more.link stands
  rw [alike.stopPoisoned]
  cases k.stopPoisoned with
  | true => cases canSpawn <;> exact .fails_bind .lockPoisoned
  | false =>
    cases canSpawn with
    | false =>
      refine (supersede_parallel stands).bind fun b _ _ next _ => ?_
      exact (adjust_parallel (next.link stands) (fun l => { l with stopPoisoned := true }) fun _ _ alike =>
        { alike with stopPoisoned := rfl }).bind fun _ _ _ _ _ => .crashes
    | true =>
      refine (supersede_parallel stands).bind fun b _ _ next _ u w beside => ?_
      have stands := next.link stands
      obtain ⟨l,k,here,there,alike⟩ := beside.link stands
      obtain ⟨a,grown,added,promise⟩ := beside.addPromise
      have plans : PlanAlike a side
          ⟨l.model,l.config.timeout.toMillis.toNat,l.config.interval.toMillis.toNat⟩
          ⟨k.model,k.config.timeout.toMillis.toNat,k.config.interval.toMillis.toNat⟩ := by
        rw [alike.config]
        exact .mk _ _ _ _ (grown.model alike.model)
      obtain ⟨z,grows,spawned⟩ := added.spawn none nofun (.stop promise plans none)
      have linked := spawned.modifyLink (f := fun l => { l with stop := some u.promises.length })
        (g := fun l => { l with stop := some w.promises.length }) (grows.link (grown.link stands))
        fun _ _ alike => { alike with stop := .some (grows.promise promise) }
      rw [if_pos rfl,if_pos rfl,exec_bind_ok (exec_get u),exec_bind_ok (exec_get w),exec_bind_ok (exec_link_some here),
        exec_bind_ok (exec_link_some there)]
      exact ⟨z,grown.trans grows,linked,.ok _ _ (grows.promise promise)⟩

theorem uncacheModel_parallel (stands : Stands side e.links n m) :
    Parallel s v side Same e (uncacheModel n) (uncacheModel m) := by
  refine (visit_parallel .modelUncache).bind fun d _ _ grows _ => ?_
  refine (link_parallel (grows.link stands)).bind fun c l k more alike => .gets fun u w beside => ?_
  obtain ⟨x,here,there⟩ := beside.model alike.model
  rw [here,there]
  dsimp only
  rcases x.model.uncache with error | after
  · exact .fails _
  · have cleared : Parallel s v side Same c
        (modify fun w => w.modifyModel l.model fun m => m.uncache.toOption.getD m)
        (modify fun w => w.modifyModel k.model fun m => m.uncache.toOption.getD m) :=
      .modifies fun _ _ beside => beside.modifyPlanned alike.model _
    exact cleared.bind fun _ _ _ _ _ => note_parallel _

theorem restore_parallel (stands : Stands side e.links n m) (outcome : Verdict) :
    Parallel s v side Same e (restore n outcome) (restore m outcome) := by
  have hooked : Parallel s v side Same e
      (withHook n do
        let l ← link n
        if !l.dead && l.live then result (attach n) else pure (.ok ()))
      (withHook m do
        let l ← link m
        if !l.dead && l.live then result (attach m) else pure (.ok ())) := by
    refine withHook_parallel stands fun d grows => ?_
    refine (link_parallel (grows.link stands)).bind fun c l k more alike => ?_
    rw [alike.dead,alike.live]
    split
    · exact (attach_parallel (more.link (grows.link stands))).result.imp fun _ _ _ ends => outcomeAlike_eq ends
    · exact .gives rfl
  refine hooked.bind fun d x y grows same => ?_
  cases same
  exact (ofExcept_parallel (P := Same) (outcomeAlike_refl outcome)).bind fun _ _ _ _ _ =>
    ofExcept_parallel (P := Same) (outcomeAlike_refl x)

theorem finishTeardown_parallel (stands : Stands side e.links n m) (stopped : Verdict) :
    Parallel s v side Same e (finishTeardown n stopped) (finishTeardown m stopped) := by
  have restored {a b : Action Unit} (cleared : Parallel s v side Same e a b) :
      Parallel s v side Same e (do restore n (← result a)) (do restore m (← result b)) := by
    refine cleared.result.bind fun d x y grows ends => ?_
    cases outcomeAlike_eq ends
    exact restore_parallel (grows.link stands) x
  cases stopped with
  | error error => exact restored (.fails _)
  | ok _ => exact restored (uncacheModel_parallel stands)

theorem beginTeardown_parallel (stands : Stands side e.links n m) :
    Parallel s v side (fun d => Stands side d.promises) e (beginTeardown n) (beginTeardown m) := by
  refine (clearHook_parallel stands).bind fun d _ _ grows _ => ?_
  have stands := grows.link stands
  refine (startStop_parallel stands true).result.bind fun c x y more ends => ?_
  cases ends with
  | ok x y promise => exact .gives promise
  | error error => exact (restore_parallel (more.link stands) _).bind fun _ _ _ _ _ => .fails _

theorem register_parallel {r : Nat} (own : s.registry r = side) :
    Parallel s v side (fun d => Stands side d.links) e (register r) (register r) := by
  intro u w beside
  have registries := beside.registry own
  revert registries
  rcases here : u.registries[r]? with _ | a
  · rcases there : w.registries[r]? with _ | b
    · intro _
      rw [exec_register_none here,exec_register_none there]
      exact ⟨e,.refl side e,beside,.error _⟩
    · rintro ⟨⟩
  · rcases there : w.registries[r]? with _ | b
    · rintro ⟨⟩
    · rintro (alike | -)
      have found : (u.current? r).isSome = (w.current? r).isSome := by
        have rel := beside.current own
        revert rel
        generalize u.current? r = x
        generalize w.current? r = y
        rintro (- | -) <;> rfl
      rw [exec_register_there here,exec_register_there there,alike.poisoned,found,beside.common.sites]
      split
      · exact ⟨e,.refl side e,beside,.error _⟩
      · split
        · exact ⟨e,.refl side e,beside,.error _⟩
        · split
          · exact ⟨e,.refl side e,beside.withoutFactory own,.error _⟩
          · obtain ⟨d,grows,made,link⟩ := beside.withLink own alike
            exact ⟨d,grows,made,.ok _ _ link⟩

theorem discard_parallel (stands : Stands side e.links n m) (error : LinkError) :
    Parallel s v side Same e (discard n error) (discard m error) :=
  (note_parallel _).bind fun _ _ _ grows _ => (kill_parallel (grows.link stands)).bind fun _ _ _ _ _ => .fails _

/-! Jobs. -/

theorem now_parallel : Parallel s v side Same e now now :=
  .gets fun _ _ beside => .gives beside.common.now

theorem sleep_parallel (task : Stands side e.tasks i j) (ms : Nat) :
    Parallel s v side Same e (sleep i ms) (sleep j ms) := .modifies fun _ _ beside => beside.sleep task ms

theorem endPromise_parallel (stands : Stands side e.promises p q) (value : Option Verdict) :
    Parallel s v side Same e (endPromise p value) (endPromise q value) :=
  .modifies fun _ _ beside => beside.finish stands value

theorem await_parallel (task : Stands side e.tasks i j) (stands : Stands side e.promises p q) :
    Parallel s v side Same e (await i p) (await j q) := by
  refine .gets fun u w beside => ?_
  obtain ⟨x,y,here,there,alike⟩ := beside.promise stands
  rw [here,there,Option.bind_some,Option.bind_some,alike.answer]
  cases y.answer? with
  | none =>
    have observed : Parallel s v side Same e (modifyPromise p fun x => x.observe i)
        (modifyPromise q fun x => x.observe j) :=
      .modifies fun _ _ beside => beside.modifyPromise stands fun _ _ alike =>
        { alike with
          onCancel := join_alike alike.onCancel task
          onValue := join_alike alike.onValue task }
    exact observed.bind fun _ _ _ _ _ => .gives rfl
  | some answer => exact .gives rfl

theorem model_parallel (stands : Stands side e.models n m) :
    Parallel s v side Same e (model n) (model m) := by
  refine .gets fun u w beside => ?_
  obtain ⟨x,here,there⟩ := beside.model stands
  rw [here,there]
  exact .gives rfl

theorem feed_parallel (stands : Stands side e.models n m) (text : String) :
    Parallel s v side (fun d => NextAlike s d side) e (feed n text) (feed m text) := by
  refine (model_parallel stands).bind fun d x y grows same => ?_
  cases same
  refine now_parallel.bind fun c time _ more same => ?_
  cases same
  have fed : Parallel s v side Same c (modify fun w => w.modifyModel n fun m => (m.update time text).2)
      (modify fun w => w.modifyModel m fun m => (m.update time text).2) :=
    .modifies fun _ _ beside => beside.modifyPlanned (more.model (grows.model stands)) _
  exact fed.bind fun _ _ _ _ _ => .gives (.finish (.some (.same _ nofun)))

theorem startUpdate_parallel (task : Stands side e.tasks i j) (stands : Stands side e.links n m) :
    Parallel s v side (fun d => NextAlike s d side) e (startUpdate i n) (startUpdate j m) := by
  refine (ensureAlive_parallel stands).bind fun d _ _ grows _ => ?_
  refine (visit_parallel .getText).bind fun c _ _ more _ => .gets fun u w beside => ?_
  rw [beside.text]
  refine (note_parallel _).bind fun b _ _ next _ => (visit_parallel .update).bind fun a _ _ last _ => ?_
  have grows := grows.trans (more.trans (next.trans last))
  refine (link_parallel (grows.link stands)).bind fun z l k later alike => ?_
  have grows := grows.trans later
  refine (model_parallel alike.model).bind fun y planned _ then' same => ?_
  cases same
  have grows := grows.trans then'
  have own := then'.model alike.model
  cases planned.failsUpdate with
  | some error => exact .fails _
  | none =>
    dsimp only
    split
    · exact feed_parallel own _
    · refine now_parallel.bind fun x time _ onward same => ?_
      cases same
      have busied : Parallel s v side Same x
          (modify fun w => w.modifyModel l.model fun x => x.busyFor time planned.updateMillis)
          (modify fun w => w.modifyModel k.model fun x => x.busyFor time planned.updateMillis) :=
        .modifies fun _ _ beside => beside.modifyPlanned (onward.model own) _
      refine busied.bind fun x' _ _ after _ => ?_
      have grows := (grows.trans onward).trans after
      exact (sleep_parallel (grows.task task) _).bind fun _ _ _ end' _ =>
        .gives (.pause (.update ((grows.trans end').link stands) _))

end Action
end EditorLink
