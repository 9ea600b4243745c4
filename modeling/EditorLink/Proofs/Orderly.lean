import EditorLink.Proofs.Attempt
import EditorLink.Proofs.Tasks

/-! The order among stop attempts. As long as an attempt may still deliver, exactly one task sees to it; a
link lets go of an attempt only by cancelling it, and the attempts that come later bear higher numbers. -/
namespace EditorLink
open World EditorLink.Action

def Job.Stops (job : Job) : Prop := ∃ p plan deadline, job = .stop p plan deadline

theorem Job.Follows.stops {job next : Job} (follows : job.Follows next) (stops : next.Stops) : job.Stops := by
  obtain ⟨p,plan,deadline,same⟩ := stops
  cases follows with
  | stop q before after next => exact ⟨q,before,after,rfl⟩
  | _ => cases same

theorem Job.AsStarted.not_stops {job : Job} (called : job.AsStarted) : ¬ job.Stops := by
  rintro ⟨p,plan,deadline,rfl⟩
  exact called

/-- Some of the promises may have been cancelled. -/
def Revokes (before after : List (Promise Verdict)) : Prop :=
  after.length = before.length ∧ ∀ (p : Nat) (x : Promise Verdict), before[p]? = some x →
    ∃ y, after[p]? = some y ∧ y.pending = x.pending ∧ y.value = x.value ∧
      (x.cancelled = true → y.cancelled = true)

theorem Revokes.refl (items : List (Promise Verdict)) : Revokes items items :=
  ⟨rfl,fun _ x there => ⟨x,there,rfl,rfl,id⟩⟩

theorem Revokes.trans {first next last : List (Promise Verdict)} (one : Revokes first next)
    (two : Revokes next last) : Revokes first last := by
  refine ⟨two.1.trans one.1,fun p x there => ?_⟩
  obtain ⟨y,between,pending,value,gone⟩ := one.2 p x there
  obtain ⟨z,after,open',same,ended⟩ := two.2 p y between
  exact ⟨z,after,open'.trans pending,same.trans value,fun h => ended (gone h)⟩

theorem Revokes.back {before after : List (Promise Verdict)} (revokes : Revokes before after) {p : Nat}
    {y : Promise Verdict} (there : after[p]? = some y) :
    ∃ x, before[p]? = some x ∧ y.pending = x.pending ∧ y.value = x.value := by
  have inside := (List.getElem?_eq_some_iff.mp there).1
  obtain ⟨z,found,pending,value,-⟩ :=
    revokes.2 p _ (List.getElem?_eq_getElem (revokes.1 ▸ inside))
  rw [there] at found
  cases found
  exact ⟨_,List.getElem?_eq_getElem (revokes.1 ▸ inside),pending,value⟩

theorem revokes_modify (items : List (Promise Verdict)) (p : Nat) :
    Revokes items (items.modify p Promise.revoked) := by
  refine ⟨List.length_modify _ _ _,fun q x there => ?_⟩
  rw [List.getElem?_modify,there]
  by_cases here : p = q
  · exact ⟨x.revoked,by simp [here],rfl,rfl,fun _ => rfl⟩
  · exact ⟨x,by simp [here],rfl,rfl,id⟩

namespace World

/-- No attempt is started, and none gets a turn. -/
structure Aloof (v w : World) : Prop where
  outcomes : Revokes v.outcomes w.outcomes
  tasks : ∀ (i : Nat) (t : Task), t.job.Stops →
    (w.tasks[i]? = some (some t) ↔ v.tasks[i]? = some (some t))
  stops : ∀ n, w.stopOf n = v.stopOf n ∨ w.stopOf n = none ∧
    ∀ p, v.stopOf n = some p → p < v.promises.length → w.isCancelled p = true
  jammed : ∀ n, w.jammed n = true → v.jammed n = true ∨ w.stopOf n = none
  plans : ∀ n plan, v.planOf n = some plan → w.planOf n = some plan
  interrupts : ∀ k, w.interruptsOf k = v.interruptsOf k

theorem Aloof.size {v w : World} (aloof : Aloof v w) : w.promises.length = v.promises.length := by
  rw [← outcomes_length,← outcomes_length,aloof.outcomes.1]

theorem Aloof.cancelled {v w : World} (aloof : Aloof v w) {p : Nat} (gone : v.isCancelled p = true) :
    w.isCancelled p = true := by
  obtain ⟨x,there,ended⟩ := isCancelled_iff.mp gone
  obtain ⟨y,found,-,-,also⟩ := aloof.outcomes.2 p x there
  exact isCancelled_iff.mpr ⟨y,found,also ended⟩

theorem Aloof.pursues {v w : World} (aloof : Aloof v w) {i p : Nat} {plan : StopPlan}
    {deadline : Option Nat} : w.Pursues i p plan deadline ↔ v.Pursues i p plan deadline :=
  aloof.tasks i _ ⟨p,plan,deadline,rfl⟩

instance : Frame Aloof where
  refl w := ⟨.refl _,fun _ _ _ => Iff.rfl,fun _ => .inl rfl,fun _ => .inl,fun _ _ => id,fun _ => rfl⟩
  trans first next :=
    { outcomes := first.outcomes.trans next.outcomes
      tasks := fun i t stops => (next.tasks i t stops).trans (first.tasks i t stops)
      stops := by
        intro n
        rcases next.stops n with same | ⟨free,gone⟩
        · rcases first.stops n with before | ⟨free,gone⟩
          · exact .inl (same.trans before)
          · exact .inr ⟨same.trans free,fun p stop known => next.cancelled (gone p stop known)⟩
        · refine .inr ⟨free,fun p stop known => ?_⟩
          rcases first.stops n with before | ⟨-,ended⟩
          · exact gone p (before.trans stop) (first.size ▸ known)
          · exact next.cancelled (ended p stop known)
      jammed := by
        intro n jam
        rcases next.jammed n jam with before | free
        · rcases first.jammed n before with old | free
          · exact .inl old
          · rcases next.stops n with same | ⟨free,-⟩
            · exact .inr (same.trans free)
            · exact .inr free
        · exact .inr free
      plans := fun n plan made => next.plans n plan (first.plans n plan made)
      interrupts := fun k => (next.interrupts k).trans (first.interrupts k) }

structure Orderly (w : World) : Prop where
  tended : ∀ (i : Nat) (t : Task), w.tasks[i]? = some (some t) → t.job.Stops →
    t.label = none ∧ t.aborted = false
  pursued : ∀ i p plan deadline, w.Pursues i p plan deadline →
    ∃ x, w.outcomes[p]? = some x ∧ x.pending = true
  single : ∀ i j p plan other deadline later, w.Pursues i p plan deadline → w.Pursues j p other later →
    i = j
  pending : ∀ (p : Nat) (x : Promise Verdict), w.outcomes[p]? = some x → x.pending = true →
    x.value = none ∧ ∃ i plan deadline, w.Pursues i p plan deadline
  jammed : ∀ n, w.jammed n = true → w.stopOf n = none
  slot : ∀ n p, w.stopOf n = some p → p < w.promises.length
  owner : ∀ n p i plan deadline, w.stopOf n = some p → w.Pursues i p plan deadline →
    w.planOf n = some plan
  owned : ∀ i p plan deadline, w.Pursues i p plan deadline →
    w.isCancelled p = true ∨ ∃ n, w.stopOf n = some p

theorem Orderly.known {w : World} (orderly : w.Orderly) {i p : Nat} {plan : StopPlan}
    {deadline : Option Nat} (pursues : w.Pursues i p plan deadline) : p < w.promises.length := by
  obtain ⟨x,there,-⟩ := orderly.pursued i p plan deadline pursues
  rw [← outcomes_length]
  exact (List.getElem?_eq_some_iff.mp there).1

theorem Orderly.model {w : World} (orderly : w.Orderly) {n i p : Nat} {plan : StopPlan}
    {deadline : Option Nat} (stop : w.stopOf n = some p) (pursues : w.Pursues i p plan deadline) :
    w.modelOf n = some plan.model := by
  rw [modelOf_planOf,orderly.owner n p i plan deadline stop pursues]
  rfl

/-- What is known of attempts stays true. -/
structure Onward (v w : World) : Prop where
  size : v.promises.length ≤ w.promises.length
  cancelled : ∀ p, v.isCancelled p = true → w.isCancelled p = true
  closed : ∀ (p : Nat) (x : Promise Verdict), v.outcomes[p]? = some x → x.pending = false →
    ∃ y, w.outcomes[p]? = some y ∧ y.pending = false ∧ y.value = x.value
  stops : ∀ n, w.stopOf n = v.stopOf n ∨
    (∀ p, v.stopOf n = some p → w.isCancelled p = true) ∧
      ∀ q, w.stopOf n = some q → v.promises.length ≤ q
  plans : ∀ n plan, v.planOf n = some plan → w.planOf n = some plan
  begun : ∀ i p plan, p < v.promises.length → w.Pursues i p plan none → v.Pursues i p plan none

theorem Onward.uncancelled {v w : World} (onward : Onward v w) {p : Nat} (kept : w.isCancelled p = false) :
    v.isCancelled p = false := by
  refine Bool.eq_false_iff.mpr fun gone => ?_
  rw [onward.cancelled p gone] at kept
  cases kept

theorem Onward.trans {u v w : World} (first : Onward u v) (next : Onward v w) : Onward u w where
  size := Nat.le_trans first.size next.size
  cancelled p gone := next.cancelled p (first.cancelled p gone)
  closed p x there ended := by
    obtain ⟨y,between,past,value⟩ := first.closed p x there ended
    obtain ⟨z,after,done,same⟩ := next.closed p y between past
    exact ⟨z,after,done,same.trans value⟩
  stops n := by
    rcases next.stops n with same | ⟨gone,new⟩
    · rcases first.stops n with before | ⟨gone,new⟩
      · exact .inl (same.trans before)
      · exact .inr ⟨fun p stop => next.cancelled p (gone p stop),fun q stop => new q (same ▸ stop)⟩
    · refine .inr ⟨fun p stop => ?_,fun q stop => Nat.le_trans first.size (new q stop)⟩
      rcases first.stops n with before | ⟨ended,-⟩
      · exact gone p (before ▸ stop)
      · exact next.cancelled p (ended p stop)
  plans n plan made := next.plans n plan (first.plans n plan made)
  begun i p plan known fresh :=
    first.begun i p plan known (next.begun i p plan (Nat.lt_of_lt_of_le known first.size) fresh)

theorem Onward.slot {v w : World} (onward : Onward v w) (orderly : v.Orderly) {i n p : Nat}
    {plan : StopPlan} {deadline : Option Nat} (pursues : v.Pursues i p plan deadline)
    (later : w.stopOf n = some p) : v.stopOf n = some p := by
  rcases onward.stops n with same | ⟨-,new⟩
  · exact same.symm.trans later
  · exact absurd (new p later) (Nat.not_le.mpr (orderly.known pursues))

theorem Onward.models {v w : World} (onward : Onward v w) {n k : Nat} (made : v.modelOf n = some k) :
    w.modelOf n = some k := by
  rw [modelOf_planOf] at made
  obtain ⟨plan,there,same⟩ := Option.map_eq_some_iff.mp made
  rw [modelOf_planOf,onward.plans n plan there]
  exact congrArg some same

instance : Frame Onward where
  refl _ :=
    { size := Nat.le_refl _
      cancelled := fun _ => id
      closed := fun _ x there ended => ⟨x,there,ended,rfl⟩
      stops := fun _ => .inl rfl
      plans := fun _ _ => id
      begun := fun _ _ _ _ => id }
  trans := Onward.trans

/-- No attempt comes to its end, and no model is interrupted. -/
structure Rests (v w : World) : Prop where
  opened : ∀ (p : Nat) (x : Promise Verdict), w.outcomes[p]? = some x → x.pending = false →
    ∃ y, v.outcomes[p]? = some y ∧ y.pending = false
  interrupts : ∀ k, w.interruptsOf k = v.interruptsOf k

instance : Frame Rests where
  refl _ := ⟨fun _ x there ended => ⟨x,there,ended⟩,fun _ => rfl⟩
  trans first next :=
    { opened := fun p x there ended => by
        obtain ⟨y,between,past⟩ := next.opened p x there ended
        exact first.opened p y between past
      interrupts := fun k => (next.interrupts k).trans (first.interrupts k) }

def Goes (v w : World) : Prop := v.Orderly → w.Orderly ∧ Onward v w

instance : Frame Goes where
  refl w orderly := ⟨orderly,Frame.refl w⟩
  trans first next orderly := by
    obtain ⟨between,onward⟩ := first orderly
    obtain ⟨after,more⟩ := next between
    exact ⟨after,Frame.trans onward more⟩

def Bides (v w : World) : Prop := v.Orderly → w.Orderly ∧ Onward v w ∧ Rests v w

instance : Frame Bides where
  refl w orderly := ⟨orderly,Frame.refl w,Frame.refl w⟩
  trans first next orderly := by
    obtain ⟨between,onward,rests⟩ := first orderly
    obtain ⟨after,more,still⟩ := next between
    exact ⟨after,Frame.trans onward more,Frame.trans rests still⟩

theorem Bides.goes {v w : World} (bides : Bides v w) : Goes v w := fun orderly =>
  ⟨(bides orderly).1,(bides orderly).2.1⟩

/-- An attempt that is over afterwards was over before, with the same verdict. -/
theorem Bides.over_before {v w : World} (bides : Bides v w) (orderly : v.Orderly) {p : Nat} {x : Promise Verdict}
    (there : w.outcomes[p]? = some x) (ended : x.pending = false) :
    ∃ y, v.outcomes[p]? = some y ∧ y.pending = false ∧ y.value = x.value := by
  obtain ⟨-,onward,rests⟩ := bides orderly
  obtain ⟨y,before,past⟩ := rests.opened p x there ended
  obtain ⟨z,found,-,value⟩ := onward.closed p y before past
  rw [there] at found
  cases found
  exact ⟨y,before,past,value.symm⟩

/-- A verdict that is there afterwards was there before. -/
theorem Bides.settled_before {v w : World} (bides : Bides v w) (orderly : v.Orderly) {p : Nat} {x : Promise Verdict}
    {verdict : Verdict} (there : w.outcomes[p]? = some x) (value : x.value = some verdict) :
    ∃ y, v.outcomes[p]? = some y ∧ y.value = some verdict := by
  cases pending : x.pending with
  | true =>
    rw [((bides orderly).1.pending p x there pending).1] at value
    cases value
  | false =>
    obtain ⟨y,before,-,same⟩ := bides.over_before orderly there pending
    exact ⟨y,before,same.trans value⟩

theorem Aloof.orderly {v w : World} (aloof : Aloof v w) (orderly : v.Orderly) : w.Orderly where
  tended i t there stops := orderly.tended i t ((aloof.tasks i t stops).mp there) stops
  pursued i p plan deadline pursues := by
    obtain ⟨x,there,open'⟩ := orderly.pursued i p plan deadline (aloof.pursues.mp pursues)
    obtain ⟨y,found,same,-⟩ := aloof.outcomes.2 p x there
    exact ⟨y,found,same.trans open'⟩
  single i j p plan other deadline later one two :=
    orderly.single i j p plan other deadline later (aloof.pursues.mp one) (aloof.pursues.mp two)
  pending p y there open' := by
    obtain ⟨x,found,same,value⟩ := aloof.outcomes.back there
    obtain ⟨none,i,plan,deadline,pursues⟩ := orderly.pending p x found (same ▸ open')
    exact ⟨value.trans none,i,plan,deadline,aloof.pursues.mpr pursues⟩
  jammed n jam := by
    rcases aloof.jammed n jam with before | free
    · rcases aloof.stops n with same | ⟨free,-⟩
      · exact same.trans (orderly.jammed n before)
      · exact free
    · exact free
  slot n p stop := by
    rcases aloof.stops n with same | ⟨free,-⟩
    · rw [aloof.size]
      exact orderly.slot n p (same ▸ stop)
    · rw [free] at stop
      cases stop
  owner n p i plan deadline stop pursues := by
    rcases aloof.stops n with same | ⟨free,-⟩
    · exact aloof.plans n _ (orderly.owner n p i plan deadline (same ▸ stop) (aloof.pursues.mp pursues))
    · rw [free] at stop
      cases stop
  owned i p plan deadline pursues := by
    have before := aloof.pursues.mp pursues
    rcases orderly.owned i p plan deadline before with gone | ⟨n,stop⟩
    · exact .inl (aloof.cancelled gone)
    · rcases aloof.stops n with same | ⟨-,gone⟩
      · exact .inr ⟨n,same.trans stop⟩
      · exact .inl (gone p stop (orderly.known before))

theorem Aloof.onward {v w : World} (aloof : Aloof v w) (orderly : v.Orderly) : Onward v w where
  size := Nat.le_of_eq aloof.size.symm
  cancelled _ gone := aloof.cancelled gone
  closed p x there ended := by
    obtain ⟨y,found,pending,value,-⟩ := aloof.outcomes.2 p x there
    exact ⟨y,found,pending.trans ended,value⟩
  stops n := by
    rcases aloof.stops n with same | ⟨free,gone⟩
    · exact .inl same
    · refine .inr ⟨fun p stop => gone p stop (orderly.slot n p stop),fun q stop => ?_⟩
      rw [free] at stop
      cases stop
  plans := aloof.plans
  begun _ _ _ _ fresh := aloof.pursues.mp fresh

theorem Aloof.bides {v w : World} (aloof : Aloof v w) : Bides v w := fun orderly =>
  { left := aloof.orderly orderly
    right := ⟨aloof.onward orderly,
      { opened := fun p x there ended => by
          obtain ⟨y,found,pending,-⟩ := aloof.outcomes.back there
          exact ⟨y,found,pending ▸ ended⟩
        interrupts := aloof.interrupts }⟩ }

section Aloof

variable {v w : World}

theorem aloof_of (outcomes : w.outcomes = v.outcomes) (links : w.links = v.links)
    (counts : w.counts = v.counts)
    (tasks : ∀ (i : Nat) (t : Task), t.job.Stops →
      (w.tasks[i]? = some (some t) ↔ v.tasks[i]? = some (some t))) : Aloof v w where
  outcomes := by
    rw [outcomes]
    exact .refl _
  tasks := tasks
  stops n := .inl (by rw [stopOf,links]; rfl)
  jammed n jam := .inl (by rw [World.jammed,links] at jam; exact jam)
  plans n plan made := by
    rw [planOf,links]
    exact made
  interrupts := elim_of_counts Prod.fst counts

theorem outcomes_same (same : w.promises = v.promises) : w.outcomes = v.outcomes :=
  congrArg (List.map Promise.core) same

theorem tasks_same (same : w.tasks = v.tasks) (i : Nat) (t : Task) (_ : t.job.Stops) :
    w.tasks[i]? = some (some t) ↔ v.tasks[i]? = some (some t) := by
  rw [same]

theorem tasks_appended {u : Task} (same : w.tasks = v.tasks ++ [some u]) (other : ¬ u.job.Stops) (i : Nat)
    (t : Task) (stops : t.job.Stops) : w.tasks[i]? = some (some t) ↔ v.tasks[i]? = some (some t) := by
  rw [same]
  constructor
  · intro there
    rw [List.getElem?_append] at there
    split at there
    · exact there
    · have new := List.mem_of_getElem? there
      simp only [List.mem_singleton,Option.some.injEq] at new
      exact absurd (new ▸ stops) other
  · intro there
    exact getElem?_append_some there _

theorem tasks_replaced {id : Nat} {u : Task} (there : v.tasks[id]? = some (some u)) (other : ¬ u.job.Stops)
    (others : ∀ i, i ≠ id → w.tasks[i]? = v.tasks[i]?)
    (here : ∀ t, w.tasks[id]? = some (some t) → ¬ t.job.Stops) (i : Nat) (t : Task)
    (stops : t.job.Stops) : w.tasks[i]? = some (some t) ↔ v.tasks[i]? = some (some t) := by
  by_cases same : i = id
  · subst same
    refine ⟨fun found => absurd stops (here t found),fun found => ?_⟩
    rw [there] at found
    cases found
    exact absurd stops other
  · rw [others i same]

theorem aloof_sameEntities (entities : SameEntities v w) (promises : w.promises = v.promises)
    (tasks : w.tasks = v.tasks) : Aloof v w :=
  aloof_of (outcomes_same promises) entities.links (by rw [counts,entities.models]; rfl) (tasks_same tasks)

theorem aloof_note (w : World) (notice : Notice) : Aloof w (w.note notice) :=
  aloof_of rfl rfl rfl (tasks_same rfl)

theorem aloof_modifyModel (w : World) (k : Nat) (f : Model → Model)
    (same : ∀ m : Model, (f m).interrupts = m.interrupts) : Aloof w (w.modifyModel k f) where
  outcomes := .refl _
  tasks _ _ _ := Iff.rfl
  stops _ := .inl rfl
  jammed _ jam := .inl jam
  plans _ _ made := made
  interrupts n := elim_modifyModel Model.interrupts same w k n 0

theorem aloof_handling {n : Nat} {sets : Bool} (handling : Handling n sets v w) : Aloof v w := by
  have links (m : Nat) : v.links[m]? = none ∧ w.links[m]? = none ∨
      ∃ l k, v.links[m]? = some l ∧ w.links[m]? = some k ∧ l.Handled k := by
    rcases there : v.links[m]? with _ | l
    · refine .inl ⟨rfl,?_⟩
      rw [List.getElem?_eq_none_iff] at there ⊢
      rw [handling.size]
      exact there
    · obtain ⟨k,found,-,handled⟩ := handling.links m l there
      exact .inr ⟨l,k,rfl,found,handled⟩
  have fields (m : Nat) : w.stopOf m = v.stopOf m ∧ w.jammed m = v.jammed m ∧ w.planOf m = v.planOf m := by
    rcases links m with ⟨before,after⟩ | ⟨l,k,before,after,handled⟩
    · simp [stopOf,jammed,planOf,before,after]
    · simp [stopOf,jammed,planOf,Link.plan,before,after,handled.stop,handled.stopPoisoned,handled.model,
        handled.config]
  exact
    { outcomes := by
        rw [World.outcomes,handling.same]
        exact .refl _
      tasks := tasks_same (by rw [handling.same])
      stops := fun m => .inl (fields m).1
      jammed := fun m jam => .inl ((fields m).2.1 ▸ jam)
      plans := fun m plan made => (fields m).2.2.trans made
      interrupts := fun k => by rw [interruptsOf,handling.same]; rfl }

theorem aloof_withLink (w : World) (registry : Nat) (r : Registry) : Aloof w (w.withLink registry r) where
  outcomes := .refl _
  tasks _ _ _ := Iff.rfl
  stops n := .inl <| by
    simp only [stopOf,withLink,List.getElem?_append]
    split
    · rfl
    · rename_i beyond
      rw [List.getElem?_eq_none (Nat.not_lt.mp beyond)]
      cases n - w.links.length <;> rfl
  jammed n jam := .inl <| by
    simp only [World.jammed,withLink,List.getElem?_append] at jam ⊢
    split at jam
    · exact jam
    · rcases gap : n - w.links.length with _ | k <;> rw [gap] at jam <;> cases jam
  plans n plan made := by
    obtain ⟨l,there,same⟩ := Option.map_eq_some_iff.mp made
    rw [planOf,withLink,getElem?_append_some there]
    exact congrArg some same
  interrupts k := by
    simp only [interruptsOf,withLink,List.getElem?_append]
    split
    · rfl
    · rename_i beyond
      rw [List.getElem?_eq_none (Nat.not_lt.mp beyond)]
      cases k - w.models.length <;> rfl

theorem aloof_around (around : Around v w) : Aloof v w := by
  refine aloof_of (outcomes_same around.promises) around.links around.counts ?_
  rcases around.tasks with same | ⟨n,_,_,_,_,_,_,same⟩
  · exact tasks_same same
  · refine tasks_appended same ?_
    rintro ⟨p,plan,deadline,job⟩
    cases job

theorem aloof_start (w : World) (number : Nat) {job : Job} (called : job.AsStarted) :
    Aloof w (w.start number job).2 :=
  aloof_of rfl rfl rfl (tasks_appended rfl called.not_stops)

theorem aloof_abort (orderly : w.Orderly) (label : Nat) : Aloof w (w.abort label) := by
  unfold abort
  split
  · exact Frame.refl w
  · rename_i id found
    obtain ⟨inside,labelled,-⟩ := List.findIdx?_eq_some_iff_getElem.mp found
    rcases there : w.tasks[id] with _ | u
    · rw [there] at labelled
      cases labelled
    · rw [there] at labelled
      have known : w.tasks[id]? = some (some u) := by rw [List.getElem?_eq_getElem inside,there]
      have other : ¬ u.job.Stops := fun stops => by
        have unlabelled := (orderly.tended id u known stops).1
        simp [unlabelled] at labelled
      refine aloof_of rfl rfl rfl (tasks_replaced known other (fun i away => ?_) fun t here => ?_)
      · simp [Ne.symm away]
      · simp only [List.getElem?_modify_eq,known,Option.map_eq_map,Option.map_some,Option.some.injEq] at here
        exact here ▸ other

theorem aloof_released {n : Nat} {l : Link} (there : w.links[n]? = some l) (released : Released n l w v) :
    Aloof w v := by
  have inside := (List.getElem?_eq_some_iff.mp there).1
  have revokes : Revokes w.outcomes v.outcomes := by
    rw [released.outcomes]
    split
    · exact .refl _
    · exact revokes_modify _ _
  have link (m : Nat) : v.links[m]? = if n = m then some { l with stop := none } else w.links[m]? := by
    rw [released.links,List.getElem?_set]
    by_cases here : n = m
    · simp [here,here ▸ inside]
    · simp [here]
  refine ⟨revokes,tasks_same (by rw [released.same]),fun m => ?_,fun m jam => .inl ?_,fun m k made => ?_,?_⟩
  · by_cases here : n = m
    · subst here
      refine .inr ⟨by simp [stopOf,link],fun p stop known => ?_⟩
      have stop : l.stop = some p := by simpa [stopOf,there] using stop
      have outcomes := released.outcomes
      rw [stop] at outcomes
      rw [← outcomes_length] at known
      refine isCancelled_iff.mpr ⟨w.outcomes[p].revoked,?_,rfl⟩
      rw [outcomes,List.getElem?_modify_eq,List.getElem?_eq_getElem known]
      rfl
    · exact .inl (by simp [stopOf,link,here])
  · by_cases here : n = m
    · subst here
      simpa [jammed,link,there] using jam
    · simpa [jammed,link,here] using jam
  · by_cases here : n = m
    · subst here
      simpa [planOf,Link.plan,link,there] using made
    · simpa [planOf,link,here] using made
  · intro k
    rw [interruptsOf,released.same]
    rfl

theorem aloof_cancel (w : World) (p : Nat) : Aloof w (w.updatePromise p Promise.cancel) := by
  have outcomes := outcomes_cancel w p
  obtain ⟨schedule,same⟩ := updatePromise_same w p Promise.cancel
  rw [same] at outcomes ⊢
  exact
    { (Frame.refl w : Aloof w w) with
      outcomes := by
        rw [outcomes]
        exact revokes_modify _ _
      stops := fun _ => .inl rfl }

theorem aloof_jam {n : Nat} {l : Link} (there : w.links[n]? = some l) (free : l.stop = none) :
    Aloof w (w.modifyLink n fun l => { l with stopPoisoned := true }) := by
  refine ⟨.refl _,fun _ _ _ => Iff.rfl,fun m => .inl ?_,fun m jam => ?_,fun m k made => ?_,fun _ => rfl⟩
  · by_cases here : n = m
    · subst here
      simp [stopOf,modifyLink,there]
    · simp [stopOf,modifyLink,here]
  · by_cases here : n = m
    · subst here
      exact .inr (by simp [stopOf,modifyLink,there,free])
    · exact .inl (by simpa [jammed,modifyLink,here] using jam)
  · by_cases here : n = m
    · subst here
      simpa [planOf,Link.plan,modifyLink,there] using made
    · simpa [planOf,modifyLink,here] using made

section Attempted

variable {n : Nat} {l : Link}

theorem outcomes_attempted (w : World) (n : Nat) (l : Link) :
    (w.attempted n l).outcomes = w.outcomes ++ [({} : Promise Verdict)] := by
  simp only [World.outcomes,attempted,modifyLink,spawn,List.map_append,List.map_cons,List.map_nil]
  rfl

theorem stopOf_attempted (there : w.links[n]? = some l) (m : Nat) :
    (w.attempted n l).stopOf m = if n = m then some w.promises.length else w.stopOf m := by
  by_cases here : n = m
  · subst here
    simp [stopOf,attempted,modifyLink,spawn,there]
  · simp [stopOf,attempted,modifyLink,spawn,here]

theorem links_attempted (there : w.links[n]? = some l) (m : Nat) :
    (w.attempted n l).planOf m = w.planOf m ∧ (w.attempted n l).jammed m = w.jammed m := by
  by_cases here : n = m
  · subst here
    simp [planOf,Link.plan,jammed,attempted,modifyLink,spawn,there]
  · simp [planOf,jammed,attempted,modifyLink,spawn,here]

theorem task_attempted {i : Nat} {t : Task} : (w.attempted n l).tasks[i]? = some (some t) ↔
    w.tasks[i]? = some (some t) ∨
      i = w.tasks.length ∧ t = { label := none, job := .stop w.promises.length l.plan none } := by
  have tasks : (w.attempted n l).tasks =
      w.tasks ++ [some { label := none, job := .stop w.promises.length l.plan none }] := rfl
  rw [tasks,List.getElem?_append]
  split
  · rename_i old
    refine ⟨.inl,fun found => found.elim id fun new => ?_⟩
    omega
  · rename_i new
    rw [List.getElem?_eq_none (Nat.not_lt.mp new)]
    rcases gap : i - w.tasks.length with _ | k
    · have here : i = w.tasks.length := by omega
      simp [here,eq_comm]
    · have beyond : i ≠ w.tasks.length := by omega
      simp [beyond]

theorem pursues_attempted {i p : Nat} {plan : StopPlan} {deadline : Option Nat} :
    (w.attempted n l).Pursues i p plan deadline ↔ w.Pursues i p plan deadline ∨
      i = w.tasks.length ∧ p = w.promises.length ∧ plan = l.plan ∧ deadline = none := by
  rw [Pursues,task_attempted]
  simp [Pursues]

theorem outcome_attempted {p : Nat} {x : Promise Verdict} :
    (w.attempted n l).outcomes[p]? = some x ↔
      w.outcomes[p]? = some x ∨ p = w.promises.length ∧ x = ({} : Promise Verdict) := by
  rw [outcomes_attempted,List.getElem?_append,outcomes_length]
  split
  · refine ⟨.inl,fun found => found.elim id fun new => ?_⟩
    omega
  · rename_i new
    have none : w.outcomes[p]? = none :=
      List.getElem?_eq_none (by rw [outcomes_length]; exact Nat.not_lt.mp new)
    rw [none]
    rcases gap : p - w.promises.length with _ | k
    · have here : p = w.promises.length := by omega
      simp [here,eq_comm]
    · have beyond : p ≠ w.promises.length := by omega
      simp [beyond]

theorem cancelled_attempted {p : Nat} (gone : w.isCancelled p = true) :
    (w.attempted n l).isCancelled p = true := by
  obtain ⟨x,found,ended⟩ := isCancelled_iff.mp gone
  exact isCancelled_iff.mpr ⟨x,outcome_attempted.mpr (.inl found),ended⟩

theorem orderly_attempted (there : w.links[n]? = some l) (free : l.stop = none)
    (fine : l.stopPoisoned = false) (orderly : w.Orderly) : (w.attempted n l).Orderly where
  tended i t found stops := by
    rcases task_attempted.mp found with old | ⟨-,rfl⟩
    · exact orderly.tended i t old stops
    · exact ⟨rfl,rfl⟩
  pursued i p plan deadline pursues := by
    rcases pursues_attempted.mp pursues with old | ⟨-,rfl,-⟩
    · obtain ⟨x,found,open'⟩ := orderly.pursued i p plan deadline old
      exact ⟨x,outcome_attempted.mpr (.inl found),open'⟩
    · exact ⟨_,outcome_attempted.mpr (.inr ⟨rfl,rfl⟩),rfl⟩
  single i j p plan other deadline later one two := by
    rcases pursues_attempted.mp one with old | ⟨rfl,rfl,-⟩
    · rcases pursues_attempted.mp two with also | ⟨-,rfl,-⟩
      · exact orderly.single i j p plan other deadline later old also
      · exact absurd (orderly.known old) (Nat.lt_irrefl _)
    · rcases pursues_attempted.mp two with old | ⟨rfl,-⟩
      · exact absurd (orderly.known old) (Nat.lt_irrefl _)
      · rfl
  pending p x found open' := by
    rcases outcome_attempted.mp found with old | ⟨rfl,rfl⟩
    · obtain ⟨none,i,plan,deadline,pursues⟩ := orderly.pending p x old open'
      exact ⟨none,i,plan,deadline,pursues_attempted.mpr (.inl pursues)⟩
    · exact ⟨rfl,_,l.plan,none,pursues_attempted.mpr (.inr ⟨rfl,rfl,rfl,rfl⟩)⟩
  jammed m jam := by
    rw [(links_attempted there m).2] at jam
    rw [stopOf_attempted there]
    split
    · rename_i here
      simp [← here,jammed,there,fine] at jam
    · exact orderly.jammed m jam
  slot m p stop := by
    have size : (w.attempted n l).promises.length = w.promises.length + 1 := by
      simp [attempted,modifyLink,spawn]
    rw [stopOf_attempted there] at stop
    rw [size]
    split at stop
    · cases stop
      exact Nat.lt_succ_self _
    · exact Nat.lt_succ_of_lt (orderly.slot m p stop)
  owner m p i plan deadline stop pursues := by
    rw [(links_attempted there m).1]
    rw [stopOf_attempted there] at stop
    split at stop
    · rename_i here
      cases stop
      rcases pursues_attempted.mp pursues with old | ⟨-,-,rfl,-⟩
      · exact absurd (orderly.known old) (Nat.lt_irrefl _)
      · simp [← here,planOf,there,Link.plan]
    · rcases pursues_attempted.mp pursues with old | ⟨-,rfl,-⟩
      · exact orderly.owner m p i plan deadline stop old
      · exact absurd (orderly.slot m _ stop) (Nat.lt_irrefl _)
  owned i p plan deadline pursues := by
    rcases pursues_attempted.mp pursues with old | ⟨-,rfl,-⟩
    · refine (orderly.owned i p plan deadline old).imp cancelled_attempted ?_
      apply Exists.imp
      intro m stop
      rw [stopOf_attempted there,if_neg,stop]
      rintro rfl
      simp [stopOf,there,free] at stop
    · exact .inr ⟨n,by simp [stopOf_attempted there]⟩

theorem bides_attempted (there : w.links[n]? = some l) (free : l.stop = none)
    (fine : l.stopPoisoned = false) : Bides w (w.attempted n l) := by
  intro orderly
  refine ⟨orderly_attempted there free fine orderly,?_,?_⟩
  · exact
      { size := by simp [attempted,modifyLink,spawn]
        cancelled := fun _ gone => cancelled_attempted gone
        closed := fun p x found ended => ⟨x,outcome_attempted.mpr (.inl found),ended,rfl⟩
        stops := fun m => by
          rw [stopOf_attempted there]
          split
          · rename_i here
            refine .inr ⟨fun p stop => ?_,fun q stop => Nat.le_of_eq (Option.some.inj stop)⟩
            simp [← here,stopOf,there,free] at stop
          · exact .inl rfl
        plans := fun m plan made => (links_attempted there m).1.trans made
        begun := fun i p plan known fresh => by
          rcases pursues_attempted.mp fresh with old | ⟨-,rfl,-⟩
          · exact old
          · exact absurd known (Nat.lt_irrefl _) }
  · refine ⟨fun p x found ended => ?_,fun _ => rfl⟩
    rcases outcome_attempted.mp found with old | ⟨-,rfl⟩
    · exact ⟨x,old,ended⟩
    · cases ended

end Attempted

end Aloof

end World
end EditorLink
