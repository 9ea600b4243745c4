import EditorLink.Proofs.Course
import EditorLink.Proofs.Endure
import EditorLink.Proofs.Idle
import EditorLink.Proofs.Silence

/-! When the cache of a model is cleared: in the turn of a teardown whose stop attempt found the model idle
at some earlier time. An update may have begun to run since. -/
namespace EditorLink
open World EditorLink.Action

namespace World

def Uncleared (k : Nat) (v w : World) : Prop := w.uncachesOf k = v.uncachesOf k

instance (k : Nat) : Frame (Uncleared k) where
  refl _ := rfl
  trans first next := Eq.trans next first

/-- If the cache of the model is cleared, it is the link's model. -/
def Clears (n k : Nat) (v w : World) : Prop := w.uncachesOf k ≠ v.uncachesOf k → v.modelOf n = some k

/-- The verdict of the attempt is that the model has stopped. -/
def SettledOk (w : World) (p : Nat) : Prop := w.promises[p]?.bind Promise.answer? = some (some (.ok ()))

variable {v w : World} {k : Nat}

theorem uncleared_of_counts (same : w.counts = v.counts) : Uncleared k v w :=
  elim_of_counts Prod.snd same k

theorem Inert.uncleared (inert : Inert v w) : Uncleared k v w := by
  obtain ⟨fresh,same,new⟩ := inert
  rw [Uncleared,uncachesOf,uncachesOf,same,List.getElem?_append]
  split
  · rfl
  · rename_i beyond
    rw [List.getElem?_eq_none (Nat.not_lt.mp beyond)]
    rcases there : fresh[k - v.models.length]? with _ | m
    · rfl
    · exact (new m (List.mem_of_getElem? there)).2.2

theorem uncleared_modifyModel (w : World) (n : Nat) (f : Model → Model)
    (same : ∀ m : Model, (f m).uncaches = m.uncaches) : Uncleared k w (w.modifyModel n f) :=
  elim_modifyModel Model.uncaches same w n k 0

theorem Uncleared.clears (uncleared : Uncleared k v w) (n : Nat) : Clears n k v w := fun changed =>
  absurd uncleared changed

theorem Clears.trans {u : World} {n : Nat} (first : Clears n k u v) (next : Uncleared k v w) :
    Clears n k u w := by
  intro changed
  rw [show w.uncachesOf k = v.uncachesOf k from next] at changed
  exact first changed

theorem clears_modifyModel {n : Nat} {l : Link} (there : w.links[n]? = some l) (f : Model → Model) :
    Clears n k w (w.modifyModel l.model f) := by
  intro changed
  rw [modelOf,there]
  refine congrArg some (Classical.byContradiction fun other => changed ?_)
  simp [uncachesOf,modifyModel,show l.model ≠ k from other]

end World

namespace Action

variable {w : World} {n p id k : Nat}

theorem prepares_uncleared (n : Nat) : Prepares n (Uncleared k) :=
  prepares_of_handling (fun handling => (inert_of (by rw [handling.same])).uncleared)
    (fun _ _ => (inert_of rfl).uncleared) (fun id p _ => (await_inert id p).mono Inert.uncleared)
    ((startStop_inert n true).mono Inert.uncleared)

theorem clears_bind {α β : Type} {a : Action α} {f : α → Action β} (first : Clears n k w (exec a w).2)
    (next : ∀ x, Keeps (Uncleared k) (f x)) : Clears n k w (exec (a >>= f) w).2 := by
  rw [exec_bind]
  rcases ran : exec a w with ⟨fault | x,v⟩
  · rw [ran] at first
    exact first
  · rw [ran] at first
    exact first.trans (next x v)

theorem clears_result {α : Type} {a : Action α} (clears : Clears n k w (exec a w).2) :
    Clears n k w (exec (result a) w).2 := by
  rw [exec_result]
  rcases ran : exec a w with ⟨(e | _) | x,v⟩ <;> rw [ran] at clears <;> exact clears

theorem finishTeardown_clears (n : Nat) (stopped : Verdict) (w : World) :
    Clears n k w (exec (finishTeardown n stopped) w).2 := by
  have prepares : Prepares n (Uncleared k) := prepares_uncleared n
  cases stopped with
  | error e => exact (failedTeardown_keeps prepares e w).clears n
  | ok _ =>
    have clears : Clears n k w (exec (uncacheModel n) w).2 := by
      rcases uncacheModel_cases n w with ⟨fault,failed⟩ | ⟨l,there,cleared⟩
      · rw [failed]
        exact (Frame.refl w : Uncleared k w w).clears n
      · rw [cleared]
        have noted (u : World) : Uncleared k u (u.note .cacheCleared) := (inert_of rfl).uncleared
        exact (clears_modifyModel there _).trans (noted _)
    exact clears_bind (clears_result clears) prepares.restore

theorem afterTeardown_clears (n : Nat) (name : String) (stopped : Verdict) (w : World) :
    Clears n k w (exec (afterTeardown n name stopped) w).2 :=
  clears_bind (clears_result (finishTeardown_clears n stopped w))
    (concludeTeardown_keeps (prepares_uncleared n) name)

theorem waits_clears {job : Job} (ends : Verdict → Action Next)
    (failed : ∀ e, Keeps (Uncleared k) (ends (.error e)))
    (clears : ∀ w, Clears n k w (exec (ends (.ok ())) w).2)
    (changed : (exec (do
      match ← await id p with
      | none => pure (.pause job)
      | some answer => ends (verdict answer)) w).2.uncachesOf k ≠ w.uncachesOf k) :
    SettledOk w p ∧ w.modelOf n = some k := by
  unfold SettledOk
  rw [exec_bind,exec_await] at changed
  rcases answered : w.promises[p]?.bind Promise.answer? with _ | _ | e | _ <;>
    simp only [answered] at changed
  · exact absurd rfl changed
  · exact absurd (failed .superseded w) changed
  · exact absurd (failed e w) changed
  · exact ⟨rfl,clears w changed⟩

theorem finish_uncleared (n : Nat) (e : LinkError) :
    Keeps (Uncleared k) (do finishTeardown n (.error e); pure (Next.finish (some .done))) :=
  (failedTeardown_keeps (prepares_uncleared n) e).bind fun _ => (reads_pure _).keeps

theorem after_uncleared (n : Nat) (name : String) (e : LinkError) :
    Keeps (Uncleared k) (afterTeardown n name (.error e)) :=
  afterTeardown_keeps (prepares_uncleared n) name (failedTeardown_keeps (prepares_uncleared n) e)

theorem startStop_new {v : World} (ran : exec (startStop n true) w = (.ok p,v)) :
    v.stopOf n = some p ∧ v.promises[p]?.bind Promise.answer? = none := by
  rcases startStop_cases n true w with ⟨fault,refused⟩ | ⟨l,u,there,-,released,started⟩
  · rw [refused] at ran
    cases ran
  · rw [started] at ran
    cases ran
    refine ⟨?_,?_⟩
    · rw [stopOf_attempted (released.found there),if_pos rfl]
    · simp [attempted,World.modifyLink,spawn,Promise.answer?]

theorem uncache_clears {stop : Option Nat}
    (changed : (exec (resumeUncache id n stop) w).2.uncachesOf k ≠ w.uncachesOf k) :
    ∃ p, stop = some p ∧ SettledOk w p ∧ w.modelOf n = some k := by
  have waits {u : World} (p : Nat)
      (changed : (exec (resumeUncache id n (some p)) u).2.uncachesOf k ≠ u.uncachesOf k) :
      SettledOk u p ∧ u.modelOf n = some k := by
    refine waits_clears (fun stopped => do finishTeardown n stopped; pure (.finish (some .done)))
      (finish_uncleared n) (fun w => ?_) changed
    exact clears_bind (finishTeardown_clears n (.ok ()) w) fun _ => (reads_pure _).keeps
  cases stop with
  | some p => exact ⟨p,rfl,waits p changed⟩
  | none =>
    have begins := beginTeardown_keeps (prepares_uncleared (k := k) n) w
    rcases begun : exec (beginTeardown n) w with ⟨fault | p,u⟩
    · rw [begun] at begins
      rw [resumeUncache,exec_bind_error begun] at changed
      exact absurd begins changed
    · rw [begun] at begins
      rw [resumeUncache,exec_bind_ok begun,← begins] at changed
      obtain ⟨v,-,started⟩ := beginTeardown_ok begun
      obtain ⟨stopped,-⟩ := waits p changed
      rw [SettledOk,(startStop_new started).2] at stopped
      cases stopped

theorem goOn_clears {registry : Nat} {name : String} {begun : Except LinkError Nat}
    (changed : (exec (goOn id registry name n begun) w).2.uncachesOf k ≠ w.uncachesOf k) :
    ∃ p, begun = .ok p ∧ SettledOk w p ∧ w.modelOf n = some k := by
  cases begun with
  | error e =>
    have discards : Keeps (Uncleared k) (do discard n e; fail e : Action Next) :=
      (discard_keeps (prepares_uncleared n) e).bind fun _ => (reads_fail _).keeps
    exact absurd (discards w) changed
  | ok p =>
    exact ⟨p,rfl,waits_clears (afterTeardown n name) (after_uncleared n name)
      (afterTeardown_clears n name (.ok ())) changed⟩

theorem setOut_uncleared (id registry : Nat) (name : String) (n : Nat) :
    Keeps (Uncleared k) (setOut id registry name n) := by
  intro w
  have begins := beginTeardown_keeps (prepares_uncleared (k := k) n) w
  rw [setOut,exec_bind,exec_result]
  rcases begun : exec (beginTeardown n) w with ⟨(e | _) | p,u⟩ <;> rw [begun] at begins
  · refine Frame.trans begins (Classical.byContradiction fun changed => ?_)
    obtain ⟨p,same,-⟩ := goOn_clears changed
    cases same
  · exact begins
  · refine Frame.trans begins (Classical.byContradiction fun changed => ?_)
    obtain ⟨q,same,stopped,-⟩ := goOn_clears changed
    cases same
    obtain ⟨v,-,started⟩ := beginTeardown_ok begun
    rw [SettledOk,(startStop_new started).2] at stopped
    cases stopped

/-- A turn in which a cache is cleared belongs to a teardown that has waited for its attempt, whose verdict
is that the model has stopped. -/
theorem resume_clears {job : Job}
    (changed : (exec (resume id job) w).2.uncachesOf k ≠ w.uncachesOf k) :
    ∃ n p, job.awaits? = some (n,p) ∧ SettledOk w p ∧ w.modelOf n = some k := by
  have never (same : Keeps (Uncleared k) (resume id job)) :
      ∃ n p, job.awaits? = some (n,p) ∧ SettledOk w p ∧ w.modelOf n = some k :=
    absurd (same w) changed
  cases job with
  | update n phase =>
    exact never (resumeUpdate_keeps id (fun _ _ => (inert_of rfl).uncleared)
      (fun w j _ _ => uncleared_modifyModel w j _ fun _ => rfl)
      (fun w j _ _ => uncleared_modifyModel w j _ fun _ => rfl) (fun _ _ => (inert_of rfl).uncleared) n phase)
  | uncache n stop =>
    obtain ⟨p,rfl,stopped,model⟩ := uncache_clears changed
    exact ⟨n,p,rfl,stopped,model⟩
  | create registry name teardown =>
    cases teardown with
    | none =>
      refine never fun w => ?_
      have registered : Uncleared k w (exec (register registry) w).2 :=
        ((register_inert registry).mono Inert.uncleared) w
      dsimp only [resume]
      rcases ran : exec (register registry) w with ⟨fault | n,u⟩ <;> rw [ran] at registered
      · rw [resumeCreate_refused ran]
        exact registered
      · rw [resumeCreate_made ran]
        exact Frame.trans registered (setOut_uncleared id registry name n u)
    | some made =>
      obtain ⟨n,p⟩ := made
      dsimp only [resume] at changed
      rw [resumeCreate_waiting] at changed
      obtain ⟨q,same,stopped,model⟩ := goOn_clears changed
      cases same
      exact ⟨n,p,rfl,stopped,model⟩
  | stop p plan deadline =>
    refine never fun w => ?_
    have tried := resumeStop_tried id p plan deadline w
    dsimp only [resume]
    generalize (exec (resumeStop id p plan deadline) w).2 = v at tried ⊢
    rcases tried.models with same | ⟨-,-,same⟩
    · exact (inert_of same).uncleared
    · rw [Uncleared,uncachesOf,same]
      exact uncleared_modifyModel w plan.model Model.interrupt fun _ => rfl
  | wait p => exact never (resumeWait_keeps ((await_inert id p).mono Inert.uncleared))
  | continuation p => exact never (resumeContinuation_keeps ((await_inert id p).mono Inert.uncleared))

end Action

theorem Job.AsStarted.waitless {job : Job} (called : job.AsStarted) : job.awaits? = none := by
  cases job with
  | uncache n stop =>
    cases stop with
    | none => rfl
    | some _ => exact called.elim
  | create registry name teardown =>
    cases teardown with
    | none => rfl
    | some _ => exact called.elim
  | _ => rfl

namespace World

variable {v w : World} {n k p : Nat} {m : Move}

theorem move_clears (single : m.Single) (changed : (w.move m).uncachesOf k ≠ w.uncachesOf k) :
    ∃ id t n p, m = .turn id ∧ w.tasks[id]? = some (some t) ∧ t.job.awaits? = some (n,p) ∧ SettledOk w p ∧
      w.modelOf n = some k := by
  cases m with
  | perform number c =>
    refine absurd ?_ changed
    by_cases outside : ∃ o, c = .outside o
    · obtain ⟨o,rfl⟩ := outside
      exact uncleared_of_counts (change_around w o).counts
    · exact (perform_inert w number c (fun ms same => single number ms (by rw [same]))
        fun o same => outside ⟨o,same⟩).uncleared
  | turn id =>
    refine Classical.byContradiction fun none => changed ?_
    have entities {u v : World} (entities : SameEntities u v) : Uncleared k u v :=
      (inert_of entities.models).uncleared
    refine turn_keeps (R := Uncleared k) entities w id fun t there _ => ?_
    refine Classical.byContradiction fun cleared => none ?_
    obtain ⟨n,p,awaits,stopped,model⟩ := resume_clears cleared
    exact ⟨id,t,n,p,rfl,there,awaits,stopped,model⟩
  | arrive now => exact absurd rfl changed

/-- A teardown that waits does so for the attempt of its link, unless that one is cancelled. -/
def Awaited (w : World) : Prop :=
  ∀ (i : Nat) (t : Task) (n p : Nat), w.tasks[i]? = some (some t) → t.job.awaits? = some (n,p) →
    w.stopOf n = some p ∨ w.isCancelled p = true

theorem awaited_move (orderly : w.Orderly) (awaited : w.Awaited) (single : m.Single) :
    (w.move m).Awaited := by
  intro i t n p there awaits
  obtain ⟨-,onward⟩ := move_goes w single orderly
  have kept (before : w.stopOf n = some p ∨ w.isCancelled p = true) :
      (w.move m).stopOf n = some p ∨ (w.move m).isCancelled p = true := by
    rcases before with stop | gone
    · rcases onward.stops n with same | ⟨gone,-⟩
      · exact .inl (same.trans stop)
      · exact .inr (gone p stop)
    · exact .inr (onward.cancelled p gone)
  cases move_stems single there with
  | old _ _ _ before => exact kept (awaited i t n p before awaits)
  | aborted _ _ u label before _ => exact kept (awaited i u n p before awaits)
  | called _ _ number job called _ _ => cases called.waitless.symm.trans awaits
  | typed _ _ _ _ => cases awaits
  | stop _ _ _ _ _ => cases awaits
  | paused i u job before follows =>
    obtain ⟨u',v,found,-,-,ran,turned⟩ := turn_here there
    rw [before] at found
    cases found
    rcases resume_paused ran awaits with ⟨same,-⟩ | ⟨x,y,-,begun,waits⟩
    · exact kept (awaited i u n p before (same ▸ awaits))
    · obtain ⟨z,-,started⟩ := beginTeardown_ok begun
      have links : v.links = y.links := by rw [(waits_same waits).1]
      have entities := conclude_sameEntities i u.label (.ok (.pause job)) v
      refine .inl ?_
      rw [move,turned,stopOf,entities.links,links]
      exact (startStop_new started).1

theorem awaited_of_reached {s : Setting} (reached : Reaches (fun _ => True) s.start w) : w.Awaited := by
  have kept : s.start.Orderly ∧ s.start.Awaited → w.Orderly ∧ w.Awaited := by
    refine run_keeps (R := fun v w : World => v.Orderly ∧ v.Awaited → w.Orderly ∧ w.Awaited)
      (fun _ _ => trivial) ?_ reached
    rintro v m - single ⟨orderly,awaited⟩
    exact ⟨(move_goes v single orderly).1,awaited_move orderly awaited single⟩
  refine (kept ⟨orderly_of_reached (Frame.refl _),?_⟩).2
  intro i t n p there
  cases there

/-- Every link has its model. -/
def Housed (w : World) : Prop := ∀ (n : Nat) (l : Link), w.links[n]? = some l → l.model < w.models.length

/-- Every link has a model of its own, which bears the number of the link. -/
def Paired (w : World) : Prop :=
  w.links.length = w.models.length ∧ ∀ (n : Nat) (l : Link), w.links[n]? = some l → l.model = n

theorem Paired.housed (paired : w.Paired) : w.Housed := by
  intro n l there
  rw [paired.2 n l there,← paired.1]
  exact (List.getElem?_eq_some_iff.mp there).1

theorem endures_paired : Endures fun v w => v.Paired → w.Paired where
  frame := inferInstance
  entities entities paired := by
    rw [Paired,entities.models,entities.links]
    exact paired
  quiet quiet paired := by
    refine ⟨quiet.size.trans (paired.1.trans quiet.models.symm),fun n l there => ?_⟩
    obtain ⟨k,before,alike⟩ := quiet.link_back there
    rw [(core_fields alike).1]
    exact paired.2 n k before
  handling {_ _ v w} handling paired := by
    have models : w.models = v.models := by rw [handling.same]
    refine ⟨by rw [handling.size,models,paired.1],fun n l there => ?_⟩
    have known := (List.getElem?_eq_some_iff.mp there).1
    rw [handling.size] at known
    obtain ⟨k,found,-,handled⟩ := handling.links n _ (List.getElem?_eq_getElem known)
    rw [there] at found
    cases found
    rw [handled.model]
    exact paired.2 n _ (List.getElem?_eq_getElem known)
  made w registry r _ paired := by
    refine ⟨by simp [withLink,paired.1],fun n l there => ?_⟩
    simp only [withLink,List.getElem?_append] at there
    split at there
    · exact paired.2 n l there
    · obtain ⟨inside,rfl⟩ := List.getElem?_eq_some_iff.mp there
      have sizes := paired.1
      simp only [List.length_singleton] at inside
      simp only [List.getElem_singleton]
      omega
  crashed _ _ paired := paired

theorem paired_of_reached {s : Setting} (reached : Reaches (fun _ => True) s.start w) : w.Paired := by
  refine endures_paired.reaches (fun _ _ => trivial) (fun w _ o _ paired => ?_) reached ⟨rfl,nofun⟩
  have around := change_around w o
  rw [Paired,around.models,around.links]
  exact paired

theorem housed_of_reached {s : Setting} (reached : Reaches (fun _ => True) s.start w) : w.Housed :=
  (paired_of_reached reached).housed

def Halted (w : World) (p : Nat) : Prop := ∃ x, w.outcomes[p]? = some x ∧ x.value = some (.ok ())

theorem SettledOk.halted (stopped : SettledOk w p) : w.Halted p ∧ w.isCancelled p = false := by
  obtain ⟨x,there,answer⟩ := Option.bind_eq_some_iff.mp stopped
  unfold Promise.answer? at answer
  split at answer
  · cases answer
  · rename_i kept
    have uncancelled : w.isCancelled p = false := by simpa [isCancelled,there] using kept
    refine ⟨⟨x.core,by simp [World.outcomes,there],?_⟩,uncancelled⟩
    split at answer
    · rename_i value
      cases answer
      exact value
    · split at answer <;> cases answer

theorem halted_by (orderly : w.Orderly) (single : m.Single) (halted : (w.move m).Halted p) :
    w.Halted p ∨ ∃ id plan deadline, m = .turn id ∧ w.Pursues id p plan deadline ∧
      w.modelActive plan.model = false := by
  obtain ⟨x,there,stopped⟩ := halted
  rcases move_cases single orderly with ⟨id,q,plan,deadline,rfl,own⟩ | bides
  · rcases (turn_turned own).goes with ⟨_,_,same⟩ | ⟨value,_,same,-,idle,-⟩
    · exact .inl ⟨x,same ▸ there,stopped⟩
    · rw [move,same] at there
      by_cases here : q = p
      · subst here
        rw [List.getElem?_modify_eq] at there
        obtain ⟨y,_,rfl⟩ := Option.map_eq_some_iff.mp there
        exact .inr ⟨id,plan,deadline,rfl,own,idle stopped⟩
      · rw [List.getElem?_modify_ne _ _ here] at there
        exact .inl ⟨x,there,stopped⟩
  · exact .inl (bides.settled_before orderly there stopped)

theorem halted_idle {moves : List Move} (orderly : v.Orderly) (single : ∀ m ∈ moves, m.Single)
    (halted : (v.run moves).Halted p) : v.Halted p ∨
      ∃ before stop plan deadline after, moves = before ++ .turn stop :: after ∧
        (v.run before).Pursues stop p plan deadline ∧ (v.run before).modelActive plan.model = false := by
  -- the verdict came in the rest of the run, in its first move or before it
  induction moves generalizing v with
  | nil => exact .inl halted
  | cons m rest ih =>
    have first := single m List.mem_cons_self
    have next := (move_goes v first orderly).1
    rcases ih next (fun x member => single x (List.mem_cons_of_mem m member)) halted with
      already | ⟨before,stop,plan,deadline,after,split,pursues,idle⟩
    · rcases halted_by orderly first already with old | ⟨id,plan,deadline,rfl,own,idle⟩
      · exact .inl old
      · exact .inr ⟨[],id,plan,deadline,rest,rfl,own,idle⟩
    · exact .inr ⟨m :: before,stop,plan,deadline,after,by rw [split]; rfl,pursues,idle⟩

theorem Pursues.not_rouses {id : Nat} {plan : StopPlan} {deadline : Option Nat}
    (own : w.Pursues id p plan deadline) : ¬ w.Rouses k (.turn id) := by
  intro rouses
  cases rouses with
  | update _ n t text interrupts model runs began =>
    rcases (turn_turned own).goes with ⟨next,pursues,-⟩ | ⟨_,gone,-⟩
    · rw [Pursues,runs] at pursues
      cases pursues
      cases began
    · rw [gone] at runs
      cases runs

/-- A model that is active, but was idle when an attempt looked, was roused since. -/
theorem roused_since {id : Nat} {plan : StopPlan} {deadline : Option Nat} {after : List Move}
    (own : w.Pursues id p plan deadline) (known : plan.model < w.models.length)
    (idle : w.modelActive plan.model = false) (single : ∀ m ∈ after, m.Single)
    (active : ((w.turn id).run after).modelActive plan.model = true) :
    ((w.turn id).run after).now < w.now ∨ ∃ first rouse rest, after = first ++ rouse :: rest ∧
      ((w.turn id).run first).Rouses plan.model rouse := by
  rcases dormant_or_roused (k := plan.model) (w.turn id) after single with dormant | roused
  · -- the own turn of the attempt rouses nothing either
    refine .inl (Nat.not_le.mp fun onward => ?_)
    have dormant : Dormant plan.model w ((w.turn id).run after) :=
      Frame.trans (turn_dormant own.not_rouses) dormant
    rw [dormant.idle known onward idle] at active
    cases active
  · exact .inr roused

end World

/-- A cache is cleared only after the model was idle. Whatever collaborators crash, and with waiting told as
the turns that it comes to: when a move clears the cache of a model, it is the turn of a teardown of the
model's link that waits for a stop attempt of the link, and there was a turn of that attempt, some time
before, in which the model was not active. If it is active when the cache is cleared, then someone outside
has made it so since, or an update of a link with that model has begun to run since, unless the clock was
set back. -/
theorem cache_cleared_only_after_idle (s : Setting) (moves : List Move) (single : ∀ m ∈ moves, m.Single)
    (m : Move) (alone : m.Single) (k : Nat)
    (cleared : ((s.start.run moves).move m).uncachesOf k ≠ (s.start.run moves).uncachesOf k) :
    ∃ id t n p, m = .turn id ∧ (s.start.run moves).tasks[id]? = some (some t) ∧
      t.job.awaits? = some (n,p) ∧ (s.start.run moves).modelOf n = some k ∧
      ∃ before stop plan deadline after, moves = before ++ .turn stop :: after ∧
        (s.start.run before).stopOf n = some p ∧ (s.start.run before).Pursues stop p plan deadline ∧
        plan.model = k ∧ (s.start.run before).modelActive k = false ∧
        ((s.start.run moves).modelActive k = true →
          (s.start.run moves).now < (s.start.run before).now ∨
            ∃ first rouse rest, after = first ++ rouse :: rest ∧
              (s.start.run (before ++ .turn stop :: first)).Rouses k rouse) := by
  obtain ⟨id,t,n,p,turn,there,awaits,stopped,model⟩ := move_clears alone cleared
  have reaches (moves : List Move) : Reaches (fun _ => True) s.start (s.start.run moves) :=
    ⟨moves,fun _ _ => trivial,rfl⟩
  obtain ⟨halted,uncancelled⟩ := stopped.halted
  refine ⟨id,t,n,p,turn,there,awaits,model,?_⟩
  rcases halted_idle (orderly_of_reached (reaches [])) single halted with
    ⟨x,never,-⟩ | ⟨before,stop,plan,deadline,after,split,pursues,idle⟩
  · cases never
  · refine ⟨before,stop,plan,deadline,after,split,?_⟩
    have orderly := orderly_of_reached (reaches before)
    have rejoined : s.start.run moves = ((s.start.run before).turn stop).run after := by
      rw [split,run_append]
      rfl
    have onward : Onward (s.start.run before) (s.start.run moves) := by
      have later : Reaches (fun _ => True) (s.start.run before) (s.start.run moves) :=
        ⟨.turn stop :: after,fun _ _ => trivial,rejoined⟩
      exact (reaches_goes (fun _ _ => trivial) later orderly).2
    have now : (s.start.run moves).stopOf n = some p := by
      rcases awaited_of_reached (reaches moves) id t n p there awaits with stop | gone
      · exact stop
      · rw [uncancelled] at gone
        cases gone
    have earlier := onward.slot orderly pursues now
    have owner := orderly.model earlier pursues
    have same : plan.model = k := by
      have known := onward.models owner
      rw [model] at known
      exact (Option.some.inj known).symm
    subst same
    refine ⟨earlier,pursues,rfl,idle,fun active => ?_⟩
    have known : plan.model < (s.start.run before).models.length := by
      obtain ⟨l,link,same⟩ := Option.map_eq_some_iff.mp owner
      exact same ▸ housed_of_reached (reaches before) n l link
    have inside : ∀ m ∈ after, m.Single := fun m member =>
      single m (by rw [split]; exact List.mem_append_right _ (List.mem_cons_of_mem _ member))
    rw [rejoined] at active ⊢
    rcases roused_since pursues known idle inside active with back | ⟨first,rouse,rest,parts,rouses⟩
    · exact .inl back
    · exact .inr ⟨first,rouse,rest,parts,by rw [run_append]; exact rouses⟩

theorem first_cache_cleared_after_idle :
    (({} : Setting).start.run [.perform 0 (.create "a" 0),.turn 0,.turn 1]).uncachesOf 0 = 0 ∧
      ((({} : Setting).start.run [.perform 0 (.create "a" 0),.turn 0,.turn 1]).move (.turn 0)).uncachesOf 0 = 1 ∧
      ∃ before stop after, [.perform 0 (.create "a" 0),.turn 0,.turn 1] = before ++ Move.turn stop :: after ∧
        (({} : Setting).start.run before).modelActive 0 = false := by
  have none : (({} : Setting).start.run [.perform 0 (.create "a" 0),.turn 0,.turn 1]).uncachesOf 0 = 0 := by rfl
  have once : ((({} : Setting).start.run [.perform 0 (.create "a" 0),.turn 0,.turn 1]).move
      (.turn 0)).uncachesOf 0 = 1 := by rfl
  obtain ⟨-,-,-,-,-,-,-,-,before,stop,plan,deadline,after,split,-,-,-,idle,-⟩ :=
    cache_cleared_only_after_idle {} [.perform 0 (.create "a" 0),.turn 0,.turn 1] (by simp [Move.Single])
      (.turn 0) nofun 0 (by rw [none,once]; decide)
  exact ⟨none,once,before,stop,after,split,idle⟩

/-- The model is asked as rarely as typing is slow, and its updates take their time. -/
def slowSetting : Setting := { configs := [{ pollInterval := 50 }], blueprint := { updateMillis := 100 } }

/-- A teardown waits for a busy model. When the attempt finds it idle, an update that is due at the same
instant has its turn before the teardown has. -/
def raced : World :=
  slowSetting.start.run [.perform 0 (.create "a" 0),.turn 0,.turn 1,.turn 0,
    .perform 1 (.outside (.busy 0 50)),.perform 2 (.uncache "a"),.turn 2,.turn 3,.perform 3 (.update "a"),
    .turn 4,.arrive 50,.turn 3,.turn 4]

theorem cache_cleared_under_running_update :
    Reaches Move.Calm slowSetting.start raced ∧ raced.modelActive 0 = true ∧
      raced.tasks[4]? = some (some { label := some 3, job := .update 0 (.running "" 2) }) ∧
      (raced.turn 2).uncachesOf 0 = raced.uncachesOf 0 + 1 :=
  ⟨⟨_,by simp [Move.Calm,Move.Spares],rfl⟩,rfl,rfl,rfl⟩

end EditorLink
