import EditorLink.Proofs.Outcome
import EditorLink.Proofs.Serene

/-! The clearing of a model's cache from one end to the other: what each turn of a call does, how often the
model is asked to clear its cache, and what the call comes to, however it is interleaved with others. -/
namespace EditorLink
open World EditorLink.Action

namespace World

/-- The world in which no model refuses to clear its cache. -/
def willing (w : World) : World :=
  { w with models := w.models.map fun m => { m with model := { m.model with failsUncache := false } } }

/-- In its next turn the task asks the model so many times to clear its cache. A model does not count the times
it refuses, and so they are counted where no model refuses. -/
def Asks (w : World) (id k times : Nat) : Prop := (w.willing.turn id).uncachesOf k = w.uncachesOf k + times

/-- Waiting for the attempt has failed, or else the model has failed to clear its cache, with an error that
has this text. -/
def Fails (w : World) (l : Link) (stopped : Verdict) (reason : String) : Prop :=
  (∃ e, stopped = .error e ∧ reason = e.message) ∨
    stopped = .ok () ∧ ∃ m e, w.models[l.model]? = some m ∧ m.model.uncache = .error e ∧ reason = e.message

/-- A call that has come to its first turn has taken the hook off, has started one stop attempt, and waits for
that one. -/
structure Opening (w : World) (id label n : Nat) (v : World) : Prop where
  attempt : Launches w v n w.promises.length
  waits : v.tasks[id]? = some (some { label := some label, job := .uncache n (some w.promises.length) })
  silent : v.events = w.events
  flags : v.flags = w.flags
  asks : ∀ k, w.Asks id k 0
  attached : v.widgets.map Widget.attached = w.widgets.map Widget.attached

/-- A call goes on to wait. -/
structure Waiting (w : World) (id label n p : Nat) (v : World) : Prop where
  attempts : v.promises.length = w.promises.length
  waits : v.tasks[id]? = some (some { label := some label, job := .uncache n (some p) })
  silent : v.events = w.events
  links : v.links = w.links
  asks : ∀ k, w.Asks id k 0
  widgets : v.widgets = w.widgets

/-- What a call gives back. An error in clearing the cache wins over one in putting the hook back. -/
structure Result (w : World) (l : Link) (stopped : Verdict) (r : Report) : Prop where
  uncache : ∀ reason, r = .failed (.uncache reason) ↔ w.Fails l stopped reason
  unavailable : ∀ editor, r = .failed (.editorUnavailable editor) ↔ editor = l.slot.id ∧
    (∀ reason, ¬ w.Fails l stopped reason) ∧ l.dead = false ∧ l.live = true ∧ w.seen l = none
  done : r = .done ↔ (∀ reason, ¬ w.Fails l stopped reason) ∧
    ¬ (l.dead = false ∧ l.live = true ∧ w.seen l = none)

/-- A call that has waited for its attempt comes to its end. -/
structure Returning (w : World) (id label n : Nat) (l : Link) (stopped : Verdict) (v : World) : Prop where
  verdict : stopped = .ok () ∨ stopped = .error .superseded ∨ ∃ ms, stopped = .error (.stopTimedOut ms)
  attempts : v.promises = w.promises
  finished : v.tasks[id]? = some none
  result : ∃ r, v.events = w.events ++ [⟨w.now,label,r⟩] ∧ w.Result l stopped r
  flags : v.flags = w.flags
  asks : ∀ k, w.Asks id k (if stopped.isOk ∧ k = l.model then 1 else 0)
  hooked : ∀ k e, v.links[n]? = some k → k.dead = false → k.live = true → v.seen k = some e →
    ∃ x, v.widgets[e]? = some x ∧ x.hook = some n
  untouched : ∀ k, v.links[n]? = some k → k.dead = true ∨ k.live = false → v.widgets = w.widgets

variable {w : World} {id label n p k : Nat} {l : Link} {stopped : Verdict}

theorem willing_calm (calm : w.Calm) : w.willing.Calm := ⟨calm.sites,calm.locks⟩

theorem willing_housed (housed : w.Housed) : w.willing.Housed := by
  intro n l there
  rw [willing,List.length_map]
  exact housed n l there

theorem willing_uncaches (w : World) (k : Nat) : w.willing.uncachesOf k = w.uncachesOf k := by
  rw [uncachesOf,uncachesOf,willing,List.getElem?_map]
  rcases w.models[k]? with _ | m <;> rfl

theorem willing_obstacle (w : World) (l : Link) (stopped : Verdict) :
    w.willing.obstacle l stopped = none ↔ stopped.isOk := by
  cases stopped with
  | error e => simp [obstacle,Except.isOk,Except.toBool]
  | ok _ =>
    simp only [obstacle,willing,List.getElem?_map,Except.isOk,Except.toBool]
    rcases w.models[l.model]? with _ | m
    · simp
    · simp [Model.uncache]

theorem obstacle_iff {reason : String} : w.obstacle l stopped = some reason ↔ w.Fails l stopped reason := by
  cases stopped with
  | error e => simp [obstacle,Fails,eq_comm]
  | ok _ =>
    simp only [obstacle,Fails,Option.bind_eq_some_iff]
    constructor
    · rintro ⟨m,there,failed⟩
      split at failed
      · rename_i e refused
        cases failed
        exact .inr ⟨trivial,m,e,there,refused,rfl⟩
      · cases failed
    · rintro (⟨e,same,-⟩ | ⟨-,m,e,there,refused,rfl⟩)
      · cases same
      · exact ⟨m,there,by rw [refused]⟩

theorem result_failed {reason : String} (fails : w.Fails l stopped reason) :
    w.Result l stopped (.failed (.uncache reason)) := by
  have only {other : String} (also : w.Fails l stopped other) : other = reason :=
    Option.some.inj ((obstacle_iff.mpr also).symm.trans (obstacle_iff.mpr fails))
  refine ⟨fun other => ⟨fun same => ?_,fun also => ?_⟩,fun editor => ⟨fun same => ?_,fun fits => ?_⟩,
    ⟨fun same => ?_,fun fits => ?_⟩⟩
  · cases same
    exact fails
  · rw [only also]
  · cases same
  · exact absurd fails (fits.2.1 reason)
  · cases same
  · exact absurd fails (fits.1 reason)

theorem result_nowhere (fine : ∀ reason, ¬ w.Fails l stopped reason)
    (nowhere : l.dead = false ∧ l.live = true ∧ w.seen l = none) :
    w.Result l stopped (.failed (.editorUnavailable l.slot.id)) := by
  refine ⟨fun reason => ⟨fun same => ?_,fun fails => ?_⟩,fun editor => ⟨fun same => ?_,fun fits => ?_⟩,
    ⟨fun same => ?_,fun fits => ?_⟩⟩
  · cases same
  · exact absurd fails (fine reason)
  · cases same
    exact ⟨rfl,fine,nowhere⟩
  · rw [fits.1]
  · cases same
  · exact absurd nowhere fits.2

theorem result_done (fine : ∀ reason, ¬ w.Fails l stopped reason)
    (found : ¬ (l.dead = false ∧ l.live = true ∧ w.seen l = none)) : w.Result l stopped .done := by
  refine ⟨fun reason => ⟨fun same => ?_,fun fails => ?_⟩,fun editor => ⟨fun same => ?_,fun fits => ?_⟩,
    fun _ => ⟨fine,found⟩,fun _ => rfl⟩
  · cases same
  · exact absurd fails (fine reason)
  · cases same
  · exact absurd fits.2.2 found

/-- What is reported of a call that comes to this. -/
def resultOf : Verdict → Report
  | .ok _ => .done
  | .error e => .failed e

theorem result_closing (w : World) (l : Link) (stopped : Verdict) :
    w.Result l stopped (resultOf (w.closing l stopped)) := by
  have fine (clear : w.obstacle l stopped = none) (reason : String) : ¬ w.Fails l stopped reason := by
    intro fails
    rw [obstacle_iff.mpr fails] at clear
    cases clear
  rw [closing_eq]
  split
  · rename_i reason obstacle
    exact result_failed (obstacle_iff.mp obstacle)
  · rename_i clear
    split
    · rename_i missing
      exact result_nowhere (fine clear) (by simpa [and_assoc] using missing)
    · rename_i found
      exact result_done (fine clear) (by simpa [and_assoc] using found)

theorem turn_barred (calm : w.Calm) (link : w.links[n]? = some l) (dead : l.dead = true)
    (there : w.tasks[id]? = some (some { label := some label, job := .uncache n none })) :
    w.turn id = ((w.taken id).report (some label) (.failed .killed)).remove id := by
  have cleared := exec_clearHook_dead (calm.taken id) link dead
  rw [turn_active there rfl]
  dsimp only [resume]
  rw [resumeUncache,exec_bind_error (by rw [beginTeardown,exec_bind_error cleared])]
  rfl

theorem turn_opens (calm : w.Calm) (link : w.links[n]? = some l) (alive : l.dead = false)
    (fine : l.stopPoisoned = false)
    (there : w.tasks[id]? = some (some { label := some label, job := .uncache n none })) :
    ∃ v, w.turn id = v.setJob id (.uncache n (some w.promises.length)) ∧ Opens w n l v ∧
      v.tasks[id]? = some (some { label := some label, job := .uncache n none }) := by
  obtain ⟨v,begun,opens,unanswered⟩ := exec_beginTeardown (calm.taken id) link alive fine
  have waits := exec_await_unanswered id (p := w.promises.length) unanswered
  have ran : exec (resume id (.uncache n none)) (w.taken id) =
      (.ok (.pause (.uncache n (some w.promises.length))),
        { v with promises := v.promises.modify w.promises.length fun x => x.observe id }) := by
    dsimp only [resume]
    rw [resumeUncache,exec_bind_ok begun]
    dsimp only [World.taken]
    rw [exec_bind_ok waits]
    rfl
  have added := resume_tasks id (.uncache n none) (w.taken id)
  rw [ran] at added
  refine ⟨{ v with promises := v.promises.modify w.promises.length fun x => x.observe id },?_,?_,added.task there⟩
  · rw [turn_active there rfl,ran]
    rfl
  · refine ⟨?_,opens.links,opens.widgets,(List.length_modify _ _ _).trans opens.size⟩
    rw [opens.same]
    rfl

theorem turn_waits (unanswered : w.promises[p]?.bind Promise.answer? = none)
    (there : w.tasks[id]? = some (some { label := some label, job := .uncache n (some p) })) :
    w.turn id = World.setJob { w.taken id with promises := w.promises.modify p fun x => x.observe id } id
      (.uncache n (some p)) := by
  have waits := exec_await_unanswered (w := w.taken id) id unanswered
  rw [turn_active there rfl]
  dsimp only [resume]
  rw [resumeUncache,exec_bind_ok (exec_pure p _),exec_bind_ok waits]
  rfl

theorem turn_closes {answer : Option Verdict} (calm : w.Calm) (housed : w.Housed) (link : w.links[n]? = some l)
    (answered : w.promises[p]?.bind Promise.answer? = some answer)
    (there : w.tasks[id]? = some (some { label := some label, job := .uncache n (some p) })) :
    ∃ v, w.turn id = (v.report (some label) (resultOf (w.closing l (verdict answer)))).remove id ∧
      Closes (w.taken id) n l (verdict answer) v := by
  have waits := exec_await_answered (w := w.taken id) id answered
  obtain ⟨v,finished,closes⟩ := exec_finishTeardown (calm.taken id) link housed (verdict answer)
  have same : (w.taken id).closing l (verdict answer) = w.closing l (verdict answer) := rfl
  refine ⟨v,?_,closes⟩
  rw [turn_active there rfl]
  dsimp only [resume]
  rw [resumeUncache,exec_bind_ok (exec_pure p _),exec_bind_ok waits]
  dsimp only
  rw [exec_bind,finished,same]
  rcases w.closing l (verdict answer) with e | _ <;> rfl

theorem opening_of_alive (calm : w.Calm) (link : w.links[n]? = some l) (alive : l.dead = false)
    (fine : l.stopPoisoned = false)
    (there : w.tasks[id]? = some (some { label := some label, job := .uncache n none })) :
    w.Opening id label n (w.turn id) := by
  have inside := (List.getElem?_eq_some_iff.mp link).1
  obtain ⟨v,turned,opens,kept⟩ := turn_opens calm link alive fine there
  obtain ⟨x,same,asked,-⟩ := turn_opens (willing_calm calm) link alive fine there
  rw [turned]
  refine ⟨⟨rfl,opens.size,?_⟩,conclude_paused kept (some label) _,?_,opens.flags link,fun k => ?_,opens.attached⟩
  · have links : (v.setJob id (.uncache n (some w.promises.length))).links = v.links := rfl
    rw [stopOf,links,opens.links,List.getElem?_set_self inside]
    rfl
  · have events : v.events = w.events := by rw [opens.same]
    exact events
  · have models : x.models = w.willing.models := by rw [asked.same]
    rw [Asks,same,uncachesOf,show (x.setJob id _).models = x.models from rfl,models]
    exact willing_uncaches w k

theorem waiting_of_unanswered (unanswered : w.promises[p]?.bind Promise.answer? = none)
    (there : w.tasks[id]? = some (some { label := some label, job := .uncache n (some p) })) :
    w.Waiting id label n p (w.turn id) := by
  have asked : w.willing.turn id = _ := turn_waits (w := w.willing) unanswered there
  rw [turn_waits unanswered there]
  refine ⟨List.length_modify _ _ _,conclude_paused there (some label) _,rfl,rfl,fun k => ?_,rfl⟩
  rw [Asks,asked]
  exact willing_uncaches w k

theorem report_result (w : World) (label : Nat) (r : Report) :
    w.report (some label) r = { w with events := w.events ++ [⟨w.now,label,r⟩] } := rfl

theorem returning_of_answered {answer : Option Verdict} (furnished : w.Furnished) (housed : w.Housed) (timed : w.Timed)
    (link : w.links[n]? = some l) (answered : w.promises[p]?.bind Promise.answer? = some answer)
    (there : w.tasks[id]? = some (some { label := some label, job := .uncache n (some p) })) :
    w.Returning id label n l (verdict answer) (w.turn id) := by
  obtain ⟨v,turned,closes⟩ := turn_closes furnished.toCalm housed link answered there
  obtain ⟨x,same,asked⟩ := turn_closes (willing_calm furnished.toCalm) (willing_housed housed) link answered there
  obtain ⟨k,found,model,dead,live,seen⟩ := closes.link link
  have known := (List.getElem?_eq_some_iff.mp there).1
  have tasks : v.tasks = w.tasks := by rw [closes.same]; rfl
  have events : v.events = w.events ∧ v.now = w.now := by rw [closes.same]; exact ⟨rfl,rfl⟩
  rw [turned,report_result]
  refine ⟨verdict_cases timed answered,?_,?_,⟨_,?_,result_closing w l _⟩,closes.flags link,fun k => ?_,?_,?_⟩
  · have promises : v.promises = w.promises := by rw [closes.same]; rfl
    exact promises
  · exact List.getElem?_set_self (tasks ▸ known)
  · rw [← events.1,← events.2]
    rfl
  · have cleared := asked.uncaches (willing_housed housed) link k
    have before : (w.willing.taken id).uncachesOf k = w.uncachesOf k := willing_uncaches w k
    have open_ : (w.willing.taken id).obstacle l (verdict answer) = none ↔ (verdict answer).isOk :=
      willing_obstacle w l (verdict answer)
    rw [before] at cleared
    simp only [open_] at cleared
    rw [Asks,same]
    exact cleared
  · intro j e there alive on resolves
    have wanted : (!l.dead && l.live) = true := by
      cases found.symm.trans there
      simp [← dead,← live,alive,on]
    refine closes.hooked (furnished.taken id) wanted ?_
    cases found.symm.trans there
    exact seen.symm.trans resolves
  · intro j there off
    have idle : ¬ (!l.dead && l.live) = true := by
      cases found.symm.trans there
      rw [← dead,← live]
      rcases off with gone | paused
      · simp [gone]
      · simp [paused]
    have widgets := closes.widgets
    rw [if_neg idle] at widgets
    exact widgets

end World

/-- The call has started the attempt with this number in its first turn. -/
def Started (s : Setting) (w : World) (id label n p : Nat) : Prop :=
  ∃ v, Reaches Move.Serene s.start v ∧
    v.tasks[id]? = some (some { label := some label, job := .uncache n none }) ∧ p = v.promises.length ∧
    (v.turn id).tasks[id]? = some (some { label := some label, job := .uncache n (some p) }) ∧
    Reaches Move.Serene (v.turn id) w

/-- Clearing the cache from end to end. As long as nobody crashes, and whatever else is done with the link
meanwhile: a call whose link is dead at its first turn is told so, and has done nothing else. Any other call
starts one stop attempt there, waits for that one, and then asks the model once to clear its cache if the
model has stopped, and not at all if it has not. It fails with the text of what failed in that, wherever the
hook could be put back or not; if nothing did, it fails because no widget was found for a link that is alive
and live, and otherwise it is done. No call ever changes whether a link is dead or live. At the end of a call
the widget found has the hook if the link is alive and live, and if not the call has attached nothing. -/
theorem uncache_runs_its_course (s : Setting) (w : World) (reached : Reaches Move.Serene s.start w)
    (id label n : Nat) (stop : Option Nat)
    (there : w.tasks[id]? = some (some { label := some label, job := .uncache n stop })) :
    ∃ l, w.links[n]? = some l ∧ match stop with
      | none =>
        if l.dead then w.turn id = ((w.taken id).report (some label) (.failed .killed)).remove id
        else w.Opening id label n (w.turn id)
      | some p => Started s w id label n p ∧ match w.promises[p]?.bind Promise.answer? with
        | none => w.Waiting id label n p (w.turn id)
        | some answer => w.Returning id label n l (verdict answer) (w.turn id) := by
  have calmly : Reaches Move.Calm s.start w := reached.mono fun _ serene => serene.1
  have anyhow : Reaches (fun _ => True) s.start w := reached.mono fun _ _ => trivial
  have furnished := furnished_of_reached calmly
  have known := (unharmed_of_reached (calmly.mono fun _ calm => calm .factory)).holds n (held_of_task there rfl)
  have link := List.getElem?_eq_getElem known
  refine ⟨w.links[n],link,?_⟩
  cases stop with
  | none =>
    dsimp only
    cases dead : w.links[n].dead with
    | true => exact turn_barred furnished.toCalm link dead there
    | false => exact opening_of_alive furnished.toCalm link dead (unjammed_of_reached reached n _ link) there
  | some p =>
    have begun := begun_of_reached (fun _ => Move.Internal.serene) reached there rfl
    obtain ⟨v,before,fresh,after,since⟩ := begun
    refine ⟨⟨v,before,fresh,(turn_launches fresh after rfl).number,after,since⟩,?_⟩
    rcases answered : w.promises[p]?.bind Promise.answer? with _ | answer
    · exact waiting_of_unanswered answered there
    · exact returning_of_answered furnished (housed_of_reached anyhow) (timed_of_reached anyhow) link answered there

/-- A call waits while its attempt is superseded and the only editor goes away. -/
def overtaken : World :=
  ({} : Setting).start.run [.perform 0 (.create "a" 0),.turn 0,.turn 1,.turn 0,.perform 1 (.outside .unmount),
    .perform 2 (.uncache "a"),.turn 2,.perform 3 (.stop "a" true)]

theorem overtaken_uncache_tells_why :
    Reaches Move.Serene ({} : Setting).start overtaken ∧
      (overtaken.turn 2).events = overtaken.events ++
        [⟨overtaken.now,2,.failed (.uncache "Stop attempt was superseded by a newer attempt")⟩] := by
  have reached : Reaches Move.Serene ({} : Setting).start overtaken :=
    ⟨_,by simp [Move.Serene,Move.Calm,Move.Spares],rfl⟩
  obtain ⟨l,-,-,rest⟩ := uncache_runs_its_course {} overtaken reached 2 2 0 (some 1) rfl
  have answered : overtaken.promises[1]?.bind Promise.answer? = some none := by rfl
  simp only [answered] at rest
  obtain ⟨r,said,result⟩ := rest.result
  have failed := (result.uncache _).mpr (.inl ⟨.superseded,rfl,rfl⟩)
  exact ⟨reached,by rw [said,failed]; rfl⟩

end EditorLink
