import EditorLink.Proofs.Outcome

/-! Creating a link is all or nothing, although the link can be seen and used by others from the moment it is
registered: either it is handed over complete, or it is dead and has left no hook, or no link was made. -/
namespace EditorLink
open World EditorLink.Action

theorem Job.Follows.registry {job next : Job} (follows : job.Follows next) :
    next.registry? = job.registry? := by
  cases follows <;> rfl

namespace World

/-- Every creation is for a registry that is there. -/
def Listed (w : World) : Prop :=
  ∀ (i : Nat) (t : Task) (registry : Nat), w.tasks[i]? = some (some t) → t.job.registry? = some registry →
    registry < w.registries.length

/-- What a creation leaves that has failed after its link was registered. -/
structure Discards (w : World) (n : Nat) (v : World) : Prop where
  events : v.events = w.events
  now : v.now = w.now
  dead : v.isDead n = true

variable {v w : World} {n : Nat} {l : Link} {stopped : Verdict} {m : Move}

theorem calm_turn (reached : Reaches Move.Calm v w) (id : Nat) : Reaches Move.Calm v (w.turn id) :=
  Frame.trans reached (reaches_move w (.turn id) (Move.Internal.calm (m := .turn id) trivial))

theorem Listed.move (listed : w.Listed) (single : m.Single)
    (registries : (w.move m).registries.length = w.registries.length) : (w.move m).Listed := by
  intro i t registry there creates
  rw [registries]
  cases move_stems single there with
  | old _ _ _ old => exact listed i t registry old creates
  | aborted _ _ u label old _ => exact listed i u registry old creates
  | called _ _ number job called _ registered => exact registered registry creates
  | typed _ _ _ _ => cases creates
  | stop _ _ _ _ _ => cases creates
  | paused i u job old follows => exact listed i u registry old (follows.registry.symm.trans creates)

theorem listed_of_reached {s : Setting} (reached : Reaches (Move.Spares .factory) s.start w) : w.Listed := by
  have kept : s.start.Unharmed ∧ s.start.Listed → w.Unharmed ∧ w.Listed := by
    refine run_keeps (R := fun v w : World => v.Unharmed ∧ v.Listed → w.Unharmed ∧ w.Listed)
      (fun _ internal => internal.spares .factory) ?_ reached
    rintro v m spares single ⟨unharmed,listed⟩
    obtain ⟨after,later⟩ := move_course v m spares single unharmed
    exact ⟨after,listed.move single later.registries⟩
  exact (kept ⟨start_unharmed s,nofun⟩).2

theorem closing_refuses {e : LinkError} (refused : w.closing l stopped = .error e) : e ≠ .alreadyExists := by
  rw [closing_eq] at refused
  split at refused
  · cases refused
    nofun
  · split at refused
    · cases refused
      nofun
    · cases refused

theorem closing_done (done : w.closing l stopped = .ok ()) :
    w.obstacle l stopped = none ∧ stopped = .ok () ∧ (l.dead = false → l.live = true → (w.seen l).isSome) := by
  rw [closing_eq] at done
  split at done
  · cases done
  · rename_i clear
    refine ⟨clear,?_,fun alive live => ?_⟩
    · cases stopped with
      | error e => cases clear
      | ok _ => rfl
    · split at done
      · cases done
      · rename_i found
        simpa [alive,live,Option.isSome_iff_ne_none] using found

theorem Closes.calm (closes : Closes w n l stopped v) (there : w.links[n]? = some l) (calm : w.Calm) :
    v.Calm := by
  have sites : v.sites = w.sites := by rw [closes.same]
  have links := closes.links
  split at links
  · exact calm.put sites links (calm.locks n l there)
  · refine ⟨sites.trans calm.sites,fun m k found => calm.locks m k ?_⟩
    rw [← links]
    exact found

end World

namespace Action

variable {w : World} {id n p registry : Nat} {name : String} {l : Link} {stopped : Verdict}

theorem exec_handOver (there : w.links[n]? = some l) (name : String) :
    exec (handOver n name) w = if l.dead then (.error (.error .killed),w.note .killedInTeardown)
      else (.ok (.finish (some (.created l.model))),w.bindName name n) := by
  rw [handOver,exec_bind_ok (exec_link_some there)]
  split
  · rfl
  · rw [exec_bind_ok (exec_link_some there)]
    rfl

theorem exec_discard (calm : w.Calm) (there : w.links[n]? = some l) (e : LinkError) :
    ∃ v, exec (discard n e) w = (.error (.error e),v) ∧ Discards w n v := by
  let noted := w.note (.teardownFailed e.message)
  have still : noted.Calm := ⟨calm.sites,calm.locks⟩
  have inside := (List.getElem?_eq_some_iff.mp there).1
  have rest : exec (discard n e) w = exec (do kill n; fail e) noted := rfl
  rw [rest]
  cases dead : l.dead with
  | true =>
    rw [exec_bind_ok (exec_kill_dead (w := noted) still there dead),exec_fail]
    exact ⟨noted,rfl,rfl,rfl,isDead_iff.mpr ⟨l,there,dead⟩⟩
  | false =>
    obtain ⟨lookups,notices,killed⟩ := exec_kill (w := noted) still there dead
    rw [exec_bind_ok killed,exec_fail]
    exact ⟨_,rfl,rfl,rfl,isDead_iff.mpr ⟨_,List.getElem?_set_self inside,rfl⟩⟩

/-- A creation whose first teardown is over hands its link over, or has failed. -/
theorem exec_afterTeardown (calm : w.Calm) (there : w.links[n]? = some l) (housed : w.Housed)
    (stopped : Verdict) (name : String) :
    (w.closing l stopped = .ok () ∧ l.dead = false ∧ ∃ v, Closes w n l stopped v ∧
      exec (afterTeardown n name stopped) w =
        (.ok (.finish (some (.created l.model))),v.bindName name n)) ∨
      ∃ e v, e ≠ .alreadyExists ∧ exec (afterTeardown n name stopped) w = (.error (.error e),v) ∧
        Discards w n v := by
  obtain ⟨u,finished,closes⟩ := exec_finishTeardown calm there housed stopped
  obtain ⟨k,found,model,dead,-⟩ := closes.link there
  have events : u.events = w.events ∧ u.now = w.now := by rw [closes.same]; exact ⟨rfl,rfl⟩
  rw [afterTeardown,exec_bind,exec_result,finished]
  rcases ended : w.closing l stopped with e | _
  · obtain ⟨v,discarded,discards⟩ := exec_discard (closes.calm there calm) found e
    have kept : Discards w n v :=
      ⟨discards.events.trans events.1,discards.now.trans events.2,discards.dead⟩
    exact .inr ⟨e,v,closing_refuses ended,exec_bind_error discarded,kept⟩
  · dsimp only [Except.mapError]
    rw [exec_handOver found,dead,model]
    cases alive : l.dead with
    | false => exact .inl ⟨rfl,rfl,u,closes,rfl⟩
    | true => exact .inr ⟨.killed,_,nofun,rfl,events.1,events.2,isDead_iff.mpr ⟨k,found,dead.trans alive⟩⟩

theorem exec_goOn_unanswered (id registry : Nat) (name : String) (n : Nat)
    (unanswered : w.promises[p]?.bind Promise.answer? = none) :
    exec (goOn id registry name n (.ok p)) w = (.ok (.pause (.create registry name (some (n,p)))),
      { w with promises := w.promises.modify p fun x => x.observe id }) := by
  rw [goOn,exec_bind_ok (exec_await_unanswered id unanswered)]
  rfl

theorem exec_goOn_answered (id registry : Nat) (name : String) (n : Nat) {answer : Option Verdict}
    (answered : w.promises[p]?.bind Promise.answer? = some answer) :
    exec (goOn id registry name n (.ok p)) w = exec (afterTeardown n name (verdict answer)) w := by
  rw [goOn,exec_bind_ok (exec_await_answered id answered)]

/-- Where no factory has crashed, a registration is refused only on account of another link. -/
theorem exec_register_unharmed (unharmed : w.Unharmed) {r : Registry} (there : w.registries[registry]? = some r) :
    exec (register registry) w = if (w.current? registry).isSome then (.error (.error .alreadyExists),w)
      else (.ok w.links.length,w.withLink registry r) := by
  rw [exec_register there unharmed.spared,
    if_neg (by simp [unharmed.intact r (List.mem_of_getElem? there)])]

/-- The first teardown of a link always begins: nobody has got at the link yet. -/
theorem exec_setOut (calm : w.Calm) (id registry : Nat) (name : String) (r : Registry) :
    ∃ v, exec (setOut id registry name w.links.length) (w.withLink registry r) =
      (.ok (.pause (.create registry name (some (w.links.length,w.promises.length)))),v) ∧
      v.events = w.events := by
  obtain ⟨v,begun,opens,unanswered⟩ := exec_beginTeardown (calm_withLink calm registry r)
    (List.getElem?_concat_length (l := w.links)) rfl rfl
  have begins : exec (result (beginTeardown w.links.length)) (w.withLink registry r) =
      (.ok (.ok w.promises.length),v) := by
    rw [exec_result,begun]
    rfl
  have pauses := exec_goOn_unanswered id registry name w.links.length (p := w.promises.length)
    unanswered
  rw [setOut,exec_bind_ok begins,pauses]
  refine ⟨_,rfl,?_⟩
  have events : v.events = w.events := by rw [opens.same]; rfl
  exact events

end Action

namespace World

/-- The call has made this link in its first turn, and has started this attempt for its teardown there. -/
def MadeFor (s : Setting) (w : World) (id label registry : Nat) (name : String) (n p : Nat) : Prop :=
  ∃ v, Reaches Move.Calm s.start v ∧
    v.tasks[id]? = some (some { label := some label, job := .create registry name none }) ∧
    Registers v (v.turn id) registry n ∧ Launches v (v.turn id) n p ∧
    (v.turn id).tasks[id]? =
      some (some { label := some label, job := .create registry name (some (n,p)) }) ∧
    Reaches Move.Calm (v.turn id) w

/-- The call has got a link whose model has stopped in the attempt of the call, and has cleared its cache
once. The link is the one its registry tells of. -/
structure Complete (w : World) (registry n p : Nat) (name : String) (model : Nat) (l : Link) (v : World) :
    Prop where
  stopped : w.SettledOk p
  cleared : ∀ k, v.uncachesOf k = w.uncachesOf k + if k = model then 1 else 0
  link : v.links[n]? = some l
  model : l.model = model
  alive : l.dead = false
  current : v.current? registry = some n
  named : v.names.lookup name = some n
  found : l.live = true → (v.seen l).isSome
  hooked : ∀ e, v.seen l = some e → ∃ x, v.widgets[e]? = some x ∧ (x.hook = some n ↔ l.live = true)

/-- The link is dead and has left nothing behind. -/
structure Undone (registry n : Nat) (v : World) : Prop where
  dead : v.isDead n = true
  gone : v.current? registry ≠ some n
  unhooked : v.Unhooked n

variable {s : Setting} {v w : World} {id label n p registry : Nat} {name : String} {l : Link} {job next : Job}

theorem made_of_reached (reached : Reaches Move.Calm s.start w)
    (there : w.tasks[id]? = some (some { label := some label, job := .create registry name (some (n,p)) })) :
    MadeFor s w id label registry name n p := by
  obtain ⟨v,before,fresh,after,since⟩ := begun_of_reached (fun _ => Move.Internal.calm) reached there rfl
  exact ⟨v,before,fresh,turn_registers fresh after,turn_launches fresh after rfl,after,since⟩

theorem MadeFor.turn (made : MadeFor s w id label registry name n p) (other : Nat) :
    MadeFor s (w.turn other) id label registry name n p := by
  obtain ⟨v,before,fresh,registers,launches,after,since⟩ := made
  exact ⟨v,before,fresh,registers,launches,after,calm_turn since other⟩

theorem turn_pauses (there : w.tasks[id]? = some (some { label := some label, job }))
    (ran : exec (resume id job) (w.taken id) = (.ok (.pause next),v)) (events : v.events = w.events) :
    (w.turn id).tasks[id]? = some (some { label := some label, job := next }) ∧
      (w.turn id).events = w.events := by
  obtain ⟨r,u,same,-,kept,turned⟩ := turn_ran there rfl
  dsimp only at same
  rw [ran] at same
  cases same
  rw [turned]
  refine ⟨conclude_paused kept (some label) next,?_⟩
  rw [conclude_events,events]
  simp [reportOf]

theorem undone_of_dead (reached : Reaches Move.Calm s.start w) (dead : w.isDead n = true) (registry : Nat) :
    Undone registry n w := by
  refine ⟨dead,fun current => ?_,unhooked_of_dead (wellHooked_of_reached reached (start_wellHooked s)) dead⟩
  obtain ⟨-,-,alive⟩ := current?_spec current
  rw [dead] at alive
  cases alive

theorem turn_uncleared (there : w.tasks[id]? = some (some { label := some label, job }))
    (unstopped : ∀ n p, job.awaits? = some (n,p) → ¬ w.SettledOk p) (k : Nat) :
    (w.turn id).uncachesOf k = w.uncachesOf k := by
  refine Classical.byContradiction fun changed => ?_
  obtain ⟨_,t,n,p,same,found,awaits,stopped,-⟩ := move_clears (m := .turn id) nofun changed
  cases same
  cases there.symm.trans found
  exact unstopped n p awaits stopped

theorem Unharmed.taken (unharmed : w.Unharmed) (id : Nat) : (w.taken id).Unharmed :=
  (course_aside (v := w) (w := w.taken id) rfl rfl rfl rfl rfl unharmed).1

theorem turn_refused (unharmed : w.Unharmed) (known : registry < w.registries.length)
    (other : (w.current? registry).isSome)
    (there : w.tasks[id]? = some (some { label := some label, job := .create registry name none })) :
    w.turn id = ((w.taken id).report (some label) (.failed .alreadyExists)).remove id := by
  have refused := exec_register_unharmed (unharmed.taken id) (List.getElem?_eq_getElem known)
  rw [if_pos (by exact other)] at refused
  rw [turn_active there rfl]
  dsimp only [resume]
  rw [resumeCreate_refused refused]
  rfl

theorem turn_sets_out (calm : w.Calm) (unharmed : w.Unharmed) (known : registry < w.registries.length)
    (free : w.current? registry = none)
    (there : w.tasks[id]? = some (some { label := some label, job := .create registry name none })) :
    ∃ n p, (w.turn id).tasks[id]? =
      some (some { label := some label, job := .create registry name (some (n,p)) }) ∧
      (w.turn id).events = w.events := by
  have registered := exec_register_unharmed (unharmed.taken id) (List.getElem?_eq_getElem known)
  have free : ¬ ((w.taken id).current? registry).isSome = true := by
    rw [show (w.taken id).current? registry = none from free]
    nofun
  rw [if_neg free] at registered
  obtain ⟨v,ran,events⟩ := exec_setOut (calm.taken id) id registry name
    w.registries[registry]
  exact ⟨_,_,turn_pauses there ((resumeCreate_made registered).trans ran) events⟩

/-- A creation whose attempt has an answer comes to its end. -/
theorem turn_ends {answer : Option Verdict} (calm : w.Calm) (housed : w.Housed) (link : w.links[n]? = some l)
    (answered : w.promises[p]?.bind Promise.answer? = some answer)
    (there : w.tasks[id]? = some (some { label := some label, job := .create registry name (some (n,p)) })) :
    (w.closing l (verdict answer) = .ok () ∧ l.dead = false ∧ ∃ v, Closes (w.taken id) n l (verdict answer) v ∧
      w.turn id = ((v.bindName name n).report (some label) (.created l.model)).remove id) ∨
      ∃ e v, e ≠ .alreadyExists ∧ Discards (w.taken id) n v ∧
        w.turn id = (v.report (some label) (.failed e)).remove id := by
  have ended := exec_goOn_answered (w := w.taken id) id registry name n answered
  rw [turn_active there rfl]
  dsimp only [resume]
  rw [resumeCreate_waiting,ended]
  rcases exec_afterTeardown (calm.taken id) link housed (verdict answer) name with
    ⟨closed,alive,v,closes,done⟩ | ⟨e,v,other,failed,discards⟩
  · exact .inl ⟨closed,alive,v,closes,by rw [done]; rfl⟩
  · exact .inr ⟨e,v,other,discards,by rw [failed]; rfl⟩

theorem settledOk_of_verdict {answer : Option Verdict}
    (answered : w.promises[p]?.bind Promise.answer? = some answer) (fine : verdict answer = .ok ()) :
    w.SettledOk p := by
  rw [SettledOk,answered]
  rcases answer with _ | given
  · cases fine
  · exact congrArg (fun v => some (some v)) fine

theorem current_of_made (made : MadeFor s w id label registry name n p) (reached : Reaches Move.Calm s.start w)
    (up : w.Up n) : w.current? registry = some n := by
  obtain ⟨v,before,-,registers,-,-,since⟩ := made
  have spares {u t : World} (calmly : Reaches Move.Calm u t) : Reaches (Move.Spares .factory) u t :=
    calmly.mono fun _ calm => calm .factory
  exact (current?_iff_up (spares reached) registry n).mpr
    ⟨⟨v.turn id,spares (calm_turn before id),spares since,registers.last⟩,up⟩

theorem complete_of_done {answer : Option Verdict} (reached : Reaches Move.Calm s.start (w.turn id))
    (made : MadeFor s (w.turn id) id label registry name n p) (furnished : w.Furnished) (housed : w.Housed)
    (link : w.links[n]? = some l) (answered : w.promises[p]?.bind Promise.answer? = some answer)
    (closed : w.closing l (verdict answer) = .ok ()) (alive : l.dead = false)
    (closes : Closes (w.taken id) n l (verdict answer) v)
    (turned : w.turn id = ((v.bindName name n).report (some label) (.created l.model)).remove id) :
    ∃ k, Complete w registry n p name l.model k (w.turn id) := by
  obtain ⟨clear,fine,resolves⟩ := closing_done closed
  obtain ⟨k,found,model,dead,live,seen⟩ := closes.link (w := w.taken id) link
  have there : (w.turn id).links[n]? = some k := by rw [turned]; exact found
  have looks : (w.turn id).seen k = w.seen l := by rw [turned]; exact seen
  have named : (w.turn id).names.lookup name = some n := by
    rw [turned]
    exact List.lookup_cons_self
  have lives : (w.turn id).isDead n = false := by simp [isDead,there,dead,alive]
  have wellHooked := wellHooked_of_reached reached (start_wellHooked s)
  have peopled := (furnished_of_reached reached).peopled
  refine ⟨k,settledOk_of_verdict answered fine,fun j => ?_,there,model,dead.trans alive,
    current_of_made made reached ⟨held_of_lookup named,lives⟩,named,fun on => ?_,fun e resolved => ?_⟩
  · have cleared := closes.uncaches (w := w.taken id) housed link j
    have before : (w.taken id).obstacle l (verdict answer) = none := clear
    simp only [before,true_and] at cleared
    rw [turned]
    exact cleared
  · rw [looks]
    exact resolves alive (live.symm.trans on)
  · have living := alive_of_seen resolved
    have inside := List.getElem?_eq_getElem (peopled e living)
    refine ⟨_,inside,fun carries => ?_,fun on => ?_⟩
    · -- a living widget has a link's hook only where the link is in live mode
      obtain ⟨j,known,-,-,mode⟩ := wellHooked.tied e _ n inside carries living
      cases there.symm.trans known
      exact mode
    · have wanted : (!l.dead && l.live) = true := by simp [alive,live.symm.trans on]
      obtain ⟨x,widget,carries⟩ := closes.hooked (furnished.taken id) wanted (looks.symm.trans resolved)
      have same : (w.turn id).widgets[e]? = some x := by rw [turned]; exact widget
      cases inside.symm.trans same
      exact carries

end World

/-- Creating a link is all or nothing. As long as no collaborator crashes, and whatever is done with the link
from the moment it is registered: in each of its turns a creation waits, succeeds or fails. As long as it
waits it clears no cache. If it succeeds, the link is alive, its registry tells of it, its own attempt has
stopped the model, whose cache is now cleared once, and the widget it finds has its hook if and only if the
link is in live mode, for which there has to be one. If it is refused on account of another link, nothing is
changed. If it fails with any other error, the link it has made is dead, its registry does not tell of it, and
no living widget has its hook. -/
theorem creation_is_all_or_nothing (s : Setting) (w : World) (reached : Reaches Move.Calm s.start w)
    (id label registry : Nat) (name : String) (teardown : Option (Nat × Nat))
    (there : w.tasks[id]? = some (some { label := some label, job := .create registry name teardown })) :
    ∃ said : Option Report, (w.turn id).events = w.events ++ (said.map fun r => ⟨w.now,label,r⟩).toList ∧
      match said with
      | none => ∃ n p, (∀ begun, teardown = some begun → begun = (n,p)) ∧
          MadeFor s (w.turn id) id label registry name n p ∧
          (w.turn id).tasks[id]? =
            some (some { label := some label, job := .create registry name (some (n,p)) }) ∧
          ∀ k, (w.turn id).uncachesOf k = w.uncachesOf k
      | some (.created model) => ∃ n p l, teardown = some (n,p) ∧
          MadeFor s (w.turn id) id label registry name n p ∧ Complete w registry n p name model l (w.turn id)
      | some (.failed .alreadyExists) => teardown = none ∧ (w.current? registry).isSome ∧
          w.turn id = ((w.taken id).report (some label) (.failed .alreadyExists)).remove id
      | some (.failed _) => ∃ n p, teardown = some (n,p) ∧
          MadeFor s (w.turn id) id label registry name n p ∧ Undone registry n (w.turn id)
      | some _ => False := by
  have calmly := calm_turn reached id
  have spares := reached.mono fun _ calm => calm .factory
  have unharmed := unharmed_of_reached spares
  have furnished := furnished_of_reached reached
  have housed := housed_of_reached (reached.mono fun _ _ => trivial)
  cases teardown with
  | none =>
    have known := listed_of_reached spares id _ registry there rfl
    rcases current : w.current? registry with _ | other
    · obtain ⟨n,p,paused,silent⟩ := turn_sets_out furnished.toCalm unharmed known current there
      refine ⟨none,by rw [silent]; simp,n,p,nofun,made_of_reached calmly paused,paused,?_⟩
      exact turn_uncleared there nofun
    · have refused := turn_refused unharmed known (by rw [current]; rfl) there
      exact ⟨some (.failed .alreadyExists),by rw [refused]; rfl,rfl,rfl,refused⟩
  | some begun =>
    obtain ⟨n,p⟩ := begun
    obtain ⟨l,link⟩ : ∃ l, w.links[n]? = some l :=
      ⟨_,List.getElem?_eq_getElem (unharmed.holds n (held_of_task there rfl))⟩
    have made := (made_of_reached reached there).turn id
    rcases answered : w.promises[p]?.bind Promise.answer? with _ | answer
    · have waits := exec_goOn_unanswered (w := w.taken id) id registry name n answered
      obtain ⟨paused,silent⟩ := turn_pauses there waits rfl
      refine ⟨none,by rw [silent]; simp,n,p,fun begun same => (Option.some.inj same).symm,made,paused,?_⟩
      refine turn_uncleared there fun m q awaits stopped => ?_
      cases awaits
      cases answered.symm.trans stopped
    · rcases turn_ends furnished.toCalm housed link answered there with
        ⟨closed,alive,v,closes,turned⟩ | ⟨e,v,other,discards,turned⟩
      · obtain ⟨k,complete⟩ :=
          complete_of_done calmly made furnished housed link answered closed alive closes turned
        have events : v.events = w.events ∧ v.now = w.now := by rw [closes.same]; exact ⟨rfl,rfl⟩
        refine ⟨some (.created l.model),?_,n,p,k,rfl,made,complete⟩
        rw [turned,← events.1,← events.2]
        rfl
      · have undone := undone_of_dead calmly (n := n) (by rw [turned]; exact discards.dead) registry
        refine ⟨some (.failed e),?_,?_⟩
        · rw [turned,show w.events = v.events from discards.events.symm,
            show w.now = v.now from discards.now.symm]
          rfl
        · cases e with
          | alreadyExists => exact absurd rfl other
          | _ => exact ⟨n,p,rfl,made,undone⟩

/-- While a link is still being created, someone else gets hold of it and does something to it. -/
def meddled (c : Command) : World :=
  ({} : Setting).start.run [.perform 0 (.create "a" 0),.turn 0,.perform 1 (.current (some "b") 0),.perform 2 c,
    .turn 1]

theorem meddled_creation_is_complete_or_undone :
    Reaches Move.Calm ({} : Setting).start (meddled (.setLive "b" false)) ∧
      (∃ l, Complete (meddled (.setLive "b" false)) 0 0 0 "a" 0 l ((meddled (.setLive "b" false)).turn 0)) ∧
      Reaches Move.Calm ({} : Setting).start (meddled (.kill "b")) ∧
      Undone 0 0 ((meddled (.kill "b")).turn 0) := by
  have paused : Reaches Move.Calm ({} : Setting).start (meddled (.setLive "b" false)) :=
    ⟨_,by simp [Move.Calm,Move.Spares],rfl⟩
  have killed : Reaches Move.Calm ({} : Setting).start (meddled (.kill "b")) :=
    ⟨_,by simp [Move.Calm,Move.Spares],rfl⟩
  have said {w v : World} {label : Nat} {r : Report} {said : Option Report} (none : w.events = [])
      (events : v.events = w.events ++ (said.map fun r => ⟨w.now,label,r⟩).toList)
      (told : v.events = [⟨w.now,label,r⟩]) : said = some r := by
    rw [told,none] at events
    cases said with
    | none => cases events
    | some other =>
      cases events
      rfl
  refine ⟨paused,?_,killed,?_⟩
  · obtain ⟨_,events,ended⟩ := creation_is_all_or_nothing {} _ paused 0 0 0 "a" (some (0,0)) rfl
    cases said (r := .created 0) rfl events rfl
    obtain ⟨n,p,l,same,-,complete⟩ := ended
    cases same
    exact ⟨l,complete⟩
  · obtain ⟨_,events,ended⟩ := creation_is_all_or_nothing {} _ killed 0 0 0 "a" (some (0,0)) rfl
    cases said (r := .failed .killed) rfl events rfl
    obtain ⟨n,p,same,-,undone⟩ := ended
    cases same
    exact undone

end EditorLink
