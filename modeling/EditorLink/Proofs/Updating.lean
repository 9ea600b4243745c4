import EditorLink.Proofs.Clearing
import EditorLink.Proofs.Ending
import EditorLink.Proofs.Enrolled

/-! One turn of an update. It goes to sleep for the interval of its link's model, or it calls the model with
the text of that moment, or it fails because its link is dead. Nothing else calls a model. -/
namespace EditorLink
open World EditorLink.Action

/-- How far the job has come with an update of the link. -/
def Job.phase? (n : Nat) : Job → Option UpdatePhase
  | .update m phase => if m = n then some phase else none
  | _ => none

/-- The link and the text of an update that the model has been called to make. -/
def Job.work? : Job → Option (Nat × String)
  | .update n (.running text _) => some (n,text)
  | _ => none

theorem Job.work?_iff {job : Job} {n : Nat} {text : String} :
    job.work? = some (n,text) ↔ ∃ interrupts, job = .update n (.running text interrupts) := by
  constructor
  · intro works
    unfold work? at works
    split at works
    · rename_i interrupts
      cases works
      exact ⟨interrupts,rfl⟩
    · cases works
  · rintro ⟨interrupts,rfl⟩
    rfl

theorem Job.AsStarted.unworked {job : Job} (called : job.AsStarted) : job.work? = none := by
  unfold Job.work?
  split
  · exact called.elim
  · rfl

/-- A task calls a model with a text. -/
structure Call where
  task : Nat
  model : Nat
  time : Nat
  text : String
deriving DecidableEq, Repr

namespace World

/-- The interval of the link's model. -/
def intervalOf (w : World) (n : Nat) : Option Interval := (w.modelOf n).bind fun k => w.intervals[k]?

/-- How far an update of the link has come, unless it was dropped. -/
def phaseOf (w : World) (n id : Nat) : Option UpdatePhase :=
  (w.tasks[id]?.join.filter fun t => !t.aborted).bind fun t => t.job.phase? n

def worksOn (w : World) (id : Nat) : Option (Nat × String) := w.tasks[id]?.join.bind fun t => t.job.work?

/-- The world in which models take their time over every update. -/
def slow (w : World) : World :=
  { w with models := w.models.map fun m => { m with failsUpdate := none, updateMillis := 1 } }

/-- The call that a task makes in a move. A model that fails or is done at once leaves its task with nothing to
do, and so the call is looked for where all models are slow: there the task is left at work. -/
def callBy (w : World) (m : Move) (id : Nat) : Option Call :=
  match w.worksOn id,(w.slow.move m).worksOn id with
  | none,some (n,text) => (w.modelOf n).map fun model => { task := id, model, time := w.now, text }
  | _,_ => none

/-- The calls of models that are made in a move. -/
def calls (w : World) (m : Move) : List Call :=
  (List.range (w.slow.move m).tasks.length).filterMap (w.callBy m)

def callsIn (w : World) : List Move → List Call
  | [] => []
  | m :: rest => w.calls m ++ (w.move m).callsIn rest

variable {v w : World} {id n : Nat} {i : Interval} {phase : UpdatePhase} {m : Move}

theorem intervalOf_iff : w.intervalOf n = some i ↔
    ∃ l k, w.links[n]? = some l ∧ w.models[l.model]? = some k ∧ k.model.interval = i := by
  rw [intervalOf,modelOf]
  rcases w.links[n]? with _ | l
  · simp
  · simp [intervals]

theorem phaseOf_iff : w.phaseOf n id = some phase ↔
    ∃ label, w.tasks[id]? = some (some { label, job := .update n phase }) := by
  simp only [phaseOf,Option.bind_eq_some_iff,Option.filter_eq_some_iff,Option.join_eq_some_iff]
  constructor
  · rintro ⟨⟨label,job,aborted⟩,⟨there,active⟩,same⟩
    obtain rfl : aborted = false := by simpa using active
    cases job with
    | update m reached =>
      obtain ⟨rfl,rfl⟩ : m = n ∧ reached = phase := by simpa [Job.phase?] using same
      exact ⟨label,there⟩
    | _ => cases same
  · rintro ⟨label,there⟩
    exact ⟨_,⟨there,rfl⟩,if_pos rfl⟩

theorem slow_intervalOf (w : World) (n : Nat) : w.slow.intervalOf n = w.intervalOf n := by
  have same : w.slow.intervals = w.intervals := by simp [slow,intervals]
  rw [intervalOf,same]
  rfl

/-- No update of a model is started. -/
abbrev Unbegun (v w : World) : Prop := w.updatesBegun = v.updatesBegun

instance : Frame Unbegun where
  refl _ := rfl
  trans first next := next.trans first

end World

namespace Action

variable {w : World} {id n : Nat} {i : Interval} {phase : UpdatePhase}

/-- What a model makes of a text that it is called with. -/
def hand (id n k : Nat) (m : PlannedModel) (text : String) : Action Next :=
  match m.failsUpdate with
  | some e => fail (.model e)
  | none =>
    if m.updateMillis = 0 then feed k text
    else do
      let time ← now
      modify fun w => w.modifyModel k fun x => x.busyFor time m.updateMillis
      sleep id m.updateMillis
      pure (.pause (.update n (.running text m.model.interrupts)))

theorem exec_model {k : Nat} {m : PlannedModel} (there : w.models[k]? = some m) :
    exec (model k) w = (.ok m,w) := by
  rw [model,exec_bind_ok (exec_get w)]
  simp only [there]
  rfl

theorem exec_alive {l : Link} (there : w.links[n]? = some l) (alive : w.isDead n = false) :
    exec (ensureAlive n) w = (.ok (),w) := by
  have living : l.dead = false := by simpa [isDead,there] using alive
  rw [exec_ensureAlive there,living]
  rfl

theorem exec_startUpdate {l : Link} {m : PlannedModel} (link : w.links[n]? = some l)
    (alive : w.isDead n = false) (there : w.models[l.model]? = some m) (getText : .getText ∉ w.sites)
    (update : .update ∉ w.sites) : exec (startUpdate id n) w =
      exec (hand id n l.model m w.text) (w.note (.updating w.text.utf8ByteSize)) := by
  have link' : (w.note (.updating w.text.utf8ByteSize)).links[n]? = some l := link
  rw [startUpdate,exec_bind_ok (exec_alive link alive),exec_bind_ok (exec_visit getText),
    exec_bind_ok (exec_get w),exec_bind_ok (exec_note _ w),exec_bind_ok (exec_visit (by exact update)),
    exec_bind_ok (exec_link_some link'),exec_bind_ok (exec_model (by exact there))]
  rfl

theorem hand_works (id n k : Nat) (m : PlannedModel) (text : String) :
    Yields (fun next => ∀ job, next = .pause job → job.work? = some (n,text)) (hand id n k m text) := by
  unfold hand
  split
  · exact yields_fail _
  · split
    · exact .bind fun _ => .bind fun _ => .bind fun _ => yields_pure nofun
    · refine .bind fun _ => .bind fun _ => .bind fun _ => yields_pure fun job same => ?_
      cases same
      rfl

theorem hand_slow {m : PlannedModel} (fails : m.failsUpdate = none) (slow : m.updateMillis ≠ 0) (k : Nat)
    (text : String) (w : World) : ∃ v, exec (hand id n k m text) w =
      (.ok (.pause (.update n (.running text m.model.interrupts))),v) := by
  unfold hand
  simp only [fails,if_neg slow]
  exact ⟨_,rfl⟩

theorem feed_unbegun (k : Nat) (text : String) : Keeps Unbegun (feed k text) :=
  feed_keeps (fun _ _ _ _ => rfl) k text

theorem hand_unbegun (id n k : Nat) (m : PlannedModel) (text : String) : Keeps Unbegun (hand id n k m text) := by
  unfold hand
  split
  · exact (reads_fail _).keeps
  · split
    · exact feed_unbegun k text
    · exact reads_now.keeps.bind fun _ => Keeps.bind (keeps_modify fun _ => rfl) fun _ =>
        Keeps.bind (fun w => (sleep_still id _ w).begun) fun _ => (reads_pure _).keeps

/-- Tasks other than updates start none. -/
theorem resume_unbegun (id : Nat) {job : Job} (other : ∀ n phase, job ≠ .update n phase) :
    Keeps Unbegun (resume id job) := by
  have serves (n : Nat) : Serves n Unbegun :=
    serves_of_handling Handling.begun (fun _ _ => rfl)
      (fun id p _ => (await_still id p).mono Still.begun) ((startStop_still n true).mono Still.begun)
      ((uncacheModel_still n).mono Still.begun)
  refine resume_serves id job (fun n phase same => absurd same (other n phase)) (fun n _ => serves n) ?_ ?_
    fun p => (serves 0).await id p trivial
  · intro registry name _
    have registers : Keeps Unbegun (register registry) :=
      register_keeps registry (fun _ => rfl) fun w r _ =>
        (show Still w (w.note (.created r.config.editorId)) from still_note w rfl).begun
    exact resumeCreate_fresh_keeps registry registers serves id name
  · intro p plan deadline _
    exact (resumeStop_still id p plan deadline).mono Still.begun

/-- What an update comes to in one turn. -/
inductive Updates (w : World) (id n : Nat) (i : Interval) : UpdatePhase → Prop
  | killed (phase : UpdatePhase) (early : ∀ text interrupts, phase ≠ .running text interrupts)
      (dead : w.isDead n = true)
      (ran : exec (resumeUpdate id n phase) w = (.error (.error .killed),w)) : Updates w id n i phase
  | sleeps (alive : w.isDead n = false) (waits : i.toMillis ≠ 0)
      (ran : exec (resumeUpdate id n .fresh) w =
        (.ok (.pause (.update n .debouncing)),{ w with schedule := w.schedule.sleep id i.toMillis })) :
      Updates w id n i .fresh
  | calls (phase : UpdatePhase) (alive : w.isDead n = false)
      (due : phase = .debouncing ∨ phase = .fresh ∧ i.toMillis = 0) (k : Nat) (m : PlannedModel)
      (model : w.modelOf n = some k) (there : w.models[k]? = some m)
      (ran : exec (resumeUpdate id n phase) w =
        exec (hand id n k m w.text) (w.note (.updating w.text.utf8ByteSize))) : Updates w id n i phase
  | ends (text : String) (interrupts : Nat)
      (final : ∀ job v, exec (resumeUpdate id n (.running text interrupts)) w ≠ (.ok (.pause job),v))
      (unbegun : Unbegun w (exec (resumeUpdate id n (.running text interrupts)) w).2) :
      Updates w id n i (.running text interrupts)

theorem updates (known : w.intervalOf n = some i) (getText : .getText ∉ w.sites) (update : .update ∉ w.sites)
    (id : Nat) (phase : UpdatePhase) : Updates w id n i phase := by
  obtain ⟨l,m,link,there,rfl⟩ := intervalOf_iff.mp known
  have model : w.modelOf n = some l.model := by simp [World.modelOf,link]
  have started (alive : w.isDead n = false) : exec (startUpdate id n) w = _ :=
    exec_startUpdate link alive there getText update
  cases phase with
  | fresh =>
    cases alive : w.isDead n with
    | true => exact .killed _ (fun _ _ same => by cases same) alive (exec_update_dead alive fun _ _ same => by cases same)
    | false =>
      have begun : exec (resumeUpdate id n .fresh) w = if m.model.interval.toMillis = 0 then exec (startUpdate id n) w
          else (.ok (.pause (.update n .debouncing)),
            { w with schedule := w.schedule.sleep id m.model.interval.toMillis }) := by
        rw [resumeUpdate,exec_bind_ok (exec_alive link alive),exec_bind_ok (exec_link_some link),
          exec_bind_ok (exec_model there)]
        dsimp only
        split <;> rfl
      by_cases instant : m.model.interval.toMillis = 0
      · rw [if_pos instant,started alive] at begun
        exact .calls _ alive (.inr ⟨rfl,instant⟩) l.model m model there begun
      · rw [if_neg instant] at begun
        exact .sleeps alive instant begun
  | debouncing =>
    cases alive : w.isDead n with
    | true => exact .killed _ (fun _ _ same => by cases same) alive (exec_update_dead alive fun _ _ same => by cases same)
    | false => exact .calls _ alive (.inl rfl) l.model m model there (started alive)
  | running text interrupts =>
    have ran : exec (resumeUpdate id n (.running text interrupts)) w =
        exec (if m.model.interrupts = interrupts then feed l.model text else fail (.model .interrupted)) w := by
      rw [resumeUpdate,exec_bind_ok (exec_link_some link),exec_bind_ok (exec_model there)]
    refine .ends text interrupts (fun job v paused => ?_) ?_
    · rw [ran] at paused
      have final : Final (if m.model.interrupts = interrupts then feed l.model text
          else fail (.model .interrupted)) := by
        split
        · exact .bind fun _ => .bind fun _ => .bind fun _ => yields_pure fun _ same => by cases same
        · exact yields_fail _
      exact final _ _ _ paused job rfl
    · rw [ran]
      split
      · exact feed_unbegun l.model text w
      · exact (reads_fail _).keeps w

end Action

/-- Neither the reading of the text nor the update of a model is made to crash. -/
def Move.Smooth (m : Move) : Prop := m.Spares .getText ∧ m.Spares .update

namespace World

variable {w : World} {id n : Nat} {i : Interval} {phase : UpdatePhase} {m : Move} {label : Option Nat}

/-- Updates find what they need: texts and models, and the links that they are for. -/
structure Supplied (w : World) : Prop where
  getText : .getText ∉ w.sites
  update : .update ∉ w.sites
  known : ∀ id n phase, w.phaseOf n id = some phase → ∃ i, w.intervalOf n = some i

theorem supplied_of_reached {s : Setting} (reached : Reaches Move.Smooth s.start w) : w.Supplied := by
  have anywhere : Reaches (fun _ => True) s.start w := reached.mono fun _ _ => trivial
  have spared (site : Site) (fine : ∀ m : Move, m.Smooth → m.Spares site) : site ∉ w.sites := by
    refine (endures_spared site).reaches (fun m internal => internal.spares site) ?_
      (reached.mono fine) nofun
    exact fun w number o spares => change_sites w o fun same => spares number (by rw [same])
  refine ⟨spared _ fun _ => And.left,spared _ fun _ => And.right,fun id n phase reached => ?_⟩
  obtain ⟨label,there⟩ := phaseOf_iff.mp reached
  have link := List.getElem?_eq_getElem (known_of_held anywhere (held_of_task there rfl))
  have model := List.getElem?_eq_getElem (housed_of_reached anywhere n _ link)
  exact ⟨_,intervalOf_iff.mpr ⟨_,_,link,model,rfl⟩⟩

theorem conclude_works {u : Task} (there : w.tasks[id]? = some (some u)) (label : Option Nat)
    (r : Except Fault Next) : (conclude id label (r,w)).worksOn id =
      match r with
      | .ok (.pause job) => job.work?
      | _ => none := by
  have ended (final : ∀ job, r ≠ .ok (.pause job)) : (conclude id label (r,w)).worksOn id = none := by
    have gone := conclude_ended (List.getElem?_eq_some_iff.mp there).1 label final
    rw [worksOn,gone]
    rfl
  rcases r with fault | job | report
  · exact ended nofun
  · rw [worksOn,conclude_paused there]
    rfl
  · exact ended nofun

/-- Only a turn of the task itself can be a call. -/
theorem callBy_other (single : m.Single) (other : m ≠ .turn id) : w.callBy m id = none := by
  unfold callBy
  split
  · rename_i n text idle working
    obtain ⟨t,there,works⟩ := Option.bind_eq_some_iff.mp working
    have stems : w.slow.Stems m id t := move_stems single (Option.join_eq_some_iff.mp there)
    have worked (u : Task) (before : w.tasks[id]? = some (some u)) (same : u.job = t.job) : False := by
      rw [worksOn,before,Option.join_some,Option.bind_some,same,works] at idle
      cases idle
    cases stems with
    | old _ _ _ before => exact (worked t before rfl).elim
    | paused => exact absurd rfl other
    | aborted _ _ u label before labelled => exact (worked u before rfl).elim
    | called _ _ number job called new registered =>
      rw [show Job.work? job = none from called.unworked] at works
      cases works
    | typed => cases works
    | stop => cases works
  · rfl

theorem filterMap_only {α : Type} {f : Nat → Option α} {size id : Nat} (others : ∀ j, j ≠ id → f j = none)
    (outside : size ≤ id → f id = none) : (List.range size).filterMap f = (f id).toList := by
  induction size with
  | zero => simp [outside (Nat.zero_le _)]
  | succ size ih =>
    rw [List.range_succ,List.filterMap_append]
    by_cases here : size = id
    · subst here
      have none : (List.range size).filterMap f = [] := by
        rw [List.filterMap_eq_nil_iff]
        exact fun j member => others j (Nat.ne_of_lt (List.mem_range.mp member))
      rcases found : f size with _ | x <;> simp [none,found]
    · rw [ih fun late => outside (by omega)]
      simp [others size here]

theorem calls_other (single : m.Single) (others : ∀ id, m ≠ .turn id) : w.calls m = [] := by
  rw [calls,List.filterMap_eq_nil_iff]
  exact fun id _ => callBy_other single (others id)

theorem calls_turn (w : World) (id : Nat) : w.calls (.turn id) = (w.callBy (.turn id) id).toList := by
  refine filterMap_only (fun j other => callBy_other nofun fun same => other (by cases same; rfl)) fun late => ?_
  have beyond : (w.slow.move (.turn id)).tasks[id]? = none := List.getElem?_eq_none late
  rw [callBy,worksOn,worksOn,beyond]
  rcases w.tasks[id]?.join.bind fun t => t.job.work? with _ | work <;> rfl

theorem callBy_none (idle : (w.slow.turn id).worksOn id = none) : w.callBy (.turn id) id = none := by
  rw [callBy,show w.slow.move (.turn id) = w.slow.turn id from rfl,idle]
  rcases w.worksOn id with _ | work <;> rfl

/-- A turn of an update. -/
inductive UpdateTurn (w : World) (id n : Nat) (i : Interval) (label : Option Nat) : UpdatePhase → Prop
  | killed (phase : UpdatePhase) (early : ∀ text interrupts, phase ≠ .running text interrupts)
      (dead : w.isDead n = true)
      (ran : exec (resumeUpdate id n phase) (w.taken id) = (.error (.error .killed),w.taken id))
      (ended : (w.turn id).tasks[id]? = some none) (uncalled : w.calls (.turn id) = [])
      (begun : Unbegun w (w.turn id)) : UpdateTurn w id n i label phase
  | sleeps (alive : w.isDead n = false) (waits : i.toMillis ≠ 0)
      (turned : w.turn id = World.setJob
        { w.taken id with schedule := (w.taken id).schedule.sleep id i.toMillis } id (.update n .debouncing))
      (uncalled : w.calls (.turn id) = []) : UpdateTurn w id n i label .fresh
  | calls (phase : UpdatePhase) (alive : w.isDead n = false)
      (due : phase = .debouncing ∨ phase = .fresh ∧ i.toMillis = 0) (k : Nat) (model : w.modelOf n = some k)
      (called : w.calls (.turn id) = [⟨id,k,w.now,w.text⟩])
      (after : (w.turn id).tasks[id]? = some none ∨ ∃ text interrupts, (w.turn id).tasks[id]? =
        some (some { label, job := .update n (.running text interrupts) }))
      (begun : (w.turn id).updatesBegun = w.updatesBegun + 1) : UpdateTurn w id n i label phase
  | ends (text : String) (interrupts : Nat) (ended : (w.turn id).tasks[id]? = some none)
      (uncalled : w.calls (.turn id) = []) (begun : Unbegun w (w.turn id)) :
      UpdateTurn w id n i label (.running text interrupts)

theorem slow_turn (there : w.tasks[id]? = some (some { label, job := .update n phase })) :
    w.slow.turn id = conclude id label (exec (resumeUpdate id n phase) (w.slow.taken id)) :=
  turn_active (w := w.slow) there rfl

theorem works_slow (there : w.tasks[id]? = some (some { label, job := .update n phase })) :
    (w.slow.turn id).worksOn id = match (exec (resumeUpdate id n phase) (w.slow.taken id)).1 with
      | .ok (.pause job) => job.work?
      | _ => none := by
  have added : StopsAdded w.slow (exec (resumeUpdate id n phase) (w.slow.taken id)).2 :=
    resume_tasks id (.update n phase) (w.slow.taken id)
  rw [slow_turn there,← conclude_works (added.task there) label]

theorem turn_update (there : w.tasks[id]? = some (some { label, job := .update n phase })) :
    w.turn id = conclude id label (exec (resumeUpdate id n phase) (w.taken id)) :=
  turn_active there rfl

/-- An update that is due works on the text of that moment, were its model to take its time over it. -/
theorem works_due (supplied : w.Supplied)
    (there : w.tasks[id]? = some (some { label, job := .update n phase })) (known : w.intervalOf n = some i)
    (alive : w.isDead n = false) (due : phase = .debouncing ∨ phase = .fresh ∧ i.toMillis = 0) :
    (w.slow.turn id).worksOn id = some (n,w.text) := by
  have slows : (w.slow.taken id).intervalOf n = some i := (slow_intervalOf w n).trans known
  rw [works_slow there]
  cases updates slows supplied.getText supplied.update id phase with
  | killed _ _ dead => exact absurd (alive.symm.trans dead) nofun
  | sleeps _ waits => exact absurd (due.resolve_left nofun).2 waits
  | calls _ _ _ j x _ found hands =>
    obtain ⟨y,-,rfl⟩ := List.mem_map.mp (List.mem_of_getElem? found)
    have slow : ∃ v, exec (hand id n j { y with failsUpdate := none, updateMillis := 1 } w.text)
        ((w.slow.taken id).note (.updating w.text.utf8ByteSize)) =
        (.ok (.pause (.update n (.running w.text y.model.interrupts))),v) :=
      hand_slow rfl Nat.one_ne_zero j w.text _
    obtain ⟨v,working⟩ := slow
    have hands : exec (resumeUpdate id n phase) (w.slow.taken id) = _ := hands.trans working
    rw [hands]
    rfl
  | ends => rcases due with same | ⟨same,-⟩ <;> cases same

theorem calls_due (supplied : w.Supplied)
    (there : w.tasks[id]? = some (some { label, job := .update n phase })) (known : w.intervalOf n = some i)
    (alive : w.isDead n = false) (due : phase = .debouncing ∨ phase = .fresh ∧ i.toMillis = 0) {k : Nat}
    (model : w.modelOf n = some k) : w.calls (.turn id) = [⟨id,k,w.now,w.text⟩] := by
  have idle : w.worksOn id = none := by
    rw [worksOn,there]
    rcases due with rfl | ⟨rfl,-⟩ <;> rfl
  rw [calls_turn,callBy,idle,show w.slow.move (.turn id) = w.slow.turn id from rfl,
    works_due supplied there known alive due]
  simp [model]

theorem uncalled_of_slow (idle : (w.slow.turn id).worksOn id = none) : w.calls (.turn id) = [] := by
  rw [calls_turn,callBy_none idle]
  rfl

/-- A model that got the text has taken it in, or is at work on it. -/
theorem turn_handed {k : Nat} {x : PlannedModel} {u : World}
    (there : w.tasks[id]? = some (some { label, job := .update n phase }))
    (ran : exec (resumeUpdate id n phase) (w.taken id) = exec (hand id n k x w.text) u) :
    (w.turn id).tasks[id]? = some none ∨ ∃ text interrupts, (w.turn id).tasks[id]? =
      some (some { label, job := .update n (.running text interrupts) }) := by
  have added : StopsAdded w (exec (resumeUpdate id n phase) (w.taken id)).2 :=
    resume_tasks id (.update n phase) (w.taken id)
  rw [turn_update there]
  rcases handed : exec (resumeUpdate id n phase) (w.taken id) with ⟨r,v⟩
  rw [handed] at added
  have kept := added.task there
  by_cases paused : ∃ job, r = .ok (.pause job)
  · obtain ⟨job,rfl⟩ := paused
    have works := hand_works id n k x w.text _ _ v (ran.symm.trans handed) job rfl
    obtain ⟨interrupts,rfl⟩ := Job.work?_iff.mp works
    exact .inr ⟨w.text,interrupts,conclude_paused kept label _⟩
  · exact .inl (conclude_ended (List.getElem?_eq_some_iff.mp kept).1 label fun job same => paused ⟨job,same⟩)

theorem updateTurn (supplied : w.Supplied) (there : w.tasks[id]? = some (some { label, job := .update n phase })) :
    ∃ i, w.intervalOf n = some i ∧ UpdateTurn w id n i label phase := by
  obtain ⟨i,known⟩ := supplied.known id n phase (phaseOf_iff.mpr ⟨label,there⟩)
  have turned := turn_update there
  have works := works_slow there
  refine ⟨i,known,?_⟩
  cases updates (w := w.taken id) known supplied.getText supplied.update id phase with
  | killed _ early dead ran =>
    have gone : (w.slow.taken id).isDead n = true := dead
    rw [exec_update_dead gone early] at works
    rw [ran] at turned
    refine .killed phase early dead ran ?_ (uncalled_of_slow works) ?_
    · rw [turned]
      exact conclude_ended (w := w.taken id) (List.getElem?_eq_some_iff.mp there).1 label nofun
    · rw [turned]
      exact (conclude_sameEntities id label _ _).begun
  | sleeps alive waits ran =>
    have slows : (w.slow.taken id).intervalOf n = some i := (slow_intervalOf w n).trans known
    cases updates slows supplied.getText supplied.update id .fresh with
    | killed _ _ dead => exact absurd (alive.symm.trans dead) nofun
    | sleeps _ _ slept =>
      rw [slept] at works
      rw [ran] at turned
      exact .sleeps alive waits turned (uncalled_of_slow works)
    | calls _ _ due => exact absurd (due.resolve_left nofun).2 waits
  | calls _ alive due k m model there' ran =>
    refine .calls phase alive due k model (calls_due supplied there known alive due model)
      (turn_handed there ran) ?_
    have handed : Unbegun ((w.taken id).note (.updating w.text.utf8ByteSize))
        (exec (resumeUpdate id n phase) (w.taken id)).2 := by
      rw [ran]
      exact hand_unbegun id n k m w.text _
    rw [turned,(conclude_sameEntities id label _ _).begun,handed]
    simp [updatesBegun,World.note,World.taken,Notice.isUpdating]
  | ends text interrupts final unbegun =>
    have working : w.worksOn id = some (n,text) := by
      rw [worksOn,there]
      rfl
    refine .ends text interrupts ?_ ?_ ?_
    · have added : StopsAdded w (exec (resumeUpdate id n (.running text interrupts)) (w.taken id)).2 :=
        resume_tasks id (.update n (.running text interrupts)) (w.taken id)
      rcases finished : exec (resumeUpdate id n (.running text interrupts)) (w.taken id) with ⟨r,v⟩
      rw [finished] at added turned
      rw [turned]
      refine conclude_ended (List.getElem?_eq_some_iff.mp (added.task there)).1 label fun job same => ?_
      exact final job v (finished.trans (by rw [same]))
    · rw [calls_turn,callBy,working]
      rfl
    · rw [turned]
      exact (conclude_sameEntities id label _ _).begun.trans unbegun

theorem uncalled_of_idle (idle : ∀ n, w.phaseOf n id = none) : w.calls (.turn id) = [] := by
  refine uncalled_of_slow ?_
  rcases works : (w.slow.turn id).worksOn id with _ | ⟨n,text⟩
  · rfl
  · obtain ⟨t,there,same⟩ := Option.bind_eq_some_iff.mp works
    obtain ⟨interrupts,running⟩ := Job.work?_iff.mp same
    obtain ⟨u,v,before,active,-,ran,-⟩ := turn_here (Option.join_eq_some_iff.mp there)
    have follows := resume_yieldsNext id u.job (w.slow.taken id) _ v ran
    rw [running] at follows
    obtain ⟨label,job,aborted⟩ := u
    obtain rfl : aborted = false := active
    generalize made : Job.update n (.running text interrupts) = next at follows
    cases follows with
    | update m phase =>
      cases made
      have known : w.phaseOf n id = some phase := phaseOf_iff.mpr ⟨label,before⟩
      rw [idle n] at known
      cases known
    | _ => cases made

theorem unbegun_of_idle (idle : ∀ n, w.phaseOf n id = none) : Unbegun w (w.turn id) := by
  refine turn_keeps SameEntities.begun w id fun task there active => resume_unbegun id (fun n phase same => ?_) _
  obtain ⟨label,job,aborted⟩ := task
  obtain rfl : aborted = false := active
  obtain rfl : job = _ := same
  have known := phaseOf_iff.mpr ⟨label,there⟩
  rw [idle n] at known
  cases known

/-- Updates of models are started by calls alone. -/
theorem move_begun (supplied : w.Supplied) (single : m.Single) :
    (w.move m).updatesBegun = w.updatesBegun + (w.calls m).length := by
  cases m with
  | perform number c =>
    rw [calls_other single fun _ same => by cases same]
    exact perform_keeps (R := Unbegun) (fun noMore => noMore.begun) Still.begun w number c
      (fun ms same => single number ms (by rw [same])) (fun o _ => (change_around w o).begun)
      (fun _ on _ _ _ => (setLive_handling on w).begun) fun _ _ _ _ => (kill_handling w).begun
  | turn id =>
    by_cases updating : ∃ n phase, w.phaseOf n id = some phase
    · obtain ⟨n,phase,known⟩ := updating
      obtain ⟨label,there⟩ := phaseOf_iff.mp known
      obtain ⟨i,-,turn⟩ := updateTurn supplied there
      cases turn with
      | killed _ _ _ _ _ uncalled begun => rw [uncalled]; exact begun
      | sleeps _ _ turned uncalled => rw [uncalled,move,turned]; rfl
      | calls _ _ _ _ _ called _ begun => rw [called]; exact begun
      | ends _ _ _ uncalled begun => rw [uncalled]; exact begun
    · have idle (n : Nat) : w.phaseOf n id = none := by
        rcases known : w.phaseOf n id with _ | phase
        · rfl
        · exact absurd ⟨n,phase,known⟩ updating
      rw [uncalled_of_idle idle]
      exact unbegun_of_idle idle
  | arrive now =>
    rw [calls_other single fun _ same => by cases same]
    rfl

/-- The interval of a link is set once and for all. -/
theorem endures_intervalOf (n : Nat) (i : Interval) :
    Endures fun v w => v.intervalOf n = some i → w.intervalOf n = some i := by
  have kept {v w : World} (model : w.modelOf n = v.modelOf n) (intervals : w.intervals = v.intervals)
      (known : v.intervalOf n = some i) : w.intervalOf n = some i := by
    rw [intervalOf,model,intervals]
    exact known
  refine ⟨inferInstance,fun entities => ?_,fun quiet => ?_,fun {k sets v w} handling => ?_,fun w registry r _ => ?_,
    fun _ _ => id⟩
  · exact kept (by rw [World.modelOf,entities.links]; rfl) (by rw [intervals,entities.models]; rfl)
  · refine kept ?_ quiet.intervals
    have same := congrArg (fun links => links[n]?.map Link.model) quiet.links
    simpa [World.modelOf,Option.map_map,Function.comp_def,Link.core] using same
  · intro known
    obtain ⟨l,m,link,model,same⟩ := intervalOf_iff.mp known
    obtain ⟨j,found,-,handled⟩ := handling.links n l link
    refine intervalOf_iff.mpr ⟨j,m,found,?_,same⟩
    rw [handled.model,handling.same]
    exact model
  · intro known
    obtain ⟨l,m,link,model,same⟩ := intervalOf_iff.mp known
    exact intervalOf_iff.mpr ⟨l,m,getElem?_append_some link _,getElem?_append_some model _,same⟩

theorem intervalOf_of_reaches {v : World} {allowed : Move → Prop} (reached : Reaches allowed v w)
    (known : v.intervalOf n = some i) : w.intervalOf n = some i := by
  have anywhere : Reaches (fun _ => True) v w := reached.mono fun _ _ => trivial
  refine (endures_intervalOf n i).reaches (fun _ _ => trivial) (fun w _ o _ known => ?_) anywhere known
  have around := change_around w o
  rw [intervalOf,World.modelOf,around.links,around.intervals]
  exact known

end World
end EditorLink
