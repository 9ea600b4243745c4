import EditorLink.Proofs.Overlap
import EditorLink.Proofs.Punctual
import EditorLink.Proofs.Window
import EditorLink.Proofs.Wired

/-! The last of overlapping calls for clearing a cache: nobody supersedes its attempt, and so it clears the
cache once the model is idle, and leaves the hook as the mode of the link wants it. -/
namespace EditorLink
open World EditorLink.Action

theorem Move.Tranquil.sturdy {m : Move} (tranquil : m.Tranquil) : m.Sturdy :=
  ⟨tranquil.1.calm .interrupt,tranquil.1.calm .isActive⟩

namespace World

variable {v w : World} {m : Move} {moves : List Move} {c : CacheCall} {id n p start time : Nat} {plan : StopPlan}
  {task : Task}

/-! ### The hook -/

/-- A teardown of a mended link leaves it mended, unless it begins. -/
theorem turn_mended (alone : Alone n w) (orderly : w.Orderly) (there : w.tasks[id]? = some (some task))
    (active : task.aborted = false) (settled : Settled task.job) (teardown : task.job.teardown? = some n)
    (stop : w.stopOf n = some p) (same : (w.turn id).stopOf n = some p) (mended : w.Mended n) :
    (w.turn id).Mended n := by
  rcases turn_tears alone.toStaged alone.known there active settled teardown with ⟨t,paused,tears,-⟩ | ⟨-,done⟩
  · obtain ⟨q,awaits⟩ := Job.tears_iff.mp tears
    obtain ⟨u,x,found,-,-,ran,turned⟩ := turn_here paused
    rcases resume_paused ran awaits with ⟨-,waits⟩ | ⟨y,z,begins,-⟩
    · have apart : KeepsHook n w (w.turn id) := by
        rw [turned]
        exact Frame.trans (keepsHook_sameEntities (sameEntities_taken w id))
          (Frame.trans (keepsHook_quiet (waits_quiet waits))
            (keepsHook_sameEntities (conclude_sameEntities id _ _ x)))
      exact mended.keepsHook apart
    · -- it would begin with another attempt
      rcases awaits_before (m := .turn id) (Move.Internal.single trivial) paused awaits with
        ⟨k,before,-,job⟩ | ⟨-,fresh,after⟩
      · rw [before] at found
        cases found
        have waitless : u.job.awaits? = none := by
          rcases begins with ⟨same,-⟩ | ⟨_,_,_,same,-⟩ <;> rw [same] <;> rfl
        rw [job,awaits] at waitless
        cases waitless
      · have launches := turn_launches fresh after awaits
        have number := launches.number
        have known := orderly.slot n p stop
        rw [launches.stop] at same
        cases same
        omega
  · exact done

/-- A mended link stays mended, as long as it is up and nobody starts another stop attempt. -/
theorem mended_move (alone : Alone n w) (orderly : w.Orderly) (single : m.Single) (up : (w.move m).Up n)
    (stop : w.stopOf n = some p) (same : (w.move m).stopOf n = some p) (mended : w.Mended n) :
    (w.move m).Mended n := by
  cases m with
  | perform number c =>
    by_cases switched : w.Mends n (.perform number c)
    · exact perform_mends alone switched
    · exact mended.keepsHook (perform_keepsHookAndJobs alone (fun ms same => single number ms (by rw [same]))
        switched up).toKeepsHook
  | arrive now => exact mended.keepsHook (keepsHook_sameEntities { SameEntities.refl w with })
  | turn id =>
    rcases turn_cases w id with ⟨-,idle⟩ | ⟨t,there,⟨aborted,-⟩ | active⟩
    · rw [move,idle]
      exact mended.keepsHook (keepsHook_sameEntities (sameEntities_taken w id))
    · exact mended.keepsHook (aborted_keepsHook there aborted)
    · by_cases settled : Settled t.job
      · by_cases teardown : t.job.teardown? = some n
        · exact turn_mended alone orderly there active settled teardown stop same mended
        · exact mended.keepsHook (settled_keepsHook alone there active settled teardown)
      · obtain ⟨-,e,turned⟩ := refused_turn alone there active settled
        exact mended.keepsHook (refused_keepsHook turned)

/-! ### The attempt -/

/-- How far an attempt has come that began at `start`: it is about to have its first turn, or it has made
checks, none of which found the model active from `time` on. -/
inductive Progress (w : World) (id p : Nat) (plan : StopPlan) (start time : Nat) : Prop
  | fresh (pursues : w.Pursues id p plan none) (ready : id ∈ w.schedule.ready) (now : w.now = start)
  | begun (done : List (Nat × Bool)) (some : done ≠ []) (pursuit : Pursuit w id p plan start done)
      (idle : ∀ c ∈ done, c.2 = true → c.1 < time)

theorem progress_move {s : Setting} (reached : Reaches Move.Sturdy s.start w) (ripe : w.Ripe m)
    (kept : (w.move m).isCancelled p = false) (idle : time ≤ w.now → w.modelActive plan.model = false)
    (progress : Progress w id p plan start time) : Progress (w.move m) id p plan start time := by
  have anyhow := reached.anyhow
  have lossless := losesNoAttempt_of_reached reached
  have found (c : Nat × Bool) (member : c ∈ w.checkIn id plan.model m) (active : c.2 = true) : c.1 < time := by
    rw [mem_checkIn member] at active ⊢
    refine Nat.lt_of_not_le fun late => ?_
    rw [idle late] at active
    cases active
  cases progress with
  | fresh pursues ready now =>
    by_cases own : m = .turn id
    · subst own
      have uncancelled := (move_goes w ripe.single lossless.orderly).2.uncancelled kept
      rw [← now]
      refine .begun _ ?_ (first_pursuit reached pursues uncancelled) found
      simp [checkIn_turn (asks_of_pursues pursues uncancelled)]
    · have still (next : Nat) : m ≠ .arrive next := by
        rintro rfl
        rw [ripe.1] at ready
        cases ready
      exact .fresh (move_pursues ripe.single pursues own) (move_stays_ready ripe.single own ready)
        ((move_now ripe.single still).trans now)
  | begun done some pursuit early =>
    refine .begun _ (by simp [some]) (move_pursuit lossless (enrolled_of_reached anyhow) ripe kept pursuit) ?_
    intro c member
    exact (List.mem_append.mp member).elim (early c) (found c)

theorem settledOk_of_settled (uncancelled : w.isCancelled p = false) (verdict : w.verdictOf p = some (.ok ())) :
    w.SettledOk p := by
  obtain ⟨x,there,value⟩ := Option.bind_eq_some_iff.mp verdict
  have kept : x.cancelled = false := by simpa [isCancelled,there] using uncancelled
  simp [SettledOk,there,Promise.answer?,kept,value]

theorem unanswered_of_verdict (lossless : w.LosesNoAttempt) (uncancelled : w.isCancelled p = false)
    (verdict : w.verdictOf p = none) : w.promises[p]?.bind Promise.answer? = none := by
  rcases there : w.promises[p]? with _ | x
  · rfl
  · have kept : x.cancelled = false := by simpa [isCancelled,there] using uncancelled
    have value : x.value = none := by simpa [verdictOf,there] using verdict
    have outcome : w.outcomes[p]? = some x.core := by simp [World.outcomes,there]
    have pending : x.pending = true := by
      refine Bool.not_eq_false _ ▸ fun ended => ?_
      rcases lossless.settled p x.core outcome ended with known | gone
      · exact known value
      · cases kept.symm.trans gone
    exact Promise.unanswered_iff.mpr ⟨kept,value,pending⟩

/-- An attempt that is not cancelled finds the model stopped, or else it still has time. -/
theorem Progress.answer (progress : Progress w id p plan start time) (lossless : w.LosesNoAttempt)
    (positive : 0 < plan.pause)
    (early : time ≤ start + plan.timeout) (uncancelled : w.isCancelled p = false) :
    w.SettledOk p ∨ w.promises[p]?.bind Promise.answer? = none ∧ w.now ≤ start + plan.timeout := by
  cases progress with
  | fresh pursues ready now =>
    obtain ⟨x,there,pending⟩ := lossless.orderly.pursued id p plan none pursues
    have value := (lossless.orderly.pending p x there pending).1
    have verdict : w.verdictOf p = none := (verdictOf_eq there).trans value
    exact .inr ⟨unanswered_of_verdict lossless uncancelled verdict,by omega⟩
  | begun done some pursuit idle =>
    have punctual := pursuit.onSchedule lossless.orderly positive some
    rcases punctual.idle some early idle with ⟨verdict,-⟩ | ⟨verdict,now,-⟩
    · exact .inl (settledOk_of_settled uncancelled verdict)
    · exact .inr ⟨unanswered_of_verdict lossless uncancelled verdict,now⟩

/-! ### The call -/

/-- The model does not refuse to clear its cache. -/
def Obliges (w : World) (k : Nat) : Prop := ∀ m, w.models[k]? = some m → m.model.failsUncache = false

instance (w : World) (k : Nat) : Decidable (w.Obliges k) :=
  decidable_of_iff (w.models[k]?.all fun m => !m.model.failsUncache) (by
    rw [Obliges]
    rcases w.models[k]? with _ | m <;> simp)

/-- What a call leaves that clears the cache. -/
structure Clearing (w : World) (n : Nat) (c : CacheCall) (v : World) : Prop where
  ended : v.tasks[c.task]? = some none
  events : v.events = w.events ++ [⟨w.now,c.label,.done⟩]
  cleared : v.uncachesOf n = w.uncachesOf n + 1
  mended : v.Mended n

variable {s : Setting}

theorem turn_clearing (staged : w.Staged) (reached : Reaches Move.Serene s.start w) (calling : w.Calling c n (some p))
    (stopped : w.SettledOk p) (obliging : w.Obliges n) : w.Clearing n c (w.turn c.task) := by
  have housed := housed_of_reached reached.anyhow
  obtain ⟨l,link,returning⟩ := returning_of_reached reached calling stopped
  have model : l.model = n := (paired_of_reached reached.anyhow).2 n l link
  have fine (reason : String) : ¬ w.Fails l (.ok ()) reason := by
    rintro (⟨e,same,-⟩ | ⟨-,m,e,there,refused,-⟩)
    · cases same
    · rw [model] at there
      simp [Model.uncache,obliging m there] at refused
  have clear : w.obstacle l (.ok ()) = none :=
    Option.eq_none_iff_forall_ne_some.mpr fun reason same => fine reason (obstacle_iff.mp same)
  obtain ⟨v,turned,closes⟩ := turn_closes staged.toCalm housed link stopped calling
  have seen : w.seen l = some 0 := staged.seen link
  obtain ⟨r,said,result⟩ := returning.result
  have done : r = .done := by
    refine result.done.mpr ⟨fine,?_⟩
    rintro ⟨-,-,nowhere⟩
    rw [seen] at nowhere
    cases nowhere
  refine ⟨returning.finished,by rw [said,done],?_,?_⟩
  · have counted := closes.uncaches housed link n
    rw [turned,report_result]
    refine counted.trans ?_
    rw [if_pos ⟨clear,model.symm⟩]
    rfl
  · have known := (List.getElem?_eq_some_iff.mp link).1
    rcases turn_tears staged known calling rfl trivial rfl with ⟨t,paused,-⟩ | ⟨-,mended⟩
    · rw [returning.finished] at paused
      cases paused
    · exact mended

theorem known_of_stop (stop : w.stopOf n = some p) : n < w.links.length := by
  obtain ⟨l,link,-⟩ := Option.bind_eq_some_iff.mp stop
  exact (List.getElem?_eq_some_iff.mp link).1

/-- After the last call has returned nobody clears the cache, and the link stays mended. -/
theorem ended_run {config : Config} (onStage : s.OnStage config) (reached : Reaches Move.Tranquil s.start w)
    (tranquil : ∀ m ∈ moves, m.Tranquil) (paced : w.Paced moves)
    (force : w.Throughout moves fun v => v.InForce n p) (sole : w.Solely id p) (ended : w.tasks[id]? = some none)
    (mended : w.Up n → w.Mended n) :
    Uncleared n w (w.run moves) ∧ ((w.run moves).Up n → (w.run moves).Mended n) := by
  induction moves generalizing w with
  | nil => exact ⟨Frame.refl w,mended⟩
  | cons m rest ih =>
    have anyhow := reached.anyhow
    have single := paced.1.single
    have step : Reaches Move.Tranquil w (w.move m) := reaches_move w m (tranquil m List.mem_cons_self)
    have still : Uncleared n w (w.move m) := by
      refine Classical.byContradiction fun changed => ?_
      obtain ⟨-,-,t,there,-⟩ := clears_by anyhow single force.here sole changed
      rw [ended] at there
      cases there
    have later := later_of_reached reached.serenely step.serenely
    have kept (up : (w.move m).Up n) : (w.move m).Mended n := by
      have before := later.up (known_of_stop force.here.1) up
      exact mended_move (alone_of_up onStage reached.steadily before)
        (orderly_of_reached anyhow) single up force.here.1 force.next.here.1 (mended before)
    have others (k : Move) (member : k ∈ rest) : k.Tranquil := tranquil k (List.mem_cons_of_mem m member)
    obtain ⟨afterwards,repaired⟩ := ih (Frame.trans reached step) others paced.2 force.next
      (solely_next anyhow single force.here sole) (move_ended single ended) kept
    exact ⟨Frame.trans still afterwards,repaired⟩

/-- What is so of the last call while it waits, with what is to come. -/
structure Lasting (s : Setting) (w : World) (moves : List Move) (c : CacheCall) (n id p : Nat) (plan : StopPlan)
    (start time : Nat) : Prop where
  reached : Reaches Move.Tranquil s.start w
  tranquil : ∀ m ∈ moves, m.Tranquil
  paced : w.Paced moves
  undropped : w.Throughout moves fun v => v.Undropped c.task
  force : w.Throughout moves fun v => v.InForce n p
  obliging : w.Throughout moves fun v => v.Obliges n
  idle : w.Throughout moves fun v => time ≤ v.now → v.modelActive plan.model = false
  calling : w.Calling c n (some p)
  sole : w.Solely c.task p
  progress : Progress w id p plan start time
  now : w.now ≤ start + plan.timeout

theorem Lasting.sturdy (lasting : Lasting s w moves c n id p plan start time) : Reaches Move.Sturdy s.start w :=
  lasting.reached.mono fun _ tranquil => tranquil.sturdy

theorem Lasting.move (lasting : Lasting s w (m :: moves) c n id p plan start time) (positive : 0 < plan.pause)
    (early : time ≤ start + plan.timeout) (waits : (w.move m).Calling c n (some p)) :
    Lasting s (w.move m) moves c n id p plan start time := by
  have anyhow := lasting.reached.anyhow
  have ripe := lasting.paced.1
  have fine := lasting.tranquil m List.mem_cons_self
  have step : Reaches Move.Tranquil w (w.move m) := reaches_move w m fine
  have sturdy : Reaches Move.Sturdy w (w.move m) := reaches_move w m fine.sturdy
  have uncancelled := lasting.force.next.here.2
  have progress := progress_move lasting.sturdy ripe uncancelled lasting.idle.here lasting.progress
  refine ⟨Frame.trans lasting.reached step,fun k member => lasting.tranquil k (List.mem_cons_of_mem m member),
    lasting.paced.2,lasting.undropped.next,lasting.force.next,lasting.obliging.next,lasting.idle.next,waits,
    solely_next anyhow ripe.single lasting.force.here lasting.sole,progress,?_⟩
  rcases progress.answer (losesNoAttempt_of_reached (Frame.trans lasting.sturdy sturdy))
    positive early uncancelled with
    stopped | ⟨-,now⟩
  · -- time goes by only where nobody has an answer to take, and brings none
    refine Nat.le_trans (Nat.le_of_eq ?_) lasting.now
    by_cases arrival : ∃ now, m = .arrive now
    · obtain ⟨now,rfl⟩ := arrival
      have answered : w.promises[p]?.bind Promise.answer? = some (some (.ok ())) := stopped
      exact now_of_answered (alert_of_reached anyhow) lasting.calling (by simp [answered]) ripe
    · exact move_now ripe.single fun now same => arrival ⟨now,same⟩
  · exact now

/-- The last call clears the cache once, or it still waits and has time left. -/
theorem last_run {config : Config} (onStage : s.OnStage config)
    (lasting : Lasting s w moves c n id p plan start time) (positive : 0 < plan.pause)
    (early : time ≤ start + plan.timeout) :
    (w.Returns moves c n .done ∧ (w.run moves).uncachesOf n = w.uncachesOf n + 1 ∧
        ((w.run moves).Up n → (w.run moves).Mended n)) ∨
      (w.run moves).Calling c n (some p) ∧ (w.run moves).now ≤ start + plan.timeout ∧
        Uncleared n w (w.run moves) := by
  induction moves generalizing w with
  | nil => exact .inr ⟨lasting.calling,lasting.now,Frame.refl w⟩
  | cons m rest ih =>
    have anyhow := lasting.reached.anyhow
    have single := lasting.paced.1.single
    have force := lasting.force.here
    rcases waiting_move anyhow single lasting.undropped.next.here force lasting.sole lasting.calling with
      ⟨waits,kept⟩ | ⟨rfl,answer,answered⟩
    · rcases ih (lasting.move positive early waits) with ⟨returns,cleared,mended⟩ | ⟨still,now,uncleared⟩
      · refine .inl ⟨returns.next,cleared.trans ?_,mended⟩
        rw [show (w.move m).uncachesOf n = w.uncachesOf n from kept]
      · exact .inr ⟨still,now,Frame.trans kept uncleared⟩
    · refine .inl ?_
      have staged := staged_of_reached lasting.reached.steadily (start_staged onStage)
      have step : Reaches Move.Tranquil w (w.turn c.task) :=
        reaches_move w (.turn c.task) (lasting.tranquil _ List.mem_cons_self)
      have stopped : w.SettledOk p := by
        rcases lasting.progress.answer (losesNoAttempt_of_reached lasting.sturdy) positive early force.2 with
          stopped | ⟨unanswered,-⟩
        · exact stopped
        · rw [answered] at unanswered
          cases unanswered
      have clearing := turn_clearing staged lasting.reached.serenely lasting.calling
        stopped lasting.obliging.here
      obtain ⟨uncleared,mended⟩ := ended_run onStage (Frame.trans lasting.reached step)
        (fun k member => lasting.tranquil k (List.mem_cons_of_mem _ member)) lasting.paced.2 lasting.force.next
        (solely_next anyhow single force lasting.sole) clearing.ended fun _ => clearing.mended
      refine ⟨⟨[],rest,p,rfl,lasting.calling,clearing.ended,clearing.events⟩,?_,mended⟩
      exact Eq.trans uncleared clearing.cleared

/-- From its first turn on the last call waits for an attempt of its own. -/
theorem last_call {config : Config} (onStage : s.OnStage config) (made : s.world = .ok s.start)
    (reached : Reaches Move.Tranquil s.start w) (tranquil : ∀ m ∈ c.moves, m.Tranquil) (paced : w.Paced c.moves)
    (prevails : w.Prevails n c) (alive : w.isDead n = false)
    (undropped : w.Throughout c.moves fun v => v.Undropped c.task)
    (obliging : w.Throughout c.moves fun v => v.Obliges n)
    (idle : w.Throughout c.moves fun v => time ≤ v.now → v.modelActive n = false)
    (planned : w.planOf n = some plan) (early : time ≤ w.now + plan.timeout) :
    (w.Returns c.moves c n .done ∧ (w.run c.moves).uncachesOf n = w.uncachesOf n + 1 ∧
        ((w.run c.moves).Up n → (w.run c.moves).Mended n)) ∨
      (w.run c.moves).Calling c n (some w.promises.length) ∧ (w.run c.moves).now ≤ w.now + plan.timeout ∧
        Uncleared n w (w.run c.moves) := by
  have serenely := reached.serenely
  have anyhow := reached.anyhow
  have single : Move.Single (.turn c.task) := Move.Internal.single trivial
  have there : Reaches Move.Tranquil s.start (w.turn c.task) :=
    Frame.trans reached (reaches_move w (.turn c.task) (Move.Internal.tranquil trivial))
  have sturdy : Reaches Move.Sturdy s.start (w.turn c.task) := there.mono fun _ tranquil => tranquil.sturdy
  have enters := entering_of_calling serenely alive prevails.calling
  have force := prevails.inForce.here
  have spawns : Spawns (w.turn c.task) w.promises.length := by
    refine turn_spawns ?_ enters.waits rfl
    exact prevails.calling
  obtain ⟨id,other,pursues,ready⟩ := spawns
  have same : other = plan := by
    have kept := (move_goes w single (orderly_of_reached anyhow)).2.plans n plan planned
    have own := (losesNoAttempt_of_reached sturdy).orderly.owner n _ id other none force.1 pursues
    exact Option.some.inj (own.symm.trans kept)
  subst same
  have model : other.model = n := by
    obtain ⟨l,link,rfl⟩ := Option.map_eq_some_iff.mp planned
    exact (paired_of_reached anyhow).2 n l link
  have now : (w.turn c.task).now = w.now :=
    move_now (m := .turn c.task) single fun now same => by cases same
  have lasting : Lasting s (w.turn c.task) c.after c n id w.promises.length other w.now time :=
    { reached := there
      tranquil := fun m member => tranquil m (List.mem_cons_of_mem _ member)
      paced := paced.2
      undropped := undropped.next
      force := prevails.inForce
      obliging := obliging.next
      idle := model.symm ▸ idle.next
      calling := enters.waits
      sole := enters.sole
      progress := .fresh pursues ready now
      now := by rw [now]; exact Nat.le_add_right _ _ }
  obtain ⟨-,poll,-⟩ := plan_of_fresh made sturdy pursues force.2
  have positive : 0 < other.pause := Nat.lt_min.mpr ⟨poll,by decide⟩
  have before : (w.turn c.task).uncachesOf n = w.uncachesOf n := enters.uncleared
  rcases last_run onStage lasting positive early with ⟨returns,cleared,mended⟩ | ⟨waits,inTime,uncleared⟩
  · refine .inl ⟨Returns.next ?_,cleared.trans (by rw [before]),mended⟩
    exact returns
  · exact .inr ⟨waits,inTime,Frame.trans enters.uncleared uncleared⟩

/-- Calls for clearing the cache of a link that overlap from here on. Nobody drops a call or kills the link,
and from the beginning of the last call on the model does not refuse to clear its cache. It is idle from `time`
on, which is within the timeout of that call. -/
structure Contest (v : World) (n : Nat) (l : Link) (earlier : List CacheCall) (last : CacheCall) (time : Nat) :
    Prop where
  link : v.links[n]? = some l
  overlapping : Overlapping n last v earlier
  undropped : ∀ c ∈ earlier ++ [last], v.Throughout (movesOf (earlier ++ [last])) fun w => w.Undropped c.task
  alive : (v.run (movesOf (earlier ++ [last]))).isDead n = false
  obliging : (v.run (movesOf earlier)).Throughout last.moves fun w => w.Obliges l.model
  soon : time ≤ (v.run (movesOf earlier)).now + l.config.stopTimeout.toNat
  idle : (v.run (movesOf earlier)).Throughout last.moves fun w => time ≤ w.now → w.modelActive l.model = false

theorem hook_of_mended {config : Config} (onStage : s.OnStage config) (reached : Reaches Move.Tranquil s.start w)
    (alive : w.isDead n = false) (mended : w.Up n → w.Mended n) (held : w.held n = true) {l : Link}
    (link : w.links[n]? = some l) : l.live = true ↔ w.Hooked n := by
  have staged := staged_of_reached reached.steadily (start_staged onStage)
  refine ⟨fun live => ?_,live_of_hooked staged link⟩
  rcases mended ⟨held,alive⟩ l link with dead | off | hooked
  · rw [isDead_iff.mpr ⟨l,link,dead⟩] at alive
    cases alive
  · rw [live] at off
    cases off
  · exact hooked

end World

/-- Of overlapping calls only the last one clears the cache. There is one registry whose editor stays, nobody
crashes, and time goes by as it does for tasks, of which any that is ready may be the next one to get its turn.
However many calls for clearing the cache of one living link begin, each while the one before still waits for
its stop attempt, and nobody else starts or cancels such attempts: every call but the last says that its attempt
was superseded, for which it is ready, and does so before the clock moves on from where the last call began. If
the model is idle from some time within the timeout of the last call on, that call is done before the clock
moves on from the end of the timeout. The model clears its cache
once, with the return of that call, and from then on the widget has the hook of the link, while anyone holds
the link, exactly if the link is in live mode. -/
theorem only_the_last_call_clears (s : Setting) (config : Config) (onStage : s.OnStage config)
    (made : s.world = .ok s.start) (v : World) (reached : Reaches Move.Tranquil s.start v) (n : Nat) (l : Link)
    (earlier : List CacheCall) (last : CacheCall) (time : Nat) (contest : v.Contest n l earlier last time)
    (tranquil : ∀ m ∈ movesOf (earlier ++ [last]), m.Tranquil) (paced : v.Paced (movesOf (earlier ++ [last]))) :
    let moves := movesOf (earlier ++ [last])
    let u := v.run (movesOf earlier)
    let w := v.run moves
    (∀ c ∈ earlier, v.Returns moves c n (.failed (.uncache LinkError.superseded.message)) ∨
      (∃ p, w.Calling c n (some p)) ∧ c.task ∈ w.schedule.ready ∧ w.now ≤ u.now) ∧
    ((v.Returns moves last n .done ∧ w.uncachesOf l.model = v.uncachesOf l.model + 1 ∧
        (w.held n = true → ∀ k, w.links[n]? = some k → (k.live = true ↔ w.Hooked n))) ∨
      (∃ p, w.Calling last n (some p)) ∧ w.now ≤ u.now + l.config.stopTimeout.toNat ∧
        w.uncachesOf l.model = v.uncachesOf l.model) := by
  intro moves u w
  have before (m : Move) (member : m ∈ movesOf earlier) : m.Tranquil :=
    tranquil m (by rw [movesOf_concat]; exact List.mem_append_left _ member)
  have since (m : Move) (member : m ∈ last.moves) : m.Tranquil :=
    tranquil m (by rw [movesOf_concat]; exact List.mem_append_right _ member)
  have serenely := reached.serenely
  have anyhow := reached.anyhow
  have here : Reaches Move.Tranquil s.start u := Frame.trans reached (reaches_run v before)
  have there : Reaches Move.Tranquil s.start w := Frame.trans reached (reaches_run v tranquil)
  have rejoined : w = u.run last.moves := by
    rw [show w = v.run (movesOf (earlier ++ [last])) from rfl,movesOf_concat,run_append]
  have paces := (paced_append v (movesOf earlier) last.moves).mp (movesOf_concat earlier last ▸ paced)
  have model : l.model = n := (paired_of_reached anyhow).2 n l contest.link
  have alive : u.isDead n = false := by
    refine alive_before here.serenely (reaches_run u fun m member => (since m member).2) ?_
    rw [← rejoined]
    exact contest.alive
  have planned : u.planOf n = some l.plan := by
    have made : v.planOf n = some l.plan := by rw [planOf,contest.link]; rfl
    have onward := reaches_goes (fun _ _ => trivial) (reaches_run v fun _ _ => trivial : Reaches (fun _ => True) v u)
      (orderly_of_reached anyhow)
    exact onward.2.plans n l.plan made
  have undropped (c : CacheCall) (member : c ∈ earlier ++ [last]) :
      v.Throughout (movesOf earlier ++ last.moves) fun w => w.Undropped c.task :=
    movesOf_concat earlier last ▸ contest.undropped c member
  have uncleared : u.uncachesOf n = v.uncachesOf n := by
    refine earlier_uncleared serenely (fun m member => (before m member).2) paces.1 alive contest.overlapping
      fun c member => ?_
    exact Throughout.before (undropped c (List.mem_append_left _ member))
  refine ⟨fun c member => earlier_superseded serenely (fun m member => (tranquil m member).2) paced contest.alive
    contest.overlapping (contest.undropped c (List.mem_append_left _ member)) member,?_⟩
  have own := Throughout.after (undropped last (by simp))
  rw [model,rejoined]
  rcases last_call onStage made here since paces.2 contest.overlapping.last alive own (model ▸ contest.obliging)
    (model ▸ contest.idle) planned contest.soon with ⟨returns,cleared,mended⟩ | ⟨waits,now,still⟩
  · refine .inl ⟨?_,by rw [cleared,uncleared],fun held k link => ?_⟩
    · rw [show moves = movesOf earlier ++ last.moves from movesOf_concat earlier last]
      exact returns.later
    · exact hook_of_mended onStage (rejoined ▸ there) (rejoined ▸ contest.alive) mended held link
  · exact .inr ⟨⟨_,waits⟩,now,Eq.trans still uncleared⟩

/-- Three calls are about to begin. -/
def contested : World :=
  ({} : Setting).start.run [.perform 0 (.create "a" 0),.turn 0,.turn 1,.turn 0,.perform 2 (.uncache "a"),
    .perform 3 (.uncache "a"),.perform 4 (.uncache "a")]

/-- The first one is superseded at once, and the second one when its attempt has settled already. -/
def overtakenCalls : List CacheCall := [⟨2,2,[]⟩,⟨3,3,[.turn 6]⟩]

/-- Once its attempt has settled, the last one is the first to get its turn. -/
def lastCall : CacheCall := ⟨4,4,[.turn 7,.turn 4,.turn 3,.turn 2]⟩

theorem contested_tranquil : Reaches Move.Tranquil ({} : Setting).start contested ∧
    ∀ m ∈ movesOf (overtakenCalls ++ [lastCall]), m.Tranquil := by
  refine ⟨⟨_,?_,rfl⟩,?_⟩
  · simp [Move.Tranquil,Move.Steady,Move.Serene,Move.Calm,Move.Spares]
  · simp [movesOf,overtakenCalls,lastCall,CacheCall.moves,Move.Tranquil,Move.Steady,Move.Serene,Move.Calm,Move.Spares]

theorem contest_of_three : contested.Contest 0 contested.links[0] overtakenCalls lastCall 0 where
  link := rfl
  overlapping := ⟨⟨rfl,by decide⟩,rfl,⟨rfl,by decide⟩,rfl,⟨rfl,by decide⟩⟩
  undropped := by decide
  alive := rfl
  obliging := by decide
  soon := Nat.zero_le _
  idle := by decide

theorem last_of_three_clears :
    (∀ c ∈ overtakenCalls, contested.Returns (movesOf (overtakenCalls ++ [lastCall])) c 0
      (.failed (.uncache "Stop attempt was superseded by a newer attempt"))) ∧
    contested.Returns (movesOf (overtakenCalls ++ [lastCall])) lastCall 0 .done ∧
    (contested.run (movesOf (overtakenCalls ++ [lastCall]))).uncachesOf 0 = contested.uncachesOf 0 + 1 ∧
    (contested.run (movesOf (overtakenCalls ++ [lastCall]))).Hooked 0 := by
  have paced : contested.Paced (movesOf (overtakenCalls ++ [lastCall])) := by decide
  obtain ⟨reached,tranquil⟩ := contested_tranquil
  obtain ⟨earlier,last⟩ := only_the_last_call_clears {} {} ⟨rfl,rfl,rfl⟩ rfl contested reached 0 _ overtakenCalls
    lastCall 0 contest_of_three tranquil paced
  have ended : ∀ c ∈ overtakenCalls ++ [lastCall],
      (contested.run (movesOf (overtakenCalls ++ [lastCall]))).tasks[c.task]? = some none := by
    simp only [overtakenCalls,lastCall,List.cons_append,List.nil_append,List.forall_mem_cons]
    exact ⟨rfl,rfl,rfl,by simp⟩
  obtain ⟨returns,cleared,hook⟩ := last.resolve_right fun still => by
    obtain ⟨⟨p,calling⟩,-⟩ := still
    exact calling.unended (ended lastCall (by simp))
  refine ⟨fun c member => ?_,returns,cleared,(hook rfl _ rfl).mp rfl⟩
  rcases earlier c member with superseded | ⟨⟨p,calling⟩,-⟩
  · exact superseded
  · exact absurd (ended c (List.mem_append_left _ member)) calling.unended

end EditorLink
