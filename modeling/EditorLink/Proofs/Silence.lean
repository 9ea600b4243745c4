import EditorLink.Proofs.Persist
import EditorLink.Proofs.Singleton

/-! A killed link stays dead and is silent: whatever is asked of it, and whatever was under way for it
when it was killed, touches no widget and starts no update any more. -/
namespace EditorLink
open World EditorLink.Action

/-- The name of the link that a command is about. -/
def Command.link? : Command → Option String
  | .live name => some name
  | .setLive name _ => some name
  | .kill name => some name
  | .model name => some name
  | .isDead name => some name
  | .status name => some name
  | .debug name => some name
  | .same name _ => some name
  | .clone name _ => some name
  | .drop name => some name
  | .update name => some name
  | .uncache name => some name
  | .stop name _ => some name
  | _ => none

/-- The link that a job is for. A creation that has none yet is for the one that it will make. -/
def Job.actor? (job : Job) (next : Nat) : Option Nat :=
  match job with
  | .create _ _ none => some next
  | job => job.link?

theorem actor?_settled {job : Job} (settled : Settled job) (next : Nat) :
    job.actor? next = job.link? := by
  cases job with
  | create registry name teardown =>
    cases teardown with
    | none => exact settled.elim
    | some made => rfl
  | _ => rfl

namespace World

def actor? (w : World) : Move → Option Nat
  | .perform _ c => c.link?.bind fun name => w.names.lookup name
  | .turn id => w.tasks[id]?.join.bind fun task => task.job.actor? w.links.length
  | .arrive _ => none

/-- The link is dead, in a world without crashes. -/
structure Buried (n : Nat) (w : World) : Prop extends Calm w where
  dead : w.isDead n = true

/-- The widgets there are keep their hooks, nothing is set or cleared, and no update is started. -/
def Hushed (v w : World) : Prop :=
  (∃ fresh, w.hooks = v.hooks ++ List.replicate fresh (none,0,0)) ∧ w.updatesBegun = v.updatesBegun

def Silent (n : Nat) (v w : World) : Prop := Buried n v → Buried n w ∧ Hushed v w

theorem Hushed.trans {u v w : World} (first : Hushed u v) (next : Hushed v w) : Hushed u w := by
  obtain ⟨⟨some,before⟩,begun⟩ := first
  obtain ⟨⟨more,after⟩,later⟩ := next
  refine ⟨⟨some + more,?_⟩,later.trans begun⟩
  rw [after,before,List.append_assoc,List.replicate_append_replicate]

theorem hushed_of_same {v w : World} (widgets : w.widgets = v.widgets)
    (begun : w.updatesBegun = v.updatesBegun) : Hushed v w :=
  ⟨⟨0,by rw [hooks,hooks,widgets]; exact (List.append_nil _).symm⟩,begun⟩

instance (n : Nat) : Frame (Silent n) where
  refl w buried := ⟨buried,hushed_of_same rfl rfl⟩
  trans first next buried := by
    obtain ⟨between,before⟩ := first buried
    obtain ⟨after,later⟩ := next between
    exact ⟨after,before.trans later⟩

theorem Buried.link {n : Nat} {w : World} (buried : Buried n w) :
    ∃ l, w.links[n]? = some l ∧ l.dead = true := isDead_iff.mp buried.dead

theorem silent_sameEntities {n : Nat} {v w : World} (entities : SameEntities v w) : Silent n v w := by
  intro buried
  refine ⟨⟨persists_calm.entities entities buried.toCalm,?_⟩,hushed_of_same entities.widgets entities.begun⟩
  rw [isDead,entities.links]
  exact buried.dead

theorem silent_quiet {n : Nat} {v w : World} (quiet : Quiet v w)
    (begun : w.updatesBegun = v.updatesBegun) : Silent n v w := fun buried =>
  ⟨⟨buried.toCalm.quiet quiet,(quiet.isDead n).trans buried.dead⟩,hushed_of_same quiet.widgets begun⟩

theorem silent_still {n : Nat} {v w : World} (still : Still v w) : Silent n v w :=
  silent_quiet still.toQuiet still.begun

end World

theorem tendsCalmly_silent (n : Nat) : TendsCalmly n (Silent n) where
  frame := inferInstance
  wild wild buried := absurd buried.toCalm wild
  still := silent_still
  named _ _ := silent_sameEntities { SameEntities.refl _ with }
  dressed may _ _ _ buried := by
    obtain ⟨l,there,dead⟩ := buried.link
    rw [may.there] at there
    cases there
    rw [may.alive] at dead
    contradiction

theorem feed_silent (n model : Nat) (text : String) : Keeps (Silent n) (feed model text) :=
  feed_keeps (fun w k _ _ => silent_quiet (quiet_models w k fun _ => rfl) rfl) model text

theorem exec_ensureAlive_dead {n : Nat} {w : World} (dead : w.isDead n = true) :
    exec (ensureAlive n) w = (.error (.error .killed),w) := by
  obtain ⟨l,there,ended⟩ := isDead_iff.mp dead
  rw [exec_ensureAlive there,ended]
  rfl

/-- An update of a dead link fails unless its model has been given the text already. -/
theorem exec_update_dead {n id : Nat} {w : World} (dead : w.isDead n = true) {phase : UpdatePhase}
    (before : ∀ text interrupts, phase ≠ .running text interrupts) :
    exec (resumeUpdate id n phase) w = (.error (.error .killed),w) := by
  cases phase with
  | fresh => exact exec_bind_error (exec_ensureAlive_dead dead)
  | debouncing => exact exec_bind_error (exec_ensureAlive_dead dead)
  | running text interrupts => exact absurd rfl (before text interrupts)

theorem resumeUpdate_silent (id n : Nat) (phase : UpdatePhase) :
    Keeps (Silent n) (resumeUpdate id n phase) := by
  have waiting (early : ∀ text interrupts, phase ≠ .running text interrupts) :
      Keeps (Silent n) (resumeUpdate id n phase) := by
    intro w buried
    rw [exec_update_dead buried.dead early]
    exact Frame.refl (R := Silent n) w buried
  cases phase with
  | fresh => exact waiting nofun
  | debouncing => exact waiting nofun
  | running text interrupts =>
    refine (reads_link n).keeps.bind fun l => (reads_model l.model).keeps.bind fun planned => ?_
    split
    · exact feed_silent n l.model text
    · exact (reads_fail _).keeps

/-- A move that is not made for another link leaves the hooks alone and starts no update. -/
theorem move_silent {n : Nat} {w : World} {m : Move} (calm : m.Calm) (single : m.Single)
    (own : ∀ k, w.actor? m = some k → k = n) : Silent n w (w.move m) := by
  intro buried
  obtain ⟨l,there,dead⟩ := buried.link
  cases m with
  | arrive now => exact silent_sameEntities { SameEntities.refl w with } buried
  | turn id =>
    refine turn_keeps (fun entities => silent_sameEntities entities) w id (fun task found active => ?_) buried
    have actor : w.actor? (.turn id) = task.job.actor? w.links.length := by
      simp [actor?,found]
    by_cases settled : Settled task.job
    · rw [actor?_settled settled] at actor
      refine resume_keeps id settled silent_still ?_ (fun k holds => ?_) _
      · intro k phase same
        obtain rfl := own k (by rw [actor,same]; rfl)
        exact resumeUpdate_silent id k phase
      · obtain rfl := own k (actor.trans holds)
        exact (tendsCalmly_silent k).tends
    · obtain ⟨registry,name,fresh⟩ := not_settled settled
      -- the link that it would make is not there yet, so it is not the dead one
      have next := own w.links.length (by rw [actor,fresh]; rfl)
      exact absurd (List.getElem?_eq_some_iff.mp there).1 (by omega)
  | perform number c =>
    refine perform_keeps (fun noMore => silent_sameEntities noMore.toSameEntities) silent_still w number c
      (fun ms same => single number ms (by rw [same])) ?_ ?_ ?_ buried
    · rintro o rfl ⟨still,_⟩
      have around := change_around w o
      refine ⟨⟨calm_change still o fun site crash => calm site number (by rw [crash]),?_⟩,?_⟩
      · rw [isDead,around.links]
        exact buried.dead
      · exact ⟨around.hooks,around.begun⟩
    · rintro name on k rfl found buried
      obtain rfl := own k found
      rw [exec_setLive_dead buried.toCalm there dead]
      exact Frame.refl (R := Silent k) w buried
    · rintro name k rfl found buried
      obtain rfl := own k found
      rw [exec_kill_dead buried.toCalm there dead]
      exact Frame.refl (R := Silent k) w buried

theorem buried_dress {n m : Nat} {w : World} {l k : Link} {hook : Option Nat}
    (may : MayDress w m l k hook) (buried : Buried n w) (lookups : Nat) (notices : List Notice) :
    Buried n ((w.dress m k hook).log lookups notices) where
  toCalm := calm_after may lookups notices
  dead := by
    obtain ⟨j,there,dead⟩ := buried.link
    have other : m ≠ n := by
      rintro rfl
      rw [may.there] at there
      cases there
      rw [may.alive] at dead
      contradiction
    exact isDead_iff.mpr ⟨j,(List.getElem?_set_ne other).trans there,dead⟩

theorem persists_buried (n : Nat) : Persists fun v w => Buried n v → Buried n w where
  frame := inferInstance
  wild wild buried := absurd buried.toCalm wild
  entities entities buried := (silent_sameEntities entities buried).1
  quiet quiet buried :=
    ⟨buried.toCalm.quiet quiet,(quiet.isDead n).trans buried.dead⟩
  dressed may _ lookups notices buried := buried_dress may buried lookups notices
  made _ _ _ buried := ⟨calm_withLink buried.toCalm _ _,isDead_withLink _ _ buried.dead⟩

theorem buried_of_reached {n : Nat} {v w : World} (reached : Reaches Move.Calm v w)
    (buried : Buried n v) : Buried n w := by
  refine (persists_buried n).reaches (fun _ => Move.Internal.calm) ?_
    (fun may lookups notices buried => buried_dress may buried lookups notices) reached buried
  intro w number o gentle buried
  have around := change_around w o
  refine ⟨calm_change buried.toCalm o fun site crash => gentle site number (by rw [crash]),?_⟩
  rw [isDead,around.links]
  exact buried.dead

/-- What is asked of a dead link comes to nothing: a call fails with the error that says so, killing it
again is fine, and so it goes with calls that were made for it and have not got further. -/
structure Refuses (n : Nat) (w : World) : Prop where
  calls : ∀ number name, w.names.lookup name = some n →
    ∀ c ∈ [Command.live name,.model name,.setLive name true,.setLive name false,.stop name true,
      .stop name false], w.perform number c = (.failed .killed,w)
  kill : ∀ number name, w.names.lookup name = some n → w.perform number (.kill name) = (.done,w)
  update : ∀ number name, w.names.lookup name = some n →
    (w.perform number (.update name)).2.tasks =
      w.tasks ++ [some { label := some number, job := .update n .fresh }]
  uncache : ∀ number name, w.names.lookup name = some n →
    (w.perform number (.uncache name)).2.tasks =
      w.tasks ++ [some { label := some number, job := .uncache n none }]
  tasks : ∀ id label job, w.tasks[id]? = some (some { label, job }) →
    job ∈ [Job.update n .fresh,.update n .debouncing,.uncache n none] →
    w.turn id = ((w.taken id).report label (.failed .killed)).remove id

theorem onLink_some {w : World} {name : String} {n : Nat} (found : w.names.lookup name = some n)
    (f : Nat → Reply × World) : w.onLink name f = f n := by
  rw [onLink,found]

theorem perform_setLive {w : World} {name : String} {n : Nat} (found : w.names.lookup name = some n)
    (number : Nat) (on : Bool) :
    w.perform number (.setLive name on) = w.act (setLive n on) fun _ => .done := onLink_some found _

theorem act_done {α : Type} {w v : World} {a : Action α} {x : α} (done : exec a w = (.ok x,v))
    (reply : α → Reply) : w.act a reply = (reply x,v) := by
  unfold exec at done
  rw [act,done]

theorem act_failed {α : Type} {w v : World} {a : Action α} {e : LinkError}
    (failed : exec a w = (.error (.error e),v)) (reply : α → Reply) :
    w.act a reply = (.failed e,v) := by
  unfold exec at failed
  rw [act,failed]

theorem refuses_of_buried {n : Nat} {w : World} (buried : Buried n w) : Refuses n w where
  calls number name found c member := by
    obtain ⟨l,there,dead⟩ := buried.link
    have ensured := exec_ensureAlive_dead buried.dead
    have stopped (canSpawn : Bool) : w.stopFor number n canSpawn = (.failed .killed,w) := by
      have failed : exec (startStop n canSpawn) w = (.error (.error .killed),w) :=
        exec_bind_error ensured
      unfold exec at failed
      rw [stopFor,failed]
    have switched (on : Bool) := act_failed (exec_setLive_dead buried.toCalm there dead on)
    simp only [List.mem_cons,List.not_mem_nil,or_false] at member
    rcases member with rfl | rfl | rfl | rfl | rfl | rfl <;>
      refine (onLink_some found _).trans ?_
    · exact act_failed (exec_bind_error ensured) _
    · exact act_failed (exec_bind_error ensured) _
    · exact switched true _
    · exact switched false _
    · exact stopped true
    · exact stopped false
  kill number name found := by
    obtain ⟨l,there,dead⟩ := buried.link
    exact (onLink_some found _).trans (act_done (exec_kill_dead buried.toCalm there dead) _)
  update number name found := by
    have started := congrArg (fun r => r.2.tasks)
      (onLink_some found fun n => w.start number (.update n .fresh))
    exact started
  uncache number name found := by
    have started := congrArg (fun r => r.2.tasks)
      (onLink_some found fun n => w.start number (.uncache n none))
    exact started
  tasks id label job there member := by
    have taken : Buried n (w.taken id) := (silent_sameEntities (sameEntities_taken w id) buried).1
    obtain ⟨l,found,dead⟩ := taken.link
    have there : (w.taken id).tasks[id]? = some (some { label, job }) := there
    have failed : exec (resume id job) (w.taken id) = (.error (.error .killed),w.taken id) := by
      simp only [List.mem_cons,List.not_mem_nil,or_false] at member
      rcases member with rfl | rfl | rfl <;> dsimp only [resume]
      · exact exec_update_dead taken.dead nofun
      · exact exec_update_dead taken.dead nofun
      · have begun : exec (beginTeardown n) (w.taken id) = _ :=
          exec_bind_error (exec_clearHook_dead taken.toCalm found dead)
        exact exec_bind_error begun
    rw [turn,poll_active there rfl,failed]
    rfl

theorem perform_kill {n : Nat} {w : World} {name : String} (number : Nat) (calm : w.Calm)
    (known : n < w.links.length) (found : w.names.lookup name = some n) :
    (w.perform number (.kill name)).1 = .done ∧ Buried n (w.perform number (.kill name)).2 := by
  have there := List.getElem?_eq_getElem known
  have killed : w.perform number (.kill name) = w.act (kill n) fun _ => .done :=
    onLink_some found _
  rw [killed]
  cases alive : w.links[n].dead with
  | true =>
    rw [act_done (exec_kill_dead calm there alive)]
    exact ⟨rfl,calm,isDead_iff.mpr ⟨_,there,alive⟩⟩
  | false =>
    obtain ⟨lookups,notices,done⟩ := exec_kill calm there alive
    have may : MayDress w n w.links[n] { w.links[n] with dead := true } none :=
      ⟨calm,there,alive,rfl,.inl rfl⟩
    have still := calm_after may lookups notices
    rw [act_done done]
    exact ⟨rfl,still,isDead_iff.mpr ⟨_,List.getElem?_set_self known,rfl⟩⟩

/-- Death is final, and silent. As long as no collaborator crashes: a kill succeeds and leaves the link
dead. From the moment that a link is dead, by such a kill or by the creation of it that failed, and however
things go on from there, it stays dead, every call on it fails with the error that says so while killing it
again succeeds, and no move made for it, whether asked for later or under way when it was killed, sets or
clears the hook of any widget or starts an update of a model. -/
theorem dead_is_final_and_silent (s : Setting) (v : World)
    (reached : Reaches Move.Calm s.start v) (n : Nat) :
    (∀ number name, v.names.lookup name = some n →
      (v.perform number (.kill name)).1 = .done ∧
        (v.perform number (.kill name)).2.isDead n = true) ∧
    (v.isDead n = true → ∀ w, Reaches Move.Calm v w →
      w.isDead n = true ∧ Refuses n w ∧
        ∀ m : Move, m.Calm → m.Single → (∀ k, w.actor? m = some k → k = n) →
          Hushed w (w.move m)) := by
  have calm := calm_of_reached reached (start_calm s)
  refine ⟨fun number name found => ?_,fun dead w later => ?_⟩
  · have known := (unharmed_of_reached (reached.mono fun m calm => calm .factory)).holds n
      (held_of_lookup found)
    obtain ⟨done,buried⟩ := perform_kill number calm known found
    exact ⟨done,buried.dead⟩
  · have now := buried_of_reached later ⟨calm,dead⟩
    exact ⟨now.dead,refuses_of_buried now,fun m calm single own => (move_silent calm single own now).2⟩

/-- A world with one link, which goes by a name. -/
def oneLink : World :=
  ({} : Setting).start.run [.perform 0 (.create "a" 0),.turn 0,.turn 1,.turn 0]

theorem reaches_oneLink : Reaches Move.Calm ({} : Setting).start oneLink :=
  ⟨_,by simp [Move.Calm,Move.Spares],rfl⟩

theorem the_one_link_dies :
    Reaches Move.Calm ({} : Setting).start oneLink ∧ oneLink.names.lookup "a" = some 0 ∧
      (oneLink.perform 1 (.kill "a")).1 = .done ∧
      (oneLink.perform 1 (.kill "a")).2.isDead 0 = true ∧
      Refuses 0 (oneLink.perform 1 (.kill "a")).2 := by
  have named : oneLink.names.lookup "a" = some 0 := by rfl
  obtain ⟨killed,-⟩ := dead_is_final_and_silent {} oneLink reaches_oneLink 0
  obtain ⟨done,dead⟩ := killed 1 "a" named
  have reached : Reaches Move.Calm ({} : Setting).start (oneLink.perform 1 (.kill "a")).2 :=
    Frame.trans reaches_oneLink
      (reaches_move oneLink (.perform 1 (.kill "a")) (by simp [Move.Calm,Move.Spares]))
  obtain ⟨-,after⟩ := dead_is_final_and_silent {} _ reached 0
  exact ⟨reaches_oneLink,named,done,dead,(after dead _ (Frame.refl _)).2.1⟩

end EditorLink
