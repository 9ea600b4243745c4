import EditorLink.Proofs.Endure
import EditorLink.Proofs.Vacancy

/-! What a kill comes to wherever a collaborator may crash. The hook has to be locked for it, and a lock
that someone crashed with stays shut: a link that is still alive then can never be killed. -/
namespace EditorLink
open World EditorLink.Action

namespace World

/-- Someone crashed while the hook of the link was locked. -/
def shut (w : World) (n : Nat) : Bool := w.links[n]?.any Link.hookPoisoned

theorem shut_iff {w : World} {n : Nat} :
    w.shut n = true ↔ ∃ l, w.links[n]? = some l ∧ l.hookPoisoned = true := by
  simp [shut,Option.any_eq_true]

/-- The lock of the link stays shut, and the link is left as alive or as dead as it is. -/
def StaysShut (n : Nat) (v w : World) : Prop :=
  v.shut n = true → w.shut n = true ∧ w.isDead n = v.isDead n

instance (n : Nat) : Frame (StaysShut n) where
  refl _ shut := ⟨shut,rfl⟩
  trans first next shut := by
    obtain ⟨between,before⟩ := first shut
    obtain ⟨after,later⟩ := next between
    exact ⟨after,later.trans before⟩

variable {v w : World} {n m : Nat}

theorem staysShut_of_link (same : ∀ l, v.links[n]? = some l →
    ∃ k, w.links[n]? = some k ∧ k.hookPoisoned = l.hookPoisoned ∧ k.dead = l.dead) : StaysShut n v w := by
  intro shut
  obtain ⟨l,there,poisoned⟩ := shut_iff.mp shut
  obtain ⟨k,found,lock,life⟩ := same l there
  refine ⟨shut_iff.mpr ⟨k,found,lock.trans poisoned⟩,?_⟩
  simp [isDead,there,found,life]

theorem staysShut_of_links (same : w.links = v.links) : StaysShut n v w :=
  staysShut_of_link fun l there => ⟨l,by rw [same]; exact there,rfl,rfl⟩

theorem Quiet.staysShut (quiet : Quiet v w) : StaysShut n v w := by
  refine staysShut_of_link fun l there => ?_
  obtain ⟨k,found,alike⟩ := quiet.link there
  obtain ⟨-,-,-,-,dead,hook⟩ := core_fields alike
  exact ⟨k,found,hook,dead⟩

theorem staysShut_withLink (w : World) (registry : Nat) (r : Registry) :
    StaysShut n w (w.withLink registry r) :=
  staysShut_of_link fun l there => ⟨l,getElem?_append_some there _,rfl,rfl⟩

end World

namespace Action

variable {n m : Nat} {w : World}

theorem exec_withHook_shut {α : Type} {a : Action α} (shut : w.shut n = true) :
    exec (withHook n a) w = (.error (.error .lockPoisoned),w) := by
  obtain ⟨l,there,poisoned⟩ := shut_iff.mp shut
  rw [withHook,exec_bind_ok (exec_link_some there),if_pos poisoned,exec_fail]

/-- What is done with the hook locked is not done at all to a link whose lock is shut, and leaves the
other links alone. -/
theorem withHook_staysShut {α : Type} {a : Action α} {sets : Bool}
    (handles : Keeps (Handling m sets) (withHook m a)) : Keeps (StaysShut n) (withHook m a) := by
  intro w shut
  by_cases own : m = n
  · subst own
    rw [exec_withHook_shut shut]
    exact ⟨shut,rfl⟩
  · refine staysShut_of_link (fun l there => ?_) shut
    obtain ⟨k,found,others,-⟩ := (handles w).links n l there
    obtain rfl := others (Ne.symm own)
    exact ⟨k,found,rfl,rfl⟩

theorem tends_staysShut (m : Nat) : Tends m (StaysShut n) where
  frame := inferInstance
  still still := still.toQuiet.staysShut
  clearHook := withHook_staysShut clearHook_handling
  restore outcome := by
    have puts : Keeps (Handling m true) (withHook m do
        let l ← link m
        if !l.dead && l.live then result (attach m) else pure (.ok ())) := by
      refine withHook_handling ((reads_link m).keeps.bind fun l => ?_)
      split
      · exact attach_handling.result
      · exact (reads_pure _).keeps
    exact (withHook_staysShut puts).bind fun restored =>
      (reads_ofExcept _).keeps.bind fun _ => (reads_ofExcept _).keeps
  kill := withHook_staysShut kill_handling
  handOver name := handOver_keeps name (fun _ => staysShut_of_links rfl) fun _ => staysShut_of_links rfl

theorem resume_staysShut (id : Nat) (job : Job) : Keeps (StaysShut n) (resume id job) := by
  by_cases settled : Settled job
  · exact resume_keeps id settled (fun still => still.toQuiet.staysShut)
      (fun m phase _ => (resumeUpdate_quiet id m phase).mono Quiet.staysShut) fun m _ => tends_staysShut m
  · obtain ⟨registry,name,rfl⟩ := not_settled settled
    have registers : Keeps (StaysShut n) (register registry) :=
      register_keeps registry (fun _ => staysShut_of_links rfl) fun w r _ => staysShut_withLink w registry r
    exact resumeCreate_fresh_keeps registry registers (fun m => (tends_staysShut m).serves) id name

/-- What holds once an action is over and is not undone by mending holds in any case. -/
theorem onCrash_leaves {α : Type} (P : World → Prop) {a : Action α} {mend : Action Unit}
    (after : P (exec a w).2) (mended : ∀ v, P v → P (exec mend v).2) : P (exec (onCrash a mend) w).2 := by
  rw [exec_onCrash]
  rcases ran : exec a w with ⟨(e | _) | x,v⟩ <;> rw [ran] at after
  · exact after
  · have crashed : (exec (do mend; crash : Action α) v).2 = (exec mend v).2 := by
      rw [exec_bind]
      rcases exec mend v with ⟨fault | _,u⟩ <;> rfl
    rw [crashed]
    exact mended v after
  · exact after

/-- Where the hook can be locked the link is dead after a kill, even if clearing the hook crashes. -/
theorem kill_dead {l : Link} (there : w.links[n]? = some l) (fine : l.hookPoisoned = false) :
    (exec (kill n) w).2.isDead n = true := by
  have stays {v u : World} (handling : Handling n false v u) (dead : v.isDead n = true) : u.isDead n = true :=
    (handling.handsOutOnly none).dead n dead
  rw [kill,withHook,exec_bind_ok (exec_link_some there),if_neg (by simp [fine])]
  refine onCrash_leaves (fun v => v.isDead n = true) ?_ fun v => ?_
  · rw [exec_bind_ok (exec_link_some there)]
    split
    · rename_i dead
      exact isDead_iff.mpr ⟨l,there,dead⟩
    · rw [exec_bind_ok (exec_modifyLink _ _ _)]
      -- the link is dead before its widget is looked for
      refine stays (((note_handling rfl).bind fun _ => detach_handling) _) ?_
      exact isDead_iff.mpr ⟨{ l with dead := true },by simp [World.modifyLink,there],rfl⟩
  · rw [exec_modifyLink]
    exact stays (handling_modifyLink v _ (fun _ => ⟨rfl,rfl,rfl,rfl,id⟩) fun _ => rfl)

end Action

namespace World

variable {v w : World} {n : Nat}

theorem move_staysShut (w : World) {m : Move} (single : m.Single) : StaysShut n w (w.move m) := by
  cases m with
  | perform number c =>
    refine perform_keeps (fun noMore => staysShut_of_links noMore.links)
      (fun still => still.toQuiet.staysShut) w number c (fun ms same => single number ms (by rw [same]))
      (fun o _ => staysShut_of_links (change_around w o).links) ?_ ?_
    · exact fun _ on k _ _ => withHook_staysShut (setLive_handling (n := k) on) w
    · exact fun _ k _ _ => (tends_staysShut k).kill w
  | turn id =>
    exact turn_keeps (fun entities => staysShut_of_links entities.links) w id fun task _ _ =>
      resume_staysShut id task.job _
  | arrive now => exact staysShut_of_links rfl

theorem staysShut_of_reached {allowed : Move → Prop} (internal : ∀ m, m.Internal → allowed m)
    (reached : Reaches allowed v w) : StaysShut n v w :=
  run_keeps internal (fun w _ _ single => move_staysShut w single) reached

theorem dead_of_reached (reached : Reaches (fun _ => True) v w) (dead : v.isDead n = true) :
    w.isDead n = true := by
  have endures : Endures fun v w : World => v.isDead n = true → w.isDead n = true :=
    { frame := inferInstance
      entities := fun entities dead => by
        rw [isDead,entities.links]
        exact dead
      quiet := fun quiet dead => (quiet.isDead n).trans dead
      handling := fun handling dead => (handling.handsOutOnly none).dead n dead
      made := fun _ registry r _ dead => isDead_withLink registry r dead
      crashed := fun _ _ dead => dead }
  refine endures.reaches (fun _ _ => trivial) (fun w _ o _ dead => ?_) reached dead
  rw [isDead,(change_around w o).links]
  exact dead

/-- Nothing is refused on account of the link: no registry tells of it, and a creation is refused only
where its registry tells of another one. -/
structure OutOfTheWay (w : World) (n : Nat) : Prop where
  dead : w.isDead n = true
  current : ∀ registry, w.current? registry ≠ some n
  creations : ∀ id label registry name,
    w.tasks[id]? = some (some { label := some label, job := .create registry name none }) →
    (w.turn id).events = w.events ++ [⟨w.now,label,.failed .alreadyExists⟩] →
    ∃ other, other ≠ n ∧ w.current? registry = some other

theorem outOfTheWay_of_dead (dead : w.isDead n = true) : w.OutOfTheWay n := by
  have current (registry : Nat) : w.current? registry ≠ some n := by
    intro known
    rw [(current?_spec known).2.2] at dead
    cases dead
  refine ⟨dead,current,fun id label registry name there said => ?_⟩
  have refused := (fresh_refused_iff (w := w.taken id) there).mp said
  obtain ⟨other,known⟩ := Option.isSome_iff_exists.mp refused
  refine ⟨other,?_,known⟩
  rintro rfl
  exact current registry known

theorem perform_kill_shut {number : Nat} {name : String} (found : w.names.lookup name = some n)
    (shut : w.shut n = true) : w.perform number (.kill name) = (.failed .lockPoisoned,w) :=
  (onLink_some found _).trans (act_failed (exec_withHook_shut shut) _)

theorem perform_kill_dead {number : Nat} {name : String} (found : w.names.lookup name = some n)
    (known : n < w.links.length) (free : w.shut n = false) :
    (w.perform number (.kill name)).2.isDead n = true := by
  have there := List.getElem?_eq_getElem known
  have killed : (w.perform number (.kill name)).2 = (exec (kill n) w).2 := by
    rw [← act_world w (kill n) fun _ => .done]
    exact congrArg Prod.snd (onLink_some found _)
  rw [killed]
  exact kill_dead there (by simpa [shut,there] using free)

theorem shut_of_calm (calm : w.Calm) : w.shut n = false := by
  rcases there : w.links[n]? with _ | l
  · simp [shut,there]
  · simp [shut,there,(calm.locks n l there).1]

/-- Whatever is held is there. -/
def HoldsKnown (w : World) : Prop := ∀ n, w.held n = true → n < w.links.length

abbrev KeepsKnown (v w : World) : Prop := v.HoldsKnown → w.HoldsKnown

theorem keepsKnown_of_held (size : w.links.length = v.links.length)
    (held : ∀ n, w.held n = true → v.held n = true) : KeepsKnown v w := fun known n now =>
  size ▸ known n (held n now)

theorem keepsKnown_same (links : w.links = v.links) (names : w.names = v.names) (tasks : w.tasks = v.tasks) :
    KeepsKnown v w :=
  keepsKnown_of_held (by rw [links]) fun n now => by rw [held_congr names tasks] at now; exact now

theorem HandsOutOnly.keepsKnown {link : Option Nat} {u v w : World} (handsOut : HandsOutOnly link u v)
    (holds : ∀ n, link = some n → u.held n = true) (links : w.links = v.links) (names : w.names = v.names)
    (tasks : ∀ t, some t ∈ w.tasks → some t ∈ v.tasks ∨ t.job.link? = link) : KeepsKnown u w :=
  keepsKnown_of_held (by rw [links,handsOut.size])
    fun n now => (handsOut.held_back names tasks now).elim id (holds n)

theorem conclude_known {link : Option Nat} {id : Nat} {label : Option Nat} {r : Except Fault Next} {u : World}
    (handsOut : HandsOutOnly link u v) (holds : ∀ n, link = some n → u.held n = true)
    (pauses : ∀ job, r = .ok (.pause job) → job.link? = link) : KeepsKnown u (conclude id label (r,v)) := by
  obtain ⟨-,links,-,names,tasks⟩ := conclude_same id label r v
  refine handsOut.keepsKnown holds links names fun t member => ?_
  exact (tasks t member).imp_right (pauses t.job)

theorem fresh_known {id registry : Nat} {name : String} {label : Option Nat} :
    KeepsKnown w (conclude id label (exec (resumeCreate id registry name none) w)) := by
  have none (u : World) : HandsOutOnly none u u := Frame.refl u
  rcases there : w.registries[registry]? with _ | r
  · rw [resumeCreate_refused (exec_register_none there)]
    exact conclude_known (none w) nofun nofun
  · have registered := exec_register_there there
    split at registered
    · rw [resumeCreate_refused registered]
      exact conclude_known (none w) nofun nofun
    · split at registered
      · rw [resumeCreate_refused registered]
        exact conclude_known (none w) nofun nofun
      · split at registered
        · rw [resumeCreate_refused registered]
          have crashed : KeepsKnown w (w.withoutFactory registry) := keepsKnown_same rfl rfl rfl
          exact fun known => conclude_known (none _) nofun nofun (crashed known)
        · have handsOut := setOut_keeps (tends_handsOutOnly w.links.length).serves id registry name trivial
            (w.withLink registry r)
          have creates := setOut_creates id registry name w.links.length (w.withLink registry r)
          rw [resumeCreate_made registered]
          rcases ran : exec (setOut id registry name w.links.length) (w.withLink registry r) with ⟨s,v⟩
          rw [ran] at handsOut
          obtain ⟨-,links,-,names,tasks⟩ := conclude_same id label s v
          have size : (conclude id label (s,v)).links.length = w.links.length + 1 := by
            rw [links,handsOut.size]
            simp [withLink]
          intro known n now
          -- the creation holds the new link, which has the last number
          have held := handsOut.held_back names (fun t member => (tasks t member).imp_right fun paused =>
            creates (.pause t.job) v (ran.trans (by rw [paused]))) now
          rcases held with before | new
          · have := known n before
            omega
          · have := Option.some.inj new
            omega

theorem aborted_known (w : World) (id : Nat) (task : Task) : KeepsKnown w (w.pollAborted id task) := by
  have dropped (v : World) (links : v.links = w.links) (names : v.names = w.names) (tasks : v.tasks = w.tasks) :
      KeepsKnown w (v.remove id) :=
    (Frame.refl w : HandsOutOnly none w w).keepsKnown nofun links names fun t member =>
      .inl (tasks ▸ mem_remove member)
  unfold pollAborted
  split
  · exact dropped w rfl rfl rfl
  · obtain ⟨-,links,-,names,tasks⟩ := report_same w task.label .aborted
    exact dropped _ links names tasks

theorem turn_known (w : World) (id : Nat) : KeepsKnown w (w.turn id) := by
  have taken : KeepsKnown w (w.taken id) := keepsKnown_same rfl rfl rfl
  rcases turn_cases w id with ⟨-,same⟩ | ⟨t,there,⟨-,same⟩ | active⟩
  · rw [same]
    exact taken
  · rw [same]
    exact Frame.trans taken (aborted_known (w.taken id) id t)
  · rw [turn_active there active]
    refine Frame.trans taken ?_
    by_cases settled : Settled t.job
    · have leads := resume_yieldsNext id t.job (w.taken id)
      have handsOut := resume_handsOutOnly id t.job settled (w.taken id)
      rcases ran : exec (resume id t.job) (w.taken id) with ⟨r,v⟩
      rw [ran] at handsOut
      refine conclude_known handsOut (fun n => held_of_task (w := w.taken id) there) fun job paused => ?_
      exact Job.Follows.link (leads (.pause job) v (ran.trans (by rw [paused]))) settled
    · obtain ⟨registry,name,fresh⟩ := not_settled settled
      rw [fresh]
      exact fresh_known

theorem move_known (w : World) {m : Move} (single : m.Single) : KeepsKnown w (w.move m) := by
  have worked {v w : World} (handsOut : HandsOutOnly none v w) : KeepsKnown v w :=
    handsOut.keepsKnown nofun rfl rfl fun _ => .inl
  cases m with
  | perform number c =>
    refine perform_keeps (fun noMore => keepsKnown_of_held (by rw [noMore.links]) noMore.held)
      (fun still => worked (still.toQuiet.handsOutOnly none)) w number c
        (fun ms same => single number ms (by rw [same]))
      (fun o _ => ?_) (fun _ on n _ _ => worked (setLive_handsOutOnly none n on w))
      fun _ n _ _ => worked (kill_handsOutOnly none n w)
    have around := change_around w o
    refine keepsKnown_of_held (by rw [around.links]) fun n now => ?_
    rcases around.tasks with same | ⟨k,_,_,-,-,-,held,same⟩
    · rw [held_congr around.names same] at now
      exact now
    · rcases held_iff.mp now with ⟨name,member⟩ | ⟨t,member,holds⟩
      · exact held_iff.mpr (.inl ⟨name,around.names ▸ member⟩)
      · rw [same] at member
        rcases List.mem_append.mp member with old | new
        · exact held_iff.mpr (.inr ⟨t,old,holds⟩)
        · obtain rfl : t = _ := Option.some.inj (List.mem_singleton.mp new)
          cases holds
          exact held
  | turn id => exact turn_known w id
  | arrive now => exact keepsKnown_same rfl rfl rfl

theorem known_of_held {s : Setting} (reached : Reaches (fun _ => True) s.start w) (held : w.held n = true) :
    n < w.links.length := by
  have known : w.HoldsKnown := by
    refine run_keeps (R := KeepsKnown) (fun _ _ => trivial) (fun w _ _ single => move_known w single) reached ?_
    intro n held
    cases held
  exact known n held

end World

/-- Whatever callers do and whichever collaborators crash: once a kill has returned or crashed, the link
is dead and out of the way of its registry for good, unless someone had crashed before with the hook of the
living link locked. Then the kill fails with the error that tells of the lock and nothing is done, and
nothing that is done later can end the link any more. Where nobody ever crashes no lock is shut. -/
theorem kill_ends_unless_shut (s : Setting) (w : World) (reached : Reaches (fun _ => True) s.start w)
    (number n : Nat) (name : String) (found : w.names.lookup name = some n) :
    ((w.perform number (.kill name)).2.isDead n = true ↔ w.isDead n = true ∨ w.shut n = false) ∧
      (∀ u, (w.perform number (.kill name)).2.isDead n = true →
        Reaches (fun _ => True) (w.perform number (.kill name)).2 u → u.OutOfTheWay n) ∧
      (w.shut n = true → w.perform number (.kill name) = (.failed .lockPoisoned,w) ∧
        ∀ u, Reaches (fun _ => True) w u → u.shut n = true ∧ u.isDead n = w.isDead n) ∧
      (Reaches Move.Calm s.start w → w.shut n = false) := by
  have known := known_of_held reached (held_of_lookup found)
  refine ⟨?_,fun u dead later => outOfTheWay_of_dead (dead_of_reached later dead),fun shut => ?_,
    fun calm => shut_of_calm (calm_of_reached calm (start_calm s))⟩
  · constructor
    · intro dead
      by_cases shut : w.shut n = true
      · rw [perform_kill_shut found shut] at dead
        exact .inl dead
      · exact .inr (by simpa using shut)
    · rintro (dead | free)
      · exact dead_of_reached (reaches_move w (.perform number (.kill name)) trivial) dead
      · exact perform_kill_dead found known free
  · exact ⟨perform_kill_shut found shut,fun u later =>
      staysShut_of_reached (fun _ _ => trivial) later shut⟩

theorem killed_link_is_out_of_the_way :
    Reaches (fun _ => True) ({} : Setting).start oneLink ∧ oneLink.names.lookup "a" = some 0 ∧
      (oneLink.perform 1 (.kill "a")).2.OutOfTheWay 0 := by
  have reached : Reaches (fun _ => True) ({} : Setting).start oneLink := reaches_oneLink.mono fun _ _ => trivial
  have named : oneLink.names.lookup "a" = some 0 := by rfl
  obtain ⟨dies,away,-⟩ := kill_ends_unless_shut {} oneLink reached 1 0 "a" named
  exact ⟨reached,named,away _ (dies.mpr (.inr rfl)) (Frame.refl _)⟩

/-- The widget of the one link has crashed while its hook was set. -/
def shutLink : World :=
  oneLink.run [.perform 1 (.outside (.crash .hook true)),.perform 2 (.setLive "a" true),
    .perform 3 (.outside (.crash .hook false))]

theorem shut_link_survives_kill :
    Reaches (fun _ => True) ({ widgetsCrash := true } : Setting).start shutLink ∧
      shutLink.names.lookup "a" = some 0 ∧ shutLink.sites = [] ∧
      (shutLink.perform 4 (.kill "a")).1 = .failed .lockPoisoned ∧
      (shutLink.perform 4 (.kill "a")).2.isDead 0 = false ∧
      (shutLink.perform 4 (.kill "a")).2.current? 0 = some 0 ∧
      ((shutLink.perform 4 (.kill "a")).2.run [.perform 5 (.create "b" 0),.turn 2]).events =
        shutLink.events ++ [⟨0,5,.failed .alreadyExists⟩] := by
  have reached : Reaches (fun _ => True) oneLink shutLink := ⟨_,by simp,rfl⟩
  exact ⟨Frame.trans (reaches_oneLink.mono fun _ _ => trivial) reached,rfl,rfl,rfl,rfl,rfl,rfl⟩

end EditorLink
