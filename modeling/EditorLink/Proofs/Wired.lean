import EditorLink.Proofs.Mending

/-! Live mode means that the hook is on, but for one way to leave a teardown: it can be dropped while it
waits, and then nobody puts the hook back. -/
namespace EditorLink
open World EditorLink.Action

namespace World

/-- A teardown of the link is dropped while it waits, with the link in live mode and its hook off. -/
def Drops (w : World) (n : Nat) (m : Move) : Prop :=
  ∃ (id : Nat) (task : Task) (l : Link), m = .turn id ∧ w.tasks[id]? = some (some task) ∧
    task.aborted = true ∧ task.job.Tears n ∧ w.links[n]? = some l ∧ l.live = true ∧ ¬ w.Hooked n

/-- The link is switched, or a teardown of it comes to its end. -/
def Mends (w : World) (n : Nat) (m : Move) : Prop :=
  (∃ number name on, m = .perform number (.setLive name on) ∧ w.names.lookup name = some n) ∨
    ∃ (id : Nat) (task : Task), m = .turn id ∧ w.tasks[id]? = some (some task) ∧
      task.aborted = false ∧ task.job.teardown? = some n ∧ (w.turn id).tasks[id]? = some none

/-- The move leaves the link bare, or leaves it as bare as it was. -/
def BareAfter (w : World) (n : Nat) (bare : Prop) (m : Move) : Prop :=
  bare ∧ ¬ w.Mends n m ∨ w.Drops n m

/-- On the way a teardown was dropped, and nothing mended the link afterwards. -/
def LeftBare (n : Nat) : Prop → World → List Move → Prop
  | bare,_,[] => bare
  | bare,w,m :: rest => LeftBare n (w.BareAfter n bare m) (w.move m) rest

/-- What the link and the widget show of the past. -/
structure Traced (n : Nat) (bare : Prop) (w : World) : Prop where
  known : bare → n < w.links.length
  wired : ∀ l, w.links[n]? = some l → w.Up n → l.live = true → ¬ w.Hooked n → w.Tearing n ∨ bare
  bare : bare → ∀ l, w.links[n]? = some l → w.Up n → l.live = true ∧ ¬ w.Hooked n

variable {n : Nat} {bare : Prop} {v w : World}

theorem Later.up (later : Later v w) (known : n < v.links.length) (up : w.Up n) : v.Up n := by
  constructor
  · rcases later.held n up.1 with held | new
    · exact held
    · omega
  · rcases dead : v.isDead n with _ | _
    · rfl
    · have gone := later.dead n dead
      rw [up.2] at gone
      contradiction

theorem Traced.loosens (traced : Traced n bare v) (later : Later v w) (loose : Loosens n v w)
    (wired : ∀ l, w.links[n]? = some l → w.Up n → l.live = true → ¬ w.Hooked n → w.Tearing n ∨ bare) :
    Traced n bare w where
  known was := Nat.lt_of_lt_of_le (traced.known was) later.size
  wired := wired
  bare was l there up := by
    obtain ⟨k,before,mode,_⟩ := loose.link l there
    obtain ⟨live,off⟩ := traced.bare was k before (later.up (traced.known was) up)
    exact ⟨mode.symm.trans live,fun hooked => off (loose.hooked hooked)⟩

theorem Traced.keepsHook (traced : Traced n bare v) (later : Later v w) (apart : KeepsHook n v w)
    (tearing : v.Tearing n → w.Tearing n) : Traced n bare w := by
  refine traced.loosens later apart.toLoosens fun l there up live off => ?_
  obtain ⟨k,before,mode,_⟩ := apart.link l there
  have known := (List.getElem?_eq_some_iff.mp before).1
  have open_ : ¬ v.Hooked n := fun hooked => off (apart.kept hooked)
  rcases traced.wired k before (later.up known up) (mode.trans live) open_ with torn | was
  · exact .inl (tearing torn)
  · exact .inr was

theorem traced_mended (mended : w.Mended n) : Traced n False w where
  known := False.elim
  bare := False.elim
  wired l there up live off := by
    rcases mended l there with dead | other | hooked
    · have gone := isDead_iff.mpr ⟨l,there,dead⟩
      rw [up.2] at gone
      contradiction
    · rw [live] at other
      contradiction
    · exact absurd hooked off

theorem traced_down (known : bare → n < w.links.length) (down : ¬ w.Up n) : Traced n bare w :=
  ⟨known,fun _ _ up => absurd up down,fun _ _ _ up => absurd up down⟩

theorem traced_absent (fresh : ¬ bare) (absent : w.links.length ≤ n) : Traced n bare w where
  known was := absurd was fresh
  wired _ there := absurd (List.getElem?_eq_some_iff.mp there).1 (Nat.not_lt.mpr absent)
  bare was := absurd was fresh

theorem Traced.same (traced : Traced n bare w) {now : Prop} (same : now ↔ bare) : Traced n now w := by
  rw [propext same]
  exact traced

theorem bareAfter_same {m : Move} (mends : ¬ v.Mends n m) (drops : ¬ v.Drops n m) :
    v.BareAfter n bare m ↔ bare := by
  simp [BareAfter,mends,drops]

theorem bareAfter_mended {m : Move} (mends : v.Mends n m) (drops : ¬ v.Drops n m) :
    v.BareAfter n bare m ↔ False := by
  simp [BareAfter,mends,drops]

theorem Drops.known {m : Move} (drops : v.Drops n m) : n < v.links.length := by
  obtain ⟨_,_,l,_,_,_,_,there,_,_⟩ := drops
  exact (List.getElem?_eq_some_iff.mp there).1

theorem Traced.later {m : Move} (traced : Traced n bare v) (after : v.BareAfter n bare m) :
    n < v.links.length := by
  rcases after with ⟨was,_⟩ | drops
  · exact traced.known was
  · exact drops.known

theorem JobsKept.tearing (jobs : JobsKept v w) (torn : v.Tearing n) : w.Tearing n := by
  obtain ⟨id,task,there,tears⟩ := torn
  obtain ⟨u,found,same⟩ := jobs id task there
  exact ⟨id,u,found,same ▸ tears⟩

def Sized (v w : World) : Prop := w.links.length = v.links.length

instance : Frame Sized where
  refl _ := rfl
  trans first next := next.trans first

theorem sized_sameEntities (entities : SameEntities v w) : Sized v w := congrArg List.length entities.links

theorem perform_sized (w : World) (number : Nat) (c : Command) (single : ∀ ms, c ≠ .advance ms) :
    Sized w (w.perform number c).2 := by
  refine perform_keeps (fun noMore => sized_sameEntities noMore.toSameEntities) (fun still => still.toQuiet.size) w
    number c single (fun o _ => ?_) (fun _ on k _ _ => ?_) (fun _ k _ _ => ?_)
  · exact congrArg List.length (change_around w o).links
  · exact (setLive_handsOutOnly none k on w).size
  · exact (kill_handsOutOnly none k w).size

theorem turn_sized (w : World) (id : Nat) (settled : ∀ task, w.tasks[id]? = some (some task) →
      task.aborted = false → Settled task.job) : Sized w (w.turn id) := by
  refine turn_keeps sized_sameEntities w id fun task there active => ?_
  exact (resume_handsOutOnly id task.job (settled task there active) (w.taken id)).size

/-- The hook and the mode of the link stay, and every task keeps its job. -/
structure KeepsHookAndJobs (n : Nat) (v w : World) : Prop extends KeepsHook n v w where
  jobs : JobsKept v w

instance (n : Nat) : Frame (KeepsHookAndJobs n) where
  refl w := ⟨Frame.refl w,Frame.refl w⟩
  trans first next :=
    ⟨Frame.trans first.toKeepsHook next.toKeepsHook,Frame.trans first.jobs next.jobs⟩

theorem keepsHookAndJobs_still (still : Still v w) : KeepsHookAndJobs n v w :=
  ⟨keepsHook_quiet still.toQuiet,still.tasks.jobs⟩

/-- A link that is up is the only one that does anything. -/
structure Alone (n : Nat) (w : World) : Prop extends Staged w where
  known : n < w.links.length
  up : w.Up n
  others : ∀ k, w.held k = true → k ≠ n → w.isDead k = true
  current : ∀ registry r, w.registries[registry]? = some r → w.current? registry = some n

theorem Alone.buried (alone : Alone n w) {k : Nat} (held : w.held k = true) (other : k ≠ n) :
    Buried k w := ⟨alone.toCalm,alone.others k held other⟩

theorem Alone.link (alone : Alone n w) : ∃ l, w.links[n]? = some l ∧ l.dead = false := by
  refine ⟨_,List.getElem?_eq_getElem alone.known,?_⟩
  rw [← Bool.not_eq_true]
  intro dead
  have gone := isDead_iff.mpr ⟨_,List.getElem?_eq_getElem alone.known,dead⟩
  rw [alone.up.2] at gone
  contradiction

/-- A command that does not switch the link leaves it as it was, unless it kills it. -/
theorem perform_keepsHookAndJobs (alone : Alone n w) {number : Nat} {c : Command}
    (single : ∀ ms, c ≠ .advance ms)
    (switched : ¬ w.Mends n (.perform number c)) (up : (w.perform number c).2.Up n) :
    KeepsHookAndJobs n w (w.perform number c).2 := by
  refine perform_keeps (fun noMore => ⟨keepsHook_sameEntities noMore.toSameEntities,noMore.jobs⟩)
    keepsHookAndJobs_still w number c
    single (fun o _ => ?_) (fun name on k same found => ?_) fun name k same found => ?_
  · have around := change_around w o
    exact ⟨keepsHook_around around,around.jobs⟩
  · have other : k ≠ n := by
      rintro rfl
      exact switched (.inl ⟨number,name,on,by rw [same],found⟩)
    obtain ⟨l,there,dead⟩ := (alone.buried (held_of_lookup found) other).link
    rw [exec_setLive_dead alone.toCalm there dead]
    exact Frame.refl w
  · by_cases here : k = n
    · subst here same
      have buried := (perform_kill number alone.toCalm alone.known found).2
      have dead := buried.dead
      rw [up.2] at dead
      contradiction
    · obtain ⟨l,there,dead⟩ := (alone.buried (held_of_lookup found) here).link
      rw [exec_kill_dead alone.toCalm there dead]
      exact Frame.refl w

theorem perform_mends (alone : Alone n w) {number : Nat} {c : Command}
    (switched : w.Mends n (.perform number c)) : (w.perform number c).2.Mended n := by
  rcases switched with ⟨_,name,on,same,found⟩ | ⟨_,_,same,_⟩
  · cases same
    obtain ⟨l,there,alive⟩ := alone.link
    have seen := alone.toStaged.seen there
    obtain ⟨lookups,notices,done⟩ :=
      exec_setLive alone.toCalm there alive on fun _ => by rw [seen]; rfl
    have may := mayDress_switch alone.toCalm there alive on
    rw [perform_setLive found,act_world,done]
    intro k found
    cases on with
    | true => exact .inr (.inr ((hooked_dress alone.toStaged may lookups notices).mpr rfl))
    | false =>
      simp only [log,dress,List.getElem?_set_self alone.known,Option.some.injEq] at found
      subst found
      exact .inr (.inl rfl)
  · cases same

theorem perform_drops {number : Nat} {c : Command} : ¬ w.Drops n (.perform number c) := by
  rintro ⟨_,_,_,same,_⟩
  cases same

theorem traced_perform (traced : Traced n bare w) {number : Nat} {c : Command}
    (later : Later w (w.perform number c).2) (single : ∀ ms, c ≠ .advance ms)
    (alone : n < w.links.length → w.Up n → Alone n w) :
    Traced n (w.BareAfter n bare (.perform number c)) (w.perform number c).2 := by
  by_cases known : n < w.links.length
  · by_cases up : (w.perform number c).2.Up n
    · have alone := alone known (later.up known up)
      by_cases switched : w.Mends n (.perform number c)
      · exact (traced_mended (perform_mends alone switched)).same
          (bareAfter_mended switched perform_drops)
      · have kept := perform_keepsHookAndJobs alone single switched up
        exact (traced.keepsHook later kept.toKeepsHook kept.jobs.tearing).same
          (bareAfter_same switched perform_drops)
    · exact traced_down (fun _ => Nat.lt_of_lt_of_le known later.size) up
  · refine traced_absent (fun after => known (traced.later after)) ?_
    rw [perform_sized w number c single]
    exact Nat.not_lt.mp known

theorem tearing_others (id : Nat)
    (others : ∀ i (task : Task), i ≠ id → v.tasks[i]? = some (some task) →
      ∃ u, w.tasks[i]? = some (some u) ∧ u.job = task.job)
    (plain : ∀ task, v.tasks[id]? = some (some task) → ¬ task.job.Tears n) (torn : v.Tearing n) :
    w.Tearing n := by
  obtain ⟨i,task,there,tears⟩ := torn
  have other : i ≠ id := by
    rintro rfl
    exact plain task there tears
  obtain ⟨u,found,same⟩ := others i task other there
  exact ⟨i,u,found,same ▸ tears⟩

variable {id : Nat} {task : Task}

theorem mends_turn (there : w.tasks[id]? = some (some task)) :
    w.Mends n (.turn id) ↔ task.aborted = false ∧ task.job.teardown? = some n ∧
      (w.turn id).tasks[id]? = some none := by
  constructor
  · rintro (⟨_,_,_,same,_⟩ | ⟨_,_,same,found,active,tears,ended⟩)
    · cases same
    · cases same
      rw [there] at found
      cases found
      exact ⟨active,tears,ended⟩
  · rintro ⟨active,tears,ended⟩
    exact .inr ⟨id,task,rfl,there,active,tears,ended⟩

theorem drops_turn (there : w.tasks[id]? = some (some task)) :
    w.Drops n (.turn id) ↔ task.aborted = true ∧ task.job.Tears n ∧
      ∃ l, w.links[n]? = some l ∧ l.live = true ∧ ¬ w.Hooked n := by
  constructor
  · rintro ⟨_,_,l,same,found,aborted,tears,known,live,off⟩
    cases same
    rw [there] at found
    cases found
    exact ⟨aborted,tears,l,known,live,off⟩
  · rintro ⟨aborted,tears,l,known,live,off⟩
    exact ⟨id,task,l,rfl,there,aborted,tears,known,live,off⟩

theorem aborted_keepsHook (there : w.tasks[id]? = some (some task)) (aborted : task.aborted = true) :
    KeepsHook n w (w.turn id) := by
  rw [turn_aborted there aborted]
  exact Frame.trans (keepsHook_sameEntities (sameEntities_taken w id))
    (keepsHook_sameEntities (aborted_sameEntities (w.taken id) id task))

/-- A turn of a task that is dropped, which leaves the link bare if the task is a teardown of it and
has cleared its hook. -/
theorem traced_aborted (traced : Traced n bare w) (later : Later w (w.turn id))
    (there : w.tasks[id]? = some (some task)) (aborted : task.aborted = true) :
    Traced n (w.BareAfter n bare (.turn id)) (w.turn id) := by
  have mends : ¬ w.Mends n (.turn id) := by
    rw [mends_turn there,aborted]
    simp
  have apart : KeepsHook n w (w.turn id) := aborted_keepsHook there aborted
  have others (i : Nat) (other : i ≠ id) : (w.turn id).tasks[i]? = w.tasks[i]? := by
    rw [turn_aborted there aborted]
    exact aborted_others other (w.taken id) task
  by_cases drops : w.Drops n (.turn id)
  · obtain ⟨_,_,l,known,live,off⟩ := (drops_turn there).mp drops
    have size := (List.getElem?_eq_some_iff.mp known).1
    refine ⟨fun _ => Nat.lt_of_lt_of_le size later.size,fun _ _ _ _ _ => .inr (.inr drops),?_⟩
    intro _ k found _
    obtain ⟨j,before,mode,_⟩ := apart.link k found
    rw [known] at before
    cases before
    exact ⟨mode.symm.trans live,fun hooked => off (apart.hooked hooked)⟩
  · refine (traced.loosens later apart.toLoosens fun k found up live off => ?_).same
      (bareAfter_same mends drops)
    obtain ⟨j,before,mode,_⟩ := apart.link k found
    have bare : ¬ w.Hooked n := fun hooked => off (apart.kept hooked)
    have known := (List.getElem?_eq_some_iff.mp before).1
    rcases traced.wired j before (later.up known up) (mode.trans live) bare with torn | was
    · refine .inl (tearing_others id (fun i t other found => ?_) (fun t found tears => ?_) torn)
      · exact ⟨t,(others i other).trans found,rfl⟩
      · rw [there] at found
        cases found
        exact drops ((drops_turn there).mpr ⟨aborted,tears,j,before,mode.trans live,bare⟩)
    · exact .inr was

/-- A turn of a teardown, which waits on with the hook off, or ends and mends the link. -/
theorem turn_tears (staged : w.Staged) (known : n < w.links.length)
    (there : w.tasks[id]? = some (some task)) (active : task.aborted = false)
    (settled : Settled task.job) (teardown : task.job.teardown? = some n) :
    (∃ (t : Task), (w.turn id).tasks[id]? = some (some t) ∧ t.job.Tears n ∧ Loosens n w (w.turn id)) ∨
      (w.turn id).tasks[id]? = some none ∧ (w.turn id).Mended n := by
  have taken : KeepsHook n w (w.taken id) := keepsHook_sameEntities (sameEntities_taken w id)
  have settles := resume_settles (staged.entities (sameEntities_taken w id)) known id settled teardown
  have work := resume_handsOutOnly id task.job settled (w.taken id)
  have turned := turn_active there active
  rcases ran : exec (resume id task.job) (w.taken id) with ⟨r,u⟩
  rw [ran] at settles work turned
  obtain ⟨t,still,-⟩ := work.tasks.jobs id task there
  have entities := conclude_sameEntities id task.label r u
  rw [turned]
  rcases settles with ⟨job,rfl,tears,loose⟩ | ⟨ended,mended⟩
  · have looser : Loosens n w (conclude id task.label (.ok (.pause job),u)) :=
      Frame.trans taken.toLoosens (Frame.trans loose (keepsHook_sameEntities entities).toLoosens)
    exact .inl ⟨{ t with job },conclude_paused still task.label job,tears,looser⟩
  · have gone := conclude_ended (List.getElem?_eq_some_iff.mp still).1 task.label ended
    exact .inr ⟨gone,mended.keepsHook (keepsHook_sameEntities entities)⟩

theorem traced_teardown (traced : Traced n bare w) (alone : Alone n w) (later : Later w (w.turn id))
    (there : w.tasks[id]? = some (some task)) (active : task.aborted = false)
    (settled : Settled task.job) (teardown : task.job.teardown? = some n) :
    Traced n (w.BareAfter n bare (.turn id)) (w.turn id) := by
  have drops : ¬ w.Drops n (.turn id) := by
    rw [drops_turn there,active]
    simp
  rcases turn_tears alone.toStaged alone.known there active settled teardown with
    ⟨t,paused,tears,loose⟩ | ⟨gone,mended⟩
  · have mends : ¬ w.Mends n (.turn id) := by
      rw [mends_turn there,paused]
      simp
    refine (traced.loosens later loose fun _ _ _ _ _ => ?_).same (bareAfter_same mends drops)
    exact .inl ⟨id,t,paused,tears⟩
  · have mends := (mends_turn there).mpr ⟨active,teardown,gone⟩
    exact (traced_mended mended).same (bareAfter_mended mends drops)

theorem traced_plain (traced : Traced n bare w) (later : Later w (w.turn id))
    (there : w.tasks[id]? = some (some task)) (active : task.aborted = false)
    (plain : task.job.teardown? ≠ some n) (apart : KeepsHook n w (w.turn id))
    (others : ∀ i (t : Task), i ≠ id → w.tasks[i]? = some (some t) →
      ∃ u, (w.turn id).tasks[i]? = some (some u) ∧ u.job = t.job) :
    Traced n (w.BareAfter n bare (.turn id)) (w.turn id) := by
  have mends : ¬ w.Mends n (.turn id) := by
    rw [mends_turn there]
    exact fun mends => plain mends.2.1
  have drops : ¬ w.Drops n (.turn id) := by
    rw [drops_turn there,active]
    simp
  refine (traced.keepsHook later apart fun torn => ?_).same (bareAfter_same mends drops)
  refine tearing_others id others (fun t found tears => ?_) torn
  rw [there] at found
  cases found
  exact plain tears.1

/-- Every task but a teardown of the link leaves its hook alone. -/
theorem settled_keepsHook (alone : Alone n w) (there : w.tasks[id]? = some (some task))
    (active : task.aborted = false) (settled : Settled task.job) (plain : task.job.teardown? ≠ some n) :
    KeepsHook n w (w.turn id) := by
  have kept : KeepsHook n (w.taken id) (exec (resume id task.job) (w.taken id)).2 := by
    refine resume_keepsHook id settled fun k tears => ?_
    have held := held_of_task there (Job.holds_of_teardown tears)
    have other : k ≠ n := fun same => plain (same ▸ tears)
    exact (silent_sameEntities (sameEntities_taken w id) (alone.buried held other)).1
  rw [turn_active there active]
  exact Frame.trans (keepsHook_sameEntities (sameEntities_taken w id))
    (Frame.trans kept (keepsHook_sameEntities (conclude_sameEntities id task.label _ _)))

/-- A creation is refused as long as the link is up. -/
theorem refused_turn (alone : Alone n w) (there : w.tasks[id]? = some (some task))
    (active : task.aborted = false) (fresh : ¬ Settled task.job) :
    task.job.teardown? = none ∧ ∃ e, w.turn id = conclude id task.label (.error e,w.taken id) := by
  obtain ⟨registry,name,job⟩ := not_settled fresh
  have refused : ∃ e, exec (register registry) (w.taken id) = (.error e,w.taken id) := by
    rcases known : (w.taken id).registries[registry]? with _ | r
    · exact ⟨_,exec_register_none known⟩
    · have current : (w.taken id).current? registry = some n := alone.current registry r known
      rw [exec_register known (alone.toCalm.spared .factory),current]
      split
      · exact ⟨_,rfl⟩
      · exact ⟨_,rfl⟩
  obtain ⟨e,failed⟩ := refused
  refine ⟨by rw [job]; rfl,e,?_⟩
  rw [turn_active there active,job]
  exact congrArg (conclude id task.label) (resumeCreate_refused failed)

theorem refused_keepsHook {e : Fault} (turned : w.turn id = conclude id task.label (.error e,w.taken id)) :
    KeepsHook n w (w.turn id) := by
  rw [turned]
  exact Frame.trans (keepsHook_sameEntities (sameEntities_taken w id))
    (keepsHook_sameEntities (conclude_sameEntities id task.label _ _))

theorem traced_settled (traced : Traced n bare w) (alone : Alone n w) (later : Later w (w.turn id))
    (there : w.tasks[id]? = some (some task)) (active : task.aborted = false)
    (settled : Settled task.job) : Traced n (w.BareAfter n bare (.turn id)) (w.turn id) := by
  by_cases teardown : task.job.teardown? = some n
  · exact traced_teardown traced alone later there active settled teardown
  · have apart := settled_keepsHook alone there active settled teardown
    have work := resume_handsOutOnly id task.job settled (w.taken id)
    refine traced_plain traced later there active teardown apart fun i t other found => ?_
    rw [turn_active there active,conclude_others other]
    exact work.tasks.jobs i t found

theorem traced_refused (traced : Traced n bare w) (alone : Alone n w) (later : Later w (w.turn id))
    (there : w.tasks[id]? = some (some task)) (active : task.aborted = false)
    (fresh : ¬ Settled task.job) : Traced n (w.BareAfter n bare (.turn id)) (w.turn id) := by
  obtain ⟨plain,e,turned⟩ := refused_turn alone there active fresh
  have other : task.job.teardown? ≠ some n := by simp [plain]
  refine traced_plain traced later there active other (refused_keepsHook turned) fun i t away found => ?_
  rw [turned,conclude_others away]
  exact ⟨t,found,rfl⟩

theorem traced_made (traced : Traced n bare w) (staged : w.Staged) (absent : w.links.length ≤ n)
    (there : w.tasks[id]? = some (some task)) (active : task.aborted = false)
    (fresh : ¬ Settled task.job) : Traced n (w.BareAfter n bare (.turn id)) (w.turn id) := by
  obtain ⟨registry,name,job⟩ := not_settled fresh
  have never : w.BareAfter n bare (.turn id) ↔ False :=
    iff_false_intro fun after => Nat.not_lt.mpr absent (traced.later after)
  refine Traced.same ?_ never
  have turned := turn_active there active
  rw [job] at turned
  dsimp only [resume] at turned
  have staged : (w.taken id).Staged := staged.entities (sameEntities_taken w id)
  have size : (w.taken id).links.length = w.links.length := rfl
  rcases register_cases registry (staged.toCalm.spared .factory) with
    ⟨e,refused⟩ | ⟨r,known,_,registered⟩
  · rw [turned,resumeCreate_refused refused]
    refine traced_absent not_false ?_
    rw [(conclude_sameEntities id task.label _ _).links,size]
    exact absent
  · have made := staged_withLink staged known
    have inside : w.links.length < ((w.taken id).withLink registry r).links.length := by
      simp [withLink,size]
    have settles := setOut_settles made inside id registry name
    have work := setOut_keeps (tends_handsOutOnly w.links.length).serves id registry name trivial
      ((w.taken id).withLink registry r)
    rw [resumeCreate_made registered,size] at turned
    rcases ran : exec (setOut id registry name w.links.length)
      ((w.taken id).withLink registry r) with ⟨answer,u⟩
    rw [ran] at settles work turned
    obtain ⟨t,still,-⟩ := work.tasks.jobs id task there
    have entities := conclude_sameEntities id task.label answer u
    by_cases here : n = w.links.length
    · subst here
      rcases settles with ⟨next,rfl,tears,_⟩ | ⟨_,mended⟩
      · have paused := conclude_paused still task.label next
        rw [← turned] at paused
        exact ⟨False.elim,fun _ _ _ _ _ => .inl ⟨id,{ t with job := next },paused,tears⟩,False.elim⟩
      · rw [turned]
        exact traced_mended (mended.keepsHook (keepsHook_sameEntities entities))
    · refine traced_absent not_false ?_
      rw [turned,entities.links,work.size]
      simp only [withLink,List.length_append,List.length_singleton,size]
      omega

theorem traced_turn (traced : Traced n bare w) (staged : w.Staged) (later : Later w (w.turn id))
    (alone : n < w.links.length → w.Up n → Alone n w) :
    Traced n (w.BareAfter n bare (.turn id)) (w.turn id) := by
  -- a link that is not there yet can only come from a creation that registers it in this turn
  by_cases known : n < w.links.length
  · by_cases up : (w.turn id).Up n
    · have alone := alone known (later.up known up)
      rcases there : w.tasks[id]?.join with _ | task
      · have mends : ¬ w.Mends n (.turn id) := by
          rintro (⟨_,_,_,same,_⟩ | ⟨_,_,same,found,_⟩)
          · cases same
          · cases same
            simp [found] at there
        have drops : ¬ w.Drops n (.turn id) := by
          rintro ⟨_,_,_,same,found,_⟩
          cases same
          simp [found] at there
        rw [turn_idle there] at later ⊢
        exact (traced.keepsHook later (keepsHook_sameEntities (sameEntities_taken w id)) fun torn => torn).same
          (bareAfter_same mends drops)
      · have there := Option.join_eq_some_iff.mp there
        cases aborted : task.aborted with
        | true => exact traced_aborted traced later there aborted
        | false =>
          by_cases settled : Settled task.job
          · exact traced_settled traced alone later there aborted settled
          · exact traced_refused traced alone later there aborted settled
    · exact traced_down (fun _ => Nat.lt_of_lt_of_le known later.size) up
  · by_cases settled : ∀ task, w.tasks[id]? = some (some task) → task.aborted = false →
        Settled task.job
    · refine traced_absent (fun after => known (traced.later after)) ?_
      rw [turn_sized w id settled]
      exact Nat.not_lt.mp known
    · simp only [Classical.not_forall] at settled
      obtain ⟨task,there,active,fresh⟩ := settled
      exact traced_made traced staged (Nat.not_lt.mp known) there active fresh

end World

variable {s : Setting} {c : Config}

theorem alone_of_up {w : World} {n : Nat} (onStage : s.OnStage c)
    (reached : Reaches Move.Steady s.start w) (up : w.Up n) : Alone n w where
  toStaged := staged_of_reached reached (start_staged onStage)
  known := (unharmed_of_reached (reached.mono fun _ steady => steady.calm .factory)).holds n up.1
  up := up
  others k held other := by
    rw [← Bool.not_eq_false]
    intro alive
    have one := current_of_up onStage reached up
    rw [current_of_up onStage reached ⟨held,alive⟩] at one
    exact other (Option.some.inj one)
  current registry r there := by
    have size := one_registry onStage reached
    have inside := (List.getElem?_eq_some_iff.mp there).1
    obtain rfl : registry = 0 := by omega
    exact current_of_up onStage reached up

theorem live_of_hooked {w : World} {n : Nat} {l : Link} (staged : w.Staged) (there : w.links[n]? = some l)
    (hooked : w.Hooked n) : l.live = true := by
  obtain ⟨x,widget,hook⟩ := hooked
  obtain ⟨k,found,-,-,live⟩ := staged.tied 0 x n widget hook staged.alive
  rw [there] at found
  cases found
  exact live

theorem traced_move {n : Nat} {bare : Prop} {w : World} {m : Move} (onStage : s.OnStage c)
    (reached : Reaches Move.Steady s.start w) (steady : m.Steady) (single : m.Single)
    (traced : Traced n bare w) : Traced n (w.BareAfter n bare m) (w.move m) := by
  have fine := reached.mono fun _ steady => steady.calm .factory
  have later := (move_course w m (steady.calm .factory) single (unharmed_of_reached fine)).2
  have alone (_ : n < w.links.length) (up : w.Up n) := alone_of_up onStage reached up
  cases m with
  | perform number c =>
    exact traced_perform traced later (fun ms same => single number ms (by rw [same])) alone
  | turn id =>
    exact traced_turn traced (staged_of_reached reached (start_staged onStage)) later alone
  | arrive now =>
    have mends : ¬ w.Mends n (.arrive now) := by simp [Mends]
    have drops : ¬ w.Drops n (.arrive now) := by simp [Drops]
    have apart : KeepsHook n w (w.move (.arrive now)) := keepsHook_sameEntities { SameEntities.refl w with }
    exact (traced.keepsHook later apart fun torn => torn).same (bareAfter_same mends drops)

theorem traced_run {n : Nat} {bare : Prop} {w : World} {moves : List Move} (onStage : s.OnStage c)
    (reached : Reaches Move.Steady s.start w) (fine : ∀ m ∈ moves, m.Steady ∧ m.Single)
    (traced : Traced n bare w) : Traced n (LeftBare n bare w moves) (w.run moves) := by
  induction moves generalizing w bare with
  | nil => exact traced
  | cons m rest ih =>
    obtain ⟨steady,single⟩ := fine m List.mem_cons_self
    have next : Reaches Move.Steady w (w.move m) := ⟨[m],by simpa using steady,rfl⟩
    exact ih (Frame.trans reached next) (fun k member => fine k (List.mem_cons_of_mem m member))
      (traced_move onStage reached steady single traced)

/-- Live mode means that the hook is on, but for what a dropped teardown leaves behind. With one registry
whose editor stays, and as long as no collaborator crashes: whenever no teardown of a link that is held
and not dead is under way, the link is in live mode if and only if the widget carries its hook, exactly
unless a teardown of it was dropped while it waited with the hook off, and since then the link has not
been switched nor has another teardown of it come to its end. Waiting is told here as the turns that it
comes to. -/
theorem live_is_hooked_unless_left_bare (s : Setting) (c : Config) (onStage : s.OnStage c) (w : World)
    (reached : Reaches Move.Steady s.start w) :
    (∃ moves, (∀ m ∈ moves, m.Steady ∧ m.Single) ∧ w = s.start.run moves) ∧
      ∀ moves, (∀ m ∈ moves, m.Steady ∧ m.Single) → w = s.start.run moves →
        ∀ n l, w.links[n]? = some l → w.Up n → ¬ w.Tearing n →
          ((l.live = true ↔ w.Hooked n) ↔ ¬ LeftBare n False s.start moves) := by
  refine ⟨reached.singly fun _ => Move.Internal.steady,?_⟩
  rintro moves fine rfl n l there up idle
  have traced : Traced n (LeftBare n False s.start moves) (s.start.run moves) :=
    traced_run onStage (Frame.refl _) fine (traced_absent not_false (Nat.zero_le n))
  have staged := staged_of_reached reached (start_staged onStage)
  constructor
  · intro wired bare
    obtain ⟨live,off⟩ := traced.bare bare l there up
    exact off (wired.mp live)
  · intro fine
    refine ⟨fun live => ?_,live_of_hooked staged there⟩
    refine Classical.byContradiction fun off => ?_
    exact (traced.wired l there up live off).elim idle fine

theorem not_tearing {w : World} (ended : ∀ t, some t ∈ w.tasks → t.job.teardown? = none) (n : Nat) :
    ¬ w.Tearing n := by
  rintro ⟨id,task,there,tears,_⟩
  rw [ended task (List.mem_of_getElem? there)] at tears
  cases tears

/-- The model of the one link is busy, and the call that tears it down is dropped while it waits. -/
def dropping : List Move :=
  [.perform 0 (.create "a" 0),.turn 0,.turn 1,.turn 0,.perform 1 (.outside (.busy 0 100)),
    .perform 2 (.uncache "a"),.turn 2,.perform 3 (.abort 2),.turn 2]

def droppedTeardown : World := ({} : Setting).start.run dropping

theorem dropping_steady : ∀ m ∈ dropping, m.Steady ∧ m.Single := by
  simp [dropping,Move.Steady,Outside.Steady,Move.Single]

theorem droppedTeardown_idle : ¬ droppedTeardown.Tearing 0 := by
  have jobs : droppedTeardown.tasks.map (Option.bind · fun t => t.job.teardown?) =
      [none,none,none,none] := by rfl
  refine not_tearing (fun t member => ?_) 0
  have listed := List.mem_map_of_mem (f := (Option.bind · fun t => t.job.teardown?)) member
  rw [jobs] at listed
  simpa using listed

theorem live_without_hook :
    Reaches Move.Steady ({} : Setting).start droppedTeardown ∧
      droppedTeardown.names.lookup "a" = some 0 ∧ droppedTeardown.Up 0 ∧ ¬ droppedTeardown.Tearing 0 ∧
      (∃ l, droppedTeardown.links[0]? = some l ∧ l.live = true) ∧ ¬ droppedTeardown.Hooked 0 := by
  have bare : droppedTeardown.widgets[0]?.map Widget.hook = some none := by rfl
  refine ⟨⟨dropping,fun m member => (dropping_steady m member).1,rfl⟩,by rfl,⟨rfl,rfl⟩,
    droppedTeardown_idle,⟨_,rfl,rfl⟩,?_⟩
  rintro ⟨x,widget,hook⟩
  rw [widget] at bare
  simp [hook] at bare

/-- The link is switched to live mode afterwards. -/
def switching : List Move := dropping ++ [.perform 4 (.setLive "a" true)]

def switchedAgain : World := ({} : Setting).start.run switching

theorem wired_after_switch :
    Reaches Move.Steady ({} : Setting).start switchedAgain ∧ switchedAgain.Up 0 ∧
      ¬ switchedAgain.Tearing 0 ∧
      ∃ l, switchedAgain.links[0]? = some l ∧ (l.live = true ↔ switchedAgain.Hooked 0) := by
  have fine : ∀ m ∈ switching, m.Steady ∧ m.Single := by
    intro m member
    rcases List.mem_append.mp member with before | last
    · exact dropping_steady m before
    · obtain rfl := List.mem_singleton.mp last
      simp [Move.Steady,Move.Single]
  have reached : Reaches Move.Steady ({} : Setting).start switchedAgain :=
    ⟨switching,fun m member => (fine m member).1,rfl⟩
  have up : switchedAgain.Up 0 := ⟨rfl,rfl⟩
  have idle : ¬ switchedAgain.Tearing 0 := droppedTeardown_idle
  obtain ⟨-,wired⟩ := live_is_hooked_unless_left_bare {} {} ⟨rfl,rfl,rfl⟩ switchedAgain reached
  refine ⟨reached,up,idle,_,rfl,(wired switching fine rfl 0 _ rfl up idle).mpr ?_⟩
  -- the switch mends what the drop left bare
  rintro (⟨_,unmended⟩ | drops)
  · exact unmended (.inl ⟨4,"a",true,rfl,rfl⟩)
  · exact perform_drops drops

end EditorLink
