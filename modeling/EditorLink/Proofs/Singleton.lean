import EditorLink.Proofs.Holding
import EditorLink.Proofs.Move
import EditorLink.Proofs.Refusal

/-! One link at a time. A registry remembers only the last link it made; that no other one of its
links is both held and not dead is because a link that nobody holds is never held again, and a dead
one stays dead. -/
namespace EditorLink

namespace World

/-- A link that will never be up again. -/
structure Gone (w : World) (n : Nat) : Prop where
  known : n < w.links.length
  down : w.isDead n = true ∨ w.held n = false

structure Unharmed (w : World) : Prop where
  spared : .factory ∉ w.sites
  intact : ∀ r ∈ w.registries, r.poisoned = false
  known : ∀ registry n, w.lastOf registry = some n → n < w.links.length
  holds : ∀ n, w.held n = true → n < w.links.length

/-- What any course of events leaves true. -/
structure Later (v w : World) : Prop where
  size : v.links.length ≤ w.links.length
  dead : ∀ n, v.isDead n = true → w.isDead n = true
  held : ∀ n, w.held n = true → v.held n = true ∨ v.links.length ≤ n
  registries : w.registries.length = v.registries.length
  last : ∀ registry n, v.lastOf registry = some n → w.lastOf registry = some n ∨ w.Gone n
  fresh : ∀ n, v.links.length ≤ n → n < w.links.length →
    (∃ registry, w.lastOf registry = some n) ∨ w.Gone n

theorem Later.gone {v w : World} (later : Later v w) {n : Nat} (gone : v.Gone n) : w.Gone n where
  known := Nat.lt_of_lt_of_le gone.known later.size
  down := by
    rcases gone.down with dead | unheld
    · exact .inl (later.dead n dead)
    · rcases now : w.held n with _ | _
      · exact .inr rfl
      · rcases later.held n now with before | fresh
        · rw [unheld] at before
          contradiction
        · exact absurd gone.known (Nat.not_lt.mpr fresh)

theorem Later.refl (w : World) : Later w w :=
  ⟨Nat.le_refl _,fun _ => id,fun _ => .inl,rfl,fun _ _ => .inl,
    fun _ new known => absurd known (Nat.not_lt.mpr new)⟩

theorem Later.trans {u v w : World} (first : Later u v) (next : Later v w) : Later u w where
  size := Nat.le_trans first.size next.size
  dead n dead := next.dead n (first.dead n dead)
  held n held := by
    rcases next.held n held with before | fresh
    · exact first.held n before
    · exact .inr (Nat.le_trans first.size fresh)
  registries := next.registries.trans first.registries
  last registry n was := by
    rcases first.last registry n was with still | gone
    · exact next.last registry n still
    · exact .inr (next.gone gone)
  fresh n new known := by
    by_cases between : n < v.links.length
    · rcases first.fresh n new between with ⟨registry,last⟩ | gone
      · exact (next.last registry n last).imp_left fun still => ⟨registry,still⟩
      · exact .inr (next.gone gone)
    · exact next.fresh n (Nat.not_lt.mp between) known

/-- Nothing is harmed on the way, and the later world is one of the same course. -/
def Course (v w : World) : Prop := Unharmed v → Unharmed w ∧ Later v w

instance : Frame Course where
  refl w unharmed := ⟨unharmed,Later.refl w⟩
  trans first next unharmed := by
    obtain ⟨between,before⟩ := first unharmed
    obtain ⟨after,rest⟩ := next between
    exact ⟨after,before.trans rest⟩

theorem course_of {v w : World} (registries : w.registries = v.registries)
    (size : w.links.length = v.links.length)
    (dead : ∀ n, v.isDead n = true → w.isDead n = true)
    (sites : .factory ∉ v.sites → .factory ∉ w.sites)
    (held : ∀ n, w.held n = true → v.held n = true) : Course v w := by
  intro unharmed
  have last (registry : Nat) : w.lastOf registry = v.lastOf registry := by
    rw [lastOf,lastOf,registries]
  refine ⟨⟨sites unharmed.spared,?_,?_,?_⟩,⟨Nat.le_of_eq size.symm,dead,?_,?_,?_,?_⟩⟩
  · rw [registries]
    exact unharmed.intact
  · intro registry n was
    rw [last] at was
    rw [size]
    exact unharmed.known registry n was
  · intro n now
    rw [size]
    exact unharmed.holds n (held n now)
  · exact fun n now => .inl (held n now)
  · rw [registries]
  · exact fun registry n was => .inl ((last registry).trans was)
  · exact fun n new known => absurd (size ▸ known) (Nat.not_lt.mpr new)

theorem held_congr {v w : World} (names : w.names = v.names) (tasks : w.tasks = v.tasks) (n : Nat) :
    w.held n = v.held n := by
  rw [held,held,names,tasks]

theorem course_aside {v w : World} (registries : w.registries = v.registries)
    (links : w.links = v.links) (sites : w.sites = v.sites) (names : w.names = v.names)
    (tasks : w.tasks = v.tasks) : Course v w := by
  refine course_of registries (by rw [links]) ?_ ?_ ?_
  · intro n dead
    rw [isDead,links]
    exact dead
  · rw [sites]
    exact id
  · intro n now
    rw [held_congr names tasks] at now
    exact now

theorem HandsOutOnly.held_back {link : Option Nat} {u v w : World} (handsOut : HandsOutOnly link u v)
    (names : w.names = v.names)
    (tasks : ∀ t, some t ∈ w.tasks → some t ∈ v.tasks ∨ t.job.link? = link) {n : Nat}
    (now : w.held n = true) : u.held n = true ∨ link = some n := by
  rcases held_iff.mp now with ⟨name,member⟩ | ⟨t,member,same⟩
  · rw [names] at member
    rcases handsOut.names _ member with old | given
    · exact .inl (held_iff.mpr (.inl ⟨name,old⟩))
    · exact .inr given
  · rcases tasks t member with kept | changed
    · rcases handsOut.tasks.mem kept with old | free
      · exact .inl (held_iff.mpr (.inr ⟨t,old,same⟩))
      · rw [same] at free
        contradiction
    · exact .inr (changed.symm.trans same)

theorem HandsOutOnly.course {link : Option Nat} {u v w : World} (handsOut : HandsOutOnly link u v)
    (holds : ∀ n, link = some n → u.held n = true) (registries : w.registries = v.registries)
    (links : w.links = v.links) (sites : w.sites = v.sites) (names : w.names = v.names)
    (tasks : ∀ t, some t ∈ w.tasks → some t ∈ v.tasks ∨ t.job.link? = link) : Course u w := by
  refine course_of (registries.trans handsOut.registries) (by rw [links,handsOut.size]) ?_ ?_ ?_
  · intro n dead
    rw [isDead,links]
    exact handsOut.dead n dead
  · rw [sites,handsOut.sites]
    exact id
  · exact fun n now => (handsOut.held_back names tasks now).elim id (holds n)

theorem HandsOutOnly.course_plain {link : Option Nat} {v w : World} (handsOut : HandsOutOnly link v w)
    (holds : ∀ n, link = some n → v.held n = true) : Course v w :=
  handsOut.course holds rfl rfl rfl rfl fun _ => .inl

theorem course_of_holders {v w : World} (registries : w.registries = v.registries)
    (links : w.links = v.links) (sites : .factory ∉ v.sites → .factory ∉ w.sites)
    (names : ∀ p ∈ w.names, v.held p.2 = true)
    (tasks : ∀ t n, some t ∈ w.tasks → t.job.link? = some n → v.held n = true) : Course v w := by
  refine course_of registries (by rw [links]) (fun n dead => ?_) sites fun n now => ?_
  · rw [isDead,links]
    exact dead
  · rcases held_iff.mp now with ⟨name,member⟩ | ⟨t,member,same⟩
    · exact names _ member
    · exact tasks t n member same

theorem lastOf_withLink {w : World} {registry : Nat} {r : Registry}
    (there : w.registries[registry]? = some r) (other : Nat) :
    (w.withLink registry r).lastOf other =
      if other = registry then some w.links.length else w.lastOf other := by
  rw [lastOf,lastOf,withLink,List.getElem?_modify]
  by_cases here : registry = other
  · subst here
    simp [there]
  · simp [here,Ne.symm here]

/-- The last link of a registry that tells of none is down. -/
theorem down_of_free {w : World} {registry n : Nat} (intact : ∀ r ∈ w.registries, r.poisoned = false)
    (free : w.current? registry = none) (was : w.lastOf registry = some n)
    (held : w.held n = true) : w.isDead n = true := by
  obtain ⟨r,there,last⟩ := Option.bind_eq_some_iff.mp was
  have fine := intact r (List.mem_of_getElem? there)
  simpa [current?,there,last,fine,held] using free

/-- The new link takes the place of one that was free to be replaced, and only its maker holds it. -/
theorem made_course {u v w : World} {registry : Nat} {r : Registry}
    (there : u.registries[registry]? = some r) (free : u.current? registry = none)
    (handsOut : HandsOutOnly (some u.links.length) (u.withLink registry r) v)
    (registries : w.registries = v.registries) (links : w.links = v.links)
    (sites : w.sites = v.sites) (names : w.names = v.names)
    (tasks : ∀ t, some t ∈ w.tasks → some t ∈ v.tasks ∨ t.job.link? = some u.links.length) :
    Course u w := by
  intro unharmed
  have size : w.links.length = u.links.length + 1 := by
    rw [links,handsOut.size]
    simp [withLink]
  have table := registries.trans handsOut.registries
  have last (other : Nat) : w.lastOf other =
      if other = registry then some u.links.length else u.lastOf other := by
    rw [lastOf,table]
    exact lastOf_withLink there other
  have dead (n : Nat) (gone : u.isDead n = true) : w.isDead n = true := by
    rw [isDead,links]
    exact handsOut.dead n (isDead_withLink registry r gone)
  have held (n : Nat) (now : w.held n = true) : u.held n = true ∨ n = u.links.length := by
    rcases handsOut.held_back names tasks now with before | given
    · exact .inl before
    · exact .inr (Option.some.inj given).symm
  constructor
  · refine ⟨?_,fun k member => ?_,fun other n was => ?_,fun n now => ?_⟩
    · rw [sites,handsOut.sites]
      exact unharmed.spared
    · rw [table] at member
      obtain ⟨old,known,-,same⟩ := mem_withLink member
      exact same.trans (unharmed.intact old known)
    · rw [last] at was
      split at was
      · cases was
        omega
      · have := unharmed.known other n was
        omega
    · rcases held n now with before | fresh
      · have := unharmed.holds n before
        omega
      · omega
  · refine ⟨by omega,dead,fun n now => ?_,?_,fun other n was => ?_,fun n new known => ?_⟩
    · exact (held n now).imp_right fun fresh => Nat.le_of_eq fresh.symm
    · rw [table,withLink,List.length_modify]
    · by_cases here : other = registry
      · subst here
        have known := unharmed.known other n was
        refine .inr ⟨by omega,?_⟩
        rcases now : w.held n with _ | _
        · exact .inr rfl
        · rcases held n now with before | fresh
          · exact .inl (dead n (down_of_free unharmed.intact free was before))
          · omega
      · left
        rw [last,if_neg here,was]
    · obtain rfl : n = u.links.length := by omega
      exact .inl ⟨registry,by rw [last,if_pos rfl]⟩

theorem fresh_course {w : World} {id registry : Nat} {name : String} {label : Option Nat} :
    Course w (conclude id label (Action.exec (Action.resumeCreate id registry name none) w)) := by
  intro unharmed
  rcases Action.register_cases registry unharmed.spared with ⟨e,refused⟩ | ⟨r,there,free,registered⟩
  · rw [Action.resumeCreate_refused refused]
    obtain ⟨registries,links,sites,names,tasks⟩ := conclude_same id label (.error e) w
    have none := (Frame.refl w : HandsOutOnly none w w)
    refine none.course nofun registries links sites names (fun t member => ?_) unharmed
    exact .inl ((tasks t member).elim (fun old => old) nofun)
  · have handsOut := Action.setOut_keeps (Action.tends_handsOutOnly w.links.length).serves id registry name trivial
      (w.withLink registry r)
    have creates := Action.setOut_creates id registry name w.links.length (w.withLink registry r)
    rw [Action.resumeCreate_made registered]
    rcases ran : Action.exec (Action.setOut id registry name w.links.length)
      (w.withLink registry r) with ⟨s,v⟩
    rw [ran] at handsOut
    obtain ⟨registries,links,sites,names,tasks⟩ := conclude_same id label s v
    refine made_course there free handsOut registries links sites names (fun t member => ?_) unharmed
    rcases tasks t member with old | paused
    · exact .inl old
    · exact .inr (creates (.pause t.job) v (ran.trans (by rw [paused])))

theorem aborted_course (w : World) (id : Nat) (task : Task) : Course w (w.pollAborted id task) := by
  have dropped (v : World) (same : v.registries = w.registries ∧ v.links = w.links ∧
      v.sites = w.sites ∧ v.names = w.names ∧ v.tasks = w.tasks) : Course w (v.remove id) := by
    obtain ⟨registries,links,sites,names,tasks⟩ := same
    refine (Frame.refl w : HandsOutOnly none w w).course (by simp) registries links sites names ?_
    exact fun t member => .inl (tasks ▸ mem_remove member)
  unfold pollAborted
  split
  · exact dropped w ⟨rfl,rfl,rfl,rfl,rfl⟩
  · exact dropped _ (report_same w _ _)

theorem settled_course {w : World} {id : Nat} {task : Task} (there : w.tasks[id]? = some (some task))
    (settled : Action.Settled task.job) :
    Course w (conclude id task.label (Action.exec (Action.resume id task.job) w)) := by
  have handsOut := Action.resume_handsOutOnly id task.job settled w
  have leads := Action.resume_yieldsNext id task.job w
  rcases ran : Action.exec (Action.resume id task.job) w with ⟨r,v⟩
  rw [ran] at handsOut
  obtain ⟨registries,links,sites,names,tasks⟩ := conclude_same id task.label r v
  refine handsOut.course (fun n => held_of_task there) registries links sites names fun t member => ?_
  rcases tasks t member with old | paused
  · exact .inl old
  · exact .inr ((leads (.pause t.job) v (ran.trans (by rw [paused]))).link settled)

theorem turn_course (w : World) (id : Nat) : Course w (w.turn id) := by
  have taken : Course w (w.taken id) := course_aside rfl rfl rfl rfl rfl
  rcases there : w.tasks[id]?.join with _ | task
  · rw [turn_idle there]
    exact taken
  · have there := Option.join_eq_some_iff.mp there
    refine Frame.trans taken ?_
    rcases aborted : task.aborted with _ | _
    · rw [turn_active there aborted]
      by_cases settled : Action.Settled task.job
      · exact settled_course (w := w.taken id) there settled
      · obtain ⟨registry,name,fresh⟩ := Action.not_settled settled
        rw [fresh]
        exact fresh_course
    · rw [turn_aborted there aborted]
      exact aborted_course (w.taken id) id task

theorem change_course (w : World) (o : Outside) (spares : o ≠ .crash .factory true) :
    Course w (w.change o).2 := by
  have around := change_around w o
  refine course_of_holders around.registries around.links (change_sites w o spares) ?_ ?_
  · intro p member
    rw [around.names] at member
    exact held_iff.mpr (.inl ⟨p.1,member⟩)
  · intro t n member same
    rcases around.tasks with tasks | ⟨m,e,x,alive,there,hook,held,tasks⟩
    · rw [tasks] at member
      exact held_iff.mpr (.inr ⟨t,member,same⟩)
    · rw [tasks] at member
      rcases List.mem_append.mp member with old | new
      · exact held_iff.mpr (.inr ⟨t,old,same⟩)
      · obtain rfl : t = { label := none, job := .update m .fresh } := by simpa using new
        cases same
        exact held

theorem course_holdsNoMore {v w : World} (noMore : HoldsNoMore v w) : Course v w := by
  refine course_of noMore.registries (by rw [noMore.links]) (fun n dead => ?_) ?_ noMore.held
  · rw [isDead,noMore.links]
    exact dead
  · rw [noMore.sites]
    exact id

theorem course_still {v w : World} (still : Still v w) : Course v w :=
  (still.toQuiet.handsOutOnly none).course_plain nofun

theorem perform_course (w : World) (number : Nat) (c : Command)
    (spares : c ≠ .outside (.crash .factory true)) (single : ∀ ms, c ≠ .advance ms) :
    Course w (w.perform number c).2 := by
  have held {name : String} {n m : Nat} (found : w.names.lookup name = some n)
      (same : some n = some m) : w.held m = true := by
    cases same
    exact held_of_lookup found
  refine perform_keeps course_holdsNoMore course_still w number c single (fun o same => ?_)
    (fun name on n _ found => ?_) (fun name n _ found => ?_)
  · exact change_course w o fun crash => spares (by rw [same,crash])
  · exact (Action.setLive_handsOutOnly (some n) n on w).course_plain fun m => held found
  · exact (Action.kill_handsOutOnly (some n) n w).course_plain fun m => held found

theorem move_course (w : World) (m : Move) (spares : m.Spares .factory) (single : m.Single) :
    Course w (w.move m) := by
  cases m with
  | perform number c =>
    exact perform_course w number c (fun same => spares number (by rw [same]))
      fun ms same => single number ms (by rw [same])
  | turn id => exact turn_course w id
  | arrive now => exact course_aside rfl rfl rfl rfl rfl

theorem reaches_course {v w : World} (reached : Reaches (Move.Spares .factory) v w) : Course v w :=
  run_keeps (fun _ internal => internal.spares .factory) move_course reached

theorem start_unharmed (s : Setting) : s.start.Unharmed where
  spared := nofun
  intact r member := by
    obtain ⟨config,_,rfl⟩ := List.mem_map.mp member
    rfl
  known registry n was := by
    have none : s.start.lastOf registry = none := by
      simp only [lastOf,Setting.start,List.getElem?_map]
      cases s.configs[registry]? <;> rfl
    rw [none] at was
    cases was
  holds := nofun

/-- The registry made the link on some way to this world. -/
def MadeBy (s : Setting) (w : World) (registry n : Nat) : Prop :=
  ∃ v, Reaches (Move.Spares .factory) s.start v ∧ Reaches (Move.Spares .factory) v w ∧
    v.lastOf registry = some n

variable {s : Setting} {w : World}

theorem unharmed_of_reached (reached : Reaches (Move.Spares .factory) s.start w) : w.Unharmed :=
  (reaches_course reached (start_unharmed s)).1

theorem MadeBy.last {registry n : Nat} (made : MadeBy s w registry n) (up : w.Up n) :
    w.lastOf registry = some n := by
  obtain ⟨v,before,after,last⟩ := made
  have later := (reaches_course after (unharmed_of_reached before)).2
  rcases later.last registry n last with still | gone
  · exact still
  · rcases gone.down with dead | unheld
    · rw [up.2] at dead
      contradiction
    · rw [up.1] at unheld
      contradiction

theorem current?_iff_up (reached : Reaches (Move.Spares .factory) s.start w) (registry n : Nat) :
    w.current? registry = some n ↔ MadeBy s w registry n ∧ w.Up n := by
  constructor
  · intro current
    obtain ⟨last,up⟩ := current?_spec current
    exact ⟨⟨w,reached,Frame.refl w,last⟩,up⟩
  · rintro ⟨made,held,alive⟩
    obtain ⟨r,there,last⟩ := Option.bind_eq_some_iff.mp (made.last ⟨held,alive⟩)
    have intact := (unharmed_of_reached reached).intact r (List.mem_of_getElem? there)
    simp [current?,there,last,intact,held,alive]

/-- Whatever a creation says at its end, once it has its link it is not that there is one already. -/
theorem not_refused {n id label time : Nat} {u : World} {a : Action Next}
    (never : Action.NeverRefuses a)
    (creates : Action.Yields (Next.Creates n) a) (keeps : Action.Keeps (HandsOutOnly (some n)) a) :
    (conclude id (some label) (Action.exec a u)).events ≠
      u.events ++ [⟨time,label,.failed .alreadyExists⟩] := by
  have going := never u
  have kept := keeps u
  rcases ran : Action.exec a u with ⟨r,v⟩
  rw [ran] at going kept
  intro same
  rw [conclude_events,kept.events] at same
  have said := List.append_cancel_left same
  rcases r with (e | _) | job | report?
  · simp only [reportOf,Option.map_some,Option.toList_some,List.cons.injEq,Event.mk.injEq,
      Report.failed.injEq] at said
    exact going (by rw [said.1.2.2])
  · cases said
  · cases said
  · obtain ⟨model,rfl⟩ := creates u _ v ran
    cases said

theorem made_not_refused {id label registry time : Nat} {name : String} {n : Nat} {u : World}
    (made : Action.exec (Action.register registry) w = (.ok n,u)) (events : u.events = w.events) :
    (conclude id (some label) (Action.exec (Action.resumeCreate id registry name none) w)).events ≠
      w.events ++ [⟨time,label,.failed .alreadyExists⟩] := by
  rw [Action.resumeCreate_made made,← events]
  exact not_refused (Action.setOut_neverRefuses id registry name n)
    (Action.setOut_creates id registry name n)
    (Action.setOut_keeps (Action.tends_handsOutOnly n).serves id registry name)

/-- A creation is refused on account of another link exactly while the registry tells of one. -/
theorem create_refused_iff (unharmed : w.Unharmed) {id label registry : Nat} {name : String}
    {teardown : Option (Nat × Nat)}
    (there : w.tasks[id]? = some (some { label := some label, job := .create registry name teardown })) :
    (poll id w).events = w.events ++ [⟨w.now,label,.failed .alreadyExists⟩] ↔
      teardown = none ∧ (w.current? registry).isSome := by
  rw [poll_active there rfl]
  dsimp only [Action.resume]
  rcases teardown with _ | ⟨n,promise⟩
  · rcases known : w.registries[registry]? with _ | r
    · rw [Action.resumeCreate_refused (Action.exec_register_none known),conclude_events]
      simp [reportOf,current?,known]
    · have intact := unharmed.intact r (List.mem_of_getElem? known)
      have registered := Action.exec_register known unharmed.spared
      rw [if_neg (by simp [intact])] at registered
      split at registered
      · rename_i other
        rw [Action.resumeCreate_refused registered,conclude_events]
        simp [reportOf,other]
      · rename_i free
        exact ⟨fun said => absurd said (made_not_refused registered rfl),fun h => absurd h.2 free⟩
  · rw [Action.resumeCreate_waiting]
    have begun : Except.ok promise ≠ Except.error LinkError.alreadyExists := by simp
    have never := Action.goOn_neverRefuses id registry name n begun
    have creates := Action.goOn_creates id registry name n (.ok promise)
    have keeps := Action.goOn_keeps (Action.tends_handsOutOnly n).serves id registry name (.ok promise)
    refine ⟨fun said => absurd said (not_refused never creates keeps),fun h => ?_⟩
    cases h.1

end World

open World

/-- One link at a time. Whatever callers do in whatever order, as long as the factory of models does
not crash: of the links a registry has made at most one is held and not dead, it is the one the
registry tells of, and a creation is refused exactly if there is one at the moment it registers. -/
theorem one_link_at_a_time (s : Setting) (w : World)
    (reached : Reaches (Move.Spares .factory) s.start w) (registry : Nat) :
    (∀ m n, MadeBy s w registry m → w.Up m → MadeBy s w registry n → w.Up n → m = n) ∧
      (∀ n, w.current? registry = some n ↔ MadeBy s w registry n ∧ w.Up n) ∧
      ∀ id label name teardown,
        w.tasks[id]? = some (some { label := some label, job := .create registry name teardown }) →
        ((w.turn id).events = w.events ++ [⟨w.now,label,.failed .alreadyExists⟩] ↔
          teardown = none ∧ ∃ n, MadeBy s w registry n ∧ w.Up n) := by
  have current := current?_iff_up reached registry
  refine ⟨?_,current,?_⟩
  · intro m n madeM upM madeN upN
    have one := (current m).mpr ⟨madeM,upM⟩
    have other := (current n).mpr ⟨madeN,upN⟩
    rw [one] at other
    exact Option.some.inj other
  · intro id label name teardown there
    have unharmed := unharmed_of_reached reached
    have taken : Unharmed (w.taken id) :=
      ⟨unharmed.spared,unharmed.intact,unharmed.known,unharmed.holds⟩
    have refused := create_refused_iff taken there
    refine refused.trans (and_congr_right fun _ => ?_)
    refine Option.isSome_iff_exists.trans (exists_congr fun n => ?_)
    exact current n

/-- Two creations of one registry, of which the first one has had a turn. -/
def twoCreations : World :=
  ({} : Setting).start.run [.perform 0 (.create "a" 0),.perform 1 (.create "b" 0),.turn 0]

theorem second_creation_is_refused :
    Reaches (Move.Spares .factory) ({} : Setting).start twoCreations ∧
      (twoCreations.turn 1).events =
        twoCreations.events ++ [⟨twoCreations.now,1,.failed .alreadyExists⟩] := by
  have reached : Reaches (Move.Spares .factory) ({} : Setting).start twoCreations :=
    ⟨_,by simp [Move.Spares],rfl⟩
  obtain ⟨-,current,refused⟩ := one_link_at_a_time {} twoCreations reached 0
  have first : twoCreations.current? 0 = some 0 := by rfl
  exact ⟨reached,(refused 1 1 "b" none rfl).mpr ⟨rfl,0,(current 0).mp first⟩⟩

end EditorLink
