import EditorLink.Proofs.Follow
import EditorLink.Proofs.Handling

/-! Who holds which link. A turn of a task may hand its own link to a caller, and a creation makes a
new link; otherwise nobody comes to hold a link that nobody held before. -/
namespace EditorLink

namespace World

theorem held_iff {w : World} {n : Nat} :
    w.held n = true ↔ (∃ name, (name,n) ∈ w.names) ∨ ∃ t, some t ∈ w.tasks ∧ t.job.link? = some n := by
  simp only [held,Bool.or_eq_true,List.any_eq_true,Option.any_eq_true,decide_eq_true_eq]
  constructor
  · rintro (⟨⟨name,link⟩,member,same⟩ | ⟨task?,member,t,found,same⟩)
    · exact .inl ⟨name,same ▸ member⟩
    · exact .inr ⟨t,found ▸ member,same⟩
  · rintro (⟨name,member⟩ | ⟨t,member,same⟩)
    · exact .inl ⟨(name,n),member,rfl⟩
    · exact .inr ⟨some t,member,t,rfl,same⟩

theorem held_of_lookup {w : World} {name : String} {n : Nat} (found : w.names.lookup name = some n) :
    w.held n = true := by
  obtain ⟨before,after,split,_⟩ := List.lookup_eq_some_iff.mp found
  exact held_iff.mpr (.inl ⟨name,by simp [split]⟩)

theorem held_of_task {w : World} {id n : Nat} {task : Task} (there : w.tasks[id]? = some (some task))
    (holds : task.job.link? = some n) : w.held n = true :=
  held_iff.mpr (.inr ⟨task,List.mem_of_getElem? there,holds⟩)

theorem isDead_iff {w : World} {n : Nat} :
    w.isDead n = true ↔ ∃ l, w.links[n]? = some l ∧ l.dead = true := by
  simp [isDead,Option.any_eq_true]

/-- A link is up while something holds it and it is not dead. -/
def Up (w : World) (n : Nat) : Prop := w.held n = true ∧ w.isDead n = false

def lastOf (w : World) (registry : Nat) : Option Nat := (w.registries[registry]?).bind Registry.last

theorem current?_spec {w : World} {registry n : Nat} (current : w.current? registry = some n) :
    w.lastOf registry = some n ∧ w.Up n := by
  simp only [current?,lastOf,Option.bind_eq_bind,Option.bind_eq_some_iff] at current ⊢
  obtain ⟨r,there,current⟩ := current
  split at current
  · cases current
  · obtain ⟨m,last,current⟩ := Option.bind_eq_some_iff.mp current
    split at current
    · rename_i up
      cases current
      exact ⟨⟨r,there,last⟩,by simpa [Up] using up⟩
    · cases current

/-- What may come of work done for one link: the links stay, a dead one stays dead, and at most that
one link is handed to a caller. -/
structure HandsOutOnly (link : Option Nat) (v w : World) : Prop where
  registries : w.registries = v.registries
  sites : w.sites = v.sites
  events : w.events = v.events
  size : w.links.length = v.links.length
  dead : ∀ n, v.isDead n = true → w.isDead n = true
  names : ∀ p ∈ w.names, p ∈ v.names ∨ link = some p.2
  tasks : StopsAdded v w

instance (link : Option Nat) : Frame (HandsOutOnly link) where
  refl _ := ⟨rfl,rfl,rfl,rfl,fun _ => id,fun _ => .inl,.of_eq rfl⟩
  trans first next :=
    { registries := next.registries.trans first.registries
      sites := next.sites.trans first.sites
      events := next.events.trans first.events
      size := next.size.trans first.size
      dead := fun n dead => next.dead n (first.dead n dead)
      names := fun p member => (next.names p member).elim (first.names p) .inr
      tasks := first.tasks.trans next.tasks }

theorem Quiet.isDead {v w : World} (quiet : Quiet v w) (n : Nat) : w.isDead n = v.isDead n := by
  have alike : (fun l : Link => l.dead) = fun l => l.core.dead := rfl
  have same := congrArg (fun links => (links[n]?).any Link.dead) quiet.links
  simpa [World.isDead,List.getElem?_map,Option.any_map,Function.comp_def,Link.core] using same

theorem Quiet.handsOutOnly {v w : World} (quiet : Quiet v w) (link : Option Nat) : HandsOutOnly link v w where
  registries := quiet.registries
  sites := quiet.sites
  events := quiet.events
  size := quiet.size
  dead n dead := (quiet.isDead n).trans dead
  names _ member := .inl (quiet.names ▸ member)
  tasks := quiet.tasks

theorem Handling.handsOutOnly {n : Nat} {sets : Bool} {v w : World} (handling : Handling n sets v w)
    (link : Option Nat) : HandsOutOnly link v w where
  registries := by rw [handling.same]
  sites := by rw [handling.same]
  events := by rw [handling.same]
  size := handling.size
  dead m dead := by
    obtain ⟨l,there,gone⟩ := isDead_iff.mp dead
    obtain ⟨k,found,-,handled⟩ := handling.links m l there
    exact isDead_iff.mpr ⟨k,found,handled.dead gone⟩
  names _ member := .inl (by rw [handling.same] at member; exact member)
  tasks := .of_eq (by rw [handling.same])

/-- The world with one more link, made by the given registry. -/
def withLink (w : World) (registry : Nat) (r : Registry) : World :=
  { w with
    models := w.models ++ [w.blueprint.build w.now]
    links := w.links ++
      [{ model := w.models.length, config := r.config, slot := { id := r.config.editorId }
         live := r.config.live }]
    notices := w.notices ++ [.created r.config.editorId]
    registries := w.registries.modify registry fun r => { r with last := some w.links.length } }

/-- The factory of the registry has crashed. -/
def withoutFactory (w : World) (registry : Nat) : World :=
  { w with registries := w.registries.modify registry fun r => { r with poisoned := true } }

theorem isDead_withLink {w : World} {n : Nat} (registry : Nat) (r : Registry)
    (dead : w.isDead n = true) : (w.withLink registry r).isDead n = true := by
  obtain ⟨l,there,ended⟩ := isDead_iff.mp dead
  have known := (List.getElem?_eq_some_iff.mp there).1
  exact isDead_iff.mpr ⟨l,(List.getElem?_append_left known).trans there,ended⟩

theorem mem_withLink {w : World} {registry : Nat} {r k : Registry}
    (member : k ∈ (w.withLink registry r).registries) :
    ∃ old ∈ w.registries, k.config = old.config ∧ k.poisoned = old.poisoned := by
  obtain ⟨i,found⟩ := List.mem_iff_getElem?.mp member
  simp only [withLink,List.getElem?_modify] at found
  obtain ⟨old,was,same⟩ := Option.map_eq_some_iff.mp found
  refine ⟨old,List.mem_of_getElem? was,?_⟩
  split at same <;> exact same ▸ ⟨rfl,rfl⟩

end World

namespace Action
open World

theorem exec_register_there {w : World} {registry : Nat} {r : Registry}
    (there : w.registries[registry]? = some r) :
    exec (register registry) w =
      if r.poisoned then (.error (.error .lockPoisoned),w)
      else if (w.current? registry).isSome then (.error (.error .alreadyExists),w)
      else if .factory ∈ w.sites then (.error .crash,w.withoutFactory registry)
      else (.ok w.links.length,w.withLink registry r) := by
  rw [register,exec_bind_ok (exec_get w)]
  simp only [there]
  split
  · rw [exec_fail]
  · split
    · rw [exec_fail]
    · split
      · rename_i wild
        rw [exec_bind,exec_onCrash,exec_visit_wild wild]
        rfl
      · rename_i spared
        rw [exec_bind,exec_onCrash,exec_visit spared]
        rfl

theorem exec_register {w : World} {registry : Nat} {r : Registry}
    (there : w.registries[registry]? = some r) (spared : .factory ∉ w.sites) :
    exec (register registry) w =
      if r.poisoned then (.error (.error .lockPoisoned),w)
      else if (w.current? registry).isSome then (.error (.error .alreadyExists),w)
      else (.ok w.links.length,w.withLink registry r) := by
  rw [exec_register_there there,if_neg spared]

theorem exec_register_none {w : World} {registry : Nat} (missing : w.registries[registry]? = none) :
    exec (register registry) w = (.error .crash,w) := by
  rw [register,exec_bind_ok (exec_get w)]
  simp only [missing]
  rw [exec_crash]

/-- What is kept when a factory crashes and when a link is made is kept by every registration. -/
theorem register_keeps {R : World → World → Prop} [Frame R] (registry : Nat)
    (crashed : ∀ w : World, R w (w.withoutFactory registry))
    (made : ∀ (w : World) r, w.registries[registry]? = some r → R w (w.withLink registry r)) :
    Keeps R (register registry) := by
  intro w
  rcases there : w.registries[registry]? with _ | r
  · rw [exec_register_none there]
    exact Frame.refl w
  · rw [exec_register_there there]
    split
    · exact Frame.refl w
    · split
      · exact Frame.refl w
      · split
        · exact crashed w
        · exact made w r there

/-- A registration is refused and leaves nothing behind, or makes a link where there is none. -/
theorem register_cases (registry : Nat) {w : World} (spared : .factory ∉ w.sites) :
    (∃ e, exec (register registry) w = (.error e,w)) ∨
      ∃ r, w.registries[registry]? = some r ∧ w.current? registry = none ∧
        exec (register registry) w = (.ok w.links.length,w.withLink registry r) := by
  rcases there : w.registries[registry]? with _ | r
  · exact .inl ⟨_,exec_register_none there⟩
  · have registered := exec_register there spared
    split at registered
    · exact .inl ⟨_,registered⟩
    · split at registered
      · exact .inl ⟨_,registered⟩
      · rename_i free
        exact .inr ⟨r,rfl,by simpa using free,registered⟩

variable (link : Option Nat)

theorem setLive_handsOutOnly (n : Nat) (live : Bool) : Keeps (HandsOutOnly link) (setLive n live) :=
  (setLive_handling live).mono fun handling => handling.handsOutOnly link

theorem kill_handsOutOnly (n : Nat) : Keeps (HandsOutOnly link) (kill n) :=
  kill_handling.mono fun handling => handling.handsOutOnly link

theorem bindName_handsOutOnly (n : Nat) (name : String) (w : World) :
    HandsOutOnly (some n) w (w.bindName name n) :=
  { (Frame.refl w : HandsOutOnly (some n) w w) with
    names := by
      intro p member
      rcases List.mem_cons.mp member with rfl | old
      · exact .inr rfl
      · exact .inl (List.mem_filter.mp old).1 }

theorem handOver_handsOutOnly (n : Nat) (name : String) : Keeps (HandsOutOnly (some n)) (handOver n name) :=
  handOver_keeps name (fun w => (quiet_note w _).handsOutOnly _) (bindName_handsOutOnly n name)

theorem tends_handsOutOnly (n : Nat) : Tends n (HandsOutOnly (some n)) where
  frame := inferInstance
  still still := still.toQuiet.handsOutOnly _
  clearHook := clearHook_handling.mono fun handling => handling.handsOutOnly _
  restore outcome := (restore_handling outcome).mono fun handling => handling.handsOutOnly _
  kill := kill_handsOutOnly _ n
  handOver := handOver_handsOutOnly n

theorem resume_handsOutOnly (id : Nat) (job : Job) (settled : Settled job) :
    Keeps (HandsOutOnly job.link?) (resume id job) := by
  refine resume_keeps id settled (fun still => still.toQuiet.handsOutOnly _) ?_ fun n holds => ?_
  · intro n phase _
    exact (resumeUpdate_quiet id n phase).mono fun quiet => quiet.handsOutOnly _
  · rw [holds]
    exact tends_handsOutOnly n

end Action
end EditorLink
