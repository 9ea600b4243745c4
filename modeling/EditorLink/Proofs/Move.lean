import EditorLink.Proofs.Holding
import EditorLink.Proofs.Run

/-! What a single move comes to: a turn is the task's action and then a note of how it ended, and a
command is what it does to whatever it names. -/
namespace EditorLink

/-- A job as a command starts it. -/
def Job.AsStarted : Job → Prop
  | .update _ .fresh => True
  | .uncache _ none => True
  | .create _ _ none => True
  | .wait _ => True
  | .continuation _ => True
  | _ => False

/-- The registry that a creation is about. -/
def Job.registry? : Job → Option Nat
  | .create registry _ _ => some registry
  | _ => none

namespace World

/-- Only who holds what, and who waits for what, is different. -/
structure SameEntities (v w : World) : Prop where
  host : w.host = v.host
  widgets : w.widgets = v.widgets
  kept : w.kept = v.kept
  registries : w.registries = v.registries
  links : w.links = v.links
  models : w.models = v.models
  sites : w.sites = v.sites
  begun : w.updatesBegun = v.updatesBegun

theorem SameEntities.refl (w : World) : SameEntities w w := ⟨rfl,rfl,rfl,rfl,rfl,rfl,rfl,rfl⟩

/-- The entities are the same, no task loses its job, and no one gets hold of a link that nobody held. -/
structure HoldsNoMore (v w : World) : Prop extends SameEntities v w where
  jobs : JobsKept v w
  held : ∀ n, w.held n = true → v.held n = true

theorem HoldsNoMore.refl (w : World) : HoldsNoMore w w := ⟨SameEntities.refl w,Frame.refl w,fun _ => id⟩

theorem holdsNoMore_start (w : World) (number : Nat) (job : Job)
    (holds : ∀ n, job.link? = some n → w.held n = true) : HoldsNoMore w (w.start number job).2 where
  toSameEntities := { SameEntities.refl w with }
  jobs := jobsKept_append rfl
  held n now := by
    rcases held_iff.mp now with ⟨name,member⟩ | ⟨t,member,same⟩
    · exact held_iff.mpr (.inl ⟨name,member⟩)
    · rcases List.mem_append.mp member with old | new
      · exact held_iff.mpr (.inr ⟨t,old,same⟩)
      · obtain rfl : t = { label := some number, job } := by simpa using new
        exact holds n same

theorem holdsNoMore_bindName {w : World} {n : Nat} (held : w.held n = true) (name : String) :
    HoldsNoMore w (w.bindName name n) where
  toSameEntities := { SameEntities.refl w with }
  jobs _ t there := ⟨t,there,rfl⟩
  held k now := by
    rcases held_iff.mp now with ⟨other,member⟩ | kept
    · rcases List.mem_cons.mp member with same | old
      · cases same
        exact held
      · exact held_iff.mpr (.inl ⟨other,(List.mem_filter.mp old).1⟩)
    · exact held_iff.mpr (.inr kept)

theorem holdsNoMore_drop (w : World) (name : String) :
    HoldsNoMore w { w with names := w.names.filter fun p => p.1 ≠ name } where
  toSameEntities := { SameEntities.refl w with }
  jobs _ t there := ⟨t,there,rfl⟩
  held n now := by
    rcases held_iff.mp now with ⟨other,member⟩ | kept
    · exact held_iff.mpr (.inl ⟨other,(List.mem_filter.mp member).1⟩)
    · exact held_iff.mpr (.inr kept)

theorem holdsNoMore_abort (w : World) (label : Nat) : HoldsNoMore w (w.abort label) := by
  unfold abort
  split
  · exact HoldsNoMore.refl w
  · rename_i id _
    refine ⟨{ SameEntities.refl w with },fun i t there => ?_,fun n now => ?_⟩
    · by_cases here : id = i
      · exact ⟨{ t with aborted := true },by simp [here,there],rfl⟩
      · exact ⟨t,by simp [here,there],rfl⟩
    · rcases held_iff.mp now with named | ⟨t,member,same⟩
      · exact held_iff.mpr (.inl named)
      · obtain ⟨i,found⟩ := List.mem_iff_getElem?.mp member
        rw [List.getElem?_modify] at found
        obtain ⟨old?,there,turned⟩ := Option.map_eq_some_iff.mp found
        split at turned
        · obtain ⟨old,rfl,rfl⟩ := Option.map_eq_some_iff.mp turned
          exact held_iff.mpr (.inr ⟨old,List.mem_of_getElem? there,same⟩)
        · exact held_iff.mpr (.inr ⟨t,turned ▸ List.mem_of_getElem? there,same⟩)

theorem sameEntities_taken (w : World) (id : Nat) : SameEntities w (w.taken id) := { SameEntities.refl w with }

theorem sameEntities_remove (w : World) (id : Nat) : SameEntities w (w.remove id) := { SameEntities.refl w with }

theorem sameEntities_report (w : World) (label : Option Nat) (r : Report) : SameEntities w (w.report label r) := by
  unfold report
  split
  · exact { SameEntities.refl w with }
  · exact { SameEntities.refl w with begun := (still_note w rfl).begun }
  · exact SameEntities.refl w

theorem sameEntities_reported (w : World) (id : Nat) (label : Option Nat) (r : Report) :
    SameEntities w ((w.report label r).remove id) := { sameEntities_report w label r with }

theorem mem_remove {w : World} {id : Nat} {t : Task} (member : some t ∈ (w.remove id).tasks) :
    some t ∈ w.tasks := by
  obtain ⟨i,found⟩ := List.mem_iff_getElem?.mp member
  simp only [remove,List.getElem?_set] at found
  split at found
  · split at found
    · cases found
    · cases found
  · exact List.mem_of_getElem? found

theorem mem_setJob {w : World} {id : Nat} {job : Job} {t : Task}
    (member : some t ∈ (w.setJob id job).tasks) : some t ∈ w.tasks ∨ t.job = job := by
  obtain ⟨i,found⟩ := List.mem_iff_getElem?.mp member
  simp only [setJob,List.getElem?_modify,Option.map_eq_map,Option.map_eq_some_iff] at found
  obtain ⟨t?,there,same⟩ := found
  split at same
  · cases t? with
    | none => cases same
    | some old =>
      cases same
      exact .inr rfl
  · exact .inl (same ▸ List.mem_of_getElem? there)

theorem report_same (w : World) (label : Option Nat) (r : Report) :
    (w.report label r).registries = w.registries ∧ (w.report label r).links = w.links ∧
      (w.report label r).sites = w.sites ∧ (w.report label r).names = w.names ∧
      (w.report label r).tasks = w.tasks := by
  unfold report
  split <;> exact ⟨rfl,rfl,rfl,rfl,rfl⟩

/-- What a turn leaves once its action has come to an end or a pause. -/
def conclude (id : Nat) (label : Option Nat) : Except Fault Next × World → World
  | (.ok (.pause job),w) => w.setJob id job
  | (.ok (.finish none),w) => w.remove id
  | (.ok (.finish (some r)),w) => (w.report label r).remove id
  | (.error (.error e),w) => (w.report label (.failed e)).remove id
  | (.error .crash,w) => (w.report label .crashed).remove id

theorem poll_active {w : World} {id : Nat} {task : Task} (there : w.tasks[id]? = some (some task))
    (active : task.aborted = false) :
    poll id w = conclude id task.label (Action.exec (Action.resume id task.job) w) := by
  unfold poll
  simp only [there,active,Bool.false_eq_true,if_false,Action.exec]
  rcases (Action.resume id task.job).run.run w with ⟨r,v⟩
  rcases r with fault | next
  · cases fault <;> rfl
  · rcases next with job | report?
    · rfl
    · cases report? <;> rfl

/-- What is said of a task whose action came to this. -/
def reportOf : Except Fault Next → Option Report
  | .ok (.pause _) => none
  | .ok (.finish r) => r
  | .error (.error e) => some (.failed e)
  | .error .crash => some .crashed

theorem conclude_events (id label : Nat) (r : Except Fault Next) (w : World) :
    (conclude id (some label) (r,w)).events =
      w.events ++ ((reportOf r).map fun x => ⟨w.now,label,x⟩).toList := by
  rcases r with (e | _) | job | _ | r <;> simp [conclude,reportOf,report,remove,setJob]

/-- Nothing but the tasks may differ, and there only what the task goes on with. -/
theorem conclude_same (id : Nat) (label : Option Nat) (r : Except Fault Next) (w : World) :
    (conclude id label (r,w)).registries = w.registries ∧ (conclude id label (r,w)).links = w.links ∧
      (conclude id label (r,w)).sites = w.sites ∧ (conclude id label (r,w)).names = w.names ∧
      ∀ t, some t ∈ (conclude id label (r,w)).tasks →
        some t ∈ w.tasks ∨ r = .ok (.pause t.job) := by
  have removed (v : World) (same : v.registries = w.registries ∧ v.links = w.links ∧
      v.sites = w.sites ∧ v.names = w.names ∧ v.tasks = w.tasks) :
      (v.remove id).registries = w.registries ∧ (v.remove id).links = w.links ∧
        (v.remove id).sites = w.sites ∧ (v.remove id).names = w.names ∧
        ∀ t, some t ∈ (v.remove id).tasks → some t ∈ w.tasks ∨ r = .ok (.pause t.job) := by
    obtain ⟨registries,links,sites,names,tasks⟩ := same
    exact ⟨registries,links,sites,names,fun t member => .inl (tasks ▸ mem_remove member)⟩
  rcases r with (e | _) | job | _ | r
  · exact removed _ (report_same w label _)
  · exact removed _ (report_same w label _)
  · refine ⟨rfl,rfl,rfl,rfl,fun t member => ?_⟩
    rcases mem_setJob member with old | changed
    · exact .inl old
    · exact .inr (by rw [changed])
  · exact removed w ⟨rfl,rfl,rfl,rfl,rfl⟩
  · exact removed _ (report_same w label _)

theorem remove_others {id i : Nat} (other : i ≠ id) (w : World) :
    (w.remove id).tasks[i]? = w.tasks[i]? := List.getElem?_set_ne (Ne.symm other)

theorem reported_others {id i : Nat} (other : i ≠ id) (w : World) (label : Option Nat) (r : Report) :
    ((w.report label r).remove id).tasks[i]? = w.tasks[i]? := by
  rw [remove_others other,(report_same w label r).2.2.2.2]

theorem conclude_others {id i : Nat} (other : i ≠ id) (label : Option Nat) (r : Except Fault Next)
    (w : World) : (conclude id label (r,w)).tasks[i]? = w.tasks[i]? := by
  rcases r with (e | _) | job | _ | x
  · exact reported_others other w label _
  · exact reported_others other w label _
  · simp [conclude,setJob,Ne.symm other]
  · exact remove_others other w
  · exact reported_others other w label _

theorem conclude_paused {id : Nat} {w : World} {t : Task} (there : w.tasks[id]? = some (some t))
    (label : Option Nat) (job : Job) :
    (conclude id label (.ok (.pause job),w)).tasks[id]? = some (some { t with job }) := by
  simp [conclude,setJob,there]

theorem conclude_ended {id : Nat} {w : World} (there : id < w.tasks.length) (label : Option Nat)
    {r : Except Fault Next} (ended : ∀ job, r ≠ .ok (.pause job)) :
    (conclude id label (r,w)).tasks[id]? = some none := by
  have removed {v : World} (same : v.tasks = w.tasks) : (v.remove id).tasks[id]? = some none :=
    List.getElem?_set_self (by rw [same]; exact there)
  have reported (x : Report) : ((w.report label x).remove id).tasks[id]? = some none :=
    removed (report_same w label x).2.2.2.2
  rcases r with (e | _) | job | _ | x
  · exact reported _
  · exact reported _
  · exact absurd rfl (ended job)
  · exact removed rfl
  · exact reported _

theorem conclude_sameEntities (id : Nat) (label : Option Nat) (r : Except Fault Next) (w : World) :
    SameEntities w (conclude id label (r,w)) := by
  rcases r with (e | _) | job | _ | r
  · exact sameEntities_reported w id label _
  · exact sameEntities_reported w id label _
  · exact { SameEntities.refl w with }
  · exact sameEntities_remove w id
  · exact sameEntities_reported w id label _

theorem aborted_sameEntities (w : World) (id : Nat) (task : Task) : SameEntities w (w.pollAborted id task) := by
  unfold pollAborted
  split
  · exact sameEntities_remove w id
  · exact sameEntities_reported w id _ _

theorem aborted_others {id i : Nat} (other : i ≠ id) (w : World) (task : Task) :
    (w.pollAborted id task).tasks[i]? = w.tasks[i]? := by
  unfold pollAborted
  split
  · exact remove_others other w
  · exact reported_others other w _ _

theorem turn_idle {w : World} {id : Nat} (idle : w.tasks[id]?.join = none) :
    w.turn id = w.taken id := by
  rcases there : w.tasks[id]? with _ | _ | task
  · simp only [turn,poll,World.taken,there]
  · simp only [turn,poll,World.taken,there]
  · rw [there] at idle
    cases idle

theorem turn_aborted {w : World} {id : Nat} {task : Task} (there : w.tasks[id]? = some (some task))
    (aborted : task.aborted = true) : w.turn id = (w.taken id).pollAborted id task := by
  have there : (w.taken id).tasks[id]? = some (some task) := there
  simp only [turn,poll,there,aborted,if_true]

theorem turn_active {w : World} {id : Nat} {task : Task} (there : w.tasks[id]? = some (some task))
    (active : task.aborted = false) :
    w.turn id =
      conclude id task.label (Action.exec (Action.resume id task.job) (w.taken id)) :=
  poll_active (w := w.taken id) there active

/-- A task that changes nothing and ends with a report leaves that report. -/
theorem turn_reports {w : World} {id label : Nat} {task : Task} {r : Report} (there : w.tasks[id]? = some (some task))
    (active : task.aborted = false) (labelled : task.label = some label)
    (ran : Action.exec (Action.resume id task.job) (w.taken id) = (.ok (.finish (some r)),w.taken id)) :
    (w.turn id).tasks[id]? = some none ∧ (w.turn id).events = w.events ++ [⟨w.now,label,r⟩] := by
  have inside := (List.getElem?_eq_some_iff.mp there).1
  rw [turn_active there active,ran,labelled]
  exact ⟨conclude_ended (w := w.taken id) inside _ nofun,rfl⟩

theorem turn_keeps {R : World → World → Prop} [Frame R] (entities : ∀ {v w}, SameEntities v w → R v w)
    (w : World) (id : Nat)
    (body : ∀ task, w.tasks[id]? = some (some task) → task.aborted = false →
      R (w.taken id) (Action.exec (Action.resume id task.job) (w.taken id)).2) :
    R w (w.turn id) := by
  have taken : R w (w.taken id) := entities (sameEntities_taken w id)
  rcases there : w.tasks[id]?.join with _ | task
  · rw [turn_idle there]
    exact taken
  · have there := Option.join_eq_some_iff.mp there
    refine Frame.trans taken ?_
    rcases aborted : task.aborted with _ | _
    · have before := body task there aborted
      rw [turn_active there aborted]
      rcases ran : Action.exec (Action.resume id task.job) (w.taken id) with ⟨r,v⟩
      rw [ran] at before
      exact Frame.trans before (entities (conclude_sameEntities id task.label r v))
    · rw [turn_aborted there aborted]
      exact entities (aborted_sameEntities (w.taken id) id task)

theorem act_world {α : Type} (w : World) (a : Action α) (reply : α → Reply) :
    (w.act a reply).2 = (Action.exec a w).2 := by
  unfold act Action.exec
  rcases a.run.run w with ⟨(e | _) | x,v⟩ <;> rfl

theorem stopFor_world (w : World) (number link : Nat) (canSpawn : Bool) :
    ∃ handles, (w.stopFor number link canSpawn).2 =
      { (Action.exec (Action.startStop link canSpawn) w).2 with handles } := by
  unfold stopFor Action.exec
  rcases (Action.startStop link canSpawn).run.run w with ⟨(e | _) | promise,v⟩
  · exact ⟨v.handles,rfl⟩
  · exact ⟨v.handles,rfl⟩
  · exact ⟨_,rfl⟩

/-- The link that a command asks to have updated: its caller asks for that, or input that reaches the link. -/
def requestOf (w : World) : Command → Option Nat
  | .update name => w.names.lookup name
  | .outside (.type editor _ true) =>
    if w.alive editor then (w.widgets[editor]?.bind Widget.hook).filter w.held else none
  | _ => none

/-- What a command may come to. Most leave the world as it is or give it one more task. -/
inductive Does (w : World) (number : Nat) : Command → World → Prop
  | nothing (c : Command) : Does w number c w
  | outside (o : Outside) : Does w number (.outside o) (w.change o).2
  | started (c : Command) (job : Job) (called : job.AsStarted)
      (held : ∀ n, job.link? = some n → w.held n = true)
      (registered : ∀ registry, job.registry? = some registry → registry < w.registries.length)
      (requested : ∀ n phase, job = .update n phase → w.requestOf c = some n) :
      Does w number c (w.start number job).2
  | named (c : Command) (n : Nat) (name : String) (held : w.held n = true) :
      Does w number c (w.bindName name n)
  | dropped (name : String) :
      Does w number (.drop name) { w with names := w.names.filter fun n => n.1 ≠ name }
  | switched (name : String) (on : Bool) (n : Nat) (found : w.names.lookup name = some n) :
      Does w number (.setLive name on) (Action.exec (Action.setLive n on) w).2
  | killed (name : String) (n : Nat) (found : w.names.lookup name = some n) :
      Does w number (.kill name) (Action.exec (Action.kill n) w).2
  | stopped (name : String) (canSpawn : Bool) (n : Nat) (handles : List (Nat × Nat)) :
      Does w number (.stop name canSpawn)
        { (Action.exec (Action.startStop n canSpawn) w).2 with handles }
  | cancelled (handle promise : Nat) :
      Does w number (.cancel handle) (w.updatePromise promise Promise.cancel)
  | released (handle : Nat) (handles : List (Nat × Nat)) :
      Does w number (.dropHandle handle) { w with handles }
  | aborted (label : Nat) : Does w number (.abort label) (w.abort label)

theorem onLink_does {w : World} {number : Nat} {c : Command} {name : String} {f : Nat → Reply × World}
    (found : ∀ n, w.names.lookup name = some n → Does w number c (f n).2) :
    Does w number c (w.onLink name f).2 := by
  unfold onLink
  split
  · exact found _ ‹_›
  · exact .nothing c

theorem onHandle_does {w : World} {number : Nat} {c : Command} {handle : Nat}
    {f : Nat → Reply × World} (found : ∀ p, Does w number c (f p).2) :
    Does w number c (w.onHandle handle f).2 := by
  unfold onHandle
  split
  · exact found _
  · exact .nothing c

theorem onRegistry_does {w : World} {number : Nat} {c : Command} {registry : Nat}
    {f : Registry → Reply × World} (found : registry < w.registries.length → ∀ r, Does w number c (f r).2) :
    Does w number c (w.onRegistry registry f).2 := by
  unfold onRegistry
  split
  · rename_i r there
    exact found (List.getElem?_eq_some_iff.mp there).1 r
  · exact .nothing c

theorem perform_does (w : World) (number : Nat) (c : Command) (single : ∀ ms, c ≠ .advance ms) :
    Does w number c (w.perform number c).2 := by
  have looked {c : Command} {α : Type} {a : Action α} {reply : α → Reply} (reads : Action.Reads a) :
      Does w number c (w.act a reply).2 := by
    rw [act_world,reads w]
    exact .nothing c
  have held {name : String} {n : Nat} (found : w.names.lookup name = some n) (m : Nat)
      (same : some n = some m) : w.held m = true := by
    cases same
    exact held_of_lookup found
  cases c with
  | advance ms => exact absurd rfl (single ms)
  | outside o => exact .outside o
  | create name registry =>
    refine onRegistry_does fun known _ => .started _ _ trivial nofun (fun other same => ?_) nofun
    cases same
    exact known
  | current name registry =>
    refine onRegistry_does fun _ _ => ?_
    unfold currentFor
    split
    · exact .nothing _
    · rename_i n current
      cases name with
      | none => exact .nothing _
      | some name => exact .named _ n name (current?_spec current).2.1
  | registryConfig registry => exact onRegistry_does fun _ _ => .nothing _
  | live name => exact onLink_does fun n _ => looked (Action.reads_isLive n)
  | setLive name on =>
    refine onLink_does fun n found => ?_
    rw [act_world]
    exact .switched name on n found
  | kill name =>
    refine onLink_does fun n found => ?_
    rw [act_world]
    exact .killed name n found
  | model name => exact onLink_does fun n _ => looked (Action.reads_modelOf n)
  | isDead name => exact onLink_does fun _ _ => .nothing _
  | status name => exact onLink_does fun _ _ => .nothing _
  | debug name => exact onLink_does fun _ _ => .nothing _
  | same name other => exact onLink_does fun _ _ => onLink_does fun _ _ => .nothing _
  | clone name copy => exact onLink_does fun n found => .named _ n copy (held_of_lookup found)
  | drop name => exact onLink_does fun _ _ => .dropped name
  | update name =>
    refine onLink_does fun n found => .started _ _ trivial (held found) nofun fun m phase same => ?_
    cases same
    exact found
  | uncache name => exact onLink_does fun n found => .started _ _ trivial (held found) nofun nofun
  | stop name canSpawn =>
    refine onLink_does fun n _ => ?_
    obtain ⟨handles,same⟩ := stopFor_world w number n canSpawn
    rw [same]
    exact .stopped name canSpawn n handles
  | wait handle => exact onHandle_does fun p => .started _ _ trivial nofun nofun nofun
  | continuation handle => exact onHandle_does fun p => .started _ _ trivial nofun nofun nofun
  | cancel handle => exact onHandle_does fun p => .cancelled handle p
  | dropHandle handle => exact .released handle _
  | abort label =>
    unfold perform
    dsimp only
    split
    · exact .aborted label
    · exact .nothing _

/-- A command that is not about the surroundings, and neither switches nor kills a link, holds no more
than was held or goes on in the background. -/
theorem perform_keeps {R : World → World → Prop} [Frame R] (noMore : ∀ {v w}, HoldsNoMore v w → R v w)
    (still : ∀ {v w}, Still v w → R v w) (w : World) (number : Nat) (c : Command)
    (single : ∀ ms, c ≠ .advance ms) (outside : ∀ o, c = .outside o → R w (w.change o).2)
    (switches : ∀ name on n, c = .setLive name on → w.names.lookup name = some n →
      R w (Action.exec (Action.setLive n on) w).2)
    (kills : ∀ name n, c = .kill name → w.names.lookup name = some n →
      R w (Action.exec (Action.kill n) w).2) : R w (w.perform number c).2 := by
  have does := perform_does w number c single
  generalize (w.perform number c).2 = v at does ⊢
  cases does with
  | nothing => exact Frame.refl w
  | outside o => exact outside o rfl
  | started c job called held _ => exact noMore (holdsNoMore_start w number job held)
  | named c n name held => exact noMore (holdsNoMore_bindName held name)
  | dropped name => exact noMore (holdsNoMore_drop w name)
  | switched name on n found => exact switches name on n rfl found
  | killed name n found => exact kills name n rfl found
  | stopped name canSpawn n handles =>
    exact Frame.trans (still (Action.startStop_still n canSpawn w)) (noMore { HoldsNoMore.refl _ with })
  | cancelled handle promise => exact still (still_updatePromise w promise _)
  | released handle handles => exact noMore { HoldsNoMore.refl w with }
  | aborted label => exact noMore (holdsNoMore_abort w label)

/-- What is known of the hooks on the widgets: what each is tied to, and how often it was set and
cleared. -/
def hooks (w : World) : List (Option Nat × Nat × Nat) :=
  w.widgets.map fun x => (x.hook,x.attached,x.detached)

/-- What may come of things that happen around the links: old widgets keep their hooks, new ones have
none, and a link that gets input starts an update if something holds it. -/
structure Around (v w : World) : Prop where
  registries : w.registries = v.registries
  links : w.links = v.links
  names : w.names = v.names
  promises : w.promises = v.promises
  intervals : w.intervals = v.intervals
  counts : w.counts = v.counts
  memories : w.memories = v.memories
  begun : w.updatesBegun = v.updatesBegun
  hooks : ∃ fresh, w.hooks = v.hooks ++ List.replicate fresh (none,0,0)
  alive : ∀ e, w.alive e = true →
    v.alive e = true ∨ v.widgets.length ≤ e ∧ e < w.widgets.length
  tasks : w.tasks = v.tasks ∨ ∃ n e x, v.alive e = true ∧ v.widgets[e]? = some x ∧ x.hook = some n ∧
    v.held n = true ∧ w.tasks = v.tasks ++ [some { label := none, job := .update n .fresh }]

theorem Around.refl (w : World) : Around w w :=
  ⟨rfl,rfl,rfl,rfl,rfl,rfl,rfl,rfl,⟨0,(List.append_nil _).symm⟩,fun _ => .inl,.inl rfl⟩

theorem Around.models {v w : World} (around : Around v w) : w.models.length = v.models.length := by
  simpa [World.intervals] using congrArg List.length around.intervals

/-- No change leaves a widget alive that is not there. -/
theorem Around.peopled {v w : World} (around : Around v w) (peopled : ∀ e, v.alive e = true → e < v.widgets.length)
    (e : Nat) (alive : w.alive e = true) : e < w.widgets.length := by
  obtain ⟨fresh,hooks⟩ := around.hooks
  have size : w.widgets.length = v.widgets.length + fresh := by
    simpa [World.hooks] using congrArg List.length hooks
  rcases around.alive e alive with lived | ⟨-,known⟩
  · have known := peopled e lived
    omega
  · exact known

theorem Around.hooked {v w : World} (around : Around v w) {e n : Nat} {x : Widget Nat}
    (widget : w.widgets[e]? = some x) (hook : x.hook = some n) :
    ∃ y, v.widgets[e]? = some y ∧ y.hook = some n := by
  obtain ⟨fresh,hooks⟩ := around.hooks
  have known : w.hooks[e]? = some (some n,x.attached,x.detached) := by
    simp [World.hooks,widget,hook]
  rw [hooks,List.getElem?_append] at known
  split at known
  · rw [World.hooks,List.getElem?_map] at known
    obtain ⟨y,there,same⟩ := Option.map_eq_some_iff.mp known
    exact ⟨y,there,congrArg Prod.fst same⟩
  · have bare := List.eq_of_mem_replicate (List.mem_of_getElem? known)
    cases bare

theorem Around.jobs {v w : World} (around : Around v w) : JobsKept v w := by
  rcases around.tasks with same | ⟨_,_,_,_,_,_,_,same⟩
  · exact jobsKept_append (same.trans (List.append_nil _).symm)
  · exact jobsKept_append same

theorem around_onModel (w : World) (n : Nat) (f : PlannedModel → PlannedModel)
    (same : ∀ m, ((f m).model.interrupts,(f m).model.uncaches) = (m.model.interrupts,m.model.uncaches))
    (memory : ∀ m, (f m).model.memory = m.model.memory)
    (interval : ∀ m, (f m).model.interval = m.model.interval) : Around w (w.onModel n f).2 := by
  unfold onModel
  split
  · exact
      { Around.refl w with
        intervals := map_modify_same _ f interval _ _
        counts := map_modify_same _ f same _ _
        memories := map_modify_same _ f memory _ _ }
  · exact Around.refl w

theorem hooks_type (w : World) (editor : Nat) (text : String) :
    World.hooks { w with widgets := w.widgets.modify editor fun x => x.type text } = w.hooks :=
  map_modify_same _ (fun x : Widget Nat => x.type text) (fun _ => rfl) _ _

theorem around_typeIn (w : World) (editor : Nat) (text : String) (canSpawn : Bool)
    (alive : w.alive editor = true) : Around w (w.typeIn editor text canSpawn) := by
  have typed : Around w { w with widgets := w.widgets.modify editor fun x => x.type text } :=
    { Around.refl w with
      hooks := ⟨0,by rw [hooks_type]; exact (List.append_nil _).symm⟩
      alive := fun _ => .inl }
  unfold typeIn
  dsimp only
  split
  · rename_i n hooked
    obtain ⟨y,there,hook⟩ := Option.bind_eq_some_iff.mp hooked
    rw [List.getElem?_modify_eq] at there
    obtain ⟨x,found,rfl⟩ := Option.map_eq_some_iff.mp there
    unfold input
    split
    · exact typed
    · rename_i held
      simp only [Bool.not_eq_true',Bool.not_eq_false] at held
      split
      · exact { typed with tasks := .inr ⟨n,editor,x,alive,found,hook,held,rfl⟩ }
      · exact { typed with begun := (still_note _ rfl).begun }
  · exact typed

theorem alive_iff {w : World} {e : Nat} :
    w.alive e = true ↔ w.host.mounted = some e ∨ e ∈ w.kept := by
  simp [World.alive]

theorem alive_keep {w : World} {editor e : Nat} (alive : w.alive editor = true)
    (now : (w.keep editor).alive e = true) : w.alive e = true := by
  unfold keep at now
  split at now
  · exact now
  · rw [alive_iff] at now
    rcases now with mounted | kept
    · exact alive_iff.mpr (.inl mounted)
    · rcases List.mem_append.mp kept with old | new
      · exact alive_iff.mpr (.inr old)
      · exact List.mem_singleton.mp new ▸ alive

theorem around_keep {v w : World} (around : Around v w) {editor : Nat}
    (alive : w.alive editor = true) : Around v (w.keep editor) := by
  have lives (e : Nat) (now : (w.keep editor).alive e = true) :
      v.alive e = true ∨ v.widgets.length ≤ e ∧ e < w.widgets.length :=
    around.alive e (alive_keep alive now)
  unfold keep at lives ⊢
  split
  · exact around
  · rename_i new
    rw [if_neg new] at lives
    exact { around with alive := lives }

theorem around_mount (w : World) (text : String) :
    Around w (World.mount { w with widgets := w.widgets ++ [({ text } : Widget Nat)] }
      w.widgets.length) where
  registries := rfl
  links := rfl
  names := rfl
  promises := rfl
  intervals := rfl
  counts := rfl
  memories := rfl
  begun := rfl
  hooks := ⟨1,by simp [World.hooks,World.mount]⟩
  alive e now := by
    rcases alive_iff.mp now with same | kept
    · obtain rfl := Option.some.inj same
      exact .inr ⟨Nat.le_refl _,by simp [World.mount]⟩
    · exact .inl (alive_iff.mpr (.inr kept))
  tasks := .inl rfl

theorem onEditor_keeps {R : World → World → Prop} {w : World} {n : Nat} {f : World → World}
    (refl : R w w) (lives : w.alive n = true → R w (f w)) : R w (w.onEditor n f).2 := by
  unfold onEditor
  split
  · exact lives ‹_›
  · exact refl

theorem change_around (w : World) (o : Outside) : Around w (w.change o).2 := by
  cases o with
  | factory blueprint => exact { Around.refl w with }
  | crash site on => exact { Around.refl w with }
  | mount text keeps =>
    unfold change
    dsimp only
    split
    · exact around_keep (around_mount w text) (alive_iff.mpr (.inl rfl))
    · exact around_mount w text
  | unmount =>
    refine { Around.refl w with alive := fun e now => .inl (alive_iff.mpr ?_) }
    exact (alive_iff.mp now).elim nofun .inr
  | keep editor => exact onEditor_keeps (.refl w) fun alive => around_keep (.refl w) alive
  | remount editor =>
    refine onEditor_keeps (.refl w) fun alive =>
      { Around.refl w with alive := fun e now => .inl ?_ }
    rcases alive_iff.mp now with mounted | kept
    · exact Option.some.inj mounted ▸ alive
    · exact alive_iff.mpr (.inr kept)
  | release editor =>
    refine { Around.refl w with alive := fun e now => .inl (alive_iff.mpr ?_) }
    exact (alive_iff.mp now).imp_right fun kept => (List.mem_filter.mp kept).1
  | type editor text canSpawn =>
    exact onEditor_keeps (.refl w) fun alive => around_typeIn w editor text canSpawn alive
  | busy model ms => exact around_onModel w model _ (fun _ => rfl) (fun _ => rfl) fun _ => rfl
  | stall model => exact around_onModel w model _ (fun _ => rfl) (fun _ => rfl) fun _ => rfl
  | settle model => exact around_onModel w model _ (fun _ => rfl) (fun _ => rfl) fun _ => rfl
  | failUncache model on => exact around_onModel w model _ (fun _ => rfl) (fun _ => rfl) fun _ => rfl
  | failUpdate model e => exact around_onModel w model _ (fun _ => rfl) (fun _ => rfl) fun _ => rfl
  | updateMillis model ms => exact around_onModel w model _ (fun _ => rfl) (fun _ => rfl) fun _ => rfl

theorem keep_tasks (w : World) (editor : Nat) : (w.keep editor).tasks = w.tasks := by
  unfold keep
  split <;> rfl

theorem hook_type (w : World) (editor : Nat) (text : String) :
    ((w.widgets.modify editor fun x => x.type text)[editor]?.bind Widget.hook) =
      w.widgets[editor]?.bind Widget.hook := by
  rw [List.getElem?_modify_eq]
  cases w.widgets[editor]? <;> rfl

theorem typeIn_request {w : World} {editor n : Nat} {text : String} (alive : w.alive editor = true)
    (requested : w.requestOf (.outside (.type editor text true)) = some n) : w.typeIn editor text true =
      World.spawn { w with widgets := w.widgets.modify editor fun x => x.type text } none (.update n .fresh) := by
  rw [requestOf,if_pos alive,Option.filter_eq_some_iff] at requested
  obtain ⟨hooked,held⟩ := requested
  have same : World.held { w with widgets := w.widgets.modify editor fun x => x.type text } n = true := held
  unfold typeIn
  dsimp only
  rw [hook_type,hooked]
  dsimp only
  rw [input,same]
  rfl

theorem typeIn_tasks {w : World} {editor : Nat} {text : String} {canSpawn : Bool} (alive : w.alive editor = true)
    (requested : w.requestOf (.outside (.type editor text canSpawn)) = none) :
    (w.typeIn editor text canSpawn).tasks = w.tasks := by
  unfold typeIn
  dsimp only
  rw [hook_type]
  split
  · rename_i n hooked
    unfold input
    split
    · rfl
    · rename_i held
      cases canSpawn with
      | true =>
        simp only [Bool.not_eq_true',Bool.not_eq_false] at held
        have held : w.held n = true := held
        rw [requestOf,if_pos alive,hooked,Option.filter_some,if_pos held] at requested
        cases requested
      | false => rfl
  · rfl

/-- Input that reaches a link asks for an update, and nothing else around the links starts a task. -/
theorem change_tasks (w : World) (o : Outside) : (w.change o).2.tasks =
    w.tasks ++ (w.requestOf (.outside o)).toList.map fun n => some { label := none, job := .update n .fresh } := by
  have edited (editor : Nat) (f : World → World) (same : (f w).tasks = w.tasks) :
      (w.onEditor editor f).2.tasks = w.tasks ++ [] := by
    rw [List.append_nil,onEditor]
    split
    · exact same
    · rfl
  have planned (n : Nat) (f : PlannedModel → PlannedModel) : (w.onModel n f).2.tasks = w.tasks ++ [] := by
    rw [List.append_nil,onModel]
    split <;> rfl
  have same : w.tasks = w.tasks ++ [] := (List.append_nil _).symm
  cases o with
  | mount text keeps =>
    unfold change
    dsimp only
    split
    · exact (keep_tasks _ _).trans same
    · exact same
  | keep editor => exact edited editor _ (keep_tasks w editor)
  | remount editor => exact edited editor _ rfl
  | type editor text canSpawn =>
    rw [change,onEditor]
    split
    · rename_i alive
      rcases requested : w.requestOf (.outside (.type editor text canSpawn)) with _ | n
      · exact (typeIn_tasks alive requested).trans same
      · cases canSpawn with
        | true =>
          rw [typeIn_request alive requested]
          rfl
        | false => cases requested
    · rename_i gone
      cases canSpawn with
      | true => rw [requestOf,if_neg gone]; exact same
      | false => exact same
  | busy model ms => exact planned model _
  | stall model => exact planned model _
  | settle model => exact planned model _
  | failUncache model on => exact planned model _
  | failUpdate model e => exact planned model _
  | updateMillis model ms => exact planned model _
  | _ => exact same

theorem keep_sites (w : World) (editor : Nat) : (w.keep editor).sites = w.sites := by
  unfold keep
  split <;> rfl

theorem typeIn_sites (w : World) (editor : Nat) (text : String) (canSpawn : Bool) :
    (w.typeIn editor text canSpawn).sites = w.sites := by
  unfold typeIn
  dsimp only
  split
  · unfold input
    split
    · rfl
    · split <;> rfl
  · rfl

theorem change_sites (w : World) (o : Outside) {site : Site} (other : o ≠ .crash site true)
    (spared : site ∉ w.sites) : site ∉ (w.change o).2.sites := by
  have kept {f : World → World} (n : Nat) (same : (f w).sites = w.sites) :
      site ∉ (w.onEditor n f).2.sites := by
    unfold onEditor
    split
    · rw [same]
      exact spared
    · exact spared
  have planned (n : Nat) (f : PlannedModel → PlannedModel) : site ∉ (w.onModel n f).2.sites := by
    unfold onModel
    split <;> exact spared
  cases o with
  | factory blueprint => exact spared
  | crash place on =>
    cases on with
    | false => exact fun member => spared (List.mem_filter.mp member).1
    | true =>
      intro member
      rcases List.mem_append.mp member with old | new
      · exact spared (List.mem_filter.mp old).1
      · exact other (by rw [List.mem_singleton.mp new])
  | mount text keeps =>
    unfold change
    dsimp only
    split
    · rw [keep_sites]
      exact spared
    · exact spared
  | unmount => exact spared
  | keep editor => exact kept editor (keep_sites w editor)
  | remount editor => exact kept editor rfl
  | release editor => exact spared
  | type editor text canSpawn => exact kept editor (typeIn_sites w editor text canSpawn)
  | busy model ms => exact planned model _
  | stall model => exact planned model _
  | settle model => exact planned model _
  | failUncache model on => exact planned model _
  | failUpdate model e => exact planned model _
  | updateMillis model ms => exact planned model _

end World
end EditorLink
