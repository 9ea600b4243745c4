import EditorLink.Proofs.Run
import EditorLink.Proofs.Weave

/-! A world of which one side is left out, beside the whole one. The numbers of links, models, promises and tasks
differ between the two; apart from that everything on the side that is kept is the same, and nothing on
either side knows of the other side. Hooks, notices and the count of look-ups are not compared. -/
namespace EditorLink

/-- On which side registries, names and the numbers of commands are. -/
structure Split where
  registry : Nat → Bool
  name : String → Bool
  number : Nat → Bool

/-- Which links, models, promises and tasks are kept. -/
structure Marks where
  links : List Bool := []
  models : List Bool := []
  promises : List Bool := []
  tasks : List Bool := []

/-- What is new is on one side. -/
structure Marks.Grows (side : Bool) (e d : Marks) : Prop where
  links : ∃ k, d.links = e.links ++ List.replicate k side
  models : ∃ k, d.models = e.models ++ List.replicate k side
  promises : ∃ k, d.promises = e.promises ++ List.replicate k side
  tasks : ∃ k, d.tasks = e.tasks ++ List.replicate k side

variable {s : Split} {side : Bool} {e d : Marks} {n m : Nat} {α β : Type}

theorem rel_imp {R S : α → β → Prop} {x : Option α} {y : Option β} (rel : Option.Rel R x y)
    (weaker : ∀ a b, R a b → S a b) : Option.Rel S x y := by
  cases rel with
  | none => exact .none
  | some holds => exact .some (weaker _ _ holds)

theorem rel_map {R : α → α → Prop} {x y : Option α} {f g : α → α} (rel : Option.Rel R x y)
    (keeps : ∀ a b, R a b → R (f a) (g b)) : Option.Rel R (f <$> x) (g <$> y) := by
  cases rel with
  | none => exact .none
  | some holds => exact .some (keeps _ _ holds)

namespace Marks.Grows

theorem refl (side : Bool) (e : Marks) : e.Grows side e where
  links := ⟨0,by simp⟩
  models := ⟨0,by simp⟩
  promises := ⟨0,by simp⟩
  tasks := ⟨0,by simp⟩

theorem chain {p q r : List Bool} (first : ∃ k, q = p ++ List.replicate k side)
    (next : ∃ k, r = q ++ List.replicate k side) : ∃ k, r = p ++ List.replicate k side := by
  obtain ⟨k,rfl⟩ := first
  obtain ⟨l,rfl⟩ := next
  exact ⟨k + l,by rw [List.append_assoc,List.replicate_append_replicate]⟩

theorem trans {c : Marks} (first : e.Grows side d) (next : d.Grows side c) : e.Grows side c where
  links := chain first.links next.links
  models := chain first.models next.models
  promises := chain first.promises next.promises
  tasks := chain first.tasks next.tasks

variable {any : Bool}

theorem link (grows : e.Grows side d) (stands : Stands any e.links n m) : Stands any d.links n m := by
  obtain ⟨k,same⟩ := grows.links
  exact same ▸ stands.grow _

theorem model (grows : e.Grows side d) (stands : Stands any e.models n m) : Stands any d.models n m := by
  obtain ⟨k,same⟩ := grows.models
  exact same ▸ stands.grow _

theorem promise (grows : e.Grows side d) (stands : Stands any e.promises n m) : Stands any d.promises n m := by
  obtain ⟨k,same⟩ := grows.promises
  exact same ▸ stands.grow _

theorem task (grows : e.Grows side d) (stands : Stands any e.tasks n m) : Stands any d.tasks n m := by
  obtain ⟨k,same⟩ := grows.tasks
  exact same ▸ stands.grow _

end Marks.Grows

structure LinkAlike (e : Marks) (side : Bool) (l k : Link) : Prop where
  model : Stands side e.models l.model k.model
  stop : Option.Rel (Stands side e.promises) l.stop k.stop
  config : l.config = k.config
  slot : l.slot = k.slot
  live : l.live = k.live
  dead : l.dead = k.dead
  hookPoisoned : l.hookPoisoned = k.hookPoisoned
  stopPoisoned : l.stopPoisoned = k.stopPoisoned

structure RegistryAlike (e : Marks) (side : Bool) (r q : Registry) : Prop where
  config : r.config = q.config
  last : Option.Rel (Stands side e.links) r.last q.last
  poisoned : r.poisoned = q.poisoned

structure PromiseAlike (e : Marks) (side : Bool) (p q : Promise Verdict) : Prop where
  cancelled : p.cancelled = q.cancelled
  value : p.value = q.value
  pending : p.pending = q.pending
  onCancel : List.Forall₂ (Stands side e.tasks) p.onCancel q.onCancel
  onValue : List.Forall₂ (Stands side e.tasks) p.onValue q.onValue

inductive PlanAlike (e : Marks) (side : Bool) : StopPlan → StopPlan → Prop
  | mk (n m timeout poll : Nat) (model : Stands side e.models n m) :
      PlanAlike e side ⟨n,timeout,poll⟩ ⟨m,timeout,poll⟩

inductive JobAlike (s : Split) (e : Marks) (side : Bool) : Job → Job → Prop
  | update {n m : Nat} (link : Stands side e.links n m) (phase : UpdatePhase) :
      JobAlike s e side (.update n phase) (.update m phase)
  | uncache {n m : Nat} {p q : Option Nat} (link : Stands side e.links n m)
      (stop : Option.Rel (Stands side e.promises) p q) : JobAlike s e side (.uncache n p) (.uncache m q)
  | create {registry : Nat} {name : String} {a b : Option (Nat × Nat)} (own : s.registry registry = side)
      (called : s.name name = side)
      (teardown : Option.Rel (fun x y => Stands side e.links x.1 y.1 ∧ Stands side e.promises x.2 y.2) a b) :
      JobAlike s e side (.create registry name a) (.create registry name b)
  | stop {p q : Nat} {plan other : StopPlan} (promise : Stands side e.promises p q)
      (plans : PlanAlike e side plan other) (deadline : Option Nat) :
      JobAlike s e side (.stop p plan deadline) (.stop q other deadline)
  | wait {p q : Nat} (promise : Stands side e.promises p q) : JobAlike s e side (.wait p) (.wait q)
  | continuation {p q : Nat} (promise : Stands side e.promises p q) :
      JobAlike s e side (.continuation p) (.continuation q)

structure TaskAlike (s : Split) (e : Marks) (side : Bool) (t u : Task) : Prop where
  label : t.label = u.label
  own : ∀ number, u.label = some number → s.number number = side
  job : JobAlike s e side t.job u.job
  aborted : t.aborted = u.aborted

inductive ReportAlike (e : Marks) (side : Bool) : Report → Report → Prop
  | created {n m : Nat} (model : Stands side e.models n m) : ReportAlike e side (.created n) (.created m)
  | same (r : Report) (plain : ∀ n, r ≠ .created n) : ReportAlike e side r r

structure EventAlike (s : Split) (e : Marks) (side : Bool) (a c : Event Report) : Prop where
  time : a.time = c.time
  label : a.label = c.label
  own : s.number c.label = side
  report : ReportAlike e side a.report c.report

/-- A name or a handle is on the side of what it stands for. -/
structure BindingAlike {κ : Type} (own : κ → Bool) (p : List Bool) (side : Bool) (a c : κ × Nat) : Prop where
  same : a.1 = c.1
  own : own c.1 = side
  stands : Stands side p a.2 c.2

structure TimerAlike (e : Marks) (side : Bool) (a c : Timer) : Prop where
  deadline : a.deadline = c.deadline
  task : Stands side e.tasks a.task c.task

section Growing
variable {any : Bool} (grows : e.Grows side d)
include grows

theorem LinkAlike.grow {l k : Link} (alike : LinkAlike e any l k) : LinkAlike d any l k :=
  { alike with
    model := grows.model alike.model
    stop := rel_imp alike.stop fun _ _ => grows.promise }

theorem RegistryAlike.grow {r q : Registry} (alike : RegistryAlike e any r q) : RegistryAlike d any r q :=
  { alike with last := rel_imp alike.last fun _ _ => grows.link }

theorem PromiseAlike.grow {p q : Promise Verdict} (alike : PromiseAlike e any p q) : PromiseAlike d any p q :=
  { alike with
    onCancel := alike.onCancel.imp fun _ _ => grows.task
    onValue := alike.onValue.imp fun _ _ => grows.task }

theorem PlanAlike.grow {p q : StopPlan} (alike : PlanAlike e any p q) : PlanAlike d any p q := by
  cases alike with
  | mk _ _ timeout poll model => exact .mk _ _ timeout poll (grows.model model)

theorem JobAlike.grow {j k : Job} (alike : JobAlike s e any j k) : JobAlike s d any j k := by
  cases alike with
  | update link phase => exact .update (grows.link link) phase
  | uncache link stop => exact .uncache (grows.link link) (rel_imp stop fun _ _ => grows.promise)
  | create own called teardown =>
    exact .create own called (rel_imp teardown fun _ _ both => ⟨grows.link both.1,grows.promise both.2⟩)
  | stop promise plans deadline => exact .stop (grows.promise promise) (plans.grow grows) deadline
  | wait promise => exact .wait (grows.promise promise)
  | continuation promise => exact .continuation (grows.promise promise)

theorem TaskAlike.grow {t u : Task} (alike : TaskAlike s e any t u) : TaskAlike s d any t u :=
  { alike with job := alike.job.grow grows }

theorem ReportAlike.grow {a c : Report} (alike : ReportAlike e any a c) : ReportAlike d any a c := by
  cases alike with
  | created model => exact .created (grows.model model)
  | same _ plain => exact .same _ plain

theorem EventAlike.grow {a c : Event Report} (alike : EventAlike s e any a c) : EventAlike s d any a c :=
  { alike with report := alike.report.grow grows }

theorem TimerAlike.grow {a c : Timer} (alike : TimerAlike e any a c) : TimerAlike d any a c :=
  { alike with task := grows.task alike.task }

end Growing

/-! Whatever is on the other side is alike only to itself. -/

theorem rel_other {p : List Bool} {x y : Option Nat} (rel : Option.Rel (Stands false p) x y) : x = y := by
  cases rel with
  | none => rfl
  | some stands => rw [stands.placed]; rfl

theorem all_other {p : List Bool} {x y : List Nat} (all : List.Forall₂ (Stands false p) x y) : x = y := by
  induction all with
  | nil => rfl
  | cons stands _ ih => rw [stands.placed,ih]; rfl

theorem LinkAlike.eq {l k : Link} (alike : LinkAlike e false l k) : l = k := by
  obtain ⟨model,stop,config,slot,live,dead,hookPoisoned,stopPoisoned⟩ := alike
  cases l
  cases k
  cases model.placed
  cases rel_other stop
  subst config slot live dead hookPoisoned stopPoisoned
  rfl

theorem RegistryAlike.eq {r q : Registry} (alike : RegistryAlike e false r q) : r = q := by
  obtain ⟨config,last,poisoned⟩ := alike
  cases r
  cases q
  cases rel_other last
  subst config poisoned
  rfl

theorem PromiseAlike.eq {p q : Promise Verdict} (alike : PromiseAlike e false p q) : p = q := by
  obtain ⟨cancelled,value,pending,onCancel,onValue⟩ := alike
  cases p
  cases q
  cases all_other onCancel
  cases all_other onValue
  subst cancelled value pending
  rfl

theorem JobAlike.eq {j k : Job} (alike : JobAlike s e false j k) : j = k := by
  cases alike with
  | update link phase => rw [link.placed]; rfl
  | uncache link stop => rw [link.placed,rel_other stop]; rfl
  | create _ _ teardown =>
    cases teardown with
    | none => rfl
    | some both => rw [Prod.ext both.1.placed both.2.placed]
  | stop promise plans deadline =>
    cases plans with
    | mk _ _ _ _ model => rw [promise.placed,model.placed]; rfl
  | wait promise => rw [promise.placed]; rfl
  | continuation promise => rw [promise.placed]; rfl

theorem TaskAlike.eq {t u : Task} (alike : TaskAlike s e false t u) : t = u := by
  obtain ⟨label,-,job,aborted⟩ := alike
  cases t
  cases u
  cases job.eq
  subst label aborted
  rfl

theorem ReportAlike.eq {a c : Report} (alike : ReportAlike e false a c) : a = c := by
  cases alike with
  | created model => rw [model.placed]; rfl
  | same => rfl

/-- Registries stay in their places whether they are kept or not. -/
def RegistriesAlike (s : Split) (e : Marks) (as cs : List Registry) : Prop :=
  ∀ r, Option.Rel (RegistryAlike e (s.registry r)) (if s.registry r then as else cs)[r]? cs[r]?

namespace RegistriesAlike

variable {as cs : List Registry} {r : Nat} {f g : Registry → Registry}

theorem modify_kept (registered : RegistriesAlike s e as cs) (own : s.registry r = true)
    (keeps : ∀ a c, RegistryAlike e true a c → RegistryAlike e true (f a) (g c)) :
    RegistriesAlike s e (as.modify r f) (cs.modify r g) := by
  intro q
  have before := registered q
  by_cases same : r = q
  · subst same
    rw [own,if_pos rfl] at before ⊢
    rw [List.getElem?_modify_eq,List.getElem?_modify_eq]
    exact rel_map before keeps
  · rw [List.getElem?_modify_ne _ _ same]
    split
    · rename_i mark
      rw [if_pos mark] at before
      rw [List.getElem?_modify_ne _ _ same]
      exact before
    · rename_i mark
      rw [if_neg mark] at before
      rw [List.getElem?_modify_ne _ _ same]
      exact before

theorem modify_other (registered : RegistriesAlike s e as cs) (own : s.registry r = false)
    (keeps : ∀ c, RegistryAlike e false c c → RegistryAlike e false (g c) (g c)) :
    RegistriesAlike s e as (cs.modify r g) := by
  intro q
  have before := registered q
  by_cases same : r = q
  · subst same
    rw [own,if_neg nofun] at before ⊢
    rw [List.getElem?_modify_eq]
    revert before
    generalize cs[r]? = x
    intro before
    cases x with
    | none => exact .none
    | some c =>
      cases before with
      | some own => exact .some (keeps c own)
  · rw [List.getElem?_modify_ne _ _ same]
    split
    · rename_i mark
      rwa [if_pos mark] at before
    · rename_i mark
      rw [if_neg mark] at before
      rw [List.getElem?_modify_ne _ _ same]
      exact before

end RegistriesAlike

/-- What both sides share. -/
structure Common (v w : World) : Prop where
  now : v.now = w.now
  host : v.host = w.host
  keeps : v.kept = w.kept
  latest : v.latest = w.latest
  texts : v.widgets.map Widget.text = w.widgets.map Widget.text
  blueprint : v.blueprint = w.blueprint
  sites : v.sites = w.sites

theorem Common.refl (w : World) : Common w w := ⟨rfl,rfl,rfl,rfl,rfl,rfl,rfl⟩

/-- The first world has what the marks in `p` keep of the second one, and it is alike in terms of the numbers
that `e` gives. -/
structure Drawn (s : Split) (p e : Marks) (v w : World) : Prop extends Common v w where
  registries : RegistriesAlike s e v.registries w.registries
  links : Woven (LinkAlike e) p.links v.links w.links
  models : Woven (fun _ => Eq) p.models v.models w.models
  promises : Woven (PromiseAlike e) p.promises v.promises w.promises
  tasks : Woven (fun side => Option.Rel (TaskAlike s e side)) p.tasks v.tasks w.tasks
  names : Sifted (BindingAlike s.name e.links) v.names w.names
  handles : Sifted (BindingAlike s.number e.promises) v.handles w.handles
  started : Sifted (fun side a c => a = c ∧ s.number c = side) v.started w.started
  events : Sifted (EventAlike s e) v.events w.events
  ready : Sifted (fun side => Stands side e.tasks) v.schedule.ready w.schedule.ready
  timers : Sifted (TimerAlike e) v.schedule.timers w.schedule.timers

/-- The first world is the second one without what is not kept. -/
abbrev Alike (s : Split) (e : Marks) : World → World → Prop := Drawn s e e

theorem Drawn.grow {p : Marks} {v w : World} (grows : e.Grows side d) (drawn : Drawn s p e v w) :
    Drawn s p d v w where
  toCommon := drawn.toCommon
  registries r := rel_imp (drawn.registries r) fun _ _ alike => alike.grow grows
  links := drawn.links.mono fun _ _ _ alike => alike.grow grows
  models := drawn.models
  promises := drawn.promises.mono fun _ _ _ alike => alike.grow grows
  tasks := drawn.tasks.mono fun _ _ _ rel => rel_imp rel fun _ _ alike => alike.grow grows
  names := drawn.names.mono fun _ _ _ called => { called with stands := grows.link called.stands }
  handles := drawn.handles.mono fun _ _ _ called => { called with stands := grows.promise called.stands }
  started := drawn.started
  events := drawn.events.mono fun _ _ _ alike => alike.grow grows
  ready := drawn.ready.mono fun _ _ _ => grows.task
  timers := drawn.timers.mono fun _ _ _ alike => alike.grow grows

/-- One side acts. If it is the one that is kept, it acts in both worlds. Otherwise it acts in the whole world, from
which the other one does not differ more than before. -/
def Beside (s : Split) (v : World) : Bool → Marks → World → World → Prop
  | true, e, u, w => Alike s e u w
  | false, e, u, w => u = w ∧ Alike s e v w

namespace Beside

variable {u v w : World}

theorem common (beside : Beside s v side e u w) : Common u w := by
  cases side with
  | true => exact Drawn.toCommon beside
  | false => exact beside.1 ▸ .refl _

theorem at' (beside : Beside s v side e u w) (items : World → List α) {R : Bool → α → α → Prop} {p : List Bool}
    (woven : ∀ {v w}, Alike s e v w → Woven R p (items v) (items w)) (stands : Stands side p n m) :
    ∃ a c, (items u)[n]? = some a ∧ (items w)[m]? = some c ∧ R side a c := by
  cases side with
  | true =>
    obtain rfl := stands.placed
    exact (woven beside).at_kept stands.marked
  | false =>
    obtain rfl := stands.placed
    obtain ⟨rfl,alike⟩ := beside
    obtain ⟨c,there,own⟩ := (woven alike).at_other stands.marked
    exact ⟨c,c,there,there,own⟩

theorem link (beside : Beside s v side e u w) (stands : Stands side e.links n m) :
    ∃ l k, u.links[n]? = some l ∧ w.links[m]? = some k ∧ LinkAlike e side l k :=
  beside.at' World.links Drawn.links stands

theorem model (beside : Beside s v side e u w) (stands : Stands side e.models n m) :
    ∃ x, u.models[n]? = some x ∧ w.models[m]? = some x := by
  obtain ⟨x,y,there,here,rfl⟩ := beside.at' World.models Drawn.models stands
  exact ⟨x,there,here⟩

theorem promise (beside : Beside s v side e u w) (stands : Stands side e.promises n m) :
    ∃ p q, u.promises[n]? = some p ∧ w.promises[m]? = some q ∧ PromiseAlike e side p q :=
  beside.at' World.promises Drawn.promises stands

theorem task (beside : Beside s v side e u w) (stands : Stands side e.tasks n m) :
    ∃ t k, u.tasks[n]? = some t ∧ w.tasks[m]? = some k ∧ Option.Rel (TaskAlike s e side) t k :=
  beside.at' World.tasks Drawn.tasks stands

theorem registry (beside : Beside s v side e u w) {r : Nat} (own : s.registry r = side) :
    Option.Rel (RegistryAlike e side) u.registries[r]? w.registries[r]? := by
  subst own
  cases same : s.registry r with
  | true =>
    rw [same] at beside
    have registries := Drawn.registries beside r
    rwa [same] at registries
  | false =>
    rw [same] at beside
    obtain ⟨rfl,alike⟩ := beside
    have registries := alike.registries r
    rwa [same] at registries

theorem alive (beside : Beside s v side e u w) : u.alive = w.alive := by
  funext k
  rw [World.alive,World.alive,beside.common.host,beside.common.keeps]

end Beside

theorem JobAlike.link {j k : Job} (alike : JobAlike s e side j k) :
    Option.Rel (Stands side e.links) j.link? k.link? := by
  cases alike with
  | update link => exact .some link
  | uncache link => exact .some link
  | create _ _ teardown =>
    cases teardown with
    | none => exact .none
    | some both => exact .some both.1
  | stop => exact .none
  | wait => exact .none
  | continuation => exact .none

theorem rel_eq_some {x y : Option Nat} {p : List Bool} (rel : Option.Rel (Stands side p) x y)
    (stands : Stands side p n m) : x = some n ↔ y = some m := by
  cases rel with
  | none => exact ⟨nofun,nofun⟩
  | some other => rw [Option.some_inj,Option.some_inj,other.same_iff stands]

theorem Drawn.held {v w : World} (alike : Alike s e v w) (stands : Stands true e.links n m) : v.held n = w.held m := by
  have names : (v.names.any fun x => x.2 = n) = w.names.any fun x => x.2 = m := by
    refine alike.names.any (fun a c called => ?_) fun c called => ?_
    · exact decide_eq_decide.mpr (called.stands.same_iff stands)
    · exact decide_eq_false fun same => stands.apart called.stands same.symm
  have tasks : (v.tasks.any fun t => t.any fun t => t.job.link? = some n) =
      w.tasks.any fun t => t.any fun t => t.job.link? = some m := by
    refine alike.tasks.any (fun t u tasks => ?_) fun u own => ?_
    · cases tasks with
      | none => rfl
      | some same => exact decide_eq_decide.mpr (rel_eq_some same.job.link stands)
    · cases own with
      | none => rfl
      | some own =>
        rename_i t
        refine decide_eq_false fun holds => ?_
        have link := own.job.link
        rw [holds] at link
        cases link with
        | some other => exact stands.apart other rfl
  rw [World.held,World.held,names,tasks]

namespace Beside

variable {u v w : World}

theorem held (beside : Beside s v side e u w) (stands : Stands side e.links n m) : u.held n = w.held m := by
  cases side with
  | true => exact Drawn.held beside stands
  | false => rw [beside.1,stands.placed]; rfl

theorem isDead (beside : Beside s v side e u w) (stands : Stands side e.links n m) : u.isDead n = w.isDead m := by
  obtain ⟨l,k,here,there,alike⟩ := beside.link stands
  rw [World.isDead,World.isDead,here,there]
  exact alike.dead

theorem current (beside : Beside s v side e u w) {r : Nat} (own : s.registry r = side) :
    Option.Rel (Stands side e.links) (u.current? r) (w.current? r) := by
  have registries := beside.registry own
  rw [World.current?,World.current?]
  revert registries
  generalize u.registries[r]? = x
  generalize w.registries[r]? = y
  rintro (alike | -)
  · rename_i a b
    change Option.Rel _ (if a.poisoned then none else _) (if b.poisoned then none else _)
    rw [alike.poisoned]
    split
    · exact .none
    · have last := alike.last
      revert last
      generalize a.last = x
      generalize b.last = y
      rintro (stands | -)
      · change Option.Rel _ (if _ then _ else _) (if _ then _ else _)
        rw [beside.held stands,beside.isDead stands]
        split
        · exact .some stands
        · exact .none
      · exact .none
  · exact .none

theorem stopping (beside : Beside s v side e u w) (stands : Stands side e.links n m) :
    u.stopping n = w.stopping m := by
  obtain ⟨l,k,here,there,alike⟩ := beside.link stands
  rw [World.stopping,World.stopping,here,there]
  dsimp only
  rw [alike.stopPoisoned]
  congr 1
  have stop := alike.stop
  revert stop
  generalize l.stop = x
  generalize k.stop = y
  rintro (stands | -)
  · obtain ⟨p,q,here,there,alike⟩ := beside.promise stands
    rw [Option.bind_some,Option.bind_some,here,there,Option.any_some,Option.any_some,Promise.settled,
      Promise.settled,alike.value,alike.cancelled]
  · rfl

theorem modelActive (beside : Beside s v side e u w) (stands : Stands side e.models n m) :
    u.modelActive n = w.modelActive m := by
  obtain ⟨x,here,there⟩ := beside.model stands
  rw [World.modelActive,World.modelActive,here,there,beside.common.now]

theorem text (beside : Beside s v side e u w) : u.text = w.text := by
  have shown (x : World) : x.text = (((x.latest.filter x.alive).bind fun n => (x.widgets.map Widget.text)[n]?).getD "") := by
    rw [World.text]
    rcases x.latest.filter x.alive with _ | n
    · rfl
    · rw [Option.bind_some,Option.bind_some,List.getElem?_map]
      cases x.widgets[n]? <;> rfl
  rw [shown,shown,beside.common.latest,beside.alive,beside.common.texts]

end Beside
end EditorLink
