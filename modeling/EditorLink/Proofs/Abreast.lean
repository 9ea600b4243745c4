import EditorLink.Proofs.Holding
import EditorLink.Proofs.Sides

/-! What one side does to the world. Where it is the side that is kept both worlds stay alike, and where it is the
other one the world without it does not notice. -/
namespace EditorLink

variable {s : Split} {side : Bool} {e d : Marks} {n m i j : Nat} {u v w : World}

section Names
variable {κ : Type} [DecidableEq κ] {own : κ → Bool} {p : List Bool} {as cs : List (κ × Nat)}

theorem drop_kept (sifted : Sifted (BindingAlike own p) as cs) (key : κ) :
    Sifted (BindingAlike own p) (as.filter fun x => x.1 ≠ key) (cs.filter fun x => x.1 ≠ key) :=
  sifted.filter fun a c called => by rw [called.same]

theorem drop_other (sifted : Sifted (BindingAlike own p) as cs) {key : κ} (theirs : own key = false) :
    Sifted (BindingAlike own p) as (cs.filter fun x => x.1 ≠ key) := by
  refine sifted.filter_other fun a c called => decide_eq_true ?_
  rintro rfl
  exact absurd (theirs.symm.trans called.own) nofun

end Names

namespace Beside

theorem modifyLink (beside : Beside s v side e u w) (stands : Stands side e.links n m) {f g : Link → Link}
    (keeps : ∀ l k, LinkAlike e side l k → LinkAlike e side (f l) (g k)) :
    Beside s v side e (u.modifyLink n f) (w.modifyLink m g) := by
  obtain rfl := stands.placed
  cases side with
  | true =>
    have alike : Alike s e u w := beside
    exact { alike with links := alike.links.modify_kept stands.marked keeps }
  | false =>
    obtain ⟨rfl,alike⟩ := beside
    obtain ⟨same,links⟩ := alike.links.modify_same stands.marked (fun _ _ => LinkAlike.eq) keeps
    exact ⟨congrArg (fun links => { u with links }) same,{ alike with links }⟩

theorem modifyPlanned (beside : Beside s v side e u w) (stands : Stands side e.models n m)
    (f : PlannedModel → PlannedModel) : Beside s v side e { u with models := u.models.modify n f }
      { w with models := w.models.modify m f } := by
  obtain rfl := stands.placed
  cases side with
  | true =>
    have alike : Alike s e u w := beside
    exact { alike with models := alike.models.modify_kept stands.marked fun _ _ same => congrArg f same }
  | false =>
    obtain ⟨rfl,alike⟩ := beside
    exact ⟨rfl,{ alike with models := alike.models.modify_other stands.marked fun _ _ => rfl }⟩

theorem modifyPromise (beside : Beside s v side e u w) (stands : Stands side e.promises n m)
    {f g : Promise Verdict → Promise Verdict}
    (keeps : ∀ p q, PromiseAlike e side p q → PromiseAlike e side (f p) (g q)) :
    Beside s v side e { u with promises := u.promises.modify n f } { w with promises := w.promises.modify m g } := by
  obtain rfl := stands.placed
  cases side with
  | true =>
    have alike : Alike s e u w := beside
    exact { alike with promises := alike.promises.modify_kept stands.marked keeps }
  | false =>
    obtain ⟨rfl,alike⟩ := beside
    obtain ⟨same,promises⟩ := alike.promises.modify_same stands.marked (fun _ _ => PromiseAlike.eq) keeps
    exact ⟨congrArg (fun promises => { u with promises }) same,{ alike with promises }⟩

theorem wake (beside : Beside s v side e u w) (stands : Stands side e.tasks i j) :
    Beside s v side e { u with schedule := u.schedule.wake i } { w with schedule := w.schedule.wake j } := by
  cases side with
  | true =>
    have alike : Alike s e u w := beside
    simp only [Schedule.wake,alike.ready.mem_iff stands]
    split
    · exact alike
    · exact { alike with ready := alike.ready.push_kept stands }
  | false =>
    obtain rfl := stands.placed
    obtain ⟨rfl,alike⟩ := beside
    refine ⟨rfl,?_⟩
    unfold Schedule.wake
    split
    · exact alike
    · exact { alike with ready := alike.ready.push_other stands }

theorem wakeAll (beside : Beside s v side e u w) {is js : List Nat} (all : List.Forall₂ (Stands side e.tasks) is js) :
    Beside s v side e { u with schedule := u.schedule.wakeAll is } { w with schedule := w.schedule.wakeAll js } := by
  induction all generalizing u w with
  | nil => exact beside
  | cons stands _ ih => exact ih (beside.wake stands)

theorem updatePromise (beside : Beside s v side e u w) (stands : Stands side e.promises n m)
    {f : Promise Verdict → Promise Verdict × List Nat}
    (keeps : ∀ p q, PromiseAlike e side p q → PromiseAlike e side (f p).1 (f q).1 ∧
      List.Forall₂ (Stands side e.tasks) (f p).2 (f q).2) :
    Beside s v side e (u.updatePromise n f) (w.updatePromise m f) := by
  obtain ⟨p,q,here,there,alike⟩ := beside.promise stands
  have changed := (beside.modifyPromise stands fun p q alike => (keeps p q alike).1).wakeAll (keeps p q alike).2
  rw [modify_eq_set _ here,modify_eq_set _ there] at changed
  simp only [World.updatePromise,here,there]
  exact changed

theorem cancel (beside : Beside s v side e u w) (stands : Stands side e.promises n m) :
    Beside s v side e (u.updatePromise n Promise.cancel) (w.updatePromise m Promise.cancel) := by
  refine beside.updatePromise stands fun p q alike => ?_
  rw [Promise.cancel,Promise.cancel,alike.cancelled]
  split
  · exact ⟨alike,.nil⟩
  · exact ⟨{ alike with cancelled := rfl, onCancel := .nil },alike.onCancel⟩

theorem finish (beside : Beside s v side e u w) (stands : Stands side e.promises n m) (value : Option Verdict) :
    Beside s v side e (u.updatePromise n fun x => x.finish value) (w.updatePromise m fun x => x.finish value) :=
  beside.updatePromise stands fun _ _ alike =>
    ⟨{ alike with value := rfl, pending := rfl, onValue := .nil },alike.onValue⟩

theorem note (beside : Beside s v side e u w) (x : Notice) : Beside s v side e (u.note x) (w.note x) := by
  cases side with
  | true =>
    have alike : Alike s e u w := beside
    exact { alike with }
  | false =>
    obtain ⟨rfl,alike⟩ := beside
    exact ⟨rfl,{ alike with }⟩

theorem looked (beside : Beside s v side e u w) :
    Beside s v side e { u with lookups := u.lookups + 1 } { w with lookups := w.lookups + 1 } := by
  cases side with
  | true =>
    have alike : Alike s e u w := beside
    exact { alike with }
  | false =>
    obtain ⟨rfl,alike⟩ := beside
    exact ⟨rfl,{ alike with }⟩

theorem texts_setHook (w : World) (widget : Nat) (hook : Option Nat) :
    (w.widgets.modify widget fun x => x.setHook hook).map Widget.text = w.widgets.map Widget.text :=
  map_modify_same Widget.text _ (fun x => by cases hook <;> rfl) w.widgets widget

theorem setHook (beside : Beside s v side e u w) (widget : Nat) {a b : Option Nat}
    (hooks : Option.Rel (Stands side e.links) a b) :
    Beside s v side e { u with widgets := u.widgets.modify widget fun x => x.setHook a }
      { w with widgets := w.widgets.modify widget fun x => x.setHook b } := by
  cases side with
  | true =>
    have alike : Alike s e u w := beside
    exact { alike with texts := by rw [texts_setHook,texts_setHook]; exact alike.texts }
  | false =>
    obtain rfl := rel_other hooks
    obtain ⟨rfl,alike⟩ := beside
    exact ⟨rfl,{ alike with texts := by rw [texts_setHook]; exact alike.texts }⟩

theorem sleep (beside : Beside s v side e u w) (stands : Stands side e.tasks i j) (ms : Nat) :
    Beside s v side e { u with schedule := u.schedule.sleep i ms } { w with schedule := w.schedule.sleep j ms } := by
  cases side with
  | true =>
    have alike : Alike s e u w := beside
    have now : u.schedule.now = w.schedule.now := alike.now
    exact { alike with timers := alike.timers.push_kept ⟨by rw [now],stands⟩ }
  | false =>
    obtain rfl := stands.placed
    obtain ⟨rfl,alike⟩ := beside
    exact ⟨rfl,{ alike with timers := alike.timers.push_other ⟨rfl,stands⟩ }⟩

theorem modifyTask (beside : Beside s v side e u w) (stands : Stands side e.tasks i j) {f g : Option Task → Option Task}
    (keeps : ∀ t k, Option.Rel (TaskAlike s e side) t k → Option.Rel (TaskAlike s e side) (f t) (g k)) :
    Beside s v side e { u with tasks := u.tasks.modify i f } { w with tasks := w.tasks.modify j g } := by
  obtain rfl := stands.placed
  cases side with
  | true =>
    have alike : Alike s e u w := beside
    exact { alike with tasks := alike.tasks.modify_kept stands.marked keeps }
  | false =>
    obtain ⟨rfl,alike⟩ := beside
    have firm (t k : Option Task) (rel : Option.Rel (TaskAlike s e false) t k) : t = k := by
      cases rel with
      | none => rfl
      | some alike => rw [alike.eq]
    obtain ⟨same,tasks⟩ := alike.tasks.modify_same stands.marked firm keeps
    exact ⟨congrArg (fun tasks => { u with tasks }) same,{ alike with tasks }⟩

theorem setJob (beside : Beside s v side e u w) (stands : Stands side e.tasks i j) {job next : Job}
    (alike : JobAlike s e side job next) : Beside s v side e (u.setJob i job) (w.setJob j next) := by
  refine beside.modifyTask stands fun t k rel => ?_
  cases rel with
  | none => exact .none
  | some same => exact .some { same with job := alike }

theorem forget (beside : Beside s v side e u w) (stands : Stands side e.tasks i j) :
    Beside s v side e { u with schedule := u.schedule.forget i } { w with schedule := w.schedule.forget j } := by
  cases side with
  | true =>
    have alike : Alike s e u w := beside
    exact { alike with
      timers := alike.timers.filter fun a c same =>
        decide_eq_decide.mpr (not_congr (same.task.same_iff stands)) }
  | false =>
    obtain rfl := stands.placed
    obtain ⟨rfl,alike⟩ := beside
    exact ⟨rfl,{ alike with
      timers := alike.timers.filter_other fun a c same => decide_eq_true (same.task.apart stands) }⟩

theorem remove (beside : Beside s v side e u w) (stands : Stands side e.tasks i j) :
    Beside s v side e (u.remove i) (w.remove j) := by
  have removed := (beside.modifyTask stands fun _ _ _ => Option.Rel.none).forget stands
  rw [World.remove,World.remove,List.set_eq_modify,List.set_eq_modify]
  exact removed

theorem bindName (beside : Beside s v side e u w) {name : String} (own : s.name name = side)
    (stands : Stands side e.links n m) : Beside s v side e (u.bindName name n) (w.bindName name m) := by
  cases side with
  | true =>
    have alike : Alike s e u w := beside
    exact { alike with names := (drop_kept alike.names name).cons_kept ⟨rfl,own,stands⟩ }
  | false =>
    obtain rfl := stands.placed
    obtain ⟨rfl,alike⟩ := beside
    exact ⟨rfl,{ alike with names := (drop_other alike.names own).cons_other ⟨rfl,own,stands⟩ }⟩

theorem modifyRegistry (beside : Beside s v side e u w) {r : Nat} (own : s.registry r = side) {f g : Registry → Registry}
    (keeps : ∀ a b, RegistryAlike e side a b → RegistryAlike e side (f a) (g b)) :
    Beside s v side e { u with registries := u.registries.modify r f }
      { w with registries := w.registries.modify r g } := by
  have here := beside.registry own
  cases side with
  | true =>
    have alike : Alike s e u w := beside
    exact { alike with registries := alike.registries.modify_kept own keeps }
  | false =>
    obtain ⟨rfl,alike⟩ := beside
    have same : u.registries.modify r f = u.registries.modify r g := by
      revert here
      rcases there : u.registries[r]? with _ | x
      · intro _
        have beyond := List.getElem?_eq_none_iff.mp there
        rw [List.modify_eq_self beyond,List.modify_eq_self beyond]
      · rintro (alike | -)
        exact modify_congr there (keeps x x alike).eq
    have held (c : Registry) (own : RegistryAlike e false c c) : RegistryAlike e false (g c) (g c) := by
      have after := keeps c c own
      rwa [after.eq] at after
    exact ⟨congrArg (fun registries => { u with registries }) same,
      { alike with registries := alike.registries.modify_other own held }⟩

theorem withoutFactory (beside : Beside s v side e u w) {r : Nat} (own : s.registry r = side) :
    Beside s v side e (u.withoutFactory r) (w.withoutFactory r) :=
  beside.modifyRegistry own fun _ _ alike => { alike with poisoned := rfl }

/-! What a side makes is its own. -/

theorem addTask (beside : Beside s v side e u w) {t k : Task} (alike : TaskAlike s e side t k) :
    ∃ d, e.Grows side d ∧ Beside s v side d { u with tasks := u.tasks ++ [some t] }
      { w with tasks := w.tasks ++ [some k] } ∧ Stands side d.tasks u.tasks.length w.tasks.length := by
  have grows : e.Grows side { e with tasks := e.tasks ++ [side] } :=
    { Marks.Grows.refl side e with tasks := ⟨1,rfl⟩ }
  refine ⟨_,grows,?_⟩
  cases side with
  | true =>
    have drawn := Drawn.grow grows beside
    obtain ⟨tasks,new⟩ := drawn.tasks.push_kept (.some (alike.grow grows))
    exact ⟨{ drawn with tasks },new⟩
  | false =>
    obtain ⟨rfl,alikes⟩ := beside
    obtain rfl := alike.eq
    have drawn := Drawn.grow grows alikes
    obtain ⟨tasks,new⟩ := drawn.tasks.push_other (.some (alike.grow grows))
    exact ⟨⟨rfl,{ drawn with tasks }⟩,new⟩

theorem spawn (beside : Beside s v side e u w) (label : Option Nat) {job next : Job}
    (own : ∀ number, label = some number → s.number number = side) (alike : JobAlike s e side job next) :
    ∃ d, e.Grows side d ∧ Beside s v side d (u.spawn label job) (w.spawn label next) := by
  obtain ⟨d,grows,added,new⟩ := beside.addTask (t := { label, job }) (k := { label, job := next }) ⟨rfl,own,alike,rfl⟩
  exact ⟨d,grows,added.wake new⟩

theorem addPromise (beside : Beside s v side e u w) :
    ∃ d, e.Grows side d ∧ Beside s v side d { u with promises := u.promises ++ [({} : Promise Verdict)] }
      { w with promises := w.promises ++ [({} : Promise Verdict)] } ∧
      Stands side d.promises u.promises.length w.promises.length := by
  have grows : e.Grows side { e with promises := e.promises ++ [side] } :=
    { Marks.Grows.refl side e with promises := ⟨1,rfl⟩ }
  have fresh (d : Marks) : PromiseAlike d side {} {} := ⟨rfl,rfl,rfl,.nil,.nil⟩
  refine ⟨_,grows,?_⟩
  cases side with
  | true =>
    have drawn := Drawn.grow grows beside
    obtain ⟨promises,new⟩ := drawn.promises.push_kept (fresh _)
    exact ⟨{ drawn with promises },new⟩
  | false =>
    obtain ⟨rfl,alike⟩ := beside
    have drawn := Drawn.grow grows alike
    obtain ⟨promises,new⟩ := drawn.promises.push_other (fresh _)
    exact ⟨⟨rfl,{ drawn with promises }⟩,new⟩

theorem addModel (beside : Beside s v side e u w) (x : PlannedModel) :
    ∃ d, e.Grows side d ∧ Beside s v side d { u with models := u.models ++ [x] }
      { w with models := w.models ++ [x] } ∧ Stands side d.models u.models.length w.models.length := by
  have grows : e.Grows side { e with models := e.models ++ [side] } :=
    { Marks.Grows.refl side e with models := ⟨1,rfl⟩ }
  refine ⟨_,grows,?_⟩
  cases side with
  | true =>
    have drawn := Drawn.grow grows beside
    obtain ⟨models,new⟩ := drawn.models.push_kept (Eq.refl x)
    exact ⟨{ drawn with models },new⟩
  | false =>
    obtain ⟨rfl,alike⟩ := beside
    have drawn := Drawn.grow grows alike
    obtain ⟨models,new⟩ := drawn.models.push_other (Eq.refl x)
    exact ⟨⟨rfl,{ drawn with models }⟩,new⟩

theorem addLink (beside : Beside s v side e u w) {l k : Link} (alike : LinkAlike e side l k) :
    ∃ d, e.Grows side d ∧ Beside s v side d { u with links := u.links ++ [l] } { w with links := w.links ++ [k] } ∧
      Stands side d.links u.links.length w.links.length := by
  have grows : e.Grows side { e with links := e.links ++ [side] } :=
    { Marks.Grows.refl side e with links := ⟨1,rfl⟩ }
  refine ⟨_,grows,?_⟩
  cases side with
  | true =>
    have drawn := Drawn.grow grows beside
    obtain ⟨links,new⟩ := drawn.links.push_kept (alike.grow grows)
    exact ⟨{ drawn with links },new⟩
  | false =>
    obtain ⟨rfl,alikes⟩ := beside
    obtain rfl := alike.eq
    have drawn := Drawn.grow grows alikes
    obtain ⟨links,new⟩ := drawn.links.push_other (alike.grow grows)
    exact ⟨⟨rfl,{ drawn with links }⟩,new⟩

theorem withLink (beside : Beside s v side e u w) {r : Nat} {a b : Registry} (own : s.registry r = side)
    (alike : RegistryAlike e side a b) :
    ∃ d, e.Grows side d ∧ Beside s v side d (u.withLink r a) (w.withLink r b) ∧
      Stands side d.links u.links.length w.links.length := by
  have made : u.blueprint.build u.now = w.blueprint.build w.now := by
    rw [beside.common.blueprint,beside.common.now]
  obtain ⟨c,grown,modelled,model⟩ := beside.addModel (w.blueprint.build w.now)
  obtain ⟨d,grows,linked,link⟩ := modelled.addLink
    (l := { model := u.models.length, config := a.config, slot := { id := a.config.editorId }, live := a.config.live })
    (k := { model := w.models.length, config := b.config, slot := { id := b.config.editorId }, live := b.config.live })
    ⟨model,.none,alike.config,by rw [alike.config],by rw [alike.config],rfl,rfl,rfl⟩
  have noted := (linked.modifyRegistry (f := fun r => { r with last := some u.links.length })
    (g := fun r => { r with last := some w.links.length }) own fun _ _ same =>
    { same with last := .some link }).note (.created b.config.editorId)
  refine ⟨d,grown.trans grows,?_,link⟩
  have first : u.withLink r a = { u with
      models := u.models ++ [w.blueprint.build w.now]
      links := u.links ++
        [{ model := u.models.length, config := a.config, slot := { id := a.config.editorId }, live := a.config.live }]
      notices := u.notices ++ [.created b.config.editorId]
      registries := u.registries.modify r fun r => { r with last := some u.links.length } } := by
    rw [World.withLink,made,alike.config]
  rw [first]
  exact noted

end Beside
end EditorLink
