import EditorLink.Proofs.Partition
import EditorLink.Proofs.Timely

/-! A run without one side. Everything that was done through the registries, names and handles of that side is left
out, with the turns of its tasks; what remains has the same effect on the other side. -/
namespace EditorLink
open World

/-- The model that is changed from outside. -/
def Outside.model? : Outside → Option Nat
  | .busy model _ => some model
  | .stall model => some model
  | .settle model => some model
  | .failUncache model _ => some model
  | .failUpdate model _ => some model
  | .updateMillis model _ => some model
  | _ => none

/-- The same change of another model. -/
def Outside.onto (n : Nat) : Outside → Outside
  | .busy _ ms => .busy n ms
  | .stall _ => .stall n
  | .settle _ => .settle n
  | .failUncache _ on => .failUncache n on
  | .failUpdate _ e => .failUpdate n e
  | .updateMillis _ ms => .updateMillis n ms
  | o => o

def Reply.renumber (p : List Bool) : Reply → Reply
  | .model x => .model (x.map (rank p))
  | r => r

def Report.renumber (p : List Bool) : Report → Report
  | .created n => .created (rank p n)
  | r => r

namespace Marks

/-- What is new in the world is on the given side. -/
def after (e : Marks) (side : Bool) (w : World) : Marks where
  links := e.links ++ List.replicate (w.links.length - e.links.length) side
  models := e.models ++ List.replicate (w.models.length - e.models.length) side
  promises := e.promises ++ List.replicate (w.promises.length - e.promises.length) side
  tasks := e.tasks ++ List.replicate (w.tasks.length - e.tasks.length) side

/-- The move with the numbers that tasks and models have where the other side is left out. -/
def rename (e : Marks) : Move → Move
  | .perform number (.outside o) => .perform number (.outside (o.model?.elim o fun m => o.onto (rank e.models m)))
  | .perform number c => .perform number c
  | .turn id => .turn (rank e.tasks id)
  | .arrive now => .arrive now

end Marks

namespace Split

/-- The side of a move. Time and what happens around links belong to both sides. -/
def side (s : Split) (e : Marks) : Move → Option Bool
  | .perform _ (.outside o) => o.model?.bind fun m => e.models[m]?
  | .perform _ c => s.of c
  | .turn id => e.tasks[id]?
  | .arrive _ => none

def next (s : Split) (e : Marks) (w : World) (m : Move) : Marks := e.after ((s.side e m).getD true) (w.move m)

/-- The run without the moves of the other side. -/
def reduce (s : Split) (e : Marks) (w : World) : List Move → List Move
  | [] => []
  | m :: rest =>
    (if s.side e m = some false then [] else [e.rename m]) ++ s.reduce (s.next e w m) (w.move m) rest

/-- What is kept after a run. -/
def marks (s : Split) (e : Marks) (w : World) : List Move → Marks
  | [] => e
  | m :: rest => s.marks (s.next e w m) (w.move m) rest

/-- A move obeys the division. -/
def Parts (s : Split) : Move → Prop
  | .perform number c => s.Divides number c
  | _ => True

end Split

/-- What a caller is told in a move, with the number of the command. -/
def World.replyTo (w : World) : Move → Option (Nat × Reply)
  | .perform number c => some (number,(w.perform number c).1)
  | _ => none

def World.replies (w : World) : List Move → List (Nat × Reply)
  | [] => []
  | m :: rest => (w.replyTo m).toList ++ (w.move m).replies rest

/-- What callers are told in the moves that are kept. -/
def Split.replies (s : Split) (e : Marks) (w : World) : List Move → List (Nat × Reply)
  | [] => []
  | m :: rest =>
    (if s.side e m = some false then []
      else ((w.replyTo m).map fun r => (r.1,r.2.renumber (s.next e w m).models)).toList) ++
      s.replies (s.next e w m) (w.move m) rest

variable {s : Split} {v w : World} {side : Bool} {e d : Marks} {n m : Nat} {move : Move} {moves : List Move}

theorem ReplyAlike.renumber {a c : Reply} (alike : ReplyAlike e true a c) : a = c.renumber e.models := by
  cases alike with
  | same _ plain =>
    cases a with
    | model x => exact absurd rfl (plain x)
    | _ => rfl
  | model models =>
    cases models with
    | none => rfl
    | some stands => rw [stands.placed]; rfl

theorem ReportAlike.renumber {a c : Report} (alike : ReportAlike e true a c) : a = c.renumber e.models := by
  cases alike with
  | same _ plain =>
    cases a with
    | created n => exact absurd rfl (plain n)
    | _ => rfl
  | created model => rw [model.placed]; rfl

theorem after_of_grows {x : World} (grows : e.Grows side d) (alike : Alike s d x w) : d = e.after side w := by
  have last {p q : List Bool} {k : Nat} (long : q.length = k) (more : ∃ l, q = p ++ List.replicate l side) :
      q = p ++ List.replicate (k - p.length) side := by
    obtain ⟨l,rfl⟩ := more
    rw [List.length_append,List.length_replicate] at long
    rw [← long,Nat.add_sub_cancel_left]
  cases d
  rw [Marks.after,Marks.mk.injEq]
  exact ⟨last alike.links.length grows.links,last alike.models.length grows.models,
    last alike.promises.length grows.promises,last alike.tasks.length grows.tasks⟩

namespace Drawn

theorem wakeAll {is js : List Nat} (sifted : Sifted (fun side => Stands side e.tasks) is js) (alike : Alike s e v w) :
    Alike s e { v with schedule := v.schedule.wakeAll is } { w with schedule := w.schedule.wakeAll js } := by
  obtain ⟨p,woven⟩ := sifted
  induction woven generalizing v w with
  | nil => exact alike
  | kept i j stands _ ih =>
    have beside : Beside s v true e v w := alike
    exact ih (beside.wake stands)
  | other j stands _ ih =>
    have beside : Beside s v false e w w := ⟨rfl,alike⟩
    exact ih (beside.wake stands).2

theorem arrive (alike : Alike s e v w) (now : Nat) : Alike s e (v.move (.arrive now)) (w.move (.arrive now)) := by
  have rest : Sifted (TimerAlike e) (v.schedule.timers.filter fun t => ¬ t.deadline ≤ now)
      (w.schedule.timers.filter fun t => ¬ t.deadline ≤ now) :=
    alike.timers.filter fun a c same => by rw [same.deadline]
  have due : Sifted (TimerAlike e) (v.schedule.timers.filter fun t => t.deadline ≤ now)
      (w.schedule.timers.filter fun t => t.deadline ≤ now) :=
    alike.timers.filter fun a c same => by rw [same.deadline]
  have moved : Alike s e
      { v with schedule := { v.schedule with now, timers := v.schedule.timers.filter fun t => ¬ t.deadline ≤ now } }
      { w with schedule := { w.schedule with now, timers := w.schedule.timers.filter fun t => ¬ t.deadline ≤ now } } :=
    { alike with now := rfl, timers := rest }
  exact moved.wakeAll (due.map fun _ _ _ same => same.task)

theorem keep (alike : Alike s e v w) (editor : Nat) : Alike s e (v.keep editor) (w.keep editor) := by
  simp only [World.keep,alike.keeps]
  split
  · exact alike
  · exact { alike with keeps := rfl }

theorem mount (alike : Alike s e v w) (editor : Nat) : Alike s e (v.mount editor) (w.mount editor) :=
  { alike with
    host := by rw [World.mount,World.mount,alike.host]
    latest := rfl }

theorem onEditor (alike : Alike s e v w) (editor : Nat) {f : World → World} (keeps : Alike s e (f v) (f w)) :
    Alike s e (v.onEditor editor f).2 (w.onEditor editor f).2 ∧ (v.onEditor editor f).1 = (w.onEditor editor f).1 := by
  have beside : Beside s v true e v w := alike
  rw [World.onEditor,World.onEditor,beside.alive]
  split
  · exact ⟨keeps,rfl⟩
  · exact ⟨alike,rfl⟩

/-- What is changed around the links is changed for both sides. -/
theorem change (alike : Alike s e v w) {o : Outside} (plain : o.model? = none)
    (untyped : ∀ editor text canSpawn, o ≠ .type editor text canSpawn) :
    Alike s e (v.change o).2 (w.change o).2 ∧ (v.change o).1 = (w.change o).1 := by
  cases o with
  | factory blueprint => exact ⟨{ alike with blueprint := rfl },rfl⟩
  | crash site on => exact ⟨{ alike with sites := by simp only [World.change,alike.sites] },rfl⟩
  | mount text keeps =>
    have known : v.widgets.length = w.widgets.length := by simpa using congrArg List.length alike.texts
    have shown : Alike s e { v with widgets := v.widgets ++ [({ text } : Widget Nat)] }
        { w with widgets := w.widgets ++ [({ text } : Widget Nat)] } :=
      { alike with texts := by rw [List.map_append,List.map_append,alike.texts] }
    simp only [World.change,known]
    split
    · exact ⟨(shown.mount _).keep _,trivial⟩
    · exact ⟨shown.mount _,trivial⟩
  | unmount => exact ⟨{ alike with host := by rw [World.change,World.change,alike.host] },rfl⟩
  | keep editor => exact alike.onEditor editor (alike.keep editor)
  | remount editor => exact alike.onEditor editor (alike.mount editor)
  | release editor =>
    simp only [World.change,alike.keeps]
    exact ⟨{ alike with keeps := rfl },trivial⟩
  | type editor text canSpawn => exact absurd rfl (untyped editor text canSpawn)
  | _ => cases plain

end Drawn

theorem change_onto {o : Outside} (model : o.model? = some m) : o.onto m = o ∧
    ∃ f : Nat → PlannedModel → PlannedModel, ∀ (w : World) n, w.change (o.onto n) = w.onModel n (f w.now) := by
  cases o with
  | busy k ms =>
    cases model
    exact ⟨rfl,fun now m => { m with model := m.model.busyFor now ms },fun _ _ => rfl⟩
  | stall k =>
    cases model
    exact ⟨rfl,fun _ m => { m with model := m.model.stall },fun _ _ => rfl⟩
  | settle k =>
    cases model
    exact ⟨rfl,fun _ m => { m with model := m.model.settle },fun _ _ => rfl⟩
  | failUncache k on =>
    cases model
    exact ⟨rfl,fun _ m => { m with model := { m.model with failsUncache := on } },fun _ _ => rfl⟩
  | failUpdate k e =>
    cases model
    exact ⟨rfl,fun _ m => { m with failsUpdate := e },fun _ _ => rfl⟩
  | updateMillis k ms =>
    cases model
    exact ⟨rfl,fun _ m => { m with updateMillis := ms },fun _ _ => rfl⟩
  | _ => cases model

theorem Beside.onModel {u : World} (beside : Beside s v side e u w) (stands : Stands side e.models n m)
    (f : PlannedModel → PlannedModel) :
    Beside s v side e (u.onModel n f).2 (w.onModel m f).2 ∧ (u.onModel n f).1 = (w.onModel m f).1 := by
  obtain ⟨x,here,there⟩ := beside.model stands
  rw [World.onModel,World.onModel,if_pos (List.getElem?_eq_some_iff.mp here).1,
    if_pos (List.getElem?_eq_some_iff.mp there).1]
  exact ⟨beside.modifyPlanned stands f,rfl⟩

theorem Beside.changeModel {u : World} (beside : Beside s v side e u w) {o : Outside} (model : o.model? = some m)
    (stands : Stands side e.models n m) :
    Beside s v side e (u.change (o.onto n)).2 (w.change o).2 ∧ (u.change (o.onto n)).1 = (w.change o).1 := by
  obtain ⟨same,f,changed⟩ := change_onto model
  have here := changed w m
  rw [same] at here
  rw [here,changed u n,beside.common.now]
  exact beside.onModel stands (f w.now)

theorem rank_beyond {p : List Bool} {j : Nat} (beyond : p.length ≤ j) : rank p j = p.count true := by
  rw [rank,List.take_of_length_le beyond]

/-- Nobody has the model. -/
theorem Drawn.changeNone (alike : Alike s e v w) {o : Outside} (model : o.model? = some m) (unknown : e.models[m]? = none) :
    Alike s e (v.change (o.onto (rank e.models m))).2 (w.change o).2 ∧
      (v.change (o.onto (rank e.models m))).1 = (w.change o).1 := by
  obtain ⟨same,f,changed⟩ := change_onto model
  have here := changed w m
  rw [same] at here
  have beyond := List.getElem?_eq_none_iff.mp unknown
  have outside : ¬ m < w.models.length := by
    have long := alike.models.length
    omega
  rw [here,changed v _,rank_beyond beyond,alike.models.count,World.onModel,World.onModel,if_neg (Nat.lt_irrefl _),
    if_neg outside]
  exact ⟨alike,rfl⟩

theorem side_perform {number : Nat} {c : Command} (plain : ∀ o, c ≠ .outside o) :
    s.side e (.perform number c) = s.of c ∧ e.rename (.perform number c) = .perform number c := by
  cases c with
  | outside o => exact absurd rfl (plain o)
  | _ => exact ⟨rfl,rfl⟩

theorem of_plain {number : Nat} {c : Command} (plain : ∀ o, c ≠ .outside o) (single : Move.Single (.perform number c)) :
    ∃ side, s.of c = some side := by
  cases c with
  | outside o => exact absurd rfl (plain o)
  | advance ms => exact absurd rfl (single number ms)
  | _ => exact ⟨_,rfl⟩

/-- A move of the other side is not noticed. -/
theorem move_other (alike : Alike s e v w) (parts : s.Parts move) (theirs : s.side e move = some false) :
    Alike s (e.after false (w.move move)) v (w.move move) := by
  have beside : Beside s v false e w w := ⟨rfl,alike⟩
  have settled {x : World} (moved : ∃ d, e.Grows false d ∧ Beside s v false d x (w.move move)) :
      Alike s (e.after false (w.move move)) v (w.move move) := by
    obtain ⟨d,grows,-,later⟩ := moved
    rwa [← after_of_grows grows later]
  cases move with
  | arrive now => cases theirs
  | turn id => exact settled (beside.turn (Stands.other theirs))
  | perform number c =>
    by_cases outside : ∃ o, c = .outside o
    · obtain ⟨o,rfl⟩ := outside
      obtain ⟨m,model,marked⟩ := Option.bind_eq_some_iff.mp theirs
      exact settled ⟨e,.refl false e,(beside.changeModel model (Stands.other marked)).1⟩
    · have plain (o : Outside) (same : c = .outside o) : False := outside ⟨o,same⟩
      rw [(side_perform plain).1] at theirs
      obtain ⟨d,grows,later,-⟩ := beside.perform theirs parts
      exact settled ⟨d,grows,later⟩

/-- It is time for a move that is kept also where the other side is left out. -/
theorem due_rename (alike : Alike s e v w) (due : w.Due move) (kept : s.side e move ≠ some false) :
    v.Due (e.rename move) := by
  cases move with
  | perform number c =>
    by_cases outside : ∃ o, c = .outside o
    · obtain ⟨o,rfl⟩ := outside
      rfl
    · rw [(side_perform (s := s) fun o same => outside ⟨o,same⟩).2]
      exact due
  | turn id =>
    obtain ⟨rest,queue⟩ := List.head?_eq_some_iff.mp (show w.schedule.ready.head? = some id from due)
    obtain ⟨p,woven⟩ := alike.ready
    rw [queue] at woven
    have head : v.schedule.ready.head? = some (rank e.tasks id) := by
      generalize v.schedule.ready = queue at woven
      cases woven with
      | kept i _ stands _ => exact congrArg some stands.placed
      | other _ stands _ => exact absurd stands.marked kept
    exact head
  | arrive now =>
    obtain ⟨idle,later,early⟩ := due
    refine ⟨Sifted.nil_of_nil (idle ▸ alike.ready),Nat.le_trans (Nat.le_of_eq alike.now) later,fun t set => ?_⟩
    obtain ⟨c,there,same⟩ := alike.timers.mem_left set
    exact Nat.le_trans (early c there) (Nat.le_of_eq same.deadline.symm)

theorem Reply.renumber_plain {p : List Bool} {r : Reply} (plain : ∀ x, r ≠ .model x) : r.renumber p = r := by
  cases r with
  | model x => exact absurd rfl (plain x)
  | _ => rfl

/-- What is changed from outside has no model as its answer. -/
theorem change_plain (w : World) (o : Outside) (x : Option Nat) : (w.change o).1 ≠ .model x := by
  have model (n : Nat) (f : PlannedModel → PlannedModel) : (w.onModel n f).1 ≠ .model x := by
    rw [World.onModel]
    intro same
    split at same <;> cases same
  have editor (n : Nat) (f : World → World) : (w.onEditor n f).1 ≠ .model x := by
    rw [World.onEditor]
    intro same
    split at same <;> cases same
  cases o with
  | busy n ms => exact model n _
  | stall n => exact model n _
  | settle n => exact model n _
  | failUncache n on => exact model n _
  | failUpdate n e => exact model n _
  | updateMillis n ms => exact model n _
  | keep n => exact editor n _
  | remount n => exact editor n _
  | type n text canSpawn => exact editor n _
  | _ => exact fun same => by cases same

theorem Drawn.unready (alike : Alike s e v w) {id : Nat} (unknown : e.tasks[id]? = none) : w.turn id = w := by
  have beyond := List.getElem?_eq_none_iff.mp unknown
  have gone : w.tasks[id]? = none := List.getElem?_eq_none_iff.mpr (alike.tasks.length ▸ beyond)
  have unready : id ∉ w.schedule.ready := fun member => by
    obtain ⟨side,_,stands⟩ := alike.ready.sided member
    exact absurd stands.inside (Nat.not_lt.mpr beyond)
  rw [turn_idle (by rw [gone]; rfl),World.taken,List.erase_of_not_mem unready]

/-- A task that nobody has is not there where the other side is left out, either. -/
theorem Drawn.unready_left (alike : Alike s e v w) {id : Nat} (unknown : e.tasks[id]? = none) :
    v.turn (rank e.tasks id) = v := by
  have place : rank e.tasks id = v.tasks.length := by
    rw [rank_beyond (List.getElem?_eq_none_iff.mp unknown),alike.tasks.count]
  have gone : v.tasks[rank e.tasks id]? = none := List.getElem?_eq_none_iff.mpr (Nat.le_of_eq place.symm)
  have unready : rank e.tasks id ∉ v.schedule.ready := fun member => by
    obtain ⟨j,-,stands⟩ := alike.ready.mem_left member
    obtain ⟨t,k,there,-⟩ := alike.tasks.at_kept stands.marked
    have inside : rank e.tasks j < v.tasks.length := (List.getElem?_eq_some_iff.mp there).1
    have same : rank e.tasks id = rank e.tasks j := stands.placed
    omega
  rw [turn_idle (by rw [gone]; rfl),World.taken,List.erase_of_not_mem unready]

/-- What happens around links happens to the part in the same way. -/
theorem outside_kept (alike : Alike s e v w) {number : Nat} {o : Outside}
    (parts : s.Parts (.perform number (.outside o)))
    (kept : s.side e (.perform number (.outside o)) ≠ some false) :
    ∃ d, e.Grows true d ∧
      Alike s d (v.move (e.rename (.perform number (.outside o)))) (w.move (.perform number (.outside o))) ∧
      v.replyTo (e.rename (.perform number (.outside o))) =
        (w.replyTo (.perform number (.outside o))).map fun r => (r.1,r.2.renumber d.models) := by
  have beside : Beside s v true e v w := alike
  have told {x y : Reply × World} (same : x.1 = y.1) (plain : ∀ k, y.1 ≠ .model k) :
      some (number,x.1) = some (number,y.1.renumber e.models) := by
    rw [Reply.renumber_plain plain,same]
  rcases model : o.model? with _ | m
  · have untyped (editor : Nat) (text : String) (canSpawn : Bool) : o ≠ .type editor text canSpawn := by
      rintro rfl
      exact parts
    have renamed : e.rename (.perform number (.outside o)) = .perform number (.outside o) := by
      rw [Marks.rename,model]
      rfl
    obtain ⟨later,same⟩ := alike.change model untyped
    rw [renamed]
    exact ⟨e,.refl true e,later,told same (change_plain w o)⟩
  · have renamed : e.rename (.perform number (.outside o)) = .perform number (.outside (o.onto (rank e.models m))) := by
      rw [Marks.rename,model]
      rfl
    rw [renamed]
    rcases marked : e.models[m]? with _ | side
    · obtain ⟨later,same⟩ := alike.changeNone model marked
      exact ⟨e,.refl true e,later,told same (change_plain w o)⟩
    · cases side with
      | true =>
        obtain ⟨later,same⟩ := beside.changeModel model (Stands.kept marked)
        exact ⟨e,.refl true e,later,told same (change_plain w o)⟩
      | false =>
        refine absurd ?_ kept
        rw [Split.side,model]
        exact marked

/-- A move that is kept comes to the same where the other side is left out. -/
theorem move_kept (alike : Alike s e v w) (single : move.Single) (parts : s.Parts move)
    (kept : s.side e move ≠ some false) :
    ∃ d, e.Grows true d ∧ Alike s d (v.move (e.rename move)) (w.move move) ∧
      v.replyTo (e.rename move) = (w.replyTo move).map fun r => (r.1,r.2.renumber d.models) := by
  have beside : Beside s v true e v w := alike
  cases move with
  | arrive now => exact ⟨e,.refl true e,alike.arrive now,rfl⟩
  | turn id =>
    rcases marked : e.tasks[id]? with _ | side
    · have same : v.move (e.rename (.turn id)) = v := alike.unready_left marked
      have other : w.move (.turn id) = w := alike.unready marked
      rw [same,other]
      exact ⟨e,.refl true e,alike,rfl⟩
    · cases side with
      | true =>
        obtain ⟨d,grows,later⟩ := beside.turn (Stands.kept marked)
        exact ⟨d,grows,later,rfl⟩
      | false => exact absurd marked kept
  | perform number c =>
    by_cases outside : ∃ o, c = .outside o
    · obtain ⟨o,rfl⟩ := outside
      exact outside_kept alike parts kept
    · have plain (o : Outside) (same : c = .outside o) : False := outside ⟨o,same⟩
      obtain ⟨side,own⟩ := of_plain (s := s) plain single
      rw [(side_perform (s := s) plain).1] at kept
      obtain rfl : side = true := by
        cases side with
        | true => rfl
        | false => exact absurd own kept
      obtain ⟨d,grows,later,reply⟩ := beside.perform own parts
      rw [(side_perform (s := s) plain).2]
      exact ⟨d,grows,later,congrArg (fun r => some (number,r)) reply.renumber⟩

end EditorLink
