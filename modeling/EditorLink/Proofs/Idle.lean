import EditorLink.Proofs.Attempt
import EditorLink.Proofs.Tasks

/-! What makes a model active: someone outside keeps it busy or stalls it, or an update of its link begins
to run. Nothing else does, and only the clock can make it so again. -/
namespace EditorLink
open World EditorLink.Action

/-- Nothing was noted, nothing is remembered, and the cache was never cleared. -/
def Model.Blank (m : Model) : Prop := m.updates = [] ∧ m.lastText = "" ∧ m.uncaches = 0

namespace World

/-- How often the cache of a model was cleared. -/
def uncachesOf (w : World) (k : Nat) : Nat := w.models[k]?.elim 0 fun m => m.model.uncaches

/-- The models are as they were, but for new ones. -/
def Inert (v w : World) : Prop :=
  ∃ fresh, w.models = v.models ++ fresh ∧ ∀ m ∈ fresh, m.model.Blank

theorem inert_of {v w : World} (same : w.models = v.models) : Inert v w :=
  ⟨[],by rw [same,List.append_nil],by simp⟩

instance : Frame Inert where
  refl _ := inert_of rfl
  trans := by
    rintro u v w ⟨first,before,fresh⟩ ⟨next,after,also⟩
    refine ⟨first ++ next,by rw [after,before,List.append_assoc],fun m member => ?_⟩
    exact (List.mem_append.mp member).elim (fresh m) (also m)

/-- Nothing has made the model busier than it was. -/
def Dormant (k : Nat) (v w : World) : Prop :=
  ∀ m, v.models[k]? = some m → ∃ x, w.models[k]? = some x ∧
    (x.model.stalled = true → m.model.stalled = true) ∧
      (x.model.busyUntil = none ∨ x.model.busyUntil = m.model.busyUntil)

instance (k : Nat) : Frame (Dormant k) where
  refl _ m there := ⟨m,there,id,.inr rfl⟩
  trans first next m there := by
    obtain ⟨x,between,stalled,busy⟩ := first m there
    obtain ⟨y,after,stall,until'⟩ := next x between
    refine ⟨y,after,fun still => stalled (stall still),until'.elim .inl fun same => ?_⟩
    rw [same]
    exact busy

variable {v w : World} {k : Nat}

theorem Inert.dormant (inert : Inert v w) : Dormant k v w := by
  obtain ⟨fresh,same,-⟩ := inert
  intro m there
  exact ⟨m,by rw [same,getElem?_append_some there],id,.inr rfl⟩

theorem Dormant.idle (dormant : Dormant k v w) (known : k < v.models.length) (onward : v.now ≤ w.now)
    (idle : v.modelActive k = false) : w.modelActive k = false := by
  obtain ⟨x,there,stalled,busy⟩ := dormant _ (List.getElem?_eq_getElem known)
  simp only [modelActive,List.getElem?_eq_getElem known,Option.any_some,Model.isActive,
    Bool.or_eq_false_iff] at idle
  simp only [modelActive,there,Option.any_some,Model.isActive,Bool.or_eq_false_iff]
  obtain ⟨calm,free⟩ := idle
  refine ⟨?_,?_⟩
  · rw [← Bool.not_eq_true] at calm ⊢
    exact fun still => calm (stalled still)
  · rcases busy with none | same
    · rw [none]
      rfl
    · rw [same]
      rcases until' : v.models[k].model.busyUntil with _ | time
      · rfl
      · rw [until'] at free
        have past : ¬ v.now < time := by simpa using free
        have late : ¬ w.now < time := by omega
        simp [late]

theorem dormant_modifyModel (w : World) (n : Nat) (f : Model → Model)
    (same : ∀ m : Model, (f m).stalled = m.stalled ∧ (f m).busyUntil = m.busyUntil) :
    Dormant k w (w.modifyModel n f) := by
  intro m there
  by_cases here : n = k
  · subst here
    refine ⟨{ m with model := f m.model },by simp [modifyModel,there],?_,.inr (same m.model).2⟩
    rw [(same m.model).1]
    exact id
  · exact ⟨m,by simp [modifyModel,there,here],id,.inr rfl⟩

theorem dormant_others (w : World) {n : Nat} (other : n ≠ k) (f : Model → Model) :
    Dormant k w (w.modifyModel n f) := fun m there =>
  ⟨m,by simp [modifyModel,there,other],id,.inr rfl⟩

/-- The move makes the model active, or lets an update of a link with that model begin to run. -/
inductive Rouses (w : World) (k : Nat) : Move → Prop
  | busy (number ms : Nat) : Rouses w k (.perform number (.outside (.busy k ms)))
  | stall (number : Nat) : Rouses w k (.perform number (.outside (.stall k)))
  | update (id n : Nat) (t : Task) (text : String) (interrupts : Nat) (model : w.modelOf n = some k)
      (runs : (w.turn id).tasks[id]? = some (some t)) (began : t.job = .update n (.running text interrupts)) :
      Rouses w k (.turn id)

end World

namespace Action

variable {k : Nat}

theorem startStop_inert (n : Nat) (canSpawn : Bool) : Keeps Inert (startStop n canSpawn) := by
  intro w
  rcases startStop_cases n canSpawn w with ⟨fault,refused⟩ | ⟨l,v,-,-,released,ran⟩
  · rw [refused]
    exact Frame.refl w
  · have models : v.models = w.models := by rw [released.same]
    rw [ran]
    split <;> exact inert_of models

theorem await_inert (id p : Nat) : Keeps Inert (await id p) := by
  intro w
  rw [exec_await]
  split <;> exact inert_of rfl

theorem register_inert (registry : Nat) : Keeps Inert (register registry) :=
  register_keeps registry (fun _ => inert_of rfl) fun w _ _ => ⟨[w.blueprint.build w.now],rfl,by
    simp [Blueprint.build,Model.Blank]⟩

/-- Where models only matter when a cache is cleared, little is left to be kept. -/
theorem serves_of_inert {R : World → World → Prop} [Frame R] {n : Nat}
    (inert : ∀ {v w}, Inert v w → R v w) (clears : Keeps R (uncacheModel n)) : Serves n R :=
  serves_of_handling (fun handling => inert (inert_of (by rw [handling.same])))
    (fun _ _ => inert (inert_of rfl)) (fun id p _ => (await_inert id p).mono inert)
    ((startStop_inert n true).mono inert) clears

theorem serves_dormant (n : Nat) : Serves n (Dormant k) := by
  refine serves_of_inert Inert.dormant ?_
  refine uncacheModel_keeps n (fun w j => dormant_modifyModel w j _ fun m => ?_) fun _ =>
    (inert_of rfl).dormant
  rw [Model.uncache]
  split <;> exact ⟨rfl,rfl⟩

theorem resumeStop_dormant (id p : Nat) (plan : StopPlan) (deadline : Option Nat) :
    Keeps (Dormant k) (resumeStop id p plan deadline) := by
  intro w
  have tried := resumeStop_tried id p plan deadline w
  generalize (exec (resumeStop id p plan deadline) w).2 = v at tried ⊢
  rcases tried.models with same | ⟨-,-,same⟩
  · exact (inert_of same).dormant
  · have interrupted : Dormant k w (w.modifyModel plan.model Model.interrupt) :=
      dormant_modifyModel w plan.model _ fun _ => ⟨rfl,rfl⟩
    intro m there
    rw [same]
    exact interrupted m there

theorem feed_dormant (n : Nat) (text : String) : Keeps (Dormant k) (feed n text) :=
  feed_keeps (fun w j _ _ => dormant_modifyModel w j _ fun _ => ⟨rfl,rfl⟩) n text

/-- The action leaves the model alone, or it is the link's model and an update runs from now on. -/
def Stirs (n k : Nat) (a : Action Next) (w : World) : Prop := Dormant k w (exec a w).2 ∨
  w.modelOf n = some k ∧ ∃ text interrupts, (exec a w).1 = .ok (.pause (.update n (.running text interrupts)))

variable {n : Nat} {w : World}

theorem Keeps.stirs {a : Action Next} (keeps : Keeps (Dormant k) a) : Stirs n k a w := .inl (keeps w)

theorem Reads.stirs {α : Type} {a : Action α} {f : α → Action Next} (reads : Reads a)
    (next : ∀ x, exec a w = (.ok x,w) → Stirs n k (f x) w) : Stirs n k (a >>= f) w := by
  rcases reads.bind_cases f w with ⟨fault,failed⟩ | ⟨x,ran,same⟩
  · exact .inl (by rw [failed]; exact Frame.refl w)
  · have stirs := next x ran
    rw [Stirs,same]
    exact stirs

theorem note_stirs {notice : Notice} {a : Action Next} (next : Stirs n k a (w.note notice)) :
    Stirs n k (do note notice; a) w := by
  have noted : Dormant k w (w.note notice) := (inert_of rfl).dormant
  rw [Stirs,exec_bind_ok (exec_note notice w)]
  exact next.imp (fun dormant => Frame.trans noted dormant) id

theorem startUpdate_stirs (id n : Nat) (w : World) : Stirs n k (startUpdate id n) w := by
  refine (reads_ensureAlive n).stirs fun _ _ => (reads_visit _).stirs fun _ _ =>
    reads_get.stirs fun v _ => note_stirs ?_
  refine (reads_visit _).stirs fun _ _ => (reads_link n).stirs fun l found =>
    (reads_model l.model).stirs fun planned _ => ?_
  have there := link_ok found
  split
  · exact (reads_fail _).keeps.stirs
  · split
    · exact (feed_dormant l.model v.text).stirs
    · refine reads_now.stirs fun time _ => ?_
      by_cases here : l.model = k
      · refine .inr ⟨?_,v.text,planned.model.interrupts,rfl⟩
        rw [World.modelOf,there,← here]
        rfl
      · exact .inl (dormant_others _ here fun m => m.busyFor time planned.updateMillis)

theorem resumeUpdate_stirs (id n : Nat) (phase : UpdatePhase) (w : World) :
    Stirs n k (resumeUpdate id n phase) w := by
  cases phase with
  | fresh =>
    refine (reads_ensureAlive n).stirs fun _ _ => (reads_link n).stirs fun l _ =>
      (reads_model l.model).stirs fun planned _ => ?_
    dsimp only
    split
    · exact startUpdate_stirs id n w
    · exact .inl (inert_of rfl).dormant
  | debouncing => exact startUpdate_stirs id n w
  | running text interrupts =>
    refine (reads_link n).stirs fun l _ => (reads_model l.model).stirs fun planned _ => ?_
    split
    · exact (feed_dormant l.model text).stirs
    · exact (reads_fail _).keeps.stirs

theorem resume_dormant (id : Nat) {job : Job} (other : ∀ n phase, job ≠ .update n phase) :
    Keeps (Dormant k) (resume id job) := by
  refine resume_serves id job ?_ (fun n _ => serves_dormant n) ?_ ?_ ?_
  · intro n phase same
    exact absurd same (other n phase)
  · intro registry name _
    exact resumeCreate_fresh_keeps registry ((register_inert registry).mono Inert.dormant)
      serves_dormant id name
  · intro p plan deadline _
    exact resumeStop_dormant id p plan deadline
  · intro p
    exact (await_inert id p).mono Inert.dormant

end Action

namespace World

variable {w : World} {k : Nat}

theorem turn_dormant {id : Nat} (quiet : ¬ w.Rouses k (.turn id)) : Dormant k w (w.turn id) := by
  have entities {u v : World} (entities : SameEntities u v) : Dormant k u v := (inert_of entities.models).dormant
  refine turn_keeps entities w id fun t there active => ?_
  -- a pause of an update that runs is told from the task that the turn leaves behind
  by_cases update : ∃ n phase, t.job = .update n phase
  · obtain ⟨n,phase,job⟩ := update
    have stirs := resumeUpdate_stirs (k := k) id n phase (w.taken id)
    rw [job]
    rcases stirs with dormant | ⟨model,text,interrupts,paused⟩
    · exact dormant
    · refine absurd ?_ quiet
      obtain ⟨r,v,ran,-,known,turned⟩ := turn_ran there active
      have paused : r = .ok (.pause (.update n (.running text interrupts))) := by
        rw [job] at ran
        exact (congrArg Prod.fst ran).symm.trans paused
      refine .update id n { t with job := .update n (.running text interrupts) } text interrupts model ?_ rfl
      rw [turned,paused]
      exact conclude_paused known t.label _
  · exact resume_dormant id (fun n phase same => update ⟨n,phase,same⟩) (w.taken id)

theorem change_dormant {o : Outside} (w : World) (busy : ∀ ms, o ≠ .busy k ms) (stall : o ≠ .stall k) :
    Dormant k w (w.change o).2 := by
  have planned (n : Nat) (f : PlannedModel → PlannedModel)
      (same : n = k → ∀ m, ((f m).model.stalled = true → m.model.stalled = true) ∧
        ((f m).model.busyUntil = none ∨ (f m).model.busyUntil = m.model.busyUntil)) :
      Dormant k w (w.onModel n f).2 := by
    unfold onModel
    split
    · intro m there
      by_cases here : n = k
      · subst here
        exact ⟨f m,by simp [there],same rfl m⟩
      · exact ⟨m,by simp [there,here],id,.inr rfl⟩
    · exact Frame.refl w
  have edited (n : Nat) {f : World → World} (same : (f w).models = w.models) :
      Dormant k w (w.onEditor n f).2 :=
    onEditor_keeps (Frame.refl w) fun _ => (inert_of same).dormant
  have kept (v : World) (editor : Nat) : (v.keep editor).models = v.models := by
    unfold keep
    split <;> rfl
  have settled (v : World) (editor : Nat) (same : v.models = w.models) : Dormant k w (v.keep editor) :=
    (inert_of ((kept v editor).trans same)).dormant
  cases o with
  | factory blueprint => exact (inert_of rfl).dormant
  | crash site on => exact (inert_of rfl).dormant
  | mount text keeps =>
    unfold change
    dsimp only
    split
    · exact settled _ _ rfl
    · exact (inert_of rfl).dormant
  | unmount => exact (inert_of rfl).dormant
  | keep editor => exact edited editor (kept w editor)
  | remount editor => exact edited editor rfl
  | release editor => exact (inert_of rfl).dormant
  | type editor text canSpawn =>
    refine edited editor ?_
    unfold typeIn
    dsimp only
    split
    · unfold input
      split
      · rfl
      · split <;> rfl
    · rfl
  | busy model ms => exact planned model _ fun here => absurd (by rw [here]) (busy ms)
  | stall model => exact planned model _ fun here => absurd (by rw [here]) stall
  | settle model => exact planned model _ fun _ m => ⟨nofun,.inl rfl⟩
  | failUncache model on => exact planned model _ fun _ m => ⟨id,.inr rfl⟩
  | failUpdate model e => exact planned model _ fun _ m => ⟨id,.inr rfl⟩
  | updateMillis model ms => exact planned model _ fun _ m => ⟨id,.inr rfl⟩

theorem perform_inert (w : World) (number : Nat) (c : Command) (single : ∀ ms, c ≠ .advance ms)
    (inside : ∀ o, c ≠ .outside o) : Inert w (w.perform number c).2 := by
  have does := perform_does w number c single
  generalize (w.perform number c).2 = v at does ⊢
  cases does with
  | outside o => exact absurd rfl (inside o)
  | switched name on n found => exact inert_of (by rw [(setLive_handling on w).same])
  | killed name n found => exact inert_of (by rw [(kill_handling w).same])
  | stopped name canSpawn n handles => exact Frame.trans (startStop_inert n canSpawn w) (inert_of rfl)
  | cancelled handle promise =>
    obtain ⟨schedule,same⟩ := updatePromise_same w promise Promise.cancel
    exact inert_of (by rw [same])
  | aborted label => exact inert_of (holdsNoMore_abort w label).models
  | _ => exact inert_of rfl

theorem move_dormant {m : Move} (single : m.Single) (quiet : ¬ w.Rouses k m) : Dormant k w (w.move m) := by
  cases m with
  | perform number c =>
    by_cases outside : ∃ o, c = .outside o
    · obtain ⟨o,rfl⟩ := outside
      refine change_dormant w ?_ ?_
      · rintro ms rfl
        exact quiet (.busy number ms)
      · rintro rfl
        exact quiet (.stall number)
    · exact (perform_inert w number c (fun ms same => single number ms (by rw [same]))
        fun o same => outside ⟨o,same⟩).dormant
  | turn id => exact turn_dormant quiet
  | arrive now => exact (inert_of rfl).dormant

theorem dormant_or_roused (w : World) (moves : List Move) (single : ∀ m ∈ moves, m.Single) :
    Dormant k w (w.run moves) ∨
      ∃ first m rest, moves = first ++ m :: rest ∧ (w.run first).Rouses k m := by
  induction moves generalizing w with
  | nil => exact .inl (Frame.refl w)
  | cons m rest ih =>
    by_cases roused : w.Rouses k m
    · exact .inr ⟨[],m,rest,rfl,roused⟩
    · have step := move_dormant (single m List.mem_cons_self) roused
      rcases ih (w.move m) fun x member => single x (List.mem_cons_of_mem m member) with
        later | ⟨first,x,after,split,rouses⟩
      · exact .inl (Frame.trans step later)
      · exact .inr ⟨m :: first,x,after,by rw [split]; rfl,rouses⟩

end World
end EditorLink
