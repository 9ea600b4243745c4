import EditorLink.Proofs.Clearing

/-! What a model remembers of the texts that it was fed. A turn of an update may hand it another text, and a
turn of a teardown may make it forget the last one. Nothing else touches its memory. -/
namespace EditorLink
open World EditorLink.Action

/-- The text is noted, and from then on remembered. -/
def Memory.after (m : Memory) (time : Nat) (text : String) : Memory :=
  { m with log := m.log ++ [(time,text)], text := text }

/-- What an update makes of a text. -/
def Memory.state (m : Memory) (text : String) : ModelState := ⟨m.text,text,Text.lineCount text⟩

namespace World

/-- The memory of a model that is not there is empty. -/
def memory (w : World) (k : Nat) : Memory := w.memories[k]?.getD {}

def Recalls (k : Nat) (v w : World) : Prop := w.memory k = v.memory k

/-- Nothing is noted, and what is forgotten is counted. -/
def Unfed (k : Nat) (v w : World) : Prop :=
  Recalls k v w ∨ (w.memory k).log = (v.memory k).log ∧ (w.memory k).text = "" ∧
    (v.memory k).clearings < (w.memory k).clearings

instance (k : Nat) : Frame (Unfed k) where
  refl _ := .inl rfl
  trans := by
    rintro u v w first (same | ⟨log,text,count⟩)
    · unfold Unfed Recalls at first ⊢
      rwa [show w.memory k = v.memory k from same]
    · rcases first with same | ⟨log',-,count'⟩
      · rw [show v.memory k = u.memory k from same] at log count
        exact .inr ⟨log,text,count⟩
      · exact .inr ⟨log.trans log',text,Nat.lt_trans count' count⟩

/-- The model refuses to clear its cache. -/
def Locked (w : World) (k : Nat) : Prop := ∃ m, w.models[k]? = some m ∧ m.model.failsUncache = true

/-- A model that refuses to clear its cache goes on doing so, and remembers what it did. -/
def Withstands (k : Nat) (v w : World) : Prop := v.Locked k → w.Locked k ∧ Uncleared k v w

instance (k : Nat) : Frame (Withstands k) where
  refl _ locked := ⟨locked,rfl⟩
  trans first next locked :=
    have ⟨between,same⟩ := first locked
    have ⟨after,same'⟩ := next between
    ⟨after,Frame.trans same same'⟩

variable {v w : World} {k n j : Nat}

theorem clearings_eq (w : World) (k : Nat) : (w.memory k).clearings = w.uncachesOf k := by
  rw [memory,memories,List.getElem?_map,uncachesOf]
  cases w.models[k]? <;> rfl

theorem memory_eq {m : PlannedModel} (there : w.models[k]? = some m) : w.memory k = m.model.memory := by
  simp [memory,memories,there]

theorem recalls_of_memories (same : w.memories = v.memories) : Recalls k v w := by
  rw [Recalls,memory,memory,same]

theorem Inert.recalls (inert : Inert v w) : Recalls k v w := by
  obtain ⟨fresh,same,new⟩ := inert
  have blank (m : PlannedModel) (member : m ∈ fresh) : m.model.memory = {} := by
    obtain ⟨updates,text,uncaches⟩ := new m member
    rw [Model.memory,updates,text,uncaches]
  rw [Recalls,memory,memory,memories,memories,same,List.getElem?_map,List.getElem?_map,List.getElem?_append]
  split
  · rfl
  · rename_i beyond
    rw [List.getElem?_eq_none (Nat.not_lt.mp beyond)]
    rcases there : fresh[k - v.models.length]? with _ | m
    · rfl
    · exact blank m (List.mem_of_getElem? there)

theorem Inert.withstands (inert : Inert v w) : Withstands k v w := by
  rintro ⟨m,there,locked⟩
  obtain ⟨fresh,same,-⟩ := id inert
  exact ⟨⟨m,by rw [same,getElem?_append_some there],locked⟩,inert.uncleared⟩

theorem recalls_modifyModel (w : World) (n : Nat) {f : Model → Model} (same : ∀ m, (f m).memory = m.memory) :
    Recalls k w (w.modifyModel n f) := recalls_of_memories (map_modify_same _ _ (fun m => same m.model) _ _)

theorem memory_others (other : n ≠ k) (f : Model → Model) : (w.modifyModel n f).memory k = w.memory k := by
  simp [memory,memories,modifyModel,other]

theorem memory_here {m : PlannedModel} (there : w.models[k]? = some m) (f : Model → Model) :
    (w.modifyModel k f).memory k = (f m.model).memory := by
  simp [memory,memories,modifyModel,there]

theorem withstands_modifyModel (w : World) (n : Nat) {f : Model → Model}
    (same : ∀ m, m.failsUncache = true → (f m).failsUncache = true ∧ (f m).uncaches = m.uncaches) :
    Withstands k w (w.modifyModel n f) := by
  rintro ⟨m,there,locked⟩
  by_cases here : n = k
  · subst here
    obtain ⟨still,count⟩ := same m.model locked
    exact ⟨⟨_,by rw [modifyModel,List.getElem?_modify,there]; simp; rfl,still⟩,by
      simpa [Uncleared,uncachesOf,modifyModel,there] using count⟩
  · exact ⟨⟨m,by simp [modifyModel,there,here],locked⟩,by simp [Uncleared,uncachesOf,modifyModel,here]⟩

end World

namespace Action

variable {w : World} {id n k : Nat}

theorem uncacheModel_unfed (n : Nat) : Keeps (Unfed k) (uncacheModel n) := by
  refine uncacheModel_keeps n (fun w j => ?_) fun w => .inl (inert_of (w := w.note _) rfl).recalls
  by_cases here : j = k
  · subst here
    rcases there : w.models[j]? with _ | m
    · exact .inl (by simp [Recalls,memory,memories,modifyModel,there])
    · unfold Unfed Recalls
      rw [memory_here there,memory_eq there,Model.uncache]
      split
      · exact .inl rfl
      · exact .inr ⟨rfl,rfl,Nat.lt_succ_self _⟩
  · exact .inl (memory_others here _)

theorem uncacheModel_withstands (n : Nat) : Keeps (Withstands k) (uncacheModel n) := by
  refine uncacheModel_keeps n (fun w j => withstands_modifyModel w j fun m locked => ?_) fun w =>
    (inert_of (w := w.note _) rfl).withstands
  rw [Model.uncache,if_pos locked]
  exact ⟨locked,rfl⟩

theorem resumeStop_recalls (id p : Nat) (plan : StopPlan) (deadline : Option Nat) :
    Keeps (Recalls k) (resumeStop id p plan deadline) := by
  intro w
  have tried := resumeStop_tried id p plan deadline w
  generalize (exec (resumeStop id p plan deadline) w).2 = v at tried ⊢
  rcases tried.models with same | ⟨-,-,same⟩
  · exact (inert_of same).recalls
  · have interrupted : Recalls k w (w.modifyModel plan.model Model.interrupt) := recalls_modifyModel w _ fun _ => rfl
    rw [Recalls,memory,memories,same]
    exact interrupted

/-- Tasks other than updates feed no model. -/
theorem resume_unfed (id : Nat) {job : Job} (other : ∀ n phase, job ≠ .update n phase) :
    Keeps (Unfed k) (resume id job) := by
  have unfed {v w : World} (inert : Inert v w) : Unfed k v w := .inl inert.recalls
  have serves (n : Nat) : Serves n (Unfed k) := serves_of_inert unfed (uncacheModel_unfed n)
  refine resume_serves id job (fun n phase same => absurd same (other n phase)) (fun n _ => serves n) ?_ ?_ ?_
  · intro registry name _
    exact resumeCreate_fresh_keeps registry ((register_inert registry).mono unfed) serves id name
  · intro p plan deadline _ w
    exact .inl (resumeStop_recalls id p plan deadline w)
  · intro p
    exact (await_inert id p).mono unfed

theorem resume_withstands (id : Nat) (job : Job) : Keeps (Withstands k) (resume id job) := by
  have serves (n : Nat) : Serves n (Withstands k) := serves_of_inert Inert.withstands (uncacheModel_withstands n)
  have plain (w : World) (j : Nat) {f : Model → Model}
      (same : ∀ m, (f m).failsUncache = m.failsUncache ∧ (f m).uncaches = m.uncaches) :
      Withstands k w (w.modifyModel j f) :=
    withstands_modifyModel w j fun m locked => ⟨(same m).1.trans locked,(same m).2⟩
  refine resume_serves id job (fun n phase _ => ?_) (fun n _ => serves n) ?_ ?_ ?_
  · exact resumeUpdate_keeps id (fun _ _ => (inert_of rfl).withstands) (fun w j _ _ => plain w j fun _ => ⟨rfl,rfl⟩)
      (fun w j _ _ => plain w j fun _ => ⟨rfl,rfl⟩) (fun _ _ => (inert_of rfl).withstands) n phase
  · intro registry name _
    exact resumeCreate_fresh_keeps registry ((register_inert registry).mono Inert.withstands) serves id name
  · intro p plan deadline _ w
    have tried := resumeStop_tried id p plan deadline w
    generalize (exec (resumeStop id p plan deadline) w).2 = v at tried ⊢
    rcases tried.models with same | ⟨-,-,same⟩
    · exact (inert_of same).withstands
    · exact Frame.trans (plain w plan.model (f := Model.interrupt) fun _ => ⟨rfl,rfl⟩) (inert_of same).withstands
  · intro p
    exact (await_inert id p).mono Inert.withstands

/-- The model of the link is handed a text, and the action gives back what it made of it; or it is not, and no
state of it is given back. -/
def Feeds (n k : Nat) (a : Action Next) (w : World) : Prop :=
  (Recalls k w (exec a w).2 ∧ (w.modelOf n = some k → ∀ state, (exec a w).1 ≠ .ok (.finish (some (.updated state))))) ∨
  w.modelOf n = some k ∧ ∃ text, (exec a w).1 = .ok (.finish (some (.updated ((w.memory k).state text)))) ∧
    (exec a w).2.memory k = (w.memory k).after w.now text

theorem Reads.feeds {α : Type} {a : Action α} {f : α → Action Next} (reads : Reads a)
    (next : ∀ x, exec a w = (.ok x,w) → Feeds n k (f x) w) : Feeds n k (a >>= f) w := by
  rcases reads.bind_cases f w with ⟨fault,failed⟩ | ⟨x,ran,same⟩
  · exact .inl (by rw [failed]; exact ⟨rfl,fun _ _ => nofun⟩)
  · have feeds := next x ran
    rw [Feeds,same]
    exact feeds

theorem feeds_of_fail (e : LinkError) : Feeds n k (fail e) w := .inl ⟨rfl,fun _ _ => nofun⟩

theorem feeds_of_pause (job : Job) {v : World} {a : Action Next} (ran : exec a w = (.ok (.pause job),v))
    (recalls : Recalls k w v) : Feeds n k a w := by
  rw [Feeds,ran]
  exact .inl ⟨recalls,fun _ _ => nofun⟩

theorem feed_feeds {l : Link} (link : w.links[n]? = some l) (text : String) : Feeds n k (feed l.model text) w := by
  refine (reads_model l.model).feeds fun m found => reads_now.feeds fun time clock => ?_
  have model : w.modelOf n = some l.model := by simp [World.modelOf,link]
  have there : w.models[l.model]? = some m := by
    rcases known : w.models[l.model]? with _ | x
    · rw [Action.model,exec_bind_ok (exec_get w),known] at found
      cases found
    · rw [Action.model,exec_bind_ok (exec_get w),known] at found
      cases found
      rfl
  obtain rfl : w.now = time := by cases clock; rfl
  by_cases here : l.model = k
  · subst here
    refine .inr ⟨model,text,?_,?_⟩
    · rw [memory_eq there]
      rfl
    · refine (memory_here there fun m => (m.update w.now text).2).trans ?_
      rw [memory_eq there]
      rfl
  · refine .inl ⟨memory_others here _,fun same => ?_⟩
    rw [model] at same
    exact absurd (Option.some.inj same) here

theorem note_feeds {notice : Notice} {a : Action Next} (next : Feeds n k a (w.note notice)) :
    Feeds n k (do note notice; a) w := by
  rw [Feeds,exec_bind_ok (exec_note notice w)]
  exact next

theorem startUpdate_feeds (id n : Nat) (w : World) : Feeds n k (startUpdate id n) w := by
  refine (reads_ensureAlive n).feeds fun _ _ => (reads_visit _).feeds fun _ _ =>
    reads_get.feeds fun v _ => note_feeds ?_
  refine (reads_visit _).feeds fun _ _ => (reads_link n).feeds fun l found =>
    (reads_model l.model).feeds fun planned _ => ?_
  split
  · exact feeds_of_fail _
  · split
    · exact feed_feeds (link_ok found) v.text
    · refine reads_now.feeds fun time _ => feeds_of_pause _ rfl ?_
      exact recalls_modifyModel (w.note _) l.model (f := fun m => m.busyFor time planned.updateMillis) fun _ => rfl

theorem resumeUpdate_feeds (id n : Nat) (phase : UpdatePhase) (w : World) :
    Feeds n k (resumeUpdate id n phase) w := by
  cases phase with
  | fresh =>
    refine (reads_ensureAlive n).feeds fun _ _ => (reads_link n).feeds fun l _ =>
      (reads_model l.model).feeds fun planned _ => ?_
    dsimp only
    split
    · exact startUpdate_feeds id n w
    · exact feeds_of_pause _ rfl rfl
  | debouncing => exact startUpdate_feeds id n w
  | running text interrupts =>
    refine (reads_link n).feeds fun l found => (reads_model l.model).feeds fun planned _ => ?_
    split
    · exact feed_feeds (link_ok found) text
    · exact feeds_of_fail _

end Action

namespace World

/-- The state that an update of a link with the model gives back in a move. -/
def given (w : World) (k : Nat) : Move → Option ModelState
  | .turn id => match w.tasks[id]? with
    | some (some ⟨_,.update n phase,false⟩) =>
      if w.modelOf n = some k then
        match (exec (resumeUpdate id n phase) (w.taken id)).1 with
        | .ok (.finish (some (.updated state))) => some state
        | _ => none
      else none
    | _ => none
  | _ => none

variable {w : World} {k : Nat} {m : Move}

/-- What a move does to the memory of a model. -/
inductive Remembers (w : World) (k : Nat) (m : Move) : Prop
  | rests (none : w.given k m = none) (unfed : Unfed k w (w.move m))
  | notes (text : String) (given : w.given k m = some ((w.memory k).state text))
      (after : (w.move m).memory k = (w.memory k).after w.now text)

theorem turn_withstands (w : World) (id : Nat) : Withstands k w (w.turn id) :=
  turn_keeps (R := Withstands k) (fun entities => (inert_of entities.models).withstands) w id fun t _ _ =>
    resume_withstands id t.job _

theorem given_of_other {id : Nat} (other : ∀ t n phase, w.tasks[id]? = some (some t) → t.aborted = false →
    t.job ≠ .update n phase) : w.given k (.turn id) = none := by
  dsimp only [given]
  split
  · rename_i there
    exact absurd rfl (other _ _ _ there rfl)
  · rfl

theorem turn_remembers (w : World) (id : Nat) : Remembers w k (.turn id) := by
  have entities {u v : World} (entities : SameEntities u v) : Unfed k u v := .inl (inert_of entities.models).recalls
  by_cases update : ∃ t n phase, w.tasks[id]? = some (some t) ∧ t.aborted = false ∧ t.job = .update n phase
  · obtain ⟨⟨label,job,aborted⟩,n,phase,there,rfl,rfl⟩ := update
    have turned : w.turn id = conclude id label (exec (resumeUpdate id n phase) (w.taken id)) := turn_active there rfl
    have models : (w.turn id).memory k = (exec (resumeUpdate id n phase) (w.taken id)).2.memory k := by
      rw [turned]
      exact (inert_of (conclude_sameEntities id label _ _).models).recalls
    rcases resumeUpdate_feeds (k := k) id n phase (w.taken id) with ⟨recalls,none⟩ | ⟨model,text,gave,after⟩
    · refine .rests ?_ (.inl (models.trans recalls))
      rw [given,there]
      dsimp only
      split
      · rename_i model
        split
        · rename_i state gave
          exact absurd gave (none model state)
        · rfl
      · rfl
    · refine .notes text ?_ (models.trans after)
      have model : w.modelOf n = some k := model
      rw [given,there]
      dsimp only
      rw [if_pos model,gave]
      rfl
  · refine .rests (given_of_other fun t n phase there active job => update ⟨t,n,phase,there,active,job⟩) ?_
    exact turn_keeps entities w id fun t there active =>
      resume_unfed id (fun n phase job => update ⟨t,n,phase,there,active,job⟩) _

theorem move_remembers (single : m.Single) : Remembers w k m := by
  cases m with
  | perform number c =>
    refine .rests rfl (.inl ?_)
    by_cases outside : ∃ o, c = .outside o
    · obtain ⟨o,rfl⟩ := outside
      exact recalls_of_memories (change_around w o).memories
    · exact (perform_inert w number c (fun ms same => single number ms (by rw [same]))
        fun o same => outside ⟨o,same⟩).recalls
  | turn id => exact turn_remembers w id
  | arrive now => exact .rests rfl (.inl rfl)

end World
end EditorLink
