import EditorLink.Proofs.Promise.Move
import EditorLink.Proofs.Promise.Thinning

/-! Commands that may be left out: those that observe, drop a handle or make another one. -/
namespace EditorLink.Promise.Session
variable {α : Type}

/-- The handles that a command names. -/
def Command.handles : Command α → List Nat
  | .clone handle | .drop handle | .cancel handle | .outcome handle => [handle]
  | .continuation handle cancels _ => handle :: cancels.toList
  | .spawn _ _ | .abort _ | .advance _ => []

/-- The observer that a command aborts. -/
def Command.aborts? : Command α → Option Nat
  | .abort n => some n
  | _ => none

def Command.waits : Command α → Bool
  | .advance _ => true
  | _ => false

/-- An abort is left out together with the observer. -/
def Command.Spare (out : Nat → Bool) : Command α → Prop
  | .outcome _ | .drop _ | .clone _ => True
  | .abort n => out n = true
  | .spawn _ _ | .cancel _ | .continuation _ _ _ | .advance _ => False

/-- Whoever gives the command has the handles that it names, and whatever it names stays. -/
structure Command.Firm (out : Nat → Bool) (s : Session α) (c : Command α) : Prop where
  handles : ∀ h ∈ c.handles, out h = false ∧ (s.handle? h).isSome
  aborts : ∀ n ∈ c.aborts?, out n = false
  single : c.waits = false

instance (out : Nat → Bool) : (c : Command α) → Decidable (c.Spare out)
  | .outcome _ | .drop _ | .clone _ => isTrue trivial
  | .abort n => inferInstanceAs (Decidable (out n = true))
  | .spawn _ _ | .cancel _ | .continuation _ _ _ | .advance _ => isFalse id

instance (out : Nat → Bool) (s : Session α) (c : Command α) : Decidable (c.Firm out s) :=
  decidable_of_iff ((∀ h ∈ c.handles, out h = false ∧ (s.handle? h).isSome) ∧ (∀ n ∈ c.aborts?, out n = false) ∧
      c.waits = false)
    ⟨fun ⟨handles,aborts,single⟩ => ⟨handles,aborts,single⟩,fun firm => ⟨firm.handles,firm.aborts,firm.single⟩⟩

/-- Tasks stay unless a command started them that is left out. -/
def marked (out : Nat → Bool) (p : List Bool) (s : Session α) : List Bool :=
  p ++ (s.tasks.drop p.length).map fun t => t.all fun t => !out t.label

variable {out : Nat → Bool} {p : List Bool} {s v w : Session α} {number promise h : Nat} {c : Command α}

theorem handle?_push (s : Session α) (number promise h : Nat) :
    { s with handles := s.handles ++ [(number,promise)] }.handle? h =
      (s.handle? h).or (if h = number then some promise else none) := by
  rw [handle?,handle?,List.lookup_append,List.lookup_cons]
  by_cases same : h = number
  · rw [if_pos same,beq_iff_eq.mpr same]
  · rw [if_neg same,beq_eq_false_iff_ne.mpr same]
    rfl

theorem handle?_drop (s : Session α) (dropped h : Nat) :
    { s with handles := s.handles.filter fun h => h.1 ≠ dropped }.handle? h =
      if h = dropped then none else s.handle? h := by
  simp only [handle?]
  induction s.handles with
  | nil => rw [List.filter_nil,List.lookup_nil,ite_self]
  | cons first rest ih =>
    obtain ⟨number,promise⟩ := first
    by_cases same : number = dropped
    · subst same
      rw [List.filter_cons_of_neg (by simp),ih,List.lookup_cons]
      split
      · rfl
      next other => rw [beq_eq_false_iff_ne.mpr other]
    · rw [List.filter_cons_of_pos (by simp [same]),List.lookup_cons,List.lookup_cons,ih]
      by_cases found : h = number
      · subst found
        simp only [if_neg same]
      · rw [beq_eq_false_iff_ne.mpr found]

theorem marked_same (size : s.tasks.length = p.length) : marked out p s = p := by
  rw [marked,← size,List.drop_length,List.map_nil,List.append_nil]

theorem marked_spawn (size : s.tasks.length = p.length) (job : Job α) :
    marked out p (s.spawn number job) = p ++ [!out number] := by
  rw [marked,← size,spawn,List.drop_left]
  rfl

/-- Who stays is not among the tasks that are left out. -/
theorem Stays.unnamed {t : Option (Task α)} {n : Nat} (own : Stays out false t t) (stays : out n = false) :
    t.any (fun t => t.label = n) = false := by
  cases t with
  | none => rfl
  | some task =>
    have left : out task.label = true := own.label task rfl
    have other : task.label ≠ n := by
      rintro rfl
      exact absurd (stays.symm.trans left) nofun
    exact decide_eq_false other

namespace Thins

theorem size (thins : Thins out p v w) : w.tasks.length = p.length := thins.tasks.length.symm

theorem keep (thins : Thins out p v w) : Thins out (marked out p w) v w := by
  rw [marked_same thins.size]
  exact thins

theorem spawn (thins : Thins out p v w) (stays : out number = false) (job : Job α) :
    Thins out (marked out p (w.spawn number job)) (v.spawn number job) (w.spawn number job) := by
  obtain ⟨tasks,stands⟩ := thins.tasks.push_kept (a := some ⟨number,job,false⟩) (c := some ⟨number,job,false⟩)
    ⟨rfl,fun t same => by cases same; exact stays,nofun⟩
  rw [marked_spawn thins.size,stays]
  exact { thins with
    schedule := (thins.schedule.grow _).wake_kept stands
    promises := thins.promises.imp fun _ _ sifts => sifts.grow _
    tasks := tasks }

theorem spawn_other (thins : Thins out p v w) (left : out number = true) (promise : Nat) :
    Thins out (marked out p (w.spawn number (.outcome promise))) v (w.spawn number (.outcome promise)) := by
  obtain ⟨tasks,stands⟩ := thins.tasks.push_other (c := some ⟨number,.outcome promise,false⟩)
    ⟨rfl,fun t same => by cases same; exact left,fun _ t same => by cases same; exact ⟨promise,rfl⟩⟩
  rw [marked_spawn thins.size,left]
  exact { thins with
    schedule := (thins.schedule.grow _).wake_other stands
    promises := thins.promises.imp fun _ _ sifts => sifts.grow _
    tasks := tasks }

theorem push (thins : Thins out p v w) (fresh : v.handle? number = none) (promise : Nat) :
    Thins out p { v with handles := v.handles ++ [(number,promise)] }
      { w with handles := w.handles ++ [(number,promise)] } := by
  refine { thins with handles := fun h i stays found => ?_ }
  rw [handle?_push] at found ⊢
  cases here : w.handle? h with
  | some k =>
    rw [here] at found
    rw [thins.handles h k stays here]
    exact found
  | none =>
    rw [here,Option.none_or] at found
    split at found
    next same =>
      rw [same,fresh,if_pos rfl]
      exact found
    · cases found

theorem drop (thins : Thins out p v w) (dropped : Nat) :
    Thins out p { v with handles := v.handles.filter fun h => h.1 ≠ dropped }
      { w with handles := w.handles.filter fun h => h.1 ≠ dropped } := by
  refine { thins with handles := fun h i stays found => ?_ }
  rw [handle?_drop] at found ⊢
  split at found
  · cases found
  next other =>
    rw [if_neg other]
    exact thins.handles h i stays found

theorem push_other (thins : Thins out p v w) (left : out number = true) (promise : Nat) :
    Thins out p v { w with handles := w.handles ++ [(number,promise)] } := by
  refine { thins with handles := fun h i stays found => ?_ }
  rw [handle?_push] at found
  have other : h ≠ number := by
    rintro rfl
    exact absurd (stays.symm.trans left) nofun
  rw [if_neg other,Option.or_none] at found
  exact thins.handles h i stays found

theorem drop_other (thins : Thins out p v w) (dropped : Nat) :
    Thins out p v { w with handles := w.handles.filter fun h => h.1 ≠ dropped } := by
  refine { thins with handles := fun h i stays found => ?_ }
  rw [handle?_drop] at found
  split at found
  · cases found
  · exact thins.handles h i stays found

theorem observer (thins : Thins out p v w) (stays : out number = false) (job : Job α) :
    Thins out (marked out p (w.observer number job)) (v.observer number job) (w.observer number job) := by
  have noted : Thins out p { v with observers := v.observers ++ [number] }
      { w with observers := w.observers ++ [number] } :=
    { thins with observers := by simp [thins.observers,stays] }
  exact noted.spawn stays job

theorem observer_other (thins : Thins out p v w) (left : out number = true) (promise : Nat) :
    Thins out (marked out p (w.observer number (.outcome promise))) v (w.observer number (.outcome promise)) := by
  have noted : Thins out p v { w with observers := w.observers ++ [number] } :=
    { thins with observers := by simp [thins.observers,left] }
  exact noted.spawn_other left promise

theorem compute (thins : Thins out p v w) (fresh : v.handle? number = none) (stays : out number = false)
    (stages : List Stage) (result : Option α) :
    Thins out (marked out p (w.move (.perform number (.spawn stages result))))
      (v.move (.perform number (.spawn stages result))) (w.move (.perform number (.spawn stages result))) := by
  have promised : Thins out p { v with promises := v.promises ++ [{}] } { w with promises := w.promises ++ [{}] } :=
    { thins with
      promises := List.rel_append thins.promises (.cons ⟨rfl,rfl,rfl,⟨[],.nil⟩,⟨[],.nil⟩⟩ .nil) }
  have count : v.promises.length = w.promises.length := thins.promises.length_eq
  simp only [Session.move,perform?,Option.getD_some,count]
  exact (promised.push fresh w.promises.length).spawn stays _

theorem abort (thins : Thins out p v w) {n : Nat} (stays : out n = false) : Thins out p (v.abort n) (w.abort n) := by
  have found : Option.Rel (Stands true p) (v.tasks.findIdx? fun t => t.any fun t => t.label = n)
      (w.tasks.findIdx? fun t => t.any fun t => t.label = n) := by
    apply thins.tasks.findIdx?
    · intro a c alike
      rw [alike.same]
    · exact fun _ own => own.unnamed stays
  unfold Session.abort
  generalize v.tasks.findIdx? _ = i at found ⊢
  generalize w.tasks.findIdx? _ = j at found ⊢
  cases found with
  | none => exact thins
  | some stands =>
    obtain rfl := stands.placed
    exact { thins with
      tasks := thins.tasks.modify_kept stands.marked fun _ _ stays => stays.map (fun _ => rfl) nofun
      schedule := thins.schedule.wake_kept stands }

theorem abort_other (thins : Thins out p v w) {n : Nat} (left : out n = true) : Thins out p v (w.abort n) := by
  unfold Session.abort
  split
  · exact thins
  next id found =>
    obtain ⟨inside,named,-⟩ := List.findIdx?_eq_some_iff_getElem.mp found
    obtain ⟨task,there,called⟩ := (Option.any_eq_true _ _).mp named
    obtain ⟨side,a,marked,stays⟩ := thins.tasks.sided (List.getElem?_eq_some_iff.mpr ⟨inside,there⟩)
    have label : out task.label = true := by rw [of_decide_eq_true called]; exact left
    cases side with
    | true => exact absurd (label.symm.trans (stays.label task rfl)) nofun
    | false =>
      exact { thins with
        tasks := thins.tasks.modify_other marked fun _ own => own.map (fun _ => rfl) fun _ _ => rfl
        schedule := thins.schedule.wake_other (.other marked) }

theorem sequel (thins : Thins out p v w) {cancels : Option Nat} (crashes : Bool)
    (there : ∀ h ∈ cancels, out h = false ∧ (w.handle? h).isSome) :
    v.sequel cancels crashes = w.sequel cancels crashes := by
  cases cancels with
  | none => rfl
  | some h =>
    obtain ⟨stays,known⟩ := there h rfl
    obtain ⟨promise,found⟩ := Option.isSome_iff_exists.mp known
    simp only [Session.sequel,Option.bind_some,found,thins.handles h promise stays found]

/-- A command that stays does what it does in the whole session. -/
theorem perform (thins : Thins out p v w) (fresh : v.handle? number = none) (stays : out number = false)
    (firm : c.Firm out w) : Thins out (marked out p (w.move (.perform number c))) (v.move (.perform number c))
      (w.move (.perform number c)) := by
  have known (h : Nat) (member : h ∈ c.handles) : ∃ i, v.handle? h = some i ∧ w.handle? h = some i := by
    obtain ⟨stays,there⟩ := firm.handles h member
    obtain ⟨i,found⟩ := Option.isSome_iff_exists.mp there
    exact ⟨i,thins.handles h i stays found,found⟩
  cases c with
  | spawn stages result => exact thins.compute fresh stays stages result
  | clone handle =>
    obtain ⟨i,here,there⟩ := known handle (List.mem_singleton.mpr rfl)
    simp only [Session.move,perform?,here,there]
    exact (thins.push fresh i).keep
  | drop handle =>
    obtain ⟨i,here,there⟩ := known handle (List.mem_singleton.mpr rfl)
    simp only [Session.move,perform?,here,there]
    exact (thins.drop handle).keep
  | cancel handle =>
    obtain ⟨i,here,there⟩ := known handle (List.mem_singleton.mpr rfl)
    simp only [Session.move,perform?,here,there]
    exact (thins.cancel i).keep
  | outcome handle =>
    obtain ⟨i,here,there⟩ := known handle (List.mem_singleton.mpr rfl)
    simp only [Session.move,perform?,here,there]
    exact thins.observer stays _
  | continuation handle cancels crashes =>
    obtain ⟨i,here,there⟩ := known handle List.mem_cons_self
    have same : v.sequel cancels crashes = w.sequel cancels crashes := by
      apply thins.sequel
      exact fun h member => firm.handles h (List.mem_cons_of_mem handle (Option.mem_toList.mpr member))
    simp only [Session.move,perform?,here,there,same]
    exact thins.observer stays _
  | abort n =>
    have listed : n ∈ v.observers ↔ n ∈ w.observers := by simp [thins.observers,firm.aborts n rfl]
    simp only [Session.move,perform?,listed]
    split
    · exact (thins.abort (firm.aborts n rfl)).keep
    · exact thins.keep
  | advance ms => cases firm.single

/-- A command that is left out changes nothing for the others. -/
theorem perform_other (thins : Thins out p v w) (left : out number = true) (spare : c.Spare out) :
    Thins out (marked out p (w.move (.perform number c))) v (w.move (.perform number c)) := by
  cases c with
  | spawn => exact spare.elim
  | clone handle =>
    cases there : w.handle? handle with
    | none =>
      simp only [Session.move,perform?,there]
      exact thins.keep
    | some i =>
      simp only [Session.move,perform?,there]
      exact (thins.push_other left i).keep
  | drop handle =>
    cases there : w.handle? handle with
    | none =>
      simp only [Session.move,perform?,there]
      exact thins.keep
    | some i =>
      simp only [Session.move,perform?,there]
      exact (thins.drop_other handle).keep
  | cancel => exact spare.elim
  | outcome handle =>
    cases there : w.handle? handle with
    | none =>
      simp only [Session.move,perform?,there]
      exact thins.keep
    | some i =>
      simp only [Session.move,perform?,there]
      exact thins.observer_other left i
  | continuation => exact spare.elim
  | abort n =>
    simp only [Session.move,perform?]
    split
    · exact (thins.abort_other spare).keep
    · exact thins.keep
  | advance => exact spare.elim

end Thins
end EditorLink.Promise.Session
