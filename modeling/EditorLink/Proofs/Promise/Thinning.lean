import EditorLink.Proofs.Promise.Turn
import EditorLink.Proofs.Sifting

/-! A session without some observers, beside the whole one. Each task that both have goes by its place among those
that stay; the promises are the same in both but for who waits for them. -/
namespace EditorLink.Promise
variable {α : Type} {p : List Bool} {i j : Nat}

/-- The same promise with fewer tasks that wait for it. -/
structure Sifts (p : List Bool) (x y : Promise α) : Prop where
  cancelled : x.cancelled = y.cancelled
  value : x.value = y.value
  pending : x.pending = y.pending
  onCancel : Sifted (fun side => Stands side p) x.onCancel y.onCancel
  onValue : Sifted (fun side => Stands side p) x.onValue y.onValue

theorem join_kept {is js : List Nat} (sifted : Sifted (fun side => Stands side p) is js) (stands : Stands true p i j) :
    Sifted (fun side => Stands side p) (join is i) (join js j) := by
  unfold join
  simp only [sifted.mem_iff stands]
  split
  · exact sifted
  · exact sifted.push_kept stands

theorem join_other {is js : List Nat} (sifted : Sifted (fun side => Stands side p) is js) (stands : Stands false p j j) :
    Sifted (fun side => Stands side p) is (join js j) := by
  unfold join
  split
  · exact sifted
  · exact sifted.push_other stands

namespace Sifts
variable {x y : Promise α}

theorem grow (sifts : Sifts p x y) (q : List Bool) : Sifts (p ++ q) x y :=
  { sifts with
    onCancel := sifts.onCancel.mono fun _ _ _ stands => stands.grow q
    onValue := sifts.onValue.mono fun _ _ _ stands => stands.grow q }

theorem answer (sifts : Sifts p x y) : x.answer? = y.answer? := by
  rw [answer?,answer?,sifts.cancelled,sifts.value,sifts.pending]

theorem attend (sifts : Sifts p x y) (stands : Stands true p i j) : Sifts p (x.attend i) (y.attend j) :=
  { sifts with onCancel := join_kept sifts.onCancel stands }

theorem observe (sifts : Sifts p x y) (stands : Stands true p i j) : Sifts p (x.observe i) (y.observe j) :=
  { sifts with onCancel := join_kept sifts.onCancel stands, onValue := join_kept sifts.onValue stands }

theorem observed (sifts : Sifts p x y) (stands : Stands false p j j) : Sifts p x (y.observe j) :=
  { sifts with onCancel := join_other sifts.onCancel stands, onValue := join_other sifts.onValue stands }

theorem cancel (sifts : Sifts p x y) :
    Sifts p x.cancel.1 y.cancel.1 ∧ Sifted (fun side => Stands side p) x.cancel.2 y.cancel.2 := by
  unfold Promise.cancel
  rw [sifts.cancelled]
  split
  · exact ⟨sifts,⟨[],.nil⟩⟩
  · exact ⟨{ sifts with cancelled := rfl, onCancel := ⟨[],.nil⟩ },sifts.onCancel⟩

theorem finish (sifts : Sifts p x y) (value : Option α) :
    Sifts p (x.finish value).1 (y.finish value).1 ∧
      Sifted (fun side => Stands side p) (x.finish value).2 (y.finish value).2 :=
  ⟨{ sifts with value := rfl, pending := rfl, onValue := ⟨[],.nil⟩ },sifts.onValue⟩

end Sifts

namespace Session

/-- The tasks that are left out only look. -/
structure Stays (out : Nat → Bool) (side : Bool) (a c : Option (Task α)) : Prop where
  same : a = c
  label : ∀ t, c = some t → out t.label = !side
  looks : side = false → ∀ t, c = some t → ∃ promise, t.job = .outcome promise

/-- Of a task that has ended nothing is left to compare. -/
theorem Stays.ended (out : Nat → Bool) (side : Bool) : Stays out side (none : Option (Task α)) none where
  same := rfl
  label _ same := by cases same
  looks _ _ same := by cases same

theorem Stays.map {out : Nat → Bool} {side : Bool} {a c : Option (Task α)} {f : Task α → Task α}
    (stays : Stays out side a c) (labels : ∀ t, (f t).label = t.label)
    (jobs : side = false → ∀ t, (f t).job = t.job) : Stays out side (a.map f) (c.map f) := by
  obtain ⟨rfl,label,looks⟩ := stays
  refine ⟨rfl,fun t there => ?_,fun other t there => ?_⟩
  · obtain ⟨task,same,rfl⟩ := Option.map_eq_some_iff.mp there
    rw [labels]
    exact label task same
  · obtain ⟨task,same,rfl⟩ := Option.map_eq_some_iff.mp there
    rw [jobs other]
    exact looks other task same

/-- The first session is without the observers of some commands and has all other handles. -/
structure Thins (out : Nat → Bool) (p : List Bool) (v w : Session α) : Prop where
  schedule : v.schedule.Sifts p w.schedule
  promises : List.Forall₂ (Promise.Sifts p) v.promises w.promises
  tasks : Woven (Stays out) p v.tasks w.tasks
  handles : ∀ h i, out h = false → w.handle? h = some i → v.handle? h = some i
  observers : v.observers = w.observers.filter fun n => !out n
  events : v.events = w.events.filter fun e => !out e.label

theorem thins_start (out : Nat → Bool) : Thins out [] ({} : Session α) {} where
  schedule := ⟨rfl,⟨[],.nil⟩,.nil⟩
  promises := .nil
  tasks := .nil
  handles _ _ _ found := found
  observers := rfl
  events := rfl

section
variable {R : Promise α → Promise α → Prop} {xs ys : List (Promise α)}

theorem forall₂_at (all : List.Forall₂ R xs ys) (i : Nat) : Option.Rel R xs[i]? ys[i]? := by
  induction all generalizing i with
  | nil => exact .none
  | cons alike _ ih =>
    cases i with
    | zero => exact .some alike
    | succ i => exact ih i

theorem forall₂_set (all : List.Forall₂ R xs ys) (i : Nat) {x y : Promise α} (alike : R x y) :
    List.Forall₂ R (xs.set i x) (ys.set i y) := by
  induction all generalizing i with
  | nil => exact .nil
  | cons old rest ih =>
    cases i with
    | zero => exact .cons alike rest
    | succ i => exact .cons old (ih i)

theorem forall₂_modify (all : List.Forall₂ R xs ys) (i : Nat) {g : Promise α → Promise α}
    (keeps : ∀ x y, R x y → R x (g y)) : List.Forall₂ R xs (ys.modify i g) := by
  induction all generalizing i with
  | nil => rw [List.modify_nil]; exact .nil
  | cons alike rest ih =>
    cases i with
    | zero => exact .cons (keeps _ _ alike) rest
    | succ i => exact .cons alike (ih i)

end

namespace Thins
variable {out : Nat → Bool} {v w : Session α} {label promise id : Nat}

theorem wakeAll (thins : Thins out p v w) {is js : List Nat} (sifted : Sifted (fun side => Stands side p) is js) :
    Thins out p (v.wakeAll is) (w.wakeAll js) :=
  { thins with schedule := thins.schedule.wakeAll sifted }

theorem emit (thins : Thins out p v w) (stays : out label = false) (report : Report α) :
    Thins out p (v.emit label report) (w.emit label report) :=
  { thins with events := by simp [Session.emit,thins.events,thins.schedule.now,stays] }

theorem emit_other (thins : Thins out p v w) (left : out label = true) (report : Report α) :
    Thins out p v (w.emit label report) :=
  { thins with events := by simp [Session.emit,thins.events,left] }

theorem setJob (thins : Thins out p v w) (marked : p[id]? = some true) (job : Job α) :
    Thins out p (v.setJob (rank p id) job) (w.setJob id job) :=
  { thins with tasks := thins.tasks.modify_kept marked fun _ _ stays => stays.map (fun _ => rfl) nofun }

theorem remove (thins : Thins out p v w) (marked : p[id]? = some true) :
    Thins out p (v.remove (rank p id)) (w.remove id) := by
  rw [Session.remove,Session.remove,List.set_eq_modify,List.set_eq_modify]
  exact { thins with
    tasks := thins.tasks.modify_kept marked fun _ _ _ => .ended out true
    schedule := thins.schedule.forget_kept (.kept marked) }

theorem remove_other (thins : Thins out p v w) (marked : p[id]? = some false) : Thins out p v (w.remove id) := by
  rw [Session.remove,List.set_eq_modify]
  exact { thins with
    tasks := thins.tasks.modify_other marked fun _ _ => .ended out false
    schedule := thins.schedule.forget_other (.other marked) }

theorem update (thins : Thins out p v w) (promise : Nat) {f g : Promise α → Promise α × List Nat}
    (keeps : ∀ x y, Promise.Sifts p x y → Promise.Sifts p (f x).1 (g y).1 ∧
      Sifted (fun side => Stands side p) (f x).2 (g y).2) : Thins out p (v.update promise f) (w.update promise g) := by
  have both := forall₂_at thins.promises promise
  cases there : w.promises[promise]? with
  | none =>
    rw [there] at both
    cases here : v.promises[promise]? with
    | none =>
      rw [update_none here,update_none there]
      exact thins
    | some x =>
      rw [here] at both
      cases both
  | some y =>
    rw [there] at both
    cases here : v.promises[promise]? with
    | none =>
      rw [here] at both
      cases both
    | some x =>
      rw [here] at both
      cases both with
      | some sifts =>
        rw [update_some here,update_some there]
        obtain ⟨alike,sifted⟩ := keeps x y sifts
        have changed : Thins out p { v with promises := v.promises.set promise (f x).1 }
            { w with promises := w.promises.set promise (g y).1 } :=
          { thins with promises := forall₂_set thins.promises promise alike }
        exact changed.wakeAll sifted

theorem cancel (thins : Thins out p v w) (promise : Nat) : Thins out p (v.cancel promise) (w.cancel promise) :=
  thins.update promise fun _ _ sifts => sifts.cancel

theorem finish (thins : Thins out p v w) (promise : Nat) (value : Option α) :
    Thins out p (v.finish promise value) (w.finish promise value) :=
  thins.update promise fun _ _ sifts => sifts.finish value

theorem modify (thins : Thins out p v w) (promise : Nat) {f g : Promise α → Promise α}
    (keeps : ∀ x y, Promise.Sifts p x y → Promise.Sifts p (f x) (g y)) :
    Thins out p (v.modify promise f) (w.modify promise g) := by
  rw [modify_eq_update,modify_eq_update]
  exact thins.update promise fun x y sifts => ⟨keeps x y sifts,⟨[],.nil⟩⟩

/-- Who is left out may wait all the same. -/
theorem modify_other (thins : Thins out p v w) (promise : Nat) {g : Promise α → Promise α}
    (keeps : ∀ x y, Promise.Sifts p x y → Promise.Sifts p x (g y)) : Thins out p v (w.modify promise g) :=
  { thins with promises := forall₂_modify thins.promises promise keeps }

theorem proceed (thins : Thins out p v w) (marked : p[id]? = some true) (stays : out label = false) (promise : Nat)
    (result : Option α) (stages : List Stage) :
    Thins out p (v.proceed (rank p id) label promise result stages) (w.proceed id label promise result stages) := by
  induction stages generalizing v w with
  | nil => exact (thins.finish promise result).remove marked
  | cons stage rest ih =>
    cases stage with
    | sleep ms =>
      rw [Session.proceed,Session.proceed]
      split
      · exact ih (thins.emit stays .tick)
      · have asleep : Thins out p { v with schedule := v.schedule.sleep (rank p id) ms }
            { w with schedule := w.schedule.sleep id ms } :=
          { thins with schedule := thins.schedule.sleep (.kept marked) ms }
        exact asleep.setJob marked _
    | cancel target => exact ih (thins.cancel target)

theorem answer (thins : Thins out p v w) (promise : Nat) :
    v.promises[promise]?.bind Promise.answer? = w.promises[promise]?.bind Promise.answer? := by
  have both := forall₂_at thins.promises promise
  generalize v.promises[promise]? = x at both ⊢
  generalize w.promises[promise]? = y at both ⊢
  cases both with
  | none => rfl
  | some sifts => exact sifts.answer

theorem pollCompute (thins : Thins out p v w) (marked : p[id]? = some true) (stays : out label = false) (promise : Nat)
    (sleeping : Bool) (stages : List Stage) (result : Option α) :
    Thins out p (v.pollCompute (rank p id) label promise sleeping stages result)
      (w.pollCompute id label promise sleeping stages result) := by
  have both := forall₂_at thins.promises promise
  unfold Session.pollCompute
  generalize v.promises[promise]? = x at both ⊢
  generalize w.promises[promise]? = y at both ⊢
  cases both with
  | none => exact thins.remove marked
  | some sifts =>
    dsimp only
    rw [sifts.cancelled]
    split
    · exact (thins.finish promise none).remove marked
    · have attends : Thins out p (v.modify promise fun x => x.attend (rank p id)) (w.modify promise fun y => y.attend id) :=
        thins.modify promise fun _ _ sifts => sifts.attend (.kept marked)
      split
      · exact (attends.emit stays .tick).proceed marked stays promise result stages
      · exact attends.proceed marked stays promise result stages

theorem pollOutcome (thins : Thins out p v w) (marked : p[id]? = some true) (stays : out label = false) (promise : Nat) :
    Thins out p (v.pollOutcome (rank p id) label promise) (w.pollOutcome id label promise) := by
  unfold Session.pollOutcome
  rw [thins.answer]
  split
  · exact thins.modify promise fun _ _ sifts => sifts.observe (.kept marked)
  · exact (thins.emit stays _).remove marked

theorem follow (thins : Thins out p v w) (sequel : Sequel) : Thins out p (v.follow sequel) (w.follow sequel) := by
  cases sequel with
  | nothing => exact thins
  | cancel target => exact thins.cancel target
  | crash => exact thins

theorem pollContinuation (thins : Thins out p v w) (marked : p[id]? = some true) (stays : out label = false)
    (promise : Nat) (sequel : Sequel) :
    Thins out p (v.pollContinuation (rank p id) label promise sequel) (w.pollContinuation id label promise sequel) := by
  unfold Session.pollContinuation
  rw [thins.answer]
  split
  · exact thins.modify promise fun _ _ sifts => sifts.observe (.kept marked)
  · exact thins.remove marked
  · exact ((thins.emit stays _).remove marked).follow sequel

theorem pollAborted (thins : Thins out p v w) (marked : p[id]? = some true) {task : Task α}
    (stays : out task.label = false) : Thins out p (v.pollAborted (rank p id) task) (w.pollAborted id task) := by
  unfold Session.pollAborted
  split
  · exact (thins.emit stays .aborted).remove marked
  · exact thins.remove marked

/-- A task that stays does in its turn what it does in the whole session. -/
theorem turn (thins : Thins out p v w) (marked : p[id]? = some true) : Thins out p (v.turn (rank p id)) (w.turn id) := by
  have taken : Thins out p (v.taken (rank p id)) (w.taken id) :=
    { thins with schedule := thins.schedule.take_kept (.kept marked) }
  obtain ⟨task,_,here,there,rfl,labels,-⟩ := thins.tasks.at_kept marked
  cases task with
  | none =>
    have gone (s : Session α) (k : Nat) (ended : s.tasks[k]? = some none) : s.turn k = s.taken k := by
      rcases turn_idle s k with ⟨task,alive⟩ | ⟨-,idle⟩
      · cases ended.symm.trans alive
      · exact idle
    rw [gone v _ here,gone w _ there]
    exact taken
  | some task =>
    have stays : out task.label = false := labels task rfl
    cases aborted : task.aborted with
    | true =>
      rw [turn_aborted here aborted,turn_aborted there aborted]
      exact taken.pollAborted marked stays
    | false =>
      rw [turn_active here aborted,turn_active there aborted]
      cases task.job with
      | compute promise sleeping stages result => exact taken.pollCompute marked stays promise sleeping stages result
      | outcome promise => exact taken.pollOutcome marked stays promise
      | continuation promise sequel => exact taken.pollContinuation marked stays promise sequel

/-- What an observer does that is left out shows nowhere else. -/
theorem turn_other (thins : Thins out p v w) (marked : p[id]? ≠ some true) : Thins out p v (w.turn id) := by
  have taken : Thins out p v (w.taken id) := { thins with schedule := thins.schedule.take_other marked }
  rcases turn_idle w id with ⟨task,there⟩ | ⟨-,idle⟩
  · obtain ⟨side,_,side',rfl,labels,looks⟩ := thins.tasks.sided there
    cases side with
    | true => exact absurd side' marked
    | false =>
      have left : out task.label = true := labels task rfl
      obtain ⟨promise,job⟩ := looks rfl task rfl
      obtain ⟨label,_,aborted⟩ := task
      subst job
      have ended (report : Report α) : Thins out p v (((w.taken id).emit label report).remove id) :=
        (taken.emit_other left report).remove_other side'
      cases aborted with
      | true =>
        rw [turn_aborted there rfl]
        exact ended .aborted
      | false =>
        cases told : w.answer? promise with
        | none =>
          rw [turn_waits there rfl rfl told]
          exact taken.modify_other promise fun _ _ sifts => sifts.observed (.other side')
        | some answer =>
          rw [turn_tells there told]
          exact ended _
  · rw [idle]
    exact taken

end Thins
end Session
end EditorLink.Promise
