import EditorLink.Proofs.Promise.Run

/-! What a turn of a task comes to, and what it leaves of everything else. -/
namespace EditorLink.Promise
variable {α : Type}

/-! One promise. Whoever waits for it is woken when there is an answer. -/

@[simp] theorem mem_join (tasks : List Nat) (task k : Nat) :
    k ∈ join tasks task ↔ k ∈ tasks ∨ k = task := by
  unfold join
  split
  next there =>
    constructor
    · exact .inl
    · rintro (h | rfl)
      · exact h
      · exact there
  · simp

/-- A change that wakes some tasks: only the owner of the promise may deliver, and a task that waits is
woken or goes on waiting. -/
structure WakesOrKeeps (own : Prop) (p q : Promise α) (woken : List Nat) : Prop where
  cancelled : p.cancelled = true → q.cancelled = true
  value : ¬ own → q.value = p.value
  pending : ¬ own → q.pending = p.pending
  told : ∀ k, p.answer? = none → k ∈ p.onCancel → k ∈ p.onValue →
    k ∈ woken ∨ q.answer? = none ∧ k ∈ q.onCancel ∧ k ∈ q.onValue

theorem wakesOrKeeps_attend (own : Prop) (p : Promise α) (task : Nat) : WakesOrKeeps own p (p.attend task) [] where
  cancelled h := h
  value _ := rfl
  pending _ := rfl
  told _ waits one other := .inr ⟨waits,by simp [attend,one],other⟩

theorem wakesOrKeeps_observe (own : Prop) (p : Promise α) (task : Nat) :
    WakesOrKeeps own p (p.observe task) [] where
  cancelled h := h
  value _ := rfl
  pending _ := rfl
  told _ waits one other := .inr ⟨waits,by simp [observe,one],by simp [observe,other]⟩

theorem wakesOrKeeps_cancel (own : Prop) (p : Promise α) : WakesOrKeeps own p p.cancel.1 p.cancel.2 := by
  by_cases before : p.cancelled = true
  · have same : p.cancel = (p,[]) := by rw [cancel,if_pos before]
    rw [same]
    exact ⟨id,fun _ => rfl,fun _ => rfl,fun _ waits one other => .inr ⟨waits,one,other⟩⟩
  · have made : p.cancel = ({ p with cancelled := true, onCancel := [] },p.onCancel) := by
      rw [cancel,if_neg before]
    rw [made]
    exact ⟨fun _ => rfl,fun _ => rfl,fun _ => rfl,fun k _ one _ => .inl one⟩

theorem wakesOrKeeps_finish {own : Prop} (mine : own) (p : Promise α) (value : Option α) :
    WakesOrKeeps own p (p.finish value).1 (p.finish value).2 where
  cancelled h := h
  value other := absurd mine other
  pending other := absurd mine other
  told _ _ _ other := .inl other

namespace Job

/-- The promise that a computation is to deliver. -/
def owns? : Job α → Option Nat
  | .compute promise _ _ _ => some promise
  | _ => none

/-- The promise that an observer waits for. -/
def observes? : Job α → Option Nat
  | .outcome promise => some promise
  | .continuation promise _ => some promise
  | .compute _ _ _ _ => none

/-- What an observer has reported in the end, whether it was aborted or had its answer. -/
def tells : Job α → Bool → Option α → List (Report α)
  | .outcome _, true, _ => [.aborted]
  | .outcome _, false, answer => [.outcome answer]
  | .continuation _ _, false, some value => [.continued value]
  | .continuation _ _, _, _ => []
  | .compute _ _ _ _, _, _ => []

end Job

namespace Session

/-- The task is ready, or it waits for the promise and will be woken. -/
def ReadyOrWaits (s : Session α) (task promise : Nat) : Prop :=
  task ∈ s.schedule.ready ∨
    ∃ p, s.promises[promise]? = some p ∧ p.answer? = none ∧ task ∈ p.onCancel ∧ task ∈ p.onValue

/-- What a turn of one task leaves of the rest. The task bears the label, and the promise that it
computes, if any, is its own. -/
structure LeavesRest (id label : Nat) (own : Option Nat) (s t : Session α) : Prop where
  tasks : ∀ k, k ≠ id → t.tasks[k]? = s.tasks[k]?
  size : t.tasks.length = s.tasks.length
  observers : t.observers = s.observers
  handles : t.handles = s.handles
  heard : ∀ n, n ≠ label → t.heard n = s.heard n
  ready : ∀ k, k ≠ id → k ∈ s.schedule.ready → k ∈ t.schedule.ready
  told : ∀ k p, k ≠ id → s.ReadyOrWaits k p → t.ReadyOrWaits k p
  count : t.promises.length = s.promises.length
  promise : ∀ i p, s.promises[i]? = some p →
    ∃ q, t.promises[i]? = some q ∧ (p.cancelled = true → q.cancelled = true) ∧
      (own ≠ some i → q.value = p.value ∧ q.pending = p.pending)

section
variable {id label : Nat} {own : Option Nat} {s t u : Session α}

theorem LeavesRest.refl (id label : Nat) (own : Option Nat) (s : Session α) : LeavesRest id label own s s where
  tasks _ _ := rfl
  size := rfl
  observers := rfl
  handles := rfl
  heard _ _ := rfl
  ready _ _ h := h
  told _ _ _ h := h
  count := rfl
  promise _ p there := ⟨p,there,fun h => h,fun _ => ⟨rfl,rfl⟩⟩

theorem LeavesRest.trans (first : LeavesRest id label own s t) (next : LeavesRest id label own t u) :
    LeavesRest id label own s u where
  tasks k other := (next.tasks k other).trans (first.tasks k other)
  size := next.size.trans first.size
  observers := next.observers.trans first.observers
  handles := next.handles.trans first.handles
  heard n other := (next.heard n other).trans (first.heard n other)
  ready k other h := next.ready k other (first.ready k other h)
  told k p other h := next.told k p other (first.told k p other h)
  count := next.count.trans first.count
  promise i p there := by
    obtain ⟨q,found,stays,kept⟩ := first.promise i p there
    obtain ⟨r,last,later,same⟩ := next.promise i q found
    refine ⟨r,last,fun h => later (stays h),fun foreign => ?_⟩
    obtain ⟨value,pending⟩ := kept foreign
    obtain ⟨value',pending'⟩ := same foreign
    exact ⟨value'.trans value,pending'.trans pending⟩

theorem leavesRest_of_schedule {schedule : Schedule}
    (ready : ∀ k, k ≠ id → k ∈ s.schedule.ready → k ∈ schedule.ready) :
    LeavesRest id label own s { s with schedule := schedule } where
  tasks _ _ := rfl
  size := rfl
  observers := rfl
  handles := rfl
  heard _ _ := rfl
  ready := ready
  told k _ other h := h.imp (ready k other) fun waits => waits
  count := rfl
  promise _ p there := ⟨p,there,fun h => h,fun _ => ⟨rfl,rfl⟩⟩

theorem leavesRest_taken : LeavesRest id label own s (s.taken id) :=
  leavesRest_of_schedule fun _ other h => (List.mem_erase_of_ne other).mpr h

theorem leavesRest_sleep (ms : Nat) :
    LeavesRest id label own s { s with schedule := s.schedule.sleep id ms } :=
  leavesRest_of_schedule fun _ _ h => h

theorem heard_emit (s : Session α) (label : Nat) (report : Report α) (n : Nat) :
    (s.emit label report).heard n = s.heard n ++ if label = n then [report] else [] := by
  by_cases same : label = n <;> simp [heard,emit,same]

theorem leavesRest_emit (report : Report α) : LeavesRest id label own s (s.emit label report) where
  tasks _ _ := rfl
  size := rfl
  observers := rfl
  handles := rfl
  heard n other := by rw [heard_emit,if_neg other.symm,List.append_nil]
  ready _ _ h := h
  told _ _ _ h := h
  count := rfl
  promise _ p there := ⟨p,there,fun h => h,fun _ => ⟨rfl,rfl⟩⟩

theorem leavesRest_setJob (job : Job α) : LeavesRest id label own s (s.setJob id job) where
  tasks k other := by
    simp only [setJob,List.getElem?_modify,if_neg other.symm]
    cases s.tasks[k]? <;> rfl
  size := List.length_modify _ _ _
  observers := rfl
  handles := rfl
  heard _ _ := rfl
  ready _ _ h := h
  told _ _ _ h := h
  count := rfl
  promise _ p there := ⟨p,there,fun h => h,fun _ => ⟨rfl,rfl⟩⟩

theorem leavesRest_remove : LeavesRest id label own s (s.remove id) where
  tasks _ other := List.getElem?_set_ne other.symm
  size := List.length_set
  observers := rfl
  handles := rfl
  heard _ _ := rfl
  ready _ _ h := h
  told _ _ _ h := h
  count := rfl
  promise _ p there := ⟨p,there,fun h => h,fun _ => ⟨rfl,rfl⟩⟩

theorem update_some {promise : Nat} {p : Promise α} (there : s.promises[promise]? = some p)
    (f : Promise α → Promise α × List Nat) :
    s.update promise f = { s with promises := s.promises.set promise (f p).1 }.wakeAll (f p).2 := by
  rw [update,there]

theorem update_none {promise : Nat} (missing : s.promises[promise]? = none)
    (f : Promise α → Promise α × List Nat) : s.update promise f = s := by
  rw [update,missing]

theorem leavesRest_update (promise : Nat) {f : Promise α → Promise α × List Nat}
    (passes : ∀ p, WakesOrKeeps (own = some promise) p (f p).1 (f p).2) :
    LeavesRest id label own s (s.update promise f) := by
  cases there : s.promises[promise]? with
  | none =>
    rw [update_none there]
    exact .refl id label own s
  | some p =>
    have inside : promise < s.promises.length := (List.getElem?_eq_some_iff.mp there).1
    have here : (s.promises.set promise (f p).1)[promise]? = some (f p).1 := by simp [inside]
    rw [update_some there]
    refine ⟨fun _ _ => rfl,rfl,rfl,rfl,fun _ _ => rfl,?_,?_,List.length_set,?_⟩
    · intro k _ h
      simp [wakeAll,h]
    · rintro k i - (h | ⟨q,found,waits,one,other⟩)
      · exact .inl (by simp [wakeAll,h])
      by_cases same : promise = i
      · subst same
        obtain rfl : p = q := by simpa [there] using found
        rcases (passes p).told k waits one other with woken | still
        · exact .inl (by simp [wakeAll,woken])
        · exact .inr ⟨(f p).1,here,still⟩
      · exact .inr ⟨q,by simpa [wakeAll,List.getElem?_set_ne same] using found,waits,one,other⟩
    · intro i q found
      by_cases same : promise = i
      · subst same
        obtain rfl : p = q := by simpa [there] using found
        exact ⟨(f p).1,here,(passes p).cancelled,
          fun foreign => ⟨(passes p).value foreign,(passes p).pending foreign⟩⟩
      · exact ⟨q,by simpa [wakeAll,List.getElem?_set_ne same] using found,fun h => h,
          fun _ => ⟨rfl,rfl⟩⟩

theorem modify_eq_update (s : Session α) (promise : Nat) (f : Promise α → Promise α) :
    s.modify promise f = s.update promise fun p => (f p,[]) := by
  cases there : s.promises[promise]? with
  | none =>
    have outside : s.promises.length ≤ promise := List.getElem?_eq_none_iff.mp there
    rw [update_none there,modify,List.modify_eq_self outside]
  | some p =>
    have : Inhabited (Promise α) := ⟨p⟩
    rw [update_some there,modify,List.modify_eq_set,there]
    rfl

theorem leavesRest_modify (promise : Nat) {f : Promise α → Promise α}
    (passes : ∀ p, WakesOrKeeps (own = some promise) p (f p) []) :
    LeavesRest id label own s (s.modify promise f) := by
  rw [modify_eq_update]
  exact leavesRest_update promise passes

theorem leavesRest_cancel (promise : Nat) : LeavesRest id label own s (s.cancel promise) :=
  leavesRest_update promise (wakesOrKeeps_cancel _)

theorem leavesRest_finish (promise : Nat) (value : Option α) :
    LeavesRest id label (some promise) s (s.finish promise value) :=
  leavesRest_update promise fun p => wakesOrKeeps_finish rfl p value

theorem LeavesRest.owned (leaves : LeavesRest id label none s t) (own : Option Nat) :
    LeavesRest id label own s t := by
  refine { leaves with promise := ?_ }
  intro i p there
  obtain ⟨q,found,stays,kept⟩ := leaves.promise i p there
  exact ⟨q,found,stays,fun _ => kept nofun⟩

/-! A computation on its way. -/

@[simp] theorem update_tasks (promise : Nat) (f : Promise α → Promise α × List Nat) :
    (s.update promise f).tasks = s.tasks := by
  unfold update
  split <;> rfl

@[simp] theorem cancel_tasks (promise : Nat) : (s.cancel promise).tasks = s.tasks := update_tasks ..

@[simp] theorem finish_tasks (promise : Nat) (value : Option α) :
    (s.finish promise value).tasks = s.tasks := update_tasks ..

/-- It ends at last, or it pauses before the stages that are left. -/
theorem proceed_cases (id label promise : Nat) (result : Option α) (stages : List Stage)
    (s : Session α) :
    ∃ t, LeavesRest id label none s t ∧ t.tasks = s.tasks ∧
      (s.proceed id label promise result stages = (t.finish promise result).remove id ∨
        ∃ ms rest, s.proceed id label promise result stages =
          { t with schedule := t.schedule.sleep id ms }.setJob id
            (.compute promise true rest result)) := by
  induction stages generalizing s with
  | nil => exact ⟨s,.refl id label none s,rfl,.inl rfl⟩
  | cons stage rest ih =>
    cases stage with
    | sleep ms =>
      by_cases brief : ms = 0
      · obtain ⟨t,leaves,same,ends⟩ := ih (s.emit label .tick)
        rw [proceed,if_pos brief]
        exact ⟨t,.trans (leavesRest_emit .tick) leaves,same,ends⟩
      · rw [proceed,if_neg brief]
        exact ⟨s,.refl id label none s,rfl,.inr ⟨ms,rest,rfl⟩⟩
    | cancel target =>
      obtain ⟨t,leaves,same,ends⟩ := ih (s.cancel target)
      rw [proceed]
      exact ⟨t,.trans (leavesRest_cancel target) leaves,by simpa using same,ends⟩

/-! The turn of a task. -/

def answer? (s : Session α) (promise : Nat) : Option (Option α) :=
  s.promises[promise]?.bind Promise.answer?

variable {task : Task α} {promise : Nat}

/-- There is a task to have the turn, or nothing happens. -/
theorem turn_idle (s : Session α) (id : Nat) :
    (∃ task, s.tasks[id]? = some (some task)) ∨
      (∀ task, s.tasks[id]? ≠ some (some task)) ∧ s.turn id = s.taken id := by
  by_cases alive : ∃ task, s.tasks[id]? = some (some task)
  · exact .inl alive
  · refine .inr ⟨fun task there => alive ⟨task,there⟩,?_⟩
    unfold turn poll
    split
    next task there => exact absurd ⟨task,there⟩ alive
    next => rfl

theorem turn_aborted (there : s.tasks[id]? = some (some task)) (aborted : task.aborted = true) :
    s.turn id = (s.taken id).pollAborted id task := by
  have here : (s.taken id).tasks[id]? = some (some task) := there
  simp only [turn,poll,here,if_pos aborted]

theorem turn_active (there : s.tasks[id]? = some (some task)) (active : task.aborted = false) :
    s.turn id = match task.job with
      | .compute promise sleeping stages result =>
        (s.taken id).pollCompute id task.label promise sleeping stages result
      | .outcome promise => (s.taken id).pollOutcome id task.label promise
      | .continuation promise sequel =>
        (s.taken id).pollContinuation id task.label promise sequel := by
  have here : (s.taken id).tasks[id]? = some (some task) := there
  simp only [turn,poll,here,active]
  rfl

theorem turn_orphaned {sleeping : Bool} {stages : List Stage} {result : Option α}
    (there : s.tasks[id]? = some (some ⟨label,.compute promise sleeping stages result,false⟩))
    (missing : s.promises[promise]? = none) : s.turn id = (s.taken id).remove id := by
  have here : (s.taken id).promises[promise]? = none := missing
  rw [turn_active there rfl]
  simp only [pollCompute,here]

/-- The turn of a computation that is not cancelled. -/
theorem turn_computes {sleeping : Bool} {stages : List Stage} {result : Option α} {p : Promise α}
    (there : s.tasks[id]? = some (some ⟨label,.compute promise sleeping stages result,false⟩))
    (found : s.promises[promise]? = some p) (wanted : p.cancelled = false) :
    ∃ t, LeavesRest id label none s t ∧ t.tasks = s.tasks ∧
      (s.turn id = (t.finish promise result).remove id ∨
        ∃ ms rest, s.turn id = { t with schedule := t.schedule.sleep id ms }.setJob id
          (.compute promise true rest result)) := by
  have here : (s.taken id).promises[promise]? = some p := found
  rw [turn_active there rfl]
  simp only [pollCompute,here,wanted,Bool.false_eq_true,if_false]
  have attended : LeavesRest id label none s ((s.taken id).modify promise fun p => p.attend id) :=
    .trans leavesRest_taken (leavesRest_modify promise fun p => wakesOrKeeps_attend _ p id)
  cases sleeping with
  | false =>
    obtain ⟨t,leaves,same,ends⟩ := proceed_cases id label promise result stages
      ((s.taken id).modify promise fun p => p.attend id)
    exact ⟨t,.trans attended leaves,same,ends⟩
  | true =>
    obtain ⟨t,leaves,same,ends⟩ := proceed_cases id label promise result stages
      (((s.taken id).modify promise fun p => p.attend id).emit label .tick)
    exact ⟨t,.trans attended (.trans (leavesRest_emit .tick) leaves),same,ends⟩

/-- A cancelled computation is dropped at its turn. -/
theorem turn_dropped {sleeping : Bool} {stages : List Stage} {result : Option α} {p : Promise α}
    (there : s.tasks[id]? = some (some ⟨label,.compute promise sleeping stages result,false⟩))
    (found : s.promises[promise]? = some p) (cancelled : p.cancelled = true) :
    s.turn id = ((s.taken id).finish promise none).remove id := by
  have here : (s.taken id).promises[promise]? = some p := found
  rw [turn_active there rfl]
  simp only [pollCompute,here,if_pos cancelled]

theorem turn_waits (there : s.tasks[id]? = some (some task)) (active : task.aborted = false)
    (observes : task.job.observes? = some promise) (open_ : s.answer? promise = none) :
    s.turn id = (s.taken id).modify promise fun p => p.observe id := by
  have unanswered : (s.taken id).promises[promise]?.bind Promise.answer? = none := open_
  rw [turn_active there active]
  cases same : task.job with
  | compute => simp [same,Job.observes?] at observes
  | outcome seen =>
    obtain rfl : seen = promise := by simpa [same,Job.observes?] using observes
    simp only [pollOutcome,unanswered]
  | continuation seen sequel =>
    obtain rfl : seen = promise := by simpa [same,Job.observes?] using observes
    simp only [pollContinuation,unanswered]

theorem turn_tells {answer : Option α}
    (there : s.tasks[id]? = some (some ⟨label,.outcome promise,false⟩))
    (told : s.answer? promise = some answer) :
    s.turn id = ((s.taken id).emit label (.outcome answer)).remove id := by
  have answered : (s.taken id).promises[promise]?.bind Promise.answer? = some answer := told
  rw [turn_active there rfl]
  simp only [pollOutcome,answered]

theorem turn_leaves {sequel : Sequel}
    (there : s.tasks[id]? = some (some ⟨label,.continuation promise sequel,false⟩))
    (told : s.answer? promise = some none) : s.turn id = (s.taken id).remove id := by
  have answered : (s.taken id).promises[promise]?.bind Promise.answer? = some none := told
  rw [turn_active there rfl]
  simp only [pollContinuation,answered]

theorem turn_continues {sequel : Sequel} {value : α}
    (there : s.tasks[id]? = some (some ⟨label,.continuation promise sequel,false⟩))
    (told : s.answer? promise = some (some value)) :
    s.turn id = (((s.taken id).emit label (.continued value)).remove id).follow sequel := by
  have answered : (s.taken id).promises[promise]?.bind Promise.answer? = some (some value) := told
  rw [turn_active there rfl]
  simp only [pollContinuation,answered]

theorem leavesRest_follow (sequel : Sequel) : LeavesRest id label own s (s.follow sequel) := by
  cases sequel with
  | nothing => exact .refl id label own s
  | cancel target => exact leavesRest_cancel target
  | crash => exact .refl id label own s

theorem turn_leavesRest (there : s.tasks[id]? = some (some task)) :
    LeavesRest id task.label task.job.owns? s (s.turn id) := by
  rcases task with ⟨label,job,_ | _⟩
  · cases job with
    | compute promise sleeping stages result =>
      cases found : s.promises[promise]? with
      | none =>
        rw [turn_orphaned there found]
        exact .trans leavesRest_taken leavesRest_remove
      | some p =>
        cases cancelled : p.cancelled with
        | true =>
          rw [turn_dropped there found cancelled]
          exact .trans leavesRest_taken (.trans (leavesRest_finish promise none) leavesRest_remove)
        | false =>
          obtain ⟨t,leaves,-,ends | ⟨ms,rest,pauses⟩⟩ := turn_computes there found cancelled
          · rw [ends]
            exact .trans (leaves.owned _) (.trans (leavesRest_finish promise result) leavesRest_remove)
          · rw [pauses]
            exact .trans (leaves.owned _) (.trans (leavesRest_sleep ms) (leavesRest_setJob _))
    | outcome promise =>
      cases told : s.answer? promise with
      | none =>
        rw [turn_waits there rfl rfl told]
        exact .trans leavesRest_taken (leavesRest_modify promise fun p => wakesOrKeeps_observe _ p id)
      | some answer =>
        rw [turn_tells there told]
        exact .trans leavesRest_taken (.trans (leavesRest_emit _) leavesRest_remove)
    | continuation promise sequel =>
      cases told : s.answer? promise with
      | none =>
        rw [turn_waits there rfl rfl told]
        exact .trans leavesRest_taken (leavesRest_modify promise fun p => wakesOrKeeps_observe _ p id)
      | some answer =>
        cases answer with
        | none =>
          rw [turn_leaves there told]
          exact .trans leavesRest_taken leavesRest_remove
        | some value =>
          rw [turn_continues there told]
          exact .trans leavesRest_taken
            (.trans (leavesRest_emit _) (.trans leavesRest_remove (leavesRest_follow sequel)))
  · rw [turn_aborted there rfl]
    cases job with
    | outcome => exact .trans leavesRest_taken (.trans (leavesRest_emit _) leavesRest_remove)
    | compute => exact .trans leavesRest_taken leavesRest_remove
    | continuation => exact .trans leavesRest_taken leavesRest_remove

@[simp] theorem remove_heard (n : Nat) : (s.remove id).heard n = s.heard n := rfl

@[simp] theorem taken_heard (n : Nat) : (s.taken id).heard n = s.heard n := rfl

@[simp] theorem follow_tasks (sequel : Sequel) : (s.follow sequel).tasks = s.tasks := by
  cases sequel <;> simp [follow]

@[simp] theorem update_heard (promise : Nat) (f : Promise α → Promise α × List Nat) (n : Nat) :
    (s.update promise f).heard n = s.heard n := by
  unfold update
  split <;> rfl

@[simp] theorem follow_heard (sequel : Sequel) (n : Nat) :
    (s.follow sequel).heard n = s.heard n := by
  cases sequel <;> simp [follow,cancel]

theorem remove_here (there : s.tasks[id]? = some (some task)) :
    (s.remove id).tasks[id]? = some none := by
  have inside : id < s.tasks.length := (List.getElem?_eq_some_iff.mp there).1
  simp [remove,inside]

theorem update_here {p : Promise α} (found : s.promises[promise]? = some p)
    (f : Promise α → Promise α × List Nat) :
    (s.update promise f).promises[promise]? = some (f p).1 := by
  have inside : promise < s.promises.length := (List.getElem?_eq_some_iff.mp found).1
  rw [update_some found]
  simp [wakeAll,inside]

/-- The computation is over, with a value or without one. -/
def Over (s : Session α) (promise : Nat) (value : Option α) : Prop :=
  ∃ p, s.promises[promise]? = some p ∧ p.pending = false ∧ p.value = value

def EndedWith (s : Session α) (id promise : Nat) (value : Option α) : Prop :=
  s.tasks[id]? = some none ∧ s.Over promise value

theorem endedWith_finish {p : Promise α} (there : s.tasks[id]? = some (some task))
    (found : s.promises[promise]? = some p) (value : Option α) :
    EndedWith ((s.finish promise value).remove id) id promise value := by
  constructor
  · have here : (s.finish promise value).tasks[id]? = some (some task) := by rwa [finish_tasks]
    exact remove_here here
  · exact ⟨_,update_here found fun p => p.finish value,rfl,rfl⟩

/-- A computation is dropped if it is cancelled. Otherwise it ends with its result, or it pauses. -/
theorem turn_computing {sleeping : Bool} {stages : List Stage} {result : Option α} {p : Promise α}
    (there : s.tasks[id]? = some (some ⟨label,.compute promise sleeping stages result,false⟩))
    (found : s.promises[promise]? = some p) :
    (p.cancelled = true ∧ s.turn id = ((s.taken id).finish promise none).remove id ∧
      EndedWith (s.turn id) id promise none) ∨
    p.cancelled = false ∧ (EndedWith (s.turn id) id promise result ∨
      ∃ rest q, (s.turn id).tasks[id]? = some (some ⟨label,.compute promise true rest result,false⟩) ∧
        (s.turn id).promises[promise]? = some q ∧ q.value = p.value ∧ q.pending = p.pending) := by
  cases cancelled : p.cancelled with
  | true =>
    have dropped := turn_dropped there found cancelled
    refine .inl ⟨rfl,dropped,?_⟩
    rw [dropped]
    exact endedWith_finish (s := s.taken id) there found none
  | false =>
    obtain ⟨t,leaves,same,ends | ⟨ms,rest,pauses⟩⟩ := turn_computes there found cancelled
    · obtain ⟨q,later,-⟩ := leaves.promise promise p found
      rw [← same] at there
      rw [ends]
      exact .inr ⟨rfl,.inl (endedWith_finish there later result)⟩
    · obtain ⟨q,later,-,kept⟩ := leaves.promise promise p found
      rw [← same] at there
      rw [pauses]
      exact .inr ⟨rfl,.inr ⟨rest,q,by simp [setJob,there],later,kept nofun⟩⟩

/-- An observer ends with its one report, or it waits because there is no answer yet. -/
theorem turn_observes {job : Job α} {aborted : Bool}
    (there : s.tasks[id]? = some (some ⟨label,job,aborted⟩)) (observes : job.observes? = some promise) :
    ((s.turn id).tasks[id]? = some none ∧ ∃ answer, (aborted = true ∨ s.answer? promise = some answer) ∧
      (s.turn id).heard label = s.heard label ++ job.tells aborted answer) ∨
    aborted = false ∧ s.answer? promise = none ∧
      s.turn id = (s.taken id).modify promise fun p => p.observe id := by
  have gone : ((s.taken id).remove id).tasks[id]? = some none :=
    remove_here (s := s.taken id) there
  cases aborted with
  | true =>
    refine .inl ⟨?_,none,.inl rfl,?_⟩
    · rw [turn_aborted there rfl]
      cases job <;> exact gone
    · rw [turn_aborted there rfl]
      cases job <;> simp [pollAborted,Job.tells,heard_emit]
  | false =>
    cases told : s.answer? promise with
    | none => exact .inr ⟨rfl,rfl,turn_waits there rfl observes told⟩
    | some answer =>
      left
      cases job with
      | compute => cases observes
      | outcome seen =>
        obtain rfl : seen = promise := by simpa [Job.observes?] using observes
        rw [turn_tells there told]
        exact ⟨gone,answer,.inr rfl,by simp [heard_emit,Job.tells]⟩
      | continuation seen sequel =>
        obtain rfl : seen = promise := by simpa [Job.observes?] using observes
        cases answer with
        | none =>
          rw [turn_leaves there told]
          exact ⟨gone,none,.inr rfl,by simp [Job.tells]⟩
        | some value =>
          rw [turn_continues there told]
          refine ⟨?_,some value,.inr rfl,by simp [heard_emit,Job.tells]⟩
          rw [follow_tasks]
          exact gone

end
end Session
end EditorLink.Promise
