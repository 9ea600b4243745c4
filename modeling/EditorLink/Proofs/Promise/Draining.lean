import EditorLink.Proofs.Promise.Move
import Mathlib.Algebra.Order.BigOperators.Group.Finset

/-! A drain leaves no task ready: a promise wakes a task at most twice, when it is cancelled and when its computation
ends, so each task has only a few turns at one instant. -/
namespace EditorLink

/-- What is found after one place is written. -/
theorem getElem?_put {β : Type} {items : List β} {i k : Nat} {x y : β} (found : (items.set i x)[k]? = some y) :
    i = k ∧ y = x ∨ i ≠ k ∧ items[k]? = some y := by
  rw [List.getElem?_set] at found
  split at found
  next same =>
    split at found
    · exact .inl ⟨same,(Option.some.inj found).symm⟩
    · cases found
  next other => exact .inr ⟨other,found⟩

namespace Promise
variable {α : Type}

/-- The promise that a task is there for. -/
def Job.home : Job α → Nat
  | .compute promise _ _ _ | .outcome promise | .continuation promise _ => promise

/-- How often a promise may still wake those who wait for it. -/
def wakes (p : Promise α) : Nat := (if p.cancelled then 0 else 1) + if p.pending then 1 else 0

/-- A change that wakes some of those who wait uses up one of the occasions to do so. More tasks may wait after it. -/
structure Eases (more : List Nat) (x y : Promise α) (tasks : List Nat) : Prop where
  waits : ∀ k, k ∈ y.onCancel ∨ k ∈ y.onValue → k ∈ more ∨ k ∈ x.onCancel ∨ k ∈ x.onValue
  closed : y.pending = false → y.onValue = []
  woken : ∀ k ∈ tasks, k ∈ x.onCancel ∨ k ∈ x.onValue
  less : wakes y ≤ wakes x
  paid : tasks ≠ [] → wakes y < wakes x

variable {x : Promise α} {id : Nat}

theorem eases_attend (closed : x.pending = false → x.onValue = []) : Eases [id] x (x.attend id) [] where
  waits k := by
    simp only [attend,mem_join,List.mem_singleton]
    tauto
  closed := closed
  woken := nofun
  less := Nat.le_refl _
  paid := absurd rfl

theorem eases_observe (waiting : x.answer? = none) : Eases [id] x (x.observe id) [] where
  waits k := by
    simp only [observe,mem_join,List.mem_singleton]
    tauto
  closed ended := by
    have ended : x.pending = false := ended
    simp only [answer?,ended] at waiting
    split at waiting
    · cases waiting
    · split at waiting
      · cases waiting
      · cases waiting
  woken := nofun
  less := Nat.le_refl _
  paid := absurd rfl

theorem eases_cancel (closed : x.pending = false → x.onValue = []) : Eases [] x x.cancel.1 x.cancel.2 := by
  unfold cancel
  split
  next before => exact ⟨fun k => .inr,closed,nofun,Nat.le_refl _,absurd rfl⟩
  next before =>
    have used : wakes { x with cancelled := true, onCancel := [] } < wakes x := by
      rw [wakes,wakes,if_pos rfl,if_neg before]
      exact Nat.add_lt_add_right Nat.zero_lt_one _
    exact ⟨fun k waits => .inr (.inr (waits.resolve_left nofun)),closed,fun k => .inl,Nat.le_of_lt used,fun _ => used⟩

theorem eases_finish (closed : x.pending = false → x.onValue = []) (value : Option α) :
    Eases [] x (x.finish value).1 (x.finish value).2 where
  waits k waits := .inr (.inl (waits.resolve_right nofun))
  closed _ := rfl
  woken k := .inr
  less := Nat.add_le_add_left (Nat.zero_le _) _
  paid any := by
    have going : x.pending = true := Bool.eq_true_of_not_eq_false fun ended => any (closed ended)
    rw [wakes,wakes,if_pos going]
    exact Nat.add_lt_add_left Nat.zero_lt_one _

namespace Session

/-- How many turns the task may still have at this instant. -/
def dues (home : Nat → Nat) (s : Session α) (k : Nat) : Nat :=
  (if k ∈ s.schedule.ready then 1 else 0) + (s.promises[home k]?).elim 0 wakes

/-- How many turns tasks may still have at this instant. -/
def left (home : Nat → Nat) (s : Session α) : Nat := ∑ k ∈ Finset.range s.tasks.length, s.dues home k

/-- Every task waits for the promise that it is there for, and for no other one. -/
structure Homed (home : Nat → Nat) (s : Session α) : Prop where
  distinct : s.schedule.ready.Nodup
  ready : ∀ k ∈ s.schedule.ready, k < s.tasks.length
  timers : ∀ t ∈ s.schedule.timers, t.task < s.tasks.length
  waits : ∀ (i : Nat) (p : Promise α), s.promises[i]? = some p →
    ∀ k, k ∈ p.onCancel ∨ k ∈ p.onValue → home k = i ∧ k < s.tasks.length
  closed : ∀ (i : Nat) (p : Promise α), s.promises[i]? = some p → p.pending = false → p.onValue = []
  tasks : ∀ (k : Nat) (t : Task α), s.tasks[k]? = some (some t) → home k = t.job.home

/-- On the way from one session to the other no task gets more turns to have. -/
structure Calms (home : Nat → Nat) (s t : Session α) : Prop where
  homed : Homed home t
  size : t.tasks.length = s.tasks.length
  dues : ∀ k, t.dues home k ≤ s.dues home k

variable {home : Nat → Nat} {s t u : Session α} {label promise : Nat}

theorem Calms.trans (first : Calms home s t) (next : Calms home t u) : Calms home s u where
  homed := next.homed
  size := next.size.trans first.size
  dues k := (next.dues k).trans (first.dues k)

theorem Homed.calm (homed : Homed home s) : Calms home s s := ⟨homed,rfl,fun _ => Nat.le_refl _⟩

theorem dues_le (home : Nat → Nat) (s : Session α) (k : Nat) : s.dues home k ≤ 3 := by
  have twice (p : Promise α) : wakes p ≤ 2 := by
    unfold wakes
    split <;> split <;> omega
  unfold dues
  cases s.promises[home k]? with
  | none => split <;> simp
  | some p =>
    have := twice p
    simp only [Option.elim_some]
    split <;> omega

theorem left_le (home : Nat → Nat) (s : Session α) : s.left home ≤ s.tasks.length * 3 := by
  have all := Finset.sum_le_card_nsmul (Finset.range s.tasks.length) (s.dues home) 3 fun k _ => dues_le home s k
  rwa [Finset.card_range] at all

namespace Homed

theorem emit (homed : Homed home s) (label : Nat) (report : Report α) : Calms home s (s.emit label report) :=
  ⟨{ homed with },rfl,fun _ => Nat.le_refl _⟩

theorem remove (homed : Homed home s) (id : Nat) : Calms home s (s.remove id) where
  homed := by
    have size : (s.remove id).tasks.length = s.tasks.length := List.length_set
    refine ⟨homed.distinct,size ▸ homed.ready,?_,size ▸ homed.waits,homed.closed,?_⟩
    · intro t member
      rw [size]
      exact homed.timers t (List.mem_filter.mp member).1
    · intro k t there
      rcases getElem?_put there with ⟨-,same⟩ | ⟨-,before⟩
      · cases same
      · exact homed.tasks k t before
  size := List.length_set
  dues _ := Nat.le_refl _

theorem setJob (homed : Homed home s) {id : Nat} {job : Job α} (same : home id = job.home) :
    Calms home s (s.setJob id job) where
  homed := by
    have size : (s.setJob id job).tasks.length = s.tasks.length := List.length_modify _ _ _
    refine ⟨homed.distinct,size ▸ homed.ready,size ▸ homed.timers,size ▸ homed.waits,homed.closed,?_⟩
    intro k t there
    obtain ⟨before,here,changed⟩ : ∃ a, s.tasks[k]? = some a ∧
        (if id = k then a.map fun t => { t with job } else a) = some t := by
      simpa only [Session.setJob,List.getElem?_modify,Option.map_eq_map,Option.map_eq_some_iff] using there
    split at changed
    next mine =>
      obtain ⟨old,-,rfl⟩ := Option.map_eq_some_iff.mp changed
      exact mine ▸ same
    next other => exact homed.tasks k t (changed ▸ here)
  size := List.length_modify _ _ _
  dues _ := Nat.le_refl _

theorem sleep (homed : Homed home s) {id : Nat} (inside : id < s.tasks.length) (ms : Nat) :
    Calms home s { s with schedule := s.schedule.sleep id ms } := by
  refine ⟨{ homed with timers := fun t member => ?_ },rfl,fun _ => Nat.le_refl _⟩
  rcases List.mem_append.mp member with old | new
  · exact homed.timers t old
  · rw [List.mem_singleton.mp new]
    exact inside

theorem update (homed : Homed home s) {more : List Nat} (mine : ∀ k ∈ more, home k = promise ∧ k < s.tasks.length)
    {f : Promise α → Promise α × List Nat}
    (eases : ∀ x, s.promises[promise]? = some x → Eases more x (f x).1 (f x).2) : Calms home s (s.update promise f) := by
  cases there : s.promises[promise]? with
  | none =>
    rw [update_none there]
    exact homed.calm
  | some x =>
    have eases := eases x there
    have known := homed.waits promise x there
    have inside := (List.getElem?_eq_some_iff.mp there).1
    rw [update_some there]
    refine ⟨⟨?_,?_,?_,?_,?_,homed.tasks⟩,rfl,fun k => ?_⟩
    · exact Schedule.wakeAll_nodup homed.distinct _
    · intro k ready
      rcases (Schedule.mem_wakeAll ..).mp ready with before | woken
      · exact homed.ready k before
      · exact (known k (eases.woken k woken)).2
    · intro t member
      simp only [wakeAll,Schedule.wakeAll_timers] at member
      exact homed.timers t member
    · intro i p found k waits
      rcases getElem?_put found with ⟨rfl,rfl⟩ | ⟨-,before⟩
      · exact (eases.waits k waits).elim (mine k) (known k)
      · exact homed.waits i p before k waits
    · intro i p found
      rcases getElem?_put found with ⟨rfl,rfl⟩ | ⟨-,before⟩
      · exact eases.closed
      · exact homed.closed i p before
    · have ready : k ∈ (s.schedule.wakeAll (f x).2).ready ↔ k ∈ s.schedule.ready ∨ k ∈ (f x).2 :=
        Schedule.mem_wakeAll ..
      simp only [Session.dues,wakeAll,ready]
      by_cases here : home k = promise
      · rw [here,List.getElem?_set_self inside,there]
        by_cases quiet : (f x).2 = []
        · simp only [quiet,List.not_mem_nil,or_false]
          exact Nat.add_le_add_left eases.less _
        · have paid := eases.paid quiet
          simp only [Option.elim_some]
          split <;> omega
      · have asleep : k ∉ (f x).2 := fun woken => here (known k (eases.woken k woken)).1
        rw [List.getElem?_set_ne fun same => here same.symm]
        simp only [asleep,or_false]
        exact Nat.le_refl _

theorem cancel (homed : Homed home s) (promise : Nat) : Calms home s (s.cancel promise) := by
  refine homed.update ?_ fun _ there => eases_cancel (homed.closed _ _ there)
  exact List.forall_mem_nil _

theorem finish (homed : Homed home s) (promise : Nat) (value : Option α) : Calms home s (s.finish promise value) := by
  refine homed.update ?_ fun _ there => eases_finish (homed.closed _ _ there) value
  exact List.forall_mem_nil _

theorem attend (homed : Homed home s) {id : Nat} (mine : home id = promise) (inside : id < s.tasks.length) :
    Calms home s (s.modify promise fun p => p.attend id) := by
  rw [modify_eq_update]
  apply homed.update
  · exact List.forall_mem_singleton.mpr ⟨mine,inside⟩
  · exact fun _ there => eases_attend (homed.closed _ _ there)

theorem observe (homed : Homed home s) {id : Nat} (mine : home id = promise) (inside : id < s.tasks.length)
    (waiting : s.answer? promise = none) : Calms home s (s.modify promise fun p => p.observe id) := by
  rw [modify_eq_update]
  apply homed.update
  · exact List.forall_mem_singleton.mpr ⟨mine,inside⟩
  · intro x there
    rw [answer?,there] at waiting
    exact eases_observe waiting

theorem proceed (homed : Homed home s) {id : Nat} (mine : home id = promise) (inside : id < s.tasks.length) (label : Nat)
    (result : Option α) (stages : List Stage) : Calms home s (s.proceed id label promise result stages) := by
  induction stages generalizing s with
  | nil =>
    have finished := homed.finish promise result
    exact finished.trans (finished.homed.remove id)
  | cons stage rest ih =>
    cases stage with
    | sleep ms =>
      rw [Session.proceed]
      split
      · have told := homed.emit label .tick
        exact told.trans (ih told.homed inside)
      · have asleep := homed.sleep inside ms
        exact asleep.trans (asleep.homed.setJob mine)
    | cancel target =>
      have cancelled := homed.cancel target
      exact cancelled.trans (ih cancelled.homed (cancelled.size ▸ inside))

/-- A task that has its turn leaves the queue. -/
theorem taken (homed : Homed home s) (id : Nat) : Calms home s (s.taken id) := by
  have fewer {k : Nat} : k ∈ (s.taken id).schedule.ready → k ∈ s.schedule.ready := List.mem_of_mem_erase
  refine ⟨{ homed with distinct := homed.distinct.erase id, ready := fun k h => homed.ready k (fewer h) },rfl,fun k => ?_⟩
  apply Nat.add_le_add_right
  split
  next ready => rw [if_pos (fewer ready)]
  · exact Nat.zero_le _

theorem turn (homed : Homed home s) (id : Nat) : Calms home (s.taken id) (s.turn id) := by
  have homed := (homed.taken id).homed
  rcases turn_idle s id with ⟨⟨label,job,aborted⟩,there⟩ | ⟨-,idle⟩
  case inr =>
    rw [idle]
    exact homed.calm
  have inside : id < s.tasks.length := (List.getElem?_eq_some_iff.mp there).1
  have mine : home id = job.home := homed.tasks id _ there
  have told (report : Report α) : Calms home (s.taken id) (((s.taken id).emit label report).remove id) :=
    (homed.emit label report).trans ((homed.emit label report).homed.remove id)
  cases aborted with
  | true =>
    rw [turn_aborted there rfl]
    cases job with
    | outcome => exact told .aborted
    | compute => exact homed.remove id
    | continuation => exact homed.remove id
  | false =>
    rw [turn_active there rfl]
    cases job with
    | compute promise sleeping stages result =>
      dsimp only [pollCompute]
      split
      · exact homed.remove id
      · split
        · have dropped := homed.finish promise none
          exact dropped.trans (dropped.homed.remove id)
        · have attends := homed.attend mine inside
          split
          · have ticks := attends.homed.emit label .tick
            have goes := ticks.homed.proceed mine (by exact attends.size ▸ inside) label result stages
            exact attends.trans (ticks.trans goes)
          · exact attends.trans (attends.homed.proceed mine (attends.size ▸ inside) label result stages)
    | outcome promise =>
      dsimp only [pollOutcome]
      split
      next waiting => exact homed.observe mine inside waiting
      next answer _ => exact told (.outcome answer)
    | continuation promise sequel =>
      dsimp only [pollContinuation]
      split
      next waiting => exact homed.observe mine inside waiting
      · exact homed.remove id
      next value _ =>
        have told := told (.continued value)
        cases sequel with
        | nothing => exact told
        | cancel target => exact told.trans (told.homed.cancel target)
        | crash => exact told

theorem left_turn (homed : Homed home s) {id : Nat} (ready : id ∈ s.schedule.ready) :
    (s.turn id).left home < s.left home := by
  have taken := homed.taken id
  have turned := homed.turn id
  rw [Session.left,Session.left,turned.size,taken.size]
  apply Finset.sum_lt_sum
  · exact fun k _ => (turned.dues k).trans (taken.dues k)
  · refine ⟨id,Finset.mem_range.mpr (homed.ready id ready),(turned.dues id).trans_lt ?_⟩
    apply Nat.add_lt_add_right
    have gone : id ∉ (s.taken id).schedule.ready := homed.distinct.not_mem_erase
    rw [if_neg gone,if_pos ready]
    exact Nat.zero_lt_one

theorem next (homed : Homed home s) : Homed home (Scheduled.turn s) := by
  cases queue : s.schedule.ready with
  | nil => rw [turn_none queue]; exact homed
  | cons id rest => rw [turn_first queue]; exact (homed.turn id).homed

theorem turnsUpTo_idle (homed : Homed home s) {n : Nat} (enough : s.left home ≤ n) :
    (Scheduled.turnsUpTo n s).schedule.ready = [] := by
  induction n generalizing s with
  | zero =>
    rw [Scheduled.turnsUpTo]
    refine List.eq_nil_iff_forall_not_mem.mpr fun id ready => ?_
    exact Nat.not_lt_zero _ ((homed.left_turn ready).trans_le enough)
  | succ n ih =>
    rw [Scheduled.turnsUpTo]
    split
    next idle => exact List.isEmpty_iff.mp idle
    next busy =>
      apply ih homed.next
      cases queue : s.schedule.ready with
      | nil => exact absurd (List.isEmpty_iff.mpr queue) busy
      | cons id rest =>
        have less := homed.left_turn (queue ▸ List.mem_cons_self)
        rw [turn_first queue]
        omega

/-- A drain gives every task all the turns that it needs. -/
theorem drain (homed : Homed home s) : (Scheduled.drain s).schedule.ready = [] := by
  apply homed.turnsUpTo_idle
  have few := left_le home s
  have turns : Scheduled.turns s = 16 * s.tasks.length + 16 := rfl
  omega

theorem arrive (homed : Homed home s) (now : Nat) : Homed home (Scheduled.arriveAt now s) := by
  refine ⟨?_,fun k ready => ?_,fun t member => ?_,homed.waits,homed.closed,homed.tasks⟩
  · apply Schedule.wakeAll_nodup
    exact homed.distinct
  · rcases (Schedule.mem_wakeAll ..).mp ready with before | due
    · exact homed.ready k before
    · obtain ⟨t,member,rfl⟩ := List.mem_map.mp due
      exact homed.timers t (List.mem_filter.mp member).1
  · have later : t ∈ (Schedule.arrive s.schedule now).timers := member
    rw [Schedule.arrive,Schedule.wakeAll_timers] at later
    exact homed.timers t (List.mem_filter.mp later).1

theorem spawn (homed : Homed home s) (label : Nat) (job : Job α) :
    Homed (fun k => if k = s.tasks.length then job.home else home k) (s.spawn label job) := by
  have size : (s.spawn label job).tasks.length = s.tasks.length + 1 := List.length_append
  refine ⟨Schedule.wake_nodup homed.distinct _,fun k ready => ?_,fun t member => ?_,fun i p found k waits => ?_,
    homed.closed,fun k t there => ?_⟩
  · rw [size]
    rcases (Schedule.mem_wake ..).mp ready with before | rfl
    · exact Nat.lt_succ_of_lt (homed.ready k before)
    · exact Nat.lt_succ_self _
  · rw [size]
    simp only [Session.spawn,Schedule.wake_timers] at member
    exact Nat.lt_succ_of_lt (homed.timers t member)
  · obtain ⟨mine,inside⟩ := homed.waits i p found k waits
    rw [if_neg (Nat.ne_of_lt inside),size]
    exact ⟨mine,Nat.lt_succ_of_lt inside⟩
  · rcases getElem?_pushed there with old | ⟨rfl,new⟩
    · rw [if_neg (Nat.ne_of_lt (List.getElem?_eq_some_iff.mp old).1)]
      exact homed.tasks k t old
    · cases new
      exact if_pos rfl

theorem promised (homed : Homed home s) (number : Nat) :
    Homed home { s with promises := s.promises ++ [{}], handles := s.handles ++ [(number,s.promises.length)] } := by
  refine { homed with waits := fun i p found => ?_, closed := fun i p found => ?_ }
  · rcases getElem?_pushed found with old | ⟨-,rfl⟩
    · exact homed.waits i p old
    · exact fun k waits => absurd waits (by simp)
  · rcases getElem?_pushed found with old | ⟨-,rfl⟩
    · exact homed.closed i p old
    · nofun

theorem abort (homed : Homed home s) (n : Nat) : Homed home (s.abort n) := by
  rcases abort_cases s n with same | ⟨id,task,there,-,made⟩
  · rw [same]
    exact homed
  · have inside := (List.getElem?_eq_some_iff.mp there).1
    have size : (s.abort n).tasks.length = s.tasks.length := by rw [made,List.length_set]
    rw [made] at size ⊢
    refine ⟨Schedule.wake_nodup homed.distinct id,fun k ready => ?_,fun t member => ?_,size ▸ homed.waits,homed.closed,?_⟩
    · rw [size]
      rcases (Schedule.mem_wake ..).mp ready with before | rfl
      · exact homed.ready k before
      · exact inside
    · rw [size]
      simp only [Schedule.wake_timers] at member
      exact homed.timers t member
    · intro k t found
      rcases getElem?_put found with ⟨rfl,same⟩ | ⟨-,before⟩
      · cases same
        exact homed.tasks id task there
      · exact homed.tasks k t before

theorem performed (homed : Homed home s) {number : Nat} {c : Command α} (done : Performed s number c t) :
    ∃ home, Homed home t := by
  cases done with
  | nothing => exact ⟨home,homed⟩
  | handles => exact ⟨home,{ homed with }⟩
  | cancel handle promise => exact ⟨home,(homed.cancel promise).homed⟩
  | spawn stages result => exact ⟨_,(homed.promised number).spawn number _⟩
  | observe command job =>
    have noted : Homed home { s with observers := s.observers ++ [number] } := { homed with }
    exact ⟨_,noted.spawn number job⟩
  | abort n => exact ⟨home,homed.abort n⟩

end Homed

/-- Every task has a promise that it is there for. -/
def AllHomed (s : Session α) : Prop := ∃ home, Homed home s

theorem allHomed_start : AllHomed ({} : Session α) := ⟨id,List.nodup_nil,nofun,nofun,nofun,nofun,nofun⟩

theorem AllHomed.next (allHomed : AllHomed s) : AllHomed (Scheduled.turn s) := by
  obtain ⟨home,homed⟩ := allHomed
  exact ⟨home,homed.next⟩

theorem AllHomed.settle (allHomed : AllHomed s) : AllHomed (Scheduled.drain s) :=
  Scheduled.drain_keeps (fun _ allHomed => allHomed.next) allHomed

theorem AllHomed.arrive (allHomed : AllHomed s) (now : Nat) : AllHomed (Scheduled.arriveAt now s) := by
  obtain ⟨home,homed⟩ := allHomed
  exact ⟨home,homed.arrive now⟩

theorem AllHomed.advance (allHomed : AllHomed s) (ms : Nat) : AllHomed (Scheduled.advance ms s) :=
  Scheduled.advance_keeps (fun _ allHomed => allHomed.next) (fun now _ allHomed => allHomed.arrive now) ms allHomed

theorem AllHomed.move (allHomed : AllHomed s) {number : Nat} {c : Command α} (free : s.Unused number) :
    AllHomed (s.move (.perform number c)) := by
  obtain ⟨home,homed⟩ := allHomed
  by_cases waits : ∃ ms, c = .advance ms
  · obtain ⟨ms,rfl⟩ := waits
    exact AllHomed.advance ⟨home,homed⟩ ms
  · exact homed.performed (performed ⟨free,fun ms same => waits ⟨ms,same⟩⟩)

theorem step_eq (s : Session α) (number : Nat) (st : Step (Command α)) :
    (s.step number st).2 = if st.settles then Scheduled.drain (s.move (.perform number st.command))
      else s.move (.perform number st.command) := rfl

theorem allHomed_step (allHomed : AllHomed s) {number : Nat} (free : s.Unused number) (st : Step (Command α)) :
    AllHomed (s.step number st).2 := by
  have performed : AllHomed (s.move (.perform number st.command)) := allHomed.move free
  rw [step_eq]
  split
  · exact performed.settle
  · exact performed

theorem allHomed_after (steps : List (Step (Command α))) {number : Nat} (allHomed : AllHomed s)
    (free : ∀ k, number ≤ k → s.Unused k) : AllHomed (s.after number steps) := by
  induction steps generalizing s number with
  | nil => exact allHomed
  | cons st rest ih =>
    apply ih
    · exact allHomed_step allHomed (free number (Nat.le_refl _)) st
    · exact (step_leads s number st free).2

/-- Whatever a script has done, a drain runs all tasks until none is ready. -/
theorem idle_after_drain (steps : List (Step (Command α))) :
    (Scheduled.drain (({} : Session α).after 0 steps)).schedule.ready = [] := by
  obtain ⟨home,homed⟩ := allHomed_after steps allHomed_start fun k _ => unused_start k
  exact homed.drain

end Session
end Promise
end EditorLink
