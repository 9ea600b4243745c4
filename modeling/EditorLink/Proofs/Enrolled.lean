import EditorLink.Proofs.Waking

/-! Which tasks are woken by a move. Every task that is ready, has set a timer or is on a list exists, and
is on no list but those its job puts it on. A task that no list, no caller and no timer of its own reaches
keeps its timers and its place. -/
namespace EditorLink
open World EditorLink.Action

theorem Job.Follows.hears {job next : Job} (follows : job.Follows next) {p : Nat} (heard : Action.hears job p) :
    Action.hears next p := by
  cases follows <;> exact heard

theorem Job.Follows.sees {job next : Job} (follows : job.Follows next) {p : Nat} (seen : Action.sees job p) :
    Action.sees next p := by
  cases follows <;> exact seen

namespace World

variable {own : Nat → Prop} {cancels values : Nat → Prop} {v w : World} {m : Move}

/-- The task was dropped by its caller, and has not had its last turn. -/
def Cut (w : World) (j : Nat) : Prop := ∃ t : Task, w.tasks[j]? = some (some t) ∧ t.aborted = true

theorem conclude_schedule (id : Nat) (label : Option Nat) (r : Except Fault Next) (v : World) :
    ((conclude id label (r,v)).schedule = v.schedule ∨
        (conclude id label (r,v)).schedule = v.schedule.forget id) ∧
      (conclude id label (r,v)).tasks.length = v.tasks.length := by
  have reported (x : Report) : ((v.report label x).remove id).schedule = v.schedule.forget id ∧
      ((v.report label x).remove id).tasks.length = v.tasks.length := by
    unfold report
    split <;> exact ⟨rfl,List.length_set⟩
  rcases r with (e | _) | job | _ | x
  · exact ⟨.inr (reported _).1,(reported _).2⟩
  · exact ⟨.inr (reported _).1,(reported _).2⟩
  · exact ⟨.inl rfl,List.length_modify _ _ _⟩
  · exact ⟨.inr rfl,List.length_set⟩
  · exact ⟨.inr (reported _).1,(reported _).2⟩

theorem aborted_schedule (w : World) (id : Nat) (t : Task) :
    (w.pollAborted id t).schedule = w.schedule.forget id ∧ (w.pollAborted id t).promises = w.promises ∧
      (w.pollAborted id t).tasks.length = w.tasks.length := by
  unfold pollAborted report
  split
  · exact ⟨rfl,rfl,List.length_set⟩
  · split <;> exact ⟨rfl,rfl,List.length_set⟩

/-- In its turn a task leaves the queue. Once it has an end its timers are gone. -/
theorem turn_wakes (w : World) (id : Nat) : ∃ v,
    Wakes (fun j => j = id ∧ j < w.tasks.length) (fun p => ∃ t, w.tasks[id]? = some (some t) ∧ hears t.job p)
      (fun p => ∃ t, w.tasks[id]? = some (some t) ∧ sees t.job p) (w.taken id) v ∧
      ((w.turn id).schedule = v.schedule ∨ (w.turn id).schedule = v.schedule.forget id) ∧
      (w.turn id).promises = v.promises ∧ (w.turn id).tasks.length = v.tasks.length := by
  rcases turn_cases w id with ⟨-,same⟩ | ⟨t,there,⟨-,same⟩ | active⟩
  · rw [same]
    exact ⟨_,Frame.refl _,.inl rfl,rfl,rfl⟩
  · obtain ⟨schedule,promises,tasks⟩ := aborted_schedule (w.taken id) id t
    rw [same]
    exact ⟨_,Frame.refl _,.inr schedule,promises,tasks⟩
  · have wakes : Wakes (· = id) (hears t.job) (sees t.job) (w.taken id) (exec (resume id t.job) (w.taken id)).2 :=
      @resume_wakes (· = id) id rfl t.job (w.taken id)
    have inside := (List.getElem?_eq_some_iff.mp there).1
    rw [turn_active there active]
    rcases ran : exec (resume id t.job) (w.taken id) with ⟨r,v⟩
    rw [ran] at wakes
    obtain ⟨schedule,tasks⟩ := conclude_schedule id t.label r v
    exact ⟨v,wakes.mono (fun j own => ⟨own,own ▸ inside⟩) (fun p heard => ⟨t,there,heard⟩)
      (fun p seen => ⟨t,there,seen⟩),schedule,conclude_promises id t.label r v,tasks⟩

theorem wakes_input (w : World) (n : Nat) (canSpawn : Bool) : Wakes own cancels values w (w.input n canSpawn) := by
  unfold input
  split
  · exact Frame.refl w
  · split
    · exact wakes_spawn w none _
    · exact wakes_aside rfl rfl rfl

theorem change_wakes (w : World) (o : Outside) : Wakes own cancels values w (w.change o).2 := by
  have aside {f : World → World} (n : Nat) (changes : ∀ v, Wakes own cancels values v (f v)) :
      Wakes own cancels values w (w.onEditor n f).2 := onEditor_keeps (Frame.refl w) fun _ => changes w
  have planned (n : Nat) (f : PlannedModel → PlannedModel) : Wakes own cancels values w (w.onModel n f).2 := by
    unfold onModel
    split
    · exact wakes_aside rfl rfl rfl
    · exact Frame.refl w
  have keeps (v : World) (editor : Nat) : Wakes own cancels values v (v.keep editor) := by
    unfold keep
    split
    · exact Frame.refl v
    · exact wakes_aside rfl rfl rfl
  cases o with
  | factory blueprint => exact wakes_aside rfl rfl rfl
  | crash site on => exact wakes_aside rfl rfl rfl
  | mount text keeps' =>
    unfold change
    dsimp only
    split
    · refine Frame.trans ?_ (keeps _ _)
      exact wakes_aside rfl rfl rfl
    · exact wakes_aside rfl rfl rfl
  | unmount => exact wakes_aside rfl rfl rfl
  | keep editor => exact aside editor fun v => keeps v editor
  | remount editor => exact aside editor fun v => wakes_aside rfl rfl rfl
  | release editor => exact wakes_aside rfl rfl rfl
  | type editor text canSpawn =>
    refine aside editor fun v => ?_
    unfold typeIn
    dsimp only
    split
    · refine Frame.trans ?_ (wakes_input _ _ canSpawn)
      exact wakes_aside rfl rfl rfl
    · exact wakes_aside rfl rfl rfl
  | busy model ms => exact planned model _
  | stall model => exact planned model _
  | settle model => exact planned model _
  | failUncache model on => exact planned model _
  | failUpdate model e => exact planned model _
  | updateMillis model ms => exact planned model _

theorem abort_wakes (w : World) (label : Nat) :
    Wakes (w.abort label).Cut (fun _ => False) (fun _ => False) w (w.abort label) := by
  unfold abort
  split
  · exact Frame.refl w
  · rename_i id found
    obtain ⟨inside,labelled,-⟩ := List.findIdx?_eq_some_iff_getElem.mp found
    obtain ⟨t,here,-⟩ := (Option.any_eq_true _ _).mp labelled
    obtain ⟨more,woken,only⟩ := w.schedule.wake_ready id
    refine
      { (Frame.refl w : Wakes _ (fun _ => False) (fun _ => False) w w) with
        now := Schedule.wake_now _ _
        size := Nat.le_of_eq (List.length_modify _ _ _).symm
        timers := ⟨[],by simp,by simp⟩
        ready := ⟨more,woken,fun j member => .inl ?_⟩
        nodup := fun nodup => Schedule.wake_nodup nodup _ }
    rw [only j member]
    exact ⟨{ t with aborted := true },by simp [List.getElem?_eq_getElem inside,here],rfl⟩

/-- A command wakes nobody but new tasks, those it drops, and those that wait for a promise it cancels. -/
theorem perform_wakes (w : World) (number : Nat) (c : Command) (single : ∀ ms, c ≠ .advance ms) :
    Wakes (w.perform number c).2.Cut (fun _ => False) (fun _ => False) w (w.perform number c).2 := by
  have does := perform_does w number c single
  generalize (w.perform number c).2 = v at does ⊢
  cases does with
  | nothing => exact Frame.refl w
  | outside o => exact change_wakes w o
  | started c job called held registered =>
    generalize World.Cut _ = own
    refine Frame.trans ?_ (wakes_spawn { w with started := w.started ++ [number] } (some number) job)
    exact wakes_aside rfl rfl rfl
  | named c n name held => exact wakes_aside rfl rfl rfl
  | dropped name => exact wakes_aside rfl rfl rfl
  | switched name on n found => exact (setLive_handling on w).wakes
  | killed name n found => exact (kill_handling w).wakes
  | stopped name canSpawn n handles =>
    generalize World.Cut _ = own
    refine Frame.trans (startStop_wakes n canSpawn w) ?_
    exact wakes_aside rfl rfl rfl
  | cancelled handle promise => exact wakes_cancel w promise
  | released handle handles => exact wakes_aside rfl rfl rfl
  | aborted label => exact abort_wakes w label

theorem Stems.before {j : Nat} {t : Task} (stems : w.Stems m j t) (known : j < w.tasks.length) :
    ∃ u, w.tasks[j]? = some (some u) ∧ (t.job = u.job ∨ u.job.Follows t.job) := by
  cases stems with
  | old _ _ _ there => exact ⟨t,there,.inl rfl⟩
  | paused _ u job there follows => exact ⟨u,there,.inr follows⟩
  | aborted _ _ u label there labelled => exact ⟨u,there,.inl rfl⟩
  | called _ _ number job called new registered => exact absurd known (Nat.not_lt.mpr new)
  | typed _ _ n new => exact absurd known (Nat.not_lt.mpr new)
  | stop _ _ promise plan new => exact absurd known (Nat.not_lt.mpr new)

theorem Stems.hears {j p : Nat} {t : Task} (stems : w.Stems m j t) (known : j < w.tasks.length)
    (heard : ∀ u, w.tasks[j]? = some (some u) → Action.hears u.job p) : Action.hears t.job p := by
  obtain ⟨u,there,same | follows⟩ := stems.before known
  · rw [same]
    exact heard u there
  · exact follows.hears (heard u there)

theorem Stems.sees {j p : Nat} {t : Task} (stems : w.Stems m j t) (known : j < w.tasks.length)
    (seen : ∀ u, w.tasks[j]? = some (some u) → Action.sees u.job p) : Action.sees t.job p := by
  obtain ⟨u,there,same | follows⟩ := stems.before known
  · rw [same]
    exact seen u there
  · exact follows.sees (seen u there)

/-- Tasks that are ready, set timers or are on lists exist, and are on lists only where their jobs put
them. -/
structure Enrolled (w : World) : Prop where
  nodup : w.schedule.ready.Nodup
  ready : ∀ j ∈ w.schedule.ready, j < w.tasks.length
  timers : ∀ t ∈ w.schedule.timers, t.task < w.tasks.length
  cancels : ∀ p, ∀ j ∈ w.toldOfCancel p, j < w.tasks.length ∧
    ∀ t, w.tasks[j]? = some (some t) → hears t.job p
  values : ∀ p, ∀ j ∈ w.toldOfValue p, j < w.tasks.length ∧
    ∀ t, w.tasks[j]? = some (some t) → sees t.job p

theorem Enrolled.mayWake (enrolled : v.Enrolled) {j : Nat} (told : MayWake v w j) : j < v.tasks.length := by
  rcases told with ⟨p,seen⟩ | ⟨p,heard,-⟩
  · exact (enrolled.values p j seen).1
  · exact (enrolled.cancels p j heard).1

theorem known_of_wakes (wakes : Wakes own cancels values v w) (enrolled : v.Enrolled)
    (ours : ∀ j, own j → j < w.tasks.length) :
    (∀ j ∈ w.schedule.ready, j < w.tasks.length) ∧ ∀ t ∈ w.schedule.timers, t.task < w.tasks.length := by
  have size := wakes.size
  constructor
  · intro j member
    obtain ⟨more,same,why⟩ := wakes.ready
    rw [same] at member
    rcases List.mem_append.mp member with old | new
    · exact Nat.lt_of_lt_of_le (enrolled.ready j old) size
    · rcases why j new with mine | ⟨-,known⟩ | told
      · exact ours j mine
      · exact known
      · exact Nat.lt_of_lt_of_le (enrolled.mayWake told) size
  · intro t member
    obtain ⟨new,same,set⟩ := wakes.timers
    rw [same] at member
    rcases List.mem_append.mp member with old | fresh
    · exact Nat.lt_of_lt_of_le (enrolled.timers t old) size
    · exact ours _ (set t fresh)

theorem taken_enrolled (enrolled : w.Enrolled) (id : Nat) : (w.taken id).Enrolled :=
  { enrolled with
    nodup := enrolled.nodup.erase id
    ready := fun j member => enrolled.ready j (List.mem_of_mem_erase member) }

theorem ready_of_forgotten {before after : Schedule} {id : Nat}
    (schedule : after = before ∨ after = before.forget id) : after.ready = before.ready := by
  rcases schedule with rfl | rfl <;> rfl

theorem perform_enrolled {number : Nat} {c : Command} (single : (Move.perform number c).Single)
    (enrolled : w.Enrolled) : (w.perform number c).2.Enrolled := by
  have stems {j : Nat} {t : Task} (there : (w.perform number c).2.tasks[j]? = some (some t)) :
      w.Stems (.perform number c) j t := move_stems single there
  have wakes := perform_wakes w number c fun ms same => single number ms (by rw [same])
  have cut (j : Nat) (cut : (w.perform number c).2.Cut j) : j < (w.perform number c).2.tasks.length := by
    obtain ⟨t,there,-⟩ := cut
    exact (List.getElem?_eq_some_iff.mp there).1
  obtain ⟨ready,timers⟩ := known_of_wakes wakes enrolled cut
  refine ⟨wakes.nodup enrolled.nodup,ready,timers,fun p j member => ?_,fun p j member => ?_⟩
  · obtain ⟨known,heard⟩ := enrolled.cancels p j ((wakes.cancels p j member).resolve_right fun h => h.2)
    exact ⟨Nat.lt_of_lt_of_le known wakes.size,fun t there => (stems there).hears known heard⟩
  · obtain ⟨known,seen⟩ := enrolled.values p j ((wakes.values p j member).resolve_right fun h => h.2)
    exact ⟨Nat.lt_of_lt_of_le known wakes.size,fun t there => (stems there).sees known seen⟩

theorem turn_enrolled (id : Nat) (enrolled : w.Enrolled) : (w.turn id).Enrolled := by
  have stems {j : Nat} {t : Task} (there : (w.turn id).tasks[j]? = some (some t)) :
      w.Stems (.turn id) j t := move_stems (fun _ _ same => by cases same) there
  obtain ⟨v,wakes,schedule,promises,size⟩ := turn_wakes w id
  have before := taken_enrolled enrolled id
  have grown : w.tasks.length ≤ v.tasks.length := wakes.size
  have kept {j : Nat} (known : j < w.tasks.length) : j < (w.turn id).tasks.length :=
    size ▸ Nat.lt_of_lt_of_le known grown
  obtain ⟨ready,timers⟩ := known_of_wakes wakes before fun j own => Nat.lt_of_lt_of_le own.2 grown
  have set (t : Timer) (member : t ∈ (w.turn id).schedule.timers) : t ∈ v.schedule.timers := by
    rcases schedule with same | same
    · exact same ▸ member
    · rw [same] at member
      exact (List.mem_filter.mp member).1
  refine ⟨?_,?_,?_,fun p j member => ?_,fun p j member => ?_⟩
  · rw [ready_of_forgotten schedule]
    exact wakes.nodup before.nodup
  · rw [ready_of_forgotten schedule,size]
    exact ready
  · rw [size]
    exact fun t member => timers t (set t member)
  · rw [toldOfCancel,promises] at member
    rcases wakes.cancels p j member with old | ⟨⟨rfl,known⟩,t,there,heard⟩
    · obtain ⟨known,heard⟩ := enrolled.cancels p j old
      exact ⟨kept known,fun t there => (stems there).hears known heard⟩
    · refine ⟨kept known,fun u after => (stems after).hears known fun k before => ?_⟩
      rw [there] at before
      cases before
      exact heard
  · rw [toldOfValue,promises] at member
    rcases wakes.values p j member with old | ⟨⟨rfl,known⟩,t,there,seen⟩
    · obtain ⟨known,seen⟩ := enrolled.values p j old
      exact ⟨kept known,fun t there => (stems there).sees known seen⟩
    · refine ⟨kept known,fun u after => (stems after).sees known fun k before => ?_⟩
      rw [there] at before
      cases before
      exact seen

theorem arrive_enrolled (now : Nat) (enrolled : w.Enrolled) : (w.move (.arrive now)).Enrolled := by
  refine { enrolled with
    nodup := ?_, ready := fun j member => ?_, timers := fun t member => ?_ }
  · have arrived : (w.schedule.arrive now).ready.Nodup := by
      rw [Schedule.arrive]
      apply Schedule.wakeAll_nodup
      exact enrolled.nodup
    exact arrived
  · rcases (Schedule.mem_wakeAll _ _ j).mp member with old | due
    · exact enrolled.ready j old
    · obtain ⟨t,there,rfl⟩ := List.mem_map.mp due
      exact enrolled.timers t (List.mem_filter.mp there).1
  · have rest : t ∈ (w.schedule.arrive now).timers := member
    rw [Schedule.arrive,Schedule.wakeAll_timers] at rest
    exact enrolled.timers t (List.mem_filter.mp rest).1

theorem move_enrolled (single : m.Single) (enrolled : w.Enrolled) : (w.move m).Enrolled := by
  cases m with
  | perform number c => exact perform_enrolled single enrolled
  | turn id => exact turn_enrolled id enrolled
  | arrive now => exact arrive_enrolled now enrolled

theorem enrolled_of_reached {s : Setting} (reached : Reaches (fun _ => True) s.start w) : w.Enrolled := by
  have kept : s.start.Enrolled → w.Enrolled :=
    run_keeps (R := fun v w => v.Enrolled → w.Enrolled) (fun _ _ => trivial)
      (fun v _ _ single enrolled => move_enrolled single enrolled) reached
  exact kept ⟨List.nodup_nil,nofun,nofun,nofun,nofun⟩

theorem move_now (single : m.Single) (still : ∀ now, m ≠ .arrive now) : (w.move m).now = w.now := by
  cases m with
  | perform number c => exact (perform_wakes w number c fun ms same => single number ms (by rw [same])).now
  | turn id =>
    obtain ⟨v,wakes,schedule,-⟩ := turn_wakes w id
    have now : v.now = w.now := wakes.now
    rw [← now,move,World.now]
    rcases schedule with same | same <;> rw [same] <;> rfl
  | arrive now => exact absurd rfl (still now)

/-- Timers of other tasks are neither set nor dropped. -/
theorem move_timers (single : m.Single) (still : ∀ now, m ≠ .arrive now) {B : Nat → Bool}
    (other : ∀ id, m = .turn id → B id = false) (uncut : ∀ j, (w.move m).Cut j → B j = false) :
    ((w.move m).schedule.timers.filter fun t => B t.task) = w.schedule.timers.filter fun t => B t.task := by
  have added {own cancels values : Nat → Prop} {v u : World} (wakes : Wakes own cancels values v u)
      (foreign : ∀ j, own j → B j = false) :
      (u.schedule.timers.filter fun t => B t.task) = v.schedule.timers.filter fun t => B t.task := by
    obtain ⟨new,same,ours⟩ := wakes.timers
    have none : (new.filter fun t => B t.task) = [] := by
      rw [List.filter_eq_nil_iff]
      intro t member
      simp [foreign _ (ours t member)]
    rw [same,List.filter_append,none,List.append_nil]
  cases m with
  | perform number c =>
    exact added (perform_wakes w number c fun ms same => single number ms (by rw [same])) uncut
  | turn id =>
    obtain ⟨v,wakes,schedule,-⟩ := turn_wakes w id
    have own := other id rfl
    have foreign (j : Nat) (mine : j = id ∧ j < w.tasks.length) : B j = false := mine.1 ▸ own
    have before : (v.schedule.timers.filter fun t => B t.task) =
        (w.taken id).schedule.timers.filter fun t => B t.task := added wakes foreign
    rw [move]
    rcases schedule with same | same
    · rw [same]
      exact before
    · rw [same]
      refine Eq.trans ?_ before
      rw [Schedule.forget,List.filter_filter]
      refine List.filter_congr fun t _ => ?_
      by_cases here : t.task = id
      · simp [here,own]
      · simp [here]
  | arrive now => exact absurd rfl (still now)

/-- Old tasks that have no reason to be woken keep their places among themselves. -/
theorem move_ready (single : m.Single) (still : ∀ now, m ≠ .arrive now) {B : Nat → Bool}
    (other : ∀ id, m = .turn id → B id = false) (known : ∀ j, B j = true → j < w.tasks.length)
    (uncut : ∀ j, (w.move m).Cut j → B j = false) (unwoken : ∀ j, MayWake w (w.move m) j → B j = false) :
    (w.move m).schedule.ready.filter B = w.schedule.ready.filter B := by
  have added {own cancels values : Nat → Prop} {v u : World} (wakes : Wakes own cancels values v u)
      (foreign : ∀ j, own j → B j = false) (old : v.tasks.length = w.tasks.length)
      (quiet : ∀ j, MayWake v u j → B j = false) :
      u.schedule.ready.filter B = v.schedule.ready.filter B := by
    obtain ⟨more,same,why⟩ := wakes.ready
    have none : more.filter B = [] := by
      rw [List.filter_eq_nil_iff]
      intro j member
      rw [Bool.not_eq_true]
      rcases why j member with mine | ⟨new,-⟩ | told
      · exact foreign j mine
      · refine Bool.eq_false_iff.mpr fun marked => ?_
        have inside := known j marked
        omega
      · exact quiet j told
    rw [same,List.filter_append,none,List.append_nil]
  cases m with
  | perform number c =>
    exact added (perform_wakes w number c fun ms same => single number ms (by rw [same])) uncut rfl unwoken
  | turn id =>
    obtain ⟨v,wakes,schedule,promises,-⟩ := turn_wakes w id
    have own := other id rfl
    have foreign (j : Nat) (mine : j = id ∧ j < w.tasks.length) : B j = false := mine.1 ▸ own
    have told (j : Nat) (told : MayWake (w.taken id) v j) : MayWake w (w.turn id) j := by
      refine told.imp_right fun ⟨p,heard,gone⟩ => ⟨p,heard,?_⟩
      rw [isCancelled,promises]
      exact gone
    have after : v.schedule.ready.filter B = (w.taken id).schedule.ready.filter B :=
      added wakes foreign rfl fun j waits => unwoken j (told j waits)
    rw [move,ready_of_forgotten schedule,after,taken,← List.erase_filter]
    refine List.erase_of_not_mem fun member => ?_
    simp [own] at member
  | arrive now => exact absurd rfl (still now)

theorem arrive_timers (w : World) (now : Nat) :
    (w.move (.arrive now)).schedule.timers = w.schedule.timers.filter fun t => ¬ t.deadline ≤ now := by
  have arrived : (w.move (.arrive now)).schedule = w.schedule.arrive now := rfl
  rw [arrived,Schedule.arrive,Schedule.wakeAll_timers]

theorem mem_arrive_ready {now j : Nat} (idle : w.schedule.ready = []) :
    j ∈ (w.move (.arrive now)).schedule.ready ↔ ∃ t ∈ w.schedule.timers, t.deadline ≤ now ∧ t.task = j := by
  have arrived : (w.move (.arrive now)).schedule = w.schedule.arrive now := rfl
  rw [arrived,Schedule.arrive,Schedule.mem_wakeAll]
  simp [idle,and_assoc]

theorem move_arrive_now (w : World) (now : Nat) : (w.move (.arrive now)).now = now := Schedule.wakeAll_now _ _

theorem Stems.fresh {j : Nat} {t : Task} (stems : w.Stems m j t) (active : t.aborted = false)
    (fresh : t.job.Fresh) : w.tasks[j]? = some (some t) ∨ w.tasks.length ≤ j := by
  cases stems with
  | old _ _ _ there => exact .inl there
  | paused _ u job there follows => exact absurd fresh follows.not_fresh
  | aborted => cases active
  | called _ _ number job called new => exact .inr new
  | typed _ _ n new => exact .inr new
  | stop _ _ promise plan new => exact .inr new

/-- A task that has not had its first turn has set no timer. -/
def Unslept (w : World) : Prop := ∀ (j : Nat) (t : Task), w.tasks[j]? = some (some t) → t.aborted = false →
  t.job.Fresh → ∀ x ∈ w.schedule.timers, x.task ≠ j

theorem move_unslept (single : m.Single) (enrolled : w.Enrolled) (unslept : w.Unslept) :
    (w.move m).Unslept := by
  intro j t there active fresh x member own
  by_cases arrival : ∃ now, m = .arrive now
  · obtain ⟨now,rfl⟩ := arrival
    rw [arrive_timers] at member
    exact unslept j t there active fresh x (List.mem_filter.mp member).1 own
  · have stems := move_stems single there
    -- after a turn of its own it would not be fresh any more
    have unturned : m ≠ .turn j := by
      rintro rfl
      obtain ⟨u,v,-,-,-,ran,-⟩ := turn_here there
      exact (resume_yieldsNext j u.job (w.taken j) _ v ran).not_fresh fresh
    have before : x ∈ w.schedule.timers := by
      have marked : x ∈ (w.move m).schedule.timers.filter fun x => x.task == j :=
        List.mem_filter.mpr ⟨member,by simpa using own⟩
      rw [move_timers single (fun now same => arrival ⟨now,same⟩) (B := fun k => k == j) ?_ ?_] at marked
      · exact (List.mem_filter.mp marked).1
      · refine fun k turned => Bool.eq_false_iff.mpr fun same => ?_
        rw [beq_iff_eq.mp same] at turned
        exact unturned turned
      · rintro k ⟨u,found,aborted⟩
        refine Bool.eq_false_iff.mpr fun same => ?_
        rw [beq_iff_eq.mp same,there] at found
        cases found
        rw [active] at aborted
        cases aborted
    rcases stems.fresh active fresh with old | new
    · exact unslept j t old active fresh x before own
    · exact absurd (own ▸ enrolled.timers x before) (Nat.not_lt.mpr new)

theorem unslept_of_reached {s : Setting} (reached : Reaches (fun _ => True) s.start w) : w.Unslept := by
  have kept : s.start.Enrolled ∧ s.start.Unslept → w.Enrolled ∧ w.Unslept :=
    run_keeps (R := fun v w => v.Enrolled ∧ v.Unslept → w.Enrolled ∧ w.Unslept) (fun _ _ => trivial)
      (fun v m _ single both => ⟨move_enrolled single both.1,move_unslept single both.1 both.2⟩) reached
  refine (kept ⟨enrolled_of_reached (Frame.refl _),?_⟩).2
  intro j t there
  cases there

end World
end EditorLink
