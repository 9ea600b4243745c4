import EditorLink.Proofs.Begun
import EditorLink.Proofs.Enrolled

/-! Nobody who waits for a promise misses its answer: a task that waits is ready, or else there is no answer yet
and the task is on both lists of the promise. -/
namespace EditorLink
open World EditorLink.Action

theorem Promise.unanswered_iff {α : Type} {x : Promise α} :
    x.answer? = none ↔ x.cancelled = false ∧ x.value = none ∧ x.pending = true := by
  unfold answer?
  cases x.cancelled <;> cases x.value <;> cases x.pending <;> simp

namespace World

/-- The task is ready, or the promise has no answer yet and will tell the task of a cancel and of its value. -/
def Minds (w : World) (id p : Nat) : Prop :=
  id ∈ w.schedule.ready ∨
    ∃ x, w.promises[p]? = some x ∧ x.answer? = none ∧ id ∈ x.onCancel ∧ id ∈ x.onValue

/-- On the way nobody has missed the answer of a promise. -/
structure Reminds (v w : World) : Prop where
  size : v.promises.length ≤ w.promises.length
  minds : ∀ id p, v.Minds id p → w.Minds id p

instance : Frame Reminds where
  refl _ := ⟨Nat.le_refl _,fun _ _ => id⟩
  trans first next :=
    ⟨Nat.le_trans first.size next.size,fun id p minds => next.minds id p (first.minds id p minds)⟩

variable {v w : World} {m : Move} {id p n : Nat}

theorem reminds_aside (ready : ∀ j ∈ v.schedule.ready, j ∈ w.schedule.ready)
    (promises : w.promises = v.promises) :
    Reminds v w where
  size := Nat.le_of_eq (by rw [promises])
  minds id p minds := by
    rw [Minds,promises]
    exact minds.imp_left (ready id)

theorem reminds_same (schedule : w.schedule = v.schedule) (promises : w.promises = v.promises) : Reminds v w :=
  reminds_aside (fun j ready => by rw [schedule]; exact ready) promises

/-- A promise gets more tasks on its lists. -/
theorem reminds_listed (w : World) (p : Nat) (f : Promise Verdict → Promise Verdict)
    (same : ∀ x, (f x).answer? = x.answer?) (cancels : ∀ x, ∀ j ∈ x.onCancel, j ∈ (f x).onCancel)
    (values : ∀ x, ∀ j ∈ x.onValue, j ∈ (f x).onValue) :
    Reminds w { w with promises := w.promises.modify p f } where
  size := Nat.le_of_eq (List.length_modify _ _ _).symm
  minds id q minds := by
    rcases minds with ready | ⟨x,there,unanswered,heard,seen⟩
    · exact .inl ready
    · by_cases here : p = q
      · exact .inr ⟨f x,by simp [here,there],(same x).trans unanswered,cancels x id heard,values x id seen⟩
      · exact .inr ⟨x,by simp [here,there],unanswered,heard,seen⟩

/-- A promise changes, and wakes those whom it has to tell. -/
theorem reminds_updatePromise (w : World) (p : Nat) (f : Promise Verdict → Promise Verdict × List Nat)
    (tells : ∀ x, x.answer? = none → ∀ j, j ∈ x.onCancel → j ∈ x.onValue → j ∈ (f x).2) :
    Reminds w (w.updatePromise p f) := by
  unfold updatePromise
  split
  · exact Frame.refl w
  · rename_i y known
    refine ⟨Nat.le_of_eq List.length_set.symm,fun id q minds => ?_⟩
    rcases minds with ready | ⟨x,there,unanswered,heard,seen⟩
    · exact .inl ((Schedule.mem_wakeAll _ _ _).mpr (.inl ready))
    · by_cases here : p = q
      · subst here
        rw [known] at there
        cases there
        exact .inl ((Schedule.mem_wakeAll _ _ _).mpr (.inr (tells y unanswered id heard seen)))
      · exact .inr ⟨x,by rw [List.getElem?_set_ne here]; exact there,unanswered,heard,seen⟩

theorem reminds_cancel (w : World) (p : Nat) : Reminds w (w.updatePromise p Promise.cancel) := by
  refine reminds_updatePromise w p _ fun x unanswered j heard _ => ?_
  rw [Promise.cancel,(Promise.unanswered_iff.mp unanswered).1]
  exact heard

theorem reminds_finish (w : World) (p : Nat) (value : Option Verdict) :
    Reminds w (w.updatePromise p fun x => x.finish value) :=
  reminds_updatePromise w p _ fun _ _ _ _ seen => seen

theorem reminds_spawn (w : World) (label : Option Nat) (job : Job) : Reminds w (w.spawn label job) :=
  reminds_aside (fun _ ready => (Schedule.mem_wake _ _ _).mpr (.inl ready)) rfl

theorem reminds_promised (w : World) :
    Reminds w { w with promises := w.promises ++ [({} : Promise Verdict)] } where
  size := by simp
  minds id q minds := by
    rcases minds with ready | ⟨x,there,rest⟩
    · exact .inl ready
    · exact .inr ⟨x,getElem?_append_some there _,rest⟩

end World

namespace Action

theorem observe_reminds (id p : Nat) (w : World) :
    Reminds w { w with promises := w.promises.modify p fun x => x.observe id } :=
  reminds_listed w p _ (fun _ => rfl) (fun _ _ heard => (Promise.mem_join _ _ _).mpr (.inl heard))
    fun _ _ seen => (Promise.mem_join _ _ _).mpr (.inl seen)

theorem await_reminds (id p : Nat) : Keeps Reminds (await id p) := by
  intro w
  rw [exec_await]
  split
  · exact observe_reminds id p w
  · exact Frame.refl w

theorem attend_reminds (id p : Nat) : Keeps Reminds (modifyPromise p fun x => x.attend id) := fun w =>
  reminds_listed w p _ (fun _ => rfl) (fun _ _ heard => (Promise.mem_join _ _ _).mpr (.inl heard))
    fun _ _ seen => seen

theorem startStop_reminds (n : Nat) (canSpawn : Bool) : Keeps Reminds (startStop n canSpawn) :=
  startStop_keeps n canSpawn (fun _ => reminds_same rfl rfl) (fun _ _ _ => reminds_same rfl rfl)
    (fun p w => reminds_cancel w p) fun w _ => Frame.trans (reminds_promised w) (reminds_spawn _ none _)

theorem serves_reminds (n : Nat) : Serves n Reminds :=
  serves_of_handling (fun handling => reminds_same (by rw [handling.same]) (by rw [handling.same]))
    (fun _ _ => reminds_same rfl rfl) (fun id p _ => await_reminds id p) (startStop_reminds n true)
    (uncacheModel_keeps n (fun _ _ => reminds_same rfl rfl) fun _ => reminds_same rfl rfl)

theorem resume_reminds (id : Nat) (job : Job) : Keeps Reminds (resume id job) := by
  refine resume_serves id job ?_ (fun n _ => serves_reminds n) ?_ ?_ fun p => await_reminds id p
  · intro n phase _
    exact resumeUpdate_keeps id (fun _ _ => reminds_same rfl rfl) (fun _ _ _ _ => reminds_same rfl rfl)
      (fun _ _ _ _ => reminds_same rfl rfl) (fun _ _ => reminds_aside (fun _ ready => ready) rfl) n phase
  · intro registry name _
    have registers : Keeps Reminds (register registry) :=
      register_keeps registry (fun _ => reminds_same rfl rfl) fun _ _ _ => reminds_same rfl rfl
    exact resumeCreate_fresh_keeps registry registers serves_reminds id name
  · intro p plan deadline _
    exact resumeStop_keeps id p plan deadline (fun _ _ => reminds_same rfl rfl) (fun _ => reminds_same rfl rfl)
      (attend_reminds id p) (fun _ _ => reminds_aside (fun _ ready => ready) rfl)
      fun value w => reminds_finish w p value

/-- A task that waits from here on minds what it waits for. -/
theorem minds_of_waits {v w : World} {id p : Nat} (waits : Waits id p w v) (known : p < w.promises.length) :
    p < v.promises.length ∧ v.Minds id p := by
  rw [Waits,exec_await] at waits
  split at waits
  · rename_i unanswered
    cases waits
    have there := List.getElem?_eq_getElem known
    rw [there,Option.bind_some] at unanswered
    exact ⟨by simpa using known,.inr ⟨w.promises[p].observe id,by simp [there],unanswered,
      (Promise.mem_join _ _ _).mpr (.inr rfl),(Promise.mem_join _ _ _).mpr (.inr rfl)⟩⟩
  · cases waits

end Action

namespace World

variable {v w : World} {m : Move} {id p n : Nat}

theorem conclude_reminds (id : Nat) (label : Option Nat) (r : Except Fault Next) (w : World) :
    Reminds w (conclude id label (r,w)) := by
  refine reminds_aside (fun j ready => ?_) (conclude_promises id label r w)
  rcases (conclude_schedule id label r w).1 with same | same <;> rw [same] <;> exact ready

theorem turn_reminds (w : World) (id : Nat) : Reminds (w.taken id) (w.turn id) := by
  rcases turn_cases w id with ⟨-,same⟩ | ⟨t,there,⟨-,same⟩ | active⟩
  · rw [same]
    exact Frame.refl _
  · obtain ⟨schedule,promises,-⟩ := aborted_schedule (w.taken id) id t
    rw [same]
    exact reminds_aside (fun j ready => by rw [schedule]; exact ready) promises
  · have kept := resume_reminds id t.job (w.taken id)
    rw [turn_active there active]
    rcases ran : exec (resume id t.job) (w.taken id) with ⟨r,v⟩
    rw [ran] at kept
    exact Frame.trans kept (conclude_reminds id t.label r v)

theorem perform_reminds (w : World) (number : Nat) (c : Command) (single : ∀ ms, c ≠ .advance ms) :
    Reminds w (w.perform number c).2 := by
  have wakes := perform_wakes w number c single
  have does := perform_does w number c single
  generalize (w.perform number c).2 = v at wakes does ⊢
  obtain ⟨more,ready,-⟩ := wakes.ready
  have aside (promises : v.promises = w.promises) : Reminds w v :=
    reminds_aside (fun j member => by rw [ready]; exact List.mem_append_left _ member) promises
  cases does with
  | outside o => exact aside (change_around w o).promises
  | switched name on n found => exact aside (by rw [(setLive_handling on w).same])
  | killed name n found => exact aside (by rw [(kill_handling w).same])
  | stopped name canSpawn n handles => exact Frame.trans (startStop_reminds n canSpawn w) (reminds_same rfl rfl)
  | cancelled handle promise => exact reminds_cancel w promise
  | aborted label =>
    refine aside ?_
    unfold abort
    split <;> rfl
  | _ => exact aside rfl

/-- By every move but its own turn a task is kept in mind. -/
theorem move_minds (single : m.Single) (other : m ≠ .turn id) (minds : w.Minds id p) : (w.move m).Minds id p := by
  cases m with
  | perform number c =>
    have reminds := perform_reminds w number c fun ms same => single number ms (by rw [same])
    exact reminds.minds id p minds
  | turn i =>
    have away : id ≠ i := fun same => other (by rw [same])
    refine (turn_reminds w i).minds id p (minds.imp_left fun ready => ?_)
    exact (List.mem_erase_of_ne away).mpr ready
  | arrive now => exact minds.imp_left fun ready => (Schedule.mem_wakeAll _ _ _).mpr (.inl ready)

theorem move_promises (single : m.Single) : w.promises.length ≤ (w.move m).promises.length := by
  cases m with
  | perform number c => exact (perform_reminds w number c fun ms same => single number ms (by rw [same])).size
  | turn id => exact (turn_reminds w id).size
  | arrive now => exact Nat.le_refl _

/-- Every teardown that waits minds the attempt that it waits for. -/
def Alert (w : World) : Prop :=
  ∀ (i : Nat) (t : Task) (n p : Nat), w.tasks[i]? = some (some t) → t.job.awaits? = some (n,p) →
    p < w.promises.length ∧ w.Minds i p

theorem alert_move (alert : w.Alert) (single : m.Single) : (w.move m).Alert := by
  intro i t n p there awaits
  by_cases own : m = .turn i
  · subst own
    obtain ⟨u,v,before,-,-,ran,turned⟩ := turn_here there
    have concluded := conclude_reminds i u.label (.ok (.pause t.job)) v
    have waited : p < v.promises.length ∧ v.Minds i p := by
      rcases resume_paused ran awaits with ⟨same,waits⟩ | ⟨x,y,begins,begun,waits⟩
      · have known := (alert i u n p before (same ▸ awaits)).1
        exact minds_of_waits waits known
      · obtain ⟨z,-,started⟩ := beginTeardown_ok begun
        have launched := startStop_launches started
        exact minds_of_waits waits (by rw [launched.size,launched.number]; exact Nat.lt_succ_self _)
    rw [move,turned]
    exact ⟨Nat.lt_of_lt_of_le waited.1 concluded.size,concluded.minds i p waited.2⟩
  · rcases awaits_before single there awaits with ⟨u,before,-,same⟩ | ⟨turn,-⟩
    · obtain ⟨known,minds⟩ := alert i u n p before (same ▸ awaits)
      exact ⟨Nat.lt_of_lt_of_le known (move_promises single),move_minds single own minds⟩
    · exact absurd turn own

theorem alert_of_reached {s : Setting} (reached : Reaches (fun _ => True) s.start w) : w.Alert := by
  have kept : s.start.Alert → w.Alert :=
    run_keeps (R := fun v w => v.Alert → w.Alert) (fun _ _ => trivial)
      (fun v m _ single alert => alert_move alert single) reached
  refine kept ?_
  intro i t n p there
  cases there

/-- A ready task stays ready until its turn. -/
theorem move_stays_ready (single : m.Single) (other : m ≠ .turn id) (ready : id ∈ w.schedule.ready) :
    id ∈ (w.move m).schedule.ready := by
  -- a promise that there is not has nothing to tell
  rcases move_minds (p := (w.move m).promises.length) single other (.inl ready) with kept | ⟨x,there,-⟩
  · exact kept
  · simp at there

/-- No other teardown than that of the given task waits for the attempt. -/
def Solely (w : World) (id p : Nat) : Prop :=
  ∀ (i : Nat) (t : Task) (n : Nat), w.tasks[i]? = some (some t) → t.job.awaits? = some (n,p) → i = id

theorem solely_move (single : m.Single) (known : p < w.promises.length) (sole : w.Solely id p) :
    (w.move m).Solely id p := by
  intro i t n there awaits
  rcases awaits_before single there awaits with ⟨u,before,-,same⟩ | ⟨-,fresh,after⟩
  · exact sole i u n before (same ▸ awaits)
  · have number := (turn_launches fresh after awaits).number
    omega

/-- The attempt of a teardown that begins is its own. -/
theorem solely_first (alert : w.Alert) : (w.turn id).Solely id w.promises.length := by
  intro i t n there awaits
  rcases awaits_before (m := .turn id) (Move.Internal.single trivial) there awaits with
    ⟨u,before,-,same⟩ | ⟨turn,-⟩
  · have known := (alert i u n _ before (same ▸ awaits)).1
    omega
  · cases turn
    rfl

end World
end EditorLink
