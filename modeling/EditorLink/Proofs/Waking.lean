import EditorLink.Proofs.Course
import EditorLink.Proofs.Promise.Turn

/-! Who is woken, and by what. A task sets timers for itself only. It gets ready when its timer goes off,
when it is new, when its caller drops it, or when a promise tells it of its value or of a cancel, for which
it has to be on the promise's lists. -/
namespace EditorLink
open World EditorLink.Action

namespace World

def toldOfCancel (w : World) (p : Nat) : List Nat := w.promises[p]?.elim [] Promise.onCancel

def toldOfValue (w : World) (p : Nat) : List Nat := w.promises[p]?.elim [] Promise.onValue

/-- A promise has a reason to wake the task. -/
def MayWake (v w : World) (j : Nat) : Prop :=
  (∃ p, j ∈ v.toldOfValue p) ∨ ∃ p, j ∈ v.toldOfCancel p ∧ w.isCancelled p = true

/-- What one who acts for the tasks `own` may do: set timers for them and wake them, put them on the lists of
promises, start new tasks, and have promises wake those on their lists. -/
structure Wakes (own : Nat → Prop) (cancels values : Nat → Prop) (v w : World) : Prop where
  now : w.now = v.now
  size : v.tasks.length ≤ w.tasks.length
  timers : ∃ new, w.schedule.timers = v.schedule.timers ++ new ∧ ∀ t ∈ new, own t.task
  ready : ∃ more, w.schedule.ready = v.schedule.ready ++ more ∧
    ∀ j ∈ more, own j ∨ v.tasks.length ≤ j ∧ j < w.tasks.length ∨ MayWake v w j
  nodup : v.schedule.ready.Nodup → w.schedule.ready.Nodup
  cancels : ∀ p, ∀ j ∈ w.toldOfCancel p, j ∈ v.toldOfCancel p ∨ own j ∧ cancels p
  values : ∀ p, ∀ j ∈ w.toldOfValue p, j ∈ v.toldOfValue p ∨ own j ∧ values p
  cancelled : ∀ p, v.isCancelled p = true → w.isCancelled p = true

variable {own : Nat → Prop} {cancels values : Nat → Prop} {u v w : World}

instance : Frame (Wakes own cancels values) where
  refl w := ⟨rfl,Nat.le_refl _,⟨[],by simp,by simp⟩,⟨[],by simp,by simp⟩,id,fun _ _ => .inl,fun _ _ => .inl,
    fun _ => id⟩
  trans := by
    intro u v w first next
    obtain ⟨one,begun,ours⟩ := first.timers
    obtain ⟨two,set,also⟩ := next.timers
    obtain ⟨some,woken,why⟩ := first.ready
    obtain ⟨more,again,reasons⟩ := next.ready
    refine
      { now := next.now.trans first.now
        size := Nat.le_trans first.size next.size
        timers := ⟨one ++ two,by rw [set,begun,List.append_assoc],fun t member => ?_⟩
        ready := ⟨some ++ more,by rw [again,woken,List.append_assoc],fun j member => ?_⟩
        nodup := fun nodup => next.nodup (first.nodup nodup)
        cancels := fun p j member => ?_
        values := fun p j member => ?_
        cancelled := fun p gone => next.cancelled p (first.cancelled p gone) }
    · exact (List.mem_append.mp member).elim (ours t) (also t)
    · have earlier := first.size
      have later := next.size
      rcases List.mem_append.mp member with old | new
      · rcases why j old with mine | ⟨fresh,known⟩ | ⟨p,told⟩ | ⟨p,told,gone⟩
        · exact .inl mine
        · exact .inr (.inl ⟨fresh,by omega⟩)
        · exact .inr (.inr (.inl ⟨p,told⟩))
        · exact .inr (.inr (.inr ⟨p,told,next.cancelled p gone⟩))
      · rcases reasons j new with mine | ⟨fresh,known⟩ | ⟨p,told⟩ | ⟨p,told,gone⟩
        · exact .inl mine
        · exact .inr (.inl ⟨by omega,known⟩)
        · rcases first.values p j told with before | ⟨mine,-⟩
          · exact .inr (.inr (.inl ⟨p,before⟩))
          · exact .inl mine
        · rcases first.cancels p j told with before | ⟨mine,-⟩
          · exact .inr (.inr (.inr ⟨p,before,gone⟩))
          · exact .inl mine
    · exact (next.cancels p j member).elim (first.cancels p j) .inr
    · exact (next.values p j member).elim (first.values p j) .inr

theorem Wakes.mono {more : Nat → Prop} {hears sees : Nat → Prop} (wakes : Wakes own cancels values v w)
    (wider : ∀ j, own j → more j) (heard : ∀ p, cancels p → hears p) (seen : ∀ p, values p → sees p) :
    Wakes more hears sees v w :=
  { wakes with
    timers := by
      obtain ⟨new,same,ours⟩ := wakes.timers
      exact ⟨new,same,fun t member => wider _ (ours t member)⟩
    ready := by
      obtain ⟨added,same,why⟩ := wakes.ready
      exact ⟨added,same,fun j member => (why j member).imp_left (wider j)⟩
    cancels := fun p j member => (wakes.cancels p j member).imp_right fun ⟨mine,may⟩ => ⟨wider j mine,heard p may⟩
    values := fun p j member => (wakes.values p j member).imp_right fun ⟨mine,may⟩ => ⟨wider j mine,seen p may⟩ }

theorem wakes_aside (schedule : w.schedule = v.schedule) (promises : w.promises = v.promises)
    (tasks : w.tasks.length = v.tasks.length) : Wakes own cancels values v w where
  now := by rw [World.now,schedule]; rfl
  size := Nat.le_of_eq tasks.symm
  timers := ⟨[],by rw [schedule,List.append_nil],by simp⟩
  ready := ⟨[],by rw [schedule,List.append_nil],by simp⟩
  nodup nodup := by rw [schedule]; exact nodup
  cancels p j member := .inl (by rw [toldOfCancel,promises] at member; exact member)
  values p j member := .inl (by rw [toldOfValue,promises] at member; exact member)
  cancelled p gone := by rw [isCancelled,promises]; exact gone

theorem Handling.wakes {n : Nat} {sets : Bool} (handling : Handling n sets v w) : Wakes own cancels values v w :=
  wakes_aside (by rw [handling.same]) (by rw [handling.same]) (by rw [handling.same])

/-- A task is put on lists of a promise. -/
theorem wakes_listed (w : World) (p : Nat) (f : Promise Verdict → Promise Verdict)
    (same : ∀ x, (f x).cancelled = x.cancelled)
    (hears : ∀ x, ∀ j ∈ (f x).onCancel, j ∈ x.onCancel ∨ own j ∧ cancels p)
    (sees : ∀ x, ∀ j ∈ (f x).onValue, j ∈ x.onValue ∨ own j ∧ values p) :
    Wakes own cancels values w { w with promises := w.promises.modify p f } := by
  have after (q : Nat) : (w.promises.modify p f)[q]? =
      if p = q then w.promises[q]?.map f else w.promises[q]? := by
    rw [List.getElem?_modify]
    by_cases here : p = q <;> simp [here]
  refine
    { (Frame.refl w : Wakes own cancels values w w) with
      ready := ⟨[],by simp,by simp⟩, cancels := fun q j member => ?_, values := fun q j member => ?_
      cancelled := fun q gone => ?_ }
  · simp only [toldOfCancel,after] at member ⊢
    split at member
    · rename_i here
      subst here
      rcases there : w.promises[p]? with _ | x <;> rw [there] at member
      · cases member
      · exact hears x j member
    · exact .inl member
  · simp only [toldOfValue,after] at member ⊢
    split at member
    · rename_i here
      subst here
      rcases there : w.promises[p]? with _ | x <;> rw [there] at member
      · cases member
      · exact sees x j member
    · exact .inl member
  · simp only [isCancelled,after] at gone ⊢
    split
    · simpa [Option.any_map,Function.comp_def,same] using gone
    · exact gone

/-- A promise changes and wakes those on its lists. -/
theorem wakes_updatePromise (w : World) (p : Nat) (f : Promise Verdict → Promise Verdict × List Nat)
    (lists : ∀ x, (∀ j ∈ (f x).1.onCancel, j ∈ x.onCancel) ∧ ∀ j ∈ (f x).1.onValue, j ∈ x.onValue)
    (final : ∀ x, x.cancelled = true → (f x).1.cancelled = true)
    (told : ∀ x, ∀ j ∈ (f x).2, j ∈ x.onValue ∨ j ∈ x.onCancel ∧ (f x).1.cancelled = true) :
    Wakes own cancels values w (w.updatePromise p f) := by
  unfold updatePromise
  split
  · exact Frame.refl w
  · rename_i x there
    have inside := (List.getElem?_eq_some_iff.mp there).1
    have own' (q : Nat) : (w.promises.set p (f x).1)[q]? = if p = q then some (f x).1 else w.promises[q]? := by
      rw [List.getElem?_set]
      by_cases here : p = q
      · simp [← here,inside]
      · simp [here]
    obtain ⟨more,woken,from_⟩ := w.schedule.wakeAll_ready (f x).2
    refine
      { now := Schedule.wakeAll_now _ _
        size := Nat.le_refl _
        timers := ⟨[],by simp,by simp⟩
        ready := ⟨more,woken,fun j member => .inr (.inr ?_)⟩
        nodup := fun nodup => Schedule.wakeAll_nodup nodup _
        cancels := fun q j member => .inl ?_
        values := fun q j member => .inl ?_
        cancelled := fun q gone => ?_ }
    · rcases told x j (from_ j member) with seen | ⟨heard,gone⟩
      · exact .inl ⟨p,by simpa [toldOfValue,there] using seen⟩
      · refine .inr ⟨p,by simpa [toldOfCancel,there] using heard,?_⟩
        simpa [isCancelled,own'] using gone
    · simp only [toldOfCancel,own'] at member ⊢
      split at member
      · rename_i here
        rw [← here,there]
        exact (lists x).1 j member
      · exact member
    · simp only [toldOfValue,own'] at member ⊢
      split at member
      · rename_i here
        rw [← here,there]
        exact (lists x).2 j member
      · exact member
    · simp only [isCancelled,own'] at gone ⊢
      split
      · rename_i here
        rw [← here,there] at gone
        exact final x gone
      · exact gone

theorem wakes_cancel (w : World) (p : Nat) : Wakes own cancels values w (w.updatePromise p Promise.cancel) := by
  refine wakes_updatePromise w p _ (fun x => ?_) (fun x gone => ?_) fun x j member => ?_
  · unfold Promise.cancel
    split
    · exact ⟨fun _ => id,fun _ => id⟩
    · exact ⟨nofun,fun _ => id⟩
  · rw [Promise.cancel,if_pos gone]
    exact gone
  · unfold Promise.cancel at member ⊢
    split at member
    · cases member
    · rename_i open_
      rw [if_neg open_]
      exact .inr ⟨member,rfl⟩

theorem wakes_finish (w : World) (p : Nat) (value : Option Verdict) :
    Wakes own cancels values w (w.updatePromise p fun x => x.finish value) :=
  wakes_updatePromise w p _ (fun _ => ⟨fun _ => id,nofun⟩) (fun _ gone => gone) fun _ _ member => .inl member

/-- A new task is ready at once. -/
theorem wakes_spawn (w : World) (label : Option Nat) (job : Job) :
    Wakes own cancels values w (w.spawn label job) := by
  obtain ⟨more,woken,new⟩ := w.schedule.wake_ready w.tasks.length
  exact
    { (Frame.refl w : Wakes own cancels values w w) with
      now := Schedule.wake_now _ _
      size := by simp [spawn]
      timers := ⟨[],by simp [spawn],by simp⟩
      ready := ⟨more,woken,fun j member => .inr (.inl (by rw [new j member]; simp [spawn]))⟩
      nodup := fun nodup => Schedule.wake_nodup nodup _ }

end World

namespace Action

variable {own : Nat → Prop} {cancels values : Nat → Prop} {id : Nat}

theorem note_wakes (notice : Notice) : Keeps (Wakes own cancels values) (note notice) := fun _ =>
  wakes_aside rfl rfl rfl

theorem modifyLink_wakes (n : Nat) (f : Link → Link) : Keeps (Wakes own cancels values) (modifyLink n f) :=
  fun _ => wakes_aside rfl rfl rfl

theorem sleep_wakes (mine : own id) (ms : Nat) : Keeps (Wakes own cancels values) (sleep id ms) := fun w =>
  { (Frame.refl w : Wakes own cancels values w w) with
    ready := ⟨[],(List.append_nil _).symm,by simp⟩
    timers := ⟨[⟨w.now + min ms Schedule.longestSleep,id⟩],rfl,by simpa using mine⟩ }

theorem attend_wakes (mine : own id) {p : Nat} (may : cancels p) :
    Keeps (Wakes own cancels values) (modifyPromise p fun x => x.attend id) := by
  refine fun w => wakes_listed w p _ (fun _ => rfl) (fun x j member => ?_) fun x j member => .inl member
  exact ((Promise.mem_join _ _ _).mp member).imp_right fun same => ⟨by rw [same]; exact mine,may⟩

theorem await_wakes (mine : own id) {p : Nat} (hears : cancels p) (sees : values p) :
    Keeps (Wakes own cancels values) (await id p) := by
  intro w
  rw [exec_await]
  split
  · refine wakes_listed w p _ (fun _ => rfl) (fun x j member => ?_) fun x j member => ?_
    · exact ((Promise.mem_join _ _ _).mp member).imp_right fun same => ⟨by rw [same]; exact mine,hears⟩
    · exact ((Promise.mem_join _ _ _).mp member).imp_right fun same => ⟨by rw [same]; exact mine,sees⟩
  · exact Frame.refl w

theorem endPromise_wakes (p : Nat) (value : Option Verdict) :
    Keeps (Wakes own cancels values) (endPromise p value) := fun w => wakes_finish w p value

theorem wakes_promised (w : World) : Wakes own cancels values w
    { w with promises := w.promises ++ [({} : Promise Verdict)] } := by
  have beyond (q : Nat) : (w.promises ++ [({} : Promise Verdict)])[q]? = w.promises[q]? ∨
      w.promises[q]? = none ∧ (w.promises ++ [({} : Promise Verdict)])[q]? = some {} ∨
      w.promises[q]? = none ∧ (w.promises ++ [({} : Promise Verdict)])[q]? = none := by
    rw [List.getElem?_append]
    split
    · exact .inl rfl
    · rename_i late
      have none := List.getElem?_eq_none (Nat.not_lt.mp late)
      rcases q - w.promises.length with _ | k
      · exact .inr (.inl ⟨none,rfl⟩)
      · exact .inr (.inr ⟨none,rfl⟩)
  refine { (Frame.refl w : Wakes own cancels values w w) with
    ready := ⟨[],by simp,by simp⟩, cancels := fun q j member => .inl ?_, values := fun q j member => .inl ?_
    cancelled := fun q gone => ?_ }
  · simp only [toldOfCancel] at member ⊢
    rcases beyond q with same | ⟨-,new⟩ | ⟨-,new⟩
    · rw [same] at member
      exact member
    · rw [new] at member
      cases member
    · rw [new] at member
      cases member
  · simp only [toldOfValue] at member ⊢
    rcases beyond q with same | ⟨-,new⟩ | ⟨-,new⟩
    · rw [same] at member
      exact member
    · rw [new] at member
      cases member
    · rw [new] at member
      cases member
  · obtain ⟨x,there,ended⟩ := (Option.any_eq_true _ _).mp gone
    simp [isCancelled,getElem?_append_some there,ended]

theorem startStop_wakes (n : Nat) (canSpawn : Bool) : Keeps (Wakes own cancels values) (startStop n canSpawn) :=
  startStop_keeps n canSpawn (note_wakes _) (fun f _ => modifyLink_wakes n f) (fun p w => wakes_cancel w p)
    fun w _ => Frame.trans (wakes_promised w) (wakes_spawn _ none _)

theorem resumeUpdate_wakes (mine : own id) (n : Nat) (phase : UpdatePhase) :
    Keeps (Wakes own cancels values) (resumeUpdate id n phase) :=
  resumeUpdate_keeps id (fun w _ => note_wakes _ w) (fun _ _ _ _ => wakes_aside rfl rfl rfl)
    (fun _ _ _ _ => wakes_aside rfl rfl rfl) (sleep_wakes mine) n phase

theorem resumeStop_wakes (mine : own id) {p : Nat} (may : cancels p) (plan : StopPlan) (deadline : Option Nat) :
    Keeps (Wakes own cancels values) (resumeStop id p plan deadline) :=
  resumeStop_keeps id p plan deadline (fun _ => note_wakes _) (fun _ => wakes_aside rfl rfl rfl)
    (attend_wakes mine may) (sleep_wakes mine) (endPromise_wakes p)

theorem serves_wakes (n : Nat) : Serves n (Wakes own (fun _ => True) fun _ => True) own := by
  refine serves_of_handling (fun handling => handling.wakes) (fun _ _ => wakes_aside rfl rfl rfl)
    (fun id p mine => await_wakes mine trivial trivial) (startStop_wakes n true) ?_
  exact uncacheModel_keeps n (fun _ _ => wakes_aside rfl rfl rfl) fun _ => wakes_aside rfl rfl rfl

/-- The lists of promises on which a turn of the job may put its task: none for an update, and for a stop
attempt that of its own promise, to hear of a cancel. -/
def hears : Job → Nat → Prop
  | .update _ _ => fun _ => False
  | .stop p _ _ => fun q => q = p
  | _ => fun _ => True

def sees : Job → Nat → Prop
  | .update _ _ => fun _ => False
  | .stop _ _ _ => fun _ => False
  | _ => fun _ => True

/-- A turn sets timers for its own task only, and puts no other task on any list. -/
theorem resume_wakes (mine : own id) (job : Job) : Keeps (Wakes own (hears job) (sees job)) (resume id job) := by
  cases job with
  | update n phase => exact resumeUpdate_wakes mine n phase
  | uncache n stop => exact resumeUncache_keeps (serves_wakes n) id stop mine
  | create registry name teardown =>
    cases teardown with
    | none =>
      have registers : Keeps (Wakes own (fun _ => True) fun _ => True) (register registry) :=
        register_keeps registry (fun _ => wakes_aside rfl rfl rfl) fun _ _ _ => wakes_aside rfl rfl rfl
      exact resumeCreate_fresh_keeps registry registers serves_wakes id name mine
    | some made => exact resumeCreate_keeps (serves_wakes made.1) id registry name made.2 mine
  | stop p plan deadline =>
    refine resumeStop_wakes mine ?_ plan deadline
    exact rfl
  | wait p => exact resumeWait_keeps (await_wakes mine trivial trivial)
  | continuation p => exact resumeContinuation_keeps (await_wakes mine trivial trivial)

end Action

end EditorLink
