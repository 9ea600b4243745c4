import EditorLink.Proofs.Promise.Computation
import EditorLink.Proofs.Promise.Observers

/-! A cancel is final for the promise, for its computation and for whoever observes it. -/
namespace EditorLink.Promise.Session
variable {α : Type} {s t : Session α} {promise : Nat}

/-- What a handle tells. -/
def isCancelled (s : Session α) (handle : Nat) : Bool :=
  ((s.handle? handle).bind fun promise => s.promises[promise]?).any Promise.cancelled

/-- The move cancels a promise that has no value yet, and it is not a turn of its computation. -/
structure FromOutside (s : Session α) (m : Move α) (promise : Nat) : Prop where
  fits : s.Fits m
  before : ∃ p, s.promises[promise]? = some p ∧ p.cancelled = false ∧ p.value = none
  foreign : ¬ s.Computes m promise
  after : (s.move m).Cancelled promise

/-- The promise has no value, and its computation is where it was or it has been dropped. -/
structure HaltedSince (s : Session α) (promise : Nat) (t : Session α) : Prop where
  cancelled : t.Cancelled promise
  unsettled : ∃ p, t.promises[promise]? = some p ∧ p.value = none
  stands : ∀ (id : Nat) (task : Task α), s.tasks[id]? = some (some task) →
    task.job.owns? = some promise → t.tasks[id]? = some none ∨ t.tasks[id]? = some (some task)

theorem cancel_halts {m : Move α} (begun : Begun s) (outside : s.FromOutside m promise) :
    HaltedSince s promise (s.move m) where
  cancelled := outside.after
  unsettled := by
    obtain ⟨p,found,-,value⟩ := outside.before
    obtain ⟨q,later,-,kept⟩ := (move_apart outside.fits).promise promise p found
    exact ⟨q,later,(kept outside.foreign).1.trans value⟩
  stands id task there owns := by
    have other : m ≠ .turn id := by
      rintro rfl
      exact outside.foreign ⟨id,task,rfl,there,owns⟩
    exact .inr ((wellFormed_of_begun begun).computes_on outside.fits there owns other)

theorem HaltedSince.move {m : Move α} (halted : HaltedSince s promise t) (begun : Begun t)
    (fits : t.Fits m) : HaltedSince s promise (t.move m) := by
  have wellFormed := wellFormed_of_begun begun
  obtain ⟨p,found,unsettled⟩ := halted.unsettled
  have already : p.cancelled = true := by
    obtain ⟨q,found',already⟩ := halted.cancelled
    obtain rfl : p = q := by simpa [found] using found'
    exact already
  refine ⟨halted.cancelled.move fits,?_,fun id task there owns => ?_⟩
  · by_cases computes : t.Computes m promise
    · obtain ⟨id,label,sleeping,stages,result,q,rfl,here,-⟩ := wellFormed.computes computes
      rcases turn_computing here found with ⟨-,-,-,r,later,-,value⟩ | ⟨going,-⟩
      · exact ⟨r,later,value⟩
      · simp [already] at going
    · obtain ⟨q,later,-,kept⟩ := (move_apart fits).promise promise p found
      exact ⟨q,later,(kept computes).1.trans unsettled⟩
  · rcases halted.stands id task there owns with gone | stands
    · exact .inl (gone_move gone fits)
    by_cases turns : m = .turn id
    · subst turns
      obtain ⟨_,_,_,_,_,_,same,here,-⟩ := wellFormed.computes ⟨id,task,rfl,stands,owns⟩
      cases same
      rcases turn_computing here found with ⟨-,-,gone,-⟩ | ⟨going,-⟩
      · exact .inl gone
      · simp [already] at going
    · exact .inr (wellFormed.computes_on fits stands owns turns)

theorem HaltedSince.drops {id : Nat} {task : Task α} (halted : HaltedSince s promise t) (begun : Begun t)
    (there : t.tasks[id]? = some (some task)) (owns : task.job.owns? = some promise) :
    t.turn id = ((t.taken id).finish promise none).remove id := by
  obtain ⟨_,_,_,_,_,_,same,here,-⟩ := (wellFormed_of_begun begun).computes ⟨id,task,rfl,there,owns⟩
  cases same
  obtain ⟨p,found,already⟩ := halted.cancelled
  exact turn_dropped here found already

/-- Once the promise is cancelled, an observer that ends was aborted or is told of nothing. -/
theorem observer_of_cancelled {n : Nat} {job : Job α} {aborted : Bool} (begun : Begun s)
    (waits : ObserverWaits s n job aborted) (observes : job.observes? = some promise)
    (cancelled : s.Cancelled promise) (later : Leads s t) :
    ∃ aborted, ObserverWaits t n job aborted ∨ Ended t n (job.tells aborted none) := by
  apply later.keeps (P := fun u => ∃ aborted, ObserverWaits u n job aborted ∨ Ended u n (job.tells aborted none))
    ⟨aborted,.inl waits⟩
  intro u m before fits _ holds
  obtain ⟨aborted,waits | ended⟩ := holds
  · have wellFormed := wellFormed_of_begun (begun.leads before)
    rcases waits.move wellFormed fits observes with ⟨next,still,-⟩ | ⟨answer,known,ended⟩
    · exact ⟨next,.inl still⟩
    · refine ⟨aborted,.inr ?_⟩
      rcases known with rfl | told
      · -- what an aborted observer says does not depend on the answer
        cases job <;> exact ended
      · rwa [cancelled_answer (cancelled.leads before) told] at ended
  · exact ⟨aborted,.inr (ended.move fits)⟩

/-- At any moment from a cancel on, take the observers that have been registered by then, and look again
later. -/
theorem cancel_is_final {s r t : Session α} {promise : Nat} (begun : Begun s)
    (cancelled : s.Cancelled promise) (since : Leads s r) (later : Leads r t) :
    (∀ (u : Session α) number handle, Begun u → u.handle? handle = some promise →
      (u.move (.perform number (.cancel handle))).Cancelled promise) ∧
    (∀ handle, t.handle? handle = some promise → t.isCancelled handle = true) ∧
    (∀ n sequel, Called n (.continuation promise sequel) r →
      t.heard n = r.heard n) ∧
    (∀ n, Called n (.outcome promise) r →
      t.heard n = r.heard n ∨
        r.heard n = [] ∧ (t.heard n = [.outcome none] ∨ t.heard n = [.aborted])) ∧
    ∀ u m, Begun u → u.FromOutside m promise → s = u.move m →
      (∃ p, t.promises[promise]? = some p ∧ p.settled = false) ∧
      ∀ (id : Nat) (task : Task α), u.tasks[id]? = some (some task) →
        task.job.owns? = some promise →
        (task.job.SilentSoFar → u.heard task.label = []) ∧
          (t.tasks[id]? = some none ∨ t.tasks[id]? = some (some task) ∧
            t.turn id = ((t.taken id).finish promise none).remove id) := by
  have begun' : Begun r := begun.leads since
  have now : r.Cancelled promise := cancelled.leads since
  have seen (n : Nat) (job : Job α) (observes : job.observes? = some promise)
      (registered : Called n job r) :
      t.heard n = r.heard n ∨
        r.heard n = [] ∧ ∃ aborted, t.heard n = job.tells aborted none := by
    rcases registered.stands observes with ⟨aborted,waits⟩ | ⟨reports,ended⟩
    · have mute := waits.heard (wellFormed_of_begun begun') observes
      obtain ⟨last,still | ended⟩ := observer_of_cancelled begun' waits observes now later
      · have quiet := still.heard (wellFormed_of_begun (begun'.leads later)) observes
        exact .inl (quiet.trans mute.symm)
      · exact .inr ⟨mute,last,ended.heard⟩
    · exact .inl ((ended.leads later).heard.trans ended.heard.symm)
  refine ⟨?calls,?handles,?continuations,?outcomes,?computation⟩
  case calls =>
    intro u number handle begun known
    have inside := (wellFormed_of_begun begun).handles _ (mem_of_handle known)
    have made : u.move (.perform number (.cancel handle)) = u.cancel promise := by
      simp [Session.move,perform?,known]
    rw [made]
    exact cancel_cancels (List.getElem?_eq_getElem inside)
  case handles =>
    intro handle known
    obtain ⟨p,found,already⟩ := now.leads later
    simp [isCancelled,known,found,already]
  case continuations =>
    intro n sequel registered
    rcases seen n _ rfl registered with same | ⟨mute,aborted,heard⟩
    · exact same
    · cases aborted <;> exact heard.trans mute.symm
  case outcomes =>
    intro n registered
    rcases seen n _ rfl registered with same | ⟨mute,aborted,heard⟩
    · exact .inl same
    · cases aborted with
      | false => exact .inr ⟨mute,.inl heard⟩
      | true => exact .inr ⟨mute,.inr heard⟩
  case computation =>
    rintro u m start outside rfl
    have halted : HaltedSince u promise t := by
      apply (since.trans later).keeps (P := HaltedSince u promise) (cancel_halts start outside)
      exact fun v m' before fits _ holds => holds.move (begun.leads before) fits
    refine ⟨?_,fun id task there owns => ⟨?_,?_⟩⟩
    · obtain ⟨p,found,unsettled⟩ := halted.unsettled
      exact ⟨p,found,by simp [settled,unsettled]⟩
    · exact ((wellFormed_of_begun start).fit id task there).silent
    · rcases halted.stands id task there owns with gone | stands
      · exact .inl gone
      · exact .inr ⟨stands,halted.drops (begun'.leads later) stands owns⟩

/-! A computation of five milliseconds with an observer and a continuation, cancelled through a clone
of its handle. -/

def observed : List (Step (Command Nat)) :=
  [⟨.spawn [.sleep 5] (some 7),true⟩,⟨.outcome 0,true⟩,⟨.continuation 0 none false,true⟩,
    ⟨.clone 0,true⟩]

def beforeCancel : Session Nat := ({} : Session Nat).after 0 observed

def atCancel : Session Nat := beforeCancel.move (.perform 4 (.cancel 3))

def afterCancel : Session Nat := [.turn 0,.turn 1,.turn 2].foldl Session.move atCancel

theorem cancel_reaches_everyone :
    afterCancel.isCancelled 0 = true ∧ afterCancel.heard 2 = atCancel.heard 2 ∧
      afterCancel.heard 1 = [.outcome none] ∧
      (∃ p, afterCancel.promises[0]? = some p ∧ p.settled = false) ∧
      afterCancel.tasks[0]? = some none := by
  obtain ⟨begun,free⟩ := after_begun observed
  have fits : beforeCancel.Fits (.perform 4 (.cancel 3)) := ⟨free 4 (by decide),nofun⟩
  have begun' : Begun atCancel := .move _ begun fits trivial
  have later : Leads atCancel afterCancel := reaches_inside _ (by simp)
  have called : Leads beforeCancel atCancel := .move _ .refl fits trivial
  have cancelled : atCancel.Cancelled 0 := by
    rw [cancelled_iff]
    decide +kernel
  have outside : beforeCancel.FromOutside (.perform 4 (.cancel 3)) 0 := by
    refine ⟨fits,?_,?_,cancelled⟩
    · have waits : (beforeCancel.promises[0]?.any fun p => ! p.cancelled && p.value.isNone) = true := by
        decide +kernel
      simpa [Option.any_eq_true] using waits
    · rintro ⟨_,_,made,-⟩
      cases made
  have outcome : Called 1 (.outcome 0) atCancel :=
    (called_after (observed.take 1) ⟨.outcome 0,true⟩ (observed.drop 2) nofun rfl).leads called
  have continuation : Called 2 (.continuation 0 .nothing) atCancel :=
    (called_after (observed.take 2) ⟨.continuation 0 none false,true⟩ (observed.drop 3) nofun rfl).leads
      called
  obtain ⟨-,handles,continuations,outcomes,computation⟩ :=
    cancel_is_final begun' cancelled .refl later
  obtain ⟨unsettled,stands⟩ := computation beforeCancel _ begun outside rfl
  refine ⟨handles 0 (by decide +kernel),continuations 2 _ continuation,?_,unsettled,?_⟩
  · rcases outcomes 1 outcome with same | ⟨-,told | aborted⟩
    · exact absurd same (by decide +kernel)
    · exact told
    · exact absurd aborted (by decide +kernel)
  · have computes : (beforeCancel.tasks[0]?.any fun t => t.any fun t => t.job.owns? = some 0) = true := by
      decide +kernel
    have ended : (afterCancel.tasks[0]?.any Option.isSome) = false := by decide +kernel
    simp only [Option.any_eq_true,decide_eq_true_eq] at computes
    obtain ⟨_,found,task,rfl,owns⟩ := computes
    rcases (stands 0 task found owns).2 with gone | ⟨still,-⟩
    · exact gone
    · simp [still] at ended

end EditorLink.Promise.Session
