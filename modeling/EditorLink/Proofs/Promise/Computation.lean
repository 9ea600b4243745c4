import EditorLink.Proofs.Promise.WellFormed

/-! The way of one promise and of its computation: what is cancelled or over stays so. -/
namespace EditorLink.Promise.Session
variable {α : Type} {s t : Session α} {promise : Nat}

def Cancelled (s : Session α) (promise : Nat) : Prop :=
  ∃ p, s.promises[promise]? = some p ∧ p.cancelled = true

theorem cancelled_iff :
    s.Cancelled promise ↔ (s.promises[promise]?.any Promise.cancelled) = true := by
  rw [Option.any_eq_true,Cancelled]

theorem cancel_cancels {p : Promise α} (found : s.promises[promise]? = some p) :
    (s.cancel promise).Cancelled promise := by
  refine ⟨_,update_here found Promise.cancel,?_⟩
  unfold Promise.cancel
  split
  next already => exact already
  next => rfl

theorem Cancelled.move {m : Move α} (cancelled : s.Cancelled promise) (fits : s.Fits m) :
    (s.move m).Cancelled promise := by
  obtain ⟨p,found,already⟩ := cancelled
  obtain ⟨q,later,stays,-⟩ := (move_apart fits).promise promise p found
  exact ⟨q,later,stays already⟩

theorem Cancelled.leads (cancelled : s.Cancelled promise) (later : Leads s t) :
    t.Cancelled promise := by
  apply later.keeps (P := fun u => u.Cancelled promise) cancelled
  exact fun _ _ _ fits _ before => before.move fits

/-- Only the turn of its computation delivers a promise. -/
theorem WellFormed.computes {m : Move α} (wellFormed : WellFormed s) (computes : s.Computes m promise) :
    ∃ id label sleeping stages result p, m = .turn id ∧
      s.tasks[id]? = some (some ⟨label,.compute promise sleeping stages result,false⟩) ∧
      s.promises[promise]? = some p ∧ p.pending = true ∧ p.value = none := by
  obtain ⟨id,⟨label,job,aborted⟩,made,there,owns⟩ := computes
  obtain ⟨active,p,found,pending,value⟩ := (wellFormed.fit id _ there).owner promise owns
  cases job with
  | compute own sleeping stages result =>
    cases owns
    cases active
    exact ⟨id,label,sleeping,stages,result,p,made,there,found,pending,value⟩
  | outcome => cases owns
  | continuation => cases owns

theorem Over.move {m : Move α} {value : Option α} (past : s.Over promise value) (wellFormed : WellFormed s)
    (fits : s.Fits m) : (s.move m).Over promise value := by
  obtain ⟨p,found,ended,same⟩ := past
  obtain ⟨q,later,-,kept⟩ := (move_apart fits).promise promise p found
  have foreign : ¬ s.Computes m promise := by
    intro computes
    obtain ⟨_,_,_,_,_,p',_,_,found',pending,_⟩ := wellFormed.computes computes
    obtain rfl : p = p' := by simpa [found] using found'
    simp [ended] at pending
  obtain ⟨value',pending'⟩ := kept foreign
  exact ⟨q,later,pending'.trans ended,value'.trans same⟩

theorem Over.leads {value : Option α} (past : s.Over promise value) (begun : Begun s)
    (later : Leads s t) : t.Over promise value := by
  apply later.keeps (P := fun u => u.Over promise value) past
  exact fun _ _ before fits _ holds => holds.move (wellFormed_of_begun (begun.leads before)) fits

/-- There is no new promise with a value. -/
theorem promises_after {m : Move α} {p : Promise α} (fits : s.Fits m)
    (found : (s.move m).promises[promise]? = some p) :
    (∃ q, s.promises[promise]? = some q) ∨ p = {} := by
  have old (count : (s.move m).promises.length = s.promises.length) :
      ∃ q, s.promises[promise]? = some q := by
    have inside := (List.getElem?_eq_some_iff.mp found).1
    exact ⟨_,List.getElem?_eq_getElem (count ▸ inside)⟩
  cases m with
  | perform number command =>
    have done := performed fits
    generalize s.move (.perform number command) = t at found done old
    cases done with
    | nothing => exact .inl (old rfl)
    | handles => exact .inl (old rfl)
    | cancel handle target =>
      have leaves : LeavesRest 0 0 none s (s.cancel target) := leavesRest_cancel target
      exact .inl (old leaves.count)
    | spawn stages result =>
      rcases getElem?_pushed found with before | ⟨-,new⟩
      · exact .inl ⟨p,before⟩
      · exact .inr new.symm
    | observe => exact .inl (old rfl)
    | abort n known =>
      rcases abort_cases s n with same | ⟨_,_,_,_,made⟩
      · rw [same] at old
        exact .inl (old rfl)
      · rw [made] at old
        exact .inl (old rfl)
  | turn id =>
    left
    rcases turn_idle s id with ⟨task,there⟩ | ⟨-,idle⟩
    · exact old (turn_leavesRest there).count
    · have same : s.move (.turn id) = s.taken id := idle
      rw [same] at old
      exact old rfl
  | arrive now => exact .inl (old rfl)

def OpenUnsettled (s : Session α) : Prop :=
  ∀ (i : Nat) (p : Promise α), s.promises[i]? = some p → p.pending = true → p.value = none

/-- A promise that is still open has no value. -/
theorem open_unsettled (begun : Begun s) : s.OpenUnsettled := by
  apply Reaches.keeps begun
  · simp [OpenUnsettled]
  intro u m before fits _ holds i p found pending
  rcases promises_after fits found with ⟨q,there⟩ | rfl
  case inr => rfl
  obtain ⟨p',later,-,kept⟩ := (move_apart fits).promise i q there
  obtain rfl : p = p' := by simpa [found] using later
  by_cases computes : u.Computes m i
  · obtain ⟨id,label,sleeping,stages,result,q',rfl,here,there',open_,unsettled⟩ :=
      (wellFormed_of_begun before).computes computes
    have shut {value : Option α} (ends : EndedWith (u.turn id) id i value) : p.value = none := by
      obtain ⟨-,r,last,past,-⟩ := ends
      obtain rfl : p = r := by
        have same : (u.turn id).promises[i]? = some p := found
        simpa [same] using last
      simp [pending] at past
    rcases turn_computing here there' with ⟨-,-,ends⟩ | ⟨-,ends | ⟨rest,r,-,last,value,-⟩⟩
    · exact shut ends
    · exact shut ends
    · obtain rfl : p = r := by
        have same : (u.turn id).promises[i]? = some p := found
        simpa [same] using last
      exact value.trans unsettled
  · obtain ⟨value,pending'⟩ := kept computes
    rw [value]
    exact holds i q there (pending'.symm.trans pending)

/-- While nobody has cancelled the promise, an answer means that the computation is over. -/
theorem answer_over {answer : Option α} (begun : Begun s) (told : s.answer? promise = some answer)
    (wanted : ¬ s.Cancelled promise) : s.Over promise answer := by
  obtain ⟨p,found,said⟩ := Option.bind_eq_some_iff.mp told
  have going : p.cancelled = false := by
    cases cancelled : p.cancelled with
    | true => exact absurd ⟨p,found,cancelled⟩ wanted
    | false => rfl
  have unsettled := open_unsettled begun promise p found
  cases value : p.value with
  | none =>
    cases pending : p.pending with
    | true => simp [Promise.answer?,going,value,pending] at said
    | false =>
      obtain rfl : none = answer := by simpa [Promise.answer?,going,value,pending] using said
      exact ⟨p,found,pending,value⟩
  | some v =>
    obtain rfl : some v = answer := by simpa [Promise.answer?,going,value] using said
    cases pending : p.pending with
    | true => simp [value,pending] at unsettled
    | false => exact ⟨p,found,pending,value⟩

theorem cancelled_answer {answer : Option α} (cancelled : s.Cancelled promise)
    (told : s.answer? promise = some answer) : answer = none := by
  obtain ⟨p,found,already⟩ := cancelled
  simpa [answer?,found,Promise.answer?,already] using told.symm

/-! The task of a computation. -/

theorem gone_move {m : Move α} {id : Nat} (gone : s.tasks[id]? = some none) (fits : s.Fits m) :
    (s.move m).tasks[id]? = some none := by
  by_cases mine : s.Mine m id
  · rcases mine with rfl | ⟨_,task,-,there⟩
    · rcases turn_idle s id with ⟨task,there⟩ | ⟨-,idle⟩
      · simp [gone] at there
      · have same : s.move (.turn id) = s.taken id := idle
        rw [same]
        exact gone
    · simp [gone] at there
  · exact (move_apart fits).tasks id none mine gone

/-- A computation cannot be aborted, so nothing but its own turn changes its task. -/
theorem WellFormed.computes_on {m : Move α} {id : Nat} {task : Task α} (wellFormed : WellFormed s) (fits : s.Fits m)
    (there : s.tasks[id]? = some (some task)) (owns : task.job.owns? = some promise)
    (other : m ≠ .turn id) : (s.move m).tasks[id]? = some (some task) := by
  by_cases mine : s.Mine m id
  · rcases mine with same | ⟨number,found,rfl,here⟩
    · exact absurd same other
    · obtain rfl : found = task := by simpa [there] using here.symm
      have unknown : found.label ∉ s.observers := by
        intro known
        have free := (wellFormed.fit id found there).observer.mp known
        simp [owns] at free
      have same : s.move (.perform number (.abort found.label)) = s := by
        simp [Session.move,perform?,unknown]
      rwa [same]
  · exact (move_apart fits).tasks id _ mine there

end EditorLink.Promise.Session
