import EditorLink.Proofs.Promise.Computation
import EditorLink.Proofs.Promise.Leaving

/-! Who cancels a promise. Drops of handles, aborts and observers never do. -/
namespace EditorLink.Promise
variable {α : Type}

/-- The job is to cancel the promise, sooner or later. -/
def Job.WillCancel (promise : Nat) : Job α → Prop
  | .compute _ _ stages _ => .cancel promise ∈ stages
  | .continuation _ sequel => sequel = .cancel promise
  | .outcome _ => False

namespace Session

/-- Waiting is told as the turns and the moves of the clock that it comes to. -/
def Single : Move α → Prop
  | .perform _ c => c.waits = false
  | .turn _ | .arrive _ => True

/-- What may cancel a promise: a call of its holder, and the turn of a computation or of a continuation that is to
cancel it. -/
def Cancels (s : Session α) (promise : Nat) : Move α → Prop
  | .perform _ (.cancel handle) => s.handle? handle = some promise
  | .turn id => ∃ task, s.tasks[id]? = some (some task) ∧ task.aborted = false ∧ task.job.WillCancel promise
  | _ => False

variable {s : Session α} {m : Move α} {promise : Nat}

theorem cancelled_update {f : Promise α → Promise α × List Nat} {target : Nat}
    (after : (s.update target f).Cancelled promise) :
    s.Cancelled promise ∨ target = promise ∧ ∃ x, s.promises[promise]? = some x ∧ (f x).1.cancelled = true := by
  cases there : s.promises[target]? with
  | none =>
    rw [update_none there] at after
    exact .inl after
  | some x =>
    obtain ⟨y,found,cancelled⟩ := after
    by_cases same : target = promise
    · subst same
      cases (update_here there f).symm.trans found
      exact .inr ⟨rfl,x,there,cancelled⟩
    · rw [update_some there] at found
      exact .inl ⟨y,(List.getElem?_set_ne same).symm.trans found,cancelled⟩

/-- Most changes of a promise do not cancel it. -/
theorem cancelled_kept {f : Promise α → Promise α × List Nat} (keeps : ∀ x, (f x).1.cancelled = x.cancelled)
    {target : Nat} (after : (s.update target f).Cancelled promise) : s.Cancelled promise := by
  rcases cancelled_update after with before | ⟨-,x,there,cancelled⟩
  · exact before
  · exact ⟨x,there,(keeps x).symm.trans cancelled⟩

theorem cancelled_modify {f : Promise α → Promise α} (keeps : ∀ x, (f x).cancelled = x.cancelled) {target : Nat}
    (after : (s.modify target f).Cancelled promise) : s.Cancelled promise := by
  rw [modify_eq_update] at after
  exact cancelled_kept keeps after

theorem cancelled_cancel {target : Nat} (after : (s.cancel target).Cancelled promise) :
    s.Cancelled promise ∨ target = promise := (cancelled_update after).imp_right And.left

theorem cancelled_finish {target : Nat} {value : Option α} (after : (s.finish target value).Cancelled promise) :
    s.Cancelled promise := cancelled_kept (fun _ => rfl) after

theorem cancelled_proceed {id label own : Nat} {result : Option α} {stages : List Stage}
    (after : (s.proceed id label own result stages).Cancelled promise) :
    s.Cancelled promise ∨ .cancel promise ∈ stages := by
  induction stages generalizing s with
  | nil => exact .inl (cancelled_finish after)
  | cons stage rest ih =>
    cases stage with
    | sleep ms =>
      rw [proceed] at after
      split at after
      · exact (ih after).imp_right (List.mem_cons_of_mem _)
      · exact .inl after
    | cancel target =>
      rcases ih after with before | later
      · rcases cancelled_cancel before with before | rfl
        · exact .inl before
        · exact .inr List.mem_cons_self
      · exact .inr (List.mem_cons_of_mem _ later)

theorem cancelled_turn {id : Nat} (after : (s.turn id).Cancelled promise) :
    s.Cancelled promise ∨ s.Cancels promise (.turn id) := by
  rcases turn_idle s id with ⟨task,there⟩ | ⟨-,idle⟩
  · cases aborted : task.aborted with
    | true =>
      rw [turn_aborted there aborted,pollAborted] at after
      split at after
      · exact .inl after
      · exact .inl after
    | false =>
      have calls (calls : task.job.WillCancel promise) : s.Cancels promise (.turn id) := ⟨task,there,aborted,calls⟩
      rw [turn_active there aborted] at after
      cases job : task.job with
      | compute own sleeping stages result =>
        rw [job] at after calls
        simp only [pollCompute] at after
        split at after
        · exact .inl after
        · split at after
          · exact .inl (cancelled_finish (s := s.taken id) after)
          · rcases cancelled_proceed after with before | listed
            · split at before
              · exact .inl (cancelled_modify (f := fun x => x.attend id) (fun _ => rfl) before)
              · exact .inl (cancelled_modify (f := fun x => x.attend id) (fun _ => rfl) before)
            · exact .inr (calls listed)
      | outcome own =>
        rw [job] at after
        simp only [pollOutcome] at after
        split at after
        · exact .inl (cancelled_modify (f := fun x => x.observe id) (fun _ => rfl) after)
        · exact .inl after
      | continuation own sequel =>
        rw [job] at after calls
        simp only [pollContinuation] at after
        split at after
        · exact .inl (cancelled_modify (f := fun x => x.observe id) (fun _ => rfl) after)
        · exact .inl after
        · cases sequel with
          | nothing => exact .inl after
          | cancel target =>
            rcases cancelled_cancel after with before | rfl
            · exact .inl before
            · exact .inr (calls rfl)
          | crash => exact .inl after
  · rw [idle] at after
    exact .inl after

/-- A command about a handle that is not there does nothing. -/
theorem cancelled_onHandle {handle : Nat} {f : Nat → Session α}
    (after : (((s.handle? handle).bind fun i => some (f i)).getD s).Cancelled promise) :
    s.Cancelled promise ∨ ∃ i, s.handle? handle = some i ∧ (f i).Cancelled promise := by
  cases there : s.handle? handle with
  | none =>
    rw [there] at after
    exact .inl after
  | some i =>
    rw [there] at after
    exact .inr ⟨i,rfl,after⟩

theorem cancelled_aside {handle : Nat} {f : Nat → Session α}
    (after : (((s.handle? handle).bind fun i => some (f i)).getD s).Cancelled promise)
    (leaves : ∀ i, (f i).promises = s.promises) : s.Cancelled promise := by
  rcases cancelled_onHandle after with before | ⟨i,-,x,there,cancelled⟩
  · exact before
  · exact ⟨x,leaves i ▸ there,cancelled⟩

/-- A promise is cancelled by one that is to cancel it, and by nothing else. -/
theorem cancelled_by (single : Single m) (after : (s.move m).Cancelled promise) :
    s.Cancelled promise ∨ s.Cancels promise m := by
  cases m with
  | perform number c =>
    have single : c.waits = false := single
    cases c with
    | spawn stages result =>
      obtain ⟨x,found,cancelled⟩ := after
      rcases getElem?_pushed found with old | ⟨-,rfl⟩
      · exact .inl ⟨x,old,cancelled⟩
      · cases cancelled
    | clone handle => exact .inl (cancelled_aside after fun _ => rfl)
    | drop handle => exact .inl (cancelled_aside after fun _ => rfl)
    | cancel handle =>
      rcases cancelled_onHandle after with before | ⟨i,there,cancelled⟩
      · exact .inl before
      · exact (cancelled_cancel cancelled).imp_right fun same => there.trans (congrArg some same)
    | outcome handle => exact .inl (cancelled_aside after fun _ => rfl)
    | continuation handle cancels crashes => exact .inl (cancelled_aside after fun _ => rfl)
    | abort n =>
      rw [Session.move,perform?] at after
      split at after
      · rcases abort_cases s n with same | ⟨_,_,-,-,made⟩
        · rw [Option.getD_some,same] at after
          exact .inl after
        · rw [Option.getD_some,made] at after
          exact .inl after
      · exact .inl after
    | advance ms => cases single
  | turn id => exact cancelled_turn after
  | arrive now => exact .inl after

end Session
end EditorLink.Promise
