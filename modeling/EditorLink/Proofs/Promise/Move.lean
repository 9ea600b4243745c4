import EditorLink.Proofs.Promise.Turn

/-! What a move leaves alone, and where the tasks of a session come from. -/
namespace EditorLink.Promise.Session
variable {α : Type}

/-- Some tasks, the reports under some numbers and the values of some promises aside, everything stays
as it was, and cancelled promises stay cancelled anyway. -/
structure Apart (mine speaks delivers : Nat → Prop) (s t : Session α) : Prop where
  tasks : ∀ k x, ¬ mine k → s.tasks[k]? = some x → t.tasks[k]? = some x
  heard : ∀ n, ¬ speaks n → t.heard n = s.heard n
  ready : ∀ k, ¬ mine k → k ∈ s.schedule.ready → k ∈ t.schedule.ready
  told : ∀ k p, ¬ mine k → s.ReadyOrWaits k p → t.ReadyOrWaits k p
  observers : ∀ n ∈ s.observers, n ∈ t.observers
  promise : ∀ i p, s.promises[i]? = some p →
    ∃ q, t.promises[i]? = some q ∧ (p.cancelled = true → q.cancelled = true) ∧
      (¬ delivers i → q.value = p.value ∧ q.pending = p.pending)

/-- The task that has its turn, and the task that is aborted. -/
def Mine (s : Session α) (m : Move α) (k : Nat) : Prop :=
  m = .turn k ∨ ∃ number task, m = .perform number (.abort task.label) ∧ s.tasks[k]? = some (some task)

/-- Reports come from the task that has its turn. -/
def Speaks (s : Session α) (m : Move α) (n : Nat) : Prop :=
  ∃ k task, m = .turn k ∧ s.tasks[k]? = some (some task) ∧ task.label = n

/-- It is a turn of the computation of the promise. -/
def Computes (s : Session α) (m : Move α) (promise : Nat) : Prop :=
  ∃ k task, m = .turn k ∧ s.tasks[k]? = some (some task) ∧ task.job.owns? = some promise

/-- What a command comes to. One that names something that is not there does nothing. -/
inductive Performed (s : Session α) (number : Nat) : Command α → Session α → Prop where
  | nothing (command : Command α) : Performed s number command s
  | handles (command : Command α) (handles : List (Nat × Nat))
      (numbers : ∀ h ∈ handles, h.1 = number ∨ ∃ g ∈ s.handles, g.1 = h.1)
      (known : ∀ h ∈ handles, ∃ g ∈ s.handles, g.2 = h.2) :
      Performed s number command { s with handles := handles }
  | cancel (handle promise : Nat) : Performed s number (.cancel handle) (s.cancel promise)
  | spawn (stages : List Stage) (result : Option α) :
      Performed s number (.spawn stages result)
        ({ s with
          promises := s.promises ++ [({} : Promise α)]
          handles := s.handles ++ [(number,s.promises.length)] }.spawn number
            (.compute s.promises.length false stages result))
  | observe (command : Command α) (job : Job α) (promise : Nat)
      (observes : job.observes? = some promise) (known : ∃ g ∈ s.handles, g.2 = promise) :
      Performed s number command (s.observer number job)
  | abort (n : Nat) (known : n ∈ s.observers) : Performed s number (.abort n) (s.abort n)

variable {s t : Session α}

theorem mem_of_handle {handle promise : Nat} (known : s.handle? handle = some promise) :
    (handle,promise) ∈ s.handles := by
  obtain ⟨before,after,same,-⟩ := List.lookup_eq_some_iff.mp known
  simp [same]

theorem performed {number : Nat} {command : Command α} (fits : s.Fits (.perform number command)) :
    Performed s number command (s.move (.perform number command)) := by
  have known {handle promise : Nat} (there : s.handle? handle = some promise) :
      ∃ g ∈ s.handles, g.2 = promise := ⟨_,mem_of_handle there,rfl⟩
  cases done : s.perform? number command with
  | none =>
    rw [move,done]
    exact .nothing command
  | some t =>
    rw [move,done]
    cases command with
    | spawn stages result =>
      cases done
      exact .spawn stages result
    | clone handle =>
      obtain ⟨promise,there,rfl⟩ : ∃ promise, s.handle? handle = some promise ∧
        { s with handles := s.handles ++ [(number,promise)] } = t := by
        simpa [perform?,Option.bind_eq_some_iff] using done
      apply Performed.handles
      · intro h member
        rcases List.mem_append.mp member with old | new
        · exact .inr ⟨h,old,rfl⟩
        · rw [List.mem_singleton.mp new]
          exact .inl rfl
      · intro h member
        rcases List.mem_append.mp member with old | new
        · exact ⟨h,old,rfl⟩
        · rw [List.mem_singleton.mp new]
          exact known there
    | drop handle =>
      obtain ⟨_,-,rfl⟩ : ∃ promise, s.handle? handle = some promise ∧
        { s with handles := s.handles.filter fun h => h.1 ≠ handle } = t := by
          simpa [perform?,Option.bind_eq_some_iff] using done
      apply Performed.handles
      · exact fun h member => .inr ⟨h,(List.mem_filter.mp member).1,rfl⟩
      · exact fun h member => ⟨h,(List.mem_filter.mp member).1,rfl⟩
    | cancel handle =>
      obtain ⟨promise,-,rfl⟩ : ∃ promise, s.handle? handle = some promise ∧ s.cancel promise = t := by
        simpa [perform?,Option.bind_eq_some_iff] using done
      exact .cancel handle promise
    | outcome handle =>
      obtain ⟨promise,there,rfl⟩ : ∃ promise, s.handle? handle = some promise ∧
        s.observer number (.outcome promise) = t := by
        simpa [perform?,Option.bind_eq_some_iff] using done
      exact .observe _ _ promise rfl (known there)
    | continuation handle cancels crashes =>
      obtain ⟨promise,there,rfl⟩ : ∃ promise, s.handle? handle = some promise ∧
        s.observer number (.continuation promise (s.sequel cancels crashes)) = t := by
          simpa [perform?,Option.bind_eq_some_iff] using done
      exact .observe _ _ promise rfl (known there)
    | abort n =>
      obtain ⟨there,rfl⟩ : n ∈ s.observers ∧ s.abort n = t := by
        simpa [perform?,Option.bind_eq_some_iff] using done
      exact .abort n there
    | advance ms => exact absurd rfl (fits.2 ms)

theorem abort_cases (s : Session α) (n : Nat) :
    s.abort n = s ∨ ∃ k task, s.tasks[k]? = some (some task) ∧ task.label = n ∧
      s.abort n = { s with
        tasks := s.tasks.set k (some { task with aborted := true })
        schedule := s.schedule.wake k } := by
  unfold abort
  cases search : s.tasks.findIdx? fun t => t.any fun t => t.label = n with
  | none => exact .inl rfl
  | some k =>
    right
    obtain ⟨inside,match_,-⟩ := List.findIdx?_eq_some_iff_getElem.mp search
    cases found : s.tasks[k] with
    | none => simp [found] at match_
    | some task =>
      have there : s.tasks[k]? = some (some task) := by simp [inside,found]
      refine ⟨k,task,there,by simpa [found] using match_,?_⟩
      have : Inhabited (Option (Task α)) := ⟨none⟩
      simp only [List.modify_eq_set,there]
      rfl

/-! What everyone else sees of a move. -/

theorem apart_of_same {mine speaks delivers : Nat → Prop}
    (tasks : ∀ k x, ¬ mine k → s.tasks[k]? = some x → t.tasks[k]? = some x)
    (heard : ∀ n, ¬ speaks n → t.heard n = s.heard n)
    (ready : ∀ k, ¬ mine k → k ∈ s.schedule.ready → k ∈ t.schedule.ready)
    (observers : ∀ n ∈ s.observers, n ∈ t.observers) (promises : t.promises = s.promises) :
    Apart mine speaks delivers s t where
  tasks := tasks
  heard := heard
  ready := ready
  told k p other h := by
    rcases h with h | waits
    · exact .inl (ready k other h)
    · right
      rwa [promises]
  observers := observers
  promise i p there := ⟨p,by rwa [promises],fun h => h,fun _ => ⟨rfl,rfl⟩⟩

theorem apart_refl {mine speaks delivers : Nat → Prop} : Apart mine speaks delivers s s :=
  apart_of_same (fun _ _ _ h => h) (fun _ _ => rfl) (fun _ _ h => h) (fun _ h => h) rfl

theorem LeavesRest.apart {mine speaks delivers : Nat → Prop} {id label : Nat} {own : Option Nat}
    (leaves : LeavesRest id label own s t) (turns : mine id) (reports : speaks label)
    (owns : ∀ p, own = some p → delivers p) : Apart mine speaks delivers s t where
  tasks k x other there := by
    rw [leaves.tasks k fun same => other (same ▸ turns)]
    exact there
  heard n other := leaves.heard n fun same => other (same ▸ reports)
  ready k other := leaves.ready k fun same => other (same ▸ turns)
  told k p other := leaves.told k p fun same => other (same ▸ turns)
  observers n member := by rwa [leaves.observers]
  promise i p there := by
    obtain ⟨q,found,stays,kept⟩ := leaves.promise i p there
    exact ⟨q,found,stays,fun foreign => kept fun same => foreign (owns i same)⟩

theorem getElem?_push {β : Type} {items : List β} {i : Nat} {x y : β} (there : items[i]? = some x) :
    (items ++ [y])[i]? = some x := by
  rw [List.getElem?_append_left (List.getElem?_eq_some_iff.mp there).1]
  exact there

theorem apart_cancel {mine speaks delivers : Nat → Prop} (promise : Nat) :
    Apart mine speaks delivers s (s.cancel promise) := by
  have leaves (id : Nat) : LeavesRest id 0 none s (s.cancel promise) := leavesRest_cancel promise
  refine ⟨?_,fun n _ => update_heard promise Promise.cancel n,?_,?_,?_,?_⟩
  · intro k x _ there
    rwa [cancel_tasks]
  · exact fun k _ => (leaves (k + 1)).ready k (Nat.succ_ne_self k).symm
  · exact fun k p _ => (leaves (k + 1)).told k p (Nat.succ_ne_self k).symm
  · intro n member
    rwa [(leaves 0).observers]
  · intro i p there
    obtain ⟨q,found,stays,kept⟩ := (leaves 0).promise i p there
    exact ⟨q,found,stays,fun _ => kept nofun⟩

theorem performed_apart {number : Nat} {command : Command α} {speaks delivers : Nat → Prop}
    (done : Performed s number command t) :
    Apart (s.Mine (.perform number command)) speaks delivers s t := by
  cases done with
  | nothing => exact apart_refl
  | handles => exact apart_of_same (fun _ _ _ h => h) (fun _ _ => rfl) (fun _ _ h => h) (fun _ h => h) rfl
  | cancel handle promise => exact apart_cancel promise
  | spawn stages result =>
    refine ⟨fun k x _ there => getElem?_push there,fun _ _ => rfl,?_,?_,fun _ h => h,?_⟩
    · intro k _ h
      simp [spawn,h]
    · rintro k i - (h | ⟨p,there,waits⟩)
      · exact .inl (by simp [spawn,h])
      · exact .inr ⟨p,getElem?_push there,waits⟩
    · exact fun i p there => ⟨p,getElem?_push there,fun h => h,fun _ => ⟨rfl,rfl⟩⟩
  | observe command job promise observes known =>
    apply apart_of_same
    · exact fun k x _ there => getElem?_push there
    · exact fun _ _ => rfl
    · intro k _ h
      simp [observer,spawn,h]
    · intro n h
      simp [observer,spawn,h]
    · rfl
  | abort n known =>
    rcases abort_cases s n with same | ⟨id,task,there,rfl,made⟩
    · rw [same]
      exact apart_refl
    · rw [made]
      apply apart_of_same
      · intro k x other found
        have apart : id ≠ k := by
          rintro rfl
          exact other (.inr ⟨number,task,rfl,there⟩)
        rw [← found]
        exact List.getElem?_set_ne apart
      · exact fun _ _ => rfl
      · intro k _ h
        simp [h]
      · exact fun _ h => h
      · rfl

theorem move_apart {m : Move α} (fits : s.Fits m) :
    Apart (s.Mine m) (s.Speaks m) (s.Computes m) s (s.move m) := by
  cases m with
  | perform number command => exact performed_apart (performed fits)
  | turn id =>
    rcases turn_idle s id with ⟨task,there⟩ | ⟨-,idle⟩
    · apply (turn_leavesRest there).apart
      · exact .inl rfl
      · exact ⟨id,task,rfl,there,rfl⟩
      · exact fun p owns => ⟨id,task,rfl,there,owns⟩
    · have same : s.move (.turn id) = s.taken id := idle
      rw [same]
      apply apart_of_same
      · exact fun _ _ _ h => h
      · exact fun _ _ => rfl
      · intro k other h
        have apart : k ≠ id := by
          rintro rfl
          exact other (.inl rfl)
        exact (List.mem_erase_of_ne apart).mpr h
      · exact fun _ h => h
      · rfl
  | arrive now =>
    apply apart_of_same
    · exact fun _ _ _ h => h
    · exact fun _ _ => rfl
    · exact fun _ _ h => Schedule.mem_arrive h
    · exact fun _ h => h
    · rfl

/-! The tasks after a move: those before, perhaps further on, and one that the move started. -/

theorem turn_remains {id label promise : Nat} {sleeping aborted : Bool} {stages : List Stage}
    {result : Option α}
    (there : s.tasks[id]? = some (some ⟨label,.compute promise sleeping stages result,aborted⟩)) :
    (s.turn id).tasks[id]? = some none ∨
      ∃ rest, (s.turn id).tasks[id]? = some (some ⟨label,.compute promise true rest result,false⟩) := by
  have gone : ((s.taken id).remove id).tasks[id]? = some none := remove_here (s := s.taken id) there
  cases aborted with
  | true =>
    rw [turn_aborted there rfl]
    exact .inl gone
  | false =>
    cases found : s.promises[promise]? with
    | none =>
      rw [turn_orphaned there found]
      exact .inl gone
    | some p =>
      rcases turn_computing there found with ⟨-,-,ends,-⟩ | ⟨-,⟨ends,-⟩ | ⟨rest,q,goes_on,-⟩⟩
      · exact .inl ends
      · exact .inl ends
      · exact .inr ⟨rest,goes_on⟩

theorem getElem?_pushed {β : Type} {items : List β} {i : Nat} {x y : β}
    (there : (items ++ [y])[i]? = some x) : items[i]? = some x ∨ i = items.length ∧ y = x := by
  rw [List.getElem?_append] at there
  split at there
  · exact .inl there
  next late =>
    rw [List.getElem?_singleton] at there
    split at there
    · exact .inr ⟨by omega,Option.some.inj there⟩
    · cases there

theorem abort_stems {n k : Nat} {task : Task α} (there : (s.abort n).tasks[k]? = some (some task)) :
    ∃ before, s.tasks[k]? = some (some before) ∧ task.label = before.label ∧ task.job = before.job := by
  rcases abort_cases s n with same | ⟨id,before,here,-,made⟩
  · rw [same] at there
    exact ⟨task,there,rfl,rfl⟩
  · rw [made] at there
    by_cases apart : id = k
    · subst apart
      have inside : id < s.tasks.length := (List.getElem?_eq_some_iff.mp here).1
      have same : some { before with aborted := true } = some task := by simpa [inside] using there
      cases same
      exact ⟨before,here,rfl,rfl⟩
    · have old : s.tasks[k]? = some (some task) := by simpa [List.getElem?_set_ne apart] using there
      exact ⟨task,old,rfl,rfl⟩

theorem performed_stems {number k : Nat} {command : Command α} {task : Task α}
    (done : Performed s number command t) (there : t.tasks[k]? = some (some task)) :
    (∃ before, s.tasks[k]? = some (some before) ∧ task.label = before.label ∧
      task.job.owns? = before.job.owns?) ∨
    k = s.tasks.length ∧ task.label = number ∧ ∀ p, task.job.owns? = some p → p = s.promises.length := by
  cases done with
  | nothing => exact .inl ⟨task,there,rfl,rfl⟩
  | handles => exact .inl ⟨task,there,rfl,rfl⟩
  | cancel handle promise =>
    rw [cancel_tasks] at there
    exact .inl ⟨task,there,rfl,rfl⟩
  | spawn stages result =>
    rcases getElem?_pushed there with old | ⟨last,new⟩
    · exact .inl ⟨task,old,rfl,rfl⟩
    · cases new
      refine .inr ⟨last,rfl,fun p owns => ?_⟩
      cases owns
      rfl
  | observe command job promise observes known =>
    rcases getElem?_pushed there with old | ⟨last,new⟩
    · exact .inl ⟨task,old,rfl,rfl⟩
    · cases new
      refine .inr ⟨last,rfl,fun p owns => ?_⟩
      cases job with
      | compute => cases observes
      | outcome => cases owns
      | continuation => cases owns
  | abort n known =>
    obtain ⟨before,here,label,job⟩ := abort_stems there
    exact .inl ⟨before,here,label,by rw [job]⟩

theorem turn_stems {id k : Nat} {task : Task α} (there : (s.turn id).tasks[k]? = some (some task)) :
    ∃ before, s.tasks[k]? = some (some before) ∧ task.label = before.label ∧
      task.job.owns? = before.job.owns? := by
  rcases turn_idle s id with ⟨before,here⟩ | ⟨-,idle⟩
  · by_cases apart : k = id
    · subst apart
      rcases before with ⟨label,job,aborted⟩
      refine ⟨_,here,?_⟩
      cases waits : job.observes? with
      | none =>
        cases job with
        | compute promise sleeping stages result =>
          rcases turn_remains here with gone | ⟨rest,goes_on⟩
          · simp [there] at gone
          · obtain rfl : task = _ := by simpa [there] using goes_on
            exact ⟨rfl,rfl⟩
        | outcome => cases waits
        | continuation => cases waits
      | some promise =>
        rcases turn_observes here waits with ⟨gone,-⟩ | ⟨-,-,stays⟩
        · simp [there] at gone
        · rw [stays] at there
          obtain rfl : task = _ := by
            have same : s.tasks[k]? = some (some task) := there
            simpa [here] using same.symm
          exact ⟨rfl,rfl⟩
    · have same := (turn_leavesRest here).tasks k apart
      exact ⟨task,same ▸ there,rfl,rfl⟩
  · rw [idle] at there
    exact ⟨task,there,rfl,rfl⟩

theorem stems {m : Move α} {k : Nat} {task : Task α} (fits : s.Fits m)
    (there : (s.move m).tasks[k]? = some (some task)) :
    (∃ before, s.tasks[k]? = some (some before) ∧ task.label = before.label ∧
      task.job.owns? = before.job.owns?) ∨
    k = s.tasks.length ∧ (∃ command, m = .perform task.label command) ∧
      ∀ p, task.job.owns? = some p → p = s.promises.length := by
  cases m with
  | perform number command =>
    rcases performed_stems (performed fits) there with old | ⟨last,rfl,owns⟩
    · exact .inl old
    · exact .inr ⟨last,⟨command,rfl⟩,owns⟩
  | turn id => exact .inl (turn_stems there)
  | arrive now => exact .inl ⟨task,there,rfl,rfl⟩

/-! The observers and the handles after a move. -/

theorem observers_after {m : Move α} {n : Nat} (fits : s.Fits m)
    (member : n ∈ (s.move m).observers) : n ∈ s.observers ∨ ∃ command, m = .perform n command := by
  cases m with
  | perform number command =>
    generalize after : s.move (.perform number command) = t at member
    have done := performed fits
    rw [after] at done
    cases done with
    | nothing => exact .inl member
    | handles => exact .inl member
    | cancel handle promise =>
      have leaves : LeavesRest 0 0 none s (s.cancel promise) := leavesRest_cancel promise
      rw [leaves.observers] at member
      exact .inl member
    | spawn => exact .inl member
    | observe command job =>
      rcases List.mem_append.mp member with old | new
      · exact .inl old
      · obtain rfl := List.mem_singleton.mp new
        exact .inr ⟨command,rfl⟩
    | abort n known =>
      rcases abort_cases s n with same | ⟨_,_,_,_,made⟩
      · rw [same] at member
        exact .inl member
      · rw [made] at member
        exact .inl member
  | turn id =>
    left
    rcases turn_idle s id with ⟨task,there⟩ | ⟨-,idle⟩
    · have same := (turn_leavesRest there).observers
      rw [← same]
      exact member
    · have same : s.move (.turn id) = s.taken id := idle
      rw [same] at member
      exact member
  | arrive now => exact .inl member

theorem handles_after {m : Move α} {h : Nat × Nat} (fits : s.Fits m)
    (member : h ∈ (s.move m).handles) :
    ((∃ g ∈ s.handles, g.1 = h.1) ∨ ∃ command, m = .perform h.1 command) ∧
      ((∃ g ∈ s.handles, g.2 = h.2) ∨ h.2 < (s.move m).promises.length) := by
  have old (stays : h ∈ s.handles) : ((∃ g ∈ s.handles, g.1 = h.1) ∨ ∃ command, m = .perform h.1 command) ∧
      ((∃ g ∈ s.handles, g.2 = h.2) ∨ h.2 < (s.move m).promises.length) :=
    ⟨.inl ⟨h,stays,rfl⟩,.inl ⟨h,stays,rfl⟩⟩
  cases m with
  | perform number command =>
    have done := performed fits
    generalize s.move (.perform number command) = t at member done old ⊢
    cases done with
    | nothing => exact old member
    | handles command hs numbers known =>
      refine ⟨?_,.inl (known h member)⟩
      rcases numbers h member with new | before
      · exact .inr ⟨command,by rw [new]⟩
      · exact .inl before
    | cancel handle promise =>
      have leaves : LeavesRest 0 0 none s (s.cancel promise) := leavesRest_cancel promise
      rw [leaves.handles] at member
      exact old member
    | spawn stages result =>
      rcases List.mem_append.mp member with stays | new
      · exact old stays
      · obtain rfl := List.mem_singleton.mp new
        exact ⟨.inr ⟨_,rfl⟩,.inr (by simp [spawn])⟩
    | observe => exact old member
    | abort n known =>
      rcases abort_cases s n with same | ⟨_,_,_,_,made⟩
      · rw [same] at member
        exact old member
      · rw [made] at member
        exact old member
  | turn id =>
    rcases turn_idle s id with ⟨task,there⟩ | ⟨-,idle⟩
    · have same := (turn_leavesRest there).handles
      exact old (same ▸ member)
    · have same : s.move (.turn id) = s.taken id := idle
      rw [same] at member
      exact old member
  | arrive now => exact old member

theorem Unused.move {m : Move α} {n : Nat} (unused : s.Unused n) (fits : s.Fits m)
    (other : ∀ command, m ≠ .perform n command) : (s.move m).Unused n where
  handles h member same := by
    subst same
    rcases (handles_after fits member).1 with ⟨g,old,same⟩ | ⟨command,made⟩
    · exact unused.handles g old same
    · exact other command made
  observers member := by
    rcases observers_after fits member with old | ⟨command,made⟩
    · exact unused.observers old
    · exact other command made
  tasks id task there same := by
    rcases stems fits there with ⟨before,here,label,-⟩ | ⟨-,⟨command,made⟩,-⟩
    · exact unused.tasks id before here (label ▸ same)
    · exact other command (same ▸ made)
  heard := by
    rw [(move_apart fits).heard n]
    · exact unused.heard
    · rintro ⟨k,task,-,there,same⟩
      exact unused.tasks k task there same

theorem unused_start (n : Nat) : ({} : Session α).Unused n := ⟨by simp,by simp,by simp,rfl⟩

/-! A script is told by such moves, one number after the other. -/

/-- The session came about from the other one, and the numbers from this one on are free. -/
def LeadsUnused (s : Session α) (number : Nat) (t : Session α) : Prop :=
  Leads s t ∧ ∀ k, number ≤ k → t.Unused k

theorem LeadsUnused.internal {number : Nat} {u : Session α} {m : Move α} (onward : LeadsUnused s number u)
    (inside : ∀ n command, m ≠ .perform n command) : LeadsUnused s number (u.move m) := by
  have fits : u.Fits m := by
    cases m with
    | perform n command => exact absurd rfl (inside n command)
    | turn id => trivial
    | arrive now => trivial
  exact ⟨.move m onward.1 fits trivial,fun k late => (onward.2 k late).move fits (inside k)⟩

theorem turn_none (idle : s.schedule.ready = []) : Scheduled.turn s = s := by
  simp only [Scheduled.turn,Scheduled.schedule,Schedule.next?,idle]

theorem turn_first {id : Nat} {rest : List Nat} (queue : s.schedule.ready = id :: rest) :
    Scheduled.turn s = s.turn id := by
  simp only [Scheduled.turn,Scheduled.schedule,Schedule.next?,queue,Session.turn,taken,List.erase_cons_head]
  rfl

theorem LeadsUnused.turn {number : Nat} {u : Session α} (onward : LeadsUnused s number u) :
    LeadsUnused s number (Scheduled.turn u) := by
  cases queue : u.schedule.ready with
  | nil => rwa [turn_none queue]
  | cons task rest =>
    have same : Scheduled.turn u = u.move (.turn task) := turn_first queue
    rw [same]
    exact onward.internal fun _ _ same => by cases same

theorem LeadsUnused.advance {number : Nat} {u : Session α} (onward : LeadsUnused s number u) (ms : Nat) :
    LeadsUnused s number (Scheduled.advance ms u) := by
  apply Scheduled.advance_keeps (fun _ next => next.turn)
  · intro now t next
    have arrived : LeadsUnused s number (t.move (.arrive now)) := next.internal fun _ _ same => by cases same
    exact arrived
  · exact onward

theorem LeadsUnused.settles {number : Nat} {u : Session α} (onward : LeadsUnused s number u) (settles : Bool) :
    LeadsUnused s number (if settles then Scheduled.drain u else u) := by
  split
  · exact Scheduled.drain_keeps (fun _ next => next.turn) onward
  · exact onward

theorem step_leads (s : Session α) (number : Nat) (st : Step (Command α))
    (free : ∀ k, number ≤ k → s.Unused k) : LeadsUnused s (number + 1) (s.step number st).2 := by
  have start : LeadsUnused s (number + 1) s := ⟨.refl,fun k late => free k (by omega)⟩
  have performed : LeadsUnused s (number + 1) (s.move (.perform number st.command)) := by
    by_cases waits : ∃ ms, st.command = .advance ms
    · obtain ⟨ms,same⟩ := waits
      rw [same]
      exact start.advance ms
    · have fits : s.Fits (.perform number st.command) :=
        ⟨free number (Nat.le_refl number),fun ms same => waits ⟨ms,same⟩⟩
      refine ⟨.move _ .refl fits trivial,fun k late => (free k (by omega)).move fits ?_⟩
      intro command same
      injection same
      omega
  exact performed.settles st.settles

/-- The session that a script leaves. -/
def after (s : Session α) (number : Nat) : List (Step (Command α)) → Session α
  | [] => s
  | st :: rest => (s.step number st).2.after (number + 1) rest

theorem after_onward (steps : List (Step (Command α))) {number : Nat} {u : Session α}
    (onward : LeadsUnused s number u) : LeadsUnused s (number + steps.length) (u.after number steps) := by
  induction steps generalizing number u with
  | nil => exact onward
  | cons st rest ih =>
    obtain ⟨leads,free⟩ := step_leads u number st onward.2
    have next := ih ⟨onward.1.trans leads,free⟩
    rwa [Nat.add_assoc,Nat.add_comm 1] at next

theorem after_append (steps rest : List (Step (Command α))) (number : Nat) (u : Session α) :
    u.after number (steps ++ rest) = (u.after number steps).after (number + steps.length) rest := by
  induction steps generalizing number u with
  | nil => rfl
  | cons st steps ih =>
    rw [List.cons_append,after,ih,after,List.length_cons,Nat.add_assoc,Nat.add_comm 1]

/-- What a script leaves is a session that may come about, and the numbers past its end are free. -/
theorem after_begun (steps : List (Step (Command α))) :
    LeadsUnused {} steps.length (({} : Session α).after 0 steps) := by
  have start : LeadsUnused ({} : Session α) 0 {} := ⟨.refl,fun k _ => unused_start k⟩
  have next := after_onward steps start
  rwa [Nat.zero_add] at next

end EditorLink.Promise.Session
