import EditorLink.Proofs.Promise.WellFormed

/-! The way of one observer: it waits, and at most one turn ends it, with the answer of that moment. -/
namespace EditorLink.Promise.Session
variable {α : Type} {s t : Session α} {n promise : Nat} {job : Job α}

/-- Someone called for the observer under the number, and only allowed moves have been made since. -/
def Registered (allowed : Move α → Prop) (n : Nat) (job : Job α) (s : Session α) : Prop :=
  ∃ u command, Begun u ∧ u.Fits (.perform n command) ∧
    u.perform? n command = some (u.observer n job) ∧ Reaches allowed (u.observer n job) s

abbrev Called : Nat → Job α → Session α → Prop := Registered fun _ => True

/-- The observer is there and has not had its answer. -/
def ObserverWaits (s : Session α) (n : Nat) (job : Job α) (aborted : Bool) : Prop :=
  ∃ id : Nat, s.tasks[id]? = some (some ⟨n,job,aborted⟩)

/-- The observer has come to its end. -/
structure Ended (s : Session α) (n : Nat) (reports : List (Report α)) : Prop where
  number : n ∈ s.observers
  gone : ∀ (id : Nat) (task : Task α), s.tasks[id]? = some (some task) → task.label ≠ n
  heard : s.heard n = reports

theorem observes_free (observes : job.observes? = some promise) : job.owns? = none := by
  cases job with
  | compute => cases observes
  | outcome => rfl
  | continuation => rfl

theorem observes_mute (observes : job.observes? = some promise) : job.SilentSoFar := by
  cases job with
  | compute => cases observes
  | outcome => trivial
  | continuation => trivial

theorem Ended.move {m : Move α} {reports : List (Report α)} (ended : Ended s n reports)
    (fits : s.Fits m) : Ended (s.move m) n reports where
  number := (move_apart fits).observers n ended.number
  gone id task there same := by
    rcases stems fits there with ⟨before,here,label,-⟩ | ⟨-,⟨command,rfl⟩,-⟩
    · exact ended.gone id before here (label ▸ same)
    · exact fits.1.observers (same ▸ ended.number)
  heard := by
    rw [(move_apart fits).heard n,ended.heard]
    rintro ⟨id,task,-,there,same⟩
    exact ended.gone id task there same

theorem Ended.leads {reports : List (Report α)} (ended : Ended s n reports) (later : Leads s t) :
    Ended t n reports := by
  apply later.keeps (P := fun u => Ended u n reports) ended
  exact fun _ _ _ fits _ there => there.move fits

theorem ObserverWaits.heard {aborted : Bool} (waits : ObserverWaits s n job aborted) (wellFormed : WellFormed s)
    (observes : job.observes? = some promise) : s.heard n = [] := by
  obtain ⟨id,there⟩ := waits
  exact (wellFormed.fit id _ there).silent (observes_mute observes)

/-- A move leaves an observer waiting, unless it is the turn at which it has its answer. Only an abort
makes an aborted observer of it. -/
theorem ObserverWaits.move {m : Move α} {aborted : Bool} (waits : ObserverWaits s n job aborted)
    (wellFormed : WellFormed s)
    (fits : s.Fits m) (observes : job.observes? = some promise) :
    (∃ later, ObserverWaits (s.move m) n job later ∧
      (later = aborted ∨ ∃ number, m = .perform number (.abort n))) ∨
    ∃ answer, (aborted = true ∨ s.answer? promise = some answer) ∧
      Ended (s.move m) n (job.tells aborted answer) := by
  have mute := waits.heard wellFormed observes
  obtain ⟨id,there⟩ := waits
  have fit := wellFormed.fit id _ there
  have number : n ∈ s.observers := fit.observer.mpr (observes_free observes)
  by_cases mine : s.Mine m id
  · rcases mine with rfl | ⟨caller,task,rfl,here⟩
    · rcases turn_observes there observes with ⟨gone,answer,known,heard⟩ | ⟨-,-,stays⟩
      · refine .inr ⟨answer,known,(move_apart fits).observers n number,?_,?_⟩
        · intro k task after same
          rcases stems fits after with ⟨before,here,label,-⟩ | ⟨-,⟨command,made⟩,-⟩
          · obtain rfl := wellFormed.labels k id before _ here there (label ▸ same)
            have none_left : (s.turn k).tasks[k]? = some (some task) := after
            simp [gone] at none_left
          · cases made
        · have told : (s.turn id).heard n = job.tells aborted answer := by rw [heard,mute,List.nil_append]
          exact told
      · have same : s.move (.turn id) = s.turn id := rfl
        refine .inl ⟨aborted,⟨id,?_⟩,.inl rfl⟩
        rw [same,stays]
        exact there
    · obtain rfl : task = Task.mk n job aborted := by simpa [there] using here.symm
      have aborts : s.move (.perform caller (.abort n)) = s.abort n := by
        simp [Session.move,perform?,number]
      left
      rcases abort_cases s n with same | ⟨k,found,first,named,made⟩
      · refine ⟨aborted,⟨id,?_⟩,.inl rfl⟩
        rw [aborts,same]
        exact there
      · obtain rfl := wellFormed.labels k id found _ first there named
        obtain rfl : found = Task.mk n job aborted := by simpa [there] using first.symm
        have inside : k < s.tasks.length := (List.getElem?_eq_some_iff.mp there).1
        refine ⟨true,⟨k,?_⟩,.inr ⟨caller,rfl⟩⟩
        rw [aborts,made]
        simp [inside]
  · exact .inl ⟨aborted,⟨id,(move_apart fits).tasks id _ mine there⟩,.inl rfl⟩

theorem registered_waits {command : Command α} (begun : Begun s) (fits : s.Fits (.perform n command))
    (called : s.perform? n command = some (s.observer n job)) :
    Begun (s.observer n job) ∧ ObserverWaits (s.observer n job) n job false := by
  have made : s.move (.perform n command) = s.observer n job := by rw [Session.move,called]; rfl
  refine ⟨?_,s.tasks.length,by simp [observer,spawn]⟩
  rw [← made]
  exact .move _ begun fits trivial

theorem Registered.begun {allowed : Move α → Prop} (registered : Registered allowed n job s) :
    Begun s := by
  obtain ⟨u,command,begun,fits,called,later⟩ := registered
  exact (registered_waits begun fits called).1.leads later.leads

theorem Registered.stands {allowed : Move α → Prop} (registered : Registered allowed n job s)
    (observes : job.observes? = some promise) :
    (∃ aborted, ObserverWaits s n job aborted) ∨ ∃ reports, Ended s n reports := by
  obtain ⟨u,command,begun,fits,called,later⟩ := registered
  obtain ⟨begun',waits⟩ := registered_waits begun fits called
  apply later.keeps (P := fun v => (∃ aborted, ObserverWaits v n job aborted) ∨ ∃ reports, Ended v n reports)
    (.inl ⟨false,waits⟩)
  intro v m before fits _ holds
  rcases holds with ⟨aborted,waits⟩ | ⟨reports,ended⟩
  · have wellFormed := wellFormed_of_begun (begun'.leads before.leads)
    rcases waits.move wellFormed fits observes with ⟨next,still,-⟩ | ⟨answer,-,ended⟩
    · exact .inl ⟨next,still⟩
    · exact .inr ⟨_,ended⟩
  · exact .inr ⟨reports,ended.move fits⟩

theorem registered_of_call {allowed : Move α → Prop} {command : Command α} (begun : Begun s)
    (fits : s.Fits (.perform n command)) (called : s.perform? n command = some (s.observer n job))
    (later : Reaches allowed (s.move (.perform n command)) t) : Registered allowed n job t := by
  rw [Session.move,called] at later
  exact ⟨s,command,begun,fits,called,later⟩

/-- An observer that a script calls for is registered in what the script leaves. -/
theorem called_after (steps : List (Step (Command α))) (st : Step (Command α))
    (rest : List (Step (Command α))) (single : ∀ ms, st.command ≠ .advance ms)
    (called : (({} : Session α).after 0 steps).perform? steps.length st.command =
      some ((({} : Session α).after 0 steps).observer steps.length job)) :
    Called steps.length job (({} : Session α).after 0 (steps ++ st :: rest)) := by
  obtain ⟨begun,free⟩ := after_begun steps
  generalize before : ({} : Session α).after 0 steps = u at begun free called
  have fits : u.Fits (.perform steps.length st.command) := ⟨free _ (Nat.le_refl _),single⟩
  have start : LeadsUnused (u.move (.perform steps.length st.command)) (steps.length + 1)
      (u.move (.perform steps.length st.command)) := by
    refine ⟨.refl,fun k late => ?_⟩
    apply (free k (by omega)).move fits
    intro command same
    injection same
    omega
  apply registered_of_call begun fits called
  rw [after_append,before,Nat.zero_add]
  exact (after_onward rest (start.settles st.settles)).1

theorem Called.leads (called : Called n job s) (later : Leads s t) : Called n job t := by
  obtain ⟨u,command,begun,fits,made,reached⟩ := called
  exact ⟨u,command,begun,fits,made,reached.trans later⟩

end EditorLink.Promise.Session
