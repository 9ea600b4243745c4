import EditorLink.Proofs.Slots.History

/-! What a slot remembers against what a look-up would find. The two differ only while the widget that the slot
gave last lives on without being mounted under its id. -/
namespace EditorLink.Workbench

/-- What the slot gives its caller. -/
def given (i : Nat) (s : State) (e : Event) : Option Nat :=
  match (step s e).1 with
  | .resolved w => if e.slot? = some i then w else none
  | _ => none

/-- What the host answers when the slot asks it. -/
def handed (i : Nat) (id : String) (s : State) (e : Event) : Option Nat :=
  if e.slot? = some i ∧ s.lookups < (step s e).2.lookups then s.mounted.lookup id else none

/-- The widget that the slot gave last. -/
def lastGiven (i : Nat) (s : State) : List Event → Option Nat
  | [] => none
  | e :: rest => (lastGiven i (step s e).2 rest).or (given i s e)

/-- All that the host ever answered to the slot. -/
def allHanded (i : Nat) (id : String) (s : State) : List Event → List Nat
  | [] => []
  | e :: rest => (handed i id s e).toList ++ allHanded i id (step s e).2 rest

/-- The living widget that the slot remembers. -/
def remembered (s : State) (i : Nat) : Option Nat := (s.slots[i]?.bind Slot.cached).filter (alive s)

/-- The widget lives without being the one that is found. -/
def outlives (s : State) (found : Option Nat) (w : Nat) : Bool := alive s w && found != some w

/-- What a slot remembers after it gave `last`, the last of the widgets that the host handed to it. -/
structure SlotRemembers (i : Nat) (id : String) (last : Option Nat) (seen : List Nat) (s : State) : Prop where
  counted : Counted s
  calm : s.crashing = false
  known : ∀ w ∈ seen, w < s.made
  gave : ∀ w, last = some w → w ∈ seen
  slot : ∃ slot, s.slots[i]? = some slot ∧ slot.id = id ∧ slot.poisoned = false ∧
    slot.cached.filter (alive s) = last.filter (alive s) ∧ ∀ w, slot.cached = some w → w ∈ seen

variable {s t : State} {e : Event} {events rest : List Event} {i j w : Nat} {id : String} {required holds : Bool}
  {slot later : Slot} {last : Option Nat} {seen : List Nat} {r : Resolution}

theorem filter_alive {x y : Option Nat} (turnover : Turnover s t) (xs : ∀ w, x = some w → w < s.made)
    (ys : ∀ w, y = some w → w < s.made) (same : x.filter (alive s) = y.filter (alive s)) :
    x.filter (alive t) = y.filter (alive t) := by
  have twice {z : Option Nat} (zs : ∀ w, z = some w → w < s.made) :
      z.filter (alive t) = (z.filter (alive s)).filter (alive t) := by
    cases z with
    | none => rfl
    | some w =>
      rw [Option.filter_filter,Option.filter_some,Option.filter_some]
      cases living : alive t w with
      | true => rw [turnover.alive_back (zs w rfl) living]; rfl
      | false => rw [Bool.and_false]
  rw [twice xs,twice ys,same]

theorem SlotRemembers.other (remembers : SlotRemembers i id last seen s) (turnover : Turnover s t)
    (calm : t.crashing = false)
    (still : t.slots[i]? = s.slots[i]?) : SlotRemembers i id last seen t := by
  obtain ⟨slot,there,named,fine,same,kept⟩ := remembers.slot
  have known (w : Nat) (member : w ∈ seen) : w < t.made :=
    Nat.lt_of_lt_of_le (remembers.known w member) turnover.grows
  refine ⟨turnover.counted remembers.counted,calm,known,remembers.gave,slot,by rw [still,there],named,fine,?_,kept⟩
  exact filter_alive turnover (fun w cached => remembers.known w (kept w cached))
    (fun w gave => remembers.known w (remembers.gave w gave)) same

theorem given_call {t : State} (called : perform s (.resolve i required holds) = (answer id required r,t)) :
    given i s (.does (.resolve i required holds)) = r.widget? := by
  rw [given,step,called]
  cases r with
  | missing =>
    cases required with
    | true => rfl
    | false => exact if_pos rfl
  | remembered w => exact if_pos rfl
  | found w => exact if_pos rfl
  | crashed => rfl
  | poisoned => rfl

theorem handed_call {a : Answer} {held : List Nat}
    (called : perform s (.resolve i required holds) = (a,{ reslot s i later r.looked with held })) :
    handed i id s (.does (.resolve i required holds)) = if r.looked then s.mounted.lookup id else none := by
  rw [handed,step,called]
  cases r.looked <;> simp [reslot,Event.slot?]

theorem given_other (other : e.slot? ≠ some i) : given i s e = none := by
  rw [given]
  split
  · exact if_neg other
  · rfl

theorem handed_other (other : e.slot? ≠ some i) : handed i id s e = none := if_neg fun asked => other asked.1

theorem SlotRemembers.call (remembers : SlotRemembers i id last seen s) (required holds : Bool) :
    SlotRemembers i id ((given i s (.does (.resolve i required holds))).or last)
      (seen ++ (handed i id s (.does (.resolve i required holds))).toList)
      (perform s (.resolve i required holds)).2 := by
  obtain ⟨slot,there,rfl,fine,same,kept⟩ := remembers.slot
  obtain ⟨r,later,asked,calls⟩ := call_frame there
  obtain ⟨held,called⟩ := calls required holds
  have turnover : Turnover s (perform s (.resolve i required holds)).2 := step_turnover s (.does _)
  have living := alive_call s i required holds
  have put : (reslot s i later r.looked).slots[i]? = some later :=
    List.getElem?_set_self (List.getElem?_eq_some_iff.mp there).1
  have bound (w : Nat) (member : w ∈ seen) : w < (perform s (.resolve i required holds)).2.made :=
    Nat.lt_of_lt_of_le (remembers.known w member) turnover.grows
  rw [given_call called,handed_call called]
  have calm : (perform s (.resolve i required holds)).2.crashing = false := by rw [called]; exact remembers.calm
  have counted := turnover.counted remembers.counted
  have set : (perform s (.resolve i required holds)).2.slots[i]? = some later := by rw [called]; exact put
  cases asked with
  | poisoned shut => rw [fine] at shut; cases shut
  | crashed _ gone fails => rw [lookup,remembers.calm] at fails; cases fails
  | remembered w _ known =>
    have cached := (Option.filter_eq_some_iff.mp known).1
    refine ⟨counted,calm,?_,?_,slot,set,rfl,fine,by rw [cached]; rfl,?_⟩
    · simpa [Resolution.looked] using bound
    · rintro v ⟨⟩
      exact List.mem_append_left _ (kept w cached)
    · exact fun v is => List.mem_append_left _ (kept v is)
  | found w _ gone told =>
    have found := (lookup_answer told).2
    have new : w < (perform s (.resolve i required holds)).2.made :=
      counted w (by rw [living]; exact alive_of_lookup found)
    refine ⟨counted,calm,?_,?_,_,set,rfl,fine,rfl,?_⟩
    · simp only [Resolution.looked,if_true,found,Option.toList_some,List.mem_append,List.mem_singleton]
      rintro v (old | rfl)
      · exact bound v old
      · exact new
    · rintro v ⟨⟩
      simp [Resolution.looked,found]
    · rintro v ⟨⟩
      simp [Resolution.looked,found]
  | missing _ gone told =>
    have nothing := (lookup_answer told).2
    refine ⟨counted,calm,?_,?_,_,set,rfl,fine,?_,fun _ is => by cases is⟩
    · simpa [Resolution.looked,nothing] using bound
    · exact fun v gave => List.mem_append_left _ (remembers.gave v gave)
    · rw [living]
      exact (same.symm.trans gone).symm

/-- One event. -/
theorem SlotRemembers.step (remembers : SlotRemembers i id last seen s) (calm : e ≠ .does (.crash true)) :
    SlotRemembers i id ((given i s e).or last) (seen ++ (handed i id s e).toList) (step s e).2 := by
  by_cases called : e.slot? = some i
  · obtain ⟨required,holds,rfl⟩ := slot_iff.mp called
    exact remembers.call required holds
  · rw [given_other called,handed_other called,Option.none_or,Option.toList_none,List.append_nil]
    refine remembers.other (step_turnover s e) ?_ (step_other called)
    rcases step_crashing s e with same | ⟨on,rfl,same⟩
    · rw [same,remembers.calm]
    · cases on with
      | true => exact absurd rfl calm
      | false => exact same

theorem SlotRemembers.after (remembers : SlotRemembers i id last seen s)
    (calm : ∀ e ∈ events, e ≠ .does (.crash true)) :
    SlotRemembers i id ((lastGiven i s events).or last) (seen ++ allHanded i id s events) (after s events) := by
  induction events generalizing s last seen with
  | nil =>
    rw [allHanded,List.append_nil]
    exact remembers
  | cons e rest ih =>
    have next := ih (remembers.step (calm e List.mem_cons_self)) fun e later => calm e (List.mem_cons_of_mem _ later)
    rwa [List.append_assoc,← Option.or_assoc] at next

theorem slotRemembers_start {ids : List String} (there : ids[i]? = some id) :
    SlotRemembers i id none [] (start ids) := by
  refine ⟨nofun,rfl,nofun,nofun,{ id },?_,rfl,rfl,rfl,nofun⟩
  rw [start,List.getElem?_map,there]
  rfl

theorem slotRemembers_of_history {ids : List String} (there : ids[i]? = some id)
    (calm : ∀ e ∈ events, e ≠ .does (.crash true)) :
    SlotRemembers i id (lastGiven i (start ids) events) (allHanded i id (start ids) events)
      (Workbench.after (start ids) events) := by
  have remembers := (slotRemembers_start there).after calm
  rwa [Option.or_none,List.nil_append] at remembers

theorem allHanded_append (s : State) (events rest : List Event) :
    allHanded i id s (events ++ rest) = allHanded i id s events ++ allHanded i id (Workbench.after s events) rest := by
  induction events generalizing s with
  | nil => rfl
  | cons e events ih => rw [List.cons_append,allHanded,ih,allHanded,List.append_assoc]; rfl

theorem or_outliving {x found : Option Nat} (known : x.filter (alive s) = some w) :
    (x.filter (outlives s found)).or found = some w := by
  obtain ⟨rfl,lives⟩ := Option.filter_eq_some_iff.mp known
  rw [Option.filter_some]
  by_cases same : found = some w
  · rw [same]
    split <;> rfl
  · rw [if_pos (by simp [outlives,lives,same])]
    rfl

theorem none_outlives {x found : Option Nat} (gone : x.filter (alive s) = none) :
    (x.filter (outlives s found)).or found = found := by
  have none : x.filter (outlives s found) = none := by
    rw [Option.filter_eq_none_iff] at gone ⊢
    intro w is lives
    exact gone w is (Bool.and_eq_true_iff.mp lives).1
  rw [none,Option.none_or]

/-- What a slot that remembers the widget it gave last answers while the host does not crash. -/
theorem resolution_of_last (calm : s.crashing = false) (fine : slot.poisoned = false)
    (same : slot.cached.filter (alive s) = last.filter (alive s))
    (asked : slot.Asked (alive s) (lookup s id) r later) :
    r.widget? = (last.filter (outlives s (s.mounted.lookup id))).or (s.mounted.lookup id) ∧
      (r.looked = true ↔ last.filter (alive s) = none) ∧
      ∀ required, answer id required r = match r.widget? with
        | some w => .resolved (some w)
        | none => if required then .failed (.editorUnavailable id) else .resolved none := by
  cases asked with
  | poisoned shut => rw [fine] at shut; cases shut
  | crashed _ gone fails => rw [lookup,calm] at fails; cases fails
  | remembered w _ known =>
    rw [same] at known
    exact ⟨(or_outliving known).symm,by simp [Resolution.looked,known],fun required => rfl⟩
  | found w _ gone told =>
    rw [same] at gone
    rw [none_outlives gone,(lookup_answer told).2]
    exact ⟨rfl,by simp [Resolution.looked,gone],fun required => rfl⟩
  | missing _ gone told =>
    rw [same] at gone
    rw [none_outlives gone,(lookup_answer told).2]
    exact ⟨rfl,by simp [Resolution.looked,gone],fun required => rfl⟩

/-- What a slot gives is alive and was found by this slot. It is what the host would answer, unless the widget that
the slot gave last outlives its mounting. The host is asked just when no living widget is remembered, and the slot
remembers the one it gave last. -/
theorem slot_agrees_with_lookup (ids : List String) (events : List Event)
    (calm : ∀ e ∈ events, e ≠ .does (.crash true)) (there : ids[i]? = some id) (holds : Bool) :
    let s := after (start ids) events
    let call (required : Bool) := Event.does (.resolve i required holds)
    ∃ w found, lookup s id = .answer found ∧
      (step s (call false)).1 = .resolved w ∧
      (∀ v, w = some v → alive s v ∧ v ∈ allHanded i id (start ids) (events ++ [call false])) ∧
      w = ((lastGiven i (start ids) events).filter (outlives s found)).or found ∧
      remembered s i = (lastGiven i (start ids) events).filter (alive s) ∧
      (∀ required, (step s (call required)).2.lookups = s.lookups + if remembered s i = none then 1 else 0) ∧
      (step s (call true)).1 = match w with
        | some w => .resolved (some w)
        | none => .failed (.editorUnavailable id) := by
  intro s call
  have remembers := slotRemembers_of_history there calm
  obtain ⟨slot,put,named,fine,same,kept⟩ := remembers.slot
  obtain ⟨r,later,asked,calls⟩ := call_frame put
  rw [named] at asked calls
  obtain ⟨gives,looked,answers⟩ := resolution_of_last remembers.calm fine same asked
  have recalled : remembered s i = (lastGiven i (start ids) events).filter (alive s) := by
    rw [remembered,put]
    exact same
  have ran (required : Bool) : (step s (call required)).1 = answer id required r ∧
      (step s (call required)).2.lookups = s.lookups + r.looked.toNat := by
    obtain ⟨held,called⟩ := calls required holds
    rw [step,called]
    exact ⟨rfl,by cases r.looked <;> rfl⟩
  have told : lookup s id = .answer (s.mounted.lookup id) := by rw [lookup,remembers.calm]; rfl
  refine ⟨r.widget?,_,told,?_,fun v widget => ⟨alive_of_given asked widget,?_⟩,gives,recalled,fun required => ?_,?_⟩
  · rw [(ran false).1,answers]
    cases r.widget? <;> rfl
  · obtain ⟨held,called⟩ := calls false holds
    have gave : given i s (call false) = some v := (given_call called).trans widget
    rw [allHanded_append,allHanded,allHanded,List.append_nil]
    exact (remembers.call false holds).gave v (by rw [gave]; rfl)
  · rw [(ran required).2,recalled]
    cases looks : r.looked with
    | true => rw [if_pos (looked.mp looks)]; rfl
    | false => rw [if_neg fun gone => by simp [looked.mpr gone] at looks]; rfl
  · rw [(ran true).1,answers]
    rfl

/-- A held widget is given again though another one has taken its place in the host. -/
theorem held_widget_is_given_again :
    let s := after (start ["editor"]) [.does (.mount "editor"),.does (.resolve 0 true true),.does (.mount "editor")]
    lookup s "editor" = .answer (some 1) ∧ (step s (.does (.resolve 0 false false))).1 = .resolved (some 0) := by
  intro s
  have there : ["editor"][0]? = some "editor" := rfl
  obtain ⟨w,found,told,gives,-,is,-⟩ := slot_agrees_with_lookup ["editor"]
    [.does (.mount "editor"),.does (.resolve 0 true true),.does (.mount "editor")] (by simp) there false
  have mounted : lookup s "editor" = .answer (some 1) := rfl
  obtain rfl : some 1 = found := Lookup.answer.inj (mounted.symm.trans told)
  exact ⟨told,gives.trans (congrArg Answer.resolved (is.trans rfl))⟩

end EditorLink.Workbench
