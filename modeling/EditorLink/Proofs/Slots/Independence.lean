import EditorLink.Proofs.Slots.Agreement

/-! Slots over one host do not notice each other and keep nothing alive. A host that crashes shuts only the slot
that asked it. -/
namespace EditorLink.Workbench

/-- The host crashes while it is asked for the slot. -/
def crashes (i : Nat) (s : State) (e : Event) : Bool :=
  e.slot? = some i ∧ s.crashing ∧ s.lookups < (step s e).2.lookups

def everCrashed (i : Nat) (s : State) : List Event → Bool
  | [] => false
  | e :: rest => crashes i s e || everCrashed i (step s e).2 rest

/-- What the callers of a slot are answered, call by call. -/
def answersOf (k : Nat) (s : State) : List Event → List Answer
  | [] => []
  | e :: rest =>
    if e.slot? = some k then (step s e).1 :: answersOf k (step s e).2 rest else answersOf k (step s e).2 rest

/-- Some calls on the slot are left out. Whoever held what such a call gave holds it all the same. -/
inductive Thinned (i : Nat) : State → List Event → List Event → Prop
  | done {s} : Thinned i s [] []
  | same {s events fewer} (e : Event) (loose : ∀ required, e ≠ .does (.resolve i required true))
      (rest : Thinned i (step s e).2 events fewer) : Thinned i s (e :: events) (e :: fewer)
  | out {s events fewer} (required : Bool)
      (rest : Thinned i (step s (.does (.resolve i required false))).2 events fewer) :
      Thinned i s (.does (.resolve i required false) :: events) fewer
  | kept {s events fewer} (required : Bool)
      (rest : Thinned i (step s (.does (.resolve i required true))).2 events fewer) :
      Thinned i s (.does (.resolve i required true) :: events)
        ((given i s (.does (.resolve i required true))).toList.map .keep ++ fewer)

/-- The same but for one slot and how often the host was asked. -/
structure SameButSlot (i : Nat) (s t : State) : Prop where
  slots : ∀ k, k ≠ i → t.slots[k]? = s.slots[k]?
  mounted : t.mounted = s.mounted
  held : t.held = s.held
  made : t.made = s.made
  crashing : t.crashing = s.crashing

/-- What the crashes of a slot have made of it. One that is shut remembers no living widget. -/
structure Shut (i : Nat) (crashed : Bool) (s : State) : Prop where
  counted : Counted s
  slot : ∃ slot, s.slots[i]? = some slot ∧ slot.poisoned = crashed ∧ (∀ w, slot.cached = some w → w < s.made) ∧
    (crashed = true → slot.cached.filter (alive s) = none)

variable {s t : State} {e : Event} {events fewer : List Event} {i k w : Nat} {id : String} {required holds : Bool}
  {slot later : Slot} {r : Resolution} {crashed : Bool}

namespace SameButSlot

theorem alive (alike : SameButSlot i s t) : alive t = alive s := alive_congr alike.mounted alike.held

theorem living (alike : SameButSlot i s t) : living t = living s := by
  rw [Workbench.living,Workbench.living,alike.made,alike.alive]

theorem lookup (alike : SameButSlot i s t) (id : String) : lookup t id = lookup s id := by
  rw [Workbench.lookup,Workbench.lookup,alike.crashing,alike.mounted]

theorem hold (alike : SameButSlot i s t) (w : Option Nat) : SameButSlot i (hold s w) (hold t w) := by
  cases w with
  | none => exact alike
  | some w =>
    rw [Workbench.hold,Workbench.hold,alike.held]
    split
    · exact alike
    · exact ⟨alike.slots,alike.mounted,rfl,alike.made,alike.crashing⟩

theorem reslot (alike : SameButSlot i s t) (k : Nat) (later : Slot) (looked : Bool) :
    SameButSlot i (reslot s k later looked) (reslot t k later looked) := by
  refine ⟨fun j other => ?_,alike.mounted,alike.held,alike.made,alike.crashing⟩
  rw [Workbench.reslot,Workbench.reslot,List.getElem?_set',List.getElem?_set',alike.slots j other]

theorem refl (i : Nat) (s : State) : SameButSlot i s s := ⟨fun _ _ => rfl,rfl,rfl,rfl,rfl⟩

theorem trans {u : State} (first : SameButSlot i s t) (second : SameButSlot i t u) : SameButSlot i s u where
  slots := fun k other => (second.slots k other).trans (first.slots k other)
  mounted := second.mounted.trans first.mounted
  held := second.held.trans first.held
  made := second.made.trans first.made
  crashing := second.crashing.trans first.crashing

theorem symm (alike : SameButSlot i s t) : SameButSlot i t s where
  slots := fun k other => (alike.slots k other).symm
  mounted := alike.mounted.symm
  held := alike.held.symm
  made := alike.made.symm
  crashing := alike.crashing.symm

/-- A call on another slot is answered the same. -/
theorem call (alike : SameButSlot i s t) (other : k ≠ i) (required holds : Bool) :
    (perform t (.resolve k required holds)).1 = (perform s (.resolve k required holds)).1 ∧
      SameButSlot i (perform s (.resolve k required holds)).2 (perform t (.resolve k required holds)).2 := by
  rw [perform,perform,resolve,resolve,alike.slots k other]
  cases there : s.slots[k]? with
  | none => exact ⟨rfl,alike⟩
  | some slot =>
    dsimp only
    rw [alike.alive,alike.lookup]
    have put := alike.reslot k (slot.tryResolve (Workbench.alive s) (Workbench.lookup s slot.id)).2
      (slot.tryResolve (Workbench.alive s) (Workbench.lookup s slot.id)).1.looked
    cases holds with
    | false => exact ⟨rfl,put⟩
    | true => exact ⟨rfl,put.hold _⟩

/-- What is not a call on the slot itself comes to the same. -/
theorem step (alike : SameButSlot i s t) (other : e.slot? ≠ some i) :
    (e.slot?.isSome → (step t e).1 = (step s e).1) ∧ SameButSlot i (step s e).2 (step t e).2 := by
  cases e with
  | does c =>
    cases c with
    | mount id =>
      rw [Workbench.step,Workbench.step,perform,perform,alike.mounted,alike.made]
      exact ⟨(fun call => by cases call),alike.slots,rfl,alike.held,rfl,alike.crashing⟩
    | unmount id =>
      rw [Workbench.step,Workbench.step,perform,perform,alike.mounted]
      exact ⟨(fun call => by cases call),alike.slots,rfl,alike.held,alike.made,alike.crashing⟩
    | resolve k required holds =>
      have apart : k ≠ i := fun same => other (by rw [same]; rfl)
      exact ⟨fun _ => (alike.call apart required holds).1,(alike.call apart required holds).2⟩
    | release w =>
      rw [Workbench.step,Workbench.step,perform,perform,alike.held]
      exact ⟨(fun call => by cases call),alike.slots,alike.mounted,rfl,alike.made,alike.crashing⟩
    | crash on => exact ⟨(fun call => by cases call),alike.slots,alike.mounted,alike.held,alike.made,rfl⟩
    | id k => exact ⟨(fun call => by cases call),alike⟩
    | debug k => exact ⟨(fun call => by cases call),alike⟩
  | keep w =>
    refine ⟨(fun call => by cases call),?_⟩
    rw [Workbench.step,Workbench.step,alike.alive]
    split
    · exact alike.hold (some w)
    · exact alike
  | remount id w =>
    refine ⟨(fun call => by cases call),?_⟩
    rw [Workbench.step,Workbench.step,alike.alive,alike.mounted]
    split
    · exact ⟨alike.slots,rfl,alike.held,alike.made,alike.crashing⟩
    · exact alike

end SameButSlot

theorem sameButSlot_reslot (s : State) (i : Nat) (later : Slot) (looked : Bool) :
    SameButSlot i s (reslot s i later looked) :=
  ⟨fun _ other => List.getElem?_set_ne other.symm,rfl,rfl,rfl,rfl⟩

/-- A call changes the slot alone, unless what it gives is held. -/
theorem sameButSlot_call (s : State) (i : Nat) (required : Bool) :
    SameButSlot i s (step s (.does (.resolve i required false))).2 := by
  cases there : s.slots[i]? with
  | none =>
    rw [step,perform,resolve,there]
    exact .refl i s
  | some slot =>
    obtain ⟨r,later,-,called⟩ := perform_call there
    rw [step,called]
    exact sameButSlot_reslot s i later r.looked

/-- A call whose result is held does no more than whoever holds the widget otherwise. -/
theorem sameButSlot_kept (s : State) (i : Nat) (required : Bool) :
    SameButSlot i (step s (.does (.resolve i required true))).2
      (after s ((given i s (.does (.resolve i required true))).toList.map .keep)) := by
  cases there : s.slots[i]? with
  | none =>
    rw [given,step,perform,resolve,there]
    exact .refl i s
  | some slot =>
    obtain ⟨r,later,asked,called⟩ := perform_call there
    rw [given_call (called required true),step,called]
    cases gives : r.widget? with
    | none => exact (sameButSlot_reslot s i later r.looked).symm
    | some w =>
      rw [Option.toList_some,List.map_singleton,after,after,step,if_pos (alive_of_given asked gives)]
      exact ((sameButSlot_reslot s i later r.looked).hold (some w)).symm

theorem SameButSlot.keeps (alike : SameButSlot i s t) (ws : List Nat) :
    SameButSlot i (after s (ws.map .keep)) (after t (ws.map .keep)) := by
  induction ws generalizing s t with
  | nil => exact alike
  | cons w ws ih => exact ih (alike.step (e := .keep w) nofun).2

theorem answersOf_keeps (s : State) (ws : List Nat) (rest : List Event) :
    answersOf k s (ws.map .keep ++ rest) = answersOf k (after s (ws.map .keep)) rest := by
  induction ws generalizing s with
  | nil => rfl
  | cons w ws ih => exact ih _

/-- Calls that are left out change no answer of another slot. -/
theorem Thinned.alike (thinned : Thinned i s events fewer) (alike : SameButSlot i s t) (other : k ≠ i) :
    answersOf k s events = answersOf k t fewer ∧ SameButSlot i (after s events) (after t fewer) := by
  have skips {s : State} (required holds : Bool) (rest : List Event) :
      answersOf k s (.does (.resolve i required holds) :: rest) =
        answersOf k (step s (.does (.resolve i required holds))).2 rest :=
    if_neg fun same => other (Option.some.inj same).symm
  induction thinned generalizing t with
  | done => exact ⟨rfl,alike⟩
  | @same s events fewer e loose rest ih =>
    by_cases called : e.slot? = some i
    · obtain ⟨required,holds,rfl⟩ := slot_iff.mp called
      cases holds with
      | true => exact absurd rfl (loose required)
      | false =>
        rw [skips,skips]
        exact ih ((sameButSlot_call s i required).symm.trans (alike.trans (sameButSlot_call t i required)))
    · obtain ⟨same,next⟩ := alike.step called
      obtain ⟨answers,last⟩ := ih next
      refine ⟨?_,last⟩
      rw [answersOf,answersOf,answers]
      split
      · next mine => rw [same (by rw [mine]; rfl)]
      · rfl
  | @out s events fewer required rest ih =>
    rw [skips]
    exact ih ((sameButSlot_call s i required).symm.trans alike)
  | @kept s events fewer required rest ih =>
    rw [skips,answersOf_keeps,after_append]
    exact ih ((sameButSlot_kept s i required).trans (alike.keeps _))

/-- Calls whose results nobody holds may all be left out. -/
theorem thinned_filter (loose : ∀ e ∈ events, ∀ required, e ≠ .does (.resolve i required true)) :
    Thinned i s events (events.filter fun e => e.slot? ≠ some i) := by
  induction events generalizing s with
  | nil => exact .done
  | cons e events ih =>
    have rest {t : State} := ih (s := t) fun e later => loose e (List.mem_cons_of_mem _ later)
    by_cases called : e.slot? = some i
    · obtain ⟨required,holds,rfl⟩ := slot_iff.mp called
      rw [List.filter_cons_of_neg (by simp [called])]
      cases holds with
      | true => exact absurd rfl (loose _ List.mem_cons_self required)
      | false => exact .out required rest
    · rw [List.filter_cons_of_pos (by simp [called])]
      exact .same e (loose e List.mem_cons_self) rest

theorem crashes_other (other : e.slot? ≠ some i) : crashes i s e = false :=
  decide_eq_false fun crashed => other crashed.1

theorem crashes_call {a : Answer} {held : List Nat}
    (called : perform s (.resolve i required holds) = (a,{ reslot s i later r.looked with held })) :
    crashes i s (.does (.resolve i required holds)) = (s.crashing && r.looked) := by
  rw [crashes,step,called]
  cases r.looked <;> simp [reslot,Event.slot?]

theorem crashing_of_lookup (fails : lookup s id = .crash) : s.crashing = true := by
  rw [lookup] at fails
  split at fails
  · next crashing => exact crashing
  · cases fails

theorem Shut.other (shut : Shut i crashed s) (other : e.slot? ≠ some i) : Shut i crashed (step s e).2 := by
  have turnover := step_turnover s e
  obtain ⟨slot,there,poisoned,known,gone⟩ := shut.slot
  have bound (w : Nat) (cached : slot.cached = some w) : w < (step s e).2.made :=
    Nat.lt_of_lt_of_le (known w cached) turnover.grows
  refine ⟨turnover.counted shut.counted,slot,by rw [step_other other,there],poisoned,bound,fun is => ?_⟩
  exact filter_alive (y := none) turnover known nofun (gone is)

theorem Shut.call (shut : Shut i crashed s) (required holds : Bool) :
    Shut i (crashed || crashes i s (.does (.resolve i required holds)))
      (perform s (.resolve i required holds)).2 := by
  obtain ⟨slot,there,rfl,known,gone⟩ := shut.slot
  obtain ⟨r,later,asked,calls⟩ := call_frame there
  obtain ⟨held,called⟩ := calls required holds
  have turnover : Turnover s (perform s (.resolve i required holds)).2 := step_turnover s (.does _)
  have counted := turnover.counted shut.counted
  have made := call_made s i required holds
  have living := alive_call s i required holds
  have put : (perform s (.resolve i required holds)).2.slots[i]? = some later := by
    rw [called]
    exact List.getElem?_set_self (List.getElem?_eq_some_iff.mp there).1
  rw [crashes_call called]
  cases asked with
  | poisoned shut =>
    refine ⟨counted,slot,put,by rw [shut]; rfl,by rwa [made],fun _ => ?_⟩
    rw [living]
    exact gone shut
  | remembered w fine _ =>
    have idle : (slot.poisoned || s.crashing && Resolution.looked (.remembered w)) = false := by
      simp [fine,Resolution.looked]
    exact ⟨counted,slot,put,by rw [idle,fine],by rwa [made],fun shut => by rw [idle] at shut; cases shut⟩
  | found w fine _ told =>
    have calm := (lookup_answer told).1
    have lives := alive_of_lookup (lookup_answer told).2
    refine ⟨counted,_,put,by simp [fine,calm],?_,by simp [fine,calm]⟩
    rintro v ⟨⟩
    rw [made]
    exact shut.counted w lives
  | missing fine _ told =>
    have calm := (lookup_answer told).1
    exact ⟨counted,_,put,by simp [fine,calm],(fun _ is => by cases is),by simp [fine,calm]⟩
  | crashed fine gone fails =>
    have crashing := crashing_of_lookup fails
    refine ⟨counted,_,put,by simp [crashing,Resolution.looked],by rwa [made],fun _ => ?_⟩
    rw [living]
    exact gone

theorem Shut.after (shut : Shut i crashed s) (events : List Event) :
    Shut i (crashed || everCrashed i s events) (after s events) := by
  induction events generalizing s crashed with
  | nil => rwa [everCrashed,Bool.or_false]
  | cons e events ih =>
    rw [everCrashed,← Bool.or_assoc]
    refine ih ?_
    by_cases called : e.slot? = some i
    · obtain ⟨required,holds,rfl⟩ := slot_iff.mp called
      exact shut.call required holds
    · rw [crashes_other called,Bool.or_false]
      exact shut.other called

theorem shut_start {ids : List String} (there : ids[i]? = some id) : Shut i false (start ids) := by
  refine ⟨nofun,{ id },?_,rfl,nofun,nofun⟩
  rw [start,List.getElem?_map,there]
  rfl

theorem everCrashed_append (s : State) (events rest : List Event) :
    everCrashed i s (events ++ rest) = (everCrashed i s events || everCrashed i (after s events) rest) := by
  induction events generalizing s with
  | nil => rfl
  | cons e events ih => rw [List.cons_append,everCrashed,everCrashed,ih,Bool.or_assoc]; rfl

/-- What a slot answers when it is called once more. -/
theorem Shut.answers (shut : Shut i crashed s) (required holds : Bool) :
    ((perform s (.resolve i required holds)).1 = .failed .lockPoisoned ↔ crashed = true) ∧
      ∀ w, remembered s i = some w → (perform s (.resolve i required holds)).1 = .resolved (some w) ∧
        (perform s (.resolve i required holds)).2.lookups = s.lookups ∧
        (crashed || crashes i s (.does (.resolve i required holds))) = false := by
  obtain ⟨slot,there,rfl,known,gone⟩ := shut.slot
  obtain ⟨r,later,asked,calls⟩ := call_frame there
  obtain ⟨held,called⟩ := calls required holds
  rw [crashes_call called,called,remembered,there]
  change _ ∧ ∀ w, slot.cached.filter (alive s) = some w → _
  cases asked with
  | poisoned shut => exact ⟨iff_of_true rfl shut,fun w lives => by rw [gone shut] at lives; cases lives⟩
  | remembered w fine lives =>
    refine ⟨iff_of_false (fun same => by cases same) (by simp [fine]),fun v same => ?_⟩
    rw [lives] at same
    cases same
    exact ⟨rfl,rfl,by simp [fine,Resolution.looked]⟩
  | found w fine gone _ =>
    refine ⟨iff_of_false ?_ (by simp [fine]),fun v lives => by rw [gone] at lives; cases lives⟩
    intro same
    cases same
  | missing fine gone _ =>
    refine ⟨iff_of_false ?_ (by simp [fine]),fun v lives => by rw [gone] at lives; cases lives⟩
    intro same
    cases required <;> cases same
  | crashed fine gone _ =>
    refine ⟨iff_of_false ?_ (by simp [fine]),fun v lives => by rw [gone] at lives; cases lives⟩
    intro same
    cases same

/-- A slot is shut just when the host crashed while it was asked for this slot, and while a living widget is
remembered the host is not asked. Calls on one slot change no answer of another, and no widget lives or dies by
them: it is for the callers to hold what they are given. -/
theorem slots_are_independent (ids : List String) (events : List Event) :
    (∀ i id required holds, ids[i]? = some id →
      let s := after (start ids) events
      let call := Event.does (.resolve i required holds)
      ((step s call).1 = .failed .lockPoisoned ↔ everCrashed i (start ids) events = true) ∧
        ∀ w, remembered s i = some w → (step s call).1 = .resolved (some w) ∧
          (step s call).2.lookups = s.lookups ∧ everCrashed i (start ids) (events ++ [call]) = false) ∧
      (∀ i fewer, Thinned i (start ids) events fewer →
        (∀ k, k ≠ i → answersOf k (start ids) events = answersOf k (start ids) fewer) ∧
          living (after (start ids) events) = living (after (start ids) fewer)) ∧
      ∀ i, (∀ e ∈ events, ∀ required, e ≠ .does (.resolve i required true)) → ∀ n,
        living (after (start ids) (events.take n)) =
          living (after (start ids) ((events.take n).filter fun e => e.slot? ≠ some i)) := by
  have alike (i : Nat) {events fewer : List Event} (thinned : Thinned i (start ids) events fewer) :
      living (after (start ids) events) = living (after (start ids) fewer) :=
    (thinned.alike (.refl i _) (Nat.succ_ne_self i)).2.living.symm
  refine ⟨fun i id required holds there => ?_,fun i fewer thinned => ⟨fun k other => ?_,alike i thinned⟩,
    fun i loose n => ?_⟩
  · have shut := (shut_start there).after events
    obtain ⟨poisoned,lives⟩ := shut.answers required holds
    refine ⟨poisoned,fun w same => ?_⟩
    obtain ⟨gives,looks,fine⟩ := lives w same
    refine ⟨gives,looks,?_⟩
    rw [everCrashed_append,everCrashed,everCrashed,Bool.or_false]
    exact fine
  · exact (thinned.alike (.refl i _) other).1
  · exact alike i (thinned_filter fun e member => loose e (List.mem_of_mem_take member))

/-- One slot is shut by the host, and the other one is as if the first had not been called. -/
theorem crash_shuts_one_slot :
    let events : List Event := [.does (.mount "a"),.does (.mount "b"),.does (.crash true),
      .does (.resolve 0 true false),.does (.crash false),.does (.resolve 1 true false),.does (.mount "a")]
    (step (after (start ["a","b"]) events) (.does (.resolve 0 true false))).1 = .failed .lockPoisoned ∧
      answersOf 1 (start ["a","b"]) events = [.resolved (some 1)] ∧
      living (after (start ["a","b"]) events) = [1,2] := by
  intro events
  obtain ⟨one,others,-⟩ := slots_are_independent ["a","b"] events
  have fewer : Thinned 0 (start ["a","b"]) events (events.filter fun e => e.slot? ≠ some 0) :=
    thinned_filter (by simp [events])
  obtain ⟨same,lives⟩ := others 0 _ fewer
  exact ⟨(one 0 "a" true false rfl).1.mpr rfl,(same 1 nofun).trans rfl,lives.trans rfl⟩

end EditorLink.Workbench
