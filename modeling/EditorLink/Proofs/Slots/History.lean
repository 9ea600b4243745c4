import EditorLink.Editor.Workbench

/-! Histories of slots over one host. Whoever calls a slot, widgets live and die by what is mounted and held
alone, and one that has died does not come back. -/
namespace EditorLink

/-- What it comes to when a slot is asked. -/
inductive Slot.Asked (slot : Slot) (alive : Nat → Bool) (lookup : Lookup) : Resolution → Slot → Prop
  | poisoned (shut : slot.poisoned = true) : Asked slot alive lookup .poisoned slot
  | remembered (w : Nat) (fine : slot.poisoned = false) (known : slot.cached.filter alive = some w) :
      Asked slot alive lookup (.remembered w) slot
  | found (w : Nat) (fine : slot.poisoned = false) (gone : slot.cached.filter alive = none)
      (answers : lookup = .answer (some w)) : Asked slot alive lookup (.found w) { slot with cached := some w }
  | missing (fine : slot.poisoned = false) (gone : slot.cached.filter alive = none)
      (answers : lookup = .answer none) : Asked slot alive lookup .missing { slot with cached := none }
  | crashed (fine : slot.poisoned = false) (gone : slot.cached.filter alive = none)
      (fails : lookup = .crash) : Asked slot alive lookup .crashed { slot with poisoned := true }

theorem Slot.asked (slot : Slot) (alive : Nat → Bool) (lookup : Lookup) :
    slot.Asked alive lookup (slot.tryResolve alive lookup).1 (slot.tryResolve alive lookup).2 := by
  obtain ⟨id,cached,shut⟩ := slot
  unfold tryResolve
  cases shut with
  | true => exact .poisoned rfl
  | false =>
    cases known : cached.filter alive with
    | some w => exact .remembered w rfl known
    | none =>
      rcases answers : lookup with (_ | w) | _
      · exact .missing rfl known rfl
      · exact .found w rfl known rfl
      · exact .crashed rfl known rfl

theorem Slot.Asked.id {slot later : Slot} {alive : Nat → Bool} {lookup : Lookup} {r : Resolution}
    (asked : slot.Asked alive lookup r later) : later.id = slot.id := by
  cases asked <;> rfl

namespace Workbench

/-- What may happen. Beside the commands, someone may come to hold a living widget without asking a slot for it,
and the host may mount one that lives under a further id. -/
inductive Event where
  | does (c : Command)
  | keep (w : Nat)
  | remount (id : String) (w : Nat)

def step (s : State) : Event → Answer × State
  | .does c => perform s c
  | .keep w => (.nothing,if alive s w then hold s (some w) else s)
  | .remount id w =>
    (.nothing,if alive s w then { s with mounted := (id,w) :: s.mounted.filter fun m => m.1 ≠ id } else s)

def start (ids : List String) : State := { slots := ids.map fun id => { id } }

def after (s : State) : List Event → State
  | [] => s
  | e :: rest => after (step s e).2 rest

/-- One slot has been asked. -/
def reslot (s : State) (i : Nat) (slot : Slot) (looked : Bool) : State :=
  { s with slots := s.slots.set i slot, lookups := if looked then s.lookups + 1 else s.lookups }

/-- The slot that is called. -/
def Event.slot? : Event → Option Nat
  | .does (.resolve i _ _) => some i
  | _ => none

/-- A widget that lives later lived before, or is a new one. -/
structure Turnover (s t : State) : Prop where
  grows : s.made ≤ t.made
  lives : ∀ w, alive t w → alive s w ∨ s.made ≤ w ∧ w < t.made

/-- The numbers of living widgets are taken. -/
def Counted (s : State) : Prop := ∀ w, alive s w → w < s.made

variable {s t u : State} {e : Event} {c : Command} {events rest : List Event} {i j w : Nat} {id : String}
  {required holds : Bool} {slot : Slot}

theorem after_append (s : State) (events rest : List Event) :
    after s (events ++ rest) = after (after s events) rest := by
  induction events generalizing s with
  | nil => rfl
  | cons e events ih => exact ih _

theorem alive_iff : alive s w ↔ (∃ id, (id,w) ∈ s.mounted) ∨ w ∈ s.held := by
  simp [alive]

theorem alive_of_lookup (found : s.mounted.lookup id = some w) : alive s w := by
  obtain ⟨l,r,parts,-⟩ := List.lookup_eq_some_iff.mp found
  exact alive_iff.mpr (.inl ⟨id,by simp [parts]⟩)

theorem alive_congr {t : State} (mounted : t.mounted = s.mounted) (held : t.held = s.held) : alive t = alive s := by
  funext w
  rw [alive,alive,mounted,held]

/-- To hold a living widget changes nothing for now. -/
theorem alive_hold (living : alive s w) : alive (hold s (some w)) = alive s := by
  funext v
  rw [hold]
  split
  · rfl
  · rw [Bool.eq_iff_iff,alive_iff,alive_iff]
    simp only [List.mem_append,List.mem_singleton]
    constructor
    · rintro (mounted | held | rfl)
      · exact .inl mounted
      · exact .inr held
      · exact alive_iff.mp living
    · rintro (mounted | held)
      · exact .inl mounted
      · exact .inr (.inl held)

theorem hold_eq (s : State) (w : Option Nat) : ∃ held, hold s w = { s with held } := by
  cases w with
  | none => exact ⟨s.held,rfl⟩
  | some w =>
    rw [hold]
    split
    · exact ⟨s.held,rfl⟩
    · exact ⟨_,rfl⟩

theorem lookup_answer {found : Option Nat} (answers : lookup s id = .answer found) :
    s.crashing = false ∧ s.mounted.lookup id = found := by
  rw [lookup] at answers
  split at answers
  · cases answers
  · next calm => exact ⟨eq_false_of_ne_true calm,Lookup.answer.inj answers⟩

/-- What a slot gives is alive. -/
theorem alive_of_given {r : Resolution} {later : Slot} (asked : slot.Asked (alive s) (lookup s id) r later)
    (given : r.widget? = some w) : alive s w := by
  cases asked with
  | poisoned shut => cases given
  | remembered v shut known =>
    cases given
    exact (Option.filter_eq_some_iff.mp known).2
  | found v shut gone answers =>
    cases given
    exact alive_of_lookup (lookup_answer answers).2
  | missing shut gone answers => cases given
  | crashed shut gone fails => cases given

/-- A call asks the slot, and what is given may be held. -/
theorem perform_call (there : s.slots[i]? = some slot) :
    ∃ r later, slot.Asked (alive s) (lookup s slot.id) r later ∧ ∀ required holds,
      perform s (.resolve i required holds) = (answer slot.id required r,
        if holds then hold (reslot s i later r.looked) r.widget? else reslot s i later r.looked) := by
  have asked := slot.asked (alive s) (lookup s slot.id)
  refine ⟨_,_,asked,fun required holds => ?_⟩
  rw [perform,resolve,there]
  dsimp only
  rw [asked.id]
  rfl

/-- Of all that a caller may do with what it is given, only the holders can tell. -/
theorem call_frame (there : s.slots[i]? = some slot) :
    ∃ r later, slot.Asked (alive s) (lookup s slot.id) r later ∧ ∀ required holds, ∃ held,
      perform s (.resolve i required holds) =
        (answer slot.id required r,{ reslot s i later r.looked with held }) := by
  obtain ⟨r,later,asked,called⟩ := perform_call there
  refine ⟨r,later,asked,fun required holds => ?_⟩
  obtain ⟨held,same⟩ := hold_eq (reslot s i later r.looked) r.widget?
  cases holds with
  | false => exact ⟨s.held,called required false⟩
  | true => exact ⟨held,by rw [called,if_pos rfl,same]⟩

/-- No call makes or ends a widget, even when what it gives is held. -/
theorem alive_call (s : State) (i : Nat) (required holds : Bool) :
    alive (perform s (.resolve i required holds)).2 = alive s := by
  cases there : s.slots[i]? with
  | none => rw [perform,resolve,there]
  | some slot =>
    obtain ⟨r,later,asked,called⟩ := perform_call there
    rw [called]
    cases holds with
    | false => rfl
    | true =>
      cases given : r.widget? with
      | none => rfl
      | some w => exact alive_hold (alive_of_given asked given)

theorem Turnover.of_alive (grows : s.made ≤ t.made) (lives : ∀ w, alive t w → alive s w) : Turnover s t :=
  ⟨grows,fun w living => .inl (lives w living)⟩

theorem alive_filter {p : String × Nat → Bool} (living : alive { s with mounted := s.mounted.filter p } w) :
    alive s w := by
  rcases alive_iff.mp living with ⟨id,mounted⟩ | held
  · exact alive_iff.mpr (.inl ⟨id,(List.mem_filter.mp mounted).1⟩)
  · exact alive_iff.mpr (.inr held)

theorem call_made (s : State) (i : Nat) (required holds : Bool) :
    (perform s (.resolve i required holds)).2.made = s.made := by
  cases there : s.slots[i]? with
  | none => rw [perform,resolve,there]
  | some slot =>
    obtain ⟨r,later,-,called⟩ := call_frame there
    obtain ⟨held,ran⟩ := called required holds
    rw [ran]
    rfl

theorem step_turnover (s : State) (e : Event) : Turnover s (step s e).2 := by
  cases e with
  | does c =>
    cases c with
    | mount id =>
      refine ⟨Nat.le_succ _,fun w living => ?_⟩
      rcases alive_iff.mp living with ⟨other,mounted⟩ | held
      · rcases List.mem_cons.mp mounted with new | old
        · cases new
          exact .inr ⟨Nat.le_refl _,Nat.lt_succ_self _⟩
        · exact .inl (alive_iff.mpr (.inl ⟨other,(List.mem_filter.mp old).1⟩))
      · exact .inl (alive_iff.mpr (.inr held))
    | unmount id => exact .of_alive (Nat.le_refl _) fun w living => alive_filter living
    | resolve i required holds =>
      refine .of_alive (Nat.le_of_eq (call_made s i required holds).symm) fun w living => ?_
      rwa [step,alive_call] at living
    | release v =>
      refine .of_alive (Nat.le_refl _) fun w living => ?_
      rcases alive_iff.mp living with mounted | held
      · exact alive_iff.mpr (.inl mounted)
      · exact alive_iff.mpr (.inr (List.mem_filter.mp held).1)
    | crash on => exact .of_alive (Nat.le_refl _) fun w living => living
    | id i => exact .of_alive (Nat.le_refl _) fun w living => living
    | debug i => exact .of_alive (Nat.le_refl _) fun w living => living
  | keep v =>
    rw [step]
    split
    · next lives =>
      obtain ⟨held,same⟩ := hold_eq s (some v)
      refine .of_alive (Nat.le_of_eq (by rw [same])) fun w living => ?_
      rwa [alive_hold lives] at living
    · exact .of_alive (Nat.le_refl _) fun w living => living
  | remount id v =>
    rw [step]
    split
    · next lives =>
      refine .of_alive (Nat.le_refl _) fun w living => ?_
      rcases alive_iff.mp living with ⟨other,mounted⟩ | held
      · rcases List.mem_cons.mp mounted with new | old
        · cases new
          exact lives
        · exact alive_iff.mpr (.inl ⟨other,(List.mem_filter.mp old).1⟩)
      · exact alive_iff.mpr (.inr held)
    · exact .of_alive (Nat.le_refl _) fun w living => living

theorem slot_iff : e.slot? = some i ↔ ∃ required holds, e = .does (.resolve i required holds) := by
  constructor
  · intro called
    cases e with
    | does c =>
      cases c with
      | resolve j required holds =>
        cases called
        exact ⟨required,holds,rfl⟩
      | _ => cases called
    | _ => cases called
  · rintro ⟨required,holds,rfl⟩
    rfl

/-- What is not a call leaves the slots alone. -/
theorem step_slots (uncalled : e.slot? = none) : (step s e).2.slots = s.slots := by
  cases e with
  | does c =>
    cases c with
    | resolve i required holds => cases uncalled
    | _ => rfl
  | keep w =>
    obtain ⟨held,same⟩ := hold_eq s (some w)
    rw [step,same]
    split <;> rfl
  | remount id w =>
    rw [step]
    split <;> rfl

/-- A call leaves the other slots alone. -/
theorem step_other (other : e.slot? ≠ some i) : (step s e).2.slots[i]? = s.slots[i]? := by
  cases called : e.slot? with
  | none => rw [step_slots called]
  | some j =>
    have apart : j ≠ i := fun same => other (by rw [called,same])
    obtain ⟨required,holds,rfl⟩ := slot_iff.mp called
    cases there : s.slots[j]? with
    | none => rw [step,perform,resolve,there]
    | some slot =>
      obtain ⟨r,later,-,called⟩ := call_frame there
      obtain ⟨held,ran⟩ := called required holds
      rw [step,ran]
      exact List.getElem?_set_ne apart

theorem step_crashing (s : State) (e : Event) :
    (step s e).2.crashing = s.crashing ∨ ∃ on, e = .does (.crash on) ∧ (step s e).2.crashing = on := by
  cases e with
  | does c =>
    cases c with
    | crash on => exact .inr ⟨on,rfl,rfl⟩
    | resolve i required holds =>
      refine .inl ?_
      cases there : s.slots[i]? with
      | none => rw [step,perform,resolve,there]
      | some slot =>
        obtain ⟨r,later,-,called⟩ := call_frame there
        obtain ⟨held,ran⟩ := called required holds
        rw [step,ran]
        rfl
    | _ => exact .inl rfl
  | keep w =>
    obtain ⟨held,same⟩ := hold_eq s (some w)
    rw [step,same]
    split <;> exact .inl rfl
  | remount id w =>
    rw [step]
    split <;> exact .inl rfl

theorem Turnover.counted (turnover : Turnover s t) (counted : Counted s) : Counted t := by
  intro w living
  rcases turnover.lives w living with before | ⟨-,new⟩
  · exact Nat.lt_of_lt_of_le (counted w before) turnover.grows
  · exact new

/-- A widget that has died stays dead. -/
theorem Turnover.alive_back (turnover : Turnover s t) (old : w < s.made) (living : alive t w) : alive s w := by
  rcases turnover.lives w living with before | ⟨new,-⟩
  · exact before
  · exact absurd old (Nat.not_lt.mpr new)

end Workbench
end EditorLink
