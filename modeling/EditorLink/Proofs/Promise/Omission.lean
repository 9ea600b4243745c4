import EditorLink.Proofs.Promise.Leaving
import Mathlib.Data.List.ReduceOption

/-! A run without some observers, without drops of handles and without handles that only observers used. It is the same
run for everyone else, and tasks still have their turns in the order in which they got ready. -/
namespace EditorLink.Promise
variable {α : Type} {out : Nat → Bool} {p : List Bool}

/-- A promise as its holders see it. -/
def seen (p : Promise α) : Promise α := { p with onCancel := [], onValue := [] }

namespace Move

/-- The number of the command. -/
def number? : Move α → Option Nat
  | .perform number _ => some number
  | .turn _ | .arrive _ => none

/-- The same move where the tasks that are not marked are left out; none if it is left out itself. -/
def without (out : Nat → Bool) (p : List Bool) : Move α → Option (Move α)
  | .perform number c => if out number then none else some (.perform number c)
  | .turn id => if p[id]? = some true then some (.turn (rank p id)) else none
  | .arrive now => some (.arrive now)

end Move

namespace Session

def through (s : Session α) (moves : List (Move α)) : Session α := moves.foldl move s

/-- A run without the commands in question and without the turns of their tasks. -/
def without (out : Nat → Bool) (p : List Bool) (s : Session α) : List (Move α) → List (Move α)
  | [] => []
  | m :: rest => (m.without out p).toList ++ without out (marked out p (s.move m)) (s.move m) rest

/-- The command may be left out if it is to be, and it can do without those that are left out if it stays. -/
def Allows (out : Nat → Bool) (s : Session α) : Move α → Prop
  | .perform number c => if out number then c.Spare out else c.Firm out s
  | .turn _ | .arrive _ => True

instance (out : Nat → Bool) (s : Session α) : (m : Move α) → Decidable (Allows out s m)
  | .perform number c => inferInstanceAs (Decidable (if out number then c.Spare out else c.Firm out s))
  | .turn _ | .arrive _ => isTrue trivial

def AllowsAll (out : Nat → Bool) (s : Session α) : List (Move α) → Prop
  | [] => True
  | m :: rest => Allows out s m ∧ AllowsAll out (s.move m) rest

instance decideAllowsAll (out : Nat → Bool) (s : Session α) :
    (moves : List (Move α)) → Decidable (AllowsAll out s moves)
  | [] => isTrue trivial
  | m :: rest =>
    have := decideAllowsAll out (s.move m) rest
    inferInstanceAs (Decidable (Allows out s m ∧ AllowsAll out (s.move m) rest))

/-- Tasks have their turns in the order in which they got ready, and the clock moves on only once none is left and
never past a timer. -/
def Due (s : Session α) : Move α → Prop
  | .perform _ _ => True
  | .turn id => s.schedule.ready.head? = some id
  | .arrive now => s.schedule.ready = [] ∧ s.schedule.now ≤ now ∧ ∀ t ∈ s.schedule.timers, now ≤ t.deadline

def Timely (s : Session α) : List (Move α) → Prop
  | [] => True
  | m :: rest => Due s m ∧ Timely (s.move m) rest

instance (s : Session α) : (m : Move α) → Decidable (Due s m)
  | .perform _ _ => isTrue trivial
  | .turn id => inferInstanceAs (Decidable (s.schedule.ready.head? = some id))
  | .arrive now => inferInstanceAs
    (Decidable (s.schedule.ready = [] ∧ s.schedule.now ≤ now ∧ ∀ t ∈ s.schedule.timers, now ≤ t.deadline))

instance decideTimely (s : Session α) : (moves : List (Move α)) → Decidable (Timely s moves)
  | [] => isTrue trivial
  | m :: rest =>
    have := decideTimely (s.move m) rest
    inferInstanceAs (Decidable (Due s m ∧ Timely (s.move m) rest))

/-- All that there is to see of two sessions, the observers in question and the handles that only one of them has
aside. -/
structure SeenAlike (out : Nat → Bool) (v w : Session α) : Prop where
  now : v.schedule.now = w.schedule.now
  promises : v.promises.map seen = w.promises.map seen
  /-- With what each of them still has to do. -/
  tasks : v.tasks.reduceOption = w.tasks.reduceOption.filter fun t => !out t.label
  events : v.events = w.events.filter fun e => !out e.label
  waiting : v.waiting = w.waiting.filter fun n => !out n
  handles : ∀ h i, out h = false → w.handle? h = some i → v.handle? h = some i
  deadlines : v.schedule.timers.map Timer.deadline = w.schedule.timers.map Timer.deadline
  idle : w.schedule.ready = [] → v.schedule.ready = []

variable {s v w : Session α} {m : Move α} {moves : List (Move α)} {number promise h : Nat} {c : Command α}

theorem left_of_woven {as cs : List (Option (Task α))} (woven : Woven (Stays out) p as cs) :
    as.reduceOption = cs.reduceOption.filter fun t => !out t.label := by
  induction woven with
  | nil => rfl
  | kept a c alike _ ih =>
    obtain ⟨rfl,labels,-⟩ := alike
    cases a with
    | none => rw [List.reduceOption_cons_of_none,List.reduceOption_cons_of_none,ih]
    | some task =>
      rw [List.reduceOption_cons_of_some,List.reduceOption_cons_of_some,ih]
      exact (List.filter_cons_of_pos (p := fun t : Task α => !out t.label) (by rw [labels task rfl]; rfl)).symm
  | other c own _ ih =>
    cases c with
    | none => rw [List.reduceOption_cons_of_none,ih]
    | some task =>
      rw [List.reduceOption_cons_of_some,ih]
      exact (List.filter_cons_of_neg (p := fun t : Task α => !out t.label) (by rw [own.label task rfl]; nofun)).symm

namespace Thins

theorem waiting (thins : Thins out p v w) : v.waiting = w.waiting.filter fun n => !out n := by
  rw [Session.waiting,Session.waiting,thins.observers,List.filter_comm,List.filter_filter,List.filter_filter]
  apply List.filter_congr
  intro n _
  cases stays : out n with
  | true => rfl
  | false =>
    apply congrArg (!false && ·)
    apply thins.tasks.any
    · intro a c alike
      rw [alike.same]
    · exact fun _ own => own.unnamed stays

theorem seenAlike (thins : Thins out p v w) : SeenAlike out v w where
  now := thins.schedule.now
  promises := by
    rw [← List.forall₂_eq_eq_eq,List.forall₂_map_left_iff,List.forall₂_map_right_iff]
    exact thins.promises.imp fun _ _ sifts => by rw [seen,seen,sifts.cancelled,sifts.value,sifts.pending]
  tasks := left_of_woven thins.tasks
  events := thins.events
  waiting := thins.waiting
  handles := thins.handles
  deadlines := thins.schedule.deadlines
  idle none := by
    have ready := thins.schedule.ready
    rw [none] at ready
    exact ready.nil_of_nil

theorem arrive (thins : Thins out p v w) (now : Nat) : Thins out p (v.move (.arrive now)) (w.move (.arrive now)) :=
  { thins with schedule := thins.schedule.arrive now }

theorem turn_size (s : Session α) (id : Nat) : (s.turn id).tasks.length = s.tasks.length := by
  rcases turn_idle s id with ⟨task,there⟩ | ⟨-,idle⟩
  · exact (turn_leavesRest there).size
  · rw [idle]
    rfl

/-- What is left of a move does with the fewer tasks what the move does with all. -/
theorem move (thins : Thins out p v w) (fresh : ∀ n ∈ m.number?, v.handle? n = none) (allows : Allows out w m) :
    Thins out (marked out p (w.move m)) (v.through (m.without out p).toList) (w.move m) := by
  cases m with
  | perform number c =>
    simp only [Allows] at allows
    rw [Move.without]
    split at allows
    next left =>
      rw [if_pos left]
      exact thins.perform_other left allows
    next stays =>
      rw [if_neg stays]
      exact thins.perform (fresh number rfl) (Bool.eq_false_iff.mpr stays) allows
  | turn id =>
    have size : (w.move (.turn id)).tasks.length = p.length := (turn_size w id).trans thins.size
    rw [marked_same size,Move.without]
    split
    next kept => exact thins.turn kept
    next other => exact thins.turn_other other
  | arrive now =>
    exact (thins.arrive now).keep

/-- It is time for what is left of a move. -/
theorem due (thins : Thins out p v w) (due : Due w m) : ∀ k ∈ m.without out p, Due v k := by
  cases m with
  | perform number c =>
    rintro k member
    rw [Move.without] at member
    split at member
    · cases member
    · cases member
      trivial
  | turn id =>
    rintro k member
    rw [Move.without] at member
    split at member
    next kept =>
      cases member
      exact thins.schedule.head kept due
    · cases member
  | arrive now =>
    rintro k ⟨⟩
    obtain ⟨idle,later,early⟩ := due
    refine ⟨thins.seenAlike.idle idle,thins.schedule.now ▸ later,?_⟩
    rw [← List.forall_mem_map (f := Timer.deadline) (P := fun d => now ≤ d)] at early ⊢
    rw [thins.schedule.deadlines]
    exact early

end Thins

theorem Unused.fresh (unused : s.Unused number) : s.handle? number = none := by
  rw [handle?,List.lookup_eq_none_iff]
  exact fun g member => bne_iff_ne.mpr (unused.handles g member).symm

/-- What is left of a move has the number of the move, if any. -/
theorem without_fits (unused : ∀ n ∈ m.number?, v.Unused n) (allows : Allows out w m) :
    ∀ k ∈ m.without out p, v.Fits k ∧ ∀ n command, k = .perform n command → n ∈ m.number? := by
  cases m with
  | perform number c =>
    simp only [Allows] at allows
    rw [Move.without]
    split
    · nofun
    next stays =>
      rw [if_neg stays] at allows
      rintro k ⟨⟩
      refine ⟨⟨unused number rfl,fun ms same => ?_⟩,fun n command same => ?_⟩
      · exact absurd (same ▸ allows.single) nofun
      · cases same
        rfl
  | turn id =>
    rw [Move.without]
    split
    · rintro k ⟨⟩
      exact ⟨trivial,nofun⟩
    · nofun
  | arrive now =>
    rintro k ⟨⟩
    exact ⟨trivial,nofun⟩

theorem unused_through (unused : v.Unused number) (other : number ∉ m.number?)
    (fits : ∀ k ∈ m.without out p, v.Fits k ∧ ∀ n command, k = .perform n command → n ∈ m.number?) :
    (v.through (m.without out p).toList).Unused number := by
  cases left : m.without out p with
  | none => exact unused
  | some k =>
    obtain ⟨fits,numbers⟩ := fits k left
    exact unused.move fits fun command same => other (numbers number command same)

theorem numbered_cons {rest : List (Move α)} (numbered : ((m :: rest).filterMap Move.number?).Nodup) :
    (rest.filterMap Move.number?).Nodup ∧ ∀ n ∈ rest.filterMap Move.number?, n ∉ m.number? := by
  cases same : m.number? with
  | none =>
    rw [List.filterMap_cons_none same] at numbered
    exact ⟨numbered,fun _ _ => nofun⟩
  | some number =>
    rw [List.filterMap_cons_some same,List.nodup_cons] at numbered
    refine ⟨numbered.2,?_⟩
    rintro n member ⟨⟩
    exact numbered.1 member

theorem timely_append (s : Session α) (first rest : List (Move α)) :
    Timely s (first ++ rest) ↔ Timely s first ∧ Timely (s.through first) rest := by
  induction first generalizing s with
  | nil => simp [Timely,through]
  | cons m first ih =>
    simp only [List.cons_append,Timely,ih,and_assoc]
    exact Iff.rfl

/-- The run of what is left of the moves goes along with the run of all. -/
theorem thins_through (thins : Thins out p v w) (allows : AllowsAll out w moves)
    (numbered : (moves.filterMap Move.number?).Nodup) (unused : ∀ n ∈ moves.filterMap Move.number?, v.Unused n) :
    (∃ q, Thins out q (v.through (without out p w moves)) (w.through moves)) ∧
      (Timely w moves → Timely v (without out p w moves)) := by
  induction moves generalizing p v w with
  | nil => exact ⟨⟨p,thins⟩,fun _ => trivial⟩
  | cons m rest ih =>
    obtain ⟨allows,later⟩ := allows
    obtain ⟨numbered,others⟩ := numbered_cons numbered
    have mine : ∀ n ∈ m.number?, v.Unused n :=
      fun n same => unused n (List.mem_filterMap.mpr ⟨m,List.mem_cons_self,same⟩)
    have fits := without_fits (p := p) mine allows
    have moved := thins.move (fun n same => (mine n same).fresh) allows
    obtain ⟨⟨q,after⟩,timely⟩ := ih moved later numbered fun n member => by
      obtain ⟨k,there,same⟩ := List.mem_filterMap.mp member
      have free := unused n (List.mem_filterMap.mpr ⟨k,List.mem_cons_of_mem m there,same⟩)
      exact unused_through free (others n member) fits
    refine ⟨⟨q,?_⟩,fun due => ?_⟩
    · rw [without,through,List.foldl_append]
      exact after
    · rw [without,timely_append]
      refine ⟨?_,timely due.2⟩
      have step := thins.due due.1
      cases left : m.without out p with
      | none => trivial
      | some k => exact ⟨step k left,trivial⟩

theorem without_first (out : Nat → Bool) (p : List Bool) (s : Session α) (first rest : List (Move α)) :
    without out p s first <+: without out p s (first ++ rest) := by
  induction first generalizing p s with
  | nil => exact List.nil_prefix
  | cons m first ih =>
    rw [without,List.cons_append,without,List.prefix_append_right_inj]
    exact ih _ _

theorem allowsAll_append (first rest : List (Move α)) (allows : AllowsAll out s (first ++ rest)) :
    AllowsAll out s first ∧ AllowsAll out (s.through first) rest := by
  induction first generalizing s with
  | nil => exact ⟨trivial,allows⟩
  | cons m first ih =>
    obtain ⟨now,later⟩ := ih allows.2
    exact ⟨⟨allows.1,now⟩,later⟩

end Session
end EditorLink.Promise
