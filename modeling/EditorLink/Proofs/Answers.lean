import Mathlib.Data.List.Nodup
import EditorLink.Proofs.Requests

/-! What becomes of every update that is asked for. It is answered with a call of the model one interval after it was
asked for, unless it is dropped while it waits or finds its link dead; and calls are made for nothing else. -/
namespace EditorLink
open World EditorLink.Action

namespace World

variable {w : World} {m : Move} {moves first rest : List Move} {n id due D : Nat} {s : Setting}

theorem callsIn_append (w : World) (first rest : List Move) :
    w.callsIn (first ++ rest) = w.callsIn first ++ (w.run first).callsIn rest := by
  induction first generalizing w with
  | nil => rfl
  | cons m first ih => rw [List.cons_append,callsIn,callsIn,ih,List.append_assoc]; rfl

theorem requested_append (w : World) (n : Nat) (first rest : List Move) :
    w.requested n (first ++ rest) = w.requested n first ++ (w.run first).requested n rest := by
  induction first generalizing w with
  | nil => rfl
  | cons m first ih => rw [List.cons_append,requested,requested,ih,List.append_assoc]; rfl

theorem Underway.after (underway : Underway s n D w (first ++ rest)) : Underway s n D (w.run first) rest := by
  induction first generalizing w with
  | nil => exact underway
  | cons m first ih => exact ih underway.move

theorem Underway.before (underway : Underway s n D w (first ++ rest)) : Underway s n D w first where
  reached := underway.reached
  smooth m member := underway.smooth m (List.mem_append_left _ member)
  timely := ((timely_append w first rest).mp underway.timely).1
  pace i known := by
    have smooth (m : Move) (member : m ∈ rest) : m.Smooth := underway.smooth m (List.mem_append_right _ member)
    refine underway.pace i ?_
    rw [run_append]
    exact intervalOf_of_reaches (reaches_run _ smooth) known
  lined := underway.lined

/-- The task will make no call any more, and will ask for none. -/
def Spent (w : World) (id : Nat) : Prop :=
  id < w.tasks.length ∧ ∀ k, w.fresh k id = false ∧ w.debounces k id = false

theorem spent_of_unphased (known : id < w.tasks.length) (none : ∀ k, w.phaseOf k id = none) : w.Spent id :=
  ⟨known,fun k => by rw [fresh,debounces,none]; exact ⟨rfl,rfl⟩⟩

theorem spent_of_ended (ended : w.tasks[id]? = some none) : w.Spent id :=
  spent_of_unphased (List.getElem?_eq_some_iff.mp ended).1 (unphased ended)

theorem spent_of_cut (cut : w.Cut id) : w.Spent id := by
  obtain ⟨t,there,aborted⟩ := cut
  refine spent_of_unphased (List.getElem?_eq_some_iff.mp there).1 fun k => ?_
  rcases known : w.phaseOf k id with _ | phase
  · rfl
  · exact absurd ⟨t,there,aborted⟩ (uncut_of_phase known)

theorem move_spent (supplied : w.Supplied) (single : m.Single) (spent : w.Spent id) : (w.move m).Spent id := by
  obtain ⟨known,never⟩ := spent
  refine ⟨Nat.lt_of_lt_of_le known (move_size single),fun k => ?_⟩
  have unfresh (isFresh : w.phaseOf k id = some .fresh) : False :=
    absurd ((fresh_iff.mpr isFresh).symm.trans (never k).1) nofun
  rw [fresh,debounces]
  rcases after : (w.move m).phaseOf k id with _ | phase
  · exact ⟨rfl,rfl⟩
  · cases phased supplied single after with
    | kept _ _ before =>
      have same := never k
      rw [fresh,debounces,before] at same
      exact same
    | slept _ _ before => exact (unfresh before).elim
    | begun => exact ⟨rfl,rfl⟩
    | new beyond => exact absurd known (Nat.not_lt.mpr beyond)

theorem call_turn (supplied : w.Supplied) (single : m.Single) {c : Call} (called : c ∈ w.calls m) :
    m = .turn c.task ∧ ¬ w.Spent c.task ∧ (w.move m).Spent c.task := by
  cases calls_cases supplied single with
  | none _ uncalled =>
    rw [uncalled] at called
    cases called
  | one id k _ i phase known alive interval model due spent same =>
    rw [same] at called
    obtain rfl := List.mem_singleton.mp called
    have inside := known_of_phase known
    refine ⟨rfl,fun gone => ?_,Nat.lt_of_lt_of_le inside (move_size single),spent⟩
    have same := gone.2 k
    rw [fresh,debounces,known] at same
    rcases due with rfl | ⟨rfl,-⟩
    · cases same.2
    · cases same.1

theorem spent_uncalled (underway : Underway s n D w moves) (spent : w.Spent id) : ∀ c ∈ w.callsIn moves, c.task ≠ id := by
  induction moves generalizing w with
  | nil => nofun
  | cons m rest ih =>
    intro c member
    rcases List.mem_append.mp member with now | later
    · rintro rfl
      exact (call_turn underway.supplied underway.due.single now).2.1 spent
    · exact ih underway.move (move_spent underway.supplied underway.due.single spent) c later

theorem spent_unasked (underway : Underway s n D w moves) (spent : w.Spent id) :
    ∀ e ∈ w.asked n moves, e.1 ≠ id := by
  induction moves generalizing w with
  | nil => nofun
  | cons m rest ih =>
    intro e member
    rcases List.mem_append.mp member with now | later
    · rintro rfl
      exact absurd ((mem_askedIn now).2.1.symm.trans (spent.2 n).1) nofun
    · exact ih underway.move (move_spent underway.supplied underway.due.single spent) e later

/-- The update returns in its next turn that the link was killed, and does nothing else. -/
def ReturnsKilled (w : World) (n id : Nat) : Prop :=
  ∃ label phase, w.tasks[id]? = some (some { label, job := .update n phase }) ∧
    exec (resume id (.update n phase)) (w.taken id) = (.error (.error .killed),w.taken id)

/-- What becomes of an update that has been asked for and is due at a time. -/
inductive Fate (w : World) (n : Nat) (moves : List Move) (id due : Nat) : Prop
  | waits (there : (w.run moves).debounces n id = true) (early : (w.run moves).now ≤ due)
      (uncalled : ∀ c ∈ w.callsIn moves, c.task ≠ id)
  | dropped (first : List Move) (m : Move) (rest : List Move) (split : moves = first ++ m :: rest)
      (there : (w.run first).debounces n id = true) (early : (w.run first).now ≤ due)
      (cut : ((w.run first).move m).Cut id) (uncalled : ∀ c ∈ w.callsIn moves, c.task ≠ id)
  | killed (first rest : List Move) (split : moves = first ++ .turn id :: rest) (now : (w.run first).now = due)
      (dead : (w.run first).isDead n = true) (returns : (w.run first).ReturnsKilled n id)
      (uncalled : ∀ c ∈ w.callsIn moves, c.task ≠ id)
  | called (first rest : List Move) (split : moves = first ++ .turn id :: rest) (now : (w.run first).now = due)
      (alive : (w.run first).isDead n = false) (k : Nat) (model : (w.run first).modelOf n = some k)
      (call : ⟨id,k,due,(w.run first).text⟩ ∈ w.callsIn moves)

theorem Fate.cons (fate : (w.move m).Fate n rest id due) (quiet : ∀ c ∈ w.calls m, c.task ≠ id) :
    w.Fate n (m :: rest) id due := by
  have uncalled (later : ∀ c ∈ (w.move m).callsIn rest, c.task ≠ id) (c : Call)
      (member : c ∈ w.callsIn (m :: rest)) : c.task ≠ id :=
    (List.mem_append.mp member).elim (quiet c) (later c)
  cases fate with
  | waits there early later => exact .waits there early (uncalled later)
  | dropped first k others split there early cut later =>
    exact .dropped (m :: first) k others (by rw [split]; rfl) there early cut (uncalled later)
  | killed first others split now dead returns later =>
    exact .killed (m :: first) others (by rw [split]; rfl) now dead returns (uncalled later)
  | called first others split now alive k model call =>
    exact .called (m :: first) others (by rw [split]; rfl) now alive k model (List.mem_append_right _ call)

theorem Lined.unique (lined : w.Lined n D) {a b : Nat × Nat} (one : a ∈ w.debounced n) (other : b ∈ w.debounced n)
    (same : a.1 = b.1) : a = b :=
  List.inj_on_of_nodup_map lined.once one other same

theorem fate_of_debounced (underway : Underway s n D w moves) (waits : (id,due) ∈ w.debounced n) :
    w.Fate n moves id due := by
  induction moves generalizing w with
  | nil => exact .waits (mem_debounced waits) (underway.lined.bounds _ waits).1 nofun
  | cons m rest ih =>
    have supplied := underway.supplied
    have phase := debounces_iff.mp (mem_debounced waits)
    by_cases own : m = .turn id
    · subst own
      obtain ⟨others,line⟩ := debounced_head underway.due (mem_debounced waits)
      have head : (id,w.now) ∈ w.debounced n := line ▸ List.mem_cons_self
      have now : w.now = due := congrArg Prod.snd (underway.lined.unique head waits rfl)
      obtain ⟨label,there⟩ := phaseOf_iff.mp phase
      obtain ⟨i,interval,turn⟩ := updateTurn supplied there
      cases turn with
      | killed _ _ dead ran ended uncalled =>
        refine .killed [] rest rfl now dead ⟨label,_,there,ran⟩ fun c member => ?_
        rw [callsIn,uncalled] at member
        exact spent_uncalled underway.move (spent_of_ended ended) c member
      | calls _ alive _ k model called =>
        refine .called [] rest rfl now alive k model (List.mem_append_left _ ?_)
        rw [called,← now]
        exact List.mem_singleton_self _
    · have quiet (c : Call) (called : c ∈ w.calls m) : c.task ≠ id := by
        rintro rfl
        exact own (call_turn supplied underway.due.single called).1
      by_cases cut : (w.move m).Cut id
      · refine .dropped [] m rest rfl (mem_debounced waits) (underway.lined.bounds _ waits).1 cut fun c member => ?_
        rcases List.mem_append.mp member with now | later
        · exact quiet c now
        · exact spent_uncalled underway.move (spent_of_cut cut) c later
      · have there : (w.move m).debounces n id = true := by
          obtain ⟨label,there⟩ := phaseOf_iff.mp phase
          rcases move_others underway.due.single there own with same | ⟨t,_,_,-,-,-,aborted⟩
          · exact debounces_iff.mpr (phaseOf_iff.mpr ⟨label,same⟩)
          · exact absurd ⟨_,aborted,rfl⟩ cut
        refine (ih underway.move ?_).cons quiet
        rw [underway.line]
        exact List.mem_append_left _ (List.mem_filter.mpr ⟨waits,there⟩)

theorem fate_of_asked (underway : Underway s n D w moves) {e : Nat × Nat} (asked : e ∈ w.asked n moves) :
    w.Fate n moves e.1 (e.2 + D) := by
  induction moves generalizing w with
  | nil => cases asked
  | cons m rest ih =>
    have supplied := underway.supplied
    rcases List.mem_append.mp asked with now | later
    · obtain ⟨rfl,isFresh,alive,time⟩ := mem_askedIn now
      obtain ⟨label,there⟩ := phaseOf_iff.mp (fresh_iff.mp isFresh)
      obtain ⟨i,interval,turn⟩ := updateTurn supplied there
      have pause := underway.interval i interval
      cases turn with
      | killed _ _ dead => exact absurd (alive.symm.trans dead) nofun
      | sleeps _ waits _ uncalled =>
        have slow : D ≠ 0 := fun none => waits (Interval.pause_eq_zero.mp (pause.trans none))
        refine (fate_of_debounced underway.move ?_).cons (by rw [uncalled]; nofun)
        rw [underway.line,if_neg slow]
        exact List.mem_append_right _ (List.mem_map.mpr ⟨e,now,rfl⟩)
      | calls _ _ due k model called =>
        have instant : D = 0 := pause.symm.trans (Interval.pause_eq_zero.mpr (due.resolve_left nofun).2)
        have at' : e.2 + D = w.now := by rw [instant,time,Nat.add_zero]
        rw [at']
        refine .called [] rest rfl rfl alive k model (List.mem_append_left _ ?_)
        rw [called]
        exact List.mem_singleton_self _
    · refine (ih underway.move later).cons fun c called same => ?_
      have spent := (call_turn supplied underway.due.single called).2.2
      rw [same] at spent
      exact spent_unasked underway.move spent e later rfl

end World
end EditorLink
