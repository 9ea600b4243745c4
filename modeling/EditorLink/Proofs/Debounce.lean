import EditorLink.Proofs.Timely
import EditorLink.Proofs.Updating

/-! The updates of a link that wait out its interval. Each has one place in line and goes on at its time, which
is one interval after the turn in which it came; a move lets those leave that do not wait any more, and lets
the one come last that begins to wait. -/
namespace EditorLink
open World EditorLink.Action

namespace UpdatePhase

def isFresh : UpdatePhase → Bool
  | fresh => true
  | _ => false

def isDebouncing : UpdatePhase → Bool
  | debouncing => true
  | _ => false

end UpdatePhase

/-- For how long an update waits. -/
def Interval.pause (i : Interval) : Nat := min i.toMillis Schedule.longestSleep

theorem Interval.pause_eq_zero {i : Interval} : i.pause = 0 ↔ i.toMillis = 0 := by
  have long : 0 < Schedule.longestSleep := by decide
  unfold pause
  omega

namespace World

/-- The task is an update of the link that has not had its first turn. -/
def fresh (w : World) (n id : Nat) : Bool := (w.phaseOf n id).any UpdatePhase.isFresh

def debounces (w : World) (n id : Nat) : Bool := (w.phaseOf n id).any UpdatePhase.isDebouncing

/-- The updates of the link that wait out its interval, in the order in which they will go on, each with the
time when. -/
def debounced (w : World) (n : Nat) : List (Nat × Nat) :=
  ((w.schedule.ready.filter (w.debounces n)).map fun id => (id,w.now)) ++
    (w.schedule.timers.filter fun t => w.debounces n t.task).map fun t => (t.task,t.deadline)

/-- The update that has its first turn in the move and finds the link alive, and the time. -/
def askedIn (w : World) (n : Nat) : Move → List (Nat × Nat)
  | .turn id => if w.fresh n id && !w.isDead n then [(id,w.now)] else []
  | _ => []

def asked (w : World) (n : Nat) : List Move → List (Nat × Nat)
  | [] => []
  | m :: rest => w.askedIn n m ++ (w.move m).asked n rest

variable {v w : World} {m : Move} {n id j D : Nat} {i : Interval} {phase : UpdatePhase}

theorem fresh_iff : w.fresh n id = true ↔ w.phaseOf n id = some .fresh := by
  rcases known : w.phaseOf n id with _ | _ | _ | _ <;> simp [fresh,known,UpdatePhase.isFresh]

theorem debounces_iff : w.debounces n id = true ↔ w.phaseOf n id = some .debouncing := by
  rcases known : w.phaseOf n id with _ | _ | _ | _ <;> simp [debounces,known,UpdatePhase.isDebouncing]

theorem known_of_phase (known : w.phaseOf n id = some phase) : id < w.tasks.length := by
  obtain ⟨label,there⟩ := phaseOf_iff.mp known
  exact (List.getElem?_eq_some_iff.mp there).1

theorem uncut_of_phase (known : w.phaseOf n id = some phase) : ¬ w.Cut id := by
  rintro ⟨t,there,aborted⟩
  obtain ⟨label,found⟩ := phaseOf_iff.mp known
  rw [there] at found
  cases found
  cases aborted

/-- Updates wait for no promise. -/
theorem unwoken_of_phase (enrolled : w.Enrolled) (known : w.phaseOf n id = some phase) : ¬ MayWake w v id := by
  obtain ⟨label,there⟩ := phaseOf_iff.mp known
  rintro (⟨p,seen⟩ | ⟨p,heard,-⟩)
  · exact (enrolled.values p id seen).2 _ there
  · exact (enrolled.cancels p id heard).2 _ there

/-- How an update has come as far as it is after a move. -/
inductive Phased (w : World) (m : Move) (n id : Nat) : UpdatePhase → Prop
  | kept (phase : UpdatePhase) (other : m ≠ .turn id) (before : w.phaseOf n id = some phase) :
      Phased w m n id phase
  | slept (i : Interval) (own : m = .turn id) (fresh : w.phaseOf n id = some .fresh)
      (alive : w.isDead n = false) (known : w.intervalOf n = some i) (waits : i.toMillis ≠ 0) :
      Phased w m n id .debouncing
  | begun (text : String) (interrupts : Nat) (own : m = .turn id)
      (called : ∃ c, w.calls m = [c] ∧ c.task = id ∧ w.modelOf n = some c.model) :
      Phased w m n id (.running text interrupts)
  | new (beyond : w.tasks.length ≤ id) (requested : w.requestIn m = some n) : Phased w m n id .fresh

theorem phased (supplied : w.Supplied) (single : m.Single) (after : (w.move m).phaseOf n id = some phase) :
    Phased w m n id phase := by
  obtain ⟨label,there⟩ := phaseOf_iff.mp after
  by_cases own : m = .turn id
  · subst own
    obtain ⟨u,v,before,active,same,ran,-⟩ := turn_here there
    have follows := resume_yieldsNext id u.job (w.taken id) _ v ran
    obtain ⟨l,job,aborted⟩ := u
    obtain rfl : aborted = false := active
    obtain rfl : label = l := congrArg Task.label same
    generalize made : Job.update n phase = next at follows
    cases follows with
    | update k earlier next later =>
      cases made
      obtain ⟨i,known,turn⟩ := updateTurn supplied before
      cases turn with
      | killed _ _ _ _ ended => rw [move,ended] at there; cases there
      | sleeps alive waits turned =>
        have slept : (w.turn id).tasks[id]? = some (some { label, job := .update n .debouncing }) := by
          rw [turned]
          exact conclude_paused before label _
        rw [move,slept] at there
        cases there
        exact .slept i rfl (phaseOf_iff.mpr ⟨label,before⟩) alive known waits
      | calls _ _ _ k model called after _ =>
        rcases after with ended | ⟨text,interrupts,running⟩
        · rw [move,ended] at there
          cases there
        · rw [move,running] at there
          cases there
          exact .begun text interrupts rfl ⟨_,called,rfl,model⟩
      | ends _ _ ended => rw [move,ended] at there; cases there
    | _ => cases made
  · have stems := move_stems single there
    generalize made : ({ label, job := .update n phase } : Task) = t at stems
    cases stems with
    | old _ _ _ before => exact .kept phase own (phaseOf_iff.mpr ⟨label,made ▸ before⟩)
    | paused => exact absurd rfl own
    | aborted => cases congrArg Task.aborted made
    | called _ _ number job called new _ requested =>
      cases made
      cases phase with
      | fresh => exact .new new (requested n .fresh rfl)
      | _ => exact called.elim
    | typed _ _ k new requested =>
      cases made
      exact .new new requested
    | stop => cases made

/-- Updates that have no turn and are not new keep their places and their timers. -/
theorem places_kept (single : m.Single) (still : ∀ now, m ≠ .arrive now) (enrolled : w.Enrolled) {B : Nat → Bool}
    (kept : ∀ j, B j = true → m ≠ .turn j ∧ (∃ phase, w.phaseOf n j = some phase) ∧
      ∃ phase, (w.move m).phaseOf n j = some phase) :
    (w.move m).schedule.ready.filter B = w.schedule.ready.filter B ∧
      ((w.move m).schedule.timers.filter fun t => B t.task) = w.schedule.timers.filter fun t => B t.task := by
  have other (j : Nat) (turned : m = .turn j) : B j = false :=
    Bool.eq_false_iff.mpr fun marked => (kept j marked).1 turned
  have uncut (j : Nat) (cut : (w.move m).Cut j) : B j = false := by
    refine Bool.eq_false_iff.mpr fun marked => ?_
    obtain ⟨-,-,phase,known⟩ := kept j marked
    exact uncut_of_phase known cut
  have unwoken (j : Nat) (told : MayWake w (w.move m) j) : B j = false := by
    refine Bool.eq_false_iff.mpr fun marked => ?_
    obtain ⟨-,⟨phase,known⟩,-⟩ := kept j marked
    exact unwoken_of_phase enrolled known told
  have known (j : Nat) (marked : B j = true) : j < w.tasks.length := by
    obtain ⟨-,⟨phase,known⟩,-⟩ := kept j marked
    exact known_of_phase known
  exact ⟨move_ready single still other known uncut unwoken,move_timers single still other uncut⟩

theorem debounced_filter {B : Nat → Bool} (narrower : ∀ j, B j = true → w.debounces n j = true) :
    ((w.debounced n).filter fun e => B e.1) = ((w.schedule.ready.filter B).map fun id => (id,w.now)) ++
      (w.schedule.timers.filter fun t => B t.task).map fun t => (t.task,t.deadline) := by
  have both (j : Nat) : (B j && w.debounces n j) = B j := by
    cases marked : B j with
    | false => rfl
    | true => rw [narrower j marked]; rfl
  simp [debounced,List.filter_map,List.filter_filter,Function.comp_def,both]

/-- Every update has its place in line once. Those in front go on first, none before now, and none later than one
pause from now. -/
structure Lined (w : World) (n D : Nat) : Prop where
  once : ((w.debounced n).map Prod.fst).Nodup
  sorted : (w.debounced n).Pairwise fun a b => a.2 ≤ b.2
  bounds : ∀ e ∈ w.debounced n, w.now ≤ e.2 ∧ e.2 ≤ w.now + D
  instant : D = 0 → w.debounced n = []

theorem wakeAll_filter {s : Schedule} {B : Nat → Bool} {tasks : List Nat} (nodup : (tasks.filter B).Nodup)
    (disjoint : ∀ j ∈ s.ready, j ∈ tasks → B j = false) :
    (s.wakeAll tasks).ready.filter B = s.ready.filter B ++ tasks.filter B := by
  unfold Schedule.wakeAll
  induction tasks generalizing s with
  | nil => simp
  | cons task rest ih =>
    rw [List.foldl_cons,ih]
    · unfold Schedule.wake
      split
      · rename_i member
        rw [List.filter_cons_of_neg (by simp [disjoint task member List.mem_cons_self])]
      · cases marked : B task <;> simp [marked]
    · refine nodup.sublist ?_
      exact (List.sublist_cons_self task rest).filter B
    · intro j member later
      unfold Schedule.wake at member
      split at member
      · exact disjoint j member (List.mem_cons_of_mem task later)
      · rcases List.mem_append.mp member with old | new
        · exact disjoint j old (List.mem_cons_of_mem task later)
        · obtain rfl := List.mem_singleton.mp new
          refine Bool.eq_false_iff.mpr fun marked => ?_
          rw [List.filter_cons_of_pos marked] at nodup
          exact (List.nodup_cons.mp nodup).1 (List.mem_filter.mpr ⟨later,marked⟩)

/-- Where the smaller come first, those up to a bound stand in front of the rest. -/
theorem sorted_split {α : Type} {f : α → Nat} {items : List α} (sorted : items.Pairwise fun a b => f a ≤ f b)
    (k : Nat) : (items.filter fun a => f a ≤ k) ++ (items.filter fun a => ¬ f a ≤ k) = items := by
  induction items with
  | nil => rfl
  | cons a rest ih =>
    obtain ⟨least,rest'⟩ := List.pairwise_cons.mp sorted
    by_cases small : f a ≤ k
    · simpa [small] using ih rest'
    · have large (b : α) (member : b ∈ a :: rest) : ¬ f b ≤ k := by
        rcases List.mem_cons.mp member with rfl | later
        · exact small
        · exact fun late => small (Nat.le_trans (least b later) late)
      have none : ((a :: rest).filter fun a => f a ≤ k) = [] := by simpa using large
      have all : ((a :: rest).filter fun a => ¬ f a ≤ k) = a :: rest := by simpa using large
      rw [none,all,List.nil_append]

theorem arrive_debounced {now : Nat} (due : w.Due (.arrive now)) (lined : w.Lined n D) :
    (w.move (.arrive now)).debounced n = w.debounced n := by
  obtain ⟨idle,onward,early⟩ := due
  let timers := w.schedule.timers.filter fun t => w.debounces n t.task
  have line : w.debounced n = timers.map fun t => (t.task,t.deadline) := by simp [debounced,idle,timers]
  have sorted : timers.Pairwise fun a b => a.deadline ≤ b.deadline := by
    have sorted := lined.sorted
    rw [line,List.pairwise_map] at sorted
    exact sorted
  have off : ((w.schedule.timers.filter fun t => t.deadline ≤ now).map Timer.task).filter (w.debounces n) =
      (timers.filter fun t => t.deadline ≤ now).map Timer.task := by
    simp [timers,List.filter_map,List.filter_filter,Function.comp_def,Bool.and_comm]
  have once : ((timers.filter fun t => t.deadline ≤ now).map Timer.task).Nodup := by
    have once := lined.once
    rw [line,List.map_map] at once
    exact once.sublist (List.filter_sublist.map _)
  have arrived : (w.move (.arrive now)).schedule = w.schedule.arrive now := rfl
  have woken : (w.move (.arrive now)).schedule.ready.filter (w.debounces n) =
      (timers.filter fun t => t.deadline ≤ now).map Timer.task := by
    rw [arrived,Schedule.arrive,wakeAll_filter (off ▸ once),off]
    · simp [idle]
    · intro j member
      rw [show w.schedule.ready = [] from idle] at member
      cases member
  have rest : ((w.move (.arrive now)).schedule.timers.filter fun t => w.debounces n t.task) =
      timers.filter fun t => ¬ t.deadline ≤ now := by
    simp [arrive_timers,timers,List.filter_filter,Bool.and_comm]
  have now' : ((timers.filter fun t => t.deadline ≤ now).map Timer.task).map (fun id => (id,now)) =
      (timers.filter fun t => t.deadline ≤ now).map fun t => (t.task,t.deadline) := by
    rw [List.map_map]
    refine List.map_congr_left fun t member => ?_
    have late : t.deadline ≤ now := by simpa using (List.mem_filter.mp member).2
    have set := (List.mem_filter.mp (List.mem_filter.mp member).1).1
    simp [Nat.le_antisymm late (early t set)]
  calc (w.move (.arrive now)).debounced n
      = ((w.move (.arrive now)).schedule.ready.filter (w.debounces n)).map (fun id => (id,now)) ++
          ((w.move (.arrive now)).schedule.timers.filter fun t => w.debounces n t.task).map
            fun t => (t.task,t.deadline) := by rw [debounced,move_arrive_now]; rfl
    _ = ((timers.filter fun t => t.deadline ≤ now) ++ timers.filter fun t => ¬ t.deadline ≤ now).map
          fun t => (t.task,t.deadline) := by rw [woken,rest,now',List.map_append]
    _ = w.debounced n := by rw [sorted_split sorted,line]

/-- The update has its first turn, and begins to wait. -/
def LinesUp (w : World) (m : Move) (n id : Nat) (i : Interval) : Prop :=
  m = .turn id ∧ w.fresh n id = true ∧ w.isDead n = false ∧ w.intervalOf n = some i ∧ i.toMillis ≠ 0

theorem mem_debounced {e : Nat × Nat} (member : e ∈ w.debounced n) : w.debounces n e.1 = true := by
  rcases List.mem_append.mp member with ready | set
  · obtain ⟨id,there,rfl⟩ := List.mem_map.mp ready
    exact (List.mem_filter.mp there).2
  · obtain ⟨t,there,rfl⟩ := List.mem_map.mp set
    exact (List.mem_filter.mp there).2

theorem debounced_head (due : w.Due (.turn id)) (waits : w.debounces n id = true) :
    ∃ rest, w.debounced n = (id,w.now) :: rest := by
  obtain ⟨rest,ready⟩ := List.head?_eq_some_iff.mp (show w.schedule.ready.head? = some id from due)
  rw [debounced,ready,List.filter_cons_of_pos waits]
  exact ⟨_,rfl⟩

theorem Phased.debounces (phased : Phased w m n id .debouncing) :
    m ≠ .turn id ∧ w.debounces n id = true ∨ ∃ i, w.LinesUp m n id i := by
  cases phased with
  | kept _ other before => exact .inl ⟨other,debounces_iff.mpr before⟩
  | slept i own fresh alive known waits => exact .inr ⟨i,own,fresh_iff.mpr fresh,alive,known,waits⟩

theorem turn_linesUp (supplied : w.Supplied) (enrolled : w.Enrolled) (unslept : w.Unslept)
    (lines : w.LinesUp (.turn id) n id i) :
    (w.move (.turn id)).debounced n = w.debounced n ++ [(id,w.now + i.pause)] := by
  obtain ⟨-,fresh,alive,known,waits⟩ := lines
  obtain ⟨label,there⟩ := phaseOf_iff.mp (fresh_iff.mp fresh)
  have slept : w.turn id = World.setJob
      { w.taken id with schedule := (w.taken id).schedule.sleep id i.toMillis } id (.update n .debouncing) := by
    obtain ⟨j,same,turn⟩ := updateTurn supplied there
    rw [known] at same
    cases same
    cases turn with
    | killed _ _ dead => exact absurd (alive.symm.trans dead) nofun
    | sleeps _ _ turned => exact turned
    | calls _ _ due => exact absurd (due.resolve_left nofun).2 waits
  have own : (w.move (.turn id)).debounces n id = true := by
    refine debounces_iff.mpr (phaseOf_iff.mpr ⟨label,?_⟩)
    rw [move,slept]
    exact conclude_paused there label _
  have others (j : Nat) (other : j ≠ id) : (w.move (.turn id)).debounces n j = w.debounces n j := by
    have same : (w.turn id).tasks[j]? = w.tasks[j]? := by
      rw [slept]
      exact List.getElem?_modify_ne _ _ (Ne.symm other)
    rw [debounces,debounces,phaseOf,phaseOf,move,same]
  have unready : id ∉ w.schedule.ready.erase id := enrolled.nodup.not_mem_erase
  have idle : w.debounces n id = false := by
    rw [debounces,fresh_iff.mp fresh]
    rfl
  have ready : (w.schedule.ready.erase id).filter ((w.move (.turn id)).debounces n) =
      w.schedule.ready.filter (w.debounces n) := by
    rw [List.filter_congr fun j member => others j (by rintro rfl; exact unready member),← List.erase_filter]
    exact List.erase_of_not_mem fun member => by simp [idle] at member
  have timers : (w.schedule.timers.filter fun t => (w.move (.turn id)).debounces n t.task) =
      w.schedule.timers.filter fun t => w.debounces n t.task :=
    List.filter_congr fun t member => others t.task (unslept id _ there rfl trivial t member)
  have schedule : (w.move (.turn id)).schedule =
      { w.schedule with
        ready := w.schedule.ready.erase id, timers := w.schedule.timers ++ [⟨w.now + i.pause,id⟩] } := by
    rw [move,slept]
    rfl
  have now : (w.move (.turn id)).now = w.now := by rw [World.now,schedule]; rfl
  rw [debounced,now,schedule]
  dsimp only
  rw [ready,List.filter_append,timers]
  simp [debounced,own]

/-- In a move those leave the line who do not wait any more, and the one who begins to wait comes last. -/
theorem move_debounced (supplied : w.Supplied) (enrolled : w.Enrolled) (unslept : w.Unslept) (lined : w.Lined n D)
    (due : w.Due m) (pace : ∀ i, w.intervalOf n = some i → i.pause = D) :
    (w.move m).debounced n = ((w.debounced n).filter fun e => (w.move m).debounces n e.1) ++
      if D = 0 then [] else (w.askedIn n m).map fun e => (e.1,e.2 + D) := by
  have all (stays : ∀ e ∈ w.debounced n, (w.move m).debounces n e.1 = true) :
      ((w.debounced n).filter fun e => (w.move m).debounces n e.1) = w.debounced n :=
    List.filter_eq_self.mpr stays
  by_cases arrival : ∃ now, m = .arrive now
  · obtain ⟨now,rfl⟩ := arrival
    have same := arrive_debounced due lined
    rw [all fun e member => mem_debounced (same ▸ member),same]
    simp [askedIn]
  by_cases enters : ∃ id i, w.LinesUp m n id i
  · obtain ⟨id,i,lines⟩ := enters
    obtain ⟨rfl,fresh,alive,known,waits⟩ := lines
    have after := turn_linesUp supplied enrolled unslept ⟨rfl,fresh,alive,known,waits⟩
    have pause : i.pause = D := pace i known
    have slow : D ≠ 0 := fun none => waits (Interval.pause_eq_zero.mp (pause.trans none))
    rw [all fun e member => mem_debounced (after ▸ List.mem_append_left _ member),after,if_neg slow]
    simp [askedIn,fresh,alive,pause]
  · have kept (j : Nat) (waits : (w.move m).debounces n j = true) : m ≠ .turn j ∧ w.debounces n j = true :=
      (phased supplied due.single (debounces_iff.mp waits)).debounces.resolve_right fun ⟨i,lines⟩ => enters ⟨j,i,lines⟩
    have none : (if D = 0 then [] else (w.askedIn n m).map fun e => (e.1,e.2 + D)) = [] := by
      split
      · rfl
      · rename_i slow
        rw [List.map_eq_nil_iff]
        cases m with
        | turn id =>
          refine if_neg fun both => enters ?_
          obtain ⟨fresh,alive⟩ := Bool.and_eq_true_iff.mp both
          obtain ⟨i,known⟩ := supplied.known id n .fresh (fresh_iff.mp fresh)
          exact ⟨id,i,rfl,fresh,by simpa using alive,known,fun instant =>
            slow ((pace i known).symm.trans (Interval.pause_eq_zero.mpr instant))⟩
        | _ => rfl
    have still (now : Nat) : m ≠ .arrive now := fun same => arrival ⟨now,same⟩
    obtain ⟨ready,timers⟩ := places_kept due.single still enrolled fun j waits =>
      ⟨(kept j waits).1,⟨_,debounces_iff.mp (kept j waits).2⟩,⟨_,debounces_iff.mp waits⟩⟩
    rw [none,List.append_nil,debounced_filter fun j waits => (kept j waits).2,debounced,ready,timers,
      move_now due.single still]

theorem mem_askedIn {e : Nat × Nat} (member : e ∈ w.askedIn n m) :
    m = .turn e.1 ∧ w.fresh n e.1 = true ∧ w.isDead n = false ∧ e.2 = w.now := by
  cases m with
  | turn id =>
    simp only [askedIn] at member
    split at member
    · rename_i both
      obtain rfl := List.mem_singleton.mp member
      obtain ⟨fresh,alive⟩ := Bool.and_eq_true_iff.mp both
      exact ⟨rfl,fresh,by simpa using alive,rfl⟩
    · cases member
  | _ => cases member

theorem askedIn_cases (w : World) (n : Nat) (m : Move) : w.askedIn n m = [] ∨ ∃ e, w.askedIn n m = [e] := by
  cases m with
  | turn id =>
    simp only [askedIn]
    split
    · exact .inr ⟨_,rfl⟩
    · exact .inl rfl
  | _ => exact .inl rfl

/-- The clock does not pass the end of an interval that someone waits for. -/
theorem bounds_move (lined : w.Lined n D) (due : w.Due m) {e : Nat × Nat} (member : e ∈ w.debounced n) :
    (w.move m).now ≤ e.2 ∧ e.2 ≤ (w.move m).now + D := by
  obtain ⟨late,soon⟩ := lined.bounds e member
  by_cases arrival : ∃ now, m = .arrive now
  · obtain ⟨now,rfl⟩ := arrival
    obtain ⟨idle,onward,early⟩ := due
    rw [move_arrive_now]
    refine ⟨?_,by omega⟩
    rcases List.mem_append.mp member with ready | set
    · rw [idle] at ready
      cases ready
    · obtain ⟨t,there,rfl⟩ := List.mem_map.mp set
      exact early t (List.mem_filter.mp there).1
  · rw [move_now due.single fun now same => arrival ⟨now,same⟩]
    exact ⟨late,soon⟩

theorem debounced_unasked {e : Nat × Nat} (asked : e ∈ w.askedIn n m) : ∀ x ∈ w.debounced n, x.1 ≠ e.1 := by
  intro x member same
  have waits := mem_debounced member
  rw [same,debounces,fresh_iff.mp (mem_askedIn asked).2.1] at waits
  cases waits

theorem now_of_asked (due : w.Due m) {e : Nat × Nat} (asked : e ∈ w.askedIn n m) : (w.move m).now = e.2 := by
  obtain ⟨rfl,-,-,same⟩ := mem_askedIn asked
  rw [same]
  exact move_now due.single nofun

theorem move_lined (supplied : w.Supplied) (enrolled : w.Enrolled) (unslept : w.Unslept) (lined : w.Lined n D)
    (due : w.Due m) (pace : ∀ i, w.intervalOf n = some i → i.pause = D) : (w.move m).Lined n D := by
  have after := move_debounced supplied enrolled unslept lined due pace
  let stays := (w.debounced n).filter fun e => (w.move m).debounces n e.1
  have fewer : stays.Sublist (w.debounced n) := List.filter_sublist
  obtain ⟨last,after,new⟩ : ∃ last, (w.move m).debounced n = stays ++ last ∧
      (last = [] ∨ D ≠ 0 ∧ ∃ e ∈ w.askedIn n m, last = [(e.1,e.2 + D)]) := by
    refine ⟨_,after,?_⟩
    by_cases instant : D = 0
    · exact .inl (if_pos instant)
    · rw [if_neg instant]
      rcases askedIn_cases w n m with none | ⟨e,one⟩
      · exact .inl (by rw [none]; rfl)
      · exact .inr ⟨instant,e,by rw [one]; exact List.mem_singleton_self e,by rw [one]; rfl⟩
  have once : (stays.map Prod.fst).Nodup := lined.once.sublist (fewer.map _)
  have sorted : stays.Pairwise fun a b => a.2 ≤ b.2 := lined.sorted.sublist fewer
  have bounds (e : Nat × Nat) (member : e ∈ stays) := bounds_move lined due (fewer.subset member)
  rcases new with rfl | ⟨slow,e,asked,rfl⟩
  · rw [List.append_nil] at after
    refine ⟨after ▸ once,after ▸ sorted,after ▸ bounds,fun instant => ?_⟩
    rw [after]
    simp [stays,lined.instant instant]
  · have now := now_of_asked due asked
    refine ⟨?_,?_,?_,fun instant => absurd instant slow⟩
    · rw [after,List.map_append]
      refine List.nodup_append.mpr ⟨once,by simp,fun a member b same => ?_⟩
      obtain ⟨x,waits,rfl⟩ := List.mem_map.mp member
      rw [List.map_singleton,List.mem_singleton] at same
      rw [same]
      exact debounced_unasked asked x (fewer.subset waits)
    · rw [after]
      refine List.pairwise_append.mpr ⟨sorted,List.pairwise_singleton _ _,fun a member b same => ?_⟩
      rw [List.mem_singleton.mp same,← now]
      exact (bounds a member).2
    · intro x member
      rw [after] at member
      rcases List.mem_append.mp member with waits | same
      · exact bounds x waits
      · rw [List.mem_singleton.mp same,← now]
        exact ⟨Nat.le_add_right _ _,Nat.le_refl _⟩

end World
end EditorLink
