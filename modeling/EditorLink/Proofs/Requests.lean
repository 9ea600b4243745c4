import EditorLink.Proofs.Debounce

/-! From requests to calls. An update that is requested is a new task, which comes to its first turn, waits out the
interval and calls the model; nobody overtakes another on the way, and nobody comes in from elsewhere. -/
namespace EditorLink
open World EditorLink.Action

namespace World

/-- The number of the task that is started in the move to make an update of the link. -/
def requestedIn (w : World) (n : Nat) (m : Move) : List Nat :=
  if w.requestIn m = some n then [w.tasks.length] else []

def requested (w : World) (n : Nat) : List Move → List Nat
  | [] => []
  | m :: rest => w.requestedIn n m ++ (w.move m).requested n rest

/-- The updates of the link that have not had their first turn, in the order in which they will have it. -/
def unasked (w : World) (n : Nat) : List Nat := w.schedule.ready.filter (w.fresh n)

variable {w : World} {m : Move} {moves : List Move} {n id D : Nat} {s : Setting}

/-- A request starts one task and does nothing else that matters to tasks. -/
theorem move_request (requested : w.requestIn m = some n) : ∃ label u,
    w.move m = World.spawn u label (.update n .fresh) ∧ u.tasks = w.tasks ∧ u.schedule = w.schedule ∧
      ∀ number editor text, m = .perform number (.outside (.type editor text true)) → label = none := by
  cases m with
  | perform number c =>
    cases c with
    | update name =>
      have found : w.names.lookup name = some n := requested
      refine ⟨some number,{ w with started := w.started ++ [number] },?_,rfl,rfl,nofun⟩
      exact congrArg Prod.snd (onLink_some found fun n => w.start number (.update n .fresh))
    | outside o =>
      cases o with
      | type editor text canSpawn =>
        cases canSpawn with
        | true =>
          by_cases alive : w.alive editor = true
          · refine ⟨none,{ w with widgets := w.widgets.modify editor fun x => x.type text },?_,rfl,rfl,
              fun _ _ _ _ => rfl⟩
            rw [← typeIn_request alive requested]
            simp [move,perform,change,onEditor,alive]
          · rw [requestIn,requestOf,if_neg alive] at requested
            cases requested
        | false => cases requested
      | _ => cases requested
    | _ => cases requested
  | turn _ => cases requested
  | arrive _ => cases requested

theorem move_unasked (supplied : w.Supplied) (enrolled : w.Enrolled) (unslept : w.Unslept) (due : w.Due m) :
    (w.move m).unasked n = (w.unasked n).filter ((w.move m).fresh n) ++ w.requestedIn n m := by
  by_cases requested : w.requestIn m = some n
  · obtain ⟨label,u,same,tasks,schedule,-⟩ := move_request requested
    have grown : (w.move m).tasks = w.tasks ++ [some { label, job := .update n .fresh }] := by
      rw [same,spawn,tasks]
    have ready : (w.move m).schedule.ready = w.schedule.ready ++ [w.tasks.length] := by
      have new : w.tasks.length ∉ w.schedule.ready := fun member =>
        absurd (enrolled.ready _ member) (Nat.lt_irrefl _)
      rw [same,spawn,tasks,schedule]
      simp [Schedule.wake,new]
    have old (j : Nat) (member : j ∈ w.schedule.ready) : (w.move m).fresh n j = w.fresh n j := by
      rw [fresh,fresh,phaseOf,phaseOf,grown,List.getElem?_append_left (enrolled.ready j member)]
    have new : (w.move m).fresh n w.tasks.length = true :=
      fresh_iff.mpr (phaseOf_iff.mpr ⟨label,by rw [grown]; simp⟩)
    rw [requestedIn,if_pos requested,unasked,ready,List.filter_append,unasked,List.filter_filter]
    congr 1
    · refine List.filter_congr fun j member => ?_
      rw [old j member,Bool.and_self]
    · simp [new]
  · rw [requestedIn,if_neg requested,List.append_nil]
    by_cases arrival : ∃ now, m = .arrive now
    · obtain ⟨now,rfl⟩ := arrival
      have none : w.unasked n = [] := by rw [unasked,due.1]; rfl
      rw [none,List.filter_nil,unasked,List.filter_eq_nil_iff]
      intro j member isFresh
      obtain ⟨t,set,-,own⟩ := (mem_arrive_ready due.1).mp member
      obtain ⟨label,there⟩ := phaseOf_iff.mp (fresh_iff.mp isFresh)
      exact unslept j _ there rfl trivial t set own
    · have kept (j : Nat) (isFresh : (w.move m).fresh n j = true) : m ≠ .turn j ∧ w.fresh n j = true := by
        cases phased supplied due.single (fresh_iff.mp isFresh) with
        | kept _ other before => exact ⟨other,fresh_iff.mpr before⟩
        | new beyond asked => exact absurd asked requested
      have both (j : Nat) : ((w.move m).fresh n j && w.fresh n j) = (w.move m).fresh n j := by
        cases isFresh : (w.move m).fresh n j with
        | false => rfl
        | true => rw [(kept j isFresh).2]; rfl
      obtain ⟨ready,-⟩ := places_kept due.single (fun now same => arrival ⟨now,same⟩) enrolled fun j isFresh =>
        ⟨(kept j isFresh).1,⟨_,fresh_iff.mp (kept j isFresh).2⟩,⟨_,fresh_iff.mp isFresh⟩⟩
      rw [unasked,ready,unasked,List.filter_filter]
      exact List.filter_congr fun j _ => (both j).symm

/-- A call is made in the first turn after the interval, with the text of that moment. -/
inductive CallIn (w : World) : Move → Prop
  | none (m : Move) (uncalled : w.calls m = []) : CallIn w m
  | one (id n k : Nat) (i : Interval) (phase : UpdatePhase) (known : w.phaseOf n id = some phase)
      (alive : w.isDead n = false) (interval : w.intervalOf n = some i) (model : w.modelOf n = some k)
      (due : phase = .debouncing ∨ phase = .fresh ∧ i.toMillis = 0)
      (spent : ∀ k, (w.move (.turn id)).fresh k id = false ∧ (w.move (.turn id)).debounces k id = false)
      (called : w.calls (.turn id) = [⟨id,k,w.now,w.text⟩]) : CallIn w (.turn id)

theorem unphased (ended : w.tasks[id]? = some none) (n : Nat) : w.phaseOf n id = none := by
  rw [phaseOf,ended]
  rfl

theorem calls_cases (supplied : w.Supplied) (single : m.Single) : w.CallIn m := by
  cases m with
  | turn id =>
    by_cases updating : ∃ n phase, w.phaseOf n id = some phase
    · obtain ⟨n,phase,known⟩ := updating
      obtain ⟨label,there⟩ := phaseOf_iff.mp known
      obtain ⟨i,interval,turn⟩ := updateTurn supplied there
      cases turn with
      | killed _ _ _ _ _ uncalled => exact .none _ uncalled
      | sleeps _ _ _ uncalled => exact .none _ uncalled
      | calls _ alive due k model called after =>
        refine .one id n k i phase known alive interval model due (fun j => ?_) called
        rw [fresh,debounces,move]
        rcases after with ended | ⟨text,interrupts,running⟩
        · rw [unphased ended]
          exact ⟨rfl,rfl⟩
        · have later (reached : UpdatePhase) (now : (w.turn id).phaseOf j id = some reached) :
              reached = .running text interrupts := by
            obtain ⟨label,found⟩ := phaseOf_iff.mp now
            rw [running] at found
            cases found
            rfl
          rcases now : (w.turn id).phaseOf j id with _ | reached
          · exact ⟨rfl,rfl⟩
          · rw [later reached now]
            exact ⟨rfl,rfl⟩
      | ends _ _ _ uncalled => exact .none _ uncalled
    · refine .none _ (uncalled_of_idle fun n => ?_)
      rcases known : w.phaseOf n id with _ | phase
      · rfl
      · exact absurd ⟨n,phase,known⟩ updating
  | perform number c => exact .none _ (calls_other single fun _ same => by cases same)
  | arrive now => exact .none _ (calls_other single fun _ same => by cases same)

/-- A run of which something is told that concerns the updates of one link: from a world that a script can reach,
in time, without crashes in updates, and with one interval. -/
structure Underway (s : Setting) (n D : Nat) (w : World) (moves : List Move) : Prop where
  reached : Reaches Move.Smooth s.start w
  smooth : ∀ m ∈ moves, m.Smooth
  timely : w.Timely moves
  pace : ∀ i, (w.run moves).intervalOf n = some i → i.pause = D
  lined : w.Lined n D

variable {rest : List Move}

theorem Underway.anywhere (underway : Underway s n D w moves) : Reaches (fun _ => True) s.start w :=
  underway.reached.mono fun _ _ => trivial

theorem Underway.supplied (underway : Underway s n D w moves) : w.Supplied := supplied_of_reached underway.reached

theorem Underway.enrolled (underway : Underway s n D w moves) : w.Enrolled := enrolled_of_reached underway.anywhere

theorem Underway.unslept (underway : Underway s n D w moves) : w.Unslept := unslept_of_reached underway.anywhere

theorem Underway.interval (underway : Underway s n D w moves) (i : Interval) (known : w.intervalOf n = some i) :
    i.pause = D :=
  underway.pace i (intervalOf_of_reaches (reaches_run w underway.smooth) known)

theorem Underway.due (underway : Underway s n D w (m :: rest)) : w.Due m := underway.timely.1

theorem Underway.move (underway : Underway s n D w (m :: rest)) : Underway s n D (w.move m) rest where
  reached := Frame.trans underway.reached (reaches_move w m (underway.smooth m List.mem_cons_self))
  smooth k member := underway.smooth k (List.mem_cons_of_mem m member)
  timely := underway.timely.2
  pace := underway.pace
  lined := move_lined underway.supplied underway.enrolled underway.unslept underway.lined underway.due
    underway.interval

theorem Underway.line (underway : Underway s n D w (m :: rest)) : (w.move m).debounced n =
    ((w.debounced n).filter fun e => (w.move m).debounces n e.1) ++
      if D = 0 then [] else (w.askedIn n m).map fun e => (e.1,e.2 + D) :=
  move_debounced underway.supplied underway.enrolled underway.unslept underway.lined underway.due
    underway.interval

theorem model_of_paired (paired : w.Paired) {k : Nat} (model : w.modelOf n = some k) : k = n := by
  obtain ⟨l,there,rfl⟩ := Option.map_eq_some_iff.mp model
  exact paired.2 n l there

/-- Whoever waits or asks leaves the line to make a call, or without, or stays in it. -/
theorem move_conserves (underway : Underway s n D w (m :: rest)) :
    ((((w.calls m).filter fun c => c.model = n).map fun c => (c.task,c.time)) ++
      (w.move m).debounced n).Sublist (w.debounced n ++ (w.askedIn n m).map fun e => (e.1,e.2 + D)) := by
  have line := underway.line
  have stays : ((w.move m).debounced n).Sublist (w.debounced n ++ (w.askedIn n m).map fun e => (e.1,e.2 + D)) := by
    rw [line]
    refine List.filter_sublist.append ?_
    split
    · exact List.nil_sublist _
    · exact List.Sublist.refl _
  cases calls_cases underway.supplied underway.due.single with
  | none _ uncalled =>
    rw [uncalled]
    exact stays
  | one id j k i phase known alive interval model due spent called =>
    have same : k = j := model_of_paired (paired_of_reached underway.anywhere) model
    rw [called]
    by_cases mine : k = n
    · obtain rfl : j = n := same.symm.trans mine
      obtain ⟨unfresh,left⟩ := spent j
      rw [List.filter_cons_of_pos (by simpa using mine),List.filter_nil,List.map_singleton,line]
      rcases due with rfl | ⟨rfl,instant⟩
      · obtain ⟨others,head⟩ := debounced_head underway.due (debounces_iff.mpr known)
        have none : w.askedIn j (.turn id) = [] := by
          refine if_neg fun both => ?_
          have isFresh := fresh_iff.mp (Bool.and_eq_true_iff.mp both).1
          rw [known] at isFresh
          cases isFresh
        rw [none,head,List.filter_cons_of_neg (by simp [left])]
        simp [List.filter_sublist]
      · have instant : D = 0 := (underway.interval i interval).symm.trans (Interval.pause_eq_zero.mpr instant)
        have one : w.askedIn j (.turn id) = [(id,w.now)] :=
          if_pos (by rw [fresh_iff.mpr known,alive]; rfl)
        rw [underway.lined.instant instant,one,if_pos instant,instant]
        simp
    · rw [List.filter_cons_of_neg (by simpa using mine)]
      exact stays

theorem run_conserves (underway : Underway s n D w moves) :
    ((((w.callsIn moves).filter fun c => c.model = n).map fun c => (c.task,c.time)) ++
      (w.run moves).debounced n).Sublist (w.debounced n ++ (w.asked n moves).map fun e => (e.1,e.2 + D)) := by
  induction moves generalizing w with
  | nil => simp [callsIn,asked,run]
  | cons m rest ih =>
    have first := move_conserves underway
    have later := ih underway.move
    rw [callsIn,asked,List.filter_append,List.map_append,List.map_append,List.append_assoc]
    refine (later.append_left _).trans ?_
    rw [← List.append_assoc,← List.append_assoc]
    exact first.append_right _

theorem move_asks (underway : Underway s n D w (m :: rest)) :
    ((w.askedIn n m).map Prod.fst ++ (w.move m).unasked n).Sublist (w.unasked n ++ w.requestedIn n m) := by
  have queue := move_unasked (n := n) underway.supplied underway.enrolled underway.unslept underway.due
  rcases askedIn_cases w n m with none | ⟨e,one⟩
  · rw [none,queue]
    exact List.filter_sublist.append (List.Sublist.refl _)
  · obtain ⟨rfl,isFresh,-,-⟩ := mem_askedIn (show e ∈ w.askedIn n m by rw [one]; exact List.mem_singleton_self e)
    obtain ⟨others,ready⟩ := List.head?_eq_some_iff.mp (show w.schedule.ready.head? = some e.1 from underway.due)
    have head : w.unasked n = e.1 :: others.filter (w.fresh n) := by
      rw [unasked,ready,List.filter_cons_of_pos isFresh]
    have turned : (w.move (.turn e.1)).fresh n e.1 = false := by
      refine Bool.eq_false_iff.mpr fun still => ?_
      cases phased underway.supplied underway.due.single (fresh_iff.mp still) with
      | kept _ other => exact other rfl
      | new beyond => exact absurd (known_of_phase (fresh_iff.mp isFresh)) (Nat.not_lt.mpr beyond)
    rw [one,queue,head,List.filter_cons_of_neg (by simp [turned])]
    exact (List.filter_sublist.append (List.Sublist.refl _)).cons_cons _

/-- Updates come to their first turns in the order in which they were requested. -/
theorem run_asks (underway : Underway s n D w moves) :
    ((w.asked n moves).map Prod.fst ++ (w.run moves).unasked n).Sublist (w.unasked n ++ w.requested n moves) := by
  induction moves generalizing w with
  | nil => simp [asked,requested,run]
  | cons m rest ih =>
    have first := move_asks underway
    have later := ih underway.move
    rw [asked,requested,List.map_append,List.append_assoc]
    refine (later.append_left _).trans ?_
    rw [← List.append_assoc,← List.append_assoc]
    exact first.append_right _

theorem move_size (single : m.Single) : w.tasks.length ≤ (w.move m).tasks.length := by
  cases m with
  | perform number c => exact (perform_wakes w number c fun ms same => single number ms (by rw [same])).size
  | turn id =>
    obtain ⟨v,wakes,-,-,size⟩ := turn_wakes w id
    rw [move,size]
    exact wakes.size
  | arrive now => exact Nat.le_refl _

/-- Later requests have greater numbers. -/
theorem requested_ascending (timely : w.Timely moves) :
    (w.requested n moves).Pairwise (· < ·) ∧ ∀ id ∈ w.requested n moves, w.tasks.length ≤ id := by
  induction moves generalizing w with
  | nil => exact ⟨.nil,nofun⟩
  | cons m rest ih =>
    obtain ⟨ascending,beyond⟩ := ih timely.2
    have onward : w.tasks.length ≤ (w.move m).tasks.length := move_size timely.1.single
    rw [requested,requestedIn]
    split
    · rename_i now
      obtain ⟨label,u,same,tasks,-,-⟩ := move_request now
      have grown : (w.move m).tasks.length = w.tasks.length + 1 := by rw [same,spawn,← tasks]; simp
      refine ⟨List.pairwise_cons.mpr ⟨fun id member => ?_,ascending⟩,fun id member => ?_⟩
      · have later := beyond id member
        omega
      · rcases List.mem_cons.mp member with rfl | member
        · exact Nat.le_refl _
        · exact Nat.le_trans onward (beyond id member)
    · exact ⟨ascending,fun id member => Nat.le_trans onward (beyond id member)⟩

end World
end EditorLink
