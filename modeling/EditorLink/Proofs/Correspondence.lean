import EditorLink.Proofs.Answers

/-! Requests and calls correspond: the calls of a link's model are the answers to the updates that were asked for,
one each and in order, one interval later, and with the text of that moment. -/
namespace EditorLink
open World EditorLink.Action

namespace World

variable {w : World} {m : Move} {moves : List Move} {n id D : Nat} {s : Setting}

theorem run_begun (underway : Underway s n D w moves) :
    (w.run moves).updatesBegun = w.updatesBegun + (w.callsIn moves).length := by
  induction moves generalizing w with
  | nil => rfl
  | cons m rest ih =>
    have begun := move_begun underway.supplied underway.due.single
    have later : ((w.move m).run rest).updatesBegun = _ := ih underway.move
    rw [callsIn,List.length_append,← Nat.add_assoc,← begun]
    exact later

theorem call_text (underway : Underway s n D w moves) {c : Call} (called : c ∈ w.callsIn moves) :
    ∃ first rest, moves = first ++ .turn c.task :: rest ∧ c.time = (w.run first).now ∧
      c.text = (w.run first).text := by
  induction moves generalizing w with
  | nil => cases called
  | cons m rest ih =>
    rcases List.mem_append.mp called with now | later
    · cases calls_cases underway.supplied underway.due.single with
      | none _ uncalled =>
        rw [uncalled] at now
        cases now
      | one id k _ _ _ _ _ _ _ _ _ same =>
        rw [same] at now
        obtain rfl := List.mem_singleton.mp now
        exact ⟨[],rest,rfl,rfl,rfl⟩
    · obtain ⟨first,others,split,time,text⟩ := ih underway.move later
      exact ⟨m :: first,others,by rw [split]; rfl,time,text⟩

/-- An update that its model is at work on was called. -/
theorem called_of_running {text : String} {interrupts : Nat} (underway : Underway s n D w moves)
    (running : (w.run moves).phaseOf n id = some (.running text interrupts)) :
    w.phaseOf n id = some (.running text interrupts) ∨
      ∃ c ∈ w.callsIn moves, c.task = id ∧ c.model = n := by
  induction moves generalizing w with
  | nil => exact .inl running
  | cons m rest ih =>
    rcases ih underway.move running with before | ⟨c,called,same⟩
    · cases phased underway.supplied underway.due.single before with
      | kept _ _ before => exact .inl before
      | begun _ _ _ called =>
        obtain ⟨c,one,task,model⟩ := called
        have own := model_of_paired (paired_of_reached underway.anywhere) model
        exact .inr ⟨c,List.mem_append_left _ (one ▸ List.mem_singleton_self c),task,own⟩
    · exact .inr ⟨c,List.mem_append_right _ called,same⟩

/-- The clock does not move on before a new update has had its first turn. -/
theorem turn_of_unasked (underway : Underway s n D w moves)
    (there : w.tasks[id]? = some (some { label := none, job := .update n .fresh })) (queued : id ∈ w.unasked n)
    (later : w.now < (w.run moves).now) : ∃ first rest, moves = first ++ .turn id :: rest ∧
      (w.run first).now = w.now ∧
      (w.run first).tasks[id]? = some (some { label := none, job := .update n .fresh }) := by
  induction moves generalizing w with
  | nil => exact absurd later (Nat.lt_irrefl _)
  | cons m rest ih =>
    by_cases own : m = .turn id
    · exact ⟨[],rest,by rw [own]; rfl,rfl,there⟩
    · have ready : id ∈ w.schedule.ready := (List.mem_filter.mp queued).1
      have still (now : Nat) : m ≠ .arrive now := by
        rintro rfl
        rw [underway.due.1] at ready
        cases ready
      have now : (w.move m).now = w.now := move_now underway.due.single still
      have after : (w.move m).tasks[id]? = some (some { label := none, job := .update n .fresh }) := by
        rcases move_others underway.due.single there own with same | ⟨t,label,_,same,labelled,-⟩
        · exact same
        · cases same
          cases labelled
      have queue : id ∈ (w.move m).unasked n := by
        rw [move_unasked underway.supplied underway.enrolled underway.unslept underway.due]
        refine List.mem_append_left _ (List.mem_filter.mpr ⟨queued,?_⟩)
        exact fresh_iff.mpr (phaseOf_iff.mpr ⟨none,after⟩)
      obtain ⟨first,others,split,time,found⟩ := ih underway.move after queue (by rw [now]; exact later)
      exact ⟨m :: first,others,by rw [split]; rfl,time.trans now,found⟩

/-- Nobody can drop the task. -/
def Unlabelled (w : World) (id : Nat) : Prop :=
  id < w.tasks.length ∧ ∀ t, w.tasks[id]? = some (some t) → t.label = none

theorem move_unlabelled (single : m.Single) (unlabelled : w.Unlabelled id) : (w.move m).Unlabelled id := by
  obtain ⟨known,none⟩ := unlabelled
  refine ⟨Nat.lt_of_lt_of_le known (move_size single),fun t there => ?_⟩
  cases move_stems single there with
  | old _ _ _ before => exact none t before
  | paused _ u job before => exact none u before
  | aborted _ _ u label before => exact none u before
  | called _ _ _ _ _ new => exact absurd known (Nat.not_lt.mpr new)
  | typed => rfl
  | stop => rfl

theorem run_unlabelled (timely : w.Timely moves) (unlabelled : w.Unlabelled id) : (w.run moves).Unlabelled id := by
  induction moves generalizing w with
  | nil => exact unlabelled
  | cons m rest ih => exact ih timely.2 (move_unlabelled timely.1.single unlabelled)

theorem uncut_of_unlabelled (single : m.Single) (unlabelled : w.Unlabelled id) (waits : w.debounces n id = true) :
    ¬ (w.move m).Cut id := by
  rintro ⟨t,there,aborted⟩
  obtain ⟨label,before⟩ := phaseOf_iff.mp (debounces_iff.mp waits)
  by_cases own : m = .turn id
  · subst own
    obtain ⟨u,_,-,active,same,-⟩ := turn_here there
    rw [same] at aborted
    exact absurd (active.symm.trans aborted) nofun
  · rcases move_others single before own with same | ⟨u,name,_,same,labelled,-⟩
    · rw [there] at same
      cases same
      cases aborted
    · cases same
      rw [unlabelled.2 _ before] at labelled
      cases labelled

/-- The link is alive until the clock has passed the time. -/
def LivesUntil (w : World) (n time : Nat) (moves : List Move) : Prop :=
  ∀ first rest, moves = first ++ rest → (w.run first).now ≤ time → (w.run first).isDead n = false

/-- Input that reaches the link is answered one pause later with the text of that moment, unless the link is killed
before. -/
theorem input_answered {number editor : Nat} {text : String} {rest : List Move}
    (underway : Underway s n D w (.perform number (.outside (.type editor text true)) :: rest))
    (reaches : w.requestOf (.outside (.type editor text true)) = some n)
    (later : w.now + D < (w.run (.perform number (.outside (.type editor text true)) :: rest)).now)
    (lives : w.LivesUntil n (w.now + D) (.perform number (.outside (.type editor text true)) :: rest)) :
    ∃ c ∈ w.callsIn (.perform number (.outside (.type editor text true)) :: rest),
      c.task = w.tasks.length ∧ c.model = n ∧ c.time = w.now + D := by
  generalize typed : Move.perform number (.outside (.type editor text true)) = m at *
  have asks : w.requestIn m = some n := typed ▸ reaches
  have paired : w.Paired := paired_of_reached underway.anywhere
  obtain ⟨label,u,same,tasks,schedule,unnamed⟩ := move_request asks
  obtain rfl := unnamed number editor text typed.symm
  have there : (w.move m).tasks[w.tasks.length]? = some (some { label := none, job := .update n .fresh }) := by
    rw [same,spawn,tasks]
    simp
  have isFresh := fresh_iff.mpr (phaseOf_iff.mpr ⟨none,there⟩)
  have queued : w.tasks.length ∈ (w.move m).unasked n := by
    rw [move_unasked underway.supplied underway.enrolled underway.unslept underway.due,requestedIn,if_pos asks]
    exact List.mem_append_right _ (List.mem_singleton_self _)
  have now : (w.move m).now = w.now := move_now underway.due.single fun time moved => by
    rw [← typed] at moved
    cases moved
  have later : w.now + D < ((w.move m).run rest).now := later
  obtain ⟨first,others,whole,time,found⟩ := turn_of_unasked underway.move there queued (by omega)
  have turns : Underway s n D ((w.move m).run first) (.turn w.tasks.length :: others) := by
    have after := underway.move
    rw [whole] at after
    exact after.after
  have alive (before after : List Move) (same : rest = before ++ after)
      (early : ((w.move m).run before).now ≤ w.now + D) : ((w.move m).run before).isDead n = false :=
    lives (m :: before) after (by rw [same]; rfl) early
  have asked : (w.tasks.length,w.now) ∈ ((w.move m).run first).asked n (.turn w.tasks.length :: others) := by
    refine List.mem_append_left _ ?_
    have living := alive first _ whole (by omega)
    have new := fresh_iff.mpr (phaseOf_iff.mpr ⟨none,found⟩)
    rw [askedIn,new,living,time,now]
    exact List.mem_singleton_self _
  have unlabelled : ((w.move m).run first).Unlabelled w.tasks.length := by
    refine ⟨(List.getElem?_eq_some_iff.mp found).1,fun t other => ?_⟩
    rw [found] at other
    cases other
    rfl
  have onward (more tail : List Move) (same : .turn w.tasks.length :: others = more ++ tail) :
      rest = (first ++ more) ++ tail := by rw [whole,same,List.append_assoc]
  cases fate_of_asked turns asked with
  | waits _ early =>
    rw [whole,run_append] at later
    exact absurd early (Nat.not_le.mpr later)
  | dropped more k tail split there _ cut =>
    have timely := turns.timely
    rw [split,timely_append] at timely
    exact absurd cut (uncut_of_unlabelled timely.2.1.single (run_unlabelled timely.1 unlabelled) there)
  | killed more tail split due dead =>
    have living := alive (first ++ more) _ (onward _ _ split) (by rw [run_append]; exact Nat.le_of_eq due)
    rw [run_append,dead] at living
    cases living
  | called more tail split due _ k model call =>
    have after : Underway s n D (((w.move m).run first).run more) (.turn w.tasks.length :: tail) := by
      have turns := turns
      rw [split] at turns
      exact turns.after
    have own := model_of_paired (paired_of_reached after.anywhere) model
    have later := List.mem_append_right (((w.move m).callsIn first)) call
    rw [← callsIn_append] at later
    exact ⟨_,List.mem_append_right _ (by rwa [← whole] at later),rfl,own,rfl⟩

/-- The calls of the model of the link. -/
def callsOf (w : World) (n : Nat) (moves : List Move) : List Call :=
  (w.callsIn moves).filter fun c => (w.run moves).modelOf n = some c.model

/-- The updates of a link are answered with calls of its model: one each, in order, `D` after they were asked for
and with the text of that moment, and with no call where they are dropped or the link is killed before. No other
call is made. -/
structure Answered (w : World) (n D : Nat) (moves : List Move) : Prop where
  model : ∀ first rest k, moves = first ++ rest → (w.run first).modelOf n = some k →
    (w.run moves).modelOf n = some k
  ascending : (w.requested n moves).Pairwise (· < ·)
  requests : ((w.asked n moves).map Prod.fst).Sublist (w.requested n moves)
  calls : ((w.callsOf n moves).map fun c => (c.task,c.time)).Sublist
    ((w.asked n moves).map fun e => (e.1,e.2 + D))
  fates : ∀ e ∈ w.asked n moves, w.Fate n moves e.1 (e.2 + D)
  texts : ∀ c ∈ w.callsOf n moves, ∃ first rest, moves = first ++ .turn c.task :: rest ∧
    c.time = (w.run first).now ∧ c.text = (w.run first).text
  others : ∀ first rest id label phase, moves = first ++ .turn id :: rest →
    (w.run first).tasks[id]? = some (some { label, job := .update n phase }) →
    ((w.run first).turn id).tasks[id]? = some none →
    (∃ c ∈ w.callsOf n moves, c.task = id) ∨ (w.run first).ReturnsKilled n id
  only : (w.run moves).updatesBegun = (w.callsIn moves).length
  input : ∀ first rest number editor text,
    moves = first ++ .perform number (.outside (.type editor text true)) :: rest →
    (w.run first).requestOf (.outside (.type editor text true)) = some n →
    (w.run first).now + D < (w.run moves).now →
    (w.run first).LivesUntil n ((w.run first).now + D) (.perform number (.outside (.type editor text true)) :: rest) →
    ∃ c ∈ w.callsOf n moves, c.task = (w.run first).tasks.length ∧ c.time = (w.run first).now + D ∧
      (((w.run first).move (.perform number (.outside (.type editor text true)))).requested n rest = [] →
        (w.callsOf n moves).getLast? = some c)

theorem getLast?_of_greatest {calls : List Call} {c : Call} (ascending : (calls.map Call.task).Pairwise (· < ·))
    (member : c ∈ calls) (greatest : ∀ b ∈ calls, b.task ≤ c.task) : calls.getLast? = some c := by
  obtain ⟨before,after,rfl⟩ := List.append_of_mem member
  cases after with
  | nil => simp
  | cons b after =>
    rw [List.map_append,List.pairwise_append,List.map_cons,List.map_cons] at ascending
    have greater : c.task < b.task := List.rel_of_pairwise_cons ascending.2.1 List.mem_cons_self
    have least := greatest b (by simp)
    omega

theorem Underway.requests (underway : Underway s n D s.start moves) :
    ((s.start.asked n moves).map Prod.fst).Sublist (s.start.requested n moves) :=
  (List.sublist_append_left _ _).trans (run_asks underway)

theorem callsOf_eq (model : (w.run moves).modelOf n = some n) :
    w.callsOf n moves = (w.callsIn moves).filter fun c => c.model = n := by
  refine List.filter_congr fun c _ => ?_
  rw [model]
  exact decide_eq_decide.mpr (Option.some_inj.trans eq_comm)

theorem Underway.calls (underway : Underway s n D s.start moves) (model : (s.start.run moves).modelOf n = some n) :
    ((s.start.callsOf n moves).map fun c => (c.task,c.time)).Sublist
      ((s.start.asked n moves).map fun e => (e.1,e.2 + D)) := by
  rw [callsOf_eq model]
  exact (List.sublist_append_left _ _).trans (run_conserves underway)

theorem Underway.tasks (underway : Underway s n D s.start moves) (model : (s.start.run moves).modelOf n = some n) :
    ((s.start.callsOf n moves).map Call.task).Sublist (s.start.requested n moves) := by
  have tasks := (underway.calls model).map Prod.fst
  rw [List.map_map,List.map_map] at tasks
  exact tasks.trans underway.requests

/-- An update that ends was called or found its link dead. -/
theorem end_answered {first rest : List Move} {label : Option Nat} {phase : UpdatePhase}
    (underway : Underway s n D s.start (first ++ .turn id :: rest))
    (model : (s.start.run (first ++ .turn id :: rest)).modelOf n = some n)
    (there : (s.start.run first).tasks[id]? = some (some { label, job := .update n phase }))
    (ended : ((s.start.run first).turn id).tasks[id]? = some none) :
    (∃ c ∈ s.start.callsOf n (first ++ .turn id :: rest), c.task = id) ∨
      (s.start.run first).ReturnsKilled n id := by
  rw [callsOf_eq model,callsIn_append]
  have called (c : Call) (own : c.task = id) (same : c.model = n)
      (member : c ∈ s.start.callsIn first ++ (s.start.run first).callsIn (.turn id :: rest)) :
      ∃ c ∈ (s.start.callsIn first ++ (s.start.run first).callsIn (.turn id :: rest)).filter fun c => c.model = n,
        c.task = id :=
    ⟨c,List.mem_filter.mpr ⟨member,decide_eq_true same⟩,own⟩
  have onward := underway.after
  obtain ⟨i,interval,turn⟩ := updateTurn onward.supplied there
  cases turn with
  | killed _ _ _ ran => exact .inr ⟨label,phase,there,ran⟩
  | sleeps _ _ turned =>
    have slept : ((s.start.run first).turn id).tasks[id]? =
        some (some { label, job := .update n .debouncing }) := by
      rw [turned]
      exact conclude_paused there label _
    rw [ended] at slept
    cases slept
  | calls _ _ _ k same call =>
    have own := model_of_paired (paired_of_reached onward.anywhere) same
    have member : ⟨id,k,(s.start.run first).now,(s.start.run first).text⟩ ∈ (s.start.run first).calls (.turn id) := by
      rw [call]
      exact List.mem_singleton_self _
    exact .inl (called ⟨id,k,_,_⟩ rfl own (List.mem_append_right _ (List.mem_append_left _ member)))
  | ends text interrupts =>
    rcases called_of_running underway.before (phaseOf_iff.mpr ⟨label,there⟩) with before | ⟨c,member,own,same⟩
    · cases before
    · exact .inl (called c own same (List.mem_append_left _ member))

theorem start_lined (s : Setting) : s.start.Lined n D where
  once := .nil
  sorted := .nil
  bounds := nofun
  instant _ := rfl

end World

open World in
/-- The requests for updates of a link and the calls of its model correspond, whatever callers do. Neither
the accessor of the text nor the update itself is made to crash (`Smooth`); everything else may crash. Time goes
by as it does for tasks, and those that are ready take turns in the order of their arrival (`Timely`): so calls
of one instant come in the order of their requests. Between a request and its call lies the interval of the
model, or thirty years if the interval is longer, for no timer is set for more. -/
theorem updates_are_answered (s : Setting) (moves : List Move) (smooth : ∀ m ∈ moves, m.Smooth)
    (timely : s.start.Timely moves) (n d : Nat)
    (interval : (s.start.run moves).intervalOf n = some (.millis d)) :
    s.start.Answered n (min d Schedule.longestSleep) moves := by
  have underway : Underway s n (min d Schedule.longestSleep) s.start moves :=
    { reached := Frame.refl _
      smooth
      timely
      pace := fun i known => by
        rw [interval] at known
        cases known
        rfl
      lined := start_lined s }
  have reached : Reaches (fun _ => True) s.start (s.start.run moves) := reaches_run s.start fun _ _ => trivial
  have model : (s.start.run moves).modelOf n = some n := by
    obtain ⟨k,same,-⟩ := Option.bind_eq_some_iff.mp interval
    rw [same,model_of_paired (paired_of_reached reached) same]
  have ascending := (requested_ascending (n := n) timely).1
  refine
    { model := fun first rest k split same => ?_
      ascending
      requests := underway.requests
      calls := underway.calls model
      fates := fun e => fate_of_asked underway
      texts := fun c member => call_text underway (List.mem_filter.mp member).1
      others := fun first rest id label phase split there ended => ?_
      only := (run_begun underway).trans (Nat.zero_add _)
      input := fun first rest number editor text split reaches later lives => ?_ }
  · have early : Reaches (fun _ => True) s.start (s.start.run first) := reaches_run s.start fun _ _ => trivial
    rw [model,model_of_paired (paired_of_reached early) same]
  · subst split
    exact end_answered underway model there ended
  · subst split
    rw [run_append] at later
    obtain ⟨c,member,own,same,time⟩ := input_answered underway.after reaches later lives
    have called : c ∈ s.start.callsOf n (first ++ .perform number (.outside (.type editor text true)) :: rest) := by
      rw [callsOf_eq model,callsIn_append]
      exact List.mem_filter.mpr ⟨List.mem_append_right _ member,decide_eq_true same⟩
    refine ⟨c,called,own,time,fun none => ?_⟩
    have tasks := underway.tasks model
    refine getLast?_of_greatest (ascending.sublist tasks) called fun b other => ?_
    have requested := tasks.subset (List.mem_map_of_mem other)
    have asks : (s.start.run first).requestedIn n (.perform number (.outside (.type editor text true))) =
        [(s.start.run first).tasks.length] := if_pos reaches
    rw [requested_append,World.requested,none,asks,List.append_nil] at requested ascending
    rw [own]
    rcases List.mem_append.mp requested with before | here
    · exact Nat.le_of_lt ((List.pairwise_append.mp ascending).2.2 _ before _ (List.mem_singleton_self _))
    · exact Nat.le_of_eq (List.mem_singleton.mp here)

/-- An update is asked for at the start, and input asks for another while the first one waits. -/
def twoRequests : List Move :=
  [.perform 0 (.create "a" 0),.turn 0,.turn 1,.turn 0,.perform 1 (.update "a"),.turn 2,.arrive 20,
    .perform 2 (.outside (.type 0 "x" true)),.turn 3,.arrive 50,.turn 2,.arrive 70,.turn 3,.arrive 71]

theorem two_requests_are_answered :
    ({} : Setting).start.Timely twoRequests ∧
      (({} : Setting).start.run twoRequests).intervalOf 0 = some (.millis 50) ∧
      ({} : Setting).start.requested 0 twoRequests = [2,3] ∧
      ({} : Setting).start.callsOf 0 twoRequests = [⟨2,0,50,"x"⟩,⟨3,0,70,"x"⟩] ∧
      ({} : Setting).start.Answered 0 50 twoRequests := by
  have smooth : ∀ m ∈ twoRequests, m.Smooth := by simp [twoRequests,Move.Smooth,Move.Spares]
  have timely : ({} : Setting).start.Timely twoRequests := by decide
  exact ⟨timely,rfl,rfl,rfl,updates_are_answered {} twoRequests smooth timely 0 50 rfl⟩

/-- The model's interval is longer than thirty years. -/
def patientSetting : Setting where
  blueprint := { interval := .millis 1000000000000 }

def thirtyYears : List Move :=
  [.perform 0 (.create "a" 0),.turn 0,.turn 1,.turn 0,.perform 1 (.update "a"),.turn 2,.arrive 946080000000,.turn 2]

/-- A longer interval than thirty years is cut to that. -/
theorem patient_model_is_called_early :
    (∀ m ∈ thirtyYears, m.Smooth) ∧ patientSetting.start.Timely thirtyYears ∧
      (patientSetting.start.run thirtyYears).intervalOf 0 = some (.millis 1000000000000) ∧
      patientSetting.start.asked 0 thirtyYears = [(2,0)] ∧
      patientSetting.start.callsOf 0 thirtyYears = [⟨2,0,946080000000,""⟩] ∧
      ¬ patientSetting.start.Answered 0 1000000000000 thirtyYears := by
  have smooth : ∀ m ∈ thirtyYears, m.Smooth := by simp [thirtyYears,Move.Smooth,Move.Spares]
  have calls : patientSetting.start.callsOf 0 thirtyYears = [⟨2,0,946080000000,""⟩] := by rfl
  have asked : patientSetting.start.asked 0 thirtyYears = [(2,0)] := by rfl
  refine ⟨smooth,by decide,rfl,asked,calls,fun answered => ?_⟩
  have late := answered.calls
  rw [calls,asked] at late
  revert late
  decide

end EditorLink
