import EditorLink.Proofs.Minding
import EditorLink.Proofs.Stage
import EditorLink.Proofs.Timely
import EditorLink.Proofs.Uncaching

/-! Calls for clearing a cache that overlap: each one starts a stop attempt while the one before still waits
for its own, which is superseded so. A call whose attempt is superseded comes to nothing. -/
namespace EditorLink
open World EditorLink.Action

/-- No collaborator crashes, the one editor stays, and stop attempts are started only where tasks can run. -/
def Move.Tranquil (m : Move) : Prop := m.Steady ∧ m.Serene

theorem Move.Internal.tranquil {m : Move} (internal : m.Internal) : m.Tranquil :=
  ⟨internal.steady,internal.serene⟩

/-- A call for clearing a cache: its task, the number that it is reported with, and what happens after its
first turn and before that of the next call. -/
structure CacheCall where
  task : Nat
  label : Nat
  after : List Move

def CacheCall.moves (c : CacheCall) : List Move := .turn c.task :: c.after

def movesOf (calls : List CacheCall) : List Move := calls.flatMap CacheCall.moves

theorem movesOf_concat (first : List CacheCall) (last : CacheCall) :
    movesOf (first ++ [last]) = movesOf first ++ last.moves := by simp [movesOf]

theorem movesOf_cons (c : CacheCall) (rest : List CacheCall) : movesOf (c :: rest) = c.moves ++ movesOf rest :=
  List.flatMap_cons

namespace World

/-- At every moment of the way. -/
def Throughout (w : World) (moves : List Move) (P : World → Prop) : Prop :=
  ∀ first rest, moves = first ++ rest → P (w.run first)

/-- The attempt is the last one of the link, and nobody has cancelled it. -/
def InForce (w : World) (n p : Nat) : Prop := w.stopOf n = some p ∧ w.isCancelled p = false

/-- The call has not come to its end. It has yet to start an attempt, or waits for the one with the number. -/
def Calling (w : World) (c : CacheCall) (n : Nat) (stop : Option Nat) : Prop :=
  w.tasks[c.task]? = some (some { label := some c.label, job := .uncache n stop })

instance (w : World) (n p : Nat) : Decidable (w.InForce n p) :=
  inferInstanceAs (Decidable (w.stopOf n = some p ∧ w.isCancelled p = false))

/-- Nobody has dropped the task. -/
def Undropped (w : World) (id : Nat) : Prop := ∀ t, w.tasks[id]? = some (some t) → t.aborted = false

instance (w : World) (id : Nat) : Decidable (w.Undropped id) :=
  decidable_of_iff (w.tasks[id]?.join.all fun t => !t.aborted) (by
    rw [Undropped]
    rcases w.tasks[id]? with _ | _ | t <;> simp)

/-- The call starts an attempt, and until the next call does nobody else starts one or cancels this one. -/
structure Prevails (w : World) (n : Nat) (c : CacheCall) : Prop where
  calling : w.Calling c n none
  inForce : (w.turn c.task).Throughout c.after fun v => v.InForce n w.promises.length

/-- The calls begin one after the other, and each but the last still waits when the next one begins. -/
def Overlapping (n : Nat) (last : CacheCall) : World → List CacheCall → Prop
  | w,[] => w.Prevails n last
  | w,c :: rest => w.Prevails n c ∧ (w.run c.moves).Calling c n (some w.promises.length) ∧
      Overlapping n last (w.run c.moves) rest

/-- In one of the moves the call comes to its end with this. -/
def Returns (w : World) (moves : List Move) (c : CacheCall) (n : Nat) (r : Report) : Prop :=
  ∃ first rest p, moves = first ++ .turn c.task :: rest ∧ (w.run first).Calling c n (some p) ∧
    ((w.run first).turn c.task).tasks[c.task]? = some none ∧
    ((w.run first).turn c.task).events = (w.run first).events ++ [⟨(w.run first).now,c.label,r⟩]

variable {v w : World} {m : Move} {moves first rest : List Move} {P : World → Prop} {c d : CacheCall} {n p : Nat}
  {stop : Option Nat} {r : Report}

theorem Throughout.here (throughout : w.Throughout moves P) : P w := throughout [] moves rfl

theorem Throughout.next (throughout : w.Throughout (m :: moves) P) : (w.move m).Throughout moves P :=
  fun first rest same => throughout (m :: first) rest (by rw [same]; rfl)

theorem throughout_nil : w.Throughout [] P ↔ P w := by
  refine ⟨Throughout.here,fun here first rest same => ?_⟩
  rw [(List.append_eq_nil_iff.mp same.symm).1]
  exact here

theorem throughout_cons : w.Throughout (m :: moves) P ↔ P w ∧ (w.move m).Throughout moves P := by
  refine ⟨fun throughout => ⟨throughout.here,throughout.next⟩,fun both first rest same => ?_⟩
  cases first with
  | nil => exact both.1
  | cons k first =>
    obtain ⟨rfl,others⟩ := List.cons_eq_cons.mp same
    exact both.2 first rest others

instance decideThroughout [DecidablePred P] (w : World) : (moves : List Move) → Decidable (w.Throughout moves P)
  | [] => decidable_of_iff (P w) throughout_nil.symm
  | m :: rest =>
    have := decideThroughout (w.move m) rest
    decidable_of_iff (P w ∧ (w.move m).Throughout rest P) throughout_cons.symm

theorem Throughout.before (throughout : w.Throughout (first ++ rest) P) : w.Throughout first P :=
  fun more others same => throughout more (others ++ rest) (by rw [same,List.append_assoc])

theorem Throughout.after (throughout : w.Throughout (first ++ rest) P) : (w.run first).Throughout rest P := by
  intro more others same
  rw [← run_append]
  exact throughout (first ++ more) others (by rw [same,List.append_assoc])

theorem Returns.later (returns : (w.run first).Returns rest c n r) : w.Returns (first ++ rest) c n r := by
  obtain ⟨more,others,p,same,calling,ended,said⟩ := returns
  rw [← run_append] at calling ended said
  exact ⟨first ++ more,others,p,by rw [same,List.append_assoc],calling,ended,said⟩

theorem Returns.next (returns : (w.move m).Returns moves c n r) : w.Returns (m :: moves) c n r := by
  have later : (w.run [m]).Returns moves c n r := returns
  exact later.later

theorem now_mono (paced : w.Paced moves) : w.now ≤ (w.run moves).now := by
  induction moves generalizing w with
  | nil => exact Nat.le_refl _
  | cons m rest ih =>
    refine Nat.le_trans ?_ (ih paced.2)
    by_cases arrival : ∃ now, m = .arrive now
    · obtain ⟨now,rfl⟩ := arrival
      rw [move_arrive_now]
      exact paced.1.2.1
    · exact Nat.le_of_eq (move_now paced.1.single fun now same => arrival ⟨now,same⟩).symm

theorem run_ended {id : Nat} (paced : w.Paced moves) (ended : w.tasks[id]? = some none) :
    (w.run moves).tasks[id]? = some none := by
  induction moves generalizing w with
  | nil => exact ended
  | cons m rest ih => exact ih paced.2 (move_ended paced.1.single ended)

theorem Reaches.steadily (reached : Reaches Move.Tranquil v w) : Reaches Move.Steady v w :=
  reached.mono fun _ tranquil => tranquil.1

theorem Reaches.serenely (reached : Reaches Move.Tranquil v w) : Reaches Move.Serene v w :=
  reached.mono fun _ tranquil => tranquil.2

theorem Calling.unended (calling : w.Calling c n stop) : w.tasks[c.task]? ≠ some none := by
  rw [Calling] at calling
  simp [calling]

/-- A call goes on for as long as it gets no turn. -/
theorem calling_move (single : m.Single) (calling : w.Calling c n stop) (other : m ≠ .turn c.task)
    (undropped : (w.move m).Undropped c.task) : (w.move m).Calling c n stop := by
  rcases move_others single calling other with same | ⟨t,_,_,-,-,-,aborted⟩
  · exact same
  · cases undropped _ aborted

/-- A call that has an answer to take is ready for its turn. -/
theorem ready_of_answered (alert : w.Alert) (calling : w.Calling c n (some p))
    (answered : w.promises[p]?.bind Promise.answer? ≠ none) : c.task ∈ w.schedule.ready := by
  rcases (alert c.task _ n p calling rfl).2 with ready | ⟨x,there,unanswered,-⟩
  · exact ready
  · rw [there,Option.bind_some] at answered
    exact absurd unanswered answered

/-- Before it has taken its answer the clock stands still. -/
theorem now_of_answered (alert : w.Alert) (calling : w.Calling c n (some p))
    (answered : w.promises[p]?.bind Promise.answer? ≠ none) (ripe : w.Ripe m) : (w.move m).now = w.now := by
  have ready := ready_of_answered alert calling answered
  refine move_now ripe.single ?_
  rintro now rfl
  rw [ripe.1] at ready
  cases ready

theorem answer_of_cancelled (gone : w.isCancelled p = true) : w.promises[p]?.bind Promise.answer? = some none := by
  obtain ⟨x,there,cancelled⟩ := (Option.any_eq_true _ _).mp gone
  rw [there,Option.bind_some,Promise.answer?,if_pos cancelled]

theorem answered_of_cancelled (gone : w.isCancelled p = true) : w.promises[p]?.bind Promise.answer? ≠ none := by
  simp [answer_of_cancelled gone]

theorem Overlapping.last {earlier : List CacheCall} (overlapping : Overlapping n d w earlier) :
    (w.run (movesOf earlier)).Prevails n d := by
  induction earlier generalizing w with
  | nil => exact overlapping
  | cons c rest ih =>
    rw [movesOf_cons,run_append]
    exact ih overlapping.2.2

theorem Overlapping.begins {earlier : List CacheCall} (overlapping : Overlapping n d w earlier) :
    ∃ c rest, movesOf (earlier ++ [d]) = .turn c.task :: rest ∧ w.Calling c n none := by
  cases earlier with
  | nil => exact ⟨d,_,rfl,overlapping.calling⟩
  | cons c rest => exact ⟨c,_,rfl,overlapping.1.calling⟩

end World

/-- What a call comes to whose attempt is superseded. -/
def Report.superseded : Report := .failed (.uncache LinkError.superseded.message)

namespace World

variable {s : Setting} {v w : World} {m : Move} {moves : List Move} {c d : CacheCall} {n p : Nat} {stop : Option Nat}

theorem known_of_calling (reached : Reaches Move.Serene s.start w) (calling : w.Calling c n stop) :
    ∃ l, w.links[n]? = some l := by
  have calmly : Reaches Move.Calm s.start w := reached.mono fun _ serene => serene.1
  have known := (unharmed_of_reached (calmly.mono fun _ calm => calm .factory)).holds n (held_of_task calling rfl)
  exact ⟨_,List.getElem?_eq_getElem known⟩

theorem later_of_reached (before : Reaches Move.Serene s.start v) (reached : Reaches Move.Serene v w) :
    Later v w := by
  have spares (m : Move) (serene : m.Serene) : m.Spares .factory := serene.1 .factory
  exact (reaches_course (reached.mono spares) (unharmed_of_reached (before.mono spares))).2

theorem alive_before (before : Reaches Move.Serene s.start v) (reached : Reaches Move.Serene v w)
    (alive : w.isDead n = false) : v.isDead n = false := by
  rw [← Bool.not_eq_true]
  intro dead
  rw [(later_of_reached before reached).dead n dead] at alive
  cases alive

/-- In its turn a call that has an answer takes it and ends. -/
theorem returning_of_reached (reached : Reaches Move.Serene s.start w) (calling : w.Calling c n (some p))
    {answer : Option Verdict} (answered : w.promises[p]?.bind Promise.answer? = some answer) :
    ∃ l, w.links[n]? = some l ∧ w.Returning c.task c.label n l (verdict answer) (w.turn c.task) := by
  have anyhow := reached.anyhow
  have furnished := furnished_of_reached (reached.mono fun _ serene => serene.1)
  obtain ⟨l,link⟩ := known_of_calling reached calling
  exact ⟨l,link,
    returning_of_answered furnished (housed_of_reached anyhow) (timed_of_reached anyhow) link answered calling⟩

theorem turn_superseded (reached : Reaches Move.Serene s.start w) (calling : w.Calling c n (some p))
    (gone : w.isCancelled p = true) : (w.turn c.task).tasks[c.task]? = some none ∧
      (w.turn c.task).events = w.events ++ [⟨w.now,c.label,.superseded⟩] := by
  obtain ⟨l,-,returning⟩ := returning_of_reached reached calling (answer_of_cancelled gone)
  obtain ⟨r,said,result⟩ := returning.result
  have told : r = .superseded := (result.uncache _).mpr (.inl ⟨.superseded,rfl,rfl⟩)
  exact ⟨returning.finished,by rw [said,told]⟩

/-- A call whose attempt is cancelled is ready for its next turn and says so then, and until then the clock
stands still. -/
theorem superseded_run (reached : Reaches Move.Serene s.start w) (serene : ∀ m ∈ moves, m.Serene)
    (paced : w.Paced moves) (undropped : w.Throughout moves fun v => v.Undropped c.task)
    (calling : w.Calling c n (some p)) (gone : w.isCancelled p = true) :
    w.Returns moves c n .superseded ∨ (w.run moves).Calling c n (some p) ∧
      c.task ∈ (w.run moves).schedule.ready ∧ (w.run moves).now = w.now := by
  induction moves generalizing w with
  | nil =>
    have alert := alert_of_reached reached.anyhow
    exact .inr ⟨calling,ready_of_answered alert calling (answered_of_cancelled gone),rfl⟩
  | cons m rest ih =>
    by_cases own : m = .turn c.task
    · subst own
      exact .inl ⟨[],rest,p,rfl,calling,turn_superseded reached calling gone⟩
    · have anyhow := reached.anyhow
      have answered := answered_of_cancelled gone
      have single := paced.1.single
      have now := now_of_answered (alert_of_reached anyhow) calling answered paced.1
      have still := calling_move single calling own undropped.next.here
      have kept := (move_goes w single (orderly_of_reached anyhow)).2.cancelled p gone
      have there := Frame.trans reached (reaches_move w m (serene m List.mem_cons_self))
      rcases ih there (fun k member => serene k (List.mem_cons_of_mem m member)) paced.2 undropped.next still kept with
        returns | ⟨waits,ready,same⟩
      · exact .inl returns.next
      · exact .inr ⟨waits,ready,same.trans now⟩

theorem opening_of_reached (reached : Reaches Move.Serene s.start w) (alive : w.isDead n = false)
    (calling : w.Calling c n none) : w.Opening c.task c.label n (w.turn c.task) := by
  obtain ⟨l,link⟩ := known_of_calling reached calling
  have lives : l.dead = false := by
    rw [← Bool.not_eq_true]
    intro dead
    rw [isDead_iff.mpr ⟨l,link,dead⟩] at alive
    cases alive
  have calm := (furnished_of_reached (reached.mono fun _ serene => serene.1)).toCalm
  exact opening_of_alive calm link lives (unjammed_of_reached reached n l link) calling

/-- A call that begins supersedes the one that waits. -/
theorem turn_supersedes (reached : Reaches Move.Serene s.start w) (alive : w.isDead n = false)
    (calling : w.Calling c n (some p)) (stop : w.stopOf n = some p) (next : w.Calling d n none) :
    (w.turn d.task).Calling c n (some p) ∧ (w.turn d.task).isCancelled p = true := by
  have orderly := orderly_of_reached reached.anyhow
  have opening := opening_of_reached reached alive next
  have other : c.task ≠ d.task := by
    intro same
    rw [Calling,same,next] at calling
    simp at calling
  refine ⟨turn_others calling other,?_⟩
  rcases (move_goes w (m := .turn d.task) (Move.Internal.single trivial) orderly).2.stops n with same | ⟨gone,-⟩
  · rw [move,opening.attempt.stop,stop] at same
    have known := orderly.slot n p stop
    cases same
    exact absurd known (Nat.lt_irrefl _)
  · exact gone p stop

/-- What becomes of a call that still waits when the next one begins. -/
theorem superseded_by_next (reached : Reaches Move.Serene s.start w) (serene : ∀ m ∈ moves, m.Serene)
    (paced : w.Paced (.turn d.task :: moves)) (alive : (w.run (.turn d.task :: moves)).isDead n = false)
    (undropped : w.Throughout (.turn d.task :: moves) fun v => v.Undropped c.task)
    (calling : w.Calling c n (some p)) (stop : w.stopOf n = some p) (next : w.Calling d n none) :
    w.Returns (.turn d.task :: moves) c n .superseded ∨
      (w.run (.turn d.task :: moves)).Calling c n (some p) ∧
        c.task ∈ (w.run (.turn d.task :: moves)).schedule.ready ∧ (w.run (.turn d.task :: moves)).now = w.now := by
  have first : Reaches Move.Serene w (w.turn d.task) :=
    reaches_move w (.turn d.task) (Move.Internal.serene trivial)
  have there := Frame.trans reached first
  have lives : w.isDead n = false :=
    alive_before reached (Frame.trans first (reaches_run (w.turn d.task) serene)) alive
  obtain ⟨waits,gone⟩ := turn_supersedes reached lives calling stop next
  have now : (w.turn d.task).now = w.now :=
    move_now (m := .turn d.task) (Move.Internal.single trivial) fun now same => by cases same
  rcases superseded_run there serene paced.2 undropped.next waits gone with returns | ⟨still,ready,same⟩
  · refine .inl (Returns.next ?_)
    exact returns
  · exact .inr ⟨still,ready,same.trans now⟩

theorem earlier_superseded {earlier : List CacheCall} {last : CacheCall} (reached : Reaches Move.Serene s.start v)
    (serene : ∀ m ∈ movesOf (earlier ++ [last]), m.Serene) (paced : v.Paced (movesOf (earlier ++ [last])))
    (alive : (v.run (movesOf (earlier ++ [last]))).isDead n = false) (overlapping : Overlapping n last v earlier)
    (undropped : v.Throughout (movesOf (earlier ++ [last])) fun w => w.Undropped c.task) (member : c ∈ earlier) :
    v.Returns (movesOf (earlier ++ [last])) c n .superseded ∨
      (∃ p, (v.run (movesOf (earlier ++ [last]))).Calling c n (some p)) ∧
        c.task ∈ (v.run (movesOf (earlier ++ [last]))).schedule.ready ∧
        (v.run (movesOf (earlier ++ [last]))).now ≤ (v.run (movesOf earlier)).now := by
  induction earlier generalizing v with
  | nil => cases member
  | cons e rest ih =>
    rw [List.cons_append,movesOf_cons] at serene paced alive undropped ⊢
    rw [movesOf_cons,run_append,run_append]
    rw [run_append] at alive
    have there : Reaches Move.Serene s.start (v.run e.moves) :=
      Frame.trans reached (reaches_run v fun m inside => serene m (List.mem_append_left _ inside))
    have calmly (m : Move) (inside : m ∈ movesOf (rest ++ [last])) : m.Serene :=
      serene m (List.mem_append_right _ inside)
    have later := ((paced_append v _ _).mp paced).2
    obtain ⟨prevails,waits,overlaps⟩ := overlapping
    rcases List.mem_cons.mp member with rfl | other
    · have stop : (v.run c.moves).stopOf n = some v.promises.length :=
        (prevails.inForce c.after [] (List.append_nil _).symm).1
      have grows : (v.run c.moves).now ≤ ((v.run c.moves).run (movesOf rest)).now := by
        rw [movesOf_concat,paced_append] at later
        exact now_mono later.1
      have afterwards := undropped.after
      obtain ⟨d,others,same,next⟩ := overlaps.begins
      rw [same] at calmly later afterwards alive ⊢
      rcases superseded_by_next there (fun m inside => calmly m (List.mem_cons_of_mem _ inside)) later alive
        afterwards waits stop next with returns | ⟨still,ready,now⟩
      · exact .inl returns.later
      · exact .inr ⟨⟨_,still⟩,ready,now ▸ grows⟩
    · rcases ih there calmly later alive overlaps undropped.after other with returns | waits
      · exact .inl returns.later
      · exact .inr waits

/-! ### The cache -/

/-- While an attempt is in force for which one task waits, nobody else clears the cache. -/
theorem clears_by {id : Nat} (reached : Reaches (fun _ => True) s.start w) (single : m.Single)
    (force : w.InForce n p) (sole : w.Solely id p) (changed : ¬ Uncleared n w (w.move m)) :
    m = .turn id ∧ w.SettledOk p ∧ ∃ t, w.tasks[id]? = some (some t) ∧ t.job.awaits? = some (n,p) := by
  obtain ⟨i,t,k,q,rfl,there,awaits,stopped,model⟩ := move_clears single changed
  obtain ⟨l,link,owned⟩ := Option.map_eq_some_iff.mp model
  obtain rfl : n = k := owned.symm.trans ((paired_of_reached reached).2 k l link)
  have current : q = p := by
    rcases awaited_of_reached reached i t n q there awaits with stop | gone
    · exact Option.some.inj (stop.symm.trans force.1)
    · rw [stopped.halted.2] at gone
      cases gone
  subst current
  obtain rfl := sole i t n there awaits
  exact ⟨rfl,stopped,t,there,awaits⟩

theorem solely_next {id : Nat} (reached : Reaches (fun _ => True) s.start w) (single : m.Single)
    (force : w.InForce n p) (sole : w.Solely id p) : (w.move m).Solely id p :=
  solely_move single ((orderly_of_reached reached).slot n p force.1) sole

/-- A call waits on and nobody clears the cache, or it takes its answer. -/
theorem waiting_move (reached : Reaches (fun _ => True) s.start w) (single : m.Single)
    (undropped : (w.move m).Undropped c.task) (force : w.InForce n p) (sole : w.Solely c.task p)
    (calling : w.Calling c n (some p)) : (w.move m).Calling c n (some p) ∧ Uncleared n w (w.move m) ∨
      m = .turn c.task ∧ ∃ answer, w.promises[p]?.bind Promise.answer? = some answer := by
  by_cases takes : m = .turn c.task ∧ ∃ answer, w.promises[p]?.bind Promise.answer? = some answer
  · exact .inr takes
  · refine .inl ⟨?_,?_⟩
    · by_cases own : m = .turn c.task
      · subst own
        have unanswered : w.promises[p]?.bind Promise.answer? = none :=
          Option.eq_none_iff_forall_ne_some.mpr fun answer answered => takes ⟨rfl,answer,answered⟩
        exact (waiting_of_unanswered unanswered calling).waits
      · exact calling_move single calling own undropped
    · refine Classical.byContradiction fun changed => ?_
      obtain ⟨turn,stopped,-⟩ := clears_by reached single force sole changed
      exact takes ⟨turn,_,stopped⟩

theorem waiting_uncleared (reached : Reaches Move.Serene s.start w) (serene : ∀ m ∈ moves, m.Serene)
    (paced : w.Paced moves) (undropped : w.Throughout moves fun v => v.Undropped c.task)
    (force : w.Throughout moves fun v => v.InForce n p) (sole : w.Solely c.task p)
    (calling : w.Calling c n (some p)) (still : (w.run moves).Calling c n (some p)) :
    Uncleared n w (w.run moves) := by
  induction moves generalizing w with
  | nil => exact Frame.refl w
  | cons m rest ih =>
    have anyhow := reached.anyhow
    have single := paced.1.single
    rcases waiting_move anyhow single undropped.next.here force.here sole calling with
      ⟨waits,kept⟩ | ⟨rfl,answer,answered⟩
    · have there := Frame.trans reached (reaches_move w m (serene m List.mem_cons_self))
      exact Frame.trans kept (ih there (fun k member => serene k (List.mem_cons_of_mem m member)) paced.2
        undropped.next force.next (solely_next anyhow single force.here sole) waits still)
    · -- a call that takes its answer does not wait any more
      obtain ⟨l,-,returning⟩ := returning_of_reached reached calling answered
      have ended : ((w.turn c.task).run rest).tasks[c.task]? = some none := run_ended paced.2 returning.finished
      exact absurd ended still.unended

/-- What the first turn of a call comes to. -/
structure Entering (w : World) (n : Nat) (c : CacheCall) (v : World) : Prop where
  waits : v.Calling c n (some w.promises.length)
  sole : v.Solely c.task w.promises.length
  uncleared : Uncleared n w v

theorem entering_of_calling (reached : Reaches Move.Serene s.start w) (alive : w.isDead n = false)
    (calling : w.Calling c n none) : Entering w n c (w.turn c.task) where
  waits := (opening_of_reached reached alive calling).waits
  sole := solely_first (alert_of_reached reached.anyhow)
  uncleared := by
    refine Classical.byContradiction fun changed => ?_
    obtain ⟨i,t,k,q,same,there,awaits,-⟩ := move_clears (m := .turn c.task) (Move.Internal.single trivial) changed
    cases same
    rw [calling] at there
    cases there
    cases awaits

/-- Nobody clears the cache before the last call begins. -/
theorem earlier_uncleared {earlier : List CacheCall} {last : CacheCall} (reached : Reaches Move.Serene s.start v)
    (serene : ∀ m ∈ movesOf earlier, m.Serene) (paced : v.Paced (movesOf earlier))
    (alive : (v.run (movesOf earlier)).isDead n = false) (overlapping : Overlapping n last v earlier)
    (undropped : ∀ c ∈ earlier, v.Throughout (movesOf earlier) fun w => w.Undropped c.task) :
    Uncleared n v (v.run (movesOf earlier)) := by
  induction earlier generalizing v with
  | nil => exact Frame.refl v
  | cons c rest ih =>
    rw [movesOf_cons] at serene paced undropped alive ⊢
    rw [run_append] at alive ⊢
    have ours (m : Move) (inside : m ∈ c.moves) : m.Serene := serene m (List.mem_append_left _ inside)
    have later (m : Move) (inside : m ∈ movesOf rest) : m.Serene := serene m (List.mem_append_right _ inside)
    have first : Reaches Move.Serene v (v.turn c.task) :=
      reaches_move v (.turn c.task) (Move.Internal.serene trivial)
    have between : Reaches Move.Serene v (v.run c.moves) := reaches_run v ours
    have there := Frame.trans reached between
    obtain ⟨now,afterwards⟩ := (paced_append v _ _).mp paced
    obtain ⟨prevails,waits,overlaps⟩ := overlapping
    have lives := alive_before reached (Frame.trans between (reaches_run (v.run c.moves) later)) alive
    have enters := entering_of_calling reached lives prevails.calling
    have own := (undropped c List.mem_cons_self).before
    have kept := waiting_uncleared (Frame.trans reached first) (fun m inside => ours m (List.mem_cons_of_mem _ inside))
      now.2 own.next prevails.inForce enters.sole enters.waits waits
    exact Frame.trans enters.uncleared (Frame.trans kept (ih there later afterwards alive overlaps fun d member =>
      (undropped d (List.mem_cons_of_mem c member)).after))

end World
end EditorLink
