import EditorLink.Proofs.Enrolled
import EditorLink.Proofs.Remembering
import EditorLink.Proofs.Timely

/-! The states that updates give back form a chain: each one starts from the text of the one before, or from
none where the cache was cleared in between. The log of the model tells the same texts in the same order. -/
namespace EditorLink
open World EditorLink.Action

/-- What becomes of the text that a model remembers. -/
inductive Mark where
  | given (state : ModelState)
  | cleared

def Mark.state? : Mark → Option ModelState
  | given state => some state
  | cleared => none

/-- The text that is remembered after the last of the marks. -/
def leaves (marks : List Mark) : String := ((marks.getLast?.bind Mark.state?).map ModelState.new).getD ""

theorem leaves_given (marks : List Mark) (state : ModelState) : leaves (marks ++ [.given state]) = state.new := by
  simp [leaves,Mark.state?]

theorem leaves_cleared (marks : List Mark) : leaves (marks ++ [.cleared]) = "" := by
  simp [leaves,Mark.state?]

/-- The state starts from the text, and is told apart from it where it differs. -/
structure ModelState.From (base : String) (state : ModelState) : Prop where
  old : state.old = base
  tree : state.tree = (Text.lines state.new.toList).length
  changed : state.changed = false ↔ state.new = base

theorem Memory.state_from (m : Memory) (text : String) : (m.state text).From m.text where
  old := rfl
  tree := congrArg Int.ofNat (Text.lineCount_eq text)
  changed := by
    rw [ModelState.changed,decide_eq_false_iff_not,Classical.not_not]
    exact eq_comm

namespace World

/-- A state is given back, or the cache is cleared, or neither. -/
def marks (w : World) (k : Nat) (m : Move) : List Mark :=
  (w.given k m).toList.map .given ++
    if (w.memory k).clearings < ((w.move m).memory k).clearings then [.cleared] else []

def marksIn (w : World) (k : Nat) : List Move → List Mark
  | [] => []
  | m :: rest => w.marks k m ++ (w.move m).marksIn k rest

variable {w : World} {k : Nat} {m : Move} {moves : List Move}

/-- What is marked in a move is what happens to the memory. -/
inductive Marked (w : World) (k : Nat) (m : Move) : Prop
  | none (unmarked : w.marks k m = []) (kept : ((w.move m).memory k).text = (w.memory k).text)
  | given (text : String) (marked : w.marks k m = [.given ((w.memory k).state text)])
      (kept : ((w.move m).memory k).text = text)
  | cleared (marked : w.marks k m = [.cleared]) (gone : ((w.move m).memory k).text = "")

theorem marked (single : m.Single) : Marked w k m := by
  cases move_remembers (w := w) (k := k) single with
  | rests none unfed =>
    rcases unfed with same | ⟨-,text,count⟩
    · refine .none ?_ (congrArg Memory.text same)
      rw [marks,none,show (w.move m).memory k = w.memory k from same,if_neg (Nat.lt_irrefl _)]
      rfl
    · refine .cleared ?_ text
      rw [marks,none,if_pos count]
      rfl
  | notes text given after =>
    refine .given text ?_ (by rw [after]; rfl)
    have still : ¬ (w.memory k).clearings < ((w.memory k).after w.now text).clearings := Nat.lt_irrefl _
    rw [marks,given,after,if_neg still]
    rfl

/-- However the run goes on, each state starts from the text that the marks before it leave. -/
theorem chained_from (prior : List Mark) (single : ∀ m ∈ moves, m.Single) (start : (w.memory k).text = leaves prior)
    {before after : List Mark} {state : ModelState} (split : w.marksIn k moves = before ++ .given state :: after) :
    state.From (leaves (prior ++ before)) := by
  induction moves generalizing w prior before with
  | nil => exact absurd split (by simp [marksIn])
  | cons m rest ih =>
    have later : ∀ m ∈ rest, m.Single := fun m member => single m (List.mem_cons_of_mem _ member)
    rw [marksIn] at split
    cases marked (w := w) (k := k) (single m List.mem_cons_self) with
    | none unmarked kept =>
      rw [unmarked,List.nil_append] at split
      exact ih _ later (kept.trans start) split
    | given text marked kept =>
      rw [marked,List.singleton_append] at split
      rcases List.cons_eq_append_iff.mp split with ⟨rfl,first⟩ | ⟨others,rfl,rest⟩
      · cases first
        rw [List.append_nil,← start]
        exact Memory.state_from _ text
      · have start' : ((w.move m).memory k).text = leaves (prior ++ [.given ((w.memory k).state text)]) := by
          rw [leaves_given]
          exact kept
        have chained := ih _ later start' rest
        rwa [List.append_assoc] at chained
    | cleared marked gone =>
      rw [marked,List.singleton_append] at split
      rcases List.cons_eq_append_iff.mp split with ⟨rfl,first⟩ | ⟨others,rfl,rest⟩
      · cases first
      · have chained := ih _ later (gone.trans (leaves_cleared prior).symm) rest
        rwa [List.append_assoc] at chained

/-- What a move comes to for the log, for the one who asked for the update, and for the cache. -/
structure Noted (w : World) (k : Nat) (m : Move) : Prop where
  logged : ((w.move m).memory k).log = (w.memory k).log ++ (w.given k m).toList.map fun state => (w.now,state.new)
  reported : ∀ id t number state, m = .turn id → w.tasks[id]? = some (some t) → t.label = some number →
    w.given k m = some state → (w.move m).events = w.events ++ [⟨w.now,number,.updated state⟩]
  cleared : (w.memory k).clearings < ((w.move m).memory k).clearings → ¬ w.Locked k ∧
    ∃ id t n p, m = .turn id ∧ w.tasks[id]? = some (some t) ∧ t.job.awaits? = some (n,p) ∧ w.SettledOk p ∧
      w.modelOf n = some k

theorem given_cases {id : Nat} {state : ModelState} (given : w.given k (.turn id) = some state) :
    ∃ label n phase v, w.tasks[id]? = some (some { label, job := .update n phase }) ∧ w.modelOf n = some k ∧
      exec (resumeUpdate id n phase) (w.taken id) = (.ok (.finish (some (.updated state))),v) := by
  dsimp only [World.given] at given
  split at given
  · rename_i label n phase there
    split at given
    · rename_i model
      split at given
      · rename_i s ran
        cases given
        exact ⟨label,n,phase,_,there,model,Prod.ext ran rfl⟩
      · cases given
    · cases given
  · cases given

theorem noted (single : m.Single) : Noted w k m where
  logged := by
    cases move_remembers (w := w) (k := k) single with
    | rests none unfed =>
      rw [none,Option.toList_none,List.map_nil,List.append_nil]
      rcases unfed with same | ⟨log,-⟩
      · exact congrArg Memory.log same
      · exact log
    | notes text given after =>
      rw [given,after]
      rfl
  reported := by
    rintro id t number state rfl there label given
    obtain ⟨label',n,phase,v,found,-,ran⟩ := given_cases given
    rw [there] at found
    cases found
    obtain rfl : label' = some number := label
    have turned : w.turn id = conclude id (some number) (exec (resumeUpdate id n phase) (w.taken id)) :=
      turn_active there rfl
    have quiet := resumeUpdate_quiet id n phase (w.taken id)
    have wakes : Wakes (fun _ => True) (fun _ => True) (fun _ => True) (w.taken id)
      (exec (resumeUpdate id n phase) (w.taken id)).2 := resumeUpdate_wakes trivial n phase _
    rw [ran] at turned quiet wakes
    have now : v.now = w.now := wakes.now
    rw [move,turned,conclude_events,quiet.events,now]
    rfl
  cleared changed := by
    rw [clearings_eq,clearings_eq] at changed
    obtain ⟨id,t,n,p,rfl,there,awaits,stopped,model⟩ := move_clears single (Nat.ne_of_gt changed)
    refine ⟨fun locked => ?_,id,t,n,p,rfl,there,awaits,stopped,model⟩
    exact absurd (turn_withstands w id locked).2 (Nat.ne_of_gt changed)

theorem run_cons (w : World) (m : Move) (rest : List Move) : w.run (m :: rest) = (w.move m).run rest := rfl

theorem log_grows (single : ∀ m ∈ moves, m.Single) : (w.memory k).log <+: ((w.run moves).memory k).log := by
  induction moves generalizing w with
  | nil => exact List.prefix_refl _
  | cons m rest ih =>
    have first : (w.memory k).log <+: ((w.move m).memory k).log := by
      rw [(noted (single m List.mem_cons_self)).logged]
      exact List.prefix_append _ _
    exact first.trans (ih fun m member => single m (List.mem_cons_of_mem _ member))

/-- The log tells the texts of the states that were given back. -/
theorem log_texts (single : ∀ m ∈ moves, m.Single) : ((w.run moves).memory k).log.map Prod.snd =
    (w.memory k).log.map Prod.snd ++ ((w.marksIn k moves).filterMap Mark.state?).map ModelState.new := by
  induction moves generalizing w with
  | nil => exact (List.append_nil _).symm
  | cons m rest ih =>
    have later : ∀ m ∈ rest, m.Single := fun m member => single m (List.mem_cons_of_mem _ member)
    have logged := (noted (w := w) (k := k) (single m List.mem_cons_self)).logged
    have here : (w.marks k m).filterMap Mark.state? = (w.given k m).toList := by
      rw [marks,List.filterMap_append]
      split <;> cases w.given k m <;> rfl
    rw [run_cons,ih later,logged,marksIn,List.filterMap_append,here]
    simp [Function.comp_def]

/-- No time of the log comes before an earlier one, or after the present. -/
structure Dated (w : World) (k : Nat) : Prop where
  sorted : ((w.memory k).log.map Prod.fst).Pairwise (· ≤ ·)
  past : ∀ entry ∈ (w.memory k).log, entry.1 ≤ w.now

theorem dated_move (ripe : w.Ripe m) (dated : w.Dated k) : (w.move m).Dated k := by
  have single := ripe.single
  have onward : w.now ≤ (w.move m).now := by
    by_cases arrival : ∃ now, m = .arrive now
    · obtain ⟨now,rfl⟩ := arrival
      have same : (w.move (.arrive now)).now = now := Schedule.wakeAll_now _ _
      exact Nat.le_trans ripe.2.1 (Nat.le_of_eq same.symm)
    · exact Nat.le_of_eq (move_now single fun now same => arrival ⟨now,same⟩).symm
  have logged := (noted (w := w) (k := k) single).logged
  refine ⟨?_,fun entry member => ?_⟩
  · rw [logged,List.map_append,List.pairwise_append]
    refine ⟨dated.sorted,?_,?_⟩
    · cases w.given k m <;> simp
    · intro a earlier b later
      obtain ⟨entry,member,rfl⟩ := List.mem_map.mp earlier
      obtain rfl : b = w.now := by
        cases given : w.given k m with
        | none => simp [given] at later
        | some state => simpa [given] using later
      exact dated.past entry member
  · rw [logged,List.mem_append] at member
    rcases member with old | new
    · exact Nat.le_trans (dated.past entry old) onward
    · obtain ⟨state,-,rfl⟩ := List.mem_map.mp new
      exact onward

theorem dated_run (paced : w.Paced moves) (dated : w.Dated k) : (w.run moves).Dated k := by
  induction moves generalizing w with
  | nil => exact dated
  | cons m rest ih => exact ih paced.2 (dated_move paced.1 dated)

end World

/-- Whatever callers do and in whatever order tasks have their turns, take the states that updates of links with a
model give back. They are those of the model's log, in the same order and text by text. Each one has the tree
of its text, and starts from the text of the one before, or from none if it is the first or the cache was
cleared in between; and it tells a change where these differ. Every entry of the log is made in the very turn
in which its state is given back, and to someone who asked for the update that state is reported. The cache is
cleared by teardowns alone whose stop attempt succeeded, and never while the model refuses. The log only
grows, and its times with it. -/
theorem update_states_form_a_chain (s : Setting) (k : Nat) (moves : List Move) (single : ∀ m ∈ moves, m.Single) :
    (((s.start.run moves).memory k).log.map Prod.snd =
      ((s.start.marksIn k moves).filterMap Mark.state?).map ModelState.new) ∧
    (∀ before state after, s.start.marksIn k moves = before ++ .given state :: after → state.From (leaves before)) ∧
    (∀ first m rest, moves = first ++ m :: rest → (s.start.run first).Noted k m) ∧
    (∀ first rest, moves = first ++ rest →
      ((s.start.run first).memory k).log <+: ((s.start.run moves).memory k).log) ∧
    (s.start.Paced moves → (((s.start.run moves).memory k).log.map Prod.fst).Pairwise (· ≤ ·)) := by
  have within {first : List Move} {m : Move} {rest : List Move} (split : moves = first ++ m :: rest) : m.Single :=
    single m (by rw [split]; simp)
  refine ⟨?_,fun before state after split => ?_,fun first m rest split => noted (within split),?_,fun paced => ?_⟩
  · rw [log_texts single]
    rfl
  · exact chained_from [] single rfl split
  · rintro first rest rfl
    rw [run_append]
    exact log_grows fun m member => single m (List.mem_append_right _ member)
  · exact (dated_run paced ⟨List.Pairwise.nil,nofun⟩).sorted

/-- Two updates, of which typing starts the second, then one after a teardown that the model refuses, and one
after a teardown that it does not. -/
def edited : List Move :=
  [.perform 0 (.create "a" 0),.turn 0,.turn 1,.turn 0,
    .perform 1 (.update "a"),.turn 2,.perform 2 (.outside (.type 0 "one\ntwo" true)),.turn 3,
    .arrive 50,.turn 2,.turn 3,
    .perform 3 (.outside (.failUncache 0 true)),.perform 4 (.uncache "a"),.turn 4,.turn 0,.turn 1,.turn 5,.turn 4,
    .perform 5 (.update "a"),.turn 6,.arrive 100,.turn 6,
    .perform 6 (.outside (.failUncache 0 false)),.perform 7 (.uncache "a"),.turn 7,.turn 4,.turn 5,.turn 8,.turn 7,
    .perform 8 (.update "a"),.turn 9,.arrive 150,.turn 9]

theorem edited_states_form_a_chain :
    let text := "one\ntwo"
    ({} : Setting).start.marksIn 0 edited =
      [.cleared,.given ⟨"",text,2⟩,.given ⟨text,text,2⟩,.given ⟨text,text,2⟩,.cleared,.given ⟨"",text,2⟩] ∧
    ((({} : Setting).start.run edited).memory 0).log.map Prod.snd = [text,text,text,text] ∧
    ({} : Setting).start.Paced edited ∧
    ((({} : Setting).start.run edited).memory 0).log.map Prod.fst = [50,50,100,150] ∧
    [50,50,100,150].Pairwise (· ≤ ·) := by
  intro text
  have marks : ({} : Setting).start.marksIn 0 edited =
      [.cleared,.given ⟨"",text,2⟩,.given ⟨text,text,2⟩,.given ⟨text,text,2⟩,.cleared,.given ⟨"",text,2⟩] := by
    rfl
  have single : ∀ m ∈ edited, m.Single := by simp [edited,Move.Single]
  have times : ((({} : Setting).start.run edited).memory 0).log.map Prod.fst = [50,50,100,150] := by decide +kernel
  have paced : ({} : Setting).start.Paced edited := by decide +kernel
  obtain ⟨texts,-,-,-,sorted⟩ := update_states_form_a_chain {} 0 edited single
  rw [marks] at texts
  exact ⟨marks,texts,paced,times,times ▸ sorted paced⟩

end EditorLink
