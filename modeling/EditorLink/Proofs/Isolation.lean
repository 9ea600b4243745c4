import EditorLink.Proofs.Reduction

/-! Registries do not interfere unless somebody types: whoever deals with some of the registries cannot tell a run from
the same run without everything that was done through the others. -/
namespace EditorLink
open World

/-- Callers of the side that is kept see the same in both worlds, up to the numbers of links and models. -/
structure Split.Untouched (s : Split) (e : Marks) (v w : World) : Prop where
  now : v.now = w.now
  alive : v.alive = w.alive
  text : v.text = w.text
  current : ∀ r, s.registry r = true → Option.Rel (Stands true e.links) (v.current? r) (w.current? r)
  names : ∀ name, s.name name = true → Option.Rel (Stands true e.links) (v.names.lookup name) (w.names.lookup name)
  statuses : ∀ n m, Stands true e.links n m → v.status? n = w.status? m
  owned : ∀ n m, Stands true e.links n m →
    Option.Rel (Stands true e.models) (v.links[n]?.map Link.model) (w.links[m]?.map Link.model)
  models : ∀ n m, Stands true e.models n m → v.models[n]? = w.models[m]?
  events : v.events = (w.events.filter fun x => s.number x.label).map fun x =>
    { x with report := x.report.renumber e.models }
  waiting : v.waiting = w.waiting.filter s.number
  idle : w.schedule.ready = [] → v.schedule.ready = []

variable {s : Split} {v w : World} {e : Marks} {moves : List Move}

theorem Drawn.events_eq (alike : Alike s e v w) : v.events = (w.events.filter fun x => s.number x.label).map fun x =>
    { x with report := x.report.renumber e.models } := by
  refine alike.events.eq_map_filter (fun a c same => ⟨same.own,?_⟩) fun c own => own.own
  obtain ⟨time,label,-,report⟩ := same
  cases a
  cases c
  cases time
  cases label
  exact congrArg (Event.mk _ _) report.renumber

theorem Drawn.waiting_eq (alike : Alike s e v w) : v.waiting = w.waiting.filter s.number := by
  have started : v.started = w.started.filter s.number := by
    have same := alike.started.eq_map_filter (g := s.number) (h := id) (fun _ _ both => ⟨both.2,both.1⟩)
      fun _ both => both.2
    rwa [List.map_id] at same
  have busy (n : Nat) (mine : s.number n = true) :
      (v.tasks.any fun t => t.any fun t => t.label = some n) = w.tasks.any fun t => t.any fun t => t.label = some n := by
    refine alike.tasks.any (fun t k rel => ?_) fun k rel => ?_
    · cases rel with
      | none => rfl
      | some same => exact decide_eq_decide.mpr (by rw [same.label])
    · cases rel with
      | none => rfl
      | some own => exact decide_eq_false fun labelled => absurd ((own.own n labelled).symm.trans mine) nofun
  rw [World.waiting,World.waiting,started,List.filter_filter,List.filter_filter]
  refine List.filter_congr fun n _ => ?_
  cases mine : s.number n with
  | true => rw [busy n mine,Bool.and_comm]
  | false => rw [Bool.and_false,Bool.false_and]

theorem Drawn.untouched (alike : Alike s e v w) : s.Untouched e v w := by
  have beside : Beside s v true e v w := alike
  exact {
    now := alike.now
    alive := beside.alive
    text := beside.text
    current := fun _ own => beside.current own
    names := fun _ own => beside.name own
    statuses := fun _ _ stands => beside.status stands
    owned := fun n m stands => by
      obtain ⟨l,k,here,there,same⟩ := beside.link stands
      rw [here,there]
      exact .some same.model
    models := fun n m stands => by
      obtain ⟨x,here,there⟩ := beside.model stands
      rw [here,there]
    events := alike.events_eq
    waiting := alike.waiting_eq
    idle := fun rests => Sifted.nil_of_nil (rests ▸ alike.ready) }

/-- Where nothing has happened yet, both sides are as they are. -/
theorem start_alike (setting : Setting) : Alike s {} setting.start setting.start where
  toCommon := .refl _
  registries r := by
    have fresh : setting.start.registries[r]? = setting.configs[r]?.map fun config => { config } := List.getElem?_map
    rw [ite_self,fresh]
    cases setting.configs[r]? with
    | none => exact .none
    | some config => exact .some ⟨rfl,.none,rfl⟩
  links := .nil
  models := .nil
  promises := .nil
  tasks := .nil
  names := ⟨[],.nil⟩
  handles := ⟨[],.nil⟩
  started := ⟨[],.nil⟩
  events := ⟨[],.nil⟩
  ready := ⟨[],.nil⟩
  timers := ⟨[],.nil⟩

theorem next_other {move : Move} (theirs : s.side e move = some false) :
    s.next e w move = e.after false (w.move move) := by
  rw [Split.next,theirs]
  rfl

theorem next_kept {move : Move} (kept : s.side e move ≠ some false) : s.next e w move = e.after true (w.move move) := by
  rw [Split.next]
  rcases own : s.side e move with _ | side
  · rfl
  · cases side with
    | true => rfl
    | false => exact absurd own kept

/-- From a world and what it is without the other side, the whole run and what is left of it keep to that. -/
theorem run_reduced (alike : Alike s e v w) (single : ∀ m ∈ moves, m.Single) (parts : ∀ m ∈ moves, s.Parts m) :
    Alike s (s.marks e w moves) (v.run (s.reduce e w moves)) (w.run moves) ∧
      v.replies (s.reduce e w moves) = s.replies e w moves ∧ (w.Timely moves → v.Timely (s.reduce e w moves)) := by
  induction moves generalizing v w e with
  | nil => exact ⟨alike,rfl,fun _ => trivial⟩
  | cons move rest ih =>
    have one := single move List.mem_cons_self
    have part := parts move List.mem_cons_self
    have later {x : World} (next : Alike s (s.next e w move) x (w.move move)) :=
      ih next (fun m member => single m (List.mem_cons_of_mem move member))
        fun m member => parts m (List.mem_cons_of_mem move member)
    by_cases theirs : s.side e move = some false
    · have next : Alike s (s.next e w move) v (w.move move) := by
        rw [next_other theirs]
        exact move_other alike part theirs
      obtain ⟨ends,told,timely⟩ := later next
      rw [Split.reduce,Split.replies,if_pos theirs,if_pos theirs]
      exact ⟨ends,told,fun both => timely both.2⟩
    · obtain ⟨d,grows,next,told⟩ := move_kept alike one part theirs
      obtain rfl : d = s.next e w move := (after_of_grows grows next).trans (next_kept theirs).symm
      obtain ⟨ends,replies,timely⟩ := later next
      rw [Split.reduce,Split.replies,if_neg theirs,if_neg theirs,List.cons_append,List.nil_append,World.replies,told,
        replies]
      exact ⟨ends,rfl,fun both => ⟨due_rename alike both.1 theirs,timely both.2⟩⟩

/-- Leaving the other side out of a run makes no difference to any answer on the side that is kept, nor to what becomes
of what was started there, and when. Every name is used on one side only, nobody types, and waiting is told as the turns
and the moves of the clock that it comes to. -/
theorem other_registries_make_no_difference (setting : Setting) (split : Split) (moves : List Move)
    (single : ∀ m ∈ moves, m.Single) (parts : ∀ m ∈ moves, split.Parts m) :
    setting.start.replies (split.reduce {} setting.start moves) = split.replies {} setting.start moves ∧
      split.Untouched (split.marks {} setting.start moves)
        (setting.start.run (split.reduce {} setting.start moves)) (setting.start.run moves) ∧
      (setting.start.Timely moves → setting.start.Timely (split.reduce {} setting.start moves)) := by
  obtain ⟨alike,replies,timely⟩ := run_reduced (start_alike (s := split) setting) single parts
  exact ⟨replies,alike.untouched,timely⟩

/-- The second of two registries is kept, with the link called b and the odd numbers. -/
def secondOnly : Split where
  registry r := r == 1
  name name := name == "b"
  number n := n % 2 == 1

/-- Both registries create a link and update it; one link is killed, the other one is stopped. -/
def twoSessions : List Move :=
  [.perform 0 (.create "a" 0),.perform 1 (.create "b" 1),.turn 0,.turn 1,.turn 2,.turn 3,.turn 0,.turn 1,.arrive 1,
    .perform 2 (.update "a"),.perform 3 (.update "b"),.perform 4 (.outside (.busy 1 10)),.perform 5 (.stop "b" true),
    .turn 4,.turn 5,.turn 1,.turn 3,.turn 6,.arrive 11,.perform 6 (.kill "a"),.perform 7 (.status "b"),
    .perform 9 (.model "b"),.turn 6,.arrive 51,.turn 4,.turn 5]

def oneSession : List Move :=
  [.perform 1 (.create "b" 1),.turn 0,.turn 1,.turn 0,.arrive 1,.perform 3 (.update "b"),
    .perform 4 (.outside (.busy 0 10)),.perform 5 (.stop "b" true),.turn 2,.turn 0,.turn 1,.turn 3,.arrive 11,
    .perform 7 (.status "b"),.perform 9 (.model "b"),.turn 3,.arrive 51,.turn 2]

def sharedSetting : Setting where
  configs := [{},{}]

theorem two_sessions_keep_apart :
    sharedSetting.start.Timely twoSessions ∧ secondOnly.reduce {} sharedSetting.start twoSessions = oneSession ∧
      sharedSetting.start.replies oneSession =
        [(1,.nothing),(3,.nothing),(4,.nothing),(5,.done),(7,.status ⟨true,false,true⟩),(9,.model (some 0))] ∧
      secondOnly.Untouched (secondOnly.marks {} sharedSetting.start twoSessions) (sharedSetting.start.run oneSession)
        (sharedSetting.start.run twoSessions) := by
  have single : ∀ m ∈ twoSessions, m.Single := by simp [twoSessions,Move.Single]
  have parts : ∀ m ∈ twoSessions, secondOnly.Parts m := by
    simp [twoSessions,Split.Parts,Split.Divides,secondOnly]
  have reduced : secondOnly.reduce {} sharedSetting.start twoSessions = oneSession := by rfl
  obtain ⟨-,untouched,-⟩ := other_registries_make_no_difference sharedSetting secondOnly twoSessions single parts
  rw [reduced] at untouched
  exact ⟨by decide,reduced,rfl,untouched⟩

end EditorLink
