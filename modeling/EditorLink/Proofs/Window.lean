import EditorLink.Proofs.Endure
import EditorLink.Proofs.Hooks
import EditorLink.Proofs.Pause
import EditorLink.Proofs.Tasks

/-! The time between the clearing of a hook by a teardown and the end of that teardown. The hook stays off
until some teardown of the link, this one or another, comes to its end, or the link is switched on. -/
namespace EditorLink
open World EditorLink.Action

namespace World

/-- Whatever living widget has the hook of the link had it before. -/
def Loose (n : Nat) (v w : World) : Prop :=
  ∀ e x, w.widgets[e]? = some x → w.alive e = true → x.hook = some n →
    ∃ y, v.widgets[e]? = some y ∧ v.alive e = true ∧ y.hook = some n

variable {n : Nat} {v w : World}

instance (n : Nat) : Frame (Loose n) where
  refl _ _ x widget alive hook := ⟨x,widget,alive,hook⟩
  trans first next e x widget alive hook := by
    obtain ⟨y,between,lives,own⟩ := next e x widget alive hook
    exact first e y between lives own

theorem Unhooked.loose (unhooked : v.Unhooked n) (loose : Loose n v w) : w.Unhooked n := by
  intro e x widget alive hook
  obtain ⟨y,before,lives,own⟩ := loose e x widget alive hook
  exact unhooked e y before lives own

theorem loose_same (widgets : w.widgets = v.widgets) (host : w.host = v.host) (kept : w.kept = v.kept) :
    Loose n v w := by
  intro e x widget lives hook
  rw [widgets] at widget
  rw [alive,host,kept] at lives
  exact ⟨x,widget,lives,hook⟩

theorem loose_sameEntities (entities : SameEntities v w) : Loose n v w :=
  loose_same entities.widgets entities.host entities.kept

theorem loose_quiet (quiet : Quiet v w) : Loose n v w :=
  loose_same quiet.widgets quiet.host quiet.kept

theorem loose_around (around : Around v w) : Loose n v w := by
  intro e x widget alive hook
  obtain ⟨y,before,own⟩ := around.hooked widget hook
  refine ⟨y,before,?_,own⟩
  rcases around.alive e alive with lives | ⟨new,-⟩
  · exact lives
  · exact absurd (List.getElem?_eq_some_iff.mp before).1 (Nat.not_lt.mpr new)

theorem loose_handling {m : Nat} {sets : Bool} (handling : Handling m sets v w)
    (other : sets = true → m ≠ n) : Loose n v w := by
  intro e x widget alive hook
  obtain ⟨y,before,same | none | ⟨given,mine⟩⟩ := handling.hooks e x widget
  · exact ⟨y,before,(handling.alive e) ▸ alive,same ▸ hook⟩
  · rw [hook] at none
    cases none
  · rw [hook] at mine
    exact absurd (Option.some.inj mine).symm (other given)

theorem Tied.quiet (tied : v.Tied n) (quiet : Quiet v w) : w.Tied n := by
  intro e x widget alive hook
  obtain ⟨y,before,lives,own⟩ := loose_quiet quiet e x widget alive hook
  obtain ⟨l,there,cached⟩ := tied e y before lives own
  obtain ⟨k,found,alike⟩ := quiet.link there
  obtain ⟨-,-,slot,-,-,-⟩ := core_fields alike
  exact ⟨k,found,by rw [slot,cached]⟩

theorem Tied.loose (tied : v.Tied n) (loose : Loose n v w)
    (links : ∀ l, v.links[n]? = some l → w.links[n]? = some l) : w.Tied n := by
  intro e x widget alive hook
  obtain ⟨y,before,lives,own⟩ := loose e x widget alive hook
  obtain ⟨l,there,cached⟩ := tied e y before lives own
  exact ⟨l,links l there,cached⟩

end World

theorem endures_tied (n : Nat) : Endures fun v w => v.Tied n → w.Tied n where
  frame := inferInstance
  entities entities tied := tied.loose (loose_sameEntities entities) fun l there => entities.links ▸ there
  quiet quiet tied := tied.quiet quiet
  handling {m sets v w} handling tied := by
    by_cases here : m = n
    · subst here
      exact handling.tied tied
    · refine tied.loose (loose_handling handling fun _ => here) fun l there => ?_
      obtain ⟨k,found,same,-⟩ := handling.links n l there
      rw [found,same (Ne.symm here)]
  made w registry r _ tied := by
    refine tied.loose (loose_same rfl rfl rfl) fun l there => ?_
    exact getElem?_append_some there _
  crashed _ _ tied := tied

theorem tied_of_reached {s : Setting} {w : World} (reached : Reaches (fun _ => True) s.start w)
    (n : Nat) : w.Tied n := by
  refine (endures_tied n).reaches (fun _ _ => trivial) (fun w _ o _ tied => ?_) reached ?_
  · have around := change_around w o
    exact tied.loose (loose_around around) fun l there => around.links ▸ there
  · intro e x widget alive hook
    obtain ⟨l,there,cached,-⟩ := (start_wellHooked s).tied e x n widget hook alive
    exact ⟨l,there,cached⟩

theorem endures_known (n : Nat) : Endures fun v w => n < v.links.length → n < w.links.length where
  frame := inferInstance
  entities entities known := by rw [entities.links]; exact known
  quiet quiet known := by rw [quiet.size]; exact known
  handling handling known := by rw [handling.size]; exact known
  made w registry r _ known := by
    simp only [withLink,List.length_append]
    omega
  crashed _ _ known := known

namespace World

/-- As long as the link is there, no widget comes to have its hook. -/
def Slack (n : Nat) (v w : World) : Prop :=
  n < v.links.length → n < w.links.length ∧ Loose n v w

instance (n : Nat) : Frame (Slack n) where
  refl w known := ⟨known,Frame.refl w⟩
  trans first next known := by
    obtain ⟨between,before⟩ := first known
    obtain ⟨after,later⟩ := next between
    exact ⟨after,Frame.trans before later⟩

variable {n : Nat} {v w : World}

theorem slack_sameEntities (entities : SameEntities v w) : Slack n v w := fun known =>
  ⟨(endures_known n).entities entities known,loose_sameEntities entities⟩

theorem slack_quiet (quiet : Quiet v w) : Slack n v w := fun known =>
  ⟨(endures_known n).quiet quiet known,loose_quiet quiet⟩

theorem slack_handling {m : Nat} {sets : Bool} (handling : Handling m sets v w)
    (other : sets = true → m ≠ n) : Slack n v w := fun known =>
  ⟨(endures_known n).handling handling known,loose_handling handling other⟩

end World

theorem serves_slack {m n : Nat} (other : m ≠ n) : Serves m (Slack n) :=
  serves_of_handling (fun handling => slack_handling handling fun _ => other)
    (fun w _ => slack_sameEntities { SameEntities.refl w with })
    (fun id promise _ => (await_still id promise).mono fun still => slack_quiet still.toQuiet)
    ((startStop_still m true).mono fun still => slack_quiet still.toQuiet)
    ((uncacheModel_still m).mono fun still => slack_quiet still.toQuiet)

variable {n id : Nat} {v w : World}

theorem fresh_slack (registry : Nat) (name : String) :
    Keeps (Slack n) (resumeCreate id registry name none) := by
  intro w known
  have registered : Slack n w (exec (register registry) w).2 := by
    refine register_keeps registry (fun w => ?_) (fun w r there => ?_) w
    · exact fun known => ⟨known,loose_same rfl rfl rfl⟩
    · exact fun known => ⟨(endures_known n).made w registry r there known,loose_same rfl rfl rfl⟩
  rcases ran : exec (register registry) w with ⟨fault | m,u⟩
  · rw [ran] at registered
    rw [resumeCreate_refused ran]
    exact registered known
  · rw [ran] at registered
    rw [resumeCreate_made ran]
    obtain ⟨r,-,same,-⟩ := register_ok ran
    have other : m ≠ n := by omega
    exact Frame.trans registered (setOut_keeps (serves_slack other) id registry name trivial u) known

theorem resume_slack {job : Job} (other : job.teardown? ≠ some n) : Keeps (Slack n) (resume id job) := by
  refine resume_serves id job ?_ (fun m tears => serves_slack fun same => other (same ▸ tears)) ?_ ?_ ?_
  · intro m phase _
    exact (resumeUpdate_quiet id m phase).mono slack_quiet
  · intro registry name _
    exact fresh_slack registry name
  · intro promise plan deadline _
    exact (resumeStop_still id promise plan deadline).mono fun still => slack_quiet still.toQuiet
  · intro promise
    exact (await_still id promise).mono fun still => slack_quiet still.toQuiet

theorem waits_quiet {promise : Nat} (waits : Waits id promise w v) : Quiet w v := by
  have still := await_still id promise w
  rw [waits] at still
  exact still.toQuiet

theorem clearHook_unhooks (cleared : exec (clearHook n) w = (.ok (),v)) (tied : w.Tied n) :
    v.Unhooked n ∧ Handling n false w v ∧ n < w.links.length := by
  have handling : Handling n false w (exec (clearHook n) w).2 := clearHook_handling w
  rw [cleared] at handling
  have body := withHook_ok cleared
  rcases there : w.links[n]? with _ | l
  · rw [exec_bind_error (by rw [ensureAlive,exec_bind_error (exec_link_none there)])] at body
    cases body
  · have known := (List.getElem?_eq_some_iff.mp there).1
    rw [exec_bind,exec_ensureAlive there] at body
    split at body
    · rename_i same
      split at same
      · cases same
      · cases same
        obtain ⟨-,clears⟩ := detach_cases n w
        rw [body] at clears
        exact ⟨clears rfl tied,handling,known⟩
    · cases body

theorem begun_unhooked {promise : Nat} {t : World} (begun : exec (beginTeardown n) w = (.ok promise,t))
    (waits : Waits id promise t v) (tied : w.Tied n) :
    v.Unhooked n ∧ Loose n w v ∧ n < v.links.length := by
  obtain ⟨u,cleared,started⟩ := beginTeardown_ok begun
  obtain ⟨unhooked,handling,known⟩ := clearHook_unhooks cleared tied
  have quiet : Quiet u v := by
    have still := (startStop_still n true u).toQuiet
    rw [started] at still
    exact Frame.trans still (waits_quiet waits)
  refine ⟨unhooked.loose (loose_quiet quiet),Frame.trans (loose_handling handling nofun) (loose_quiet quiet),?_⟩
  rw [quiet.size,handling.size]
  exact known

theorem paused_slack {job next : Job} {promise : Nat} (ran : exec (resume id job) w = (.ok (.pause next),v))
    (awaits : next.awaits? = some (n,promise)) (tied : w.Tied n) : Slack n w v := by
  intro known
  rcases resume_paused ran awaits with ⟨-,waits⟩ | ⟨u,t,⟨-,rfl⟩ | ⟨_,_,_,-,-,same,-⟩,begun,waits⟩
  · exact slack_quiet (waits_quiet waits) known
  · obtain ⟨-,loose,size⟩ := begun_unhooked begun waits tied
    exact ⟨size,loose⟩
  · omega

namespace World

/-- The task is a teardown of the link that has begun and has not come to its end. -/
def TornBy (w : World) (n id : Nat) : Prop :=
  ∃ task, w.tasks[id]? = some (some task) ∧ task.job.Tears n

/-- A teardown of the link comes to its end. -/
def EndsTeardown (w : World) (n : Nat) (m : Move) : Prop :=
  ∃ (id : Nat) (task : Task), m = .turn id ∧ w.tasks[id]? = some (some task) ∧ task.aborted = false ∧
    task.job.teardown? = some n ∧ (w.turn id).tasks[id]? = some none

/-- Nobody switches the link on, and no teardown of it comes to its end. -/
def Undisturbed (n : Nat) : World → List Move → Prop
  | _,[] => True
  | w,m :: rest => ¬ w.SwitchesOn n m ∧ ¬ w.EndsTeardown n m ∧ Undisturbed n (w.move m) rest

end World

theorem slack_conclude (id : Nat) (label : Option Nat) (r : Except Fault Next) :
    Slack n v (conclude id label (r,v)) := slack_sameEntities (conclude_sameEntities id label r v)

theorem turn_slack (tied : w.Tied n) (lasts : ¬ w.EndsTeardown n (.turn id)) : Slack n w (w.turn id) := by
  refine turn_keeps slack_sameEntities w id fun task there active => ?_
  by_cases teardown : task.job.teardown? = some n
  · have goes : (w.turn id).tasks[id]? ≠ some none := fun ended =>
      lasts ⟨id,task,rfl,there,active,teardown,ended⟩
    obtain ⟨job,after⟩ := turn_goes_on there active goes
    obtain ⟨u,v,found,-,-,ran,-⟩ := turn_here after
    rw [there] at found
    cases found
    have follows := resume_yieldsNext id task.job (w.taken id) (.pause job) v ran
    obtain ⟨promise,awaits⟩ := follows.awaits teardown
    have kept := paused_slack ran awaits tied
    rw [ran]
    exact kept
  · exact resume_slack teardown (w.taken id)

theorem switch_slack {number : Nat} {name : String} {on : Bool} {m : Nat}
    (found : w.names.lookup name = some m)
    (stays : ¬ w.SwitchesOn n (.perform number (.setLive name on))) :
    Slack n w (exec (setLive m on) w).2 := by
  cases on with
  | false => exact slack_handling (setLive_handling false w) nofun
  | true =>
    by_cases here : m = n
    · subst here
      rcases setLive_sets m w with ⟨_,v,done⟩ | handling
      · refine absurd ⟨number,name,rfl,found,?_⟩ stays
        rw [perform_setLive found,act_done done]
      · exact slack_handling handling nofun
    · exact slack_handling (setLive_handling true w) fun _ => here

theorem move_slack {m : Move} (single : m.Single) (tied : w.Tied n) (stays : ¬ w.SwitchesOn n m)
    (lasts : ¬ w.EndsTeardown n m) : Slack n w (w.move m) := by
  cases m with
  | perform number c =>
    refine perform_keeps (fun noMore => slack_sameEntities noMore.toSameEntities)
      (fun still => slack_quiet still.toQuiet) w number c
      (fun ms same => single number ms (by rw [same])) (fun o _ known => ?_) ?_ ?_
    · have around := change_around w o
      exact ⟨by rw [around.links]; exact known,loose_around around⟩
    · intro name on k same found
      exact switch_slack found (same ▸ stays)
    · intro name k _ _
      exact slack_handling (kill_handling w) nofun
  | turn id => exact turn_slack tied lasts
  | arrive now => exact slack_sameEntities { SameEntities.refl w with }

theorem tied_move {m : Move} (single : m.Single) (tied : w.Tied n) : (w.move m).Tied n := by
  refine (endures_tied n).move w m single (fun _ o _ tied => ?_) tied
  have around := change_around w o
  exact tied.loose (loose_around around) fun l there => around.links ▸ there

theorem unhooked_run {moves : List Move} (single : ∀ m ∈ moves, m.Single)
    (undisturbed : Undisturbed n w moves) (known : n < w.links.length) (tied : w.Tied n)
    (unhooked : w.Unhooked n) : (w.run moves).Unhooked n := by
  -- a link that is there already is not made anew, which would give its hook to a widget
  induction moves generalizing w with
  | nil => exact unhooked
  | cons m rest ih =>
    obtain ⟨stays,lasts,later⟩ := undisturbed
    have fits := single m List.mem_cons_self
    obtain ⟨size,loose⟩ := move_slack fits tied stays lasts known
    exact ih (fun k member => single k (List.mem_cons_of_mem m member)) later size (tied_move fits tied)
      (unhooked.loose loose)

theorem begun_turn (tied : ∀ n, w.Tied n) (before : ¬ w.TornBy n id) (begun : (w.turn id).TornBy n id) :
    (w.turn id).Unhooked n ∧ n < (w.turn id).links.length := by
  obtain ⟨t,after,tears⟩ := begun
  obtain ⟨u,v,found,-,-,ran,turned⟩ := turn_here after
  obtain ⟨promise,awaits⟩ := Job.tears_iff.mp tears
  have concluded : Slack n v (w.turn id) := by
    rw [turned]
    exact slack_conclude id u.label _
  have taken (k : Nat) : (w.taken id).Tied k := (endures_tied k).entities (sameEntities_taken w id) (tied k)
  rcases resume_paused ran awaits with ⟨same,-⟩ | ⟨x,y,begins,begun,waits⟩
  · exact absurd ⟨u,found,same ▸ tears⟩ before
  · have ready : x.Tied n := by
      rcases begins with ⟨-,rfl⟩ | ⟨registry,name,r,-,there,-,rfl⟩
      · exact taken n
      · exact (endures_tied n).made _ registry r there (taken n)
    obtain ⟨unhooked,-,size⟩ := begun_unhooked begun waits ready
    obtain ⟨known,loose⟩ := concluded size
    exact ⟨unhooked.loose loose,known⟩

/-- The hook stays off. Whatever collaborators crash: from the turn in which a teardown of a link has
cleared the hook, no living widget carries the hook of that link, and what is typed starts no update on
it, up to the first time that the link is switched to live mode or a teardown of it comes to its end,
which may be another one. Waiting is told here as the turns that it comes to. -/
theorem hook_stays_off_until_a_teardown_ends (s : Setting) (v : World)
    (reached : Reaches (fun _ => True) s.start v) (n id : Nat) (before : ¬ v.TornBy n id)
    (begun : (v.turn id).TornBy n id) (moves : List Move) (single : ∀ m ∈ moves, m.Single)
    (undisturbed : Undisturbed n (v.turn id) moves) :
    ((v.turn id).run moves).Unhooked n ∧
      ∀ number editor text canSpawn t,
        some t ∈ (((v.turn id).run moves).perform number
          (.outside (.type editor text canSpawn))).2.tasks →
        some t ∈ ((v.turn id).run moves).tasks ∨
          ∃ k, k ≠ n ∧ t = { label := none, job := .update k .fresh } := by
  have tied := tied_of_reached reached
  obtain ⟨unhooked,known⟩ := begun_turn tied before begun
  have unhooked := unhooked_run single undisturbed known
    (tied_move (m := .turn id) nofun (tied n)) unhooked
  refine ⟨unhooked,fun number editor text canSpawn t member => ?_⟩
  have around := change_around ((v.turn id).run moves) (.type editor text canSpawn)
  rcases around.tasks with tasks | ⟨k,e,x,alive,widget,hook,-,tasks⟩
  · exact .inl (tasks ▸ member)
  · rcases List.mem_append.mp (tasks ▸ member) with old | new
    · exact .inl old
    · refine .inr ⟨k,?_,by simpa using new⟩
      rintro rfl
      exact unhooked e x widget alive hook

/-- The model of the one link is busy while a teardown of it is about to begin. -/
def busyLink : World :=
  oneLink.run [.perform 1 (.outside (.busy 0 100)),.perform 2 (.uncache "a")]

theorem reaches_busyLink : Reaches Move.Calm ({} : Setting).start busyLink :=
  Frame.trans reaches_oneLink ⟨_,by simp [Move.Calm,Move.Spares],rfl⟩

theorem waiting_teardown_keeps_hook_off :
    Reaches (fun _ => True) ({} : Setting).start busyLink ∧ ¬ busyLink.TornBy 0 2 ∧
      (busyLink.turn 2).TornBy 0 2 ∧ Undisturbed 0 (busyLink.turn 2) [.turn 3] ∧
      ((busyLink.turn 2).run [.turn 3]).Unhooked 0 := by
  have reached : Reaches (fun _ => True) ({} : Setting).start busyLink :=
    reaches_busyLink.mono fun _ _ => trivial
  have before : ¬ busyLink.TornBy 0 2 := by
    rintro ⟨task,there,tears⟩
    have job : busyLink.tasks[2]? = some (some { label := some 2, job := .uncache 0 none }) := by rfl
    rw [job] at there
    cases there
    exact tears.2 rfl
  have begun : (busyLink.turn 2).TornBy 0 2 :=
    ⟨{ label := some 2, job := .uncache 0 (some 1) },rfl,rfl,by simp⟩
  have undisturbed : Undisturbed 0 (busyLink.turn 2) [.turn 3] := by
    refine ⟨?_,?_,trivial⟩
    · rintro ⟨_,_,same,-⟩
      cases same
    · rintro ⟨id,task,same,there,-,teardown,-⟩
      cases same
      have job : ((busyLink.turn 2).tasks[3]?.join.bind fun t => t.job.teardown?) = none := by rfl
      rw [there] at job
      rw [show task.job.teardown? = none from job] at teardown
      cases teardown
  obtain ⟨unhooked,-⟩ := hook_stays_off_until_a_teardown_ends {} busyLink reached 0 2 before begun [.turn 3]
    (by simp [Move.Single]) undisturbed
  exact ⟨reached,before,begun,undisturbed,unhooked⟩

/-- While the first teardown waits, a second one is about to begin. -/
def tornTwice : World := busyLink.run [.turn 2,.turn 3,.perform 3 (.uncache "a")]

/-- The second teardown has cleared the hook and waits when the first one, which it has superseded, comes
to its end. -/
def restoredEarly : World := (tornTwice.turn 4).run [.turn 2]

theorem superseded_teardown_restores_hook :
    Reaches Move.Calm ({} : Setting).start tornTwice ∧ ¬ tornTwice.TornBy 0 4 ∧
      (tornTwice.turn 4).TornBy 0 4 ∧ restoredEarly.TornBy 0 4 ∧ ¬ restoredEarly.Unhooked 0 ∧
      (restoredEarly.perform 4 (.outside (.type 0 "x" true))).2.tasks =
        restoredEarly.tasks ++ [some { label := none, job := .update 0 .fresh }] := by
  have reached : Reaches Move.Calm ({} : Setting).start tornTwice :=
    Frame.trans reaches_busyLink ⟨_,by simp [Move.Calm,Move.Spares],rfl⟩
  refine ⟨reached,?_,?_,?_,?_,rfl⟩
  · rintro ⟨task,there,tears⟩
    have job : tornTwice.tasks[4]? = some (some { label := some 3, job := .uncache 0 none }) := by rfl
    rw [job] at there
    cases there
    exact tears.2 rfl
  · exact ⟨{ label := some 3, job := .uncache 0 (some 2) },rfl,rfl,by simp⟩
  · exact ⟨{ label := some 3, job := .uncache 0 (some 2) },rfl,rfl,by simp⟩
  · intro unhooked
    have widget : restoredEarly.widgets[0]? = some { hook := some 0, attached := 2, detached := 3 } := by
      rfl
    exact unhooked 0 _ widget rfl rfl

end EditorLink
