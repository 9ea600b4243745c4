import EditorLink.Proofs.Silence
import EditorLink.Proofs.Tasks

/-! When the place of a registry is free again: once the callers have let go of its last link, only an
update that was started by typing can still hold the link, and with it the place. -/
namespace EditorLink
open World EditorLink.Action

/-- Nobody can abort what no command has started, and that is nothing but stop attempts and updates. -/
def Task.Unattended (t : Task) : Prop :=
  t.label = none → t.aborted = false ∧
    ((∃ n phase, t.job = .update n phase) ∨ ∃ promise plan deadline, t.job = .stop promise plan deadline)

namespace World

theorem unattended_of_reached {s : Setting} {w : World} (reached : Reaches (fun _ => True) s.start w) :
    w.Everyone Task.Unattended := by
  refine everyone_of_reached ?_ ?_ ?_ ?_ ?_ reached
  · intro t job before follows unlabelled
    obtain ⟨active,⟨n,phase,same⟩ | ⟨promise,plan,deadline,same⟩⟩ := before unlabelled
    · rw [same] at follows
      cases follows with
      | update _ _ next => exact ⟨active,.inl ⟨n,next,rfl⟩⟩
    · rw [same] at follows
      cases follows with
      | stop _ _ _ next => exact ⟨active,.inr ⟨promise,plan,some next,rfl⟩⟩
  · intro t label before labelled unlabelled
    rw [show t.label = none from unlabelled] at labelled
    cases labelled
  · intro number job called unlabelled
    cases unlabelled
  · intro n _
    exact ⟨rfl,.inl ⟨n,.fresh,rfl⟩⟩
  · intro promise plan _
    exact ⟨rfl,.inr ⟨promise,plan,none,rfl⟩⟩

/-- No name is left for the last link of the registry, and no call of a caller is under way for it. -/
def LetGo (w : World) (registry : Nat) : Prop :=
  ∀ n, w.lastOf registry = some n → (∀ name, (name,n) ∉ w.names) ∧
    ∀ (id : Nat) (t : Task), w.tasks[id]? = some (some t) → t.label ≠ none → t.job.link? ≠ some n

/-- An update of the link that was started by typing has not come to its end. -/
def TypedUpdate (w : World) (n : Nat) : Prop :=
  ∃ (id : Nat) (phase : UpdatePhase),
    w.tasks[id]? = some (some { label := none, job := .update n phase })

variable {w : World} {registry n : Nat}

theorem LetGo.held_iff (letGo : w.LetGo registry) (last : w.lastOf registry = some n)
    (unattended : w.Everyone Task.Unattended) :
    w.held n = true ↔ w.TypedUpdate n := by
  obtain ⟨unnamed,uncalled⟩ := letGo n last
  constructor
  · intro held
    rcases World.held_iff.mp held with ⟨name,member⟩ | ⟨t,member,holds⟩
    · exact absurd member (unnamed name)
    · obtain ⟨i,there⟩ := List.mem_iff_getElem?.mp member
      obtain ⟨label,job,aborted⟩ := t
      cases label with
      | some label => exact absurd holds (uncalled i _ there nofun)
      | none =>
        obtain ⟨active,⟨m,phase,same⟩ | ⟨promise,plan,deadline,same⟩⟩ := unattended i _ there rfl
        · cases same
          cases active
          cases holds
          exact ⟨i,phase,there⟩
        · cases same
          cases holds
  · rintro ⟨i,phase,there⟩
    exact held_of_task there rfl

theorem current?_isSome_iff : (w.current? registry).isSome ↔
    ∃ r n, w.registries[registry]? = some r ∧ r.poisoned = false ∧ r.last = some n ∧
      w.isDead n = false ∧ w.held n = true := by
  unfold current?
  rcases w.registries[registry]? with _ | r
  · simp
  · cases poisoned : r.poisoned with
    | true => simp [poisoned]
    | false =>
      rcases last : r.last with _ | n
      · simp [poisoned,last]
      · simp [poisoned,last,and_comm]

/-- A creation that gets its first turn is refused on account of another link if and only if the
registry tells of one, whichever collaborators crash. -/
theorem fresh_refused_iff {id label : Nat} {name : String}
    (there : w.tasks[id]? = some (some { label := some label, job := .create registry name none })) :
    (poll id w).events = w.events ++ [⟨w.now,label,.failed .alreadyExists⟩] ↔
      (w.current? registry).isSome := by
  rw [poll_active there rfl]
  dsimp only [resume]
  rcases known : w.registries[registry]? with _ | r
  · rw [resumeCreate_refused (exec_register_none known),conclude_events]
    simp [reportOf,current?,known]
  · have registered := exec_register_there known
    split at registered
    · rename_i poisoned
      rw [resumeCreate_refused registered,conclude_events]
      simp [reportOf,current?,known,poisoned]
    · split at registered
      · rename_i other
        rw [resumeCreate_refused registered,conclude_events]
        simp [reportOf,other]
      · rename_i free
        split at registered
        · rw [resumeCreate_refused registered,conclude_events]
          simp [reportOf,withoutFactory,free]
        · exact ⟨fun said => absurd said (made_not_refused registered rfl),fun h => absurd h free⟩

end World

/-- Whatever callers do and whichever collaborators crash: once the callers have let go of the last link
of a registry, a new creation is refused on account of that link if and only if the link is not dead and
an update of it that was started by typing has not come to its end. -/
theorem refused_only_while_typed_update_lasts (s : Setting) (w : World)
    (reached : Reaches (fun _ => True) s.start w) (registry : Nat) (letGo : w.LetGo registry)
    (id label : Nat) (name : String)
    (there : w.tasks[id]? = some (some { label := some label, job := .create registry name none })) :
    (w.turn id).events = w.events ++ [⟨w.now,label,.failed .alreadyExists⟩] ↔
      ∃ r n, w.registries[registry]? = some r ∧ r.poisoned = false ∧ r.last = some n ∧
        w.isDead n = false ∧ w.TypedUpdate n := by
  have unattended := unattended_of_reached reached
  have refused := fresh_refused_iff (w := w.taken id) there
  refine refused.trans (current?_isSome_iff.trans ?_)
  constructor
  · rintro ⟨r,n,known,fine,last,alive,held⟩
    have lastOf : w.lastOf registry = some n := Option.bind_eq_some_iff.mpr ⟨r,known,last⟩
    exact ⟨r,n,known,fine,last,alive,(letGo.held_iff lastOf unattended).mp held⟩
  · rintro ⟨r,n,known,fine,last,alive,update⟩
    have lastOf : w.lastOf registry = some n := Option.bind_eq_some_iff.mpr ⟨r,known,last⟩
    exact ⟨r,n,known,fine,last,alive,(letGo.held_iff lastOf unattended).mpr update⟩

theorem letGo_of_tasks {w : World} {registry : Nat} (unnamed : w.names = [])
    (uncalled : ∀ t, some t ∈ w.tasks → t.label ≠ none → t.job.link? = none) : w.LetGo registry := by
  intro n _
  refine ⟨by simp [unnamed],fun id t there labelled holds => ?_⟩
  rw [uncalled t (List.mem_of_getElem? there) labelled] at holds
  cases holds

/-- The only name of the link is dropped, and another one is asked for. -/
def droppedLink : World := oneLink.run [.perform 1 (.drop "a"),.perform 2 (.create "b" 0)]

theorem dropped_link_makes_room :
    Reaches (fun _ => True) ({} : Setting).start droppedLink ∧ droppedLink.LetGo 0 ∧
      (droppedLink.turn 2).events ≠
        droppedLink.events ++ [⟨droppedLink.now,2,.failed .alreadyExists⟩] := by
  have reached : Reaches (fun _ => True) ({} : Setting).start droppedLink :=
    Frame.trans (reaches_oneLink.mono fun _ _ => trivial) ⟨_,by simp,rfl⟩
  have tasks : droppedLink.tasks =
      [none,none,some { label := some 2, job := .create 0 "b" none }] := by rfl
  have letGo : droppedLink.LetGo 0 := letGo_of_tasks rfl (by simp [tasks,Job.link?])
  refine ⟨reached,letGo,fun said => ?_⟩
  obtain ⟨r,n,-,-,-,-,i,phase,update⟩ :=
    (refused_only_while_typed_update_lasts {} droppedLink reached 0 letGo 2 2 "b" rfl).mp said
  have member := List.mem_of_getElem? update
  simp [tasks] at member

/-- The same after something was typed, less than the model's interval ago. -/
def typedLink : World :=
  oneLink.run [.perform 1 (.outside (.type 0 "x" true)),.turn 2,.perform 2 (.drop "a"),
    .perform 3 (.create "b" 0)]

theorem dropped_link_keeps_its_place :
    Reaches (fun _ => True) ({} : Setting).start typedLink ∧ typedLink.LetGo 0 ∧
      (typedLink.turn 3).events = typedLink.events ++ [⟨typedLink.now,3,.failed .alreadyExists⟩] := by
  have reached : Reaches (fun _ => True) ({} : Setting).start typedLink :=
    Frame.trans (reaches_oneLink.mono fun _ _ => trivial) ⟨_,by simp,rfl⟩
  have tasks : typedLink.tasks =
      [none,none,some { label := none, job := .update 0 .debouncing },
        some { label := some 3, job := .create 0 "b" none }] := by rfl
  exact ⟨reached,letGo_of_tasks rfl (by simp [tasks,Job.link?]),rfl⟩

end EditorLink
