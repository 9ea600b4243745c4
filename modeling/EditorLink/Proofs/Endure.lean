import EditorLink.Proofs.Move

/-! What every move keeps, whichever collaborators crash: it is enough that it is kept where the
entities stay the same, by the background, by what links do to their hooks, and by the making of a new
link. -/
namespace EditorLink
open World EditorLink.Action

structure Endures (R : World → World → Prop) : Prop where
  frame : Frame R
  entities : ∀ {v w}, SameEntities v w → R v w
  quiet : ∀ {v w}, Quiet v w → R v w
  handling : ∀ {n sets v w}, Handling n sets v w → R v w
  made : ∀ (w : World) registry r, w.registries[registry]? = some r → R w (w.withLink registry r)
  crashed : ∀ (w : World) registry, R w (w.withoutFactory registry)

variable {R : World → World → Prop}

theorem Endures.serves (endures : Endures R) (n : Nat) : Serves n R := by
  have := endures.frame
  exact serves_of_handling endures.handling (fun w _ => endures.entities { SameEntities.refl w with })
    (fun id promise _ => (await_still id promise).mono fun still => endures.quiet still.toQuiet)
    ((startStop_still n true).mono fun still => endures.quiet still.toQuiet)
    ((uncacheModel_still n).mono fun still => endures.quiet still.toQuiet)

theorem Endures.resume (endures : Endures R) (id : Nat) (job : Job) : Keeps R (resume id job) := by
  have := endures.frame
  refine resume_serves id job ?_ (fun n _ => endures.serves n) ?_ ?_ ?_
  · intro n phase _
    exact (resumeUpdate_quiet id n phase).mono endures.quiet
  · intro registry name _
    have registers : Keeps R (register registry) :=
      register_keeps registry (fun w => endures.crashed w registry) fun w r => endures.made w registry r
    exact resumeCreate_fresh_keeps registry registers endures.serves id name
  · intro promise plan deadline _
    exact (resumeStop_still id promise plan deadline).mono fun still => endures.quiet still.toQuiet
  · intro promise
    exact (await_still id promise).mono fun still => endures.quiet still.toQuiet

theorem Endures.move (endures : Endures R) (w : World) (m : Move) (single : m.Single)
    (outside : ∀ number o, m = .perform number (.outside o) → R w (w.change o).2) :
    R w (w.move m) := by
  have := endures.frame
  cases m with
  | perform number c =>
    refine perform_keeps (fun noMore => endures.entities noMore.toSameEntities)
      (fun still => endures.quiet still.toQuiet) w number c
      (fun ms same => single number ms (by rw [same])) (fun o same => outside number o (by rw [same])) ?_ ?_
    · exact fun _ on n _ _ => endures.handling (setLive_handling on w)
    · exact fun _ n _ _ => endures.handling (kill_handling w)
  | turn id =>
    exact turn_keeps endures.entities w id fun task _ _ => endures.resume id task.job (w.taken id)
  | arrive now => exact endures.entities { SameEntities.refl w with }

theorem Endures.reaches {allowed : Move → Prop} (endures : Endures R)
    (internal : ∀ m, m.Internal → allowed m)
    (outside : ∀ (w : World) number o, allowed (.perform number (.outside o)) → R w (w.change o).2)
    {v w : World} (reached : Reaches allowed v w) : R v w := by
  have := endures.frame
  refine run_keeps internal (fun w m fine single => endures.move w m single ?_) reached
  exact fun number o same => outside w number o (same ▸ fine)

theorem endures_spared (site : Site) : Endures fun v w => site ∉ v.sites → site ∉ w.sites where
  frame := inferInstance
  entities entities spared := by rw [entities.sites]; exact spared
  quiet quiet spared := by rw [quiet.sites]; exact spared
  handling handling spared := by rw [handling.same]; exact spared
  made _ _ _ _ spared := spared
  crashed _ _ spared := spared

end EditorLink
