import EditorLink.Proofs.Course
import EditorLink.Proofs.Persist

/-! Runs in which nobody crashes at all: there every stop attempt of a living link can be started, and the
verdict of an attempt is that the model has stopped, that it was too slow, or that the attempt was
superseded. -/
namespace EditorLink
open World EditorLink.Action

/-- No collaborator is made to crash, and stop attempts are started only where tasks can run. -/
def Move.Serene (m : Move) : Prop := m.Calm ∧ ∀ number name, m ≠ .perform number (.stop name false)

theorem Move.Internal.serene {m : Move} (internal : m.Internal) : m.Serene := by
  refine ⟨internal.calm,?_⟩
  rintro number name rfl
  exact internal

namespace World

variable {v w : World} {n : Nat}

/-- Nobody has crashed while a stop attempt was started. -/
def Unjammed (w : World) : Prop := ∀ (n : Nat) (l : Link), w.links[n]? = some l → l.stopPoisoned = false

theorem Unjammed.same (unjammed : v.Unjammed) (links : w.links = v.links) : w.Unjammed := by
  intro n l there
  rw [links] at there
  exact unjammed n l there

theorem Unjammed.handling {sets : Bool} (unjammed : v.Unjammed) (handling : Handling n sets v w) :
    w.Unjammed := by
  intro m l there
  have known := (List.getElem?_eq_some_iff.mp there).1
  rw [handling.size] at known
  have before := List.getElem?_eq_getElem known
  obtain ⟨k,found,-,handled⟩ := handling.links m _ before
  rw [there] at found
  cases found
  exact handled.stopPoisoned.trans (unjammed m _ before)

theorem Unjammed.withLink (unjammed : w.Unjammed) (registry : Nat) (r : Registry) :
    (w.withLink registry r).Unjammed := by
  intro n l there
  simp only [World.withLink,List.getElem?_append] at there
  split at there
  · exact unjammed n l there
  · obtain rfl := List.mem_singleton.mp (List.mem_of_getElem? there)
    rfl

theorem Unjammed.set {l : Link} (unjammed : v.Unjammed) (fine : l.stopPoisoned = false)
    (links : w.links = v.links.set n l) : w.Unjammed := by
  intro m k there
  rw [links,List.getElem?_set] at there
  split at there
  · split at there
    · cases there
      exact fine
    · cases there
  · exact unjammed m k there

abbrev KeepsUnjammed (v w : World) : Prop := v.Unjammed → w.Unjammed

theorem unjammed_startStop (n : Nat) : Keeps KeepsUnjammed (startStop n true) := by
  intro w unjammed
  rcases startStop_cases n true w with ⟨fault,refused⟩ | ⟨l,v,there,fine,released,ran⟩
  · rw [refused]
    exact unjammed
  · have before : v.Unjammed := unjammed.set (l := { l with stop := none }) fine released.links
    have links := modify_eq_set (fun k : Link => { k with stop := some v.promises.length }) (released.found there)
    have after : (v.attempted n { l with stop := none }).Unjammed :=
      before.set (l := { l with stop := some v.promises.length }) fine links
    rw [ran]
    exact after

theorem unjammed_serves (n : Nat) : Serves n KeepsUnjammed :=
  serves_of_handling (fun handling unjammed => unjammed.handling handling)
    (fun _ _ unjammed => unjammed.same rfl)
    (fun id p _ w unjammed => by
      rw [exec_await]
      split <;> exact unjammed.same rfl)
    (unjammed_startStop n)
    (uncacheModel_keeps n (fun _ _ unjammed => unjammed.same rfl) fun _ unjammed => unjammed.same rfl)

theorem unjammed_resume (id : Nat) (job : Job) : Keeps KeepsUnjammed (resume id job) := by
  refine resume_serves id job ?_ (fun n _ => unjammed_serves n) ?_ ?_ fun p => (unjammed_serves 0).await id p trivial
  · intro n phase _
    exact resumeUpdate_keeps (R := KeepsUnjammed) id (fun _ _ unjammed => unjammed.same rfl)
      (fun _ _ _ _ unjammed => unjammed.same rfl) (fun _ _ _ _ unjammed => unjammed.same rfl)
      (fun _ _ unjammed => unjammed.same rfl) n phase
  · intro registry name _
    have registers : Keeps KeepsUnjammed (register registry) :=
      register_keeps registry (fun _ unjammed => unjammed.same rfl) fun _ r _ unjammed =>
        unjammed.withLink registry r
    exact resumeCreate_fresh_keeps registry registers unjammed_serves id name
  · intro p plan deadline _ w unjammed
    exact unjammed.same (by rw [(resumeStop_tried id p plan deadline w).same])

theorem unjammed_perform {number : Nat} {c : Command} (single : ∀ ms, c ≠ .advance ms)
    (serene : ∀ name, c ≠ .stop name false) (unjammed : w.Unjammed) : (w.perform number c).2.Unjammed := by
  have does := perform_does w number c single
  generalize (w.perform number c).2 = v at does ⊢
  cases does with
  | outside o => exact unjammed.same (change_around w o).links
  | switched name on n found => exact unjammed.handling (setLive_handling on w)
  | killed name n found => exact unjammed.handling (kill_handling w)
  | stopped name canSpawn n handles =>
    cases canSpawn with
    | true => exact (unjammed_startStop n w unjammed).same rfl
    | false => exact absurd rfl (serene name)
  | cancelled handle promise =>
    obtain ⟨schedule,same⟩ := updatePromise_same w promise Promise.cancel
    exact unjammed.same (by rw [same])
  | aborted label => exact unjammed.same (holdsNoMore_abort w label).links
  | _ => exact unjammed.same rfl

theorem unjammed_of_reached {s : Setting} (reached : Reaches Move.Serene s.start w) : w.Unjammed := by
  refine run_keeps (R := KeepsUnjammed) (fun _ => Move.Internal.serene) (fun w m serene single => ?_) reached ?_
  rotate_left
  · rintro n l there
    cases there
  cases m with
  | perform number c =>
    exact unjammed_perform (fun ms same => single number ms (by rw [same]))
      fun name same => serene.2 number name (by rw [same])
  | turn id =>
    exact turn_keeps (fun entities unjammed => unjammed.same entities.links) w id fun task _ _ =>
      unjammed_resume id task.job _
  | arrive now => exact fun unjammed => unjammed.same rfl

/-- An attempt fails only in a turn of its own, when its time is up. -/
theorem move_failed {m : Move} (orderly : v.Orderly) (single : m.Single) {p : Nat} {x : Promise Verdict} {e : LinkError}
    (there : (v.move m).outcomes[p]? = some x) (failed : x.value = some (.error e)) :
    (∃ y, v.outcomes[p]? = some y ∧ y.value = some (.error e)) ∨
      ∃ id plan deadline, m = .turn id ∧ v.Pursues id p plan deadline ∧ v.isCancelled p = false ∧
        e = .stopTimedOut plan.timeout := by
  rcases move_cases single orderly with ⟨id,q,plan,deadline,rfl,own⟩ | bides
  · rcases turn_failed own there failed with before | ⟨rfl,uncancelled,late⟩
    · exact .inl ⟨x,before,failed⟩
    · exact .inr ⟨id,plan,deadline,rfl,own,uncancelled,late⟩
  · exact .inl (bides.settled_before orderly there failed)

/-- An attempt that has failed in the meantime was under way at some point, and its time was up. -/
theorem failed_between (orderly : v.Orderly) (reached : Reaches (fun _ => True) v w) {p : Nat} {x : Promise Verdict}
    {e : LinkError} (there : w.outcomes[p]? = some x) (failed : x.value = some (.error e)) :
    (∃ y, v.outcomes[p]? = some y ∧ y.value = some (.error e)) ∨
      ∃ u id plan deadline, Reaches (fun _ => True) v u ∧ Reaches (fun _ => True) u w ∧
        u.Pursues id p plan deadline ∧ u.isCancelled p = false ∧ e = .stopTimedOut plan.timeout := by
  obtain ⟨moves,single,rfl⟩ := reached.singly fun _ _ => trivial
  induction moves generalizing v with
  | nil => exact .inl ⟨x,there,failed⟩
  | cons m rest ih =>
    have first := single m List.mem_cons_self
    have rests (k : Move) (member : k ∈ rest) := single k (List.mem_cons_of_mem m member)
    have goes : Reaches (fun _ => True) v (v.move m) := reaches_move v m trivial
    have later : Reaches (fun _ => True) (v.move m) ((v.move m).run rest) := ⟨rest,fun _ _ => trivial,rfl⟩
    rcases ih (move_goes v first.2 orderly).1 rests later there with
      ⟨y,found,same⟩ | ⟨u,id,plan,deadline,before,after,pursues⟩
    · rcases move_failed orderly first.2 found same with known | ⟨id,plan,deadline,-,pursues⟩
      · exact .inl known
      · exact .inr ⟨v,id,plan,deadline,Frame.refl v,Frame.trans goes later,pursues⟩
    · exact .inr ⟨u,id,plan,deadline,Frame.trans goes before,after,pursues⟩

/-- Every attempt that has failed was too slow. -/
def Timed (w : World) : Prop := ∀ (p : Nat) (x : Promise Verdict) (e : LinkError), w.outcomes[p]? = some x →
  x.value = some (.error e) → ∃ ms, e = .stopTimedOut ms

theorem timed_of_reached {s : Setting} (reached : Reaches (fun _ => True) s.start w) : w.Timed := by
  intro p x e there failed
  rcases failed_between (orderly_of_reached (Frame.refl _)) reached there failed with
    ⟨y,before,-⟩ | ⟨u,id,plan,deadline,-,-,-,-,late⟩
  · cases before
  · exact ⟨plan.timeout,late⟩

/-- What waiting for an attempt may come to. -/
theorem verdict_cases {p : Nat} {answer : Option Verdict} (timed : w.Timed)
    (answered : w.promises[p]?.bind Promise.answer? = some answer) :
    verdict answer = .ok () ∨ verdict answer = .error .superseded ∨
      ∃ ms, verdict answer = .error (.stopTimedOut ms) := by
  obtain ⟨x,there,known⟩ := Option.bind_eq_some_iff.mp answered
  unfold Promise.answer? at known
  split at known
  · cases known
    exact .inr (.inl rfl)
  · split at known
    · rename_i v value
      cases known
      rcases v with e | _
      · obtain ⟨ms,rfl⟩ := timed p x.core e (by simp [World.outcomes,there]) value
        exact .inr (.inr ⟨ms,rfl⟩)
      · exact .inl rfl
    · split at known
      · cases known
      · cases known
        exact .inr (.inl rfl)

end World
end EditorLink
