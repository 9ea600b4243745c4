import EditorLink.Link.Task

/-! What an action comes to from a given world, and how a relation between the world before and the
world after is carried through a whole action from its parts. -/
namespace EditorLink.Action
variable {α β : Type}

/-- The value or the fault an action ends with, and the world it leaves. -/
def exec (a : Action α) (w : World) : Except Fault α × World := a.run.run w

theorem exec_pure (x : α) (w : World) : exec (pure x) w = (.ok x,w) := rfl

theorem exec_get (w : World) : exec get w = (.ok w,w) := rfl

theorem exec_set (v w : World) : exec (set v) w = (.ok (),v) := rfl

theorem exec_modify (f : World → World) (w : World) : exec (modify f) w = (.ok (),f w) := rfl

theorem exec_modifyLink (n : Nat) (f : Link → Link) (w : World) :
    exec (modifyLink n f) w = (.ok (),w.modifyLink n f) := rfl

theorem exec_note (notice : Notice) (w : World) : exec (note notice) w = (.ok (),w.note notice) := rfl

theorem exec_fail (e : LinkError) (w : World) :
    exec (fail e : Action α) w = (.error (.error e),w) := rfl

theorem exec_crash (w : World) : exec (crash : Action α) w = (.error .crash,w) := rfl

theorem exec_bind (a : Action α) (f : α → Action β) (w : World) :
    exec (a >>= f) w = match exec a w with
      | (.ok x,v) => exec (f x) v
      | (.error e,v) => (.error e,v) := by
  simp only [exec,ExceptT.run_bind,StateT.run_bind]
  rcases a.run.run w with ⟨r,v⟩
  cases r <;> rfl

theorem exec_bind_ok {a : Action α} {f : α → Action β} {w v : World} {x : α}
    (ok : exec a w = (.ok x,v)) : exec (a >>= f) w = exec (f x) v := by
  rw [exec_bind,ok]

theorem exec_bind_error {a : Action α} {f : α → Action β} {w v : World} {e : Fault}
    (failed : exec a w = (.error e,v)) : exec (a >>= f) w = (.error e,v) := by
  rw [exec_bind,failed]

theorem exec_map (f : α → β) (a : Action α) (w : World) :
    exec (f <$> a) w = match exec a w with
      | (.ok x,v) => (.ok (f x),v)
      | (.error e,v) => (.error e,v) := by
  rw [← bind_pure_comp,exec_bind]
  rfl

theorem exec_tryCatch (a : Action α) (handler : Fault → Action α) (w : World) :
    exec (tryCatch a handler) w = match exec a w with
      | (.ok x,v) => (.ok x,v)
      | (.error e,v) => exec (handler e) v := by
  change exec (ExceptT.tryCatch a handler) w = _
  rw [exec,ExceptT.tryCatch,ExceptT.run_mk,StateT.run_bind]
  have same : StateT.run (m := Id) a w = exec a w := rfl
  rw [same]
  rcases exec a w with ⟨r,v⟩
  cases r <;> rfl

theorem exec_result (a : Action α) (w : World) :
    exec (result a) w = match exec a w with
      | (.ok x,v) => (.ok (.ok x),v)
      | (.error (.error e),v) => (.ok (.error e),v)
      | (.error .crash,v) => (.error .crash,v) := by
  rw [result,exec_tryCatch,exec_map]
  rcases exec a w with ⟨r,v⟩
  cases r with
  | ok x => rfl
  | error fault => cases fault <;> rfl

theorem exec_onCrash (a : Action α) (mend : Action Unit) (w : World) :
    exec (onCrash a mend) w = match exec a w with
      | (.ok x,v) => (.ok x,v)
      | (.error (.error e),v) => (.error (.error e),v)
      | (.error .crash,v) => exec (do mend; crash) v := by
  rw [onCrash,exec_tryCatch]
  rcases exec a w with ⟨r,v⟩
  cases r with
  | ok x => rfl
  | error fault => cases fault <;> rfl

theorem exec_link (n : Nat) (w : World) :
    exec (link n) w = match w.links[n]? with
      | some l => (.ok l,w)
      | none => (.error .crash,w) := by
  rw [link,exec_bind,exec_get]
  dsimp only
  cases w.links[n]? <;> rfl

theorem exec_link_some {n : Nat} {w : World} {l : Link} (there : w.links[n]? = some l) :
    exec (link n) w = (.ok l,w) := by
  rw [exec_link,there]

theorem exec_link_none {n : Nat} {w : World} (missing : w.links[n]? = none) :
    exec (link n) w = (.error .crash,w) := by
  rw [exec_link,missing]

theorem exec_visit {site : Site} {w : World} (spared : site ∉ w.sites) :
    exec (visit site) w = (.ok (),w) := by
  rw [visit,exec_bind_ok (exec_get w),if_neg spared,exec_pure]

theorem exec_visit_wild {site : Site} {w : World} (wild : site ∈ w.sites) :
    exec (visit site) w = (.error .crash,w) := by
  rw [visit,exec_bind_ok (exec_get w),if_pos wild,exec_crash]

/-! An action that only looks leaves the world as it is. -/

def Reads (a : Action α) : Prop := ∀ w, (exec a w).2 = w

theorem reads_pure (x : α) : Reads (pure x : Action α) := fun _ => rfl

theorem reads_fail (e : LinkError) : Reads (fail e : Action α) := fun _ => rfl

theorem reads_crash : Reads (crash : Action α) := fun _ => rfl

theorem reads_get : Reads (get : Action World) := fun _ => rfl

theorem Reads.bind {a : Action α} {f : α → Action β} (first : Reads a) (next : ∀ x, Reads (f x)) :
    Reads (a >>= f) := by
  intro w
  have same := first w
  rw [exec_bind]
  rcases run : exec a w with ⟨r,v⟩
  rw [run] at same
  subst same
  cases r with
  | ok x => exact next x _
  | error e => rfl

theorem Reads.bind_cases {a : Action α} (reads : Reads a) (f : α → Action β) (w : World) :
    (∃ fault, exec (a >>= f) w = (.error fault,w)) ∨
      ∃ x, exec a w = (.ok x,w) ∧ exec (a >>= f) w = exec (f x) w := by
  have same := reads w
  rw [exec_bind]
  rcases run : exec a w with ⟨fault | x,v⟩
  · rw [run] at same
    subst same
    exact .inl ⟨fault,rfl⟩
  · rw [run] at same
    subst same
    exact .inr ⟨x,rfl,rfl⟩

theorem link_ok {n : Nat} {w v : World} {l : Link} (ran : exec (link n) w = (.ok l,v)) :
    w.links[n]? = some l := by
  rw [exec_link] at ran
  split at ran
  · cases ran
    assumption
  · cases ran

theorem reads_link (n : Nat) : Reads (link n) := by
  intro w
  rw [exec_link]
  cases w.links[n]? <;> rfl

theorem reads_ensureAlive (n : Nat) : Reads (ensureAlive n) := by
  refine (reads_link n).bind fun l => ?_
  split
  · exact reads_fail _
  · exact reads_pure _

theorem reads_visit (site : Site) : Reads (visit site) := by
  refine reads_get.bind fun w => ?_
  split
  · exact reads_crash
  · exact reads_pure _

theorem reads_model (n : Nat) : Reads (model n) := by
  refine reads_get.bind fun w => ?_
  cases w.models[n]? with
  | some m => exact reads_pure _
  | none => exact reads_crash

theorem reads_now : Reads now := reads_get.bind fun _ => reads_pure _

theorem reads_ofExcept (r : Except LinkError α) : Reads (ofExcept r) := by
  cases r with
  | ok x => exact reads_pure x
  | error e => exact reads_fail e

theorem reads_isLive (n : Nat) : Reads (isLive n) :=
  (reads_ensureAlive n).bind fun _ => (reads_link n).bind fun _ => reads_pure _

theorem reads_modelOf (n : Nat) : Reads (modelOf n) :=
  (reads_ensureAlive n).bind fun _ => (reads_link n).bind fun _ => reads_pure _

/-- Whatever the action gives has the property. -/
def Yields (P : α → Prop) (a : Action α) : Prop := ∀ v x w, exec a v = (.ok x,w) → P x

variable {P : α → Prop}

theorem yields_pure {x : α} (holds : P x) : Yields P (pure x) := by
  intro v y w ends
  cases ends
  exact holds

theorem yields_fail (e : LinkError) : Yields P (fail e) := by
  intro v x w ends
  cases ends

theorem yields_crash : Yields P crash := by
  intro v x w ends
  cases ends

theorem Yields.bind {a : Action β} {f : β → Action α} (next : ∀ x, Yields P (f x)) :
    Yields P (a >>= f) := by
  intro v y w ends
  rw [exec_bind] at ends
  rcases run : exec a v with ⟨r,u⟩
  rw [run] at ends
  cases r with
  | ok x => exact next x u y w ends
  | error e => cases ends

theorem Yields.onCrash {a : Action α} {mend : Action Unit} (yields : Yields P a) :
    Yields P (onCrash a mend) := by
  intro v x w ends
  rw [exec_onCrash] at ends
  rcases run : exec a v with ⟨r,u⟩
  rw [run] at ends
  cases r with
  | ok x => exact yields v _ w (run.trans ends)
  | error fault =>
    cases fault with
    | error e => cases ends
    | crash =>
      have never : Yields P (do mend; crash) := Yields.bind fun _ => yields_crash
      exact never u x w ends

end Action

/-- A relation that a course of events keeps when each part of it does. -/
class Frame (R : World → World → Prop) : Prop where
  refl : ∀ w, R w w
  trans : ∀ {u v w}, R u v → R v w → R u w

instance frame_invariant (P : World → Prop) : Frame fun v w => P v → P w where
  refl _ := id
  trans first next holds := next (first holds)

namespace Action
variable {R : World → World → Prop}

/-- Whatever an action ends with, the world it leaves stands in the relation to the one before. -/
def Keeps (R : World → World → Prop) (a : Action α) : Prop := ∀ w, R w (exec a w).2

theorem Keeps.mono {S : World → World → Prop} {a : Action α} (keeps : Keeps R a)
    (weaker : ∀ {v w}, R v w → S v w) : Keeps S a := fun w => weaker (keeps w)

theorem Reads.keeps [Frame R] {a : Action α} (reads : Reads a) : Keeps R a := by
  intro w
  rw [reads w]
  exact Frame.refl w

theorem keeps_modify {f : World → World} (step : ∀ w, R w (f w)) : Keeps R (modify f : Action Unit) :=
  step

theorem Keeps.bind [Frame R] {a : Action α} {f : α → Action β} (first : Keeps R a)
    (next : ∀ x, Keeps R (f x)) : Keeps R (a >>= f) := by
  intro w
  have before := first w
  rw [exec_bind]
  rcases run : exec a w with ⟨r,v⟩
  rw [run] at before
  cases r with
  | ok x => exact Frame.trans before (next x v)
  | error e => exact before

theorem Keeps.result {a : Action α} (keeps : Keeps R a) : Keeps R (result a) := by
  intro w
  have after := keeps w
  rw [exec_result]
  rcases run : exec a w with ⟨r,v⟩
  rw [run] at after
  cases r with
  | ok x => exact after
  | error fault => cases fault <;> exact after

theorem Keeps.onCrash [Frame R] {a : Action α} {mend : Action Unit} (keeps : Keeps R a)
    (mended : Keeps R mend) : Keeps R (onCrash a mend) := by
  intro w
  have after := keeps w
  rw [exec_onCrash]
  rcases run : exec a w with ⟨r,v⟩
  rw [run] at after
  cases r with
  | ok x => exact after
  | error fault =>
    cases fault with
    | error e => exact after
    | crash => exact Frame.trans after (mended.bind (fun _ => reads_crash.keeps) v)

theorem Keeps.withHook [Frame R] {n : Nat} {a : Action α} (keeps : Keeps R a)
    (poisons : Keeps R (modifyLink n fun l => { l with hookPoisoned := true })) :
    Keeps R (withHook n a) := by
  refine (reads_link n).keeps.bind fun l => ?_
  split
  · exact (reads_fail _).keeps
  · exact keeps.onCrash poisons

end Action
end EditorLink
