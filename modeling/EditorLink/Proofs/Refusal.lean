import EditorLink.Proofs.Teardown

/-! Which errors an action may end with. Once a creation has its link, whatever becomes of the link's
first teardown, it is not refused on account of another link. -/
namespace EditorLink.Action

/-- The action does not fail with the given error, though it may with others. -/
def Avoids {α : Type} (e : LinkError) (a : Action α) : Prop := ∀ w, (exec a w).1 ≠ .error (.error e)

variable {α β : Type} {e : LinkError}

theorem avoids_ok {a : Action α} (fine : ∀ w, ∃ x, (exec a w).1 = .ok x) : Avoids e a := by
  intro w failed
  obtain ⟨x,ok⟩ := fine w
  rw [ok] at failed
  cases failed

theorem avoids_pure (x : α) : Avoids e (pure x : Action α) := avoids_ok fun _ => ⟨x,rfl⟩

theorem avoids_get : Avoids e (get : Action World) := avoids_ok fun w => ⟨w,rfl⟩

theorem avoids_modify (f : World → World) : Avoids e (modify f : Action Unit) :=
  avoids_ok fun _ => ⟨(),rfl⟩

theorem avoids_crash : Avoids e (crash : Action α) := fun _ => nofun

theorem avoids_fail {other : LinkError} (different : other ≠ e) :
    Avoids e (fail other : Action α) := by
  intro w failed
  cases failed
  exact different rfl

theorem Avoids.bind_from {a : Action α} {f : α → Action β} (first : Avoids e a)
    (next : ∀ x v w, exec a v = (.ok x,w) → Avoids e (f x)) : Avoids e (a >>= f) := by
  intro v
  have before := first v
  rw [exec_bind]
  rcases ran : exec a v with ⟨fault | x,w⟩
  · intro failed
    cases failed
    exact before (by rw [ran])
  · exact next x v w ran w

theorem Avoids.bind {a : Action α} {f : α → Action β} (first : Avoids e a)
    (next : ∀ x, Avoids e (f x)) : Avoids e (a >>= f) :=
  first.bind_from fun x _ _ _ => next x

theorem avoids_result {a : Action α} : Avoids e (result a) := by
  intro w
  rw [exec_result]
  rcases exec a w with ⟨(_ | _) | _,v⟩ <;> nofun

theorem Avoids.result {a : Action α} (avoids : Avoids e a) {r : Except LinkError α} {v w : World}
    (gave : exec (result a) v = (.ok r,w)) : r ≠ .error e := by
  have fine := avoids v
  rw [exec_result] at gave
  rcases ran : exec a v with ⟨(other | _) | x,u⟩ <;> rw [ran] at gave fine <;> cases gave
  · intro same
    cases same
    exact fine rfl
  · nofun

theorem Avoids.onCrash {a : Action α} {mend : Action Unit} (first : Avoids e a)
    (mended : Avoids e mend) : Avoids e (onCrash a mend) := by
  intro w
  have before := first w
  rw [exec_onCrash]
  rcases ran : exec a w with ⟨(other | _) | x,v⟩
  · rw [ran] at before
    exact before
  · exact mended.bind (fun _ => avoids_crash) v
  · nofun

theorem avoids_link (n : Nat) : Avoids e (link n) := by
  refine avoids_get.bind fun w => ?_
  split
  · exact avoids_pure _
  · exact avoids_crash

theorem avoids_visit (site : Site) : Avoids e (visit site) := by
  refine avoids_get.bind fun w => ?_
  split
  · exact avoids_crash
  · exact avoids_pure _

theorem avoids_ofExcept {r : Except LinkError α} (fine : r ≠ .error e) : Avoids e (ofExcept r) := by
  cases r with
  | ok x => exact avoids_pure x
  | error other => exact avoids_fail fun same => fine (by rw [same])

/-- That there is a link already is found out by who registers, never later. -/
abbrev NeverRefuses {α : Type} (a : Action α) : Prop := Avoids .alreadyExists a

theorem ensureAlive_neverRefuses (n : Nat) : NeverRefuses (ensureAlive n) := by
  refine (avoids_link n).bind fun l => ?_
  split
  · exact avoids_fail nofun
  · exact avoids_pure _

theorem withHook_neverRefuses {a : Action α} (n : Nat) (never : NeverRefuses a) : NeverRefuses (withHook n a) := by
  refine (avoids_link n).bind fun l => ?_
  split
  · exact avoids_fail nofun
  · exact never.onCrash (avoids_modify _)

theorem tryResolve_neverRefuses (n : Nat) : NeverRefuses (tryResolve n) := by
  refine (avoids_link n).bind fun l => avoids_get.bind fun w => ?_
  rcases l.slot.tryResolve w.alive (lookup l.slot.id w) with ⟨r,slot⟩
  refine (avoids_modify _).bind fun _ => ?_
  extract_lets answers
  suffices answered : ∀ r, NeverRefuses (answers r) by
    split
    · exact (avoids_modify _).bind answered
    · exact answered ()
  intro _
  dsimp only [answers]
  split
  · exact avoids_pure _
  · exact (avoids_modify _).bind fun _ => avoids_pure _
  · exact avoids_pure _
  · exact avoids_crash
  · exact avoids_fail nofun

theorem setHook_neverRefuses (widget : Nat) (hook : Option Nat) : NeverRefuses (setHook widget hook) :=
  (avoids_visit _).bind fun _ => avoids_modify _

theorem attach_neverRefuses (n : Nat) : NeverRefuses (attach n) := by
  refine ((tryResolve_neverRefuses n).bind fun found => ?_).bind fun widget => (setHook_neverRefuses widget _).bind
    fun _ => (avoids_link n).bind fun _ => avoids_modify _
  split
  · exact avoids_pure _
  · exact (avoids_link n).bind fun _ => avoids_fail nofun

theorem detach_neverRefuses (n : Nat) : NeverRefuses (detach n) := by
  refine (tryResolve_neverRefuses n).bind fun found => ?_
  split
  · exact (setHook_neverRefuses _ _).bind fun _ => (avoids_link n).bind fun _ => avoids_modify _
  · exact avoids_pure _

theorem kill_neverRefuses (n : Nat) : NeverRefuses (kill n) := by
  refine withHook_neverRefuses n ((avoids_link n).bind fun l => ?_)
  split
  · exact avoids_pure _
  · exact (avoids_modify _).bind fun _ => (avoids_modify _).bind fun _ => detach_neverRefuses n

theorem withHook_ok {n : Nat} {a : Action α} {x : α} {v w : World}
    (gave : exec (withHook n a) v = (.ok x,w)) : exec a v = (.ok x,w) := by
  rw [withHook,exec_bind] at gave
  rcases there : v.links[n]? with _ | l
  · rw [exec_link_none there] at gave
    cases gave
  · rw [exec_link_some there] at gave
    dsimp only at gave
    split at gave
    · cases gave
    · rw [exec_onCrash] at gave
      rcases ran : exec a v with ⟨(_ | _) | y,u⟩ <;> rw [ran] at gave
      · cases gave
      · cases gave
      · exact gave

theorem restore_neverRefuses (n : Nat) {outcome : Verdict} (fine : outcome ≠ .error .alreadyExists) :
    NeverRefuses (restore n outcome) := by
  refine (withHook_neverRefuses n ((avoids_link n).bind fun l => ?_)).bind_from fun restored v w gave =>
    (avoids_ofExcept fine).bind fun _ => avoids_ofExcept ?_
  · split
    · exact avoids_result
    · exact avoids_pure _
  · have put := withHook_ok gave
    rw [exec_bind] at put
    rcases there : v.links[n]? with _ | l
    · rw [exec_link_none there] at put
      cases put
    · rw [exec_link_some there] at put
      dsimp only at put
      split at put
      · exact (attach_neverRefuses n).result put
      · cases put
        nofun

theorem clearHook_neverRefuses (n : Nat) : NeverRefuses (clearHook n) :=
  withHook_neverRefuses n ((ensureAlive_neverRefuses n).bind fun _ => detach_neverRefuses n)

theorem supersede_neverRefuses (n : Nat) : NeverRefuses (supersede n) := by
  refine (avoids_link n).bind fun l => ?_
  split
  · exact avoids_pure _
  · refine (avoids_modify _).bind fun _ => avoids_get.bind fun w => ?_
    split
    · exact (avoids_modify _).bind fun _ => avoids_modify _
    · exact avoids_modify _

theorem startStop_neverRefuses (n : Nat) (canSpawn : Bool) : NeverRefuses (startStop n canSpawn) := by
  refine (ensureAlive_neverRefuses n).bind fun _ => (avoids_link n).bind fun l => ?_
  extract_lets begins
  suffices began : ∀ r, NeverRefuses (begins r) by
    split
    · have refused : NeverRefuses (fail .lockPoisoned : Action PUnit) := avoids_fail nofun
      exact refused.bind began
    · exact began ()
  refine fun _ => (supersede_neverRefuses n).bind fun _ => ?_
  split
  · exact avoids_get.bind fun w => (avoids_link n).bind fun l => (avoids_ok fun _ => ⟨(),rfl⟩).bind
      fun _ => (avoids_modify _).bind fun _ => avoids_pure _
  · exact (avoids_modify _).bind fun _ => avoids_crash

theorem uncacheModel_neverRefuses (n : Nat) : NeverRefuses (uncacheModel n) := by
  refine (avoids_visit _).bind fun _ => (avoids_link n).bind fun l => avoids_get.bind fun w => ?_
  split
  · exact avoids_crash
  · split
    · exact avoids_fail nofun
    · exact (avoids_modify _).bind fun _ => avoids_modify _

theorem finishTeardown_neverRefuses (n : Nat) (stopped : Verdict) : NeverRefuses (finishTeardown n stopped) := by
  refine Avoids.bind_from avoids_result fun outcome v w gave => restore_neverRefuses n (Avoids.result ?_ gave)
  split
  · exact avoids_fail (by simp [LinkError.uncacheBecause])
  · exact uncacheModel_neverRefuses n

theorem beginTeardown_neverRefuses (n : Nat) : NeverRefuses (beginTeardown n) := by
  refine (clearHook_neverRefuses n).bind fun _ => avoids_result.bind_from fun begun v w gave => ?_
  have fine := (startStop_neverRefuses n true).result gave
  split
  · exact avoids_pure _
  · rename_i e
    have different : e ≠ .alreadyExists := fun same => fine (by rw [same])
    exact (restore_neverRefuses n fun same => different (Except.error.inj same)).bind fun _ =>
      avoids_fail different

theorem discard_neverRefuses (n : Nat) {e : LinkError} (different : e ≠ .alreadyExists) :
    NeverRefuses (discard n e) :=
  (avoids_modify _).bind fun _ => (kill_neverRefuses n).bind fun _ => avoids_fail different

theorem goOn_neverRefuses (id registry : Nat) (name : String) (n : Nat) {begun : Except LinkError Nat}
    (fine : begun ≠ .error .alreadyExists) : NeverRefuses (goOn id registry name n begun) := by
  have gives {e : LinkError} (different : e ≠ .alreadyExists) :
      NeverRefuses (do discard n e; fail e : Action Next) :=
    (discard_neverRefuses n different).bind fun _ => avoids_fail different
  cases begun with
  | error e => exact gives fun same => fine (by rw [same])
  | ok promise =>
    have awaits : NeverRefuses (await id promise) := by
      refine avoids_get.bind fun w => ?_
      split
      · exact (avoids_modify _).bind fun _ => avoids_pure _
      · exact avoids_pure _
    refine awaits.bind fun answer => ?_
    split
    · exact avoids_pure _
    · refine avoids_result.bind_from fun outcome v w gave => ?_
      have torn := (finishTeardown_neverRefuses n _).result gave
      split
      · refine (avoids_link n).bind fun l => ?_
        split
        · exact (avoids_modify _).bind fun _ => avoids_fail (by simp)
        · exact (avoids_link n).bind fun _ => (avoids_modify _).bind fun _ => avoids_pure _
      · exact gives fun same => torn (by rw [same])

theorem setOut_neverRefuses (id registry : Nat) (name : String) (n : Nat) :
    NeverRefuses (setOut id registry name n) :=
  avoids_result.bind_from fun _ _ _ gave =>
    goOn_neverRefuses id registry name n ((beginTeardown_neverRefuses n).result gave)

end EditorLink.Action
