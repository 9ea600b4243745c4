import EditorLink.Proofs.Holding

/-! How a teardown comes to wait: it has cleared the hook and started a stop attempt, and waits for that
one until it has an answer. -/
namespace EditorLink
open World EditorLink.Action

/-- The link of a teardown that waits, and the promise that it waits for. -/
def Job.awaits? : Job → Option (Nat × Nat)
  | .uncache n (some promise) => some (n,promise)
  | .create _ _ teardown => teardown
  | _ => none

theorem Job.tears_iff {job : Job} {n : Nat} :
    job.Tears n ↔ ∃ promise, job.awaits? = some (n,promise) := by
  unfold Tears teardown? awaits?
  cases job with
  | uncache m stop => cases stop <;> simp
  | create registry name teardown =>
    cases teardown with
    | none => simp
    | some made =>
      obtain ⟨m,promise⟩ := made
      simp
  | _ => simp

theorem Job.Follows.awaits {job next : Job} (follows : job.Follows next) {n : Nat}
    (teardown : job.teardown? = some n) : ∃ promise, next.awaits? = some (n,promise) := by
  cases follows with
  | begun m promise =>
    cases teardown
    exact ⟨promise,rfl⟩
  | tearing m promise =>
    cases teardown
    exact ⟨promise,rfl⟩
  | creating registry name made =>
    cases teardown
    exact ⟨made.2,rfl⟩
  | _ => cases teardown

namespace Action

variable {w v : World} {id n : Nat} {next : Job}

theorem beginTeardown_ok {promise : Nat} (ran : exec (beginTeardown n) w = (.ok promise,v)) :
    ∃ u, exec (clearHook n) w = (.ok (),u) ∧ exec (startStop n true) u = (.ok promise,v) := by
  rw [beginTeardown,exec_bind] at ran
  rcases cleared : exec (clearHook n) w with ⟨fault | _,u⟩
  · rw [cleared] at ran
    cases ran
  · refine ⟨u,rfl,?_⟩
    rw [cleared] at ran
    dsimp only at ran
    rw [exec_bind,exec_result] at ran
    rcases started : exec (startStop n true) u with ⟨(e | _) | p,t⟩
    · rw [started] at ran
      dsimp only at ran
      rw [exec_bind] at ran
      rcases restored : exec (restore n (.error e)) t with ⟨fault | _,x⟩ <;> rw [restored] at ran <;>
        cases ran
    · rw [started] at ran
      cases ran
    · rw [started] at ran
      cases ran
      rfl

/-- The task waits for the promise from here on. -/
def Waits (id promise : Nat) (w v : World) : Prop := exec (await id promise) w = (.ok none,v)

theorem waits_same {promise : Nat} (waits : Waits id promise w v) :
    v = { w with promises := v.promises } ∧ v.promises.length = w.promises.length := by
  rw [Waits,exec_await] at waits
  split at waits <;> cases waits
  exact ⟨rfl,List.length_modify _ _ _⟩

theorem waits_paused {promise : Nat} {job : Job} {ends : Option Verdict → Action Next}
    (final : ∀ answer, Final (ends answer))
    (ran : exec (do
      match ← await id promise with
      | none => pure (.pause job)
      | some answer => ends answer) w = (.ok (.pause next),v)) :
    next = job ∧ Waits id promise w v := by
  rw [exec_bind] at ran
  rcases asked : exec (await id promise) w with ⟨fault | answer?,u⟩
  · rw [asked] at ran
    cases ran
  · rw [asked] at ran
    cases answer? with
    | none =>
      cases ran
      exact ⟨rfl,asked⟩
    | some answer => exact absurd rfl (final answer _ _ _ ran next)

theorem resumeUncache_paused {stop : Option Nat}
    (ran : exec (resumeUncache id n stop) w = (.ok (.pause next),v)) :
    ∃ promise u, next = .uncache n (some promise) ∧ Waits id promise u v ∧
      (stop = some promise ∧ u = w ∨ stop = none ∧ exec (beginTeardown n) w = (.ok promise,u)) := by
  have waits {u : World} (promise : Nat) (rest : exec (resumeUncache id n (some promise)) u =
      (.ok (.pause next),v)) : next = .uncache n (some promise) ∧ Waits id promise u v :=
    waits_paused (fun answer => finish_final n (verdict answer)) rest
  cases stop with
  | some promise =>
    obtain ⟨same,waits⟩ := waits promise ran
    exact ⟨promise,w,same,waits,.inl ⟨rfl,rfl⟩⟩
  | none =>
    rcases begun : exec (beginTeardown n) w with ⟨fault | promise,u⟩
    · rw [resumeUncache,exec_bind_error begun] at ran
      cases ran
    · rw [resumeUncache,exec_bind_ok begun] at ran
      obtain ⟨same,waits⟩ := waits promise ran
      exact ⟨promise,u,same,waits,.inr ⟨rfl,rfl⟩⟩

theorem goOn_paused {registry promise : Nat} {name : String}
    (ran : exec (goOn id registry name n (.ok promise)) w = (.ok (.pause next),v)) :
    next = .create registry name (some (n,promise)) ∧ Waits id promise w v :=
  waits_paused (fun answer => afterTeardown_final n name (verdict answer)) ran

theorem setOut_paused {registry : Nat} {name : String}
    (ran : exec (setOut id registry name n) w = (.ok (.pause next),v)) :
    ∃ promise u, next = .create registry name (some (n,promise)) ∧ Waits id promise u v ∧
      exec (beginTeardown n) w = (.ok promise,u) := by
  rw [setOut,exec_bind,exec_result] at ran
  rcases begun : exec (beginTeardown n) w with ⟨(e | _) | promise,u⟩
  · rw [begun] at ran
    exact absurd rfl (discard_final n e _ _ _ ran next)
  · rw [begun] at ran
    cases ran
  · rw [begun] at ran
    obtain ⟨same,waits⟩ := goOn_paused ran
    exact ⟨promise,u,same,waits,rfl⟩

theorem register_ok {registry : Nat} (ran : exec (register registry) w = (.ok n,v)) :
    ∃ r, w.registries[registry]? = some r ∧ n = w.links.length ∧ v = w.withLink registry r := by
  rcases there : w.registries[registry]? with _ | r
  · rw [exec_register_none there] at ran
    cases ran
  · rw [exec_register_there there] at ran
    split at ran
    · cases ran
    · split at ran
      · cases ran
      · split at ran
        · cases ran
        · cases ran
          exact ⟨r,rfl,rfl,rfl⟩

/-- The job is about to begin with a teardown of the link, which a creation makes first. -/
def Begins (job : Job) (n : Nat) (w u : World) : Prop :=
  job = .uncache n none ∧ u = w ∨
    ∃ registry name r, job = .create registry name none ∧ w.registries[registry]? = some r ∧
      n = w.links.length ∧ u = w.withLink registry r

/-- A turn that ends with a teardown waiting does nothing more than wait, or begin with the teardown. -/
theorem resume_paused {job : Job} {promise : Nat} (ran : exec (resume id job) w = (.ok (.pause next),v))
    (awaits : next.awaits? = some (n,promise)) :
    (next = job ∧ Waits id promise w v) ∨ ∃ u t, Begins job n w u ∧
      exec (beginTeardown n) u = (.ok promise,t) ∧ Waits id promise t v := by
  have follows := resume_yieldsNext id job w (.pause next) v ran
  cases follows with
  | begun m p =>
    dsimp only [resume] at ran
    obtain ⟨p,u,same,waits,⟨known,-⟩ | ⟨-,begun⟩⟩ := resumeUncache_paused ran
    · cases known
    · cases same
      cases awaits
      exact .inr ⟨w,u,.inl ⟨rfl,rfl⟩,begun,waits⟩
  | tearing m p =>
    dsimp only [resume] at ran
    obtain ⟨p,u,same,waits,⟨known,rfl⟩ | ⟨known,-⟩⟩ := resumeUncache_paused ran
    · cases same
      cases awaits
      exact .inl ⟨rfl,waits⟩
    · cases known
  | made registry name m p =>
    dsimp only [resume] at ran
    rcases registered : exec (register registry) w with ⟨fault | k,t⟩
    · rw [resumeCreate_refused registered] at ran
      cases ran
    · rw [resumeCreate_made registered] at ran
      obtain ⟨p,u,same,waits,begun⟩ := setOut_paused ran
      obtain ⟨r,there,known,rfl⟩ := register_ok registered
      cases same
      cases awaits
      exact .inr ⟨_,u,.inr ⟨registry,name,r,rfl,there,known,rfl⟩,begun,waits⟩
  | creating registry name made =>
    dsimp only [resume] at ran
    rw [resumeCreate_waiting] at ran
    obtain ⟨-,waits⟩ := goOn_paused ran
    cases awaits
    exact .inl ⟨rfl,waits⟩
  | _ => cases awaits

end Action
end EditorLink
