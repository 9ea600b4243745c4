import EditorLink.Proofs.Stage

/-! How a teardown leaves its link: while it waits the hook is off unless someone sets it, and at its end
the hook is on if the link is alive and in live mode. -/
namespace EditorLink

open World EditorLink.Action

namespace World

/-- The one widget carries the link's hook. -/
def Hooked (w : World) (n : Nat) : Prop := ∃ x, w.widgets[0]? = some x ∧ x.hook = some n

/-- A teardown of the link is under way. -/
def Tearing (w : World) (n : Nat) : Prop :=
  ∃ (id : Nat) (task : Task), w.tasks[id]? = some (some task) ∧ task.job.Tears n

/-- The link is dead, or not in live mode, or has its hook on the widget. -/
def Mended (w : World) (n : Nat) : Prop :=
  ∀ l, w.links[n]? = some l → l.dead = true ∨ l.live = false ∨ w.Hooked n

/-- The hook has not been set, and the mode is the same. -/
structure Loosens (n : Nat) (v w : World) : Prop where
  hooked : w.Hooked n → v.Hooked n
  link : ∀ l, w.links[n]? = some l →
    ∃ k, v.links[n]? = some k ∧ k.live = l.live ∧ (k.dead = true → l.dead = true)

/-- The hook has neither been set nor cleared, and the mode is the same. -/
structure KeepsHook (n : Nat) (v w : World) : Prop extends Loosens n v w where
  kept : v.Hooked n → w.Hooked n

instance (n : Nat) : Frame (Loosens n) where
  refl _ := ⟨id,fun l there => ⟨l,there,rfl,id⟩⟩
  trans first next := by
    refine ⟨fun hooked => first.hooked (next.hooked hooked),fun l there => ?_⟩
    obtain ⟨k,between,mode,dead⟩ := next.link l there
    obtain ⟨j,before,same,gone⟩ := first.link k between
    exact ⟨j,before,same.trans mode,fun ended => dead (gone ended)⟩

instance (n : Nat) : Frame (KeepsHook n) where
  refl w := ⟨Frame.refl w,id⟩
  trans first next :=
    ⟨Frame.trans first.toLoosens next.toLoosens,fun hooked => next.kept (first.kept hooked)⟩

theorem hooked_congr {v w : World} (widgets : w.widgets = v.widgets) (n : Nat) :
    w.Hooked n ↔ v.Hooked n := by
  rw [Hooked,Hooked,widgets]

theorem keepsHook_sameEntities {n : Nat} {v w : World} (entities : SameEntities v w) : KeepsHook n v w where
  hooked := (hooked_congr entities.widgets n).mp
  kept := (hooked_congr entities.widgets n).mpr
  link l there := ⟨l,entities.links ▸ there,rfl,id⟩

theorem keepsHook_quiet {n : Nat} {v w : World} (quiet : Quiet v w) : KeepsHook n v w where
  hooked := (hooked_congr quiet.widgets n).mp
  kept := (hooked_congr quiet.widgets n).mpr
  link l there := by
    obtain ⟨k,found,alike⟩ := quiet.link_back there
    obtain ⟨-,-,-,live,dead,-⟩ := core_fields alike
    exact ⟨k,found,live.symm,fun gone => dead.trans gone⟩

theorem keepsHook_around {n : Nat} {v w : World} (around : Around v w) : KeepsHook n v w where
  hooked := by
    rintro ⟨x,widget,hook⟩
    exact around.hooked widget hook
  kept := by
    rintro ⟨x,widget,hook⟩
    obtain ⟨fresh,hooks⟩ := around.hooks
    have before : v.hooks[0]? = some (some n,x.attached,x.detached) := by
      simp [World.hooks,widget,hook]
    have known : w.hooks[0]? = some (some n,x.attached,x.detached) := by
      rw [hooks,getElem?_append_some before]
    rw [World.hooks,List.getElem?_map] at known
    obtain ⟨y,there,same⟩ := Option.map_eq_some_iff.mp known
    exact ⟨y,there,congrArg Prod.fst same⟩
  link l there := ⟨l,around.links ▸ there,rfl,id⟩

theorem Mended.keepsHook {n : Nat} {v w : World} (mended : v.Mended n) (apart : KeepsHook n v w) :
    w.Mended n := by
  intro l there
  obtain ⟨k,before,mode,dead⟩ := apart.link l there
  rcases mended k before with gone | off | hooked
  · exact .inl (dead gone)
  · exact .inr (.inl (mode.symm.trans off))
  · exact .inr (.inr (apart.kept hooked))

theorem mended_of_dead {n : Nat} {w : World} (dead : w.isDead n = true) : w.Mended n := by
  intro l there
  obtain ⟨k,found,gone⟩ := isDead_iff.mp dead
  rw [there] at found
  cases found
  exact .inl gone

theorem hooked_dress {w : World} (staged : w.Staged) {n m : Nat} {l k : Link} {hook : Option Nat}
    (may : MayDress w n l k hook) (lookups : Nat) (notices : List Notice) :
    ((w.dress n k hook).log lookups notices).Hooked m ↔ hook = some m := by
  have found := may.seen.trans (staged.seen may.there)
  obtain ⟨x,single⟩ := List.length_eq_one_iff.mp staged.single
  have widget : ((w.dress n k hook).log lookups notices).widgets = [x.setHook hook] := by
    simp [log,dress,found,single]
  simp [Hooked,widget,hook_setHook]

theorem loosens_dress {w : World} (staged : w.Staged) {n : Nat} {l : Link}
    (may : MayDress w n l l none) (lookups : Nat) (notices : List Notice) :
    Loosens n w ((w.dress n l none).log lookups notices) where
  hooked hooked := by
    have some := (hooked_dress staged may lookups notices).mp hooked
    cases some
  link j there := by
    have inside := (List.getElem?_eq_some_iff.mp may.there).1
    simp only [log,dress,List.getElem?_set_self inside,Option.some.injEq] at there
    subst there
    exact ⟨l,may.there,rfl,id⟩

end World

/-- What becomes of a turn of a teardown: it pauses with the hook off as it was, or ends with the link
mended. -/
def Settles (n : Nat) (w : World) (r : Except Fault Next × World) : Prop :=
  (∃ job, r.1 = .ok (.pause job) ∧ job.Tears n ∧ Loosens n w r.2) ∨
    ((∀ job, r.1 ≠ .ok (.pause job)) ∧ r.2.Mended n)

variable {n : Nat} {w : World} {l : Link}

theorem mended_restore (staged : w.Staged) (known : n < w.links.length) (outcome : Verdict) :
    (exec (restore n outcome) w).2.Mended n := by
  have there := List.getElem?_eq_getElem known
  cases wanted : !w.links[n].dead && w.links[n].live with
  | false =>
    rw [exec_restore_idle staged.toCalm there wanted,reads_ofExcept]
    intro k found
    rw [there] at found
    cases found
    simp only [Bool.and_eq_false_imp,Bool.not_eq_true'] at wanted
    cases dead : w.links[n].dead with
    | true => exact .inl rfl
    | false => exact .inr (.inl (wanted dead))
  | true =>
    obtain ⟨lookups,notices,put⟩ := restore_world staged.toCalm there wanted outcome
    simp only [Bool.and_eq_true,Bool.not_eq_true'] at wanted
    have may : MayDress w n w.links[n] w.links[n] (some n) :=
      ⟨staged.toCalm,there,wanted.1,rfl,.inr ⟨rfl,wanted.1,.inl wanted.2⟩⟩
    rw [put]
    exact fun _ _ => .inr (.inr ((hooked_dress staged may lookups notices).mpr rfl))

theorem mended_kill (staged : w.Staged) (known : n < w.links.length) :
    (exec (kill n) w).2.Mended n := by
  have there := List.getElem?_eq_getElem known
  cases alive : w.links[n].dead with
  | true =>
    rw [exec_kill_dead staged.toCalm there alive]
    exact mended_of_dead (isDead_iff.mpr ⟨_,there,alive⟩)
  | false =>
    obtain ⟨lookups,notices,killed⟩ := exec_kill staged.toCalm there alive
    rw [killed]
    exact mended_of_dead (isDead_iff.mpr ⟨_,List.getElem?_set_self known,rfl⟩)

theorem exec_result_fine {α : Type} {a : Action α} {w : World}
    (fine : (exec a w).1 ≠ .error .crash) :
    ∃ r, exec (result a) w = (.ok r,(exec a w).2) := by
  rw [exec_result]
  rcases ran : exec a w with ⟨(e | _) | x,v⟩
  · exact ⟨.error e,rfl⟩
  · rw [ran] at fine
    exact absurd rfl fine
  · exact ⟨.ok x,rfl⟩

theorem uncacheModel_fine (staged : w.Staged) (known : n < w.links.length) :
    (exec (uncacheModel n) w).1 ≠ .error .crash := by
  have there := List.getElem?_eq_getElem known
  have model := List.getElem?_eq_getElem (staged.links n _ there).2
  rw [uncacheModel,exec_bind_ok (exec_visit (staged.toCalm.spared .modelUncache)),
    exec_bind_ok (exec_link_some there),exec_bind_ok (exec_get w),model]
  dsimp only
  split
  · simp [exec_fail]
  · rw [exec_bind_ok (exec_modify _ _),exec_note]
    simp

theorem supersede_ok (known : n < w.links.length) : ∃ v, exec (supersede n) w = (.ok (),v) := by
  rw [supersede,exec_bind_ok (exec_link_some (List.getElem?_eq_getElem known))]
  split
  · exact ⟨w,rfl⟩
  · rw [exec_bind_ok (exec_modifyLink _ _ _),exec_bind_ok (exec_get _)]
    split
    · exact ⟨_,rfl⟩
    · exact ⟨_,rfl⟩

theorem startStop_fine (known : n < w.links.length) :
    (exec (startStop n true) w).1 ≠ .error .crash := by
  have there := List.getElem?_eq_getElem known
  cases alive : w.links[n].dead with
  | true =>
    rw [startStop,exec_bind_error (by rw [exec_ensureAlive there,alive]; rfl)]
    simp
  | false =>
    rw [startStop,exec_bind_ok (by rw [exec_ensureAlive there,alive]; rfl),
      exec_bind_ok (exec_link_some there)]
    dsimp only
    by_cases poisoned : w.links[n].stopPoisoned = true
    · rw [if_pos poisoned,exec_bind_error (exec_fail _ _)]
      simp
    · obtain ⟨v,superseded⟩ := supersede_ok known
      have still := supersede_still n w
      rw [superseded] at still
      obtain ⟨k,found,_⟩ := still.toQuiet.link there
      rw [if_neg poisoned,exec_bind_ok superseded,if_pos rfl,exec_bind_ok (exec_get v),
        exec_bind_ok (exec_link_some found),exec_bind_ok (exec_set _ _),
        exec_bind_ok (exec_modifyLink _ _ _),exec_pure]
      simp

theorem finishTeardown_mends (staged : w.Staged) (known : n < w.links.length) (stopped : Verdict) :
    (exec (finishTeardown n stopped) w).2.Mended n := by
  have restores {a : Action Unit} (still : Keeps Still a) (fine : (exec a w).1 ≠ .error .crash) :
      (exec (do restore n (← result a)) w).2.Mended n := by
    obtain ⟨outcome,ran⟩ := exec_result_fine fine
    have kept := (still w).toQuiet
    rw [exec_bind_ok ran]
    exact mended_restore (staged.quiet kept) (by rw [kept.size]; exact known) outcome
  cases stopped with
  | error e => exact restores (reads_fail _).keeps (by simp [exec_fail])
  | ok _ => exact restores (uncacheModel_still n) (uncacheModel_fine staged known)

theorem beginTeardown_settles (staged : w.Staged) (known : n < w.links.length) {r : Except Fault Nat}
    {v : World} (ran : exec (beginTeardown n) w = (r,v)) :
    ((∃ promise, r = .ok promise) ∧ Loosens n w v) ∨ ((∃ fault, r = .error fault) ∧ v.Mended n) := by
  have there := List.getElem?_eq_getElem known
  cases alive : w.links[n].dead with
  | true =>
    rw [beginTeardown,exec_bind_error (exec_clearHook_dead staged.toCalm there alive)] at ran
    cases ran
    exact .inr ⟨⟨_,rfl⟩,mended_of_dead (isDead_iff.mpr ⟨_,there,alive⟩)⟩
  | false =>
    obtain ⟨lookups,notices,cleared⟩ := exec_clearHook staged.toCalm there alive
    have may : MayDress w n w.links[n] w.links[n] none := ⟨staged.toCalm,there,alive,rfl,.inl rfl⟩
    have loose := loosens_dress staged may lookups notices
    have between := staged_dress may staged lookups notices
    have size : n < ((w.dress n w.links[n] none).log lookups notices).links.length := by
      simpa [log,dress] using known
    obtain ⟨begun,started⟩ := exec_result_fine (startStop_fine size)
    have still := (startStop_still n true ((w.dress n w.links[n] none).log lookups notices)).toQuiet
    rw [beginTeardown,exec_bind_ok cleared,exec_bind_ok started] at ran
    -- an attempt that cannot be started puts the hook back at once, and fails
    rcases begun with e | promise
    · have mended := mended_restore (between.quiet still) (by rw [still.size]; exact size) (.error e)
      dsimp only at ran
      rw [exec_bind] at ran
      rcases restored : exec (restore n (.error e)) (exec (startStop n true)
        ((w.dress n w.links[n] none).log lookups notices)).2 with ⟨fault | _,u⟩ <;>
        rw [restored] at ran mended <;> cases ran
      · exact .inr ⟨⟨_,rfl⟩,mended⟩
      · exact .inr ⟨⟨_,rfl⟩,mended⟩
    · cases ran
      exact .inl ⟨⟨promise,rfl⟩,Frame.trans loose (keepsHook_quiet still).toLoosens⟩

theorem Settles.after {v : World} {r : Except Fault Next × World} (settles : Settles n v r)
    (loose : Loosens n w v) : Settles n w r := by
  rcases settles with ⟨job,paused,tears,looser⟩ | ended
  · exact .inl ⟨job,paused,tears,Frame.trans loose looser⟩
  · exact .inr ended

theorem await_settles {id promise : Nat} {job : Job} {ends : Option Verdict → Action Next}
    (staged : w.Staged) (known : n < w.links.length) (tears : job.Tears n)
    (final : ∀ answer, Final (ends answer))
    (mends : ∀ answer (v : World), v.Staged → n < v.links.length → (exec (ends answer) v).2.Mended n) :
    Settles n w (exec (do
      match ← await id promise with
      | none => pure (.pause job)
      | some answer => ends answer) w) := by
  obtain ⟨answer?,v,asked,still⟩ := await_ok id promise w
  have quiet := still.toQuiet
  rw [exec_bind_ok asked]
  cases answer? with
  | none => exact .inl ⟨job,rfl,tears,(keepsHook_quiet quiet).toLoosens⟩
  | some answer =>
    have known : n < v.links.length := by rw [quiet.size]; exact known
    refine .inr ⟨fun job paused => ?_,mends answer v (staged.quiet quiet) known⟩
    exact final answer v (.pause job) _ (Prod.ext paused rfl) job rfl

theorem finish_mends (staged : w.Staged) (known : n < w.links.length) (stopped : Verdict) :
    (exec (do finishTeardown n stopped; pure (Next.finish (some .done))) w).2.Mended n := by
  have mended := finishTeardown_mends staged known stopped
  rw [exec_bind]
  rcases ran : exec (finishTeardown n stopped) w with ⟨fault | _,v⟩ <;> rw [ran] at mended <;>
    exact mended

theorem tends_staged (n : Nat) : Tends n fun v w => v.Staged → w.Staged :=
  (persists_staged.tendsCalmly n).tends

theorem resumeUncache_settles (staged : w.Staged) (known : n < w.links.length) (id : Nat)
    (stop : Option Nat) : Settles n w (exec (resumeUncache id n stop) w) := by
  have waits {v : World} (staged : v.Staged) (known : n < v.links.length) (promise : Nat) :
      Settles n v (exec (resumeUncache id n (some promise)) v) := by
    have tears : Job.Tears n (.uncache n (some promise)) := ⟨rfl,by simp⟩
    exact await_settles staged known tears (fun answer => finish_final n (verdict answer))
      fun answer v staged known => finish_mends staged known (verdict answer)
  cases stop with
  | some promise => exact waits staged known promise
  | none =>
    have after := beginTeardown_keeps (tends_staged n).serves.toPrepares w staged
    have size := (beginTeardown_keeps (tends_handsOutOnly n).serves.toPrepares w).size
    rcases ran : exec (beginTeardown n) w with ⟨r,v⟩
    rw [ran] at after size
    rcases beginTeardown_settles staged known ran with ⟨⟨promise,rfl⟩,loose⟩ | ⟨⟨fault,rfl⟩,mended⟩
    · rw [resumeUncache,exec_bind_ok ran]
      exact (waits after (by rw [size]; exact known) promise).after loose
    · rw [resumeUncache,exec_bind_error ran]
      exact .inr ⟨by simp,mended⟩

theorem discard_mends (staged : w.Staged) (known : n < w.links.length) (e : LinkError) :
    (exec (do discard n e; fail e : Action Next) w).2.Mended n := by
  have noted := quiet_note w (.teardownFailed e.message)
  have mended := mended_kill (staged.quiet noted) known
  rw [exec_bind,Action.discard,exec_bind_ok (exec_note _ _),exec_bind]
  rcases ran : exec (kill n) (w.note (.teardownFailed e.message)) with ⟨fault | _,v⟩ <;>
    rw [ran] at mended <;> exact mended

theorem handOver_keepsHook (m : Nat) (name : String) : Keeps (KeepsHook n) (handOver m name) :=
  handOver_keeps name ((note_still rfl).mono fun still => keepsHook_quiet still.toQuiet) fun _ =>
    keepsHook_sameEntities { SameEntities.refl _ with }

theorem afterTeardown_mends (staged : w.Staged) (known : n < w.links.length) (name : String)
    (stopped : Verdict) : (exec (afterTeardown n name stopped) w).2.Mended n := by
  have mended := finishTeardown_mends staged known stopped
  have after := finishTeardown_keeps (tends_staged n).serves stopped w staged
  have size := (finishTeardown_keeps (tends_handsOutOnly n).serves stopped w).size
  rw [afterTeardown,exec_bind,exec_result]
  rcases ran : exec (finishTeardown n stopped) w with ⟨(e | _) | _,v⟩ <;>
    rw [ran] at mended after size <;> dsimp only at mended after size ⊢
  · exact discard_mends after (by rw [size]; exact known) e
  · exact mended
  · exact mended.keepsHook (handOver_keepsHook n name v)

theorem goOn_settles (staged : w.Staged) (known : n < w.links.length) (id registry : Nat)
    (name : String) (promise : Nat) :
    Settles n w (exec (goOn id registry name n (.ok promise)) w) := by
  have tears : Job.Tears n (.create registry name (some (n,promise))) := ⟨rfl,by simp⟩
  exact await_settles staged known tears (fun answer => afterTeardown_final n name (verdict answer))
    fun answer v staged known => afterTeardown_mends staged known name (verdict answer)

theorem setOut_settles (staged : w.Staged) (known : n < w.links.length) (id registry : Nat)
    (name : String) : Settles n w (exec (setOut id registry name n) w) := by
  have after := beginTeardown_keeps (tends_staged n).serves.toPrepares w staged
  have size := (beginTeardown_keeps (tends_handsOutOnly n).serves.toPrepares w).size
  rw [setOut,exec_bind,exec_result]
  rcases ran : exec (beginTeardown n) w with ⟨r,v⟩
  rw [ran] at after size
  rcases beginTeardown_settles staged known ran with ⟨⟨promise,rfl⟩,loose⟩ | ⟨⟨fault,rfl⟩,mended⟩
  · exact (goOn_settles after (by rw [size]; exact known) id registry name promise).after loose
  · rcases fault with e | _
    · refine .inr ⟨fun job paused => ?_,discard_mends after (by rw [size]; exact known) e⟩
      exact discard_final n e v (.pause job) _ (Prod.ext paused rfl) job rfl
    · exact .inr ⟨by simp,mended⟩

theorem resume_settles (staged : w.Staged) (known : n < w.links.length) (id : Nat) {job : Job}
    (settled : Settled job) (teardown : job.teardown? = some n) :
    Settles n w (exec (resume id job) w) := by
  cases job with
  | uncache m stop =>
    obtain rfl := Option.some.inj teardown
    exact resumeUncache_settles staged known id stop
  | create registry name made =>
    cases made with
    | none => exact settled.elim
    | some made =>
      obtain rfl := Option.some.inj teardown
      exact goOn_settles staged known id registry name made.2
  | _ => cases teardown

theorem resume_quiet (id : Nat) {job : Job} (settled : Settled job) (plain : job.teardown? = none) :
    Keeps Quiet (resume id job) := by
  cases job with
  | update m phase => exact resumeUpdate_quiet id m phase
  | uncache m stop => cases plain
  | create registry name made =>
    cases made with
    | none => exact settled.elim
    | some made => cases plain
  | stop promise plan deadline =>
    exact (resumeStop_still id promise plan deadline).mono Still.toQuiet
  | wait promise => exact (resumeWait_keeps (await_still id promise)).mono Still.toQuiet
  | continuation promise => exact (resumeContinuation_keeps (await_still id promise)).mono Still.toQuiet

theorem tendsCalmly_keepsHook (n k : Nat) : TendsCalmly k fun v w => Buried k v → Buried k w ∧ KeepsHook n v w where
  frame :=
    { refl := fun w buried => ⟨buried,Frame.refl w⟩
      trans := fun first next buried => by
        obtain ⟨between,before⟩ := first buried
        obtain ⟨after,later⟩ := next between
        exact ⟨after,Frame.trans before later⟩ }
  wild wild buried := absurd buried.toCalm wild
  still still buried := ⟨((tendsCalmly_silent k).still still buried).1,keepsHook_quiet still.toQuiet⟩
  named w name buried :=
    ⟨((tendsCalmly_silent k).named w name buried).1,keepsHook_sameEntities { SameEntities.refl w with }⟩
  dressed may _ _ _ buried := by
    obtain ⟨l,there,dead⟩ := buried.link
    rw [may.there] at there
    cases there
    rw [may.alive] at dead
    contradiction

/-- No task but a teardown of the link deals with its hook, as long as all other links that have tasks
are dead. -/
theorem resume_keepsHook (id : Nat) {job : Job} (settled : Settled job)
    (others : ∀ k, job.teardown? = some k → Buried k w) : KeepsHook n w (exec (resume id job) w).2 := by
  cases job with
  | uncache k stop =>
    have kept := resumeUncache_keeps (tendsCalmly_keepsHook n k).tends.serves id stop trivial w
    exact (kept (others k rfl)).2
  | create registry name made =>
    cases made with
    | none => exact settled.elim
    | some made =>
      have kept := resumeCreate_keeps (tendsCalmly_keepsHook n made.1).tends.serves id registry name made.2 trivial w
      exact (kept (others made.1 rfl)).2
  | _ => exact keepsHook_quiet (resume_quiet id settled rfl w)

end EditorLink
