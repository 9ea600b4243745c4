import EditorLink.Proofs.Teardown

/-! Worlds in which no collaborator crashes. There the few things a link does to its hook can be told
in full: it looks for its widget once, and what it finds gets the hook set or cleared. -/
namespace EditorLink

namespace World

/-- No collaborator crashes, and none has done so while it was asked for a widget or a hook. -/
structure Calm (w : World) : Prop where
  sites : w.sites = []
  locks : ∀ (n : Nat) (l : Link), w.links[n]? = some l → l.hookPoisoned = false ∧ l.slot.poisoned = false

theorem Calm.spared {w : World} (calm : w.Calm) (site : Site) : site ∉ w.sites := by
  rw [calm.sites]
  exact List.not_mem_nil

/-- The widget that a link finds: the one it remembers as long as that lives, or else what the host
has for it. -/
def seen (w : World) (l : Link) : Option Nat :=
  (l.slot.cached.filter w.alive).or (w.host.find? l.slot.id)

/-- The link looks for its widget, remembers it, and gives it the hook or takes it away. -/
def dress (w : World) (n : Nat) (l : Link) (hook : Option Nat) : World :=
  { w with
    links := w.links.set n { l with slot := { l.slot with cached := w.seen l } }
    widgets := match w.seen l with
      | some widget => w.widgets.modify widget fun x => x.setHook hook
      | none => w.widgets }

/-- The world but for what is written down about it. -/
def log (w : World) (lookups : Nat) (notices : List Notice) : World := { w with lookups, notices }

theorem Calm.put {v w : World} {n : Nat} {k : Link} (calm : v.Calm) (sites : w.sites = v.sites)
    (links : w.links = v.links.set n k) (locks : k.hookPoisoned = false ∧ k.slot.poisoned = false) :
    w.Calm where
  sites := sites.trans calm.sites
  locks m l there := by
    rw [links,List.getElem?_set] at there
    split at there
    · split at there
      · cases there
        exact locks
      · cases there
    · exact calm.locks m l there

theorem dress_switch {w : World} {n : Nat} {l : Link} (there : w.links[n]? = some l)
    (hook : Option Nat) (live : Bool) (lookups : Nat) (notices : List Notice) :
    ((w.dress n l hook).log lookups notices).modifyLink n (fun l => { l with live := live }) =
      (w.dress n { l with live := live } hook).log lookups notices := by
  have inside := (List.getElem?_eq_some_iff.mp there).1
  simp only [modifyLink,dress,log]
  rw [modify_eq_set _ (List.getElem?_set_self inside),List.set_set]
  rfl

end World

namespace Action
open World

variable {w : World} {n : Nat} {l : Link}

theorem exec_withHook {α : Type} {a : Action α} {r : Except Fault α} {v : World} (calm : w.Calm)
    (there : w.links[n]? = some l) (ran : exec a w = (r,v)) (fine : r ≠ .error .crash) :
    exec (withHook n a) w = (r,v) := by
  rw [withHook,exec_bind_ok (exec_link_some there),if_neg (by simp [(calm.locks n l there).1]),
    exec_onCrash,ran]
  rcases r with (e | _) | x
  · rfl
  · exact absurd rfl fine
  · rfl

theorem exec_ensureAlive (there : w.links[n]? = some l) :
    exec (ensureAlive n) w = (if l.dead then .error (.error .killed) else .ok (),w) := by
  rw [ensureAlive,exec_bind_ok (exec_link_some there)]
  split <;> rfl

theorem tryResolve_calm (calm : w.Calm) (there : w.links[n]? = some l) :
    l.slot.tryResolve w.alive (lookup l.slot.id w) =
      (match l.slot.cached.filter w.alive with
        | some widget => .remembered widget
        | none => match w.host.find? l.slot.id with
          | some widget => .found widget
          | none => .missing,
        { l.slot with cached := w.seen l }) := by
  have open_ : l.slot.poisoned = false := (calm.locks n l there).2
  have answers : lookup l.slot.id w = .answer (w.host.find? l.slot.id) := by
    rw [lookup,if_neg (calm.spared .find)]
  unfold Slot.tryResolve
  rw [if_neg (by simp [open_]),answers,seen]
  rcases known : l.slot.cached.filter w.alive with _ | widget
  · rcases w.host.find? l.slot.id with _ | widget <;> rfl
  · have cached : l.slot.cached = some widget := (Option.filter_eq_some_iff.mp known).1
    simp only [Option.some_or]
    rw [← cached]

theorem exec_tryResolve (calm : w.Calm) (there : w.links[n]? = some l) :
    ∃ lookups notices, exec (tryResolve n) w =
      (.ok (w.seen l),
        { w with
          links := w.links.set n { l with slot := { l.slot with cached := w.seen l } }
          lookups, notices }) := by
  rw [tryResolve,exec_bind_ok (exec_link_some there),exec_bind_ok (exec_get w),
    tryResolve_calm calm there]
  dsimp only
  rw [exec_bind_ok (exec_modifyLink _ _ _),World.modifyLink,modify_eq_set _ there]
  rcases known : l.slot.cached.filter w.alive with _ | widget
  · rcases answer : w.host.find? l.slot.id with _ | widget
    · have nobody : w.seen l = none := by rw [seen,known,answer]; rfl
      rw [nobody]
      exact ⟨w.lookups + 1,w.notices,rfl⟩
    · have found : w.seen l = some widget := by rw [seen,known,answer]; rfl
      rw [found]
      exact ⟨w.lookups + 1,w.notices ++ [.widgetResolved l.slot.id],rfl⟩
  · have found : w.seen l = some widget := by rw [seen,known]; rfl
    rw [found]
    exact ⟨w.lookups,w.notices,rfl⟩

theorem exec_detach (calm : w.Calm) (there : w.links[n]? = some l) :
    ∃ lookups notices, exec (detach n) w = (.ok (),(w.dress n l none).log lookups notices) := by
  obtain ⟨lookups,notices,resolved⟩ := exec_tryResolve calm there
  have inside := (List.getElem?_eq_some_iff.mp there).1
  rw [detach,exec_bind_ok resolved,dress]
  rcases w.seen l with _ | widget
  · exact ⟨lookups,notices,rfl⟩
  · dsimp only
    rw [setHook,exec_bind,exec_bind_ok (exec_visit (by exact calm.spared .hook)),exec_modify]
    dsimp only
    rw [exec_bind_ok (exec_link_some (by exact List.getElem?_set_self inside)),exec_note]
    exact ⟨lookups,notices ++ [.listenerDetached l.slot.id],rfl⟩

theorem exec_attach (calm : w.Calm) (there : w.links[n]? = some l) :
    ∃ lookups notices, exec (attach n) w =
      (if (w.seen l).isSome then .ok () else .error (.error (.editorUnavailable l.slot.id)),
        (w.dress n l (some n)).log lookups notices) := by
  obtain ⟨lookups,notices,resolved⟩ := exec_tryResolve calm there
  have inside := (List.getElem?_eq_some_iff.mp there).1
  rw [attach,exec_bind,resolve,exec_bind_ok resolved,dress]
  rcases w.seen l with _ | widget
  · dsimp only
    rw [exec_bind_ok (exec_link_some (by exact List.getElem?_set_self inside)),exec_fail]
    exact ⟨lookups,notices,rfl⟩
  · dsimp only
    rw [exec_pure]
    dsimp only
    rw [setHook,exec_bind,exec_bind_ok (exec_visit (by exact calm.spared .hook)),exec_modify]
    dsimp only
    rw [exec_bind_ok (exec_link_some (by exact List.getElem?_set_self inside)),exec_note]
    exact ⟨lookups,notices ++ [.listenerAttached l.slot.id],rfl⟩

theorem exec_ensured {a : Action Unit} (there : w.links[n]? = some l) (alive : l.dead = false) :
    exec (do ensureAlive n; a) w = exec a w := by
  rw [exec_bind_ok (by rw [exec_ensureAlive there,alive]; rfl)]

theorem exec_ensured_dead {a : Action Unit} (there : w.links[n]? = some l) (dead : l.dead = true) :
    exec (do ensureAlive n; a) w = (.error (.error .killed),w) := by
  rw [exec_bind_error (by rw [exec_ensureAlive there,dead]; rfl)]

theorem exec_clearHook_dead (calm : w.Calm) (there : w.links[n]? = some l) (dead : l.dead = true) :
    exec (clearHook n) w = (.error (.error .killed),w) := by
  have body : exec (do ensureAlive n; detach n) w = (.error (.error .killed),w) :=
    exec_ensured_dead there dead
  exact exec_withHook calm there body nofun

theorem exec_clearHook (calm : w.Calm) (there : w.links[n]? = some l) (alive : l.dead = false) :
    ∃ lookups notices, exec (clearHook n) w = (.ok (),(w.dress n l none).log lookups notices) := by
  obtain ⟨lookups,notices,cleared⟩ := exec_detach calm there
  have body : exec (do ensureAlive n; detach n) w = _ := (exec_ensured there alive).trans cleared
  exact ⟨lookups,notices,exec_withHook calm there body nofun⟩

theorem exec_kill_dead (calm : w.Calm) (there : w.links[n]? = some l) (dead : l.dead = true) :
    exec (kill n) w = (.ok (),w) := by
  have body : exec (do
      if (← link n).dead then pure ()
      else do
        modifyLink n fun l => { l with dead := true }
        note .killed
        detach n) w = (.ok (),w) := by
    rw [exec_bind_ok (exec_link_some there),if_pos dead,exec_pure]
  exact exec_withHook calm there body nofun

theorem exec_kill (calm : w.Calm) (there : w.links[n]? = some l) (alive : l.dead = false) :
    ∃ lookups notices, exec (kill n) w =
      (.ok (),(w.dress n { l with dead := true } none).log lookups notices) := by
  have inside := (List.getElem?_eq_some_iff.mp there).1
  -- the link is dead before it looks for its widget, which finds the same one
  let buried := (w.modifyLink n fun l => { l with dead := true }).note .killed
  have links : buried.links = w.links.set n { l with dead := true } := modify_eq_set _ there
  have still : buried.Calm := calm.put rfl links (calm.locks n l there)
  obtain ⟨lookups,notices,cleared⟩ := exec_detach still
    (by rw [links]; exact List.getElem?_set_self inside)
  have same : buried.dress n { l with dead := true } none =
      { w.dress n { l with dead := true } none with notices := buried.notices } := by
    simp only [dress,links,List.set_set]
    rfl
  have body : exec (do
      if (← link n).dead then pure ()
      else do
        modifyLink n fun l => { l with dead := true }
        note .killed
        detach n) w = (.ok (),(w.dress n { l with dead := true } none).log lookups notices) := by
    rw [exec_bind_ok (exec_link_some there),if_neg (by simp [alive]),
      exec_bind_ok (exec_modifyLink _ _ _),exec_bind_ok (exec_note _ _),cleared,same]
    rfl
  exact ⟨lookups,notices,exec_withHook calm there body nofun⟩

theorem exec_setLive_dead (calm : w.Calm) (there : w.links[n]? = some l) (dead : l.dead = true)
    (live : Bool) : exec (setLive n live) w = (.error (.error .killed),w) := by
  exact exec_withHook calm there (exec_ensured_dead there dead) nofun

theorem exec_switched {a : Action Unit} {hook : Option Nat} {lookups : Nat} {notices : List Notice}
    (there : w.links[n]? = some l) (live : Bool)
    (hooked : exec a w = (.ok (),(w.dress n l hook).log lookups notices)) :
    exec (do
      a
      modifyLink n fun l => { l with live := live }
      note (.liveChanged live)) w =
      (.ok (),(w.dress n { l with live := live } hook).log lookups
        (notices ++ [.liveChanged live])) := by
  rw [exec_bind_ok hooked,exec_bind_ok (exec_modifyLink _ _ _),dress_switch there,exec_note]
  rfl

theorem exec_setLive (calm : w.Calm) (there : w.links[n]? = some l) (alive : l.dead = false)
    (live : Bool) (possible : live = true → (w.seen l).isSome) :
    ∃ lookups notices, exec (setLive n live) w =
      (.ok (),(w.dress n { l with live := live } (if live then some n else none)).log lookups
        notices) := by
  cases live with
  | true =>
    obtain ⟨lookups,notices,put⟩ := exec_attach calm there
    rw [if_pos (possible rfl)] at put
    have body := (exec_ensured there alive).trans (exec_switched there true put)
    exact ⟨lookups,_,exec_withHook calm there body nofun⟩
  | false =>
    obtain ⟨lookups,notices,taken⟩ := exec_detach calm there
    have body := (exec_ensured there alive).trans (exec_switched there false taken)
    exact ⟨lookups,_,exec_withHook calm there body nofun⟩

theorem exec_setLive_nowhere (calm : w.Calm) (there : w.links[n]? = some l) (alive : l.dead = false)
    (nowhere : w.seen l = none) :
    ∃ lookups notices, exec (setLive n true) w =
      (.error (.error (.editorUnavailable l.slot.id)),(w.dress n l (some n)).log lookups notices) := by
  obtain ⟨lookups,notices,missing⟩ := exec_attach calm there
  rw [if_neg (by simp [nowhere])] at missing
  have body : exec (do
      attach n
      modifyLink n fun l => { l with live := true }
      note (.liveChanged true)) w = _ := exec_bind_error missing
  have whole := (exec_ensured there alive).trans body
  exact ⟨lookups,notices,exec_withHook calm there whole nofun⟩

theorem exec_restore_idle (calm : w.Calm) (there : w.links[n]? = some l)
    (idle : (!l.dead && l.live) = false) (outcome : Verdict) :
    exec (restore n outcome) w = exec (ofExcept outcome) w := by
  have body : exec (do
      let l ← link n
      if !l.dead && l.live then result (attach n) else pure (.ok ())) w = (.ok (.ok ()),w) := by
    rw [exec_bind_ok (exec_link_some there),if_neg (by simp [idle]),exec_pure]
  rw [restore,exec_bind_ok (exec_withHook calm there body nofun)]
  cases outcome <;> rfl

/-- The error that a teardown ends with is one from before, or else one from putting the hook back. -/
theorem exec_restore (calm : w.Calm) (there : w.links[n]? = some l)
    (wanted : (!l.dead && l.live) = true) (outcome : Verdict) :
    ∃ lookups notices, exec (restore n outcome) w =
      exec (do
        ofExcept outcome
        if (w.seen l).isSome then pure () else fail (.editorUnavailable l.slot.id))
        ((w.dress n l (some n)).log lookups notices) := by
  obtain ⟨lookups,notices,put⟩ := exec_attach calm there
  have body : exec (do
      let l ← link n
      if !l.dead && l.live then result (attach n) else pure (.ok ())) w =
      (.ok (if (w.seen l).isSome then .ok () else .error (.editorUnavailable l.slot.id)),
        (w.dress n l (some n)).log lookups notices) := by
    rw [exec_bind_ok (exec_link_some there),if_pos wanted,exec_result,put]
    rcases w.seen l with _ | widget <;> rfl
  refine ⟨lookups,notices,?_⟩
  rw [restore,exec_bind_ok (exec_withHook calm there body nofun)]
  split <;> cases outcome <;> rfl

theorem restore_world (calm : w.Calm) (there : w.links[n]? = some l)
    (wanted : (!l.dead && l.live) = true) (outcome : Verdict) :
    ∃ lookups notices, (exec (restore n outcome) w).2 = (w.dress n l (some n)).log lookups notices := by
  obtain ⟨lookups,notices,put⟩ := exec_restore calm there wanted outcome
  have reads : Reads (do
      ofExcept outcome
      if (w.seen l).isSome then pure () else fail (.editorUnavailable l.slot.id)) := by
    refine (reads_ofExcept outcome).bind fun _ => ?_
    split
    · exact reads_pure _
    · exact reads_fail _
  exact ⟨lookups,notices,by rw [put,reads]⟩

end Action

open World EditorLink.Action

/-- What a living link may do to its hook while its life and its mode may change: take the hook away,
or set it, as a living link in live mode. -/
structure MayDress (w : World) (n : Nat) (l k : Link) (hook : Option Nat) : Prop where
  calm : w.Calm
  there : w.links[n]? = some l
  alive : l.dead = false
  kept : { k with live := l.live, dead := l.dead } = l
  given : hook = none ∨ hook = some n ∧ k.dead = false ∧ (k.live = true ∨ w.seen l = none)

theorem mayDress_switch {w : World} {n : Nat} {l : Link} (calm : w.Calm) (there : w.links[n]? = some l)
    (alive : l.dead = false) (live : Bool) :
    MayDress w n l { l with live := live } (if live then some n else none) := by
  refine ⟨calm,there,alive,rfl,?_⟩
  cases live with
  | true => exact .inr ⟨rfl,alive,.inl rfl⟩
  | false => exact .inl rfl

theorem MayDress.slot {w : World} {n : Nat} {l k : Link} {hook : Option Nat} (may : MayDress w n l k hook) :
    k.slot = l.slot := by
  have same := congrArg Link.slot may.kept
  exact same

theorem MayDress.seen {w : World} {n : Nat} {l k : Link} {hook : Option Nat} (may : MayDress w n l k hook) :
    w.seen k = w.seen l := by
  rw [World.seen,World.seen,may.slot]

/-- A relation kept by the background and by all that the tasks of one link do in calm worlds. -/
structure TendsCalmly (n : Nat) (R : World → World → Prop) : Prop where
  frame : Frame R
  wild : ∀ {v w}, ¬ v.Calm → R v w
  still : ∀ {v w}, Still v w → R v w
  named : ∀ w name, R w (w.bindName name n)
  dressed : ∀ {w l k hook}, MayDress w n l k hook → k.live = l.live → ∀ lookups notices,
    R w ((w.dress n k hook).log lookups notices)

variable {n : Nat} {R : World → World → Prop}

theorem keeps_of_calm [Frame R] {α : Type} {a : Action α} (n : Nat) (wild : ∀ {v w}, ¬ v.Calm → R v w)
    (missing : ∀ w, w.links[n]? = none → (exec a w).2 = w)
    (there : ∀ w l, w.Calm → w.links[n]? = some l → R w (exec a w).2) : Keeps R a := by
  intro w
  by_cases calm : w.Calm
  · rcases found : w.links[n]? with _ | l
    · rw [missing w found]
      exact Frame.refl w
    · exact there w l calm found
  · exact wild calm

theorem exec_withHook_missing {α : Type} {a : Action α} {w : World} (missing : w.links[n]? = none) :
    exec (withHook n a) w = (.error .crash,w) := by
  rw [withHook,exec_bind_error (exec_link_none missing)]

theorem setLive_keeps [Frame R] (wild : ∀ {v w}, ¬ v.Calm → R v w)
    (may : ∀ {w l k hook}, MayDress w n l k hook → ∀ lookups notices,
      R w ((w.dress n k hook).log lookups notices)) (live : Bool) : Keeps R (setLive n live) := by
  refine keeps_of_calm n wild (fun w missing => ?_) fun w l calm there => ?_
  · rw [setLive,exec_withHook_missing missing]
  · cases alive : l.dead with
    | true =>
      rw [exec_setLive_dead calm there alive]
      exact Frame.refl w
    | false =>
      by_cases possible : live = true → (w.seen l).isSome
      · obtain ⟨lookups,notices,switched⟩ := exec_setLive calm there alive live possible
        rw [switched]
        exact may (mayDress_switch calm there alive live) lookups notices
      · simp only [Classical.not_imp,Option.not_isSome_iff_eq_none] at possible
        obtain ⟨rfl,nowhere⟩ := possible
        obtain ⟨lookups,notices,failed⟩ := exec_setLive_nowhere calm there alive nowhere
        rw [failed]
        have failure : MayDress w n l l (some n) :=
          ⟨calm,there,alive,rfl,.inr ⟨rfl,alive,.inr nowhere⟩⟩
        exact may failure lookups notices

theorem TendsCalmly.tends (tendsCalmly : TendsCalmly n R) : Tends n R where
  frame := tendsCalmly.frame
  still := tendsCalmly.still
  clearHook := by
    have := tendsCalmly.frame
    refine keeps_of_calm n tendsCalmly.wild (fun w missing => ?_) fun w l calm there => ?_
    · rw [clearHook,exec_withHook_missing missing]
    · cases alive : l.dead with
      | true =>
        rw [exec_clearHook_dead calm there alive]
        exact Frame.refl w
      | false =>
        obtain ⟨lookups,notices,cleared⟩ := exec_clearHook calm there alive
        rw [cleared]
        have may : MayDress w n l l none := ⟨calm,there,alive,rfl,.inl rfl⟩
        exact tendsCalmly.dressed may rfl lookups notices
  restore outcome := by
    have := tendsCalmly.frame
    refine keeps_of_calm n tendsCalmly.wild (fun w missing => ?_) fun w l calm there => ?_
    · rw [restore,exec_bind_error (exec_withHook_missing missing)]
    · cases wanted : !l.dead && l.live with
      | false =>
        rw [exec_restore_idle calm there wanted,reads_ofExcept]
        exact Frame.refl w
      | true =>
        obtain ⟨lookups,notices,put⟩ := restore_world calm there wanted outcome
        rw [put]
        simp only [Bool.and_eq_true,Bool.not_eq_true'] at wanted
        have may : MayDress w n l l (some n) :=
          ⟨calm,there,wanted.1,rfl,.inr ⟨rfl,wanted.1,.inl wanted.2⟩⟩
        exact tendsCalmly.dressed may rfl lookups notices
  kill := by
    have := tendsCalmly.frame
    refine keeps_of_calm n tendsCalmly.wild (fun w missing => ?_) fun w l calm there => ?_
    · rw [kill,exec_withHook_missing missing]
    · cases alive : l.dead with
      | true =>
        rw [exec_kill_dead calm there alive]
        exact Frame.refl w
      | false =>
        obtain ⟨lookups,notices,killed⟩ := exec_kill calm there alive
        rw [killed]
        have may : MayDress w n l { l with dead := true } none := ⟨calm,there,alive,rfl,.inl rfl⟩
        exact tendsCalmly.dressed may rfl lookups notices
  handOver name := by
    have := tendsCalmly.frame
    exact handOver_keeps name ((note_still rfl).mono tendsCalmly.still) fun w => tendsCalmly.named w name

end EditorLink
