import EditorLink.Proofs.Begun
import EditorLink.Proofs.Hooks

/-! How a teardown begins and how it ends where no collaborator crashes, told in full: the attempt it starts,
what comes of clearing the cache, what is done to the hook, and with which error or none it is over. -/
namespace EditorLink
open World EditorLink.Action

namespace World

/-- Calm, and every widget that lives is there. -/
structure Furnished (w : World) : Prop extends Calm w where
  peopled : ∀ e, w.alive e = true → e < w.widgets.length

theorem Furnished.same {v w : World} (furnished : v.Furnished) (calm : w.Calm) (host : w.host = v.host)
    (kept : w.kept = v.kept) (widgets : w.widgets.length = v.widgets.length) : w.Furnished where
  toCalm := calm
  peopled e alive := by
    rw [widgets]
    rw [World.alive,host,kept] at alive
    exact furnished.peopled e alive

theorem Calm.taken {w : World} (calm : w.Calm) (id : Nat) : (w.taken id).Calm := ⟨calm.sites,calm.locks⟩

theorem Furnished.taken {w : World} (furnished : w.Furnished) (id : Nat) : (w.taken id).Furnished :=
  ⟨furnished.toCalm.taken id,furnished.peopled⟩

theorem dress_size (w : World) (n : Nat) (l : Link) (hook : Option Nat) :
    (w.dress n l hook).widgets.length = w.widgets.length := by
  unfold dress
  dsimp only
  split
  · exact List.length_modify _ _ _
  · rfl

theorem furnished_dress {w : World} {n : Nat} {l k : Link} {hook : Option Nat} (may : MayDress w n l k hook)
    (furnished : w.Furnished) (lookups : Nat) (notices : List Notice) :
    ((w.dress n k hook).log lookups notices).Furnished :=
  furnished.same (calm_after may lookups notices) rfl rfl (dress_size w n k hook)

end World

theorem persists_furnished : Persists fun v w => v.Furnished → w.Furnished where
  frame := inferInstance
  wild wild furnished := absurd furnished.toCalm wild
  entities entities furnished := furnished.same (persists_calm.entities entities furnished.toCalm) entities.host
    entities.kept (by rw [entities.widgets])
  quiet quiet furnished := furnished.same (furnished.toCalm.quiet quiet) quiet.host quiet.kept
    (by rw [quiet.widgets])
  dressed may _ lookups notices furnished := furnished_dress may furnished lookups notices
  made _ _ _ furnished := furnished.same (calm_withLink furnished.toCalm _ _) rfl rfl rfl

theorem furnished_change {w : World} (furnished : w.Furnished) (o : Outside)
    (gentle : ∀ site, o ≠ .crash site true) : (w.change o).2.Furnished where
  toCalm := calm_change furnished.toCalm o gentle
  peopled := (change_around w o).peopled furnished.peopled

theorem furnished_of_reached {s : Setting} {w : World} (reached : Reaches Move.Calm s.start w) :
    w.Furnished := by
  refine persists_furnished.reaches (fun _ => Move.Internal.calm) (fun _ number o calm furnished => ?_)
    (fun may lookups notices furnished => furnished_dress may furnished lookups notices) reached ?_
  · exact furnished_change furnished o fun site crash => calm site number (by rw [crash])
  · refine ⟨start_calm s,fun e alive => ?_⟩
    simp only [Setting.start,World.alive] at alive ⊢
    split at alive
    · rename_i mounted
      rw [if_pos mounted]
      simp at alive ⊢
      omega
    · simp at alive

namespace World

variable {w : World} {n k e : Nat} {l : Link} {stopped : Verdict}

theorem alive_of_seen (seen : w.seen l = some e) : w.alive e = true := by
  unfold World.seen at seen
  rcases known : l.slot.cached.filter w.alive with _ | f
  · rw [known,Option.none_or,Host.find?] at seen
    split at seen
    · exact alive_iff.mpr (.inl seen)
    · cases seen
  · rw [known,Option.some_or] at seen
    cases seen
    exact (Option.filter_eq_some_iff.mp known).2

/-- A link that looks a second time finds the same. -/
theorem seen_again (w : World) (l : Link) :
    w.seen { l with slot := { l.slot with cached := w.seen l } } = w.seen l := by
  rw [World.seen]
  rcases found : w.seen l with _ | e
  · have asked := found
    rw [World.seen] at asked
    exact (Option.or_eq_none_iff.mp asked).2
  · have remembered : Option.filter w.alive (some e) = some e := by simp [alive_of_seen found]
    rw [remembered]
    rfl

/-- Of every link, whether it is dead and whether it is in live mode. -/
def flags (w : World) : List (Bool × Bool) := w.links.map fun l => (l.dead,l.live)

/-- The text of the error that makes a teardown fail before the hook is put back: it comes from waiting for
the attempt, or else from the model. -/
def obstacle (w : World) (l : Link) : Verdict → Option String
  | .error e => some e.message
  | .ok _ => w.models[l.model]?.bind fun m => match m.model.uncache with
    | .error e => some e.message
    | .ok _ => none

/-- What clearing the cache comes to. -/
def outcome (w : World) (l : Link) (stopped : Verdict) : Verdict :=
  match w.obstacle l stopped with
  | some reason => .error (.uncache reason)
  | none => .ok ()

/-- What the teardown of a link comes to whose attempt had this verdict. -/
def closing (w : World) (l : Link) (stopped : Verdict) : Verdict := do
  w.outcome l stopped
  if (!l.dead && l.live) && (w.seen l).isNone then throw (.editorUnavailable l.slot.id)

theorem closing_eq (w : World) (l : Link) (stopped : Verdict) :
    w.closing l stopped = match w.obstacle l stopped with
      | some reason => .error (.uncache reason)
      | none => if (!l.dead && l.live) && (w.seen l).isNone then .error (.editorUnavailable l.slot.id)
        else .ok () := by
  rw [closing,outcome]
  rcases w.obstacle l stopped with _ | reason <;> rfl

/-- The world with the cache cleared, if nothing is in the way. -/
def emptied (w : World) (l : Link) (stopped : Verdict) : World :=
  match w.obstacle l stopped with
  | some _ => w
  | none => w.modifyModel l.model fun m => m.uncache.toOption.getD m

/-- What is left by the end of a teardown. Only if the link is alive and live has it looked for its widget. -/
structure Closes (w : World) (n : Nat) (l : Link) (stopped : Verdict) (v : World) : Prop where
  same : v = { w with
    links := v.links, widgets := v.widgets, models := v.models, lookups := v.lookups, notices := v.notices }
  models : v.models = (w.emptied l stopped).models
  links : v.links = if !l.dead && l.live
    then w.links.set n { l with slot := { l.slot with cached := w.seen l } } else w.links
  widgets : v.widgets = if !l.dead && l.live then (w.dress n l (some n)).widgets else w.widgets

/-- What is left by the beginning of a teardown: the hook is off, and the link has one more attempt. -/
structure Opens (w : World) (n : Nat) (l : Link) (v : World) : Prop where
  same : v = { w with
    schedule := v.schedule, links := v.links, widgets := v.widgets, promises := v.promises, tasks := v.tasks
    lookups := v.lookups, notices := v.notices }
  links : v.links = w.links.set n
    { l with slot := { l.slot with cached := w.seen l }, stop := some w.promises.length }
  widgets : v.widgets = (w.dress n l none).widgets
  size : v.promises.length = w.promises.length + 1

end World

namespace Action

variable {w : World} {n p : Nat} {l : Link} {m : PlannedModel}

theorem exec_await_unanswered (id : Nat) (unanswered : w.promises[p]?.bind Promise.answer? = none) :
    exec (await id p) w = (.ok none,{ w with promises := w.promises.modify p fun x => x.observe id }) := by
  rw [exec_await,unanswered]

theorem exec_await_answered (id : Nat) {answer : Option Verdict}
    (answered : w.promises[p]?.bind Promise.answer? = some answer) :
    exec (await id p) w = (.ok (some answer),w) := by
  rw [exec_await,answered]

theorem exec_startStop (there : w.links[n]? = some l) (alive : l.dead = false) (fine : l.stopPoisoned = false) :
    ∃ v, exec (startStop n true) w = (.ok v.promises.length,v.attempted n { l with stop := none }) ∧
      Released n l w v := by
  obtain ⟨v,superseded,released⟩ := supersede_released there
  refine ⟨v,?_,released⟩
  rw [startStop,exec_bind_ok (by rw [exec_ensureAlive there,alive]; rfl),exec_bind_ok (exec_link_some there),
    if_neg (by simp [fine]),exec_bind_ok superseded,if_pos rfl,exec_bind_ok (exec_get v),
    exec_bind_ok (exec_link_some (released.found there))]
  dsimp only
  rw [Config.timeout_toMillis,Config.interval_toMillis]
  rfl

theorem exec_beginTeardown (calm : w.Calm) (there : w.links[n]? = some l) (alive : l.dead = false)
    (fine : l.stopPoisoned = false) :
    ∃ v, exec (beginTeardown n) w = (.ok w.promises.length,v) ∧ Opens w n l v ∧
      v.promises[w.promises.length]?.bind Promise.answer? = none := by
  obtain ⟨lookups,notices,cleared⟩ := exec_clearHook calm there alive
  have inside := (List.getElem?_eq_some_iff.mp there).1
  have found : ((w.dress n l none).log lookups notices).links[n]? =
      some { l with slot := { l.slot with cached := w.seen l } } := List.getElem?_set_self inside
  obtain ⟨v,started,released⟩ := exec_startStop found alive fine
  have launched := startStop_launches started
  have number : v.promises.length = w.promises.length := launched.number
  refine ⟨v.attempted n { l with slot := { l.slot with cached := w.seen l }, stop := none },?_,⟨?_,?_,?_,?_⟩,?_⟩
  · rw [beginTeardown,exec_bind_ok cleared,exec_bind,exec_result,started,number]
    rfl
  · rw [released.same]
    rfl
  · have after : (v.attempted n { l with slot := { l.slot with cached := w.seen l }, stop := none }).links =
      v.links.modify n fun k => { k with stop := some v.promises.length } := rfl
    have dressed : ((w.dress n l none).log lookups notices).links =
      w.links.set n { l with slot := { l.slot with cached := w.seen l } } := rfl
    rw [after,modify_eq_set _ (released.found found),released.links,List.set_set,dressed,List.set_set,number]
  · rw [released.same]
    rfl
  · exact launched.size
  · rw [← number]
    exact (startStop_new started).2

theorem exec_uncacheModel (calm : w.Calm) (there : w.links[n]? = some l)
    (model : w.models[l.model]? = some m) :
    exec (uncacheModel n) w = match m.model.uncache with
      | .error e => (.error (.error (.uncache e.message)),w)
      | .ok _ => (.ok (),(w.modifyModel l.model fun m => m.uncache.toOption.getD m).note .cacheCleared) := by
  rw [uncacheModel,exec_bind_ok (exec_visit (calm.spared .modelUncache)),exec_bind_ok (exec_link_some there),
    exec_bind_ok (exec_get w),model]
  dsimp only
  rcases m.model.uncache with e | _ <;> rfl

/-- The first half of a teardown's end: the cache is cleared if nothing is in the way. -/
theorem exec_outcome (calm : w.Calm) (there : w.links[n]? = some l) (housed : w.Housed) (stopped : Verdict) :
    ∃ u, exec (result do
      match stopped with
      | .error e => fail (.uncacheBecause e)
      | .ok _ => uncacheModel n) w = (.ok (w.outcome l stopped),u) ∧
      u = { w with models := (w.emptied l stopped).models, notices := u.notices } := by
  rw [exec_result]
  cases stopped with
  | error e => exact ⟨w,rfl,rfl⟩
  | ok _ =>
    obtain ⟨m,model⟩ : ∃ m, w.models[l.model]? = some m := ⟨_,List.getElem?_eq_getElem (housed n l there)⟩
    have known := exec_uncacheModel calm there model
    unfold World.outcome World.emptied World.obstacle
    dsimp only
    rw [known,model,Option.bind_some]
    rcases m.model.uncache with e | _
    · exact ⟨w,rfl,rfl⟩
    · exact ⟨_,rfl,rfl⟩

theorem exec_ofExcept (v : Verdict) (w : World) : exec (ofExcept v) w = (v.mapError Fault.error,w) := by
  cases v <;> rfl

theorem exec_finishTeardown (calm : w.Calm) (there : w.links[n]? = some l) (housed : w.Housed)
    (stopped : Verdict) : ∃ v, exec (finishTeardown n stopped) w =
      ((w.closing l stopped).mapError Fault.error,v) ∧ Closes w n l stopped v := by
  obtain ⟨u,first,same⟩ := exec_outcome calm there housed stopped
  have still : u.Calm := by
    rw [same]
    exact ⟨calm.sites,calm.locks⟩
  have found : u.links[n]? = some l := by
    rw [same]
    exact there
  have rest : exec (finishTeardown n stopped) w = exec (restore n (w.outcome l stopped)) u := exec_bind_ok first
  rw [rest,closing]
  cases wanted : !l.dead && l.live with
  | false =>
    rw [exec_restore_idle still found wanted,exec_ofExcept]
    refine ⟨u,?_,by rw [same],by rw [same],by rw [wanted,same]; rfl,by rw [wanted,same]; rfl⟩
    cases w.outcome l stopped <;> rfl
  | true =>
    obtain ⟨lookups,notices,put⟩ := exec_restore still found wanted (w.outcome l stopped)
    have seen : u.seen l = w.seen l := by rw [same]; rfl
    rw [put,exec_bind,exec_ofExcept,seen]
    refine ⟨(u.dress n l (some n)).log lookups notices,?_,by rw [same]; rfl,by rw [same]; rfl,?_,?_⟩
    · rcases w.outcome l stopped with e | _
      · rfl
      · rcases w.seen l with _ | e <;> rfl
    · rw [wanted,same]
      rfl
    · rw [wanted,same]
      rfl

end Action

namespace World

variable {v w : World} {n e : Nat} {l : Link} {stopped : Verdict}

theorem flags_set {k : Link} (links : v.links = w.links.set n k) (there : w.links[n]? = some l)
    (dead : k.dead = l.dead) (live : k.live = l.live) : v.flags = w.flags := by
  have flag : (w.links.map fun l => (l.dead,l.live))[n]? = some (k.dead,k.live) := by
    simp [there,dead,live]
  obtain ⟨_,same⟩ := List.getElem?_eq_some_iff.mp flag
  rw [flags,links,List.map_set,← same,List.set_getElem_self,flags]

theorem Opens.flags (opens : Opens w n l v) (there : w.links[n]? = some l) : v.flags = w.flags :=
  flags_set opens.links there rfl rfl

theorem Opens.attached (opens : Opens w n l v) :
    v.widgets.map Widget.attached = w.widgets.map Widget.attached := by
  rw [opens.widgets,dress]
  dsimp only
  split
  · exact map_modify_same _ (fun x : Widget Nat => x.setHook none) (fun _ => rfl) _ _
  · rfl

theorem Closes.flags (closes : Closes w n l stopped v) (there : w.links[n]? = some l) : v.flags = w.flags := by
  have links := closes.links
  split at links
  · exact flags_set links there rfl rfl
  · rw [World.flags,links,World.flags]

theorem Closes.link (closes : Closes w n l stopped v) (there : w.links[n]? = some l) :
    ∃ k, v.links[n]? = some k ∧ k.model = l.model ∧ k.dead = l.dead ∧ k.live = l.live ∧ v.seen k = w.seen l := by
  have inside := (List.getElem?_eq_some_iff.mp there).1
  have looks (k : Link) : v.seen k = w.seen k := by rw [closes.same]; rfl
  have links := closes.links
  split at links
  · exact ⟨{ l with slot := { l.slot with cached := w.seen l } },
      by rw [links]; exact List.getElem?_set_self inside,rfl,rfl,rfl,(looks _).trans (seen_again w l)⟩
  · exact ⟨l,by rw [links]; exact there,rfl,rfl,rfl,looks l⟩

theorem uncaches_uncache {m : Model} (willing : ∀ e, m.uncache ≠ .error e) :
    (m.uncache.toOption.getD m).uncaches = m.uncaches + 1 := by
  unfold Model.uncache at willing ⊢
  split at willing
  · exact absurd rfl (willing _)
  · rename_i fine
    rw [if_neg fine]
    rfl

/-- The cache is cleared once if nothing is in the way. -/
theorem Closes.uncaches (closes : Closes w n l stopped v) (housed : w.Housed) (there : w.links[n]? = some l)
    (k : Nat) : v.uncachesOf k =
      w.uncachesOf k + if w.obstacle l stopped = none ∧ k = l.model then 1 else 0 := by
  have known := housed n l there
  rw [uncachesOf,uncachesOf,closes.models,emptied]
  rcases obstacle : w.obstacle l stopped with _ | reason
  · by_cases here : l.model = k
    · subst here
      have cleared : (w.models[l.model].model.uncache.toOption.getD w.models[l.model].model).uncaches =
          w.models[l.model].model.uncaches + 1 := by
        unfold World.obstacle at obstacle
        split at obstacle
        · cases obstacle
        · rw [List.getElem?_eq_getElem known,Option.bind_some] at obstacle
          exact uncaches_uncache fun e refused => by simp [refused] at obstacle
      simp [modifyModel,List.getElem?_eq_getElem known,cleared]
    · simp [modifyModel,here,Ne.symm here]
  · simp

theorem Closes.hooked (closes : Closes w n l stopped v) (furnished : w.Furnished)
    (wanted : (!l.dead && l.live) = true) (seen : w.seen l = some e) :
    ∃ x, v.widgets[e]? = some x ∧ x.hook = some n := by
  obtain ⟨x,there⟩ : ∃ x, w.widgets[e]? = some x :=
    ⟨_,List.getElem?_eq_getElem (furnished.peopled e (alive_of_seen seen))⟩
  have widgets := closes.widgets
  rw [if_pos wanted,dress] at widgets
  simp only [seen] at widgets
  refine ⟨x.setHook (some n),?_,hook_setHook x _⟩
  rw [widgets,List.getElem?_modify_eq,there]
  rfl

end World
end EditorLink
