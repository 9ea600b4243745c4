import EditorLink.Proofs.Quiet

/-! What a link may do to its hook, wherever a collaborator may crash: nothing changes but the hooks of
widgets and the slot, the mode and the life of that one link. -/
namespace EditorLink

structure Link.Handled (l k : Link) : Prop where
  model : k.model = l.model
  config : k.config = l.config
  stop : k.stop = l.stop
  stopPoisoned : k.stopPoisoned = l.stopPoisoned
  dead : l.dead = true → k.dead = true

theorem Link.Handled.refl (l : Link) : l.Handled l := ⟨rfl,rfl,rfl,rfl,id⟩

theorem Link.Handled.trans {j k l : Link} (first : j.Handled k) (next : k.Handled l) : j.Handled l where
  model := next.model.trans first.model
  config := next.config.trans first.config
  stop := next.stop.trans first.stop
  stopPoisoned := next.stopPoisoned.trans first.stopPoisoned
  dead gone := next.dead (first.dead gone)

/-- What a link makes of a resolution. -/
def Resolution.answer : Resolution → Except Fault (Option Nat)
  | remembered e => .ok (some e)
  | found e => .ok (some e)
  | missing => .ok none
  | crashed => .error .crash
  | poisoned => .error (.error .lockPoisoned)

namespace Slot

/-- A living widget that was remembered is remembered still. -/
def Faithful (slot after : Slot) (alive : Nat → Bool) : Prop :=
  ∀ e, slot.cached = some e → alive e = true → after.cached = some e

theorem tryResolve_faithful (slot : Slot) (alive : Nat → Bool) (lookup : Lookup) :
    slot.Faithful (slot.tryResolve alive lookup).2 alive := by
  intro e cached lives
  unfold tryResolve
  split
  · exact cached
  · have kept : slot.cached.filter alive = some e := by simp [cached,lives]
    rw [kept]
    exact cached

theorem tryResolve_answer {slot : Slot} {alive : Nat → Bool} {lookup : Lookup} {found : Option Nat}
    (answered : (slot.tryResolve alive lookup).1.answer = .ok found) :
    (slot.tryResolve alive lookup).2.cached = found := by
  unfold tryResolve at answered ⊢
  split at answered
  · cases answered
  · rename_i fine
    rw [if_neg fine]
    rcases known : slot.cached.filter alive with _ | e
    · rw [known] at answered
      rcases lookup with (_ | e) | _ <;> cases answered <;> rfl
    · rw [known] at answered
      cases answered
      exact (Option.filter_eq_some_iff.mp known).1

end Slot

namespace World

/-- A living widget with the link's hook is the one that the link remembers. -/
def Tied (n : Nat) (w : World) : Prop :=
  ∀ e x, w.widgets[e]? = some x → w.alive e = true → x.hook = some n →
    ∃ l, w.links[n]? = some l ∧ l.slot.cached = some e

/-- No living widget carries the hook of the link. -/
def Unhooked (w : World) (n : Nat) : Prop :=
  ∀ e x, w.widgets[e]? = some x → w.alive e = true → x.hook ≠ some n

/-- What may come of a link's dealings with its hook: only where these may set it does a widget get it, and no
update is started. -/
structure Handling (n : Nat) (sets : Bool) (v w : World) : Prop where
  same : w = { v with
    links := w.links, widgets := w.widgets, lookups := w.lookups, notices := w.notices }
  size : w.links.length = v.links.length
  begun : w.updatesBegun = v.updatesBegun
  links : ∀ (m : Nat) (l : Link), v.links[m]? = some l → ∃ k, w.links[m]? = some k ∧ (m ≠ n → k = l) ∧ l.Handled k
  hooks : ∀ (e : Nat) (x : Widget Nat), w.widgets[e]? = some x → ∃ y, v.widgets[e]? = some y ∧
    (x.hook = y.hook ∨ x.hook = none ∨ sets = true ∧ x.hook = some n)
  tied : v.Tied n → w.Tied n

variable {n : Nat} {sets : Bool}

theorem Handling.refl (w : World) : Handling n sets w w :=
  ⟨rfl,rfl,rfl,fun _ l there => ⟨l,there,fun _ => rfl,.refl l⟩,fun _ x there => ⟨x,there,.inl rfl⟩,id⟩

theorem Handling.trans {u v w : World} (first : Handling n sets u v) (next : Handling n sets v w) :
    Handling n sets u w where
  same := by
    have before := first.same
    have after := next.same
    rw [before] at after
    exact after
  size := next.size.trans first.size
  begun := next.begun.trans first.begun
  links m l there := by
    obtain ⟨k,between,others,handled⟩ := first.links m l there
    obtain ⟨j,after,rest,more⟩ := next.links m k between
    exact ⟨j,after,fun other => (rest other).trans (others other),handled.trans more⟩
  hooks e x there := by
    obtain ⟨y,between,hook⟩ := next.hooks e x there
    obtain ⟨z,before,past⟩ := first.hooks e y between
    refine ⟨z,before,?_⟩
    rcases hook with same | rest
    · rw [same]
      exact past
    · exact .inr rest
  tied tied := next.tied (first.tied tied)

instance : Frame (Handling n sets) := ⟨Handling.refl,Handling.trans⟩

theorem Handling.may {v w : World} (handling : Handling n false v w) : Handling n sets v w where
  same := handling.same
  size := handling.size
  begun := handling.begun
  links := handling.links
  hooks e x there := by
    obtain ⟨y,before,hook⟩ := handling.hooks e x there
    exact ⟨y,before,hook.imp_right fun rest => rest.imp_right nofun⟩
  tied := handling.tied

theorem Handling.alive {v w : World} (handling : Handling n sets v w) (e : Nat) :
    w.alive e = v.alive e := by
  rw [handling.same]
  rfl

theorem handling_note (w : World) {notice : Notice} (other : notice.isUpdating = false) :
    Handling n sets w (w.note notice) :=
  { Handling.refl w with same := rfl, begun := (still_note w other).begun }

theorem handling_modifyLink (w : World) (f : Link → Link) (handled : ∀ l : Link, l.Handled (f l))
    (slot : ∀ l, (f l).slot = l.slot) : Handling n sets w (w.modifyLink n f) where
  same := rfl
  size := List.length_modify _ _ _
  begun := rfl
  links m l there := by
    by_cases here : n = m
    · subst here
      exact ⟨f l,by simp [modifyLink,there],fun other => absurd rfl other,handled l⟩
    · exact ⟨l,by simp [modifyLink,there,here],fun _ => rfl,.refl l⟩
  hooks e x there := ⟨x,there,.inl rfl⟩
  tied tied e x widget alive hook := by
    obtain ⟨l,there,cached⟩ := tied e x widget alive hook
    exact ⟨f l,by simp [modifyLink,there],(congrArg Slot.cached (slot l)).trans cached⟩

/-- The link remembers another widget, or the same one. -/
def reslot (w : World) (n : Nat) (l : Link) (slot : Slot) (lookups : Nat) (notices : List Notice) :
    World :=
  { w with links := w.links.set n { l with slot }, lookups, notices }

variable {w : World} {l : Link} {slot : Slot} {lookups : Nat} {notices : List Notice}

theorem reslot_link (there : w.links[n]? = some l) (slot : Slot) (lookups : Nat) (notices : List Notice) :
    (w.reslot n l slot lookups notices).links[n]? = some { l with slot } :=
  List.getElem?_set_self (List.getElem?_eq_some_iff.mp there).1

theorem handling_reslot (there : w.links[n]? = some l) (faithful : l.slot.Faithful slot w.alive)
    (begun : notices.countP Notice.isUpdating = w.updatesBegun) :
    Handling n sets w (w.reslot n l slot lookups notices) where
  same := rfl
  size := List.length_set
  begun := begun
  links m k found := by
    by_cases here : n = m
    · subst here
      rw [there] at found
      cases found
      exact ⟨_,reslot_link there slot lookups notices,fun other => absurd rfl other,⟨rfl,rfl,rfl,rfl,id⟩⟩
    · exact ⟨k,(List.getElem?_set_ne here).trans found,fun _ => rfl,.refl k⟩
  hooks e x widget := ⟨x,widget,.inl rfl⟩
  tied tied e x widget alive hook := by
    obtain ⟨k,found,cached⟩ := tied e x widget alive hook
    rw [there] at found
    cases found
    exact ⟨_,reslot_link there slot lookups notices,faithful e cached alive⟩

theorem hook_setHook (x : Widget Nat) (hook : Option Nat) : (x.setHook hook).hook = hook := by
  cases hook <;> rfl

theorem hook_modify {widgets : List (Widget Nat)} {e widget : Nat} {hook : Option Nat} {x : Widget Nat}
    (there : (widgets.modify widget fun x => x.setHook hook)[e]? = some x) :
    ∃ y, widgets[e]? = some y ∧ (e ≠ widget ∧ x = y ∨ e = widget ∧ x.hook = hook) := by
  rw [List.getElem?_modify] at there
  obtain ⟨y,before,same⟩ := Option.map_eq_some_iff.mp there
  refine ⟨y,before,?_⟩
  split at same
  · rename_i here
    subst same
    exact .inr ⟨here.symm,hook_setHook y hook⟩
  · rename_i away
    exact .inl ⟨Ne.symm away,same.symm⟩

theorem handling_setHook (widget : Nat) (hook : Option Nat)
    (given : hook = none ∨ sets = true ∧ hook = some n ∧
      ∃ l, w.links[n]? = some l ∧ l.slot.cached = some widget) :
    Handling n sets w { w with widgets := w.widgets.modify widget fun x => x.setHook hook } where
  same := rfl
  size := rfl
  begun := rfl
  links _ l there := ⟨l,there,fun _ => rfl,.refl l⟩
  hooks e x there := by
    obtain ⟨y,before,⟨-,rfl⟩ | ⟨-,same⟩⟩ := hook_modify there
    · exact ⟨x,before,.inl rfl⟩
    · refine ⟨y,before,.inr ?_⟩
      rcases given with none | ⟨may,some,-⟩
      · exact .inl (same.trans none)
      · exact .inr ⟨may,same.trans some⟩
  tied tied e x there alive own := by
    obtain ⟨y,before,⟨-,rfl⟩ | ⟨rfl,same⟩⟩ := hook_modify there
    · exact tied e x before alive own
    · rcases given with none | ⟨-,-,known⟩
      · rw [own,none] at same
        cases same
      · exact known

end World

namespace Action
open World

variable {n : Nat} {sets : Bool} {w : World} {l : Link}

theorem exec_look (there : w.links[n]? = some l) :
    ∃ lookups notices, notices.countP Notice.isUpdating = w.updatesBegun ∧ exec (tryResolve n) w =
      ((l.slot.tryResolve w.alive (lookup l.slot.id w)).1.answer,
        w.reslot n l (l.slot.tryResolve w.alive (lookup l.slot.id w)).2 lookups notices) := by
  rw [tryResolve,exec_bind_ok (exec_link_some there),exec_bind_ok (exec_get w)]
  rcases l.slot.tryResolve w.alive (lookup l.slot.id w) with ⟨r,slot⟩
  dsimp only
  have put : exec (modifyLink n fun l => { l with slot := slot }) w =
      (.ok (),w.reslot n l slot w.lookups w.notices) := by
    rw [exec_modifyLink,World.modifyLink,modify_eq_set _ there]
    rfl
  rw [exec_bind_ok put]
  cases r with
  | remembered e => exact ⟨w.lookups,w.notices,rfl,rfl⟩
  | found e =>
    exact ⟨w.lookups + 1,w.notices ++ [.widgetResolved slot.id],(still_note w rfl).begun,rfl⟩
  | missing => exact ⟨w.lookups + 1,w.notices,rfl,rfl⟩
  | crashed => exact ⟨w.lookups + 1,w.notices,rfl,rfl⟩
  | poisoned => exact ⟨w.lookups,w.notices,rfl,rfl⟩

theorem note_handling {notice : Notice} (other : notice.isUpdating = false) :
    Keeps (Handling n sets) (note notice) := fun w => handling_note w other

theorem modifyLink_handling (f : Link → Link) (handled : ∀ l : Link, l.Handled (f l))
    (slot : ∀ l, (f l).slot = l.slot) : Keeps (Handling n sets) (modifyLink n f) := fun w =>
  handling_modifyLink w f handled slot

theorem tryResolve_handling : Keeps (Handling n sets) (tryResolve n) := by
  intro w
  rcases there : w.links[n]? with _ | l
  · rw [tryResolve,exec_bind_error (exec_link_none there)]
    exact Frame.refl w
  · obtain ⟨lookups,notices,begun,looked⟩ := exec_look there
    rw [looked]
    exact handling_reslot there (l.slot.tryResolve_faithful w.alive _) begun

theorem tryResolve_ok {found : Option Nat} {v : World} (ran : exec (tryResolve n) w = (.ok found,v)) :
    ∃ l slot lookups notices, w.links[n]? = some l ∧ v = w.reslot n l slot lookups notices ∧
      slot.cached = found ∧ l.slot.Faithful slot w.alive := by
  rcases there : w.links[n]? with _ | l
  · rw [tryResolve,exec_bind_error (exec_link_none there)] at ran
    cases ran
  · obtain ⟨lookups,notices,-,looked⟩ := exec_look there
    rw [looked,Prod.mk.injEq] at ran
    obtain ⟨answered,rfl⟩ := ran
    exact ⟨l,_,lookups,notices,rfl,rfl,Slot.tryResolve_answer answered,
      l.slot.tryResolve_faithful w.alive _⟩

/-- What is found is remembered, and every other widget is without the hook. -/
theorem tryResolve_found {found : Option Nat} {v : World}
    (ran : exec (tryResolve n) w = (.ok found,v)) :
    (∃ l, v.links[n]? = some l ∧ l.slot.cached = found) ∧
      (w.Tied n → ∀ e x, v.widgets[e]? = some x → v.alive e = true → x.hook = some n → found = some e) := by
  obtain ⟨l,slot,lookups,notices,there,rfl,cached,faithful⟩ := tryResolve_ok ran
  have inside := (List.getElem?_eq_some_iff.mp there).1
  refine ⟨⟨_,List.getElem?_set_self inside,cached⟩,fun tied e x widget alive hook => ?_⟩
  obtain ⟨k,known,remembered⟩ := tied e x widget alive hook
  rw [there] at known
  cases known
  rw [← cached]
  exact faithful e remembered alive

theorem setHook_ok {widget : Nat} {hook : Option Nat} {v : World}
    (ran : exec (setHook widget hook) w = (.ok (),v)) :
    v = { w with widgets := w.widgets.modify widget fun x => x.setHook hook } := by
  rw [setHook,exec_bind] at ran
  rcases seen : exec (visit .hook) w with ⟨fault | _,u⟩
  · rw [seen] at ran
    cases ran
  · have same := reads_visit .hook w
    rw [seen] at ran same
    obtain rfl := same
    cases ran
    rfl

theorem setHook_failed {widget : Nat} {hook : Option Nat} {fault : Fault} {v : World}
    (ran : exec (setHook widget hook) w = (.error fault,v)) : v = w := by
  rw [setHook,exec_bind] at ran
  have same := reads_visit .hook w
  rcases seen : exec (visit .hook) w with ⟨other | _,u⟩
  · rw [seen] at ran same
    cases ran
    exact same
  · rw [seen] at ran
    cases ran

/-- The hook is set as the last thing, or not at all. -/
theorem attach_cases (n : Nat) (w : World) :
    (∃ fault v, exec (attach n) w = (.error fault,v) ∧ Handling n false w v) ∨
      ∃ v, exec (attach n) w = (.ok (),v) ∧ Handling n true w v := by
  have looked : Handling n false w _ := tryResolve_handling w
  rw [attach,exec_bind,resolve,exec_bind]
  rcases ran : exec (tryResolve n) w with ⟨fault | found,u⟩
  · rw [ran] at looked
    exact .inl ⟨fault,u,rfl,looked⟩
  · rw [ran] at looked
    obtain ⟨⟨l,there,cached⟩,-⟩ := tryResolve_found ran
    rcases found with _ | e
    · dsimp only
      rw [exec_bind_ok (exec_link_some there),exec_fail]
      exact .inl ⟨_,u,rfl,looked⟩
    · dsimp only
      rw [exec_pure]
      dsimp only
      rcases set : exec (setHook e (some n)) u with ⟨fault | _,v⟩
      · rw [exec_bind_error set,setHook_failed set]
        exact .inl ⟨fault,u,rfl,looked⟩
      · obtain rfl := setHook_ok set
        rw [exec_bind_ok set,exec_bind_ok (exec_link_some (by exact there)),exec_note]
        have hooked : Handling n true u _ :=
          handling_setHook e (some n) (.inr ⟨rfl,rfl,l,there,cached⟩)
        exact .inr ⟨_,rfl,(looked.may.trans hooked).trans (handling_note _ rfl)⟩

/-- No living widget is left with the hook once it has been cleared. -/
theorem detach_cases (n : Nat) (w : World) :
    Handling n false w (exec (detach n) w).2 ∧
      ((exec (detach n) w).1 = .ok () → w.Tied n → (exec (detach n) w).2.Unhooked n) := by
  have looked : Handling n false w _ := tryResolve_handling w
  rw [detach,exec_bind]
  rcases ran : exec (tryResolve n) w with ⟨fault | found,u⟩
  · rw [ran] at looked
    exact ⟨looked,nofun⟩
  · rw [ran] at looked
    obtain ⟨⟨l,there,cached⟩,only⟩ := tryResolve_found ran
    rcases found with _ | e
    · refine ⟨looked,fun _ tied e x widget alive hook => ?_⟩
      cases only tied e x widget alive hook
    · dsimp only
      rcases set : exec (setHook e none) u with ⟨fault | _,v⟩
      · rw [exec_bind_error set,setHook_failed set]
        exact ⟨looked,nofun⟩
      · obtain rfl := setHook_ok set
        rw [exec_bind_ok set,exec_bind_ok (exec_link_some (by exact there)),exec_note]
        have cleared : Handling n false u _ := handling_setHook e none (.inl rfl)
        refine ⟨(looked.trans cleared).trans (handling_note _ rfl),fun _ tied f x widget alive hook => ?_⟩
        obtain ⟨y,before,⟨other,rfl⟩ | ⟨-,none⟩⟩ := hook_modify widget
        · exact other (Option.some.inj (only tied f x before alive hook)).symm
        · rw [hook] at none
          cases none

theorem attach_handling : Keeps (Handling n true) (attach n) := by
  intro w
  rcases attach_cases n w with ⟨fault,v,failed,loose⟩ | ⟨v,done,handling⟩
  · rw [failed]
    exact loose.may
  · rw [done]
    exact handling

theorem detach_handling : Keeps (Handling n sets) (detach n) := fun w => (detach_cases n w).1.may

theorem withHook_handling {α : Type} {a : Action α} (keeps : Keeps (Handling n sets) a) :
    Keeps (Handling n sets) (withHook n a) :=
  keeps.withHook (modifyLink_handling _ (fun _ => ⟨rfl,rfl,rfl,rfl,id⟩) fun _ => rfl)

/-- An action on the hook succeeds, or it sets no hook. -/
def Sets (n : Nat) {α : Type} (a : Action α) (w : World) : Prop :=
  (∃ x v, exec a w = (.ok x,v)) ∨ Handling n false w (exec a w).2

theorem withHook_sets {α : Type} {a : Action α} (sets : Sets n a w) : Sets n (withHook n a) w := by
  unfold Sets
  rw [withHook,exec_bind,exec_link]
  rcases w.links[n]? with _ | l
  · exact .inr (Frame.refl w)
  · dsimp only
    split
    · exact .inr (Frame.refl w)
    · rw [exec_onCrash]
      rcases sets with ⟨x,v,done⟩ | handling
      · rw [done]
        exact .inl ⟨x,v,rfl⟩
      · rcases ran : exec a w with ⟨(e | _) | x,v⟩ <;> rw [ran] at handling
        · exact .inr handling
        · have poisons : Keeps (Handling n false) (modifyLink n fun l => { l with hookPoisoned := true }) :=
            modifyLink_handling _ (fun _ => ⟨rfl,rfl,rfl,rfl,id⟩) fun _ => rfl
          exact .inr (handling.trans (poisons.bind (fun _ => reads_crash.keeps) v))
        · exact .inl ⟨x,v,rfl⟩

theorem setLive_sets (n : Nat) (w : World) : Sets n (setLive n true) w := by
  apply withHook_sets
  unfold Sets
  have same := reads_ensureAlive n w
  rw [exec_bind]
  rcases checked : exec (ensureAlive n) w with ⟨fault | _,u⟩
  · rw [checked] at same
    obtain rfl := same
    exact .inr (Frame.refl _)
  · rw [checked] at same
    obtain rfl := same
    dsimp only
    rw [if_pos rfl,exec_bind]
    rcases attach_cases n u with ⟨fault,v,failed,loose⟩ | ⟨v,done,-⟩
    · rw [failed]
      exact .inr loose
    · rw [done]
      exact .inl ⟨(),_,rfl⟩

theorem setLive_handling (live : Bool) : Keeps (Handling n live) (setLive n live) := by
  apply withHook_handling
  have switches : Keeps (Handling n live) (do
      modifyLink n fun l => { l with live := live }
      note (.liveChanged live)) := by
    have flagged : Keeps (Handling n live) (modifyLink n fun l => { l with live := live }) :=
      modifyLink_handling _ (fun _ => ⟨rfl,rfl,rfl,rfl,id⟩) fun _ => rfl
    exact flagged.bind fun _ => note_handling rfl
  refine (reads_ensureAlive n).keeps.bind fun _ => ?_
  cases live with
  | true => exact attach_handling.bind fun _ => switches
  | false => exact detach_handling.bind fun _ => switches

theorem kill_handling : Keeps (Handling n false) (kill n) := by
  apply withHook_handling
  refine (reads_link n).keeps.bind fun l => ?_
  split
  · exact (reads_pure _).keeps
  · have ends : Keeps (Handling n false) (modifyLink n fun l => { l with dead := true }) :=
      modifyLink_handling _ (fun _ => ⟨rfl,rfl,rfl,rfl,fun _ => rfl⟩) fun _ => rfl
    exact ends.bind fun _ => (note_handling rfl).bind fun _ => detach_handling

theorem clearHook_handling : Keeps (Handling n false) (clearHook n) :=
  withHook_handling ((reads_ensureAlive n).keeps.bind fun _ => detach_handling)

theorem restore_handling (outcome : Verdict) : Keeps (Handling n true) (restore n outcome) := by
  refine (withHook_handling ?_).bind fun restored => (reads_ofExcept _).keeps.bind fun _ =>
    (reads_ofExcept _).keeps
  refine (reads_link n).keeps.bind fun l => ?_
  split
  · exact attach_handling.result
  · exact (reads_pure _).keeps

end Action
end EditorLink
