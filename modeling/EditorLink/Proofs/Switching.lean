import EditorLink.Proofs.Slots.History
import EditorLink.Proofs.Window

/-! Switching a link on or off, in whatever state its locks, its slot and the host are. Either the mode and the
hook change together, or neither does. -/
namespace EditorLink
open World EditorLink.Action

namespace World

/-- The same widgets are there, and the same ones live. -/
structure Sits (v w : World) : Prop where
  host : w.host = v.host
  kept : w.kept = v.kept
  size : w.widgets.length = v.widgets.length

/-- Only widgets that are there live. -/
def Peopled (w : World) : Prop := ∀ e, w.alive e = true → e < w.widgets.length

/-- The widget that the slot of the link gives when it is asked. -/
def resolved? (w : World) (n : Nat) : Option Nat :=
  w.links[n]?.bind fun l => (l.slot.tryResolve w.alive (lookup l.slot.id w)).1.widget?

/-- All that has changed is what the slot of the link remembers, and what is counted and noted. -/
structure Unswitched (n : Nat) (v w : World) : Prop where
  same : w = { v with links := w.links, lookups := w.lookups, notices := w.notices }
  link : ∀ l, v.links[n]? = some l → ∃ slot, w.links[n]? = some { l with slot }
  others : ∀ m, m ≠ n → w.links[m]? = v.links[m]?

/-- The link is in the given mode, and the widget that its slot gives has its hook or none. -/
structure Switched (n : Nat) (on : Bool) (v w : World) : Prop where
  same : w = { v with links := w.links, widgets := w.widgets, lookups := w.lookups, notices := w.notices }
  link : ∀ l, v.links[n]? = some l → ∃ slot, w.links[n]? = some { l with slot, live := on }
  others : ∀ m, m ≠ n → w.links[m]? = v.links[m]?
  found : on = true → v.resolved? n ≠ none
  resolves : w.resolved? n = v.resolved? n
  hook : ∀ e, v.resolved? n = some e → ∃ x, w.widgets[e]? = some x ∧ (x.hook = some n ↔ on = true)
  rest : ∀ e, v.resolved? n ≠ some e → w.widgets[e]? = v.widgets[e]?

variable {v w : World} {n : Nat}

instance : Frame Sits where
  refl _ := ⟨rfl,rfl,rfl⟩
  trans first next := ⟨next.host.trans first.host,next.kept.trans first.kept,next.size.trans first.size⟩

theorem Sits.alive (sits : Sits v w) (e : Nat) : w.alive e = v.alive e := by
  rw [World.alive,World.alive,sits.host,sits.kept]

theorem Sits.peopled (sits : Sits v w) (peopled : v.Peopled) : w.Peopled := by
  intro e alive
  rw [sits.size]
  exact peopled e (sits.alive e ▸ alive)

theorem sits_sameEntities (entities : SameEntities v w) : Sits v w :=
  ⟨entities.host,entities.kept,by rw [entities.widgets]⟩

theorem sits_quiet (quiet : Quiet v w) : Sits v w := ⟨quiet.host,quiet.kept,by rw [quiet.widgets]⟩

end World

namespace Action
variable {n : Nat} {w : World} {l : Link}

theorem note_sits (notice : Notice) : Keeps Sits (note notice) := fun _ => ⟨rfl,rfl,rfl⟩

theorem modifyLink_sits (f : Link → Link) : Keeps Sits (modifyLink n f) := fun _ => ⟨rfl,rfl,rfl⟩

theorem tryResolve_sits : Keeps Sits (tryResolve n) := by
  intro w
  cases there : w.links[n]? with
  | none =>
    rw [tryResolve,exec_bind_error (exec_link_none there)]
    exact Frame.refl w
  | some l =>
    obtain ⟨lookups,notices,-,looked⟩ := exec_look there
    rw [looked]
    exact ⟨rfl,rfl,rfl⟩

theorem setHook_sits (e : Nat) (hook : Option Nat) : Keeps Sits (setHook e hook) :=
  (reads_visit .hook).keeps.bind fun _ => keeps_modify fun _ => ⟨rfl,rfl,List.length_modify _ _ _⟩

theorem attach_sits : Keeps Sits (attach n) := by
  have resolves : Keeps Sits (resolve n) := tryResolve_sits.bind fun found => by
    cases found with
    | none => exact (reads_link n).keeps.bind fun _ => (reads_fail _).keeps
    | some e => exact (reads_pure e).keeps
  exact resolves.bind fun e => (setHook_sits e _).bind fun _ => (reads_link n).keeps.bind fun _ => note_sits _

theorem detach_sits : Keeps Sits (detach n) := by
  refine tryResolve_sits.bind fun found => ?_
  cases found with
  | none => exact (reads_pure _).keeps
  | some e => exact (setHook_sits e _).bind fun _ => (reads_link n).keeps.bind fun _ => note_sits _

theorem withHook_sits {α : Type} {a : Action α} (keeps : Keeps Sits a) : Keeps Sits (withHook n a) :=
  keeps.withHook (modifyLink_sits _)

theorem setLive_sits (on : Bool) : Keeps Sits (setLive n on) := by
  refine withHook_sits ((reads_ensureAlive n).keeps.bind fun _ => ?_)
  have switches : Keeps Sits (do
      modifyLink n fun l => { l with live := on }
      note (.liveChanged on)) := (modifyLink_sits _).bind fun _ => note_sits _
  cases on with
  | true => exact attach_sits.bind fun _ => switches
  | false => exact detach_sits.bind fun _ => switches

theorem kill_sits : Keeps Sits (kill n) := by
  refine withHook_sits ((reads_link n).keeps.bind fun l => ?_)
  split
  · exact (reads_pure _).keeps
  · exact (modifyLink_sits _).bind fun _ => (note_sits _).bind fun _ => detach_sits

theorem restore_sits (outcome : Verdict) : Keeps Sits (restore n outcome) := by
  refine (withHook_sits ((reads_link n).keeps.bind fun l => ?_)).bind fun restored =>
    (reads_ofExcept _).keeps.bind fun _ => (reads_ofExcept _).keeps
  split
  · exact attach_sits.result
  · exact (reads_pure _).keeps

theorem tends_sits (n : Nat) : Tends n Sits where
  frame := inferInstance
  still still := sits_quiet still.toQuiet
  clearHook := withHook_sits ((reads_ensureAlive n).keeps.bind fun _ => detach_sits)
  restore := restore_sits
  kill := kill_sits
  handOver name := handOver_keeps name (note_sits _) fun _ => ⟨rfl,rfl,rfl⟩

theorem resume_sits (id : Nat) (job : Job) : Keeps Sits (resume id job) := by
  refine resume_serves id job ?_ (fun n _ => (tends_sits n).serves) ?_ ?_ ?_
  · exact fun n phase _ => (resumeUpdate_quiet id n phase).mono sits_quiet
  · intro registry name _
    have registers : Keeps Sits (register registry) :=
      register_keeps registry (fun _ => ⟨rfl,rfl,rfl⟩) fun _ _ _ => ⟨rfl,rfl,rfl⟩
    exact resumeCreate_fresh_keeps registry registers (fun n => (tends_sits n).serves) id name
  · exact fun promise plan deadline _ => (resumeStop_still id promise plan deadline).mono fun still =>
      sits_quiet still.toQuiet
  · exact fun promise => (await_still id promise).mono fun still => sits_quiet still.toQuiet

end Action

theorem peopled_move {w : World} (peopled : w.Peopled) (m : Move) (single : m.Single) : (w.move m).Peopled := by
  cases m with
  | perform number c =>
    refine perform_keeps (R := fun v w => v.Peopled → w.Peopled)
      (fun noMore => (sits_sameEntities noMore.toSameEntities).peopled)
      (fun still => (sits_quiet still.toQuiet).peopled) w number c
      (fun ms same => single number ms (by rw [same])) (fun o _ => (change_around w o).peopled)
      (fun _ on n _ _ => (setLive_sits on w).peopled) (fun _ n _ _ => (kill_sits w).peopled) peopled
  | turn id =>
    exact (turn_keeps sits_sameEntities w id fun task _ _ => resume_sits id task.job (w.taken id)).peopled peopled
  | arrive now => exact (sits_sameEntities { SameEntities.refl w with }).peopled peopled

theorem peopled_of_reached {s : Setting} {w : World} (reached : Reaches (fun _ => True) s.start w) :
    w.Peopled := by
  refine run_keeps (R := fun v w => v.Peopled → w.Peopled) (fun _ _ => trivial)
    (fun _ m _ single peopled => peopled_move peopled m single) reached fun e alive => ?_
  rcases alive_iff.mp alive with mounted | kept
  · cases shown : s.mounted with
    | true =>
      simp only [Setting.start,shown,if_true,Option.some.injEq] at mounted ⊢
      exact mounted ▸ Nat.zero_lt_one
    | false => simp [Setting.start,shown] at mounted
  · cases kept

namespace Action
variable {n : Nat} {w v : World} {l : Link}

/-- Only a crash keeps a hook that is set from being in place. -/
theorem exec_setHook (e : Nat) (hook : Option Nat) (w : World) :
    exec (setHook e hook) w = (.error .crash,w) ∨
      exec (setHook e hook) w = (.ok (),{ w with widgets := w.widgets.modify e fun x => x.setHook hook }) := by
  by_cases wild : Site.hook ∈ w.sites
  · exact .inl (exec_bind_error (exec_visit_wild wild))
  · exact .inr (exec_bind_ok (exec_visit wild))

/-- The world once the hook of the link was set or cleared on the widget that its slot gave. -/
def hooked (w : World) (n : Nat) (l : Link) (r : Resolution) (slot : Slot) (on : Bool) (lookups : Nat)
    (notices : List Notice) : World :=
  { w.reslot n l slot lookups notices with
    widgets := r.widget?.elim w.widgets fun e =>
      w.widgets.modify e fun x => x.setHook (if on then some n else none) }

/-- How attaching or clearing ends: with a hook set or cleared, or before any was touched. -/
inductive Hooks (w : World) (n : Nat) (l : Link) (on : Bool) (r : Resolution) (slot : Slot) :
    Except Fault Unit × World → Prop
  | crashed (u : World) (found : r ≠ .missing) : Hooks w n l on r slot (.error .crash,u)
  | refused (e : LinkError) (lookups : Nat) (notices : List Notice)
      (why : e = .lockPoisoned ∨ on = true ∧ e = .editorUnavailable l.slot.id) (gives : r = .missing → on = true) :
      Hooks w n l on r slot (.error (.error e),w.reslot n l slot lookups notices)
  | done (lookups : Nat) (notices : List Notice) (found : on = true → r.widget? ≠ none)
      (answers : r.answer = .ok r.widget?) :
      Hooks w n l on r slot (.ok (),hooked w n l r slot on lookups notices)

/-- A widget that is given gets the hook or loses it, and then the notice is made. -/
theorem hooks_given {on : Bool} {r : Resolution} {slot : Slot} {lookups e : Nat} {notices : List Notice}
    (there : w.links[n]? = some l)
    (looked : exec (tryResolve n) w = (r.answer,w.reslot n l slot lookups notices))
    (gives : r.widget? = some e) (answers : r.answer = .ok r.widget?) :
    Hooks w n l on r slot (exec (if on then attach n else detach n) w) := by
  have put := reslot_link there slot lookups notices
  have found : r ≠ .missing := by
    rintro rfl
    cases gives
  have looked : exec (tryResolve n) w = (.ok (some e),w.reslot n l slot lookups notices) := by
    rw [looked,answers,gives]
  have ends (found : List Notice) :
      Hooks w n l on r slot (.ok (),hooked w n l r slot on lookups found) :=
    .done lookups found (fun _ none => by rw [gives] at none; cases none) answers
  simp only [hooked,gives] at ends
  cases on with
  | true =>
    have resolved : exec (resolve n) w = (.ok e,w.reslot n l slot lookups notices) := exec_bind_ok looked
    rw [if_pos rfl,attach,exec_bind_ok resolved]
    rcases exec_setHook e (some n) (w.reslot n l slot lookups notices) with crash | set
    · rw [exec_bind_error crash]
      exact .crashed _ found
    · rw [exec_bind_ok set,exec_bind_ok (exec_link_some (by exact put)),exec_note]
      exact ends _
  | false =>
    rw [if_neg Bool.false_ne_true,detach,exec_bind_ok looked]
    dsimp only
    rcases exec_setHook e none (w.reslot n l slot lookups notices) with crash | set
    · rw [exec_bind_error crash]
      exact .crashed _ found
    · rw [exec_bind_ok set,exec_bind_ok (exec_link_some (by exact put)),exec_note]
      exact ends _

theorem hooks_of_exec (there : w.links[n]? = some l) (on : Bool) :
    Hooks w n l on (l.slot.tryResolve w.alive (lookup l.slot.id w)).1
      (l.slot.tryResolve w.alive (lookup l.slot.id w)).2 (exec (if on then attach n else detach n) w) := by
  obtain ⟨lookups,notices,-,looked⟩ := exec_look there
  have asked := l.slot.asked w.alive (lookup l.slot.id w)
  revert looked asked
  generalize (l.slot.tryResolve w.alive (lookup l.slot.id w)).1 = r
  generalize (l.slot.tryResolve w.alive (lookup l.slot.id w)).2 = slot
  intro looked asked
  have fails {fault : Fault} (answers : r.answer = .error fault) :
      exec (if on then attach n else detach n) w = (.error fault,w.reslot n l slot lookups notices) := by
    rw [answers] at looked
    cases on with
    | true => exact exec_bind_error (exec_bind_error looked)
    | false => exact exec_bind_error looked
  cases asked with
  | poisoned shut =>
    rw [fails rfl]
    exact .refused _ lookups notices (.inl rfl) fun same => by cases same
  | crashed fine gone wild =>
    rw [fails rfl]
    exact .crashed _ fun same => by cases same
  | missing fine gone told =>
    cases on with
    | true =>
      have resolved : exec (resolve n) w = (.error (.error (.editorUnavailable l.slot.id)),
          w.reslot n l { l.slot with cached := none } lookups notices) := by
        rw [resolve,exec_bind_ok looked,exec_bind_ok (exec_link_some (reslot_link there _ _ _)),exec_fail]
      rw [if_pos rfl,attach,exec_bind_error resolved]
      exact .refused _ lookups notices (.inr ⟨rfl,rfl⟩) fun _ => rfl
    | false =>
      rw [if_neg Bool.false_ne_true,detach,exec_bind_ok looked]
      exact .done lookups notices (fun set _ => by cases set) rfl
  | remembered e fine known => exact hooks_given there looked rfl rfl
  | found e fine gone told => exact hooks_given there looked rfl rfl

/-- What becomes of the hook becomes of the mode. -/
theorem exec_switch (there : w.links[n]? = some l) (alive : l.dead = false) {on : Bool} {x : Except Fault Unit}
    (ran : exec (if on then attach n else detach n) w = (x,v)) :
    exec (do
      ensureAlive n
      if on then attach n else detach n
      modifyLink n fun l => { l with live := on }
      note (.liveChanged on)) w =
      match x with
      | .ok _ => (.ok (),(v.modifyLink n fun l => { l with live := on }).note (.liveChanged on))
      | .error fault => (.error fault,v) := by
  have checked : exec (ensureAlive n) w = (.ok (),w) := by rw [exec_ensureAlive there,alive]; rfl
  rw [exec_bind_ok checked]
  cases x with
  | ok _ => cases on <;> exact exec_bind_ok ran
  | error fault => cases on <;> exact exec_bind_error ran

/-- How switching ends, unless it crashes. -/
inductive SwitchEnds (w : World) (n : Nat) (l : Link) (on : Bool) : Except Fault Unit × World → Prop
  | crashed (v : World) (found : l.dead = false → (l.slot.tryResolve w.alive (lookup l.slot.id w)).1 ≠ .missing) :
      SwitchEnds w n l on (.error .crash,v)
  | refused (e : LinkError) (v : World) (why : e = .killed ∨ e = .lockPoisoned ∨ ∃ id, e = .editorUnavailable id)
      (unswitched : Unswitched n w v) (still : on = false → l.dead = false → l.hookPoisoned = false →
        (l.slot.tryResolve w.alive (lookup l.slot.id w)).1 ≠ .missing) : SwitchEnds w n l on (.error (.error e),v)
  | done (v : World) (switched : Switched n on w v) : SwitchEnds w n l on (.ok (),v)

theorem unswitched_refl (n : Nat) (w : World) : Unswitched n w w :=
  ⟨rfl,fun l there => ⟨l.slot,there⟩,fun _ _ => rfl⟩

theorem unswitched_reslot (there : w.links[n]? = some l) (slot : Slot) (lookups : Nat) (notices : List Notice) :
    Unswitched n w (w.reslot n l slot lookups notices) where
  same := rfl
  link k found := by
    rw [there] at found
    cases found
    exact ⟨slot,reslot_link there slot lookups notices⟩
  others m other := List.getElem?_set_ne other.symm

theorem alive_of_asked {slot later : Slot} {id : String} {r : Resolution} {e : Nat}
    (asked : slot.Asked w.alive (lookup id w) r later) (gives : r.widget? = some e) : w.alive e = true := by
  cases asked with
  | poisoned shut => cases gives
  | crashed fine gone fails => cases gives
  | missing fine gone told => cases gives
  | remembered f fine known =>
    cases gives
    exact (Option.filter_eq_some_iff.mp known).2
  | found f fine gone told =>
    cases gives
    rw [lookup] at told
    split at told
    · cases told
    · have mounted := Lookup.answer.inj told
      rw [Host.find?] at mounted
      split at mounted
      · exact alive_iff.mpr (.inl mounted)
      · cases mounted

/-- A slot that has answered gives the same widget when it is asked again. -/
theorem asked_again {slot later : Slot} {alive : Nat → Bool} {told : Lookup} {r : Resolution}
    (asked : slot.Asked alive told r later) (answers : r.answer = .ok r.widget?)
    (lives : ∀ e, r.widget? = some e → alive e = true) : (later.tryResolve alive told).1.widget? = r.widget? := by
  cases asked with
  | poisoned shut => cases answers
  | crashed fine gone fails => cases answers
  | remembered e fine known => simp [Slot.tryResolve,fine,known,Resolution.widget?]
  | found e fine gone told => simp [Slot.tryResolve,fine,Option.filter_some,lives e rfl,Resolution.widget?]
  | missing fine gone told => simp [Slot.tryResolve,fine,told,Resolution.widget?]

theorem switched_hooked (peopled : w.Peopled) (there : w.links[n]? = some l) {on : Bool} {r : Resolution} {slot : Slot}
    (asked : l.slot.Asked w.alive (lookup l.slot.id w) r slot) (resolved : w.resolved? n = r.widget?)
    (found : on = true → r.widget? ≠ none) (answers : r.answer = .ok r.widget?) (lookups : Nat)
    (notices : List Notice) :
    Switched n on w (((hooked w n l r slot on lookups notices).modifyLink n fun l => { l with live := on }).note
      (.liveChanged on)) := by
  have inside := (List.getElem?_eq_some_iff.mp there).1
  have put : (((hooked w n l r slot on lookups notices).modifyLink n fun l => { l with live := on }).note
      (.liveChanged on)).links[n]? = some { l with slot, live := on } := by
    simp [World.note,World.modifyLink,hooked,reslot,inside]
  exact
    { same := rfl
      link := fun k known => by
        rw [there] at known
        cases known
        exact ⟨slot,put⟩
      others := fun m other => by
        simp [World.note,World.modifyLink,hooked,reslot,other.symm]
      found := fun is => resolved ▸ found is
      resolves := by
        have again := asked_again asked answers fun e => alive_of_asked asked
        rw [resolved,resolved?,put,← again,← asked.id]
        rfl
      hook := fun e gives => by
        rw [resolved] at gives
        have known := peopled e (alive_of_asked asked gives)
        refine ⟨w.widgets[e].setHook (if on then some n else none),?_,?_⟩
        · simp [World.note,World.modifyLink,hooked,gives,known]
        · rw [hook_setHook]
          cases on <;> simp
      rest := fun e other => by
        rw [resolved] at other
        cases gives : r.widget? with
        | none => simp [World.note,World.modifyLink,hooked,gives]
        | some f =>
          have apart : f ≠ e := fun same => other (by rw [gives,same])
          simp [World.note,World.modifyLink,hooked,gives,apart] }

theorem switchEnds_of_exec (peopled : w.Peopled) (there : w.links[n]? = some l) (on : Bool) :
    SwitchEnds w n l on (exec (setLive n on) w) := by
  rw [setLive,withHook,exec_bind_ok (exec_link_some there)]
  cases shut : l.hookPoisoned with
  | true =>
    rw [if_pos rfl,exec_fail]
    refine .refused _ w (.inr (.inl rfl)) (unswitched_refl n w) fun _ _ fine => ?_
    rw [shut] at fine
    cases fine
  | false =>
    rw [if_neg Bool.false_ne_true,exec_onCrash]
    cases dead : l.dead with
    | true =>
      have killed : exec (ensureAlive n) w = (.error (.error .killed),w) := by rw [exec_ensureAlive there,dead]; rfl
      rw [exec_bind_error killed]
      refine .refused _ w (.inl rfl) (unswitched_refl n w) fun _ fine _ => ?_
      rw [dead] at fine
      cases fine
    | false =>
      have asked := l.slot.asked w.alive (lookup l.slot.id w)
      have hooks := hooks_of_exec there on
      have resolved : w.resolved? n = (l.slot.tryResolve w.alive (lookup l.slot.id w)).1.widget? := by
        rw [resolved?,there]
        rfl
      rcases ran : exec (if on then attach n else detach n) w with ⟨x,v⟩
      rw [ran] at hooks
      rw [exec_switch there dead ran]
      cases hooks with
      | crashed _ found => exact .crashed _ fun _ => found
      | refused e lookups notices why gives =>
        have reason : e = .killed ∨ e = .lockPoisoned ∨ ∃ id, e = .editorUnavailable id := by
          rcases why with shut | ⟨-,nowhere⟩
          · exact .inr (.inl shut)
          · exact .inr (.inr ⟨_,nowhere⟩)
        refine .refused e _ reason (unswitched_reslot there _ _ _) fun off _ _ none => ?_
        rw [gives none] at off
        cases off
      | done lookups notices found answers =>
        exact .done _ (switched_hooked peopled there asked resolved found answers lookups notices)

end Action

namespace World

/-- The link is switched on once or several times, and every call succeeds. -/
def SwitchedOn (name : String) (w : World) : List Nat → Prop
  | [] => False
  | [number] => (w.perform number (.setLive name true)).1 = .done
  | number :: rest =>
    (w.perform number (.setLive name true)).1 = .done ∧ (w.perform number (.setLive name true)).2.SwitchedOn name rest

/-- Of all living widgets just this one has the hook of the link. -/
structure OneHook (w : World) (n e : Nat) : Prop where
  alive : w.alive e = true
  only : ∀ f x, w.widgets[f]? = some x → w.alive f = true → (x.hook = some n ↔ f = e)

end World

variable {s : Setting} {v w : World} {n : Nat} {name : String}

theorem act_cases (w : World) (a : Action Unit) :
    (w.act a fun _ => .done).1 = .done ∧ exec a w = (.ok (),(w.act a fun _ => .done).2) ∨
      (∃ e, (w.act a fun _ => .done).1 = .failed e ∧ exec a w = (.error (.error e),(w.act a fun _ => .done).2)) ∨
      (w.act a fun _ => .done).1 = .crashed ∧ exec a w = (.error .crash,(w.act a fun _ => .done).2) := by
  unfold act exec
  rcases a.run.run w with ⟨(e | _) | _,v⟩
  · exact .inr (.inl ⟨e,rfl,rfl⟩)
  · exact .inr (.inr ⟨rfl,rfl⟩)
  · exact .inl ⟨rfl,rfl⟩

/-- A call that does not crash is about a link that is there. -/
theorem link_of_switch {on : Bool} {x : Except Fault Unit} (ran : exec (setLive n on) w = (x,v))
    (fine : x ≠ .error .crash) : ∃ l, w.links[n]? = some l := by
  cases there : w.links[n]? with
  | some l => exact ⟨l,rfl⟩
  | none =>
    rw [setLive,exec_withHook_missing there] at ran
    cases ran
    exact absurd rfl fine

theorem switch_failed (peopled : w.Peopled) (named : w.names.lookup name = some n) {number : Nat} {on : Bool}
    {e : LinkError} (failed : (w.perform number (.setLive name on)).1 = .failed e) :
    (e = .killed ∨ e = .lockPoisoned ∨ ∃ id, e = .editorUnavailable id) ∧
      Unswitched n w (w.perform number (.setLive name on)).2 := by
  rw [perform_setLive named] at failed ⊢
  rcases act_cases w (setLive n on) with ⟨done,-⟩ | ⟨f,same,ran⟩ | ⟨crashed,-⟩
  · rw [done] at failed
    cases failed
  · rw [same] at failed
    cases failed
    obtain ⟨l,there⟩ := link_of_switch ran nofun
    have ends := switchEnds_of_exec peopled there on
    rw [ran] at ends
    cases ends with
    | refused _ _ why unswitched _ => exact ⟨why,unswitched⟩
  · rw [crashed] at failed
    cases failed

theorem switch_done (peopled : w.Peopled) (named : w.names.lookup name = some n) {number : Nat} {on : Bool}
    (done : (w.perform number (.setLive name on)).1 = .done) :
    Switched n on w (w.perform number (.setLive name on)).2 := by
  rw [perform_setLive named] at done ⊢
  rcases act_cases w (setLive n on) with ⟨-,ran⟩ | ⟨f,failed,-⟩ | ⟨crashed,-⟩
  · obtain ⟨l,there⟩ := link_of_switch ran nofun
    have ends := switchEnds_of_exec peopled there on
    rw [ran] at ends
    cases ends with
    | done _ switched => exact switched
  · rw [failed] at done
    cases done
  · rw [crashed] at done
    cases done

/-- Switching off needs no widget. -/
theorem switch_off {l : Link} (peopled : w.Peopled) (named : w.names.lookup name = some n)
    (there : w.links[n]? = some l) (alive : l.dead = false) (unlocked : l.hookPoisoned = false)
    (nowhere : (l.slot.tryResolve w.alive (lookup l.slot.id w)).1 = .missing) (number : Nat) :
    (w.perform number (.setLive name false)).1 = .done := by
  rw [perform_setLive named]
  have ends := switchEnds_of_exec peopled there false
  rcases act_cases w (setLive n false) with ⟨done,-⟩ | ⟨e,-,ran⟩ | ⟨-,ran⟩
  · exact done
  · rw [ran] at ends
    cases ends with
    | refused _ _ _ _ still => exact absurd nowhere (still rfl alive unlocked)
  · rw [ran] at ends
    cases ends with
    | crashed _ found => exact absurd nowhere (found alive)

theorem alive_of_resolved {e : Nat} (resolved : w.resolved? n = some e) : w.alive e = true := by
  rw [resolved?] at resolved
  obtain ⟨l,-,gives⟩ := Option.bind_eq_some_iff.mp resolved
  exact Action.alive_of_asked (l.slot.asked w.alive (lookup l.slot.id w)) gives

/-- A link that was switched on has its hook on the widget that its slot gave, and nowhere else. -/
theorem oneHook_of_switched (tied : v.Tied n) (switched : Switched n true w v) : ∃ e, v.OneHook n e := by
  obtain ⟨e,resolved⟩ := Option.ne_none_iff_exists'.mp (switched.found rfl)
  obtain ⟨x,widget,hook⟩ := switched.hook e resolved
  have lives (f : Nat) : v.alive f = w.alive f := by
    rw [switched.same]
    rfl
  have alive : v.alive e = true := by rw [lives]; exact alive_of_resolved resolved
  obtain ⟨l,there,cached⟩ := tied e x widget alive (hook.mpr rfl)
  refine ⟨e,alive,fun f y other living => ⟨fun own => ?_,fun same => ?_⟩⟩
  · obtain ⟨k,known,kept⟩ := tied f y other living own
    rw [there] at known
    cases known
    rw [cached] at kept
    exact (Option.some.inj kept).symm
  · subst same
    rw [widget] at other
    cases other
    exact hook.mpr rfl

/-- One keystroke in the widget with the hook asks for one update. -/
theorem type_starts_update {e : Nat} (one : v.OneHook n e) (peopled : v.Peopled) (held : v.held n = true)
    (number : Nat) (text : String) : (v.perform number (.outside (.type e text true))).2.tasks =
      v.tasks ++ [some { label := none, job := .update n .fresh }] := by
  have known := peopled e one.alive
  have hook : (v.widgets[e]?.bind Widget.hook) = some n := by
    rw [List.getElem?_eq_getElem known]
    exact (one.only e _ (List.getElem?_eq_getElem known) one.alive).mpr rfl
  have asks : v.requestOf (.outside (.type e text true)) = some n := by
    rw [requestOf,if_pos one.alive,hook,Option.filter_some,if_pos held]
  have tasks := change_tasks v (.type e text true)
  rw [asks] at tasks
  exact tasks

/-- Whatever came before, the last of the calls leaves one hook. -/
theorem oneHook_of_calls (reached : Reaches (fun _ => True) s.start w) (named : w.names.lookup name = some n)
    {numbers : List Nat} (calls : w.SwitchedOn name numbers) :
    Reaches (fun _ => True) s.start (w.run (numbers.map fun k => .perform k (.setLive name true))) ∧
      (w.run (numbers.map fun k => .perform k (.setLive name true))).names.lookup name = some n ∧
      ∃ e, (w.run (numbers.map fun k => .perform k (.setLive name true))).OneHook n e := by
  induction numbers generalizing w with
  | nil => exact calls.elim
  | cons k rest ih =>
    have done : (w.perform k (.setLive name true)).1 = .done := by
      cases rest with
      | nil => exact calls
      | cons next rest => exact calls.1
    have switched := switch_done (peopled_of_reached reached) named done
    have later : Reaches (fun _ => True) s.start (w.perform k (.setLive name true)).2 :=
      Frame.trans reached (reaches_move w (.perform k (.setLive name true)) trivial)
    have still : (w.perform k (.setLive name true)).2.names.lookup name = some n := by
      rw [switched.same]
      exact named
    cases rest with
    | nil => exact ⟨later,still,oneHook_of_switched (tied_of_reached later n) switched⟩
    | cons next rest => exact ih later still calls.2

/-- A call that fails leaves the link, its stop attempt, its model and every hook as they are. One that succeeds
sets the mode, and has the hook of the link on the widget that its slot gives just if it is on. To switch off, no
widget is needed. However often the link was switched on, one hook is there and one keystroke starts one update. -/
theorem setLive_is_atomic (reached : Reaches (fun _ => True) s.start w) (named : w.names.lookup name = some n)
    (number : Nat) (on : Bool) :
    (∀ e, (w.perform number (.setLive name on)).1 = .failed e →
      (e = .killed ∨ e = .lockPoisoned ∨ ∃ id, e = .editorUnavailable id) ∧
        Unswitched n w (w.perform number (.setLive name on)).2) ∧
      ((w.perform number (.setLive name on)).1 = .done →
        Switched n on w (w.perform number (.setLive name on)).2) ∧
      (∀ l, w.links[n]? = some l → l.dead = false → l.hookPoisoned = false →
        (l.slot.tryResolve w.alive (lookup l.slot.id w)).1 = .missing →
        (w.perform number (.setLive name false)).1 = .done) ∧
      ∀ numbers, w.SwitchedOn name numbers →
        let v := w.run (numbers.map fun k => .perform k (.setLive name true))
        ∃ e, v.OneHook n e ∧ ∀ k text, (v.perform k (.outside (.type e text true))).2.tasks =
          v.tasks ++ [some { label := none, job := .update n .fresh }] := by
  have peopled := peopled_of_reached reached
  refine ⟨fun e failed => switch_failed peopled named failed,fun done => switch_done peopled named done,
    fun l there alive unlocked nowhere => switch_off peopled named there alive unlocked nowhere number,
    fun numbers calls => ?_⟩
  obtain ⟨later,still,e,one⟩ := oneHook_of_calls reached named calls
  exact ⟨e,one,type_starts_update one (peopled_of_reached later) (held_of_lookup still)⟩

/-- A link whose widget is kept while another one is mounted. -/
def keptWidget : World :=
  oneLink.run [.perform 1 (.outside (.keep 0)),.perform 2 (.outside (.mount "other" false))]

theorem switched_on_twice :
    Reaches (fun _ => True) ({} : Setting).start keptWidget ∧ keptWidget.names.lookup "a" = some 0 ∧
      ∃ e, (keptWidget.run [.perform 3 (.setLive "a" true),.perform 4 (.setLive "a" true)]).OneHook 0 e := by
  have reached : Reaches (fun _ => True) ({} : Setting).start keptWidget :=
    Frame.trans (reaches_oneLink.mono fun _ _ => trivial) ⟨_,by simp,rfl⟩
  have named : keptWidget.names.lookup "a" = some 0 := by rfl
  obtain ⟨-,-,-,often⟩ := setLive_is_atomic reached named 3 true
  obtain ⟨e,one,-⟩ := often [3,4] ⟨rfl,rfl⟩
  exact ⟨reached,named,e,one⟩

end EditorLink
