import EditorLink.Proofs.Silence

/-! No stray hook. A widget that lives and carries a link's hook is the one that the link remembers,
so that whenever the link clears its hook it finds that very widget. -/
namespace EditorLink
open World EditorLink.Action

namespace World

/-- Every living widget with a hook is the one that the link of the hook remembers, and that link is
alive and in live mode. -/
structure WellHooked (w : World) : Prop extends Calm w where
  tied : ∀ e x n, w.widgets[e]? = some x → x.hook = some n → w.alive e = true →
    ∃ l, w.links[n]? = some l ∧ l.slot.cached = some e ∧ l.dead = false ∧ l.live = true

theorem WellHooked.seen {w : World} (wellHooked : w.WellHooked) {e n : Nat} {x : Widget Nat} {l : Link}
    (widget : w.widgets[e]? = some x) (hook : x.hook = some n) (alive : w.alive e = true)
    (there : w.links[n]? = some l) : w.seen l = some e := by
  obtain ⟨k,found,cached,_,_⟩ := wellHooked.tied e x n widget hook alive
  rw [there] at found
  cases found
  simp [World.seen,cached,alive]

theorem hook_dress {w : World} {n e m : Nat} {k : Link} {hook : Option Nat} {lookups : Nat}
    {notices : List Notice} {x : Widget Nat}
    (widget : ((w.dress n k hook).log lookups notices).widgets[e]? = some x) (tied : x.hook = some m) :
    (∃ y, w.widgets[e]? = some y ∧ y.hook = some m ∧ w.seen k ≠ some e) ∨
      (hook = some m ∧ w.seen k = some e) := by
  simp only [log,dress] at widget
  rcases found : w.seen k with _ | f
  · rw [found] at widget
    exact .inl ⟨x,widget,tied,by simp⟩
  · rw [found] at widget
    dsimp only at widget
    rw [List.getElem?_modify] at widget
    obtain ⟨y,there,same⟩ := Option.map_eq_some_iff.mp widget
    split at same
    · rename_i here
      subst here same
      rw [hook_setHook] at tied
      exact .inr ⟨tied,rfl⟩
    · rename_i away
      subst same
      exact .inl ⟨y,there,tied,fun same => away (Option.some.inj same)⟩

theorem wellHooked_dress {w : World} {n : Nat} {l k : Link} {hook : Option Nat} (may : MayDress w n l k hook)
    (wellHooked : w.WellHooked) (lookups : Nat) (notices : List Notice) :
    ((w.dress n k hook).log lookups notices).WellHooked where
  toCalm := calm_after may lookups notices
  tied e x m widget tied alive := by
    have inside := (List.getElem?_eq_some_iff.mp may.there).1
    rcases hook_dress widget tied with ⟨y,before,hooked,elsewhere⟩ | ⟨given,found⟩
    · -- a widget with the link's own old hook would be the one found
      have other : n ≠ m := by
        rintro rfl
        have found := wellHooked.seen before hooked alive may.there
        exact elsewhere (may.seen.trans found)
      obtain ⟨j,there,rest⟩ := wellHooked.tied e y m before hooked alive
      exact ⟨j,(List.getElem?_set_ne other).trans there,rest⟩
    · rcases may.given with none | ⟨some,living,live⟩
      · rw [none] at given
        cases given
      · rw [some] at given
        cases given
        have mode : k.live = true := by
          rcases live with mode | nowhere
          · exact mode
          · rw [may.seen,nowhere] at found
            cases found
        exact ⟨_,List.getElem?_set_self inside,found,living,mode⟩

theorem wellHooked_change {w : World} (wellHooked : w.WellHooked) (o : Outside)
    (gentle : ∀ site, o ≠ .crash site true) : (w.change o).2.WellHooked where
  toCalm := calm_change wellHooked.toCalm o gentle
  tied e x n widget hook alive := by
    have around := change_around w o
    obtain ⟨y,before,hooked⟩ := around.hooked widget hook
    rw [around.links]
    rcases around.alive e alive with lived | ⟨new,_⟩
    · exact wellHooked.tied e y n before hooked lived
    · exact absurd (List.getElem?_eq_some_iff.mp before).1 (Nat.not_lt.mpr new)

theorem wellHooked_withLink {w : World} (wellHooked : w.WellHooked) (registry : Nat) (r : Registry) :
    (w.withLink registry r).WellHooked where
  toCalm := calm_withLink wellHooked.toCalm registry r
  tied e x n widget hook alive := by
    obtain ⟨l,there,rest⟩ := wellHooked.tied e x n widget hook alive
    have known := (List.getElem?_eq_some_iff.mp there).1
    exact ⟨l,(List.getElem?_append_left known).trans there,rest⟩

theorem WellHooked.quiet {v w : World} (wellHooked : v.WellHooked) (quiet : Quiet v w) : w.WellHooked where
  toCalm := wellHooked.toCalm.quiet quiet
  tied e x n widget hook alive := by
    have lives : w.alive e = v.alive e := by rw [World.alive,World.alive,quiet.host,quiet.kept]
    rw [quiet.widgets] at widget
    rw [lives] at alive
    obtain ⟨l,there,cached,living,live⟩ := wellHooked.tied e x n widget hook alive
    obtain ⟨k,found,alike⟩ := quiet.link there
    obtain ⟨-,-,slot,mode,dead,-⟩ := core_fields alike
    exact ⟨k,found,by rw [slot,cached],by rw [dead,living],by rw [mode,live]⟩

theorem WellHooked.entities {v w : World} (wellHooked : v.WellHooked) (entities : SameEntities v w) :
    w.WellHooked where
  toCalm := persists_calm.entities entities wellHooked.toCalm
  tied e x n widget hook alive := by
    have lives : w.alive e = v.alive e := by rw [World.alive,World.alive,entities.host,entities.kept]
    rw [entities.widgets] at widget
    rw [entities.links]
    exact wellHooked.tied e x n widget hook (lives ▸ alive)

end World

theorem persists_wellHooked : Persists fun v w => v.WellHooked → w.WellHooked where
  frame := inferInstance
  wild wild wellHooked := absurd wellHooked.toCalm wild
  entities entities wellHooked := wellHooked.entities entities
  quiet quiet wellHooked := wellHooked.quiet quiet
  dressed may _ lookups notices wellHooked := wellHooked_dress may wellHooked lookups notices
  made _ _ _ wellHooked := wellHooked_withLink wellHooked _ _

theorem wellHooked_of_reached {v w : World} (reached : Reaches Move.Calm v w) (wellHooked : v.WellHooked) :
    w.WellHooked :=
  persists_wellHooked.reaches (fun _ => Move.Internal.calm)
    (fun _ number o calm wellHooked =>
      wellHooked_change wellHooked o fun site crash => calm site number (by rw [crash]))
    (fun may lookups notices wellHooked => wellHooked_dress may wellHooked lookups notices) reached wellHooked

theorem start_wellHooked (s : Setting) : s.start.WellHooked where
  toCalm := start_calm s
  tied e x n widget hook := by
    simp only [Setting.start] at widget
    split at widget
    · obtain rfl := List.mem_singleton.mp (List.mem_of_getElem? widget)
      cases hook
    · cases widget

namespace World

/-- The move switches the link to live mode, and succeeds. -/
def SwitchesOn (w : World) (n : Nat) (m : Move) : Prop :=
  ∃ number name, m = .perform number (.setLive name true) ∧ w.names.lookup name = some n ∧
    (w.perform number (.setLive name true)).1 = .done

def StaysOff (n : Nat) : World → List Move → Prop
  | _,[] => True
  | w,m :: rest => ¬ w.SwitchesOn n m ∧ StaysOff n (w.move m) rest

/-- The link is not in live mode, in a world without crashes. -/
structure Off (n : Nat) (w : World) : Prop extends Calm w where
  off : ∃ l, w.links[n]? = some l ∧ l.live = false

theorem unhooked_of_dead {n : Nat} {w : World} (wellHooked : w.WellHooked) (dead : w.isDead n = true) :
    w.Unhooked n := by
  intro e x widget alive hook
  obtain ⟨l,there,-,living,-⟩ := wellHooked.tied e x n widget hook alive
  obtain ⟨k,found,gone⟩ := isDead_iff.mp dead
  rw [there] at found
  cases found
  rw [living] at gone
  contradiction

theorem unhooked_of_off {n : Nat} {w : World} (wellHooked : w.WellHooked) (off : Off n w) : w.Unhooked n := by
  intro e x widget alive hook
  obtain ⟨l,there,-,-,live⟩ := wellHooked.tied e x n widget hook alive
  obtain ⟨k,found,mode⟩ := off.off
  rw [there] at found
  cases found
  rw [live] at mode
  contradiction

theorem off_dress {n m : Nat} {w : World} {l k : Link} {hook : Option Nat} (may : MayDress w m l k hook)
    (off : Off n w) (same : m = n → k.live = false) (lookups : Nat) (notices : List Notice) :
    Off n ((w.dress m k hook).log lookups notices) where
  toCalm := calm_after may lookups notices
  off := by
    have inside := (List.getElem?_eq_some_iff.mp may.there).1
    obtain ⟨j,there,mode⟩ := off.off
    by_cases here : m = n
    · subst here
      exact ⟨_,List.getElem?_set_self inside,same rfl⟩
    · exact ⟨j,(List.getElem?_set_ne here).trans there,mode⟩

end World

theorem persists_off (n : Nat) : Persists fun v w => Off n v → Off n w where
  frame := inferInstance
  wild wild off := absurd off.toCalm wild
  entities entities off := ⟨persists_calm.entities entities off.toCalm,by rw [entities.links]; exact off.off⟩
  quiet quiet off := by
    obtain ⟨l,there,mode⟩ := off.off
    obtain ⟨k,found,alike⟩ := quiet.link there
    obtain ⟨-,-,-,live,-,-⟩ := core_fields alike
    exact ⟨off.toCalm.quiet quiet,k,found,live.trans mode⟩
  dressed may kept lookups notices off := by
    refine off_dress may off (fun same => ?_) lookups notices
    subst same
    obtain ⟨j,there,mode⟩ := off.off
    rw [may.there] at there
    cases there
    exact kept.trans mode
  made _ _ _ off := by
    obtain ⟨l,there,mode⟩ := off.off
    have known := (List.getElem?_eq_some_iff.mp there).1
    exact ⟨calm_withLink off.toCalm _ _,l,(List.getElem?_append_left known).trans there,mode⟩

/-- A switch to live mode that does not succeed changes no mode, nor does a switch of another link. -/
theorem off_switch {n k number : Nat} {w : World} {name : String} {on : Bool}
    (found : w.names.lookup name = some k) (other : ¬ w.SwitchesOn n (.perform number (.setLive name on)))
    (off : Off n w) : Off n (exec (setLive k on) w).2 := by
  by_cases here : k = n
  · subst here
    obtain ⟨l,there,mode⟩ := off.off
    cases alive : l.dead with
    | true =>
      rw [exec_setLive_dead off.toCalm there alive]
      exact off
    | false =>
      by_cases possible : on = true → (w.seen l).isSome
      · obtain ⟨lookups,notices,switched⟩ := exec_setLive off.toCalm there alive on possible
        cases on with
        | false =>
          rw [switched]
          have may : MayDress w k l { l with live := false } none := ⟨off.toCalm,there,alive,rfl,.inl rfl⟩
          exact off_dress may off (fun _ => rfl) lookups notices
        | true =>
          refine absurd ⟨number,name,rfl,found,?_⟩ other
          rw [perform_setLive found,act_done switched]
      · simp only [Classical.not_imp,Option.not_isSome_iff_eq_none] at possible
        obtain ⟨rfl,nowhere⟩ := possible
        obtain ⟨lookups,notices,failed⟩ := exec_setLive_nowhere off.toCalm there alive nowhere
        rw [failed]
        have may : MayDress w k l l (some k) := ⟨off.toCalm,there,alive,rfl,.inr ⟨rfl,alive,.inr nowhere⟩⟩
        exact off_dress may off (fun _ => mode) lookups notices
  · have keeps : Keeps (fun v w => Off n v → Off n w) (setLive k on) :=
      setLive_keeps (fun wild off => absurd off.toCalm wild)
        (fun may lookups notices off => off_dress may off (fun same => absurd same here) lookups notices)
        on
    exact keeps w off

theorem off_move {n : Nat} {w : World} {m : Move} (calm : m.Calm) (other : ¬ w.SwitchesOn n m)
    (off : Off n w) : Off n (w.move m) := by
  by_cases single : m.Single
  · refine (persists_off n).move w m single ?_ ?_ off
    · rintro number o rfl off
      have around := change_around w o
      exact ⟨calm_change off.toCalm o fun site crash => calm site number (by rw [crash]),
        by rw [around.links]; exact off.off⟩
    · rintro number name on k rfl found off
      exact off_switch found other off
  · simp only [Move.Single,Classical.not_forall,Classical.not_not] at single
    obtain ⟨number,ms,rfl⟩ := single
    have passes : Reaches Move.Internal w (w.move (.perform number (.advance ms))) :=
      passes_advance ms w
    refine run_keeps (R := fun v w => Off n v → Off n w) (fun _ => id)
      (fun w m internal single => ?_) passes off
    refine (persists_off n).move w m single ?_ ?_
    · rintro number o rfl
      exact internal.elim
    · rintro number name on k rfl
      exact internal.elim

theorem off_run {n : Nat} {w : World} {moves : List Move} (calm : ∀ m ∈ moves, m.Calm)
    (stays : StaysOff n w moves) (off : Off n w) : Off n (w.run moves) := by
  induction moves generalizing w with
  | nil => exact off
  | cons m rest ih =>
    exact ih (fun k member => calm k (List.mem_cons_of_mem m member)) stays.2
      (off_move (calm m List.mem_cons_self) stays.1 off)

theorem perform_switchOff {n number : Nat} {w : World} {name : String} (calm : w.Calm)
    (known : n < w.links.length) (found : w.names.lookup name = some n)
    (done : (w.perform number (.setLive name false)).1 = .done) :
    Off n (w.perform number (.setLive name false)).2 := by
  have there := List.getElem?_eq_getElem known
  rw [perform_setLive found] at done ⊢
  cases alive : w.links[n].dead with
  | true =>
    rw [act_failed (exec_setLive_dead calm there alive false)] at done
    cases done
  | false =>
    obtain ⟨lookups,notices,switched⟩ := exec_setLive calm there alive false (by simp)
    have may : MayDress w n w.links[n] { w.links[n] with live := false } none :=
      ⟨calm,there,alive,rfl,.inl rfl⟩
    have still := calm_after may lookups notices
    rw [act_done switched]
    exact ⟨still,_,List.getElem?_set_self known,rfl⟩

/-- No stray hook. As long as no collaborator crashes, and however widgets come and go: a living widget
with a link's hook is the one that the link remembers, and the link is alive and in live mode. So once
a link is killed, or switched out of live mode and not back into it, no living widget carries its hook,
and what is typed starts an update for no link but one that is held, alive and in live mode. -/
theorem no_stray_hook (s : Setting) (w : World) (reached : Reaches Move.Calm s.start w) :
    (∀ e x n, w.widgets[e]? = some x → w.alive e = true → x.hook = some n →
      ∃ l, w.links[n]? = some l ∧ l.slot.cached = some e ∧ l.dead = false ∧ l.live = true) ∧
    (∀ number name n moves, w.names.lookup name = some n → (∀ m ∈ moves, m.Calm) →
      ((w.perform number (.kill name)).2.run moves).Unhooked n) ∧
    (∀ number name n moves, w.names.lookup name = some n →
      (w.perform number (.setLive name false)).1 = .done → (∀ m ∈ moves, m.Calm) →
      StaysOff n (w.perform number (.setLive name false)).2 moves →
      ((w.perform number (.setLive name false)).2.run moves).Unhooked n) ∧
    ∀ number editor text canSpawn t,
      some t ∈ (w.perform number (.outside (.type editor text canSpawn))).2.tasks →
      some t ∈ w.tasks ∨ ∃ n l, t = { label := none, job := .update n .fresh } ∧
        w.held n = true ∧ w.links[n]? = some l ∧ l.dead = false ∧ l.live = true := by
  have wellHooked := wellHooked_of_reached reached (start_wellHooked s)
  have known {name : String} {n : Nat} (found : w.names.lookup name = some n) : n < w.links.length :=
    (unharmed_of_reached (reached.mono fun m calm => calm .factory)).holds n (held_of_lookup found)
  have later {m : Move} (calm : m.Calm) {moves : List Move} (gentle : ∀ m ∈ moves, m.Calm) :
      ((w.move m).run moves).WellHooked :=
    wellHooked_of_reached (v := w) ⟨m :: moves,by simpa [calm] using gentle,rfl⟩ wellHooked
  refine ⟨fun e x n widget alive hook => wellHooked.tied e x n widget hook alive,?_,?_,?_⟩
  · intro number name n moves found gentle
    have buried := (perform_kill number wellHooked.toCalm (known found) found).2
    have still := buried_of_reached ⟨moves,gentle,rfl⟩ buried
    exact unhooked_of_dead (later (m := .perform number (.kill name)) nofun gentle) still.dead
  · intro number name n moves found done gentle stays
    have off := perform_switchOff wellHooked.toCalm (known found) found done
    exact unhooked_of_off (later (m := .perform number (.setLive name false)) nofun gentle)
      (off_run gentle stays off)
  · intro number editor text canSpawn t member
    have around := change_around w (.type editor text canSpawn)
    rcases around.tasks with tasks | ⟨n,e,x,alive,widget,hook,held,tasks⟩
    · exact .inl (tasks ▸ member)
    · obtain ⟨l,there,-,living,live⟩ := wellHooked.tied e x n widget hook alive
      have member := tasks ▸ member
      rcases List.mem_append.mp member with old | new
      · exact .inl old
      · have same : t = { label := none, job := .update n .fresh } := by simpa using new
        exact .inr ⟨n,l,same,held,there,living,live⟩

theorem the_one_hook_is_tied :
    Reaches Move.Calm ({} : Setting).start oneLink ∧ oneLink.alive 0 = true ∧
      (oneLink.widgets[0]?.bind Widget.hook) = some 0 ∧
      ∃ l, oneLink.links[0]? = some l ∧ l.slot.cached = some 0 ∧ l.dead = false ∧ l.live = true := by
  obtain ⟨tied,-⟩ := no_stray_hook {} oneLink reaches_oneLink
  exact ⟨reaches_oneLink,rfl,rfl,tied 0 { hook := some 0, attached := 1, detached := 1 } 0 rfl rfl rfl⟩

end EditorLink
