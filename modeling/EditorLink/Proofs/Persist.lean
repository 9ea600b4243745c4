import EditorLink.Proofs.Calm
import EditorLink.Proofs.Move

/-! What every move keeps as long as no collaborator crashes: it is enough that it is kept where the
entities stay the same, by the background, by what a link does to its hook, and by the making of a new
link. -/
namespace EditorLink
open World EditorLink.Action

/-- No collaborator is made to crash. -/
def Move.Calm (m : Move) : Prop := ∀ site, m.Spares site

theorem Move.Internal.calm {m : Move} (internal : m.Internal) : m.Calm := internal.spares

structure Persists (R : World → World → Prop) : Prop where
  frame : Frame R
  wild : ∀ {v w}, ¬ v.Calm → R v w
  entities : ∀ {v w}, SameEntities v w → R v w
  quiet : ∀ {v w}, Quiet v w → R v w
  dressed : ∀ {n w l k hook}, MayDress w n l k hook → k.live = l.live → ∀ lookups notices,
    R w ((w.dress n k hook).log lookups notices)
  made : ∀ {w registry r}, w.Calm → w.registries[registry]? = some r →
    w.current? registry = none → R w (w.withLink registry r)

variable {R : World → World → Prop}

theorem Persists.tendsCalmly (persists : Persists R) (n : Nat) : TendsCalmly n R where
  frame := persists.frame
  wild := persists.wild
  still still := persists.quiet still.toQuiet
  named w _ := persists.entities { SameEntities.refl w with }
  dressed := persists.dressed

theorem Persists.fresh (persists : Persists R) (id registry : Nat) (name : String) :
    Keeps R (resumeCreate id registry name none) := by
  have := persists.frame
  intro w
  by_cases calm : w.Calm
  · rcases register_cases registry (calm.spared .factory) with ⟨e,refused⟩ | ⟨r,there,free,registered⟩
    · rw [resumeCreate_refused refused]
      exact Frame.refl w
    · rw [resumeCreate_made registered]
      have made := persists.made calm there free
      exact Frame.trans made (setOut_keeps (persists.tendsCalmly _).tends.serves id registry name trivial _)
  · exact persists.wild calm

theorem Persists.turn (persists : Persists R) (w : World) (id : Nat) : R w (w.turn id) := by
  have := persists.frame
  refine turn_keeps persists.entities w id fun task there active => ?_
  by_cases settled : Settled task.job
  · refine resume_keeps id settled (fun still => persists.quiet still.toQuiet) ?_
      (fun n _ => (persists.tendsCalmly n).tends) _
    exact fun n phase _ => (resumeUpdate_quiet id n phase).mono persists.quiet
  · obtain ⟨registry,name,fresh⟩ := not_settled settled
    rw [fresh]
    exact persists.fresh id registry name _

theorem Persists.move (persists : Persists R) (w : World) (m : Move) (single : m.Single)
    (outside : ∀ number o, m = .perform number (.outside o) → R w (w.change o).2)
    (switches : ∀ number name on n, m = .perform number (.setLive name on) →
      w.names.lookup name = some n → R w (exec (setLive n on) w).2) : R w (w.move m) := by
  have := persists.frame
  cases m with
  | perform number c =>
    refine perform_keeps (fun noMore => persists.entities noMore.toSameEntities)
      (fun still => persists.quiet still.toQuiet) w number c
      (fun ms same => single number ms (by rw [same]))
      (fun o same => outside number o (by rw [same])) ?_ ?_
    · exact fun name on n same found => switches number name on n (by rw [same]) found
    · exact fun name n _ _ => (persists.tendsCalmly n).tends.kill w
  | turn id => exact persists.turn w id
  | arrive now => exact persists.entities { SameEntities.refl w with }

theorem Persists.reaches {allowed : Move → Prop} (persists : Persists R)
    (internal : ∀ m, m.Internal → allowed m)
    (outside : ∀ w number o, allowed (.perform number (.outside o)) → R w (w.change o).2)
    (switch : ∀ {n w l k hook}, MayDress w n l k hook → ∀ lookups notices,
      R w ((w.dress n k hook).log lookups notices))
    {v w : World} (reached : Reaches allowed v w) : R v w := by
  have := persists.frame
  have switches (n : Nat) (on : Bool) : Keeps R (setLive n on) :=
    setLive_keeps persists.wild switch on
  refine run_keeps internal (fun w m fine single => persists.move w m single ?_ ?_) reached
  · exact fun number o same => outside w number o (same ▸ fine)
  · exact fun _ _ on n _ _ => switches n on w

namespace World

theorem Calm.quiet {v w : World} (calm : v.Calm) (quiet : Quiet v w) : w.Calm where
  sites := quiet.sites.trans calm.sites
  locks n k there := by
    obtain ⟨l,found,alike⟩ := quiet.link_back there
    have locks := calm.locks n l found
    obtain ⟨-,-,slot,-,-,hook⟩ := core_fields alike
    rw [hook,slot]
    exact locks

theorem calm_after {w : World} {n : Nat} {l k : Link} {hook : Option Nat}
    (may : MayDress w n l k hook) (lookups : Nat) (notices : List Notice) :
    ((w.dress n k hook).log lookups notices).Calm := by
  have locks := may.calm.locks n l may.there
  have hookPoisoned : k.hookPoisoned = l.hookPoisoned := by
    have same := congrArg Link.hookPoisoned may.kept
    exact same
  refine may.calm.put rfl rfl ⟨hookPoisoned.trans locks.1,?_⟩
  rw [may.slot]
  exact locks.2

theorem calm_withLink {w : World} (calm : w.Calm) (registry : Nat) (r : Registry) :
    (w.withLink registry r).Calm where
  sites := calm.sites
  locks n l there := by
    simp only [withLink,List.getElem?_append] at there
    split at there
    · exact calm.locks n l there
    · obtain rfl := List.mem_singleton.mp (List.mem_of_getElem? there)
      exact ⟨rfl,rfl⟩

theorem calm_change {w : World} (calm : w.Calm) (o : Outside) (gentle : ∀ site, o ≠ .crash site true) :
    (w.change o).2.Calm where
  sites := List.eq_nil_iff_forall_not_mem.mpr fun site =>
    change_sites w o (gentle site) (calm.spared site)
  locks n l there := calm.locks n l ((change_around w o).links ▸ there)

end World

theorem persists_calm : Persists fun v w => v.Calm → w.Calm where
  frame := inferInstance
  wild wild calm := absurd calm wild
  entities entities calm :=
    ⟨entities.sites.trans calm.sites,fun n l there => calm.locks n l (entities.links ▸ there)⟩
  quiet quiet calm := calm.quiet quiet
  dressed may _ lookups notices _ := calm_after may lookups notices
  made _ _ _ calm := calm_withLink calm _ _

theorem start_calm (s : Setting) : s.start.Calm := ⟨rfl,nofun⟩

theorem calm_of_reached {v w : World} (reached : Reaches Move.Calm v w) (calm : v.Calm) : w.Calm :=
  persists_calm.reaches (fun _ => Move.Internal.calm)
    (fun _ number o gentle calm => calm_change calm o fun site crash =>
      gentle site number (by rw [crash]))
    (fun may lookups notices _ => calm_after may lookups notices) reached calm

end EditorLink
