import EditorLink.Proofs.Hooks

/-! One registry, and one widget that stays mounted. Every link finds that widget whenever it looks for
one, and of all links at most one is held and not dead. -/
namespace EditorLink
open World EditorLink.Action

/-- No collaborator is made to crash, and nothing else is mounted in place of the first widget. -/
def Outside.Steady : Outside → Prop
  | .crash _ on => on = false
  | .mount _ _ => False
  | .unmount => False
  | .remount editor => editor = 0
  | _ => True

def Move.Steady (m : Move) : Prop := ∀ number o, m = .perform number (.outside o) → o.Steady

theorem Move.Internal.steady {m : Move} (internal : m.Internal) : m.Steady := by
  intro number o same
  subst same
  exact internal.elim

theorem Move.Steady.calm {m : Move} (steady : m.Steady) : m.Calm := by
  intro site number same
  have off := steady number _ same
  cases off

namespace World

structure Staged (w : World) : Prop extends WellHooked w where
  mounted : w.host.mounted = some 0
  only : ∀ e, w.alive e = true → e = 0
  single : w.widgets.length = 1
  links : ∀ (n : Nat) (l : Link), w.links[n]? = some l →
    l.slot.id = w.host.id ∧ l.model < w.models.length
  registries : ∀ r ∈ w.registries, r.config.editorId = w.host.id

theorem Staged.alive {w : World} (staged : w.Staged) : w.alive 0 = true :=
  alive_iff.mpr (.inl staged.mounted)

theorem Staged.seen {w : World} (staged : w.Staged) {n : Nat} {l : Link}
    (there : w.links[n]? = some l) : w.seen l = some 0 := by
  rw [World.seen]
  rcases known : l.slot.cached.filter w.alive with _ | e
  · have asked : w.host.find? l.slot.id = some 0 := by
      rw [Host.find?,if_pos (staged.links n l there).1,staged.mounted]
    simp [asked]
  · obtain rfl := staged.only e (Option.filter_eq_some_iff.mp known).2
    rfl

theorem staged_dress {w : World} {n : Nat} {l k : Link} {hook : Option Nat} (may : MayDress w n l k hook)
    (staged : w.Staged) (lookups : Nat) (notices : List Notice) :
    ((w.dress n k hook).log lookups notices).Staged where
  toWellHooked := wellHooked_dress may staged.toWellHooked lookups notices
  mounted := staged.mounted
  only e lives := staged.only e lives
  single := by
    have found := staged.seen may.there
    simp only [log,dress,may.seen,found,List.length_modify,staged.single]
  links m j there := by
    have kept : k.slot.id = l.slot.id ∧ k.model = l.model := by
      have model := congrArg Link.model may.kept
      exact ⟨by rw [may.slot],model⟩
    have before := staged.links n l may.there
    simp only [log,dress,List.getElem?_set] at there
    split at there
    · split at there
      · cases there
        dsimp only
        rw [kept.1,kept.2]
        exact before
      · cases there
    · exact staged.links m j there
  registries := staged.registries

theorem Staged.quiet {v w : World} (staged : v.Staged) (quiet : Quiet v w) : w.Staged where
  toWellHooked := staged.toWellHooked.quiet quiet
  mounted := by rw [quiet.host,staged.mounted]
  only e lives := by
    rw [World.alive,quiet.host,quiet.kept] at lives
    exact staged.only e lives
  single := by rw [quiet.widgets,staged.single]
  links n k there := by
    obtain ⟨l,found,alike⟩ := quiet.link_back there
    obtain ⟨model,-,slot,-,-,-⟩ := core_fields alike
    rw [quiet.host,quiet.models,slot,model]
    exact staged.links n l found
  registries r member := by
    rw [quiet.host]
    rw [quiet.registries] at member
    exact staged.registries r member

theorem Staged.entities {v w : World} (staged : v.Staged) (entities : SameEntities v w) : w.Staged where
  toWellHooked := staged.toWellHooked.entities entities
  mounted := by rw [entities.host,staged.mounted]
  only e lives := by
    rw [World.alive,entities.host,entities.kept] at lives
    exact staged.only e lives
  single := by rw [entities.widgets,staged.single]
  links n l there := by
    rw [entities.links] at there
    rw [entities.host,entities.models]
    exact staged.links n l there
  registries r member := by
    rw [entities.host]
    rw [entities.registries] at member
    exact staged.registries r member

theorem staged_withLink {w : World} (staged : w.Staged) {registry : Nat} {r : Registry}
    (there : w.registries[registry]? = some r) : (w.withLink registry r).Staged where
  toWellHooked := wellHooked_withLink staged.toWellHooked registry r
  mounted := staged.mounted
  only e lives := staged.only e lives
  single := staged.single
  links n l found := by
    simp only [withLink,List.length_append,List.length_singleton] at found ⊢
    rw [List.getElem?_append] at found
    split at found
    · have before := staged.links n l found
      exact ⟨before.1,by omega⟩
    · obtain rfl := List.mem_singleton.mp (List.mem_of_getElem? found)
      exact ⟨staged.registries r (List.mem_of_getElem? there),by simp⟩
  registries k member := by
    obtain ⟨old,known,same,-⟩ := mem_withLink member
    rw [same]
    exact staged.registries old known

theorem change_stage (w : World) {o : Outside} (steady : o.Steady)
    (mounted : w.host.mounted = some 0) :
    (w.change o).2.host = w.host ∧ (w.change o).2.widgets.length = w.widgets.length := by
  have edited {f : World → World} (n : Nat) (same : (f w).host = w.host)
      (size : (f w).widgets.length = w.widgets.length) :
      (w.onEditor n f).2.host = w.host ∧ (w.onEditor n f).2.widgets.length = w.widgets.length :=
    onEditor_keeps (R := fun v w => w.host = v.host ∧ w.widgets.length = v.widgets.length) ⟨rfl,rfl⟩
      fun _ => ⟨same,size⟩
  have planned (n : Nat) (f : PlannedModel → PlannedModel) :
      (w.onModel n f).2.host = w.host ∧ (w.onModel n f).2.widgets.length = w.widgets.length := by
    unfold onModel
    split <;> exact ⟨rfl,rfl⟩
  cases o with
  | factory blueprint => exact ⟨rfl,rfl⟩
  | crash site on => exact ⟨rfl,rfl⟩
  | mount text keeps => exact steady.elim
  | unmount => exact steady.elim
  | keep editor =>
    have kept : (w.keep editor).host = w.host ∧ (w.keep editor).widgets = w.widgets := by
      unfold keep
      split <;> exact ⟨rfl,rfl⟩
    exact edited editor kept.1 (by rw [kept.2])
  | remount editor =>
    cases steady
    refine edited 0 ?_ rfl
    simp only [mount,← mounted]
  | release editor => exact ⟨rfl,rfl⟩
  | type editor text canSpawn =>
    have typed : (w.typeIn editor text canSpawn).host = w.host ∧
        (w.typeIn editor text canSpawn).widgets.length = w.widgets.length := by
      unfold typeIn
      dsimp only
      split
      · unfold input
        split
        · exact ⟨rfl,List.length_modify _ _ _⟩
        · split <;> exact ⟨rfl,List.length_modify _ _ _⟩
      · exact ⟨rfl,List.length_modify _ _ _⟩
    exact edited editor typed.1 typed.2
  | busy model ms => exact planned model _
  | stall model => exact planned model _
  | settle model => exact planned model _
  | failUncache model on => exact planned model _
  | failUpdate model e => exact planned model _
  | updateMillis model ms => exact planned model _

theorem staged_change {w : World} (staged : w.Staged) {o : Outside} (steady : o.Steady)
    (gentle : ∀ site, o ≠ .crash site true) : (w.change o).2.Staged := by
  have around := change_around w o
  obtain ⟨host,size⟩ := change_stage w steady staged.mounted
  refine ⟨wellHooked_change staged.toWellHooked o gentle,by rw [host,staged.mounted],?_,size.trans staged.single,
    ?_,?_⟩
  · intro e lives
    rcases around.alive e lives with lived | ⟨new,known⟩
    · exact staged.only e lived
    · omega
  · intro n l there
    rw [around.links] at there
    rw [host,around.models]
    exact staged.links n l there
  · intro r member
    rw [around.registries] at member
    rw [host]
    exact staged.registries r member

end World

theorem persists_staged : Persists fun v w => v.Staged → w.Staged where
  frame := inferInstance
  wild wild staged := absurd staged.toCalm wild
  entities entities staged := staged.entities entities
  quiet quiet staged := staged.quiet quiet
  dressed may _ lookups notices staged := staged_dress may staged lookups notices
  made _ there _ staged := staged_withLink staged there

theorem staged_of_reached {v w : World} (reached : Reaches Move.Steady v w) (staged : v.Staged) :
    w.Staged :=
  persists_staged.reaches (fun _ => Move.Internal.steady)
    (fun _ number o steady staged => staged_change staged (steady number o rfl)
      fun site crash => steady.calm site number (by rw [crash]))
    (fun may lookups notices staged => staged_dress may staged lookups notices) reached staged

/-- One registry, whose editor is there from the start. -/
structure Setting.OnStage (s : Setting) (c : Config) : Prop where
  one : s.configs = [c]
  fits : c.editorId = s.hostId
  mounted : s.mounted = true

theorem start_staged {s : Setting} {c : Config} (onStage : s.OnStage c) : s.start.Staged where
  toWellHooked := start_wellHooked s
  mounted := by simp [Setting.start,onStage.mounted]
  only e lives := by
    rcases alive_iff.mp lives with mounted | kept
    · simpa [Setting.start,onStage.mounted] using mounted.symm
    · cases kept
  single := by simp [Setting.start,onStage.mounted]
  links := nofun
  registries r member := by
    simp only [Setting.start,onStage.one,List.map_cons,List.map_nil,List.mem_singleton] at member
    rw [member]
    exact onStage.fits

theorem one_registry {s : Setting} {c : Config} {w : World} (onStage : s.OnStage c)
    (reached : Reaches Move.Steady s.start w) : w.registries.length = 1 := by
  have fine := reached.mono fun m steady => steady.calm .factory
  have later := (reaches_course fine (start_unharmed s)).2
  simp [later.registries,Setting.start,onStage.one]

/-- With one registry, two links that are held and not dead are the same, and the registry knows. -/
theorem current_of_up {s : Setting} {c : Config} {w : World} (onStage : s.OnStage c)
    (reached : Reaches Move.Steady s.start w) {n : Nat} (up : w.Up n) : w.current? 0 = some n := by
  have fine := reached.mono fun m steady => steady.calm .factory
  have unharmed := unharmed_of_reached fine
  have later := (reaches_course fine (start_unharmed s)).2
  have size := one_registry onStage reached
  have made : ∃ registry, w.lastOf registry = some n := by
    rcases later.fresh n (Nat.zero_le n) (unharmed.holds n up.1) with last | gone
    · exact last
    · rcases gone.down with dead | unheld
      · rw [up.2] at dead
        contradiction
      · rw [up.1] at unheld
        contradiction
  obtain ⟨registry,last⟩ := made
  obtain ⟨r,there,_⟩ := Option.bind_eq_some_iff.mp last
  have inside := (List.getElem?_eq_some_iff.mp there).1
  obtain rfl : registry = 0 := by omega
  exact (current?_iff_up fine 0 n).mpr ⟨⟨w,fine,Frame.refl w,last⟩,up⟩

end EditorLink
