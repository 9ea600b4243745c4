import EditorLink.Proofs.Abreast

/-! One action in two worlds. On the side that is kept it comes to the same in a world without the other side as in
the whole one, up to numbers; and an action of the other side is not noticed by the side that is kept. -/
namespace EditorLink
open EditorLink.Action

/-- Both end with a value, or both with the same error. -/
inductive OutcomeAlike {ε α : Type} (P : α → α → Prop) : Except ε α → Except ε α → Prop
  | ok (x y : α) (alike : P x y) : OutcomeAlike P (.ok x) (.ok y)
  | error (f : ε) : OutcomeAlike P (.error f) (.error f)

theorem outcomeAlike_refl {ε α : Type} (x : Except ε α) : OutcomeAlike Eq x x := by
  cases x with
  | ok x => exact .ok x x rfl
  | error f => exact .error f

theorem outcomeAlike_eq {ε α : Type} {x y : Except ε α} (ends : OutcomeAlike Eq x y) : x = y := by
  cases ends with
  | ok x y same => rw [same]
  | error f => rfl

def Parallel {α : Type} (s : Split) (v : World) (side : Bool) (P : Marks → α → α → Prop) (e : Marks)
    (a b : Action α) : Prop :=
  ∀ u w, Beside s v side e u w → ∃ d, e.Grows side d ∧ Beside s v side d (exec a u).2 (exec b w).2 ∧
    OutcomeAlike (P d) (exec a u).1 (exec b w).1

/-- The values are the same. -/
abbrev Same {α : Type} : Marks → α → α → Prop := fun _ => Eq

variable {s : Split} {v : World} {side : Bool} {e d : Marks} {n m i j p q : Nat} {α β : Type}
  {P : Marks → α → α → Prop} {Q : Marks → β → β → Prop} {a b : Action α}

namespace Parallel

theorem gives {x y : α} (alike : P e x y) : Parallel s v side P e (pure x) (pure y) :=
  fun _ _ beside => ⟨e,.refl side e,beside,.ok x y alike⟩

theorem fails (error : LinkError) : Parallel s v side P e (fail error) (fail error) :=
  fun _ _ beside => ⟨e,.refl side e,beside,.error _⟩

/-- What comes after a failure does not matter. -/
theorem fails_bind {f g : α → Action β} (error : LinkError) :
    Parallel s v side Q e (fail error >>= f) (fail error >>= g) :=
  fun _ _ beside => ⟨e,.refl side e,beside,.error _⟩

theorem crashes : Parallel s v side P e crash crash :=
  fun _ _ beside => ⟨e,.refl side e,beside,.error _⟩

theorem imp {R : Marks → α → α → Prop} (parallel : Parallel s v side P e a b)
    (weaker : ∀ d x y, P d x y → R d x y) : Parallel s v side R e a b := by
  intro u w beside
  obtain ⟨d,grows,after,ends⟩ := parallel u w beside
  refine ⟨d,grows,after,?_⟩
  revert ends
  generalize (exec a u).1 = x
  generalize (exec b w).1 = y
  rintro (⟨x,y,alike⟩ | f)
  · exact .ok x y (weaker d x y alike)
  · exact .error f

theorem bind {f g : α → Action β} (first : Parallel s v side P e a b)
    (next : ∀ d x y, e.Grows side d → P d x y → Parallel s v side Q d (f x) (g y)) :
    Parallel s v side Q e (a >>= f) (b >>= g) := by
  intro u w beside
  obtain ⟨d,grows,after,ends⟩ := first u w beside
  rw [exec_bind,exec_bind]
  rcases ran : exec a u with ⟨x,u'⟩
  rcases ran' : exec b w with ⟨y,w'⟩
  rw [ran,ran'] at after ends
  cases ends with
  | error f => exact ⟨d,grows,after,.error f⟩
  | ok x y alike =>
    obtain ⟨c,more,last,ends⟩ := next d x y grows alike u' w' after
    exact ⟨c,grows.trans more,last,ends⟩

theorem gets {f g : World → Action β}
    (next : ∀ u w, Beside s v side e u w → Parallel s v side Q e (f u) (g w)) :
    Parallel s v side Q e (get >>= f) (get >>= g) := by
  intro u w beside
  rw [exec_bind_ok (exec_get u),exec_bind_ok (exec_get w)]
  exact next u w beside u w beside

theorem modifies {f g : World → World} (step : ∀ u w, Beside s v side e u w → Beside s v side e (f u) (g w)) :
    Parallel s v side Same e (modify f) (modify g) :=
  fun u w beside => ⟨e,.refl side e,step u w beside,.ok _ _ rfl⟩

theorem result (parallel : Parallel s v side P e a b) :
    Parallel s v side (fun d => OutcomeAlike (P d)) e (result a) (result b) := by
  intro u w beside
  obtain ⟨d,grows,after,ends⟩ := parallel u w beside
  rw [exec_result,exec_result]
  rcases ran : exec a u with ⟨x,u'⟩
  rcases ran' : exec b w with ⟨y,w'⟩
  rw [ran,ran'] at after ends
  cases ends with
  | ok x y alike => exact ⟨d,grows,after,.ok _ _ (.ok x y alike)⟩
  | error f =>
    cases f with
    | error error => exact ⟨d,grows,after,.ok _ _ (.error error)⟩
    | crash => exact ⟨d,grows,after,.error _⟩

theorem onCrash {mend mend' : Action Unit} (parallel : Parallel s v side P e a b)
    (mended : ∀ d, e.Grows side d → Parallel s v side Same d mend mend') :
    Parallel s v side P e (onCrash a mend) (onCrash b mend') := by
  intro u w beside
  obtain ⟨d,grows,after,ends⟩ := parallel u w beside
  rw [exec_onCrash,exec_onCrash]
  rcases ran : exec a u with ⟨x,u'⟩
  rcases ran' : exec b w with ⟨y,w'⟩
  rw [ran,ran'] at after ends
  cases ends with
  | ok x y alike => exact ⟨d,grows,after,.ok x y alike⟩
  | error f =>
    cases f with
    | error error => exact ⟨d,grows,after,.error _⟩
    | crash =>
      have crashed : Parallel s v side P d (do mend; Action.crash) (do mend'; Action.crash) :=
        (mended d grows).bind fun _ _ _ _ _ => .crashes
      obtain ⟨c,more,last,ends⟩ := crashed u' w' after
      exact ⟨c,grows.trans more,last,ends⟩

end Parallel

namespace Action

theorem ofExcept_parallel {x y : Except LinkError α} (ends : OutcomeAlike (P e) x y) :
    Parallel s v side P e (ofExcept x) (ofExcept y) := by
  cases ends with
  | ok x y alike => exact .gives alike
  | error f => exact .fails f

theorem note_parallel (x : Notice) : Parallel s v side Same e (note x) (note x) :=
  .modifies fun _ _ beside => beside.note x

theorem visit_parallel (site : Site) : Parallel s v side Same e (visit site) (visit site) := by
  refine .gets fun u w beside => ?_
  rw [beside.common.sites]
  split
  · exact .crashes
  · exact .gives rfl

section Links
variable (stands : Stands side e.links n m)
include stands

theorem link_parallel : Parallel s v side (fun d => LinkAlike d side) e (link n) (link m) := by
  intro u w beside
  obtain ⟨l,k,here,there,alike⟩ := beside.link stands
  rw [exec_link_some here,exec_link_some there]
  exact ⟨e,.refl side e,beside,.ok l k alike⟩

theorem modifyLink_parallel {f g : Link → Link} (keeps : ∀ l k, LinkAlike e side l k → LinkAlike e side (f l) (g k)) :
    Parallel s v side Same e (modifyLink n f) (modifyLink m g) :=
  .modifies fun _ _ beside => beside.modifyLink stands keeps

theorem adjust_parallel (f : Link → Link) (keeps : ∀ l k, LinkAlike e side l k → LinkAlike e side (f l) (f k)) :
    Parallel s v side Same e (modifyLink n f) (modifyLink m f) :=
  modifyLink_parallel stands keeps

theorem ensureAlive_parallel : Parallel s v side Same e (ensureAlive n) (ensureAlive m) := by
  refine (link_parallel stands).bind fun d l k grows alike => ?_
  rw [alike.dead]
  split
  · exact .fails _
  · exact .gives rfl

theorem withHook_parallel {body other : Action α}
    (parallel : ∀ d, e.Grows side d → Parallel s v side P d body other) :
    Parallel s v side P e (withHook n body) (withHook m other) := by
  refine (link_parallel stands).bind fun d l k grows alike => ?_
  rw [alike.hookPoisoned]
  split
  · exact .fails _
  · refine (parallel d grows).onCrash fun c more => ?_
    exact adjust_parallel (more.link (grows.link stands)) _ fun _ _ alike => { alike with hookPoisoned := rfl }

theorem tryResolve_parallel : Parallel s v side Same e (tryResolve n) (tryResolve m) := by
  refine (link_parallel stands).bind fun d l k grows alike => .gets fun u w beside => ?_
  have looks : lookup l.slot.id u = lookup k.slot.id w := by
    rw [lookup,lookup,beside.common.sites,beside.common.host,alike.slot]
  rw [looks,alike.slot,beside.alive]
  rcases k.slot.tryResolve w.alive (lookup k.slot.id w) with ⟨r,slot⟩
  have kept : Parallel s v side Same d (modifyLink n fun l => { l with slot }) (modifyLink m fun l => { l with slot }) :=
    adjust_parallel (grows.link stands) _ fun _ _ alike => { alike with slot := rfl }
  have counted (d : Marks) : Parallel s v side Same d (modify fun w => { w with lookups := w.lookups + 1 })
      (modify fun w => { w with lookups := w.lookups + 1 }) := .modifies fun _ _ beside => beside.looked
  refine kept.bind fun _ _ _ _ _ => ?_
  cases r with
  | remembered widget => exact .gives rfl
  | found widget =>
    exact (counted _).bind fun _ _ _ _ _ => (note_parallel _).bind fun _ _ _ _ _ => .gives rfl
  | missing => exact (counted _).bind fun _ _ _ _ _ => .gives rfl
  | crashed => exact (counted _).bind fun _ _ _ _ _ => .crashes
  | poisoned => exact .fails _

theorem resolve_parallel : Parallel s v side Same e (resolve n) (resolve m) := by
  refine (tryResolve_parallel stands).bind fun d x y grows same => ?_
  cases same
  cases x with
  | some widget => exact .gives rfl
  | none =>
    refine (link_parallel (grows.link stands)).bind fun _ l k _ alike => ?_
    rw [alike.slot]
    exact .fails _

end Links

theorem setHook_parallel (widget : Nat) {x y : Option Nat} (hooks : Option.Rel (Stands side e.links) x y) :
    Parallel s v side Same e (setHook widget x) (setHook widget y) :=
  (visit_parallel .hook).bind fun _ _ _ grows _ =>
    .modifies fun _ _ beside => beside.setHook widget (rel_imp hooks fun _ _ => grows.link)

section Links
variable (stands : Stands side e.links n m)
include stands

theorem attach_parallel : Parallel s v side Same e (attach n) (attach m) := by
  refine (resolve_parallel stands).bind fun d widget _ grows same => ?_
  cases same
  refine (setHook_parallel widget (.some (grows.link stands))).bind fun c _ _ more _ => ?_
  refine (link_parallel (more.link (grows.link stands))).bind fun _ l k _ alike => ?_
  rw [alike.slot]
  exact note_parallel _

theorem detach_parallel : Parallel s v side Same e (detach n) (detach m) := by
  refine (tryResolve_parallel stands).bind fun d x y grows same => ?_
  cases same
  cases x with
  | none => exact .gives rfl
  | some widget =>
    refine (setHook_parallel widget .none).bind fun c _ _ more _ => ?_
    refine (link_parallel (more.link (grows.link stands))).bind fun _ l k _ alike => ?_
    rw [alike.slot]
    exact note_parallel _

theorem isLive_parallel : Parallel s v side Same e (isLive n) (isLive m) := by
  refine (ensureAlive_parallel stands).bind fun d _ _ grows _ => ?_
  refine (link_parallel (grows.link stands)).bind fun _ l k _ alike => ?_
  rw [alike.live]
  exact .gives rfl

theorem modelOf_parallel : Parallel s v side (fun d => Stands side d.models) e (modelOf n) (modelOf m) :=
  (ensureAlive_parallel stands).bind fun _ _ _ grows _ =>
    (link_parallel (grows.link stands)).bind fun _ _ _ _ alike => .gives alike.model

theorem setLive_parallel (live : Bool) : Parallel s v side Same e (setLive n live) (setLive m live) := by
  refine withHook_parallel stands fun d grows => ?_
  have stands := grows.link stands
  refine (ensureAlive_parallel stands).bind fun c _ _ more _ => ?_
  have stands := more.link stands
  have hooked : Parallel s v side Same c (if live then attach n else detach n) (if live then attach m else detach m) := by
    split
    · exact attach_parallel stands
    · exact detach_parallel stands
  have last (d : Marks) (grows : c.Grows side d) : Parallel s v side Same d
      (do modifyLink n fun l => { l with live := live }; note (.liveChanged live))
      (do modifyLink m fun l => { l with live := live }; note (.liveChanged live)) :=
    (adjust_parallel (grows.link stands) (fun l => { l with live }) fun _ _ alike => { alike with live := rfl }).bind
      fun _ _ _ _ _ => note_parallel _
  cases live with
  | true => exact hooked.bind fun d _ _ grows _ => last d grows
  | false => exact hooked.bind fun d _ _ grows _ => last d grows

theorem kill_parallel : Parallel s v side Same e (kill n) (kill m) := by
  refine withHook_parallel stands fun d grows => ?_
  have stands := grows.link stands
  refine (link_parallel stands).bind fun c l k more alike => ?_
  rw [alike.dead]
  split
  · exact .gives rfl
  · have ended : Parallel s v side Same c (modifyLink n fun l => { l with dead := true })
        (modifyLink m fun l => { l with dead := true }) :=
      adjust_parallel (more.link stands) _ fun _ _ alike => { alike with dead := rfl }
    refine ended.bind fun b _ _ next _ => ?_
    exact (note_parallel _).bind fun a _ _ last _ => detach_parallel (last.link (next.link (more.link stands)))

theorem clearHook_parallel : Parallel s v side Same e (clearHook n) (clearHook m) :=
  withHook_parallel stands fun _ grows =>
    (ensureAlive_parallel (grows.link stands)).bind fun _ _ _ more _ => detach_parallel (more.link (grows.link stands))

end Links
end Action
end EditorLink
