import EditorLink.Proofs.Tandem

/-! Commands of one side. A command is on the side of the registry it names, of the name it uses, or of the command
whose handle or task it deals with. -/
namespace EditorLink
open World EditorLink.Action

namespace Split

/-- The side of a command; what happens around links has none. -/
def of (s : Split) : Command → Option Bool
  | .advance _ => none
  | .outside _ => none
  | .create _ registry => some (s.registry registry)
  | .current _ registry => some (s.registry registry)
  | .registryConfig registry => some (s.registry registry)
  | .live link => some (s.name link)
  | .setLive link _ => some (s.name link)
  | .kill link => some (s.name link)
  | .model link => some (s.name link)
  | .isDead link => some (s.name link)
  | .status link => some (s.name link)
  | .debug link => some (s.name link)
  | .same link _ => some (s.name link)
  | .clone link _ => some (s.name link)
  | .drop link => some (s.name link)
  | .update link => some (s.name link)
  | .uncache link => some (s.name link)
  | .stop link _ => some (s.name link)
  | .wait handle => some (s.number handle)
  | .continuation handle => some (s.number handle)
  | .cancel handle => some (s.number handle)
  | .dropHandle handle => some (s.number handle)
  | .abort task => some (s.number task)

/-- A command leaves what it gives to its own side, and nobody types. -/
def Divides (s : Split) (number : Nat) : Command → Prop
  | .outside (.type _ _ _) => False
  | .create name registry => s.name name = s.registry registry ∧ s.number number = s.registry registry
  | .current (some name) registry => s.name name = s.registry registry
  | .same link other => s.name other = s.name link
  | .clone link name => s.name name = s.name link
  | .update link => s.number number = s.name link
  | .uncache link => s.number number = s.name link
  | .stop link _ => s.number number = s.name link
  | .wait handle => s.number number = s.number handle
  | .continuation handle => s.number number = s.number handle
  | _ => True

end Split

/-- The same answer, up to the number of a model. -/
inductive ReplyAlike (e : Marks) (side : Bool) : Reply → Reply → Prop
  | model {x y : Option Nat} (models : Option.Rel (Stands side e.models) x y) : ReplyAlike e side (.model x) (.model y)
  | same (r : Reply) (plain : ∀ x, r ≠ .model x) : ReplyAlike e side r r

/-- Two answers, each with the world after it. -/
def Answers (s : Split) (v : World) (side : Bool) (e : Marks) (x y : Reply × World) : Prop :=
  ∃ d, e.Grows side d ∧ Beside s v side d x.2 y.2 ∧ ReplyAlike d side x.1 y.1

variable {s : Split} {v : World} {side : Bool} {e d : Marks} {n m i j p q : Nat}

theorem lookup_kept {κ : Type} [BEq κ] [LawfulBEq κ] {own : κ → Bool} {p : List Bool} {as cs : List (κ × Nat)}
    (sifted : Sifted (BindingAlike own p) as cs) {key : κ} (mine : own key = true) :
    Option.Rel (Stands true p) (as.lookup key) (cs.lookup key) := by
  obtain ⟨marks,woven⟩ := sifted
  induction woven with
  | nil => exact .none
  | kept a c called _ ih =>
    obtain ⟨x,i⟩ := a
    obtain ⟨y,j⟩ := c
    obtain rfl : x = y := called.same
    rw [List.lookup_cons,List.lookup_cons]
    cases key == x with
    | true => exact .some called.stands
    | false => exact ih
  | other c called _ ih =>
    obtain ⟨y,j⟩ := c
    have different : (key == y) = false := by
      refine beq_eq_false_iff_ne.mpr ?_
      rintro rfl
      exact absurd (mine.symm.trans called.own) nofun
    rw [List.lookup_cons,different]
    exact ih

theorem lookup_other {κ : Type} [BEq κ] [LawfulBEq κ] {own : κ → Bool} {p : List Bool} {as cs : List (κ × Nat)}
    (sifted : Sifted (BindingAlike own p) as cs) {key : κ} (theirs : own key = false) :
    Option.Rel (Stands false p) (cs.lookup key) (cs.lookup key) := by
  rcases found : cs.lookup key with _ | j
  · exact .none
  · obtain ⟨first,rest,same,-⟩ := List.lookup_eq_some_iff.mp found
    have member : (key,j) ∈ cs := by rw [same]; simp
    obtain ⟨side,a,called⟩ := sifted.sided member
    obtain rfl : side = false := called.own.symm.trans theirs
    have stands := called.stands
    exact .some ⟨stands.marked,rfl⟩

theorem LinkAlike.debug {l k : Link} (alike : LinkAlike e side l k) : World.debug l = World.debug k := by
  obtain ⟨-,-,-,slot,live,dead,-,-⟩ := alike
  unfold World.debug
  dsimp only
  rw [slot,live,dead]

namespace Beside

variable {u w : World}

theorem name (beside : Beside s v side e u w) {name : String} (own : s.name name = side) :
    Option.Rel (Stands side e.links) (u.names.lookup name) (w.names.lookup name) := by
  cases side with
  | true => exact lookup_kept (Drawn.names beside) own
  | false =>
    obtain ⟨rfl,alike⟩ := beside
    exact lookup_other alike.names own

theorem handle (beside : Beside s v side e u w) {handle : Nat} (own : s.number handle = side) :
    Option.Rel (Stands side e.promises) (u.handles.lookup handle) (w.handles.lookup handle) := by
  cases side with
  | true => exact lookup_kept (Drawn.handles beside) own
  | false =>
    obtain ⟨rfl,alike⟩ := beside
    exact lookup_other alike.handles own

theorem answers (beside : Beside s v side e u w) (r : Reply) (plain : ∀ x, r ≠ .model x) : Answers s v side e (r,u) (r,w) :=
  ⟨e,.refl side e,beside,.same r plain⟩

theorem onLink (beside : Beside s v side e u w) {name : String} (own : s.name name = side) {f g : Nat → Reply × World}
    (found : ∀ n m, Stands side e.links n m → Answers s v side e (f n) (g m)) :
    Answers s v side e (u.onLink name f) (w.onLink name g) := by
  have rel := beside.name own
  rw [World.onLink,World.onLink]
  revert rel
  generalize u.names.lookup name = x
  generalize w.names.lookup name = y
  rintro (stands | -)
  · exact found _ _ stands
  · exact beside.answers .skipped nofun

theorem onHandle (beside : Beside s v side e u w) {handle : Nat} (own : s.number handle = side)
    {f g : Nat → Reply × World} (found : ∀ p q, Stands side e.promises p q → Answers s v side e (f p) (g q)) :
    Answers s v side e (u.onHandle handle f) (w.onHandle handle g) := by
  have rel := beside.handle own
  rw [World.onHandle,World.onHandle]
  revert rel
  generalize u.handles.lookup handle = x
  generalize w.handles.lookup handle = y
  rintro (stands | -)
  · exact found _ _ stands
  · exact beside.answers .skipped nofun

theorem onRegistry (beside : Beside s v side e u w) {r : Nat} (own : s.registry r = side)
    {f g : Registry → Reply × World} (found : ∀ a b, RegistryAlike e side a b → Answers s v side e (f a) (g b)) :
    Answers s v side e (u.onRegistry r f) (w.onRegistry r g) := by
  have rel := beside.registry own
  rw [World.onRegistry,World.onRegistry]
  revert rel
  generalize u.registries[r]? = x
  generalize w.registries[r]? = y
  rintro (alike | -)
  · exact found _ _ alike
  · exact beside.answers .skipped nofun

/-- An action gives its result to what follows; a fault is told to the caller. -/
theorem told {α : Type} (beside : Beside s v side e u w) {P : Marks → α → α → Prop} {a b : Action α}
    (parallel : Parallel s v side P e a b) {f g : α → World → Reply × World}
    (gives : ∀ d x y u w, Beside s v side d u w → P d x y → Answers s v side d (f x u) (g y w)) :
    Answers s v side e
      (match exec a u with
        | (.ok x,u) => f x u
        | (.error (.error e),u) => (.failed e,u)
        | (.error .crash,u) => (.crashed,u))
      (match exec b w with
        | (.ok y,w) => g y w
        | (.error (.error e),w) => (.failed e,w)
        | (.error .crash,w) => (.crashed,w)) := by
  obtain ⟨d,grows,after,ends⟩ := parallel u w beside
  rcases ran : exec a u with ⟨x,u'⟩
  rcases ran' : exec b w with ⟨y,w'⟩
  rw [ran,ran'] at after ends
  cases ends with
  | ok x y alike =>
    obtain ⟨c,more,later,reply⟩ := gives d x y u' w' after alike
    exact ⟨c,grows.trans more,later,reply⟩
  | error f =>
    cases f with
    | error error => exact ⟨d,grows,after,.same (.failed error) nofun⟩
    | crash => exact ⟨d,grows,after,.same .crashed nofun⟩

theorem act {α : Type} (beside : Beside s v side e u w) {P : Marks → α → α → Prop} {a b : Action α} {f : α → Reply}
    (parallel : Parallel s v side P e a b) (reply : ∀ d x y, P d x y → ReplyAlike d side (f x) (f y)) :
    Answers s v side e (u.act a f) (w.act b f) :=
  beside.told parallel fun d x y _ _ after alike => ⟨d,.refl side d,after,reply d x y alike⟩

theorem start (beside : Beside s v side e u w) {number : Nat} (own : s.number number = side) {job other : Job}
    (alike : JobAlike s e side job other) : Answers s v side e (u.start number job) (w.start number other) := by
  have started : Beside s v side e { u with started := u.started ++ [number] }
      { w with started := w.started ++ [number] } := by
    cases side with
    | true =>
      have alikes : Alike s e u w := beside
      exact { alikes with started := alikes.started.push_kept ⟨rfl,own⟩ }
    | false =>
      obtain ⟨rfl,alikes⟩ := beside
      exact ⟨rfl,{ alikes with started := alikes.started.push_other ⟨rfl,own⟩ }⟩
  have labelled (label : Nat) (same : some number = some label) : s.number label = side := by
    cases same
    exact own
  obtain ⟨d,grows,spawned⟩ := started.spawn (some number) labelled alike
  exact ⟨d,grows,spawned,.same .nothing nofun⟩

theorem dropName (beside : Beside s v side e u w) {name : String} (own : s.name name = side) :
    Beside s v side e { u with names := u.names.filter fun x => x.1 ≠ name }
      { w with names := w.names.filter fun x => x.1 ≠ name } := by
  cases side with
  | true =>
    have alike : Alike s e u w := beside
    exact { alike with names := drop_kept alike.names name }
  | false =>
    obtain ⟨rfl,alike⟩ := beside
    exact ⟨rfl,{ alike with names := drop_other alike.names own }⟩

theorem dropHandle (beside : Beside s v side e u w) {handle : Nat} (own : s.number handle = side) :
    Beside s v side e { u with handles := u.handles.filter fun x => x.1 ≠ handle }
      { w with handles := w.handles.filter fun x => x.1 ≠ handle } := by
  cases side with
  | true =>
    have alike : Alike s e u w := beside
    exact { alike with handles := drop_kept alike.handles handle }
  | false =>
    obtain ⟨rfl,alike⟩ := beside
    exact ⟨rfl,{ alike with handles := drop_other alike.handles own }⟩

theorem addHandle (beside : Beside s v side e u w) {number : Nat} (own : s.number number = side)
    (stands : Stands side e.promises p q) :
    Beside s v side e { u with handles := u.handles ++ [(number,p)] } { w with handles := w.handles ++ [(number,q)] } := by
  cases side with
  | true =>
    have alike : Alike s e u w := beside
    exact { alike with handles := alike.handles.push_kept ⟨rfl,own,stands⟩ }
  | false =>
    obtain rfl := stands.placed
    obtain ⟨rfl,alike⟩ := beside
    exact ⟨rfl,{ alike with handles := alike.handles.push_other ⟨rfl,own,stands⟩ }⟩

theorem stopFor (beside : Beside s v side e u w) {number : Nat} (own : s.number number = side)
    (stands : Stands side e.links n m) (canSpawn : Bool) :
    Answers s v side e (u.stopFor number n canSpawn) (w.stopFor number m canSpawn) := by
  obtain ⟨d,grows,after,ends⟩ := startStop_parallel stands canSpawn u w beside
  rcases ran : exec (startStop n canSpawn) u with ⟨x,u'⟩
  rcases ran' : exec (startStop m canSpawn) w with ⟨y,w'⟩
  rw [ran,ran'] at after ends
  rw [exec] at ran ran'
  rw [World.stopFor,World.stopFor,ran,ran']
  cases ends with
  | ok p q stands => exact ⟨d,grows,after.addHandle own stands,.same .done fun _ same => by cases same⟩
  | error f =>
    cases f with
    | error error => exact ⟨d,grows,after,.same (.failed error) fun _ same => by cases same⟩
    | crash => exact ⟨d,grows,after,.same .crashed fun _ same => by cases same⟩

theorem currentFor (beside : Beside s v side e u w) {r : Nat} (own : s.registry r = side) {name : Option String}
    (called : ∀ x, name = some x → s.name x = side) :
    Answers s v side e (u.currentFor name r) (w.currentFor name r) := by
  have rel := beside.current own
  rw [World.currentFor,World.currentFor]
  revert rel
  generalize u.current? r = x
  generalize w.current? r = y
  rintro (stands | -)
  · obtain ⟨l,k,here,there,alike⟩ := beside.link stands
    dsimp only
    rw [here,there]
    cases name with
    | none => exact ⟨e,.refl side e,beside,.model (.some alike.model)⟩
    | some name => exact ⟨e,.refl side e,beside.bindName (called name rfl) stands,.model (.some alike.model)⟩
  · exact ⟨e,.refl side e,beside,.model .none⟩

theorem status (beside : Beside s v side e u w) (stands : Stands side e.links n m) : u.status? n = w.status? m := by
  obtain ⟨l,k,here,there,alike⟩ := beside.link stands
  rw [World.status?,World.status?,here,there,Option.map_some,Option.map_some,alike.live,alike.dead,
    beside.stopping stands]

theorem started (beside : Beside s v side e u w) {number : Nat} (own : s.number number = side) :
    number ∈ u.started ↔ number ∈ w.started := by
  cases side with
  | true =>
    have alike : Alike s e u w := beside
    have same := alike.started.any (f := (· = number)) (g := (· = number)) (fun a c alike => by rw [alike.1])
      fun c other => decide_eq_false fun same => by
        rw [same] at other
        exact absurd (own.symm.trans other.2) nofun
    simpa [List.any_eq] using congrArg (· = true) same
  | false => rw [beside.1]

theorem findTask (beside : Beside s v side e u w) {f : Option Task → Bool}
    (same : ∀ t k, Option.Rel (TaskAlike s e true) t k → f t = f k)
    (own : ∀ any t k, Option.Rel (TaskAlike s e any) t k → f k = true → any = side) :
    Option.Rel (Stands side e.tasks) (u.tasks.findIdx? f) (w.tasks.findIdx? f) := by
  cases side with
  | true =>
    exact (Drawn.tasks beside).findIdx? same fun k rel =>
      Bool.eq_false_iff.mpr fun holds => absurd (own false k k rel holds) nofun
  | false =>
    obtain ⟨rfl,alike⟩ := beside
    rcases found : u.tasks.findIdx? f with _ | id
    · exact .none
    · obtain ⟨inside,holds,-⟩ := List.findIdx?_eq_some_iff_getElem.mp found
      obtain ⟨any,t,marked,rel⟩ := alike.tasks.sided (List.getElem?_eq_getElem inside)
      obtain rfl := own any t _ rel holds
      exact .some ⟨marked,rfl⟩

theorem abort (beside : Beside s v side e u w) {number : Nat} (own : s.number number = side) :
    Beside s v side e (u.abort number) (w.abort number) := by
  have rel : Option.Rel (Stands side e.tasks)
      (u.tasks.findIdx? fun t => t.any fun t => t.label = some number)
      (w.tasks.findIdx? fun t => t.any fun t => t.label = some number) := by
    refine beside.findTask (fun t k rel => ?_) fun any t k rel holds => ?_
    · cases rel with
      | none => rfl
      | some alike => exact decide_eq_decide.mpr (by rw [alike.label])
    · cases rel with
      | none => cases holds
      | some alike => exact (alike.own number (of_decide_eq_true holds)).symm.trans own
  rw [World.abort,World.abort]
  revert rel
  generalize (u.tasks.findIdx? fun t => t.any fun t => t.label = some number) = x
  generalize (w.tasks.findIdx? fun t => t.any fun t => t.label = some number) = y
  rintro (stands | -)
  · refine (beside.modifyTask stands fun t k rel => ?_).wake stands
    cases rel with
    | none => exact .none
    | some alike => exact .some { alike with aborted := rfl }
  · exact beside

/-- A command of a side comes to the same in both worlds. -/
theorem perform (beside : Beside s v side e u w) {number : Nat} {c : Command} (own : s.of c = some side)
    (divides : s.Divides number c) : Answers s v side e (u.perform number c) (w.perform number c) := by
  cases c with
  | advance ms => cases own
  | outside o => cases own
  | create name r =>
    cases own
    exact beside.onRegistry rfl fun _ _ _ => beside.start divides.2 (.create rfl divides.1 .none)
  | current name r =>
    cases own
    refine beside.onRegistry rfl fun _ _ _ => beside.currentFor rfl fun x same => ?_
    subst same
    exact divides
  | registryConfig r =>
    cases own
    refine beside.onRegistry rfl fun a b alike => ?_
    rw [alike.config]
    exact beside.answers _ nofun
  | live name =>
    cases own
    exact beside.onLink rfl fun n m stands => beside.act (isLive_parallel stands) fun _ x y same => same ▸ .same _ nofun
  | setLive name on =>
    cases own
    exact beside.onLink rfl fun n m stands => beside.act (setLive_parallel stands on) fun _ _ _ _ => .same _ nofun
  | kill name =>
    cases own
    exact beside.onLink rfl fun n m stands => beside.act (kill_parallel stands) fun _ _ _ _ => .same _ nofun
  | model name =>
    cases own
    exact beside.onLink rfl fun n m stands => beside.act (modelOf_parallel stands) fun _ _ _ model => .model (.some model)
  | isDead name =>
    cases own
    refine beside.onLink rfl fun n m stands => ?_
    rw [beside.isDead stands]
    exact beside.answers _ nofun
  | status name =>
    cases own
    refine beside.onLink rfl fun n m stands => ?_
    rw [beside.status stands]
    cases w.status? m with
    | none => exact beside.answers _ nofun
    | some status => exact beside.answers _ nofun
  | debug name =>
    cases own
    refine beside.onLink rfl fun n m stands => ?_
    obtain ⟨l,k,here,there,alike⟩ := beside.link stands
    rw [here,there,Option.elim_some,Option.elim_some,alike.debug]
    exact beside.answers _ nofun
  | same name other =>
    cases own
    refine beside.onLink rfl fun n m stands => beside.onLink divides fun k l others => ?_
    rw [decide_eq_decide.mpr (stands.same_iff others)]
    exact beside.answers _ nofun
  | clone name new =>
    cases own
    exact beside.onLink rfl fun n m stands =>
      ⟨e,.refl _ e,beside.bindName divides stands,.same .nothing nofun⟩
  | drop name =>
    cases own
    exact beside.onLink rfl fun n m stands => ⟨e,.refl _ e,beside.dropName rfl,.same .nothing nofun⟩
  | update name =>
    cases own
    exact beside.onLink rfl fun n m stands => beside.start divides (.update stands .fresh)
  | uncache name =>
    cases own
    exact beside.onLink rfl fun n m stands => beside.start divides (.uncache stands .none)
  | stop name canSpawn =>
    cases own
    exact beside.onLink rfl fun n m stands => beside.stopFor divides stands canSpawn
  | wait handle =>
    cases own
    exact beside.onHandle rfl fun p q stands => beside.start divides (.wait stands)
  | continuation handle =>
    cases own
    exact beside.onHandle rfl fun p q stands => beside.start divides (.continuation stands)
  | cancel handle =>
    cases own
    exact beside.onHandle rfl fun p q stands => ⟨e,.refl _ e,beside.cancel stands,.same .nothing nofun⟩
  | dropHandle handle =>
    cases own
    have own : s.number handle = s.number handle := rfl
    have known : (u.handles.lookup handle).isSome = (w.handles.lookup handle).isSome := by
      have rel := beside.handle own
      revert rel
      generalize u.handles.lookup handle = x
      generalize w.handles.lookup handle = y
      rintro (- | -) <;> rfl
    have dropped := (beside.dropHandle own).answers (.flag (w.handles.lookup handle).isSome) nofun
    rw [World.perform,World.perform,known]
    exact dropped
  | abort task =>
    cases own
    have own : s.number task = s.number task := rfl
    rw [World.perform,World.perform]
    simp only [beside.started own]
    split
    · exact (beside.abort own).answers .nothing nofun
    · exact beside.answers .skipped nofun

end Beside
end EditorLink
