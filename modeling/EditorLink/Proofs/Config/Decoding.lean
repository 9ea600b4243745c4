import EditorLink.Config.Storage
import EditorLink.Link.Session
import EditorLink.Proofs.Toml.Proper

/-! Reading a configuration comes down to what the document says of each field: with a value that the
field does not take there is nothing to be had, and otherwise the values and the defaults are put
together and judged by the rules. Nothing else in the document makes a difference. -/
namespace EditorLink

/-- Tables and arrays hold no scalar. -/
def Toml.Node.scalar? : Toml.Node → Option Toml.Scalar
  | .scalar v => some v
  | _ => none

theorem Toml.Node.scalar?_eq_some {node : Toml.Node} {v : Toml.Scalar} :
    node.scalar? = some v ↔ node = .scalar v := by
  cases node <;> simp [Toml.Node.scalar?]

namespace Config
open Toml

/-- A text, a number that is not negative, or a truth value. -/
def Field.Takes : Field → Node → Prop
  | .editorId, node => ∃ s, node = .scalar (.text s)
  | .stopTimeout, node => ∃ i, 0 ≤ i ∧ node = .scalar (.integer i)
  | .pollInterval, node => ∃ i, 0 ≤ i ∧ node = .scalar (.integer i)
  | .live, node => ∃ b, node = .scalar (.boolean b)

/-- What a document says of a field. -/
def said? (entries : Entries) (field : Field) : Option Node :=
  (entries.find? field.key).map Entry.node

/-- What the configuration has in a field. -/
def scalar (c : Config) : Field → Scalar
  | .editorId => .text c.editorId
  | .stopTimeout => .integer c.stopTimeout.toNat
  | .pollInterval => .integer c.pollInterval.toNat
  | .live => .boolean c.live

/-- The configuration itself, or the first thing that is wrong with it. -/
def judged (c : Config) : Except ConfigError Config :=
  if Text.allBlank c.editorId then .error (.invalid "editor_id" "must not be empty")
  else if c.stopTimeout = 0 then .error (.invalid "process_kill_timeout_ms" "must be greater than 0")
  else if c.pollInterval = 0 then .error (.invalid "kill_poll_interval_ms" "must be greater than 0")
  else if c.stopTimeout < c.pollInterval then
    .error (.invalid "kill_poll_interval_ms" "must not exceed process_kill_timeout_ms")
  else .ok c

/-- Two documents say the same of every field, as far as scalars go. -/
def SayTheSame (entries others : Entries) : Prop :=
  ∀ field, (said? entries field).map Node.scalar? = (said? others field).map Node.scalar?

/-- The same but for the report of a value of a wrong kind. -/
def AlikeButReport (a b : Except ConfigError Config) : Prop :=
  a = b ∨ ∃ f g, a = .error (.unparsed f) ∧ b = .error (.unparsed g)

variable {c d : Config} {entries others rest : Entries} {field : Field} {node : Node}
  {document : String}

theorem eq_of_scalars (same : ∀ field, c.scalar field = d.scalar field) : c = d := by
  have id : c.editorId = d.editorId := Scalar.text.inj (same .editorId)
  have timeout : c.stopTimeout = d.stopTimeout :=
    UInt64.toNat_inj.mp (Int.ofNat.inj (Scalar.integer.inj (same .stopTimeout)))
  have interval : c.pollInterval = d.pollInterval :=
    UInt64.toNat_inj.mp (Int.ofNat.inj (Scalar.integer.inj (same .pollInterval)))
  have live : c.live = d.live := Scalar.boolean.inj (same .live)
  cases c
  cases d
  cases id
  cases timeout
  cases interval
  cases live
  rfl

theorem takes_scalar (takes : field.Takes node) : ∃ v, node = .scalar v := by
  cases field with
  | editorId => exact takes.imp' _ fun _ same => same
  | stopTimeout => exact takes.imp' _ fun _ both => both.2
  | pollInterval => exact takes.imp' _ fun _ both => both.2
  | live => exact takes.imp' _ fun _ same => same

/-! One field. -/

theorem key_inj {f g : Field} (same : f.key = g.key) : f = g := by
  revert same
  cases f <;> cases g <;> decide

theorem ofKey?_some {key : String} (found : Field.ofKey? key = some field) : field.key = key := by
  simpa using List.find?_some found

theorem ofKey?_none {key : String} (missing : Field.ofKey? key = none) (field : Field) : field.key ≠ key := by
  have other := List.find?_eq_none.mp missing field (by cases field <;> decide)
  simpa using other

theorem toNat_of_fits {i : Int} (positive : 0 ≤ i) (fits : i ≤ greatestInteger) :
    ((UInt64.ofNat i.toNat).toNat : Int) = i := by
  have bound : i.toNat < 2 ^ 64 := by
    unfold greatestInteger at fits
    omega
  rw [UInt64.toNat_ofNat_of_lt' bound]
  exact Int.toNat_of_nonneg positive

theorem millis_ok {i : Int} (positive : 0 ≤ i) :
    millis? field (.scalar (.integer i)) = .ok (UInt64.ofNat i.toNat) := if_pos positive

theorem millis_error (field : Field) (other : ¬ ∃ i, 0 ≤ i ∧ node = .scalar (.integer i)) :
    ∃ mismatch, millis? field node = .error mismatch := by
  unfold millis?
  split
  · rename_i i
    split
    · rename_i positive
      exact absurd ⟨i,positive,rfl⟩ other
    · exact ⟨_,rfl⟩
  · exact ⟨_,rfl⟩

/-- A value that the field takes is what the field has from then on. -/
theorem set_ok (takes : field.Takes node) (fits : node.IntegerFits) (c : Config) :
    ∃ d, c.set? field node = .ok d ∧ node = .scalar (d.scalar field) ∧
      ∀ other, other ≠ field → d.scalar other = c.scalar other := by
  have apart {f : Field} {d : Config} (same : ∀ other, other = f ∨ d.scalar other = c.scalar other)
      (other : Field) (differs : other ≠ f) : d.scalar other = c.scalar other :=
    (same other).resolve_left differs
  cases field with
  | editorId =>
    obtain ⟨s,rfl⟩ := takes
    exact ⟨{ c with editorId := s },rfl,rfl,apart fun other => by cases other <;> simp [scalar]⟩
  | stopTimeout =>
    obtain ⟨i,positive,rfl⟩ := takes
    refine ⟨{ c with stopTimeout := UInt64.ofNat i.toNat },?_,?_,
      apart fun other => by cases other <;> simp [scalar]⟩
    · rw [set?,millis_ok positive]
      rfl
    · rw [scalar,toNat_of_fits positive (fits i rfl)]
  | pollInterval =>
    obtain ⟨i,positive,rfl⟩ := takes
    refine ⟨{ c with pollInterval := UInt64.ofNat i.toNat },?_,?_,
      apart fun other => by cases other <;> simp [scalar]⟩
    · rw [set?,millis_ok positive]
      rfl
    · rw [scalar,toNat_of_fits positive (fits i rfl)]
  | live =>
    obtain ⟨b,rfl⟩ := takes
    exact ⟨{ c with live := b },rfl,rfl,apart fun other => by cases other <;> simp [scalar]⟩

theorem set_error (refuses : ¬ field.Takes node) (c : Config) :
    ∃ mismatch, c.set? field node = .error mismatch := by
  cases field with
  | editorId =>
    unfold set?
    dsimp only
    split
    · rename_i s
      exact absurd ⟨s,rfl⟩ refuses
    · exact ⟨_,rfl⟩
  | stopTimeout =>
    obtain ⟨mismatch,fails⟩ := millis_error .stopTimeout refuses
    exact ⟨mismatch,by rw [set?,fails]; rfl⟩
  | pollInterval =>
    obtain ⟨mismatch,fails⟩ := millis_error .pollInterval refuses
    exact ⟨mismatch,by rw [set?,fails]; rfl⟩
  | live =>
    unfold set?
    dsimp only
    split
    · rename_i b
      exact absurd ⟨b,rfl⟩ refuses
    · exact ⟨_,rfl⟩

/-! All entries. -/

theorem said_here {e : Entry Node} (mine : field.key = e.key) : said? (e :: rest) field = some e.node := by
  simp [said?,Entries.find?,mine]

theorem said_later {e : Entry Node} (other : field.key ≠ e.key) : said? (e :: rest) field = said? rest field := by
  rw [said?,said?,Entries.find?,Entries.find?,List.find?_cons_of_neg (by simpa using other.symm)]

theorem unsaid (missing : field.key ∉ entries.map Entry.key) : said? entries field = none := by
  rw [said?,Entries.find?_eq_none.mpr missing]
  rfl

theorem Proper.tail {e : Entry Node} (proper : Entries.Proper (e :: rest)) :
    Entries.Proper rest ∧ e.key ∉ rest.map Entry.key := by
  have keys : ((e :: rest).map Entry.key).Nodup := proper.keys
  rw [List.map_cons,List.nodup_cons] at keys
  exact ⟨⟨keys.2,fun x member => proper.fits x (List.mem_cons_of_mem e member)⟩,keys.1⟩

theorem decode_ok (proper : Entries.Proper entries)
    (takes : ∀ field node, said? entries field = some node → field.Takes node) (c : Config) :
    ∃ d, decode c entries = .ok d ∧
      ∀ field, .scalar (d.scalar field) = (said? entries field).getD (.scalar (c.scalar field)) := by
  induction entries generalizing c with
  | nil => exact ⟨c,rfl,fun field => rfl⟩
  | cons e rest ih =>
    obtain ⟨proper',new⟩ := Proper.tail proper
    unfold decode
    cases known : Field.ofKey? e.key with
    | none =>
      have later (field : Field) : said? (e :: rest) field = said? rest field :=
        said_later (ofKey?_none known field)
      obtain ⟨d,decoded,has⟩ := ih proper' (fun field node said => takes field node (by rw [later,said])) c
      exact ⟨d,decoded,fun field => by rw [later,has]⟩
    | some field =>
      have mine := ofKey?_some known
      have later (other : Field) (differs : other ≠ field) : said? (e :: rest) other = said? rest other :=
        said_later fun same => differs (key_inj (same.trans mine.symm))
      have gone : said? rest field = none := unsaid (mine ▸ new)
      obtain ⟨c',set,value,kept⟩ :=
        set_ok (takes field e.node (said_here mine)) (proper.fits e List.mem_cons_self) c
      have takes' (other : Field) (node : Node) (said : said? rest other = some node) : other.Takes node := by
        refine takes other node ?_
        rw [later other,said]
        rintro rfl
        simp [gone] at said
      obtain ⟨d,decoded,has⟩ := ih proper' takes' c'
      dsimp only
      rw [set]
      refine ⟨d,decoded,fun other => ?_⟩
      by_cases same : other = field
      · subst same
        rw [has,gone,said_here mine,Option.getD_none,Option.getD_some,value]
      · rw [has,later other same,kept other same]

theorem decode_error (proper : Entries.Proper entries) (said : said? entries field = some node)
    (refuses : ¬ field.Takes node) (c : Config) : ∃ e, decode c entries = .error e := by
  induction entries generalizing c with
  | nil => cases said
  | cons e rest ih =>
    obtain ⟨proper',new⟩ := Proper.tail proper
    unfold decode
    cases known : Field.ofKey? e.key with
    | none =>
      rw [said_later (ofKey?_none known field)] at said
      exact ih proper' said c
    | some other =>
      have mine := ofKey?_some known
      dsimp only
      by_cases same : field = other
      · subst same
        rw [said_here mine] at said
        cases said
        obtain ⟨mismatch,fails⟩ := set_error refuses c
        rw [fails]
        exact ⟨_,rfl⟩
      · rw [said_later fun same' => same (key_inj (same'.trans mine.symm))] at said
        cases c.set? other e.node with
        | error mismatch => exact ⟨_,rfl⟩
        | ok d => exact ih proper' said d

/-! The whole document. -/

theorem validate_judged (c : Config) : (do c.validate; return c) = c.judged := by
  have within : ¬ c.pollInterval ≤ c.stopTimeout ↔ c.stopTimeout < c.pollInterval := UInt64.not_le
  unfold validate firstBroken? judged Rule.all
  by_cases blank : Text.allBlank c.editorId = true
  · simp [List.find?,Rule.Holds,blank]
    rfl
  by_cases timeout : c.stopTimeout = 0
  · simp [List.find?,Rule.Holds,blank,timeout]
    rfl
  by_cases interval : c.pollInterval = 0
  · simp [List.find?,Rule.Holds,blank,timeout,interval]
    rfl
  by_cases long : c.stopTimeout < c.pollInterval
  · simp [List.find?,Rule.Holds,blank,timeout,interval,long,within]
    rfl
  · simp only [List.find?,Rule.Holds,blank,not_true_eq_false,decide_false,ne_eq,timeout,not_false_eq_true,interval,
      within,long,bind_pure_comp,Bool.false_eq_true,if_false]
    rfl

theorem ofDocument_ok (accepted : read? document = some entries)
    (takes : ∀ field node, said? entries field = some node → field.Takes node) :
    ∃ c : Config, (∀ field, .scalar (c.scalar field) =
        (said? entries field).getD (.scalar (({} : Config).scalar field))) ∧
      ofDocument document = c.judged := by
  obtain ⟨c,decoded,has⟩ := decode_ok (proper_of_read accepted) takes {}
  refine ⟨c,has,?_⟩
  rw [ofDocument,accepted]
  dsimp only
  rw [decoded]
  exact validate_judged c

theorem ofDocument_error (accepted : read? document = some entries) (said : said? entries field = some node)
    (refuses : ¬ field.Takes node) : ∃ fault, ofDocument document = .error (.unparsed fault) := by
  obtain ⟨e,fails⟩ := decode_error (proper_of_read accepted) said refuses {}
  refine ⟨.mistyped ((Excerpt.of document e.1).render e.2.message),?_⟩
  rw [ofDocument,accepted]
  dsimp only
  rw [fails]

theorem judged_parsed (c : Config) (fault : DocumentFault) : c.judged ≠ .error (.unparsed fault) := by
  unfold judged
  repeat' split
  all_goals nofun

theorem judged_ok (sound : c.judged = .ok d) : d.validate = .ok () := by
  rw [← validate_judged] at sound
  cases valid : c.validate with
  | error e =>
    rw [valid] at sound
    cases sound
  | ok _ =>
    rw [valid] at sound
    cases sound
    exact valid

theorem ofDocument_valid (found : ofDocument document = .ok c) : c.validate = .ok () := by
  unfold ofDocument at found
  split at found
  · cases found
  · split at found
    · cases found
    · rename_i d decoded
      exact judged_ok ((validate_judged d).symm.trans found)

theorem load_valid {storage : Storage} {path : String} (found : load storage path = .ok c) :
    c.validate = .ok () := by
  unfold load at found
  split at found
  · cases found
    rfl
  · cases found
  · split at found
    · cases found
    · exact ofDocument_valid found

/-- A registry can be made with the configuration. -/
def Accepted (c : Config) : Prop := ∀ s : Setting, ∃ w, { s with configs := [c] : Setting }.world = .ok w

theorem accepted_of_valid (valid : c.validate = .ok ()) : c.Accepted := by
  intro s
  refine ⟨{ s with configs := [c] : Setting }.start,?_⟩
  simp only [Setting.world,List.forIn_cons,valid]
  rfl

theorem takes_alike (same : SayTheSame entries others)
    (takes : ∀ field node, said? entries field = some node → field.Takes node) :
    ∀ field, said? others field = said? entries field := by
  intro field
  have alike := same field
  cases mine : said? entries field with
  | none =>
    rw [mine,Option.map_none] at alike
    exact Option.map_eq_none_iff.mp alike.symm
  | some node =>
    obtain ⟨v,rfl⟩ := takes_scalar (takes field node mine)
    rw [mine,Option.map_some] at alike
    obtain ⟨node,theirs,holds⟩ := Option.map_eq_some_iff.mp alike.symm
    rw [theirs,Node.scalar?_eq_some.mp holds]

theorem agree_of_same {other : String} (accepted : read? document = some entries)
    (read : read? other = some others) (same : SayTheSame entries others) :
    AlikeButReport (ofDocument document) (ofDocument other) := by
  by_cases takes : ∀ field node, said? entries field = some node → field.Takes node
  · have alike := takes_alike same takes
    obtain ⟨c,has,judged⟩ := ofDocument_ok accepted takes
    obtain ⟨d,has',judged'⟩ := ofDocument_ok read fun field node said => takes field node (alike field ▸ said)
    have equal : c = d := eq_of_scalars fun field => Node.scalar.inj (by rw [has,has',alike])
    exact .inl (by rw [judged,judged',equal])
  · simp only [Classical.not_forall] at takes
    obtain ⟨field,node,said,refuses⟩ := takes
    obtain ⟨f,fails⟩ := ofDocument_error accepted said refuses
    -- what the other document says there is no better
    obtain ⟨node',said',refuses'⟩ : ∃ node', said? others field = some node' ∧ ¬ field.Takes node' := by
      have alike := same field
      rw [said,Option.map_some] at alike
      obtain ⟨node',said',holds⟩ := Option.map_eq_some_iff.mp alike.symm
      refine ⟨node',said',fun takes => refuses ?_⟩
      obtain ⟨v,rfl⟩ := takes_scalar takes
      exact Node.scalar?_eq_some.mp holds.symm ▸ takes
    obtain ⟨g,fails'⟩ := ofDocument_error read said' refuses'
    exact .inr ⟨f,g,fails,fails'⟩

/-- Take a document that the reader accepts. But for the report of a value of a wrong kind, any other one that
says the same of the fields gives the same. There is such a report if and only if a field does not take what
is said of it. Otherwise every field has what is said of it, or its default, and the rules judge the whole.
Whatever comes out in the end is a configuration that registries accept. -/
theorem decoding_is_exact {document : String} {entries : Entries} (accepted : read? document = some entries) :
    (∀ other others, read? other = some others → SayTheSame entries others →
      AlikeButReport (ofDocument document) (ofDocument other)) ∧
    ((∃ fault, ofDocument document = .error (.unparsed fault)) ↔
      ∃ field node, said? entries field = some node ∧ ¬ field.Takes node) ∧
    ((∀ field node, said? entries field = some node → field.Takes node) →
      ∃ c : Config, (∀ field, .scalar (c.scalar field) =
          (said? entries field).getD (.scalar (({} : Config).scalar field))) ∧
        ofDocument document = c.judged) ∧
    (∀ c, ((∃ document, ofDocument document = .ok c) ∨ ∃ storage path, load storage path = .ok c) →
      c.validate = .ok () ∧ c.Accepted) := by
  refine ⟨fun other others => agree_of_same accepted,⟨fun ⟨fault,fails⟩ => ?_,?_⟩,ofDocument_ok accepted,?_⟩
  · refine Classical.byContradiction fun fine => ?_
    obtain ⟨c,-,judged⟩ := ofDocument_ok accepted fun field node said =>
      Classical.byContradiction fun refuses => fine ⟨field,node,said,refuses⟩
    exact judged_parsed c fault (judged.symm.trans fails)
  · rintro ⟨field,node,said,refuses⟩
    exact ofDocument_error accepted said refuses
  · intro c found
    have valid : c.validate = .ok () := by
      rcases found with ⟨document,found⟩ | ⟨storage,path,found⟩
      · exact ofDocument_valid found
      · exact load_valid found
    exact ⟨valid,accepted_of_valid valid⟩

/-- The fields are given out of order, among unknown keys, and one of them in hexadecimal. -/
def halfSecond : String :=
  "other = [1, \x7b live = 2 \x7d]\nlive = false # for now\n\nprocess_kill_timeout_ms = 0x1F4\n[table]\nlive = 3\n"

theorem half_second_is_read : ∃ entries, read? halfSecond = some entries ∧
    (∀ field, said? entries field = match field with
      | .stopTimeout => some (.scalar (.integer 500))
      | .live => some (.scalar (.boolean false))
      | _ => none) ∧
    ofDocument halfSecond = .ok { stopTimeout := 500, live := false } := by
  have found : (read? halfSecond).isSome = true := by decide +kernel
  obtain ⟨entries,accepted⟩ := Option.isSome_iff_exists.mp found
  have read : entries = (read? halfSecond).getD [] := by rw [accepted]; rfl
  have said (field : Field) : said? entries field = match field with
      | .stopTimeout => some (.scalar (.integer 500))
      | .live => some (.scalar (.boolean false))
      | _ => none := by
    have scalar : ((said? entries field).map Node.scalar?) = match field with
        | .stopTimeout => some (some (.integer 500))
        | .live => some (some (.boolean false))
        | _ => none := by
      rw [read]
      cases field <;> decide +kernel
    cases field <;> simpa [Node.scalar?_eq_some] using scalar
  have takes (field : Field) (node : Node) (is : said? entries field = some node) : field.Takes node := by
    rw [said field] at is
    cases field <;> cases is
    · exact ⟨500,by decide,rfl⟩
    · exact ⟨false,rfl⟩
  obtain ⟨c,has,judged⟩ := (decoding_is_exact accepted).2.2.1 takes
  have equal : c = { stopTimeout := 500, live := false } := eq_of_scalars fun field =>
    Node.scalar.inj (by rw [has,said]; cases field <;> rfl)
  refine ⟨entries,accepted,said,?_⟩
  rw [judged,equal]
  rfl

end Config
end EditorLink
