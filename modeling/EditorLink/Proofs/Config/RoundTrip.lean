import EditorLink.Proofs.Config.Decoding
import EditorLink.Proofs.Toml.Reading

/-! What is written is read back: each line adds the entry of its field, so the document says of every
field what the configuration has there, or nothing where that is the default. -/
namespace EditorLink

/-- A key and what it stands for, wherever they were written. -/
def Toml.Entry.pair (e : Toml.Entry Toml.Node) : String × Toml.Node := (e.key,e.node)

namespace Config
open Toml

variable {c : Config} {id : List Char} {fields : List Field} {field : Field}

theorem bare_key (field : Field) : BareKey field.key.toList := by
  cases field <;> exact ⟨by decide,List.all_eq_true.mp (by decide)⟩

theorem spelled_plainly (s : List Char) : Spelled s (s.flatMap writeChar) := by
  induction s with
  | nil => exact .nil
  | cons c s ih =>
    rw [List.flatMap_cons,writeChar]
    by_cases quote : c = '"'
    · rw [if_pos quote]
      exact .escape (.inl quote) (.short (by simp [shortEscapes,quote])) ih
    by_cases slash : c = '\\'
    · rw [if_neg quote,if_pos slash]
      exact .escape (.inr (.inl slash)) (.short (by simp [shortEscapes,slash])) ih
    rw [if_neg quote,if_neg slash]
    by_cases control : c.toNat < 0x20 ∨ c.toNat = 0x7F
    · rw [if_pos (by simpa using control)]
      refine .escape (.inr (.inr control)) (.four ?_) ih
      have small : c.toNat < 128 := by omega
      have lower : ∀ n : Fin 128, (hexPad 4 n.1).map Char.toLower = hexPad 4 n.1 := by decide
      exact lower ⟨c.toNat,small⟩
    · rw [if_neg (by simpa using control)]
      exact .plain (by simp [NeedsEscape,quote,slash,control]) ih

/-- What makes a configuration fit for a document. -/
structure Writable (c : Config) : Prop where
  valid : c.validate = .ok ()
  timeout : c.stopTimeout.toNat ≤ 9223372036854775807
  interval : c.pollInterval.toNat ≤ 9223372036854775807

theorem judged_of_valid (valid : c.validate = .ok ()) : c.judged = .ok c := by
  rw [← validate_judged,valid]
  rfl

theorem denotes_field (writable : c.Writable) (spelled : Spelled c.editorId.toList id) (field : Field) :
    Denotes (c.writeValue id field) (c.scalar field) := by
  obtain ⟨positive,within⟩ := positive_of_valid writable.valid
  cases field with
  | editorId =>
    have text := denotes_text spelled
    rwa [String.ofList_toList] at text
  | stopTimeout => exact denotes_integer (Nat.lt_of_lt_of_le positive within) (Int.ofNat_le.mpr writable.timeout)
  | pollInterval => exact denotes_integer positive (Int.ofNat_le.mpr writable.interval)
  | live => exact denotes_boolean c.live

theorem lines_written (entries : Entries) (writable : c.Writable) (spelled : Spelled c.editorId.toList id)
    (once : fields.Nodup) (new : ∀ field ∈ fields, field.key ∉ entries.map Entry.key) {fuel : Nat}
    (enough : fields.length < fuel) : ∃ more,
    lines fuel ⟨entries,[]⟩ (fields.flatMap (c.writeLine id)) = some (⟨entries ++ more,[]⟩,[]) ∧
    more.map Entry.pair = fields.map fun field => (field.key,.scalar (c.scalar field)) := by
  induction fields generalizing entries fuel with
  | nil =>
    obtain ⟨fuel,rfl⟩ := Nat.exists_eq_succ_of_ne_zero (Nat.ne_of_gt enough)
    exact ⟨[],by rw [List.append_nil]; rfl,rfl⟩
  | cons field fields ih =>
    obtain ⟨fuel,rfl⟩ := Nat.exists_eq_succ_of_ne_zero (Nat.ne_of_gt (Nat.zero_lt_of_lt enough))
    have mine : String.ofList field.key.toList ∉ entries.map Entry.key := by
      rw [String.ofList_toList]
      exact new field List.mem_cons_self
    obtain ⟨span,took⟩ := lines_took (fields.flatMap (c.writeLine id)) (bare_key field)
      (denotes_field writable spelled field) mine fuel
    rw [String.ofList_toList] at took
    obtain ⟨apart,once⟩ := List.nodup_cons.mp once
    have new' : ∀ other ∈ fields,
        other.key ∉ (entries ++ [(⟨field.key,span,.scalar (c.scalar field)⟩ : Entry Node)]).map Entry.key := by
      intro other member
      rw [List.map_append,List.mem_append,not_or]
      refine ⟨new other (List.mem_cons_of_mem field member),fun same => apart ?_⟩
      rw [List.map_singleton,List.mem_singleton] at same
      exact key_inj same ▸ member
    obtain ⟨more,rest,pairs⟩ := ih _ once new' (Nat.lt_of_succ_lt_succ enough)
    refine ⟨⟨field.key,span,.scalar (c.scalar field)⟩ :: more,?_,?_⟩
    · rw [List.flatMap_cons]
      refine took.trans (rest.trans ?_)
      rw [List.append_assoc,List.singleton_append]
    · rw [List.map_cons,List.map_cons,pairs]
      rfl

theorem length_lt_written (c : Config) (id : List Char) (fields : List Field) :
    fields.length ≤ (fields.flatMap (c.writeLine id)).length := by
  induction fields with
  | nil => exact Nat.le_refl 0
  | cons field fields ih =>
    have line : 1 ≤ (c.writeLine id field).length := by simp [writeLine]; omega
    rw [List.flatMap_cons,List.length_append,List.length_cons]
    omega

/-- No line starts with a byte order mark. -/
theorem withoutMark_written (c : Config) (id : List Char) (fields : List Field) :
    withoutMark (fields.flatMap (c.writeLine id)) = fields.flatMap (c.writeLine id) := by
  unfold withoutMark
  split
  · rename_i rest same
    cases fields with
    | nil => cases same
    | cons field fields =>
      obtain ⟨a,more,key,bare⟩ := (bare_key field).head
      rw [List.flatMap_cons,writeLine,key] at same
      have first : a = '\uFEFF' := (List.cons.inj same).1
      exact absurd first (bare_apart bare (by decide))
  · rfl

theorem said_of_pairs {entries : Entries} (once : fields.Nodup)
    (pairs : entries.map Entry.pair = fields.map fun field => (field.key,.scalar (c.scalar field))) (field : Field) :
    said? entries field = if field ∈ fields then some (.scalar (c.scalar field)) else none := by
  induction fields generalizing entries with
  | nil =>
    rw [List.map_eq_nil_iff.mp pairs]
    rfl
  | cons first fields ih =>
    obtain ⟨e,rest,rfl,pair,pairs⟩ := List.map_eq_cons_iff.mp pairs
    obtain ⟨key,node⟩ := Prod.mk.inj pair
    by_cases same : field = first
    · subst same
      rw [said_here key.symm,node,if_pos List.mem_cons_self]
    · rw [said_later fun also => same (key_inj (also.trans key)),ih (List.nodup_cons.mp once).2 pairs]
      simp [same]

theorem scalar_default {field : Field} (default : c.IsDefault field) : ({} : Config).scalar field = c.scalar field := by
  cases field <;> simp only [scalar,show _ = _ from default]

/-- The reader finds the entries of the fields that are written, in their order. -/
theorem read_written (writable : c.Writable) (spelled : Spelled c.editorId.toList id) (once : fields.Nodup) :
    ∃ entries, read? (c.writeAs id fields) = some entries ∧
      entries.map Entry.pair = fields.map fun field => (field.key,.scalar (c.scalar field)) := by
  obtain ⟨entries,read,pairs⟩ := lines_written [] writable spelled once (fun _ _ => List.not_mem_nil)
    (Nat.lt_succ_of_le (length_lt_written c id fields))
  refine ⟨entries,?_,pairs⟩
  rw [writeAs,read?,String.toList_ofList,withoutMark_written,read]
  rfl

/-- Every field takes what a configuration has there. -/
theorem takes_own (c : Config) (field : Field) : field.Takes (.scalar (c.scalar field)) := by
  cases field with
  | editorId => exact ⟨_,rfl⟩
  | stopTimeout => exact ⟨_,Int.natCast_nonneg _,rfl⟩
  | pollInterval => exact ⟨_,Int.natCast_nonneg _,rfl⟩
  | live => exact ⟨_,rfl⟩

/-- Take a configuration that is valid and whose numbers a document can hold. However the identifier is spelled
between quotes, in whatever order the lines come, and whichever of the lines with defaults are left out, the
document is read as that very configuration. -/
theorem written_is_read {c : Config} {fields : List Field} (writable : c.Writable) (once : fields.Nodup)
    (omitted : ∀ field, field ∉ fields → c.IsDefault field) :
    (∀ id, Spelled c.editorId.toList id → ofDocument (c.writeAs id fields) = .ok c) ∧
    ofDocument (c.write fields) = .ok c := by
  have back (id : List Char) (spelled : Spelled c.editorId.toList id) : ofDocument (c.writeAs id fields) = .ok c := by
    obtain ⟨entries,accepted,pairs⟩ := read_written writable spelled once
    have said := said_of_pairs once pairs
    have takes (field : Field) (node : Node) (is : said? entries field = some node) : field.Takes node := by
      rw [said] at is
      split at is
      · cases is
        exact c.takes_own field
      · cases is
    obtain ⟨d,has,judged⟩ := ofDocument_ok accepted takes
    have equal : d = c := by
      refine eq_of_scalars fun field => Node.scalar.inj ?_
      rw [has,said]
      by_cases member : field ∈ fields
      · rw [if_pos member,Option.getD_some]
      · rw [if_neg member,Option.getD_none,scalar_default (omitted field member)]
    rw [judged,equal,judged_of_valid writable.valid]
  exact ⟨back,back _ (spelled_plainly c.editorId.toList)⟩

/-- Half of the lines are left out, and the others are in reverse. -/
def quoted : Config := { editorId := "a\"b\\\x01é\t", live := false }

theorem quoted_is_read : quoted.Writable ∧ ofDocument (quoted.write [.live, .editorId]) = .ok quoted ∧
    quoted.write [.live, .editorId] = "live = false\neditor_id = \"a\\\"b\\\\\\u0001é\\u0009\"\n" ∧
    ofDocument "live = false\neditor_id = \"a\\u0022b\\\\\\U00000001é\\t\"\n" = .ok quoted := by
  have writable : quoted.Writable := ⟨rfl,by decide,by decide⟩
  have omitted (field : Field) (other : field ∉ [Field.live, Field.editorId]) : quoted.IsDefault field := by
    cases field with
    | editorId => exact absurd (by decide) other
    | live => exact absurd (by decide) other
    | stopTimeout => rfl
    | pollInterval => rfl
  obtain ⟨back,same⟩ := written_is_read writable (by decide : [Field.live, Field.editorId].Nodup) omitted
  have free (c : Char) (is : c = 'a' ∨ c = 'b' ∨ c = 'é') : ¬ NeedsEscape c := by
    rcases is with rfl | rfl | rfl <;> decide
  let text : List Char := ['a', '\\', 'u', '0', '0', '2', '2', 'b', '\\', '\\',
    '\\', 'U', '0', '0', '0', '0', '0', '0', '0', '1', 'é', '\\', 't']
  have spelled : Spelled quoted.editorId.toList text := by
    rw [show quoted.editorId.toList = ['a', '"', 'b', '\\', '\x01', 'é', '\t'] by decide +kernel]
    exact .plain (free _ (by decide)) <| .escape (by decide) (@Escaped.four _ ['0', '0', '2', '2'] (by decide)) <|
      .plain (free _ (by decide)) <| .escape (by decide) (.short (by decide)) <|
      .escape (by decide) (@Escaped.eight _ ['0', '0', '0', '0', '0', '0', '0', '1'] (by decide)) <|
      .plain (free _ (by decide)) <| .escape (by decide) (.short (by decide)) .nil
  have document : "live = false\neditor_id = \"a\\u0022b\\\\\\U00000001é\\t\"\n" =
      quoted.writeAs text [.live, .editorId] := by decide +kernel
  exact ⟨writable,same,by decide +kernel,document ▸ back text spelled⟩

end Config
end EditorLink
