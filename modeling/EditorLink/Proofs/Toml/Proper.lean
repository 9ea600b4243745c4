import EditorLink.Toml.Document

/-! What holds of the entries of every document: no key comes twice, and integers are as large as the
format allows at most. -/
namespace EditorLink.Toml

/-! A scanner that reads something is one that does so on some text. -/

/-- Whatever the scanner reads has the property. -/
def Scan.Ensures {α : Type} (P : α → Prop) (p : Scan α) : Prop :=
  ∀ s a rest, p s = some (a,rest) → P a

section
variable {α β : Type} {P : β → Prop}

theorem scan_bind (p : Scan α) (f : α → Scan β) (s : List Char) :
    (p >>= f) s = (p s).bind fun read => f read.1 read.2 := rfl

theorem ensures_bind {p : Scan α} {f : α → Scan β} (Q : α → Prop) (first : p.Ensures Q)
    (next : ∀ a, Q a → (f a).Ensures P) : (p >>= f).Ensures P := by
  intro s b rest read
  rw [scan_bind] at read
  obtain ⟨⟨a,left⟩,took,goes⟩ := Option.bind_eq_some_iff.mp read
  exact next a (first s a left took) left b rest goes

theorem ensures_then {p : Scan α} {f : α → Scan β} (next : ∀ a, (f a).Ensures P) :
    (p >>= f).Ensures P :=
  ensures_bind (fun _ => True) (fun _ _ _ _ => trivial) fun a _ => next a

theorem ensures_pure {b : β} (holds : P b) : (pure b : Scan β).Ensures P := by
  intro s a rest read
  cases read
  exact holds

theorem ensures_refuse : (refuse : Scan β).Ensures P := nofun

theorem ensures_orElse {p q : Scan β} (one : p.Ensures P) (other : q.Ensures P) :
    (p <|> q).Ensures P := by
  intro s a rest read
  have either : (p s <|> q s) = some (a,rest) := read
  cases took : p s with
  | none =>
    rw [took] at either
    exact other s a rest either
  | some x =>
    rw [took] at either
    exact one s a rest (took.trans either)

theorem ensures_lift {x : Option β} (holds : ∀ b, x = some b → P b) : (lift x).Ensures P := by
  cases x with
  | none => exact ensures_refuse
  | some b => exact ensures_pure (holds b rfl)

theorem ensures_spanned {p : Scan β} (holds : p.Ensures P) : (spanned p).Ensures fun x => P x.1 := by
  intro s a rest read
  unfold spanned at read
  cases took : p s with
  | none =>
    rw [took] at read
    cases read
  | some x =>
    rw [took] at read
    cases read
    exact holds s x.1 x.2 took

end

/-! Values. -/

/-- An integer is no larger than the format allows. -/
def Node.IntegerFits (node : Node) : Prop := ∀ i, node = .scalar (.integer i) → i ≤ greatestInteger

theorem inRange_le {n i : Int} (found : inRange? n = some i) : i ≤ greatestInteger := by
  unfold inRange? at found
  split at found
  · cases found
    rename_i inside
    exact inside.2
  · cases found

theorem based_ensures (base : Nat) (isDigit : Char → Bool) :
    Scan.Ensures (· ≤ greatestInteger) (based base isDigit) := by
  intro s i rest read
  obtain ⟨_,-,read⟩ := Option.bind_eq_some_iff.mp read
  obtain ⟨j,found,same⟩ := Option.bind_eq_some_iff.mp read
  cases same
  exact inRange_le found

theorem integer_ensures : integer.Ensures (· ≤ greatestInteger) := by
  intro s i rest read
  unfold integer at read
  split at read
  · exact based_ensures _ _ _ i rest read
  · exact based_ensures _ _ _ i rest read
  · exact based_ensures _ _ _ i rest read
  · obtain ⟨_,-,read⟩ := Option.bind_eq_some_iff.mp read
    obtain ⟨_,-,read⟩ := Option.bind_eq_some_iff.mp read
    obtain ⟨j,found,same⟩ := Option.bind_eq_some_iff.mp read
    cases same
    exact inRange_le found

theorem scalar_ensures : scalar.Ensures fun v => Node.IntegerFits (.scalar v) := by
  refine ensures_then fun c => ?_
  split
  · exact ensures_then fun _ => ensures_pure nofun
  · exact ensures_then fun _ => ensures_pure nofun
  · exact ensures_then fun _ => ensures_pure nofun
  · exact ensures_then fun _ => ensures_pure nofun
  · refine ensures_orElse ?_ (ensures_orElse ?_ ?_)
    · exact ensures_then fun _ => ensures_pure nofun
    · exact ensures_then fun _ => ensures_pure nofun
    · refine ensures_bind _ integer_ensures fun i least => ensures_pure fun j same => ?_
      cases same
      exact least

theorem value_ensures (depth : Nat) : (value depth).Ensures Node.IntegerFits := by
  have plain : Scan.Ensures Node.IntegerFits (do return .scalar (← scalar)) :=
    ensures_bind _ scalar_ensures fun _ fits => ensures_pure fits
  cases depth with
  | zero =>
    refine ensures_then fun c => ?_
    split
    · exact ensures_refuse
    · exact ensures_refuse
    · exact plain
  | succ depth =>
    refine ensures_then fun c => ?_
    split
    · exact ensures_then fun _ => ensures_then fun _ => ensures_then fun _ => ensures_pure nofun
    · refine ensures_then fun _ => ensures_then fun _ => ensures_then fun closed => ?_
      split
      · exact ensures_pure nofun
      · exact ensures_then fun _ => ensures_then fun _ => ensures_pure nofun
    · exact plain

/-! Entries. -/

namespace Entries

structure Proper (entries : Entries) : Prop where
  keys : (entries.map Entry.key).Nodup
  fits : ∀ e ∈ entries, e.node.IntegerFits

def Change.KeepsProper (change : Change) : Prop :=
  ∀ here entries after, Proper entries → change here entries = some after → Proper after

variable {entries : Entries} {key : String}

theorem proper_nil : Proper [] := ⟨List.nodup_nil,nofun⟩

theorem find?_eq_none : find? entries key = none ↔ key ∉ entries.map Entry.key := by
  simp [find?]

theorem Proper.push (proper : Proper entries) {e : Entry Node} (new : find? entries e.key = none)
    (fits : e.node.IntegerFits) : Proper (entries ++ [e]) where
  keys := by
    rw [List.map_append,List.map_singleton,List.nodup_append]
    refine ⟨proper.keys,by simp,fun k old l last => ?_⟩
    rintro rfl
    rw [List.mem_singleton.mp last] at old
    exact find?_eq_none.mp new old
  fits e' member := by
    rcases List.mem_append.mp member with old | last
    · exact proper.fits e' old
    · rw [List.mem_singleton.mp last]
      exact fits

theorem Proper.replace (proper : Proper entries) {f : Entry Node → Entry Node}
    (same : ∀ e, (f e).key = e.key) (fits : ∀ e, (f e).node.IntegerFits) :
    Proper (replace entries key f) where
  keys := by
    have kept : (Entries.replace entries key f).map Entry.key = entries.map Entry.key := by
      rw [Entries.replace,List.map_map]
      refine List.map_congr_left fun e _ => ?_
      dsimp only [Function.comp]
      split
      · exact same e
      · rfl
    rw [kept]
    exact proper.keys
  fits e' member := by
    obtain ⟨e,old,rfl⟩ := List.mem_map.mp member
    split
    · exact fits e
    · exact proper.fits e old

theorem Proper.filter (proper : Proper entries) (p : Entry Node → Bool) : Proper (entries.filter p) where
  keys := proper.keys.sublist (List.filter_sublist.map Entry.key)
  fits e member := proper.fits e (List.mem_filter.mp member).1

/-- What happens in a table further down does not matter. -/
theorem descend_keeps (form : Form) (path : List Part) {change : Change}
    (keeps : path = [] → change.KeepsProper) : (descend form path change).KeepsProper := by
  intro here entries after proper made
  cases path with
  | nil => exact keeps rfl here entries after proper made
  | cons part path =>
    unfold descend at made
    split at made
    · rename_i new
      obtain ⟨inner,-,same⟩ := Option.bind_eq_some_iff.mp made
      cases same
      exact proper.push new nofun
    · split at made
      · cases made
      · obtain ⟨inner,-,same⟩ := Option.bind_eq_some_iff.mp made
        cases same
        exact proper.replace (fun _ => rfl) fun _ => nofun
    · obtain ⟨last,-,rest⟩ := Option.bind_eq_some_iff.mp made
      obtain ⟨last,-,same⟩ := Option.bind_eq_some_iff.mp rest
      cases same
      exact proper.replace (fun _ => rfl) fun _ => nofun
    · cases made

theorem insert_keeps (path : List Part) (last : Part) (span : Span) {node : Node} (fits : node.IntegerFits) :
    (insert path last span node).KeepsProper := by
  refine descend_keeps .dotted path fun _ here entries after proper made => ?_
  unfold add at made
  split at made
  · rename_i both
    cases made
    exact proper.push (Option.isNone_iff_eq_none.mp both.2) fits
  · cases made

theorem openTable_keeps (path : List Part) (last : Part) (span : Span) :
    (openTable path last span).KeepsProper := by
  refine descend_keeps .implied path fun _ here entries after proper made => ?_
  split at made
  · rename_i new
    cases made
    exact proper.push new nofun
  · cases made
    refine (proper.filter _).push (find?_eq_none.mpr ?_) nofun
    simp
  · cases made

theorem openItem_keeps (path : List Part) (last : Part) (span : Span) :
    (openItem path last span).KeepsProper := by
  refine descend_keeps .implied path fun _ here entries after proper made => ?_
  split at made
  · rename_i new
    cases made
    exact proper.push new nofun
  · cases made
    exact proper.replace (fun _ => rfl) fun _ => nofun
  · cases made

theorem inSection_keeps (stop : Nat) (path : List String) {change : Change} (keeps : change.KeepsProper) :
    (inSection stop path change).KeepsProper := by
  intro here entries after proper made
  cases path with
  | nil => exact keeps here entries after proper made
  | cons key path =>
    unfold inSection at made
    obtain ⟨⟨_,_,node⟩,-,made⟩ := Option.bind_eq_some_iff.mp made
    -- only tables and arrays of tables have sections in them
    cases node with
    | scalar => cases made
    | array => cases made
    | table there inner =>
      obtain ⟨inner,-,same⟩ := Option.bind_eq_some_iff.mp made
      cases same
      exact proper.replace (fun _ => rfl) fun _ => nofun
    | tables items =>
      obtain ⟨last,-,made⟩ := Option.bind_eq_some_iff.mp made
      obtain ⟨last,-,same⟩ := Option.bind_eq_some_iff.mp made
      cases same
      exact proper.replace (fun _ => rfl) fun _ => nofun

end Entries

/-! Lines. -/

open Entries

theorem headerLine_keeps (draft : Draft) (proper : Proper draft.entries) :
    (headerLine draft).Ensures fun after => Proper after.entries := by
  refine ensures_then fun ⟨⟨isItem,path,last⟩,span⟩ => ensures_then fun _ => ?_
  refine ensures_bind Proper (ensures_lift fun entries made => ?_) fun entries after => ensures_pure after
  cases isItem with
  | true => exact openItem_keeps path last span .written draft.entries entries proper made
  | false => exact openTable_keeps path last span .written draft.entries entries proper made

theorem keyLine_keeps (draft : Draft) (proper : Proper draft.entries) :
    (keyLine draft).Ensures fun after => Proper after.entries := by
  refine ensures_then fun ⟨path,last⟩ => ensures_then fun _ => ensures_then fun _ => ?_
  refine ensures_bind (fun read => Node.IntegerFits read.1) (ensures_spanned (value_ensures nestingLimit)) ?_
  intro ⟨node,span⟩ fits
  refine ensures_then fun _ => ?_
  refine ensures_bind Proper (ensures_lift fun entries made => ?_) fun entries after => ensures_pure after
  exact inSection_keeps _ _ (insert_keeps path last span fits) .written draft.entries entries proper made

theorem lines_keep (fuel : Nat) (draft : Draft) (proper : Proper draft.entries) :
    (lines fuel draft).Ensures fun after => Proper after.entries := by
  induction fuel generalizing draft with
  | zero => exact ensures_refuse
  | succ fuel ih =>
    have same (line : Scan Draft) (keeps : line.Ensures fun after => Proper after.entries) :
        Scan.Ensures (fun after => Proper after.entries) (do lines fuel (← line)) :=
      ensures_bind _ keeps fun after => ih after
    have stays (skip : Scan Unit) : Scan.Ensures (fun after : Draft => Proper after.entries) (do
        skip
        pure draft) := ensures_then fun _ => ensures_pure proper
    refine ensures_then fun _ => ensures_then fun c => ?_
    split
    · exact ensures_pure proper
    · exact same (commentLine draft) (ensures_then fun _ => stays lineEnd)
    · exact same _ (headerLine_keeps draft proper)
    · exact same (emptyLine draft) (stays newline)
    · exact same (emptyLine draft) (stays newline)
    · exact same _ (keyLine_keeps draft proper)

theorem proper_of_read {document : String} {entries : Entries} (accepted : read? document = some entries) :
    Proper entries := by
  unfold read? at accepted
  dsimp only at accepted
  split at accepted
  · rename_i draft rest read
    cases accepted
    exact lines_keep _ ⟨[],[]⟩ proper_nil _ draft rest read
  · cases accepted

end EditorLink.Toml
