import Mathlib.Data.List.Forall2

/-! A list from which places are left out. A pattern marks the places that are kept; each of these has a place in
the shorter list, found by counting the marks before it. -/
namespace EditorLink

/-- How many places before the given one are kept. -/
def rank (p : List Bool) (j : Nat) : Nat := (p.take j).count true

/-- The place is on the given side of the pattern, and `i` is what it is called there: on the side that is kept
its place in the shorter list, and else the place itself. -/
structure Stands (side : Bool) (p : List Bool) (i j : Nat) : Prop where
  marked : p[j]? = some side
  placed : i = if side then rank p j else j

/-- The shorter list has an item for each one that is kept. The others stand for themselves. -/
inductive Woven {α : Type} (R : Bool → α → α → Prop) : List Bool → List α → List α → Prop
  | nil : Woven R [] [] []
  | kept {p as cs} (a c : α) (alike : R true a c) (rest : Woven R p as cs) : Woven R (true :: p) (a :: as) (c :: cs)
  | other {p as cs} (c : α) (own : R false c c) (rest : Woven R p as cs) : Woven R (false :: p) as (c :: cs)

/-- One list is the other one without some of its items. -/
def Sifted {α : Type} (R : Bool → α → α → Prop) (as cs : List α) : Prop := ∃ p, Woven R p as cs

variable {α β : Type} {R S : Bool → α → α → Prop} {side : Bool} {p q : List Bool} {as bs cs ds : List α}
  {i j k l : Nat} {is js : List Nat}

theorem rank_cons (b : Bool) (p : List Bool) (j : Nat) : rank (b :: p) (j + 1) = rank p j + b.toNat := by
  cases b <;> simp [rank]

theorem rank_append (inside : j ≤ p.length) (q : List Bool) : rank (p ++ q) j = rank p j := by
  rw [rank,rank,List.take_append_of_le_length inside]

theorem rank_lt (before : i < j) (marked : p[i]? = some true) : rank p i < rank p j := by
  induction p generalizing i j with
  | nil => cases marked
  | cons b p ih =>
    obtain ⟨j,rfl⟩ := Nat.exists_eq_add_of_lt before
    rw [rank_cons]
    cases i with
    | zero =>
      cases marked
      exact Nat.succ_pos _
    | succ i =>
      rw [rank_cons]
      exact Nat.add_lt_add_right (ih (by omega) marked) _

namespace Stands

theorem inside (stands : Stands side p i j) : j < p.length := (List.getElem?_eq_some_iff.mp stands.marked).1

theorem grow (stands : Stands side p i j) (q : List Bool) : Stands side (p ++ q) i j where
  marked := by rw [List.getElem?_append_left stands.inside,stands.marked]
  placed := by rw [rank_append (Nat.le_of_lt stands.inside)]; exact stands.placed

theorem kept (marked : p[j]? = some true) : Stands true p (rank p j) j := ⟨marked,rfl⟩

theorem other (marked : p[j]? = some false) : Stands false p j j := ⟨marked,rfl⟩

theorem cons (stands : Stands true p i j) (b : Bool) : Stands true (b :: p) (i + b.toNat) (j + 1) where
  marked := stands.marked
  placed := by rw [stands.placed]; exact (rank_cons b p j).symm

theorem same_iff (one : Stands side p i j) (two : Stands side p k l) : i = k ↔ j = l := by
  rw [one.placed,two.placed]
  cases side with
  | false => rfl
  | true =>
    refine ⟨fun same => ?_,fun same => by rw [same]⟩
    rcases Nat.lt_trichotomy j l with less | same' | more
    · exact absurd same (Nat.ne_of_lt (rank_lt less one.marked))
    · exact same'
    · exact absurd same (Nat.ne_of_gt (rank_lt more two.marked))

/-- Nothing is on both sides. -/
theorem apart (one : Stands true p i j) (two : Stands false p k l) : j ≠ l := by
  rintro rfl
  exact absurd (one.marked.symm.trans two.marked) nofun

end Stands

theorem modify_congr {f g : α → α} {items : List α} {a : α} (there : items[j]? = some a) (same : f a = g a) :
    items.modify j f = items.modify j g := by
  induction items generalizing j with
  | nil => cases there
  | cons b rest ih =>
    cases j with
    | zero =>
      cases there
      exact congrArg (· :: rest) same
    | succ j => exact congrArg (b :: ·) (ih there)

namespace Woven

theorem mono (woven : Woven R p as cs) (weaker : ∀ side a c, R side a c → S side a c) : Woven S p as cs := by
  induction woven with
  | nil => exact .nil
  | kept a c alike _ ih => exact .kept a c (weaker true a c alike) ih
  | other c own _ ih => exact .other c (weaker false c c own) ih

theorem length (woven : Woven R p as cs) : p.length = cs.length := by
  induction woven with
  | nil => rfl
  | kept _ _ _ _ ih => exact congrArg Nat.succ ih
  | other _ _ _ ih => exact congrArg Nat.succ ih

theorem count (woven : Woven R p as cs) : p.count true = as.length := by
  induction woven with
  | nil => rfl
  | kept _ _ _ _ ih => rw [List.count_cons_self,ih,List.length_cons]
  | other _ _ _ ih => rw [List.count_cons_of_ne (by decide),ih]

theorem append (first : Woven R p as cs) (next : Woven R q bs ds) : Woven R (p ++ q) (as ++ bs) (cs ++ ds) := by
  induction first with
  | nil => exact next
  | kept a c alike _ ih => exact .kept a c alike ih
  | other c own _ ih => exact .other c own ih

theorem push_kept (woven : Woven R p as cs) {a c : α} (alike : R true a c) :
    Woven R (p ++ [true]) (as ++ [a]) (cs ++ [c]) ∧ Stands true (p ++ [true]) as.length cs.length := by
  refine ⟨woven.append (.kept a c alike .nil),?_,?_⟩
  · simp [← woven.length]
  · rw [if_pos rfl,← woven.length,rank_append (Nat.le_refl _),rank,List.take_length,woven.count]

theorem push_other (woven : Woven R p as cs) {c : α} (own : R false c c) :
    Woven R (p ++ [false]) as (cs ++ [c]) ∧ Stands false (p ++ [false]) cs.length cs.length := by
  have pushed := woven.append (.other c own .nil)
  rw [List.append_nil] at pushed
  exact ⟨pushed,by simp [← woven.length],rfl⟩

theorem at_kept (woven : Woven R p as cs) (marked : p[j]? = some true) :
    ∃ a c, as[rank p j]? = some a ∧ cs[j]? = some c ∧ R true a c := by
  induction woven generalizing j with
  | nil => cases marked
  | kept a c alike _ ih =>
    cases j with
    | zero => exact ⟨a,c,rfl,rfl,alike⟩
    | succ j => rw [rank_cons]; exact ih marked
  | other c _ _ ih =>
    cases j with
    | zero => cases marked
    | succ j => rw [rank_cons]; exact ih marked

theorem at_other (woven : Woven R p as cs) (marked : p[j]? = some false) : ∃ c, cs[j]? = some c ∧ R false c c := by
  induction woven generalizing j with
  | nil => cases marked
  | kept _ _ _ _ ih =>
    cases j with
    | zero => cases marked
    | succ j => exact ih marked
  | other c own _ ih =>
    cases j with
    | zero => exact ⟨c,rfl,own⟩
    | succ j => exact ih marked

theorem modify_kept (woven : Woven R p as cs) {f g : α → α} (marked : p[j]? = some true)
    (keeps : ∀ a c, R true a c → R true (f a) (g c)) : Woven R p (as.modify (rank p j) f) (cs.modify j g) := by
  induction woven generalizing j with
  | nil => cases marked
  | kept a c alike rest ih =>
    cases j with
    | zero => exact .kept _ _ (keeps a c alike) rest
    | succ j => rw [rank_cons]; exact .kept a c alike (ih marked)
  | other c own rest ih =>
    cases j with
    | zero => cases marked
    | succ j => rw [rank_cons]; exact .other c own (ih marked)

theorem modify_other (woven : Woven R p as cs) {g : α → α} (marked : p[j]? = some false)
    (keeps : ∀ c, R false c c → R false (g c) (g c)) : Woven R p as (cs.modify j g) := by
  induction woven generalizing j with
  | nil => cases marked
  | kept a c alike rest ih =>
    cases j with
    | zero => cases marked
    | succ j => exact .kept a c alike (ih marked)
  | other c own rest ih =>
    cases j with
    | zero => exact .other _ (keeps c own) rest
    | succ j => exact .other c own (ih marked)

/-- Where the items of the other side are alike only to themselves, it does not matter which of two like changes is made
to them. -/
theorem modify_same (woven : Woven R p as cs) {f g : α → α} (marked : p[j]? = some false)
    (firm : ∀ a c, R false a c → a = c) (keeps : ∀ a c, R false a c → R false (f a) (g c)) :
    cs.modify j f = cs.modify j g ∧ Woven R p as (cs.modify j g) := by
  obtain ⟨c,there,own⟩ := woven.at_other marked
  refine ⟨?_,woven.modify_other marked fun d own => ?_⟩
  · exact modify_congr there (firm _ _ (keeps c c own))
  · have after := keeps d d own
    rwa [firm _ _ after] at after

/-- Every item is on a side. -/
theorem sided (woven : Woven R p as cs) {c : α} (there : cs[j]? = some c) : ∃ side a, p[j]? = some side ∧ R side a c := by
  have inside : j < p.length := woven.length ▸ (List.getElem?_eq_some_iff.mp there).1
  rcases marked : p[j] with _ | _
  · have marked : p[j]? = some false := List.getElem?_eq_some_iff.mpr ⟨inside,marked⟩
    obtain ⟨d,found,own⟩ := woven.at_other marked
    cases there.symm.trans found
    exact ⟨false,_,marked,own⟩
  · have marked : p[j]? = some true := List.getElem?_eq_some_iff.mpr ⟨inside,marked⟩
    obtain ⟨a,d,-,found,alike⟩ := woven.at_kept marked
    cases there.symm.trans found
    exact ⟨true,a,marked,alike⟩

theorem any (woven : Woven R p as cs) {f g : α → Bool} (kept : ∀ a c, R true a c → f a = g c)
    (other : ∀ c, R false c c → g c = false) : as.any f = cs.any g := by
  induction woven with
  | nil => rfl
  | kept a c alike _ ih => rw [List.any_cons,List.any_cons,ih,kept a c alike]
  | other c own _ ih => rw [List.any_cons,ih,other c own,Bool.false_or]

theorem findIdx? (woven : Woven R p as cs) {f g : α → Bool} (kept : ∀ a c, R true a c → f a = g c)
    (other : ∀ c, R false c c → g c = false) : Option.Rel (Stands true p) (as.findIdx? f) (cs.findIdx? g) := by
  induction woven with
  | nil => exact .none
  | kept a c alike _ ih =>
    rw [List.findIdx?_cons,List.findIdx?_cons,kept a c alike]
    split
    · exact .some ⟨rfl,rfl⟩
    · revert ih
      generalize List.findIdx? f _ = i
      generalize List.findIdx? g _ = j
      rintro (stands | -)
      · exact .some (stands.cons true)
      · exact .none
  | other c own _ ih =>
    rw [List.findIdx?_cons,other c own,if_neg nofun]
    revert ih
    generalize List.findIdx? f _ = i
    generalize List.findIdx? g _ = j
    rintro (stands | -)
    · exact .some (stands.cons false)
    · exact .none

theorem erase_kept [DecidableEq α] (woven : Woven R p as cs) {b d : α} (kept : ∀ a c, R true a c → (a = b ↔ c = d))
    (other : ∀ c, R false c c → c ≠ d) : Sifted R (as.erase b) (cs.erase d) := by
  induction woven with
  | nil => exact ⟨[],.nil⟩
  | kept a c alike rest ih =>
    obtain ⟨q,erased⟩ := ih
    by_cases same : c = d
    · rw [(kept a c alike).mpr same,same,List.erase_cons_head,List.erase_cons_head]
      exact ⟨_,rest⟩
    · rw [List.erase_cons_tail (by simpa [kept a c alike] using same),List.erase_cons_tail (by simpa using same)]
      exact ⟨true :: q,.kept a c alike erased⟩
  | other c own _ ih =>
    obtain ⟨q,erased⟩ := ih
    rw [List.erase_cons_tail (by simpa using other c own)]
    exact ⟨false :: q,.other c own erased⟩

theorem erase_other [DecidableEq α] (woven : Woven R p as cs) {d : α} (kept : ∀ a c, R true a c → c ≠ d) :
    Sifted R as (cs.erase d) := by
  induction woven with
  | nil => exact ⟨[],.nil⟩
  | kept a c alike _ ih =>
    obtain ⟨q,erased⟩ := ih
    rw [List.erase_cons_tail (by simpa using kept a c alike)]
    exact ⟨true :: q,.kept a c alike erased⟩
  | other c own rest ih =>
    obtain ⟨q,erased⟩ := ih
    rw [List.erase_cons]
    split
    · exact ⟨_,rest⟩
    · exact ⟨false :: q,.other c own erased⟩

theorem filter (woven : Woven R p as cs) {f g : α → Bool} (kept : ∀ a c, R true a c → f a = g c) :
    Sifted R (as.filter f) (cs.filter g) := by
  induction woven with
  | nil => exact ⟨[],.nil⟩
  | kept a c alike _ ih =>
    obtain ⟨q,rest⟩ := ih
    rw [List.filter_cons,List.filter_cons,kept a c alike]
    split
    · exact ⟨true :: q,.kept a c alike rest⟩
    · exact ⟨q,rest⟩
  | other c own _ ih =>
    obtain ⟨q,rest⟩ := ih
    rw [List.filter_cons]
    split
    · exact ⟨false :: q,.other c own rest⟩
    · exact ⟨q,rest⟩

end Woven

namespace Sifted

theorem mono (sifted : Sifted R as cs) (weaker : ∀ side a c, R side a c → S side a c) : Sifted S as cs := by
  obtain ⟨p,woven⟩ := sifted
  exact ⟨p,woven.mono weaker⟩

theorem cons_kept (sifted : Sifted R as cs) {a c : α} (alike : R true a c) : Sifted R (a :: as) (c :: cs) := by
  obtain ⟨p,woven⟩ := sifted
  exact ⟨true :: p,.kept a c alike woven⟩

theorem cons_other (sifted : Sifted R as cs) {c : α} (own : R false c c) : Sifted R as (c :: cs) := by
  obtain ⟨p,woven⟩ := sifted
  exact ⟨false :: p,.other c own woven⟩

theorem push_kept (sifted : Sifted R as cs) {a c : α} (alike : R true a c) : Sifted R (as ++ [a]) (cs ++ [c]) := by
  obtain ⟨p,woven⟩ := sifted
  exact ⟨_,(woven.push_kept alike).1⟩

theorem push_other (sifted : Sifted R as cs) {c : α} (own : R false c c) : Sifted R as (cs ++ [c]) := by
  obtain ⟨p,woven⟩ := sifted
  exact ⟨_,(woven.push_other own).1⟩

theorem filter (sifted : Sifted R as cs) {f g : α → Bool} (kept : ∀ a c, R true a c → f a = g c) :
    Sifted R (as.filter f) (cs.filter g) := by
  obtain ⟨p,woven⟩ := sifted
  exact woven.filter kept

theorem any (sifted : Sifted R as cs) {f g : α → Bool} (kept : ∀ a c, R true a c → f a = g c)
    (other : ∀ c, R false c c → g c = false) : as.any f = cs.any g := by
  obtain ⟨p,woven⟩ := sifted
  exact woven.any kept other

theorem sided (sifted : Sifted R as cs) {c : α} (member : c ∈ cs) : ∃ side a, R side a c := by
  obtain ⟨p,woven⟩ := sifted
  obtain ⟨j,inside,there⟩ := List.mem_iff_getElem.mp member
  obtain ⟨side,a,-,alike⟩ := woven.sided (List.getElem?_eq_some_iff.mpr ⟨inside,there⟩)
  exact ⟨side,a,alike⟩

theorem mem_left (sifted : Sifted R as cs) {a : α} (member : a ∈ as) : ∃ c ∈ cs, R true a c := by
  obtain ⟨p,woven⟩ := sifted
  induction woven with
  | nil => cases member
  | kept b c alike _ ih =>
    rcases List.mem_cons.mp member with rfl | later
    · exact ⟨c,List.mem_cons_self,alike⟩
    · obtain ⟨d,there,alike⟩ := ih later
      exact ⟨d,List.mem_cons_of_mem c there,alike⟩
  | other c _ _ ih =>
    obtain ⟨d,there,alike⟩ := ih member
    exact ⟨d,List.mem_cons_of_mem c there,alike⟩

theorem nil_of_nil (sifted : Sifted R as []) : as = [] := by
  obtain ⟨p,woven⟩ := sifted
  cases woven
  rfl

/-- Where each item shows its side, the shorter list is what a filter leaves of the longer one. -/
theorem eq_map_filter (sifted : Sifted R as cs) {g : α → Bool} {h : α → α}
    (kept : ∀ a c, R true a c → g c = true ∧ a = h c) (other : ∀ c, R false c c → g c = false) :
    as = (cs.filter g).map h := by
  obtain ⟨p,woven⟩ := sifted
  induction woven with
  | nil => rfl
  | kept a c alike _ ih =>
    obtain ⟨mine,same⟩ := kept a c alike
    rw [List.filter_cons_of_pos mine,List.map_cons,← same,← ih]
  | other c own _ ih => rw [List.filter_cons_of_neg (Bool.eq_false_iff.mp (other c own)),← ih]

theorem mem_iff (sifted : Sifted (fun side => Stands side p) is js) (stands : Stands true p i j) : i ∈ is ↔ j ∈ js := by
  have same := sifted.any (f := (· = i)) (g := (· = j))
    (fun k l other => decide_eq_decide.mpr (other.same_iff stands))
    fun l other => decide_eq_false fun same => stands.apart other same.symm
  simpa [List.any_eq] using congrArg (· = true) same

/-- Items that only the longer list has are left out. -/
theorem filter_other (sifted : Sifted R as cs) {g : α → Bool} (kept : ∀ a c, R true a c → g c = true) :
    Sifted R as (cs.filter g) := by
  have all : as.filter (fun _ => true) = as := List.filter_true as
  rw [← all]
  exact sifted.filter fun a c alike => (kept a c alike).symm

theorem map {T : Bool → β → β → Prop} (sifted : Sifted R as cs) {f : α → β}
    (keeps : ∀ side a c, R side a c → T side (f a) (f c)) : Sifted T (as.map f) (cs.map f) := by
  obtain ⟨p,woven⟩ := sifted
  refine ⟨p,?_⟩
  induction woven with
  | nil => exact .nil
  | kept a c alike _ ih => exact .kept _ _ (keeps true a c alike) ih
  | other c own _ ih => exact .other _ (keeps false c c own) ih

end Sifted
end EditorLink
