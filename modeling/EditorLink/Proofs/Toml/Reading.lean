import EditorLink.Config.Written
import EditorLink.Proofs.Toml.Proper

/-! What the scanners make of text as it is written: digits, escapes, keys and whole lines, whatever
comes after them. -/
namespace EditorLink.Toml
open Config

section
variable {α β : Type} {p : Scan α} {a : α} {s left rest : List Char}

theorem scan_then (f : α → Scan β) (took : p s = some (a,left)) : (p >>= f) s = f a left := by
  rw [scan_bind,took]
  rfl

theorem scan_pure (a : α) (s : List Char) : (pure a : Scan α) s = some (a,s) := rfl

theorem next_cons (c : Char) (rest : List Char) : next? (c :: rest) = some (some c,c :: rest) := rfl

theorem trailing_newline (rest : List Char) : trailing ('\n' :: rest) = some ((),rest) := rfl

theorem scan_refused (f : α → Scan β) (fails : p s = none) : (p >>= f) s = none := by
  rw [scan_bind,fails]
  rfl

theorem orElse_refused {q : Scan α} (fails : p s = none) : (p <|> q) s = q s := by
  have same : (p <|> q) s = (p s <|> q s) := rfl
  rw [same,fails]
  rfl

theorem spanned_took (took : p s = some (a,left)) : ∃ span, spanned p s = some ((a,span),left) := by
  rw [spanned,took]
  exact ⟨_,rfl⟩

theorem expect_took (text rest : List Char) : expect text (text ++ rest) = some ((),rest) := by
  rw [expect,if_pos (List.isPrefixOf_iff_prefix.mpr (List.prefix_append text rest)),List.drop_left]

theorem expect_refused {c d : Char} (other : c ≠ d) (text : List Char) :
    expect (c :: text) (d :: rest) = none := by
  simp [expect,List.isPrefixOf,other]

theorem accept_refused {c d : Char} (other : c ≠ d) (text : List Char) :
    accept (c :: text) (d :: rest) = some (false,d :: rest) := by
  simp [accept,List.isPrefixOf,other]

theorem gap_none {c : Char} (solid : isGap c = false) : gap (c :: rest) = some ((),c :: rest) := by
  have taken : takeWhile isGap (c :: rest) = some ([],c :: rest) := by
    rw [takeWhile,List.takeWhile_cons_of_neg (by simp [solid]),List.dropWhile_cons_of_neg (by simp [solid])]
  exact (scan_then _ taken).trans rfl

theorem gap_one {c : Char} (solid : isGap c = false) : gap (' ' :: c :: rest) = some ((),c :: rest) := by
  have taken : takeWhile isGap (' ' :: c :: rest) = some ([' '],c :: rest) := by
    rw [takeWhile,List.takeWhile_cons_of_pos rfl,List.dropWhile_cons_of_pos rfl,
      List.takeWhile_cons_of_neg (by simp [solid]),List.dropWhile_cons_of_neg (by simp [solid])]
  exact (scan_then _ taken).trans rfl

end

/-! Digits. -/

theorem digitValue_digitChar {n : Nat} (small : n < 16) : digitValue n.digitChar = n := by
  have all : ∀ n : Fin 16, digitValue n.1.digitChar = n.1 := by decide
  exact all ⟨n,small⟩

theorem isHex_digitChar {n : Nat} (small : n < 16) : isHex n.digitChar = true := by
  have all : ∀ n : Fin 16, isHex n.1.digitChar = true := by decide
  exact all ⟨n,small⟩

theorem valueOf_concat (base : Nat) (ds : List Char) (c : Char) :
    valueOf base (ds ++ [c]) = base * valueOf base ds + digitValue c := by
  simp [valueOf]

theorem valueOf_zeros (base count : Nat) (ds : List Char) :
    valueOf base (List.replicate count '0' ++ ds) = valueOf base ds := by
  induction count with
  | zero => rfl
  | succ count ih =>
    rw [← ih]
    simp [valueOf,List.replicate_succ,show digitValue '0' = 0 from rfl]

theorem valueOf_toDigits {base : Nat} (least : 1 < base) (most : base ≤ 16) (n : Nat) :
    valueOf base (Nat.toDigits base n) = n := by
  induction n using Nat.strongRecOn with
  | _ n ih =>
    by_cases small : n < base
    · rw [Nat.toDigits_of_lt_base small]
      simp [valueOf,digitValue_digitChar (Nat.lt_of_lt_of_le small most)]
    · have large : base ≤ n := Nat.not_lt.mp small
      have last : n % base < 16 := Nat.lt_of_lt_of_le (Nat.mod_lt n (by omega)) most
      rw [Nat.toDigits_of_base_le least large,valueOf_concat,
        ih (n / base) (Nat.div_lt_self (by omega) least),digitValue_digitChar last]
      exact Nat.div_add_mod n base

theorem isHex_toDigits {n : Nat} {c : Char} (member : c ∈ Nat.toDigits 16 n) : isHex c = true := by
  induction n using Nat.strongRecOn with
  | _ n ih =>
    by_cases small : n < 16
    · rw [Nat.toDigits_of_lt_base small,List.mem_singleton] at member
      exact member ▸ isHex_digitChar small
    · rw [Nat.toDigits_of_base_le (by decide) (Nat.not_lt.mp small),List.mem_append,List.mem_singleton] at member
      rcases member with earlier | last
      · exact ih (n / 16) (Nat.div_lt_self (by omega) (by decide)) earlier
      · exact last ▸ isHex_digitChar (Nat.mod_lt n (by decide))

/-- A number that is not zero does not start with a zero. -/
theorem toDigits_head {n : Nat} (positive : 0 < n) :
    ∃ c ds, Nat.toDigits 10 n = c :: ds ∧ c ≠ '0' := by
  induction n using Nat.strongRecOn with
  | _ n ih =>
    by_cases small : n < 10
    · have all : ∀ n : Fin 10, 0 < n.1 → n.1.digitChar ≠ '0' := by decide
      exact ⟨_,_,Nat.toDigits_of_lt_base small,all ⟨n,small⟩ positive⟩
    · have large : 10 ≤ n := Nat.not_lt.mp small
      obtain ⟨c,ds,same,other⟩ := ih (n / 10) (Nat.div_lt_self positive (by decide)) (by omega)
      exact ⟨c,ds ++ [(n % 10).digitChar],by rw [Nat.toDigits_of_base_le (by decide) large,same]; rfl,other⟩

theorem moreDigits_took {isDigit : Char → Bool} {ds : List Char} {c : Char} (all : ∀ d ∈ ds, isDigit d = true)
    (free : isDigit '_' = false) (ends : isDigit c = false) (apart : c ≠ '_') (rest : List Char) :
    moreDigits isDigit (ds ++ c :: rest) = (ds,c :: rest) := by
  induction ds with
  | nil =>
    unfold moreDigits
    split
    · rename_i same
      exact absurd (List.cons.inj same).1 apart
    · rename_i same
      cases same
      rw [if_neg (by simp [ends])]
    · rename_i same
      cases same
  | cons d ds ih =>
    have digit : isDigit d = true := all d List.mem_cons_self
    rw [List.cons_append]
    unfold moreDigits
    split
    · rename_i same
      rw [(List.cons.inj same).1,free] at digit
      cases digit
    · rename_i same
      cases same
      rw [if_pos digit,ih fun d member => all d (List.mem_cons_of_mem _ member)]
    · rename_i same
      cases same

/-! A number in decimal digits, up to the end of its line. -/

/-- Decimal digits, of which the first is no zero. -/
structure DecimalDigits (ds : List Char) : Prop where
  digits : ∀ d ∈ ds, d.isDigit = true
  leads : ∃ c more, ds = c :: more ∧ c ≠ '0'

theorem decimalDigits_toDigits {n : Nat} (positive : 0 < n) : DecimalDigits (Nat.toDigits 10 n) := by
  obtain ⟨c,ds,same,other⟩ := toDigits_head positive
  exact ⟨fun d => Nat.isDigit_of_mem_toDigits (by decide) (by decide),c,ds,same,other⟩

section
variable {ds rest : List Char} {α : Type}

theorem fixedDigits_stops (all : ∀ d ∈ ds, d.isDigit = true) (count : Nat) {n : Nat} {left : List Char}
    (took : fixedDigits count (ds ++ '\n' :: rest) = some (n,left)) :
    ∃ c more, left = c :: more ∧ (c.isDigit = true ∨ c = '\n') := by
  dsimp only [fixedDigits] at took
  split at took
  · rename_i complete
    cases took
    by_cases short : count ≤ ds.length
    · rw [List.drop_append_of_le_length short]
      cases remain : ds.drop count with
      | nil => exact ⟨'\n',rest,rfl,.inr rfl⟩
      | cons c more => exact ⟨c,more ++ '\n' :: rest,rfl,.inl (all c (List.mem_of_mem_drop (remain ▸ List.mem_cons_self)))⟩
    · -- the line end would be among the digits
      have inside : '\n' ∈ (ds ++ '\n' :: rest).take count := by
        rw [List.take_append,show count - ds.length = count - ds.length - 1 + 1 by omega,List.take_succ_cons]
        simp
      simp only [Bool.and_eq_true,List.all_eq_true] at complete
      exact absurd (complete.2 '\n' inside) (by decide)
  · cases took

theorem fixedDigits_refused (all : ∀ d ∈ ds, d.isDigit = true) (count : Nat) (mark : Char)
    (other : mark.isDigit = false ∧ mark ≠ '\n') {f : Nat → Scan α}
    (marked : ∀ n c left, c ≠ mark → f n (c :: left) = none) :
    (fixedDigits count >>= f) (ds ++ '\n' :: rest) = none := by
  cases took : fixedDigits count (ds ++ '\n' :: rest) with
  | none => exact scan_refused f took
  | some read =>
    obtain ⟨n,left⟩ := read
    obtain ⟨c,more,rfl,either⟩ := fixedDigits_stops all count took
    rw [scan_then f took]
    refine marked n c more fun same => ?_
    rw [same,other.1] at either
    exact either.elim nofun other.2

theorem time_refused (all : ∀ d ∈ ds, d.isDigit = true) : time (ds ++ '\n' :: rest) = none := by
  refine fixedDigits_refused all 2 ':' (by decide) fun n c left other => ?_
  unfold within
  split
  · exact (scan_then _ (scan_pure () (c :: left))).trans (scan_refused _ (expect_refused other.symm []))
  · rfl

theorem moment_refused (all : ∀ d ∈ ds, d.isDigit = true) (rest : List Char) : moment (ds ++ '\n' :: rest) = none := by
  refine (orElse_refused (scan_refused _ ?_)).trans (time_refused all)
  refine fixedDigits_refused all 4 '-' (by decide) fun n c left other => ?_
  exact scan_refused _ (expect_refused other.symm [])

theorem sign_none (numeral : DecimalDigits ds) : sign (ds ++ rest) = some (false,ds ++ rest) := by
  obtain ⟨c,more,rfl,-⟩ := numeral.leads
  have digit : c.isDigit = true := numeral.digits c List.mem_cons_self
  rw [List.cons_append]
  unfold sign
  split
  · rename_i same
    cases same
    cases digit
  · rename_i same
    cases same
    cases digit
  · rfl

theorem wholeDigits_took (numeral : DecimalDigits ds) :
    wholeDigits (ds ++ '\n' :: rest) = some (ds,'\n' :: rest) := by
  obtain ⟨c,more,rfl,other⟩ := numeral.leads
  rw [List.cons_append]
  unfold wholeDigits
  split
  · rename_i same
    exact absurd (List.cons.inj same).1 other
  · rw [digits,if_pos (numeral.digits c List.mem_cons_self),
      moreDigits_took (fun d member => numeral.digits d (List.mem_cons_of_mem c member)) rfl rfl (by decide) rest]

theorem float_refused (numeral : DecimalDigits ds) (rest : List Char) : float (ds ++ '\n' :: rest) = none := by
  refine (orElse_refused ?_).trans ?_
  · refine (scan_then _ (sign_none numeral)).trans ((scan_then _ (wholeDigits_took numeral)).trans ?_)
    rfl
  · refine (scan_then _ (sign_none numeral)).trans ?_
    obtain ⟨c,more,rfl,-⟩ := numeral.leads
    have digit : c.isDigit = true := numeral.digits c List.mem_cons_self
    have other {d : Char} (letter : d.isDigit = false) : d ≠ c := fun same => by rw [same,digit] at letter; cases letter
    rw [List.cons_append]
    refine (scan_then _ (accept_refused (other (by decide)) _)).trans ?_
    exact scan_refused _ (expect_refused (other (by decide)) _)

theorem integer_took (numeral : DecimalDigits ds) (fits : (valueOf 10 ds : Int) ≤ greatestInteger)
    (rest : List Char) :
    integer (ds ++ '\n' :: rest) = some ((valueOf 10 ds : Int),'\n' :: rest) := by
  have inside : inRange? (valueOf 10 ds) = some (valueOf 10 ds : Int) :=
    if_pos ⟨Int.le_trans (by decide) (Int.natCast_nonneg _),fits⟩
  obtain ⟨c,more,same,other⟩ := numeral.leads
  unfold integer
  split
  · rename_i based
    rw [same] at based
    exact absurd (List.cons.inj based).1 other
  · rename_i based
    rw [same] at based
    exact absurd (List.cons.inj based).1 other
  · rename_i based
    rw [same] at based
    exact absurd (List.cons.inj based).1 other
  · rw [sign_none numeral]
    simp only [Option.bind_eq_bind,Option.bind_some]
    rw [wholeDigits_took numeral]
    simp [inside]

end

/-! A text in quotes. -/

theorem hex_of_toLower {c : Char} (hex : isHex c.toLower = true) :
    isHex c = true ∧ digitValue c = digitValue c.toLower := by
  by_cases capital : c.toNat < 128
  · have all : ∀ n : Fin 128, isHex (Char.ofNat n.1).toLower = true →
        isHex (Char.ofNat n.1) = true ∧ digitValue (Char.ofNat n.1) = digitValue (Char.ofNat n.1).toLower := by
      decide
    simpa [Char.ofNat_toNat] using all ⟨c.toNat,capital⟩ (by simpa [Char.ofNat_toNat] using hex)
  · have same : c.toLower = c := by
      refine dif_neg fun range => ?_
      have most : c.toNat ≤ 'Z'.toNat := range.2
      exact capital (Nat.lt_of_le_of_lt most (by decide))
    rw [same] at hex ⊢
    exact ⟨hex,rfl⟩

theorem hexPad_hex {width n : Nat} {c : Char} (member : c ∈ hexPad width n) : isHex c = true := by
  unfold hexPad at member
  rcases List.mem_append.mp member with zero | digit
  · rw [List.eq_of_mem_replicate zero]
    rfl
  · exact isHex_toDigits digit

theorem valueOf_lower {ds : List Char} (hex : ∀ d ∈ ds.map Char.toLower, isHex d = true) :
    valueOf 16 ds = valueOf 16 (ds.map Char.toLower) := by
  unfold valueOf
  rw [List.foldl_map]
  generalize 0 = start
  induction ds generalizing start with
  | nil => rfl
  | cons d ds ih =>
    have first : isHex d.toLower = true := hex _ (List.mem_map_of_mem List.mem_cons_self)
    rw [List.foldl_cons,List.foldl_cons,(hex_of_toLower first).2]
    exact ih (fun e member => hex e (List.mem_cons_of_mem _ member)) _

theorem scalar_took {c : Char} {ds : List Char} {width : Nat} (same : ds.map Char.toLower = hexPad width c.toNat) :
    scalar? ds = some c := by
  have hex : ∀ d ∈ ds.map Char.toLower, isHex d = true := fun d member => hexPad_hex (same ▸ member)
  have value : valueOf 16 ds = c.toNat := by
    rw [valueOf_lower hex,same,hexPad,valueOf_zeros,valueOf_toDigits (by decide) (by decide)]
  have all : ds.all isHex = true :=
    List.all_eq_true.mpr fun d member => (hex_of_toLower (hex _ (List.mem_map_of_mem member))).1
  dsimp only [scalar?]
  rw [value,all,if_pos (by simpa using (show c.toNat.isValidChar from c.valid)),Char.ofNat_toNat]

theorem length_hexPad {width n : Nat} (least : 0 < width) (fits : n < Nat.pow 16 width) : (hexPad width n).length = width := by
  have short : (Nat.toDigits 16 n).length ≤ width := (Nat.length_toDigits_le_iff (by decide) least).mpr fits
  rw [hexPad,List.length_append,List.length_replicate]
  omega

theorem isPlain_of_free {c : Char} (free : ¬ NeedsEscape c) : isPlain c = true := by
  simp only [NeedsEscape,not_or,Nat.not_lt] at free
  simp only [isPlain,Bool.or_eq_true,Bool.and_eq_true,decide_eq_true_eq]
  omega

theorem basicBody_plain {c : Char} (free : ¬ NeedsEscape c) (rest : List Char) :
    basicBody (c :: rest) = before c (basicBody rest) := by
  have quote : c ≠ '"' := fun same => free (.inl same)
  have slash : c ≠ '\\' := fun same => free (.inr (.inl same))
  rw [basicBody.eq_def]
  split
  · rename_i same
    cases same
  · rename_i same
    exact absurd (List.cons.inj same).1 quote
  · rename_i same
    exact absurd (List.cons.inj same).1 slash
  · rename_i same
    exact absurd (List.cons.inj same).1 slash
  · rename_i same
    exact absurd (List.cons.inj same).1 slash
  · rename_i same
    cases same
    simp [isPlain_of_free free,slash]

theorem basicBody_short {letter c : Char} (known : (letter,c) ∈ shortEscapes) (rest : List Char) :
    basicBody ('\\' :: letter :: rest) = before c (basicBody rest) := by
  simp only [shortEscapes,List.mem_cons,Prod.mk.injEq,List.not_mem_nil,or_false] at known
  rcases known with ⟨rfl,rfl⟩ | ⟨rfl,rfl⟩ | ⟨rfl,rfl⟩ | ⟨rfl,rfl⟩ | ⟨rfl,rfl⟩ | ⟨rfl,rfl⟩ | ⟨rfl,rfl⟩ <;> rfl

theorem basicBody_escape {c : Char} {form : List Char} (needs : NeedsEscape c) (escaped : Escaped c form)
    (rest : List Char) : basicBody (form ++ rest) = before c (basicBody rest) := by
  have small : c.toNat < 128 := by
    rcases needs with rfl | rfl | control | delete
    · decide
    · decide
    · omega
    · omega
  cases escaped with
  | short known => exact basicBody_short known rest
  | @four ds same =>
    have length : ds.length = 4 := by
      rw [← List.length_map Char.toLower,same,length_hexPad (by decide) (Nat.lt_trans small (by decide))]
    match ds, length, scalar_took same with
    | [_,_,_,_], _, found =>
      refine (basicBody.eq_3 ..).trans ?_
      rw [found]
      rfl
  | @eight ds same =>
    have length : ds.length = 8 := by
      rw [← List.length_map Char.toLower,same,length_hexPad (by decide) (Nat.lt_trans small (by decide))]
    match ds, length, scalar_took same with
    | [_,_,_,_,_,_,_,_], _, found =>
      refine (basicBody.eq_4 ..).trans ?_
      rw [found]
      rfl

theorem basicBody_spelled {s text : List Char} (spelled : Spelled s text) (rest : List Char) :
    basicBody (text ++ '"' :: rest) = some (s,rest) := by
  induction spelled with
  | nil => rfl
  | plain free others ih =>
    rw [List.cons_append,basicBody_plain free,ih]
    rfl
  | escape needs escaped others ih =>
    rw [List.append_assoc,basicBody_escape needs escaped,ih]
    rfl

/-- Two quotes at the start do not come from the text, so a text in quotes never looks like one on several lines. -/
theorem text_spelled {s text : List Char} (spelled : Spelled s text) (rest : List Char) :
    Toml.text ('"' :: text ++ '"' :: '\n' :: rest) = some (s,'\n' :: rest) := by
  have body := basicBody_spelled spelled ('\n' :: rest)
  rw [List.cons_append]
  unfold Toml.text
  split
  · rename_i same
    cases spelled with
    | nil => cases same
    | plain free others => exact absurd (.inl (List.cons.inj (List.cons.inj same).2).1) free
    | escape needs escaped others => cases escaped <;> cases same
  · rename_i same
    cases same
  · exact body

/-! A whole line. -/

/-- A name of letters, digits, hyphens and underscores. -/
def BareKey (name : List Char) : Prop := name ≠ [] ∧ ∀ c ∈ name, isBare c = true

/-- Up to its line end the text is read as the value. -/
structure Denotes (text : List Char) (v : Scalar) : Prop where
  solid : ∃ c more, text = c :: more ∧ isGap c = false
  reads : ∀ rest, value nestingLimit (text ++ '\n' :: rest) = some (.scalar v,'\n' :: rest)

section
variable {name text rest : List Char} {v : Scalar} {entries : Entries}

theorem BareKey.head (bare : BareKey name) : ∃ c more, name = c :: more ∧ isBare c = true := by
  obtain ⟨c,more,rfl⟩ := List.exists_cons_of_ne_nil bare.1
  exact ⟨c,more,rfl,bare.2 c List.mem_cons_self⟩

theorem bare_apart {c d : Char} (bare : isBare c = true) (other : isBare d = false) : c ≠ d := by
  rintro rfl
  rw [bare] at other
  cases other

theorem bare_solid {c : Char} (bare : isBare c = true) : isGap c = false := by
  have space : c ≠ ' ' := bare_apart bare (by decide)
  have tab : c ≠ '\t' := bare_apart bare (by decide)
  simp [isGap,space,tab]

theorem bareKey_took (bare : BareKey name) (rest : List Char) :
    bareKey (name ++ ' ' :: rest) = some (name,' ' :: rest) := by
  have taken : takeWhile isBare (name ++ ' ' :: rest) = some (name,' ' :: rest) := by
    rw [takeWhile,List.takeWhile_append_of_pos bare.2,List.dropWhile_append_of_pos bare.2,
      List.takeWhile_cons_of_neg (by decide),List.dropWhile_cons_of_neg (by decide),List.append_nil]
  refine (scan_then _ taken).trans ?_
  rw [if_neg (by simpa using bare.1)]
  rfl

theorem part_took (bare : BareKey name) (rest : List Char) : ∃ span,
    part (name ++ ' ' :: '=' :: rest) = some (⟨String.ofList name,span⟩,'=' :: rest) := by
  obtain ⟨c,more,rfl,leads⟩ := bare.head
  have unquoted : lineText (c :: more ++ ' ' :: '=' :: rest) = none := by
    rw [List.cons_append]
    unfold lineText
    split
    · rename_i same
      exact absurd (List.cons.inj same).1 (bare_apart leads (by decide))
    · rename_i same
      exact absurd (List.cons.inj same).1 (bare_apart leads (by decide))
    · rfl
  obtain ⟨span,took⟩ := spanned_took ((orElse_refused unquoted).trans (bareKey_took bare ('=' :: rest)))
  refine ⟨span,(scan_then _ (gap_none (bare_solid leads))).trans ((scan_then _ took).trans ?_)⟩
  exact (scan_then _ (gap_one (by decide))).trans rfl

theorem key_took (bare : BareKey name) (rest : List Char) : ∃ span,
    key (name ++ ' ' :: '=' :: rest) = some (([],⟨String.ofList name,span⟩),'=' :: rest) := by
  obtain ⟨span,took⟩ := part_took bare rest
  refine ⟨span,(scan_then _ took).trans ?_⟩
  exact (scan_then _ (accept_refused (by decide) [])).trans rfl

theorem value_plain {c : Char} (free : c ≠ '[' ∧ c ≠ '\x7b') (read : scalar (c :: rest) = some (v,'\n' :: name)) :
    value nestingLimit (c :: rest) = some (.scalar v,'\n' :: name) := by
  change value (78 + 1) (c :: rest) = _
  have plain : value (78 + 1) (c :: rest) = (scalar >>= fun v => pure (Node.scalar v)) (c :: rest) := by
    unfold value
    refine (scan_then _ (next_cons c rest)).trans (congrFun ?_ _)
    split
    · rename_i same
      exact absurd (Option.some.inj same) free.1
    · rename_i same
      exact absurd (Option.some.inj same) free.2
    · rfl
  exact plain.trans ((scan_then _ read).trans rfl)

theorem denotes_text {s : List Char} (spelled : Spelled s text) :
    Denotes ('"' :: text ++ ['"']) (.text (String.ofList s)) := by
  refine ⟨⟨'"',text ++ ['"'],rfl,rfl⟩,fun rest => ?_⟩
  have shape : '"' :: text ++ ['"'] ++ '\n' :: rest = '"' :: text ++ '"' :: '\n' :: rest := by simp
  rw [shape]
  refine value_plain (by decide) ?_
  refine (scan_then _ (next_cons '"' _)).trans ?_
  exact (scan_then _ (text_spelled spelled rest)).trans rfl

theorem denotes_boolean (b : Bool) :
    Denotes (if b then ['t', 'r', 'u', 'e'] else ['f', 'a', 'l', 's', 'e']) (.boolean b) := by
  cases b with
  | false => exact ⟨⟨'f',_,rfl,rfl⟩,fun rest => value_plain (by decide) rfl⟩
  | true => exact ⟨⟨'t',_,rfl,rfl⟩,fun rest => value_plain (by decide) rfl⟩

theorem denotes_integer {n : Nat} (positive : 0 < n) (fits : (n : Int) ≤ greatestInteger) :
    Denotes (Nat.toDigits 10 n) (.integer n) := by
  have numeral := decimalDigits_toDigits positive
  have meant : valueOf 10 (Nat.toDigits 10 n) = n := valueOf_toDigits (by decide) (by decide) n
  obtain ⟨c,more,same,-⟩ := numeral.leads
  have digit : c.isDigit = true := numeral.digits c (same ▸ List.mem_cons_self)
  have apart {d : Char} (other : d.isDigit = false) : c ≠ d := by
    rintro rfl
    rw [digit] at other
    cases other
  refine ⟨⟨c,more,same,?_⟩,fun rest => ?_⟩
  · simp [isGap,apart (show ' '.isDigit = false by decide),apart (show '\t'.isDigit = false by decide)]
  · have moment := moment_refused numeral.digits rest
    have float := float_refused numeral rest
    have integer := integer_took numeral (by rw [meant]; exact fits) rest
    rw [meant] at integer
    rw [same] at moment float integer ⊢
    refine value_plain ⟨apart (by decide),apart (by decide)⟩ ?_
    -- no other kind of value starts with a digit
    have number : scalar (c :: (more ++ '\n' :: rest)) = ((do Toml.moment; pure .moment) <|>
        (do return .float (← Toml.float)) <|> (do return .integer (← Toml.integer)) : Scan Scalar)
          (c :: (more ++ '\n' :: rest)) := by
      refine (scan_then _ (next_cons c _)).trans (congrFun ?_ _)
      split
      · rename_i first
        exact absurd (Option.some.inj first) (apart (by decide))
      · rename_i first
        exact absurd (Option.some.inj first) (apart (by decide))
      · rename_i first
        exact absurd (Option.some.inj first) (apart (by decide))
      · rename_i first
        exact absurd (Option.some.inj first) (apart (by decide))
      · rfl
    refine number.trans ((orElse_refused (scan_refused _ moment)).trans
      ((orElse_refused (scan_refused _ float)).trans ?_))
    exact (scan_then _ integer).trans rfl

theorem keyLine_took (rest : List Char) (bare : BareKey name) (denotes : Denotes text v)
    (new : String.ofList name ∉ entries.map Entry.key) : ∃ span,
    keyLine ⟨entries,[]⟩ (name ++ [' ', '=', ' '] ++ text ++ ['\n'] ++ rest) =
      some (⟨entries ++ [⟨String.ofList name,span,.scalar v⟩],[]⟩,rest) := by
  obtain ⟨c,more,same,solid⟩ := denotes.solid
  have shape : name ++ [' ', '=', ' '] ++ text ++ ['\n'] ++ rest =
      name ++ ' ' :: '=' :: (' ' :: (text ++ '\n' :: rest)) := by simp
  obtain ⟨place,named⟩ := key_took bare (' ' :: (text ++ '\n' :: rest))
  obtain ⟨span,valued⟩ := spanned_took (denotes.reads rest)
  have spaced : gap (' ' :: (text ++ '\n' :: rest)) = some ((),text ++ '\n' :: rest) := by
    rw [same]
    exact gap_one solid
  have missing : (Entries.find? entries (String.ofList name)).isNone = true := by
    rw [Option.isNone_iff_eq_none]
    exact Entries.find?_eq_none.mpr new
  refine ⟨span,?_⟩
  rw [shape]
  refine (scan_then _ named).trans ((scan_then _ (expect_took ['='] _)).trans ((scan_then _ spaced).trans
    ((scan_then _ valued).trans ((scan_then _ (trailing_newline rest)).trans ?_))))
  have added : Entries.inSection span.stop [] (Entries.insert [] ⟨String.ofList name,place⟩ span (.scalar v))
      .written entries = some (entries ++ [⟨String.ofList name,span,.scalar v⟩]) :=
    if_pos ⟨rfl,missing⟩
  dsimp only
  rw [added]
  rfl

theorem lines_took (rest : List Char) (bare : BareKey name) (denotes : Denotes text v)
    (new : String.ofList name ∉ entries.map Entry.key) (fuel : Nat) : ∃ span,
    lines (fuel + 1) ⟨entries,[]⟩ (name ++ [' ', '=', ' '] ++ text ++ ['\n'] ++ rest) =
      lines fuel ⟨entries ++ [⟨String.ofList name,span,.scalar v⟩],[]⟩ rest := by
  obtain ⟨span,took⟩ := keyLine_took rest bare denotes new
  obtain ⟨c,more,same,leads⟩ := bare.head
  refine ⟨span,?_⟩
  rw [same] at took ⊢
  have apart {d : Char} (other : isBare d = false) : c ≠ d := bare_apart leads other
  refine (scan_then _ (gap_none (bare_solid leads))).trans ((scan_then _ (next_cons c _)).trans ?_)
  refine (congrFun (?_ : _ = keyLine ⟨entries,[]⟩ >>= lines fuel) _).trans (scan_then _ took)
  split
  · rename_i first
    cases first
  · rename_i first
    exact absurd (Option.some.inj first) (apart (by decide))
  · rename_i first
    exact absurd (Option.some.inj first) (apart (by decide))
  · rename_i first
    exact absurd (Option.some.inj first) (apart (by decide))
  · rename_i first
    exact absurd (Option.some.inj first) (apart (by decide))
  · rfl

end

end EditorLink.Toml
