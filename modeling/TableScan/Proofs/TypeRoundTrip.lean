/-
  TableScan.Proofs.TypeRoundTrip — which types are read back from how they are written.

  Reading takes the backticks off the name of a field, and writing does not put them back. A
  name is plain if it reads as itself: a word that starts with no digit, or the numeral
  of a number of 32 bits. A type that was read is read back exactly if all names in it
  are plain (`reads_back_iff_plain`); "007" between backticks comes back as "7".

  - `IsType.writes`: with plain names, what is written is a type of the grammar.
  - `plain_of_reads`: whatever is read from a written type differs from it unless all of its
    names are plain.
-/

import TableScan.Proofs.TypeReading

namespace TableScan.ColumnType

open TableScan.Text

/-! ## Names of fields -/

mutual

/-- Every field has such a name, at every depth. -/
def EachName (p : String → Prop) : ColumnType → Prop
  | .array t => t.EachName p
  | .map k v => k.EachName p ∧ v.EachName p
  | .struct fields => EachFieldName p fields
  | _ => True

def EachFieldName (p : String → Prop) : List (String × ColumnType) → Prop
  | [] => True
  | (name, t) :: rest => p name ∧ t.EachName p ∧ EachFieldName p rest

end

/-- A name that reads as itself. -/
inductive IsPlain : String → Prop
  | word {name : String} : isWord name.toList = true → IsPlain name
  | number (n : UInt32) : IsPlain (Text.decimal n.toNat)

/-- A name of the characters of words, whatever comes first. -/
def IsWordy (name : String) : Prop := ∀ c ∈ name.toList, isWordChar c = true

theorem isDigit_of_mem_decimal (n : Nat) : ∀ c ∈ (Text.decimal n).toList, c.isDigit = true := by
  rw [Text.decimal, String.toList_ofList]
  exact isDigit_of_mem_numeral n

theorem IsFieldName.wordy {tok : Token} {field : String} (h : IsFieldName tok field)
    (hw : ∀ name, tok = .word name → ∀ c ∈ name, isWordChar c = true) : IsWordy field := by
  intro c hc
  cases h with
  | word before after _ _ =>
    rw [String.toList_ofList] at hc
    exact hw _ rfl c (by simp [hc])
  | number n =>
    exact isWordChar_of_isDigit (isDigit_of_mem_decimal _ c hc)

mutual

theorem IsType.wordy {ts : List Token} {t : ColumnType} (h : IsType ts t)
    (hw : ∀ name, .word name ∈ ts → ∀ c ∈ name, isWordChar c = true) : t.EachName IsWordy := by
  cases h with
  | plain hm _ =>
    simp only [plainNames, List.mem_cons, List.not_mem_nil, or_false, Prod.mk.injEq] at hm
    rcases hm with h | h | h | h | h | h | h | h | h | h | h | h <;> obtain ⟨-, rfl⟩ := h <;> trivial
  | double _ | doublePrecision _ _ | varchar _ _ | char _ _ | bareDecimal _ | decimalPrecision _ _ _
  | decimal _ _ _ _ => trivial
  | array _ ht => exact ht.wordy fun name hn => hw name (by simp [hn])
  | map _ hk hv =>
    exact ⟨hk.wordy fun name hn => hw name (by simp [hn]), hv.wordy fun name hn => hw name (by simp [hn])⟩
  | emptyStruct _ => trivial
  | struct _ hf => exact hf.wordy fun name hn => hw name (by simp [hn])

theorem IsFields.wordy {ts : List Token} {fields : List (String × ColumnType)} (h : IsFields ts fields)
    (hw : ∀ name, .word name ∈ ts → ∀ c ∈ name, isWordChar c = true) : EachFieldName IsWordy fields := by
  cases h with
  | last hname ht =>
    exact ⟨hname.wordy fun name hn => hw name (by simp [hn]), ht.wordy fun name hn => hw name (by simp [hn]),
      trivial⟩
  | more hname ht hrest =>
    exact ⟨hname.wordy fun name hn => hw name (by simp [hn]), ht.wordy fun name hn => hw name (by simp [hn]),
      hrest.wordy fun name hn => hw name (by simp [hn])⟩

end

theorem isWord_decimal (n : Nat) : isWord (Text.decimal n).toList = false := by
  have hd := isDigit_of_mem_decimal n
  cases hcs : (Text.decimal n).toList with
  | nil => rfl
  | cons c cs => simp [isWord, hd c (hcs ▸ List.mem_cons_self ..)]

/-- A plain name is written as the one token that is read as it. -/
theorem IsFieldName.writes {tok : Token} {field : String} (h : IsFieldName tok field) (hp : IsPlain field) :
    ∃ tok', Spells field.toList [tok'] ∧ IsFieldName tok' field := by
  cases hp with
  | number n =>
    refine ⟨.number n, ?_, .number n⟩
    rw [Text.decimal, String.toList_ofList]
    exact spells_numeral n
  | word hword =>
    refine ⟨.word field.toList, spells_word hword, ?_⟩
    cases h with
    | number n => cases (isWord_decimal _).symm.trans hword
    | word before after hhead hlast =>
      rw [String.toList_ofList]
      simpa using IsFieldName.word 0 0 hhead hlast

/-! ## How types are written -/

theorem chars_array (t : ColumnType) :
    t.array.chars = "array".toList ++ Symbol.openAngle.char :: (t.chars ++ [Symbol.closeAngle.char]) :=
  List.append_assoc "array<".toList t.chars ['>']

theorem chars_map (k v : ColumnType) : (map k v).chars =
    "map".toList ++ Symbol.openAngle.char :: (k.chars ++ Symbol.comma.char :: (v.chars ++ [Symbol.closeAngle.char])) := by
  show "map<".toList ++ k.chars ++ ',' :: v.chars ++ ['>'] = _
  rw [List.append_assoc, List.append_assoc, List.cons_append]
  rfl

theorem chars_struct (fields : List (String × ColumnType)) : (struct fields).chars =
    "struct".toList ++ Symbol.openAngle.char :: (fieldsChars fields ++ [Symbol.closeAngle.char]) :=
  List.append_assoc "struct<".toList (fieldsChars fields) ['>']

theorem chars_varchar (n : UInt32) : (varchar n).chars =
    "varchar".toList ++ Symbol.openParen.char :: (numeral n.toNat ++ [Symbol.closeParen.char]) :=
  List.append_assoc "varchar(".toList (numeral n.toNat) [')']

theorem chars_char (n : UInt32) : (ColumnType.char n).chars =
    "char".toList ++ Symbol.openParen.char :: (numeral n.toNat ++ [Symbol.closeParen.char]) :=
  List.append_assoc "char(".toList (numeral n.toNat) [')']

theorem chars_decimal (p s : UInt8) : (decimal p s).chars = "decimal".toList ++ Symbol.openParen.char ::
    (numeral p.toNat ++ Symbol.comma.char :: (numeral s.toNat ++ [Symbol.closeParen.char])) := by
  show "decimal(".toList ++ numeral p.toNat ++ ',' :: numeral s.toNat ++ [')'] = _
  rw [List.append_assoc, List.append_assoc, List.cons_append]
  rfl

theorem fieldsChars_last (name : String) (t : ColumnType) :
    fieldsChars [(name, t)] = name.toList ++ Symbol.colon.char :: t.chars := rfl

theorem fieldsChars_more (name : String) (t : ColumnType) {rest : List (String × ColumnType)} (h : rest ≠ []) :
    fieldsChars ((name, t) :: rest) =
      name.toList ++ Symbol.colon.char :: (t.chars ++ Symbol.comma.char :: fieldsChars rest) := by
  cases rest with
  | nil => exact absurd rfl h
  | cons field rest => exact List.append_assoc name.toList (':' :: t.chars) _

theorem IsFields.ne_nil {ts : List Token} {fields : List (String × ColumnType)} (h : IsFields ts fields) :
    fields ≠ [] := by
  cases h with
  | last _ _ => simp
  | more _ _ _ => simp

/-- Each type that is a name alone has one that it is written with. -/
theorem writes_plain {keyword : String} {t : ColumnType} (h : (keyword, t) ∈ plainNames) :
    ∃ us, Spells t.chars us ∧ IsType us t := by
  have of_name : ∀ {name : String}, t.chars = name.toList → Spells name.toList [.word name.toList] →
      Named name.toList name → (name, t) ∈ plainNames → ∃ us, Spells t.chars us ∧ IsType us t := by
    intro name hchars hspells hnamed hm
    exact ⟨_, hchars ▸ hspells, .plain hm hnamed⟩
  simp only [plainNames, List.mem_cons, List.not_mem_nil, or_false, Prod.mk.injEq] at h
  rcases h with h | h | h | h | h | h | h | h | h | h | h | h <;> obtain ⟨-, rfl⟩ := h <;>
    exact of_name rfl (spells_word (by decide)) rfl (by simp [plainNames])

theorem spells_byte (n : UInt8) : Spells (numeral n.toNat) [.number n.toUInt32] := by
  have := spells_numeral n.toUInt32
  rwa [UInt8.toNat_toUInt32] at this

theorem writes_decimal {p s : UInt8} (h1 : 1 ≤ p) (h2 : p ≤ 38) (h3 : s ≤ p) :
    ∃ us, Spells (decimal p s).chars us ∧ IsType us (decimal p s) := by
  have hname : Spells "decimal".toList [.word "decimal".toList] := spells_word (by decide)
  rw [chars_decimal]
  exact ⟨_, hname.append_symbol .openParen ((spells_byte p).append_symbol .comma
    ((spells_byte s).append_symbol .closeParen .done)), .decimal rfl h1 h2 h3⟩

mutual

theorem IsType.writes {ts : List Token} {t : ColumnType} (h : IsType ts t) (hp : t.EachName IsPlain) :
    ∃ us, Spells t.chars us ∧ IsType us t := by
  cases h with
  | plain hm _ => exact writes_plain hm
  | double _ | doublePrecision _ _ => exact ⟨_, spells_word (by decide), .double rfl⟩
  | varchar n _ =>
    have hname : Spells "varchar".toList [.word "varchar".toList] := spells_word (by decide)
    rw [chars_varchar]
    exact ⟨_, hname.append_symbol .openParen ((spells_numeral n).append_symbol .closeParen .done), .varchar n rfl⟩
  | char n _ =>
    have hname : Spells "char".toList [.word "char".toList] := spells_word (by decide)
    rw [chars_char]
    exact ⟨_, hname.append_symbol .openParen ((spells_numeral n).append_symbol .closeParen .done), .char n rfl⟩
  | bareDecimal _ => exact writes_decimal (by decide) (by decide) (by decide)
  | decimalPrecision _ h1 h2 => exact writes_decimal h1 h2 UInt8.zero_le
  | decimal _ h1 h2 h3 => exact writes_decimal h1 h2 h3
  | array _ ht =>
    have hname : Spells "array".toList [.word "array".toList] := spells_word (by decide)
    obtain ⟨us, hspells, hu⟩ := ht.writes hp
    rw [chars_array]
    exact ⟨_, hname.append_symbol .openAngle (hspells.append_symbol .closeAngle .done), .array rfl hu⟩
  | map _ hk hv =>
    have hname : Spells "map".toList [.word "map".toList] := spells_word (by decide)
    obtain ⟨ks, hkspells, hks⟩ := hk.writes hp.1
    obtain ⟨vs, hvspells, hvs⟩ := hv.writes hp.2
    rw [chars_map]
    exact ⟨_, hname.append_symbol .openAngle (hkspells.append_symbol .comma
      (hvspells.append_symbol .closeAngle .done)), .map rfl hks hvs⟩
  | emptyStruct _ =>
    have hname : Spells "struct".toList [.word "struct".toList] := spells_word (by decide)
    exact ⟨_, hname.append_symbol .openAngle (.symbol .closeAngle .done), .emptyStruct rfl⟩
  | struct _ hf =>
    have hname : Spells "struct".toList [.word "struct".toList] := spells_word (by decide)
    obtain ⟨us, hspells, hu⟩ := hf.writes hp
    rw [chars_struct]
    exact ⟨_, hname.append_symbol .openAngle (hspells.append_symbol .closeAngle .done), .struct rfl hu⟩

theorem IsFields.writes {ts : List Token} {fields : List (String × ColumnType)} (h : IsFields ts fields)
    (hp : EachFieldName IsPlain fields) : ∃ us, Spells (fieldsChars fields) us ∧ IsFields us fields := by
  cases h with
  | last hname ht =>
    obtain ⟨tok, htok, hname⟩ := hname.writes hp.1
    obtain ⟨us, hspells, hu⟩ := ht.writes hp.2.1
    rw [fieldsChars_last]
    exact ⟨_, htok.append_symbol .colon hspells, .last hname hu⟩
  | more hname ht hrest =>
    obtain ⟨tok, htok, hname⟩ := hname.writes hp.1
    obtain ⟨us, hspells, hu⟩ := ht.writes hp.2.1
    obtain ⟨vs, hrspells, hv⟩ := hrest.writes hp.2.2
    rw [fieldsChars_more _ _ hrest.ne_nil]
    exact ⟨_, htok.append_symbol .colon (hspells.append_symbol .comma hrspells), .more hname hu hv⟩

end

/-! ## What is read from a written type -/

theorem Spells.no_symbol {cs : List Char} {ts : List Token} (h : Spells cs ts)
    (hw : ∀ c ∈ cs, isWordChar c = true) : ∀ s, .symbol s ∉ ts := by
  induction h with
  | done => exact fun s hs => by cases hs
  | space _ _ ih => exact ih fun c hc => hw c (List.mem_cons_of_mem _ hc)
  | symbol s' _ _ =>
    cases (isWordChar_symbol s').symm.trans (hw _ (List.mem_cons_self ..))
  | number _ _ _ _ ih =>
    intro s hs
    exact ih (fun c hc => hw c (by simp [hc])) s ((List.mem_cons.mp hs).resolve_left nofun)
  | word _ _ _ _ ih =>
    intro s hs
    exact ih (fun c hc => hw c (by simp [hc])) s ((List.mem_cons.mp hs).resolve_left nofun)

theorem Spells.eq_nil {cs : List Char} (h : Spells cs []) (hw : ∀ c ∈ cs, isWordChar c = true) : cs = [] := by
  cases h with
  | done => rfl
  | @space c _ _ hc _ => cases (isSpace_of_isWordChar (hw c (List.mem_cons_self ..))).symm.trans hc

/-- A name that is spelled by the one token that is read as it is plain. -/
theorem plain_of_spells {name : String} {tok : Token} (h : Spells name.toList [tok])
    (hf : IsFieldName tok name) (hw : IsWordy name) : IsPlain name := by
  cases tok with
  | symbol s => cases hf
  | number n =>
    cases hf
    exact .number n
  | word w =>
    generalize hcs : name.toList = cs at h
    cases h with
    | @space c _ _ hc _ =>
      have := hw c (hcs ▸ List.mem_cons_self ..)
      cases (isSpace_of_isWordChar this).symm.trans hc
    | @word c more rest _ hc hname _ hrest =>
      have hnil : rest = [] := hrest.eq_nil fun d hd => hw d (by rw [hcs]; simp [hd])
      subst hnil
      rw [List.append_nil] at hcs
      refine .word ?_
      rw [hcs]
      simp only [isWord, hc, Bool.not_false, Bool.true_and, List.all_eq_true]
      exact hname

/-- In front of a colon, what spells a name is read only if it is one token. -/
theorem reads_name {name : String} (hw : IsWordy name) {ns rest : List Token} (hs : Spells name.toList ns)
    {before : List (String × ColumnType)} {around : List Around} {r : Reader}
    (hr : (Reader.nextField before around).reads (ns ++ .symbol .colon :: rest) = some r) :
    ∃ field, (field = name → IsPlain name) ∧
      (Reader.start (.field before field :: around)).reads rest = some r := by
  have hno := hs.no_symbol hw
  cases ns with
  | nil => cases hr
  | cons tok ns =>
    obtain ⟨next, hstep, hr⟩ := Reader.reads_cons_eq_some.mp hr
    obtain ⟨field, hfield, rfl⟩ := stepField_eq_ok.mp hstep
    cases ns with
    | nil =>
      refine ⟨field, ?_, hr⟩
      rintro rfl
      exact plain_of_spells hs hfield hw
    | cons tok' ns =>
      obtain ⟨next, hstep, -⟩ := Reader.reads_cons_eq_some.mp hr
      cases tok' with
      | symbol s => exact absurd (by simp) (hno s)
      | _ => cases hstep

/-- A plain type is read as itself. -/
theorem IsType.settled {ts us : List Token} {t : ColumnType} (h : IsType ts t) (hp : t.EachName IsPlain)
    (hs : Spells t.chars us) {around : List Around} {r : Reader}
    (hr : (Reader.start around).reads us = some r) : Settled r t around := by
  obtain ⟨us', hs', hu⟩ := h.writes hp
  obtain rfl := hs.unique hs'
  obtain ⟨r', hr', hsettled⟩ := hu.reads around
  obtain rfl := Option.some.inj (hr.symm.trans hr')
  exact hsettled

theorem named_self {keyword : String} (h : keyword.toList.map Char.toLower = keyword.toList) :
    Named keyword.toList keyword := h

/-- A keyword and its symbol come first. -/
theorem spells_keyword (keyword : String) (h : isWord keyword.toList = true) {s : Symbol} {cs : List Char}
    {ts : List Token} (hs : Spells (keyword.toList ++ s.char :: cs) ts) :
    ∃ rest, ts = .word keyword.toList :: .symbol s :: rest ∧ Spells cs rest := by
  obtain ⟨before, after, rfl, hb, ha⟩ := spells_append_symbol hs
  obtain rfl := hb.unique (spells_word h)
  exact ⟨after, rfl, ha⟩

theorem spells_last_symbol {s : Symbol} {cs : List Char} {ts : List Token} (h : Spells (cs ++ [s.char]) ts) :
    ∃ before, ts = before ++ [.symbol s] ∧ Spells cs before := by
  obtain ⟨before, after, rfl, hb, ha⟩ := spells_append_symbol h
  cases ha
  exact ⟨before, rfl, hb⟩

/-- Fields do not start with the symbol that ends a struct. -/
theorem head_of_fields {fields : List (String × ColumnType)} {ts us : List Token} (h : IsFields ts fields)
    (hw : EachFieldName IsWordy fields) (hs : Spells (fieldsChars fields) us) :
    ∃ tok rest, us = tok :: rest ∧ tok ≠ .symbol .closeAngle := by
  obtain ⟨name, cs, hname, hcs⟩ : ∃ name cs, IsWordy name ∧
      fieldsChars fields = name.toList ++ Symbol.colon.char :: cs := by
    cases h with
    | last _ _ => exact ⟨_, _, hw.1, fieldsChars_last _ _⟩
    | more _ _ hrest => exact ⟨_, _, hw.1, fieldsChars_more _ _ hrest.ne_nil⟩
  rw [hcs] at hs
  obtain ⟨ns, us, rfl, hns, -⟩ := spells_append_symbol hs
  cases ns with
  | nil => exact ⟨_, _, rfl, by decide⟩
  | cons tok ns =>
    refine ⟨tok, _, rfl, ?_⟩
    rintro rfl
    exact hns.no_symbol hname _ (List.mem_cons_self ..)

theorem reads_firstField_cons {tok : Token} (h : tok ≠ .symbol .closeAngle) (around : List Around)
    (ts : List Token) :
    (Reader.firstField around).reads (tok :: ts) = (Reader.nextField [] around).reads (tok :: ts) := by
  have hstep : (Reader.firstField around).step tok = (Reader.nextField [] around).step tok := step_firstField h around
  rw [Reader.reads, Reader.reads, hstep]

mutual

theorem plain_of_reads {t : ColumnType} {ts us : List Token} (h : IsType ts t) (hw : t.EachName IsWordy)
    (hs : Spells t.chars us) {around : List Around} {r : Reader}
    (hr : (Reader.start around).reads us = some r) :
    ∃ u, Settled r u around ∧ (u = t → t.EachName IsPlain) := by
  cases t with
  | array t =>
    cases h with
    | plain hm => simp [plainNames] at hm
    | array _ ht =>
      rw [chars_array] at hs
      obtain ⟨_, rfl, hbody⟩ := spells_keyword "array" (by decide) hs
      obtain ⟨us, rfl, hus⟩ := spells_last_symbol hbody
      rw [Reader.reads_cons (step_name (.array (named_self rfl)) around), Reader.reads_cons rfl, Reader.reads_append] at hr
      obtain ⟨next, hnext, hr⟩ := Option.bind_eq_some_iff.mp hr
      obtain ⟨u, hu, hplain⟩ := plain_of_reads ht hw hus hnext
      rw [Reader.reads_cons hu.step_closeAngle] at hr
      cases hr
      refine ⟨.array u, .finished, ?_⟩
      intro heq
      exact hplain (ColumnType.array.inj heq)
  | map k v =>
    cases h with
    | plain hm => simp [plainNames] at hm
    | map _ hk hv =>
      rw [chars_map] at hs
      obtain ⟨_, rfl, hbody⟩ := spells_keyword "map" (by decide) hs
      obtain ⟨ks, _, rfl, hks, hlast⟩ := spells_append_symbol hbody
      obtain ⟨vs, rfl, hvs⟩ := spells_last_symbol hlast
      rw [Reader.reads_cons (step_name (.map (named_self rfl)) around), Reader.reads_cons rfl, Reader.reads_append] at hr
      obtain ⟨next, hnext, hr⟩ := Option.bind_eq_some_iff.mp hr
      obtain ⟨u, hu, huplain⟩ := plain_of_reads hk hw.1 hks hnext
      rw [Reader.reads_cons hu.step_comma] at hr
      rw [Reader.reads_append] at hr
      obtain ⟨last, hlast, hr⟩ := Option.bind_eq_some_iff.mp hr
      obtain ⟨w, hw', hwplain⟩ := plain_of_reads hv hw.2 hvs hlast
      rw [Reader.reads_cons hw'.step_closeAngle] at hr
      cases hr
      refine ⟨.map u w, .finished, ?_⟩
      intro heq
      obtain ⟨hu, hw⟩ := ColumnType.map.inj heq
      exact ⟨huplain hu, hwplain hw⟩
  | struct fields =>
    cases h with
    | plain hm => simp [plainNames] at hm
    | emptyStruct hn => exact ⟨_, (IsType.emptyStruct hn).settled trivial hs hr, fun _ => trivial⟩
    | struct _ hf =>
      rw [chars_struct] at hs
      obtain ⟨_, rfl, hbody⟩ := spells_keyword "struct" (by decide) hs
      obtain ⟨us, rfl, hus⟩ := spells_last_symbol hbody
      rw [Reader.reads_cons (step_name (.struct (named_self rfl)) around), Reader.reads_cons rfl] at hr
      obtain ⟨tok, rest, rfl, htok⟩ := head_of_fields hf hw hus
      rw [List.cons_append, reads_firstField_cons htok, ← List.cons_append] at hr
      obtain ⟨more, rfl, hmore⟩ := plain_of_reads_fields hf hw hus hr
      refine ⟨.struct more, by simpa using Settled.finished, ?_⟩
      intro heq
      exact hmore (ColumnType.struct.inj heq)
  | _ => exact ⟨_, h.settled trivial hs hr, fun _ => trivial⟩

theorem plain_of_reads_fields {fields : List (String × ColumnType)} {ts us : List Token} (h : IsFields ts fields)
    (hw : EachFieldName IsWordy fields) (hs : Spells (fieldsChars fields) us)
    {before : List (String × ColumnType)} {around : List Around} {r : Reader}
    (hr : (Reader.nextField before around).reads (us ++ [.symbol .closeAngle]) = some r) :
    ∃ more, r = .finished (.struct (before.reverse ++ more)) around ∧
      (more = fields → EachFieldName IsPlain fields) := by
  cases h with
  | @last _ name _ t hname ht =>
    rw [fieldsChars_last] at hs
    obtain ⟨ns, us, rfl, hns, hs⟩ := spells_append_symbol hs
    rw [List.append_assoc, List.cons_append] at hr
    obtain ⟨field, hfield, hr⟩ := reads_name hw.1 hns hr
    rw [Reader.reads_append] at hr
    obtain ⟨next, hnext, hr⟩ := Option.bind_eq_some_iff.mp hr
    obtain ⟨u, hu, hplain⟩ := plain_of_reads ht hw.2.1 hs hnext
    rw [Reader.reads_cons hu.step_closeAngle] at hr
    cases hr
    refine ⟨[(field, u)], by simp, ?_⟩
    intro heq
    obtain ⟨rfl, rfl⟩ := Prod.mk.inj (List.cons.inj heq).1
    exact ⟨hfield rfl, hplain rfl, trivial⟩
  | @more _ name _ _ t rest hname ht hrest =>
    rw [fieldsChars_more _ _ hrest.ne_nil] at hs
    obtain ⟨ns, us, rfl, hns, hs⟩ := spells_append_symbol hs
    obtain ⟨us, vs, rfl, hs, hvs⟩ := spells_append_symbol hs
    rw [List.append_assoc, List.cons_append] at hr
    obtain ⟨field, hfield, hr⟩ := reads_name hw.1 hns hr
    rw [List.append_assoc, Reader.reads_append] at hr
    obtain ⟨next, hnext, hr⟩ := Option.bind_eq_some_iff.mp hr
    obtain ⟨u, hu, hplain⟩ := plain_of_reads ht hw.2.1 hs hnext
    rw [List.cons_append, Reader.reads_cons hu.step_comma] at hr
    obtain ⟨more, rfl, hmore⟩ := plain_of_reads_fields hrest hw.2.2 hvs hr
    refine ⟨(field, u) :: more, by simp, ?_⟩
    intro heq
    obtain ⟨hfst, rfl⟩ := List.cons.inj heq
    obtain ⟨rfl, rfl⟩ := Prod.mk.inj hfst
    exact ⟨hfield rfl, hplain rfl, hmore rfl⟩

end

/-! ## Types that are read back -/

theorem reads_back_iff_plain {s : String} {t : ColumnType} (h : ofString s = .ok t) :
    ofString t.render = .ok t ↔ t.EachName IsPlain := by
  obtain ⟨ts, hspells, ht⟩ := ofString_eq_ok.mp h
  rw [ofString_eq_ok, render, String.toList_ofList]
  constructor
  · intro hback
    obtain ⟨us, hus, hu⟩ := hback
    obtain ⟨r, hr, hsettled⟩ := hu.reads []
    obtain ⟨u, hu, hplain⟩ := plain_of_reads ht (ht.wordy hspells.word_chars) hus hr
    exact hplain (Option.some.inj (hu.complete?.symm.trans hsettled.complete?))
  · exact fun hp => ht.writes hp

theorem ok_of_toOption {ε α : Type} {x : Except ε α} {a : α} (h : x.toOption = some a) : x = .ok a := by
  cases x with
  | error e => cases h
  | ok b => exact congrArg _ (Option.some.inj h)

def mapOfStructs : ColumnType := .map .int (.struct [("b", .decimal 10 0), ("2", .array (.varchar 3))])

theorem mapOfStructs_reads_back :
    ofString "Map<int,struct<\x60b:Decimal,02:array<varchar(3)>>>" = .ok mapOfStructs ∧
      ofString mapOfStructs.render = .ok mapOfStructs := by
  have hread : ofString "Map<int,struct<\x60b:Decimal,02:array<varchar(3)>>>" = .ok mapOfStructs :=
    ok_of_toOption (by decide +kernel)
  have hnumeral : Text.decimal (2 : UInt32).toNat = "2" := by decide +kernel
  have htwo : IsPlain "2" := hnumeral ▸ .number 2
  have hplain : mapOfStructs.EachName IsPlain := ⟨trivial, .word rfl, trivial, htwo, trivial, trivial⟩
  exact ⟨hread, (reads_back_iff_plain hread).mpr hplain⟩

/-- The name 007 is read without its backticks, and written without them it is the number 7. -/
theorem quoted_number_not_read_back :
    ¬ ∀ (s : String) (t : ColumnType), ofString s = .ok t → ofString t.render = .ok t := by
  intro h
  have hread : ofString "struct<\x60007\x60:int>" = .ok (.struct [("007", .int)]) :=
    ok_of_toOption (by decide +kernel)
  have hback : ofString (render (.struct [("007", .int)])) = .ok (.struct [("7", .int)]) :=
    ok_of_toOption (by decide +kernel)
  have hsame := ColumnType.struct.inj (Except.ok.inj ((h _ _ hread).symm.trans hback))
  exact absurd (Prod.mk.inj (List.cons.inj hsame).1).1 (by decide)

end TableScan.ColumnType
