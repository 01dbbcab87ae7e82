/-
  TableScan.Proofs.RespelledColumns — tables do not drift by the case of letters and the white
  space in which their columns are listed.

  Names are put into lower case and trimmed, so neither the case of a letter nor white space
  next to a comma is seen (`columnNames_respelled`). Types are read alike
  (`listOfString_respelled`), and what is left of the case of field names is lost in memory
  (`dataType_recased`). Layouts, counts and duplicates depend on no more than that, so properties
  that are respelled give the same layout, or are refused for the same reason
  (`respelling_keeps_layout`).
-/

import TableScan.Proofs.RespelledTypes
import TableScan.Proofs.SchemaLayouts

namespace TableScan

/-! ## Names between commas -/

namespace Text

variable {d c : Char}

theorem splitAfter_mark (piece rest : List Char) :
    splitAfter [d] 0 piece (d :: rest) = piece.reverse :: splitAfter [d] 0 [] rest :=
  splitAfter_separator piece rest

theorem splitAfter_other (h : c ≠ d) (piece rest : List Char) :
    splitAfter [d] 0 piece (c :: rest) = splitAfter [d] 0 (c :: piece) rest := by
  have hpiece : splitAfter [d] 0 piece ([c] ++ rest) = splitAfter [d] 0 ([c].reverse ++ piece) rest :=
    splitAfter_piece rest piece (by simpa using h.symm)
  exact hpiece

/-- A separator ends the pieces before it. -/
theorem splitAfter_append_mark (xs ys piece : List Char) :
    splitAfter [d] 0 piece (xs ++ d :: ys) = splitAfter [d] 0 piece xs ++ splitAfter [d] 0 [] ys := by
  induction xs generalizing piece with
  | nil => exact splitAfter_mark piece ys
  | cons x xs ih =>
    rw [List.cons_append]
    by_cases h : x = d
    · rw [h, splitAfter_mark, splitAfter_mark, ih, List.cons_append]
    · rw [splitAfter_other h, splitAfter_other h, ih]

/-- Separators are found again among other characters in the place of all others. -/
theorem splitAfter_map {f : Char → Char} (hf : ∀ x, f x = d ↔ x = d) (xs piece : List Char) :
    splitAfter [d] 0 (piece.map f) (xs.map f) = (splitAfter [d] 0 piece xs).map (List.map f) := by
  induction xs generalizing piece with
  | nil =>
    show [(piece.map f).reverse] = [piece.reverse.map f]
    rw [List.map_reverse]
  | cons x xs ih =>
    rw [List.map_cons]
    by_cases h : x = d
    · rw [h, (hf d).mpr rfl, splitAfter_mark, splitAfter_mark, List.map_cons, List.map_reverse]
      exact congrArg _ (ih [])
    · rw [splitAfter_other (mt (hf x).mp h), splitAfter_other h, ← List.map_cons, ih]

/-- The characters of pieces are those of the text. -/
theorem mem_splitAfter {xs piece part : List Char} (h : part ∈ splitAfter [d] 0 piece xs) :
    ∀ c ∈ part, c ∈ piece ∨ c ∈ xs := by
  induction xs generalizing piece with
  | nil =>
    obtain rfl := List.mem_singleton.mp h
    exact fun c hc => .inl (List.mem_reverse.mp hc)
  | cons x xs ih =>
    intro c hc
    by_cases hx : x = d
    · rw [hx, splitAfter_mark] at h
      rcases List.mem_cons.mp h with rfl | h
      · exact .inl (List.mem_reverse.mp hc)
      · rcases ih h c hc with hnone | hrest
        · cases hnone
        · exact .inr (List.mem_cons_of_mem x hrest)
    · rw [splitAfter_other hx] at h
      rcases ih h c hc with hpiece | hrest
      · rcases List.mem_cons.mp hpiece with rfl | hpiece
        · exact .inr (List.mem_cons_self ..)
        · exact .inl hpiece
      · exact .inr (List.mem_cons_of_mem x hrest)

/-! ## White space around names -/

theorem trimChars_cons (hc : isBlank c = true) (cs : List Char) : trimChars (c :: cs) = trimChars cs := by
  rw [trimChars, List.dropWhile_cons_of_pos hc, trimChars]

theorem trimChars_concat (hc : isBlank c = true) (cs : List Char) : trimChars (cs ++ [c]) = trimChars cs := by
  unfold trimChars
  rw [List.dropWhile_append]
  cases cs.dropWhile isBlank with
  | nil => rw [List.isEmpty_nil, if_pos rfl, List.dropWhile_cons_of_pos hc, List.dropWhile_nil]
  | cons x rest =>
    rw [List.isEmpty_cons, if_neg Bool.false_ne_true, List.reverse_concat, List.dropWhile_cons_of_pos hc]

/-- A blank at the start of a text is trimmed off the first piece. -/
theorem map_trim_splitAfter_cons (hc : isBlank c = true) (xs piece : List Char) :
    (splitAfter [d] 0 (piece ++ [c]) xs).map trimChars = (splitAfter [d] 0 piece xs).map trimChars := by
  induction xs generalizing piece with
  | nil =>
    show [trimChars (piece ++ [c]).reverse] = [trimChars piece.reverse]
    rw [List.reverse_append, List.reverse_singleton, List.singleton_append, trimChars_cons hc]
  | cons x xs ih =>
    by_cases h : x = d
    · rw [h, splitAfter_mark, splitAfter_mark, List.map_cons, List.map_cons, List.reverse_append,
        List.reverse_singleton, List.singleton_append, trimChars_cons hc]
    · rw [splitAfter_other h, splitAfter_other h, ← List.cons_append, ih]

/-- A blank at the end of a text is trimmed off the last piece. -/
theorem map_trim_splitAfter_concat (hc : isBlank c = true) (hd : c ≠ d) (xs piece : List Char) :
    (splitAfter [d] 0 piece (xs ++ [c])).map trimChars = (splitAfter [d] 0 piece xs).map trimChars := by
  induction xs generalizing piece with
  | nil =>
    rw [List.nil_append, splitAfter_other hd]
    show [trimChars (c :: piece).reverse] = [trimChars piece.reverse]
    rw [List.reverse_cons, trimChars_concat hc]
  | cons x xs ih =>
    rw [List.cons_append]
    by_cases h : x = d
    · rw [h, splitAfter_mark, splitAfter_mark, List.map_cons, List.map_cons, ih]
    · rw [splitAfter_other h, splitAfter_other h, ih]

end Text

open TableScan.Text

/-- White space between tokens is ASCII, and blank. -/
theorem isSpace_cases {c : Char} (h : ColumnType.isSpace c = true) : c.toNat < 0x80 ∧ isBlank c = true := by
  have hc : (((c = ' ' ∨ c = '\t') ∨ c = '\n') ∨ c = '\x0c') ∨ c = '\r' := by simpa [ColumnType.isSpace] using h
  rcases hc with (((rfl | rfl) | rfl) | rfl) | rfl <;> exact ⟨by decide, rfl⟩

theorem ne_comma_of_isSpace {c : Char} (h : ColumnType.isSpace c = true) : c ≠ ',' := by
  rintro rfl
  cases h

theorem isBlank_toLower (c : Char) : isBlank c.toLower = isBlank c := by
  refine apply_toLower (a := false) (fun d hd => ?_) c
  have := ColumnType.toNat_of_isAlpha hd
  simp only [isBlank, Bool.or_eq_false_iff, Bool.and_eq_false_iff, decide_eq_false_iff_not, beq_eq_false_iff_ne]
  omega

theorem toLower_eq_comma (c : Char) : c.toLower = ',' ↔ c = ',' := by
  rcases toLower_cases c with heq | ⟨hc, hlower⟩
  · rw [heq]
  · have hcomma : ','.isAlpha = false := by decide
    constructor
    · intro h
      rw [h, hcomma] at hlower
      cases hlower
    · rintro rfl
      cases hcomma.symm.trans hc

theorem isAscii_toLower (c : Char) : decide (c.toLower.toNat < 0x80) = decide (c.toNat < 0x80) := by
  refine apply_toLower (p := fun d => decide (d.toNat < 0x80)) (a := true) (fun d hd => decide_eq_true ?_) c
  have := ColumnType.toNat_of_isAlpha hd
  omega

theorem trimChars_map_toLower (cs : List Char) : trimChars (cs.map Char.toLower) = (trimChars cs).map Char.toLower := by
  have hdrop : ∀ ds : List Char, (ds.map Char.toLower).dropWhile isBlank = (ds.dropWhile isBlank).map Char.toLower := by
    intro ds
    rw [List.dropWhile_map]
    exact congrArg (fun p => (ds.dropWhile p).map Char.toLower) (funext isBlank_toLower)
  unfold trimChars
  rw [hdrop, ← List.map_reverse, hdrop, List.map_reverse]

theorem mem_trimChars {cs : List Char} {c : Char} (h : c ∈ trimChars cs) : c ∈ cs := by
  unfold trimChars at h
  rw [List.mem_reverse] at h
  have hmem := (List.dropWhile_sublist _).mem h
  rw [List.mem_reverse] at hmem
  exact (List.dropWhile_sublist _).mem hmem

namespace Layout

/-- The name that a piece of a listing stands for. -/
def nameOf (piece : List Char) : String := String.ofList (lowerChars (trimChars piece))

/-- The names that stand between commas, empty ones included. -/
def listed (cs : List Char) : List String := (splitAfter [','] 0 [] cs).map nameOf

variable {cs ds : List Char} {c : Char}

theorem listed_append (cs ds : List Char) : listed (cs ++ ',' :: ds) = listed cs ++ listed ds := by
  rw [listed, splitAfter_append_mark, List.map_append]
  rfl

theorem listed_eq (cs : List Char) :
    listed cs = ((splitAfter [','] 0 [] cs).map trimChars).map fun piece => String.ofList (lowerChars piece) := by
  rw [List.map_map]
  rfl

theorem listed_cons (hc : ColumnType.isSpace c = true) (cs : List Char) : listed (c :: cs) = listed cs := by
  have htrim := map_trim_splitAfter_cons (d := ',') (isSpace_cases hc).2 cs []
  rw [listed_eq, listed_eq, splitAfter_other (ne_comma_of_isSpace hc), ← htrim]
  rfl

theorem listed_concat (hc : ColumnType.isSpace c = true) (cs : List Char) : listed (cs ++ [c]) = listed cs := by
  rw [listed_eq, listed_eq, map_trim_splitAfter_concat (isSpace_cases hc).2 (ne_comma_of_isSpace hc)]

theorem listed_spaced {before after : List Char} (hc : ColumnType.isSpace c = true) (h : Beside [','] before after) :
    listed (before ++ after) = listed (before ++ c :: after) := by
  cases h with
  | start => exact (listed_cons hc after).symm
  | stop =>
    rw [List.append_nil]
    exact (listed_concat hc before).symm
  | @behind before _ mark hmark =>
    obtain rfl := List.mem_singleton.mp hmark
    rw [List.append_assoc, List.append_assoc, List.singleton_append, List.singleton_append, listed_append,
      listed_append, listed_cons hc]
  | @ahead _ after mark hmark =>
    obtain rfl := List.mem_singleton.mp hmark
    have hsplit : before ++ c :: ',' :: after = (before ++ [c]) ++ ',' :: after := by simp
    rw [hsplit, listed_append, listed_append, listed_concat hc]

theorem nameOf_map_toLower {piece : List Char} (h : ∀ c ∈ piece, c.toNat < 0x80) :
    nameOf (piece.map Char.toLower) = nameOf piece := by
  have htrim : ∀ c ∈ trimChars piece, c.toNat < 0x80 := fun c hc => h c (mem_trimChars hc)
  have hlower : ∀ c ∈ (trimChars piece).map Char.toLower, c.toNat < 0x80 := by
    intro c hc
    obtain ⟨d, hd, rfl⟩ := List.mem_map.mp hc
    exact of_decide_eq_true ((isAscii_toLower d).trans (decide_eq_true (htrim d hd)))
  unfold nameOf lowerChars
  rw [trimChars_map_toLower, lowerAfter_ascii _ _ hlower, lowerAfter_ascii _ _ htrim, ColumnType.map_toLower_toLower]

theorem listed_map_toLower (h : ∀ c ∈ cs, c.toNat < 0x80) : listed (cs.map Char.toLower) = listed cs := by
  have hsplit : splitAfter [','] 0 [] (cs.map Char.toLower) = (splitAfter [','] 0 [] cs).map (List.map Char.toLower) :=
    splitAfter_map toLower_eq_comma cs []
  unfold listed
  rw [hsplit, List.map_map]
  refine List.map_congr_left fun piece hpiece => nameOf_map_toLower fun c hc => ?_
  exact h c ((mem_splitAfter hpiece c hc).resolve_left List.not_mem_nil)

/-- An edit leaves the names as they are, and an ASCII text one. -/
theorem listed_respelled (h : Respells [','] cs ds) (hcs : ∀ c ∈ cs, c.toNat < 0x80) :
    listed cs = listed ds ∧ ∀ d ∈ ds, d.toNat < 0x80 := by
  cases h with
  | recased h =>
    have hds : ∀ d ∈ ds, d.toNat < 0x80 := by
      intro d hd
      exact of_decide_eq_true (ColumnType.all_recased isAscii_toLower h (fun c hc => decide_eq_true (hcs c hc)) d hd)
    exact ⟨by rw [← listed_map_toLower hcs, h, listed_map_toLower hds], hds⟩
  | spaced hc h =>
    refine ⟨listed_spaced hc h, ?_⟩
    simp only [List.forall_mem_append, List.forall_mem_cons] at hcs ⊢
    exact ⟨hcs.1, (isSpace_cases hc).1, hcs.2⟩
  | unspaced hc h =>
    refine ⟨(listed_spaced hc h).symm, ?_⟩
    simp only [List.forall_mem_append, List.forall_mem_cons] at hcs ⊢
    exact ⟨hcs.1, hcs.2.2⟩

/-- A property that is absent in both, or an ASCII text in one and in the other the text after any number of edits. -/
inductive Respelled (marks : List Char) : Option String → Option String → Prop
  | absent : Respelled marks none none
  | edited {s t : String} : (∀ c ∈ s.toList, c.toNat < 0x80) →
      Relation.ReflTransGen (Respells marks) s.toList t.toList → Respelled marks (some s) (some t)

variable {p q : Properties}

theorem columnNames_eq_listed {raw : String} (hdelimiter : p.get? delimiterKey = none)
    (hraw : p.get? columnsKey = some raw) : columnNames p = (listed raw.toList).filter (· ≠ "") := by
  have hcomma : delimiter p = "," := by
    unfold delimiter
    rw [hdelimiter]
  unfold columnNames
  rw [hraw, hcomma]
  rfl

theorem columnNames_respelled (hp : p.get? delimiterKey = none) (hq : q.get? delimiterKey = none)
    (h : Respelled [','] (p.get? columnsKey) (q.get? columnsKey)) : columnNames p = columnNames q := by
  generalize hraw : p.get? columnsKey = raw at h
  generalize hraw' : q.get? columnsKey = raw' at h
  cases h with
  | absent =>
    unfold columnNames
    rw [hraw, hraw']
  | @edited s t hascii hedits =>
    have hlisted : listed s.toList = listed t.toList := by
      generalize s.toList = cs at hedits hascii
      generalize t.toList = ds at hedits
      have hkept : listed cs = listed ds ∧ ∀ d ∈ ds, d.toNat < 0x80 := by
        induction hedits with
        | refl => exact ⟨rfl, hascii⟩
        | tail _ hedit ih =>
          obtain ⟨heq, hds⟩ := listed_respelled hedit ih.2
          exact ⟨ih.1.trans heq, hds⟩
      exact hkept.1
    rw [columnNames_eq_listed hp hraw, columnNames_eq_listed hq hraw', hlisted]

end Layout

/-! ## Types in memory -/

namespace ColumnType

theorem isAscii_of_isWordChar {c : Char} (h : isWordChar c = true) : c.toNat < 0x80 := by
  simp only [isWordChar, Char.isAlphanum, Bool.or_eq_true, beq_iff_eq] at h
  rcases h with (((((h | h) | rfl) | rfl) | rfl) | rfl)
  · have := toNat_of_isAlpha h
    omega
  · have := toNat_of_isDigit h
    omega
  all_goals decide

theorem lower_of_wordy {name : String} (h : IsWordy name) : lower name = recasedName name := by
  unfold lower lowerChars recasedName
  rw [lowerAfter_ascii _ _ fun c hc => isAscii_of_isWordChar (h c hc)]

theorem IsWordy.recased {name : String} (h : IsWordy name) : IsWordy (recasedName name) := by
  intro c hc
  rw [recasedName, String.toList_ofList] at hc
  obtain ⟨d, hd, rfl⟩ := List.mem_map.mp hc
  rw [isWordChar_toLower]
  exact h d hd

theorem lower_recasedName {name : String} (h : IsWordy name) : lower (recasedName name) = lower name := by
  rw [lower_of_wordy h.recased, lower_of_wordy h, recasedName, recasedName, String.toList_ofList, map_toLower_toLower]

mutual

/-- The case of field names is lost in memory. -/
theorem dataType_recased : ∀ {t : ColumnType}, t.EachName IsWordy → t.recased.dataType = t.dataType
  | .array t, h => by
    have ht : t.recased.dataType = t.dataType := dataType_recased h
    rw [ColumnType.recased, dataType, dataType, ht]
  | .map k v, h => by rw [ColumnType.recased, dataType, dataType, dataType_recased h.1, dataType_recased h.2]
  | .struct fields, h => by rw [ColumnType.recased, dataType, dataType, fieldTypes_recased h]
  | .void, _ | .boolean, _ | .tinyint, _ | .smallint, _ | .int, _ | .bigint, _ | .float, _ | .double, _ | .string, _
  | .binary, _ | .date, _ | .timestamp, _ | .varchar _, _ | .char _, _ | .decimal _ _, _ => rfl

theorem fieldTypes_recased : ∀ {fields : List (String × ColumnType)}, EachFieldName IsWordy fields →
    fieldTypes (recasedFields fields) = fieldTypes fields
  | [], _ => rfl
  | (_, _) :: _, h => by
    rw [recasedFields, fieldTypes, fieldTypes, lower_recasedName h.1, dataType_recased h.2.1, fieldTypes_recased h.2.2]

end

theorem IsList.wordy {ts : List Token} {types : List ColumnType} (h : IsList ts types)
    (hw : ∀ name, .word name ∈ ts → ∀ c ∈ name, isWordChar c = true) : ∀ t ∈ types, t.EachName IsWordy := by
  induction h with
  | one ht => exact List.forall_mem_singleton.mpr (ht.wordy hw)
  | more s _ ht _ ih =>
    refine List.forall_mem_cons.mpr ⟨ht.wordy fun name hname => hw name (by simp [hname]), ?_⟩
    exact ih fun name hname => hw name (by simp [hname])

theorem wordy_of_listOfString {s : String} {types : List ColumnType} (h : listOfString s = .ok types) :
    ∀ t ∈ types, t.EachName IsWordy := by
  obtain ⟨ts, hspells, ⟨-, rfl⟩ | hlist⟩ := listOfString_eq_ok.mp h
  · exact List.forall_mem_nil _
  · exact hlist.wordy hspells.word_chars

theorem map_dataType_recased {types : List ColumnType} (h : ∀ t ∈ types, t.EachName IsWordy) :
    (types.map ColumnType.recased).map dataType = types.map dataType := by
  rw [List.map_map]
  exact List.map_congr_left fun t ht => dataType_recased (h t ht)

end ColumnType

/-! ## Layouts -/

namespace Layout

variable {p q : Properties}

/-- Faults of one kind, which say the same but for how the text is spelled. -/
inductive Fault.SameKind : Fault → Fault → Prop
  | columnTypes {e f : ColumnType.ReadError} : e.fault.refusal? = f.fault.refusal? →
      SameKind (.columnTypes e) (.columnTypes f)
  | countMismatch (names types : Nat) : SameKind (.countMismatch names types) (.countMismatch names types)
  | missingNames : SameKind .missingNames .missingNames
  | duplicateColumn (name : String) : SameKind (.duplicateColumn name) (.duplicateColumn name)

theorem columnTypes_respelled (h : Respelled ColumnType.symbolChars (p.get? columnTypesKey) (q.get? columnTypesKey)) :
    EndAlike (fun types types' => types.map ColumnType.dataType = types'.map ColumnType.dataType)
      (fun e f => e.fault.refusal? = f.fault.refusal?) (columnTypes p) (columnTypes q) := by
  unfold columnTypes
  generalize p.get? columnTypesKey = raw at h
  generalize q.get? columnTypesKey = raw' at h
  cases h with
  | absent => exact .ok rfl
  | @edited s t _ hedits =>
    show EndAlike _ _ (ColumnType.listOfString s) (ColumnType.listOfString t)
    have halike := ColumnType.listOfString_respelled hedits
    generalize hs : ColumnType.listOfString s = x at halike ⊢
    generalize ht : ColumnType.listOfString t = y at halike ⊢
    cases halike with
    | error hrefusal => exact .error hrefusal
    | ok hsame =>
      apply EndAlike.ok
      rw [← ColumnType.map_dataType_recased (ColumnType.wordy_of_listOfString hs), hsame,
        ColumnType.map_dataType_recased (ColumnType.wordy_of_listOfString ht)]

theorem zipWith_column (names : List String) (types : List ColumnType) : names.zipWith column types =
    names.zipWith (fun name type => ⟨name, type, true⟩) (types.map ColumnType.dataType) := by
  rw [List.zipWith_map_right]
  rfl

/-- The columns of as many names as types. -/
def matched (names : List String) (types : List ColumnType) : Except Fault Layout :=
  if names.length ≠ types.length then .error (.countMismatch names.length types.length)
  else ofColumns (names.zipWith column types)

/-- Only what types are in memory matters. -/
theorem matched_alike (names : List String) {types types' : List ColumnType}
    (h : types.map ColumnType.dataType = types'.map ColumnType.dataType) :
    EndAlike (· = ·) Fault.SameKind (matched names types) (matched names types') := by
  have hlength : types.length = types'.length := by simpa using congrArg List.length h
  unfold matched
  rw [zipWith_column, zipWith_column, h, hlength]
  split
  · exact .error (.countMismatch ..)
  · unfold ofColumns
    split
    · exact .error (.duplicateColumn _)
    · exact .ok rfl

/-- Properties that are respelled give the same layout, or are refused for the same reason. -/
theorem ofColumnProperties_respelled (hp : p.get? delimiterKey = none) (hq : q.get? delimiterKey = none)
    (hcolumns : Respelled [','] (p.get? columnsKey) (q.get? columnsKey))
    (htypes : Respelled ColumnType.symbolChars (p.get? columnTypesKey) (q.get? columnTypesKey)) :
    EndAlike (· = ·) Fault.SameKind (ofColumnProperties p) (ofColumnProperties q) := by
  unfold ofColumnProperties
  rw [columnNames_respelled hp hq hcolumns]
  refine ((columnTypes_respelled htypes).mapError fun _ _ => Fault.SameKind.columnTypes).bind ?_
  intro types types' hsame
  have hempty : types = [] ↔ types' = [] := by
    rw [← List.map_eq_nil_iff (f := ColumnType.dataType), hsame, List.map_eq_nil_iff]
  by_cases hmissing : columnNames q = [] ∧ types ≠ []
  · have hmissing' : columnNames q = [] ∧ types' ≠ [] := ⟨hmissing.1, mt hempty.mpr hmissing.2⟩
    rw [if_pos hmissing, if_pos hmissing']
    exact .error .missingNames
  · have hmissing' : ¬ (columnNames q = [] ∧ types' ≠ []) := fun h => hmissing ⟨h.1, mt hempty.mp h.2⟩
    rw [if_neg hmissing, if_neg hmissing']
    show EndAlike _ _ (matched (columnNames q) (if types = [] then _ else types))
      (matched (columnNames q) (if types' = [] then _ else types'))
    apply matched_alike
    by_cases hnone : types = []
    · rw [if_pos hnone, if_pos (hempty.mp hnone)]
    · rw [if_neg hnone, if_neg (mt hempty.mpr hnone), hsame]

/-- Neither the case of letters nor white space next to separators lets a layout drift or changes why there is
none. -/
theorem respelling_keeps_layout (p q : Properties) (hp : p.get? delimiterKey = none) (hq : q.get? delimiterKey = none)
    (hcolumns : Respelled [','] (p.get? columnsKey) (q.get? columnsKey))
    (htypes : Respelled ColumnType.symbolChars (p.get? columnTypesKey) (q.get? columnTypesKey)) :
    (∀ l, ofColumnProperties p = .ok l → ofColumnProperties q = .ok l) ∧
    (∀ e, ofColumnProperties p = .error e → ∃ f, ofColumnProperties q = .error f ∧ e.SameKind f) := by
  have halike := ofColumnProperties_respelled hp hq hcolumns htypes
  constructor
  · intro l hl
    rw [hl] at halike
    generalize ofColumnProperties q = y at halike ⊢
    cases halike with
    | ok heq => rw [heq]
  · intro e he
    rw [he] at halike
    generalize ofColumnProperties q = y at halike ⊢
    cases halike with
    | error hkind => exact ⟨_, rfl, hkind⟩

theorem ascii_of_all {s : String} (h : s.toList.all (fun c => decide (c.toNat < 0x80)) = true) :
    ∀ c ∈ s.toList, c.toNat < 0x80 := by
  intro c hc
  exact of_decide_eq_true (List.all_eq_true.mp h c hc)

def tagListing : Properties := .ofList [(columnsKey, "Id,Tags"), (columnTypesKey, " int,struct<A:date>")]

def tagListingRespelled : Properties := .ofList [(columnsKey, "id ,TAGS"), (columnTypesKey, "INT, struct<a:Date>")]

theorem tagNames_respelled : Respelled [','] (some "Id,Tags") (some "id ,TAGS") := by
  apply Respelled.edited
  · exact ascii_of_all (by decide)
  · have hcase : "Id,Tags".toList.map Char.toLower = ("id".toList ++ ',' :: "TAGS".toList).map Char.toLower := by decide
    have hspace : "id ,TAGS".toList = "id".toList ++ ' ' :: ',' :: "TAGS".toList := by decide
    rw [hspace]
    exact .tail (.single (.recased hcase)) (.spaced rfl (.ahead (List.mem_singleton_self _)))

theorem tagTypes_respelled :
    Respelled ColumnType.symbolChars (some " int,struct<A:date>") (some "INT, struct<a:Date>") := by
  apply Respelled.edited
  · exact ascii_of_all (by decide)
  · have hcase : " int,struct<A:date>".toList.map Char.toLower =
        ([] ++ ' ' :: (("INT".toList ++ [',']) ++ "struct<a:Date>".toList)).map Char.toLower := by decide
    have hspace : "INT, struct<a:Date>".toList = ("INT".toList ++ [',']) ++ ' ' :: "struct<a:Date>".toList := by decide
    rw [hspace]
    exact .tail (.tail (.single (.recased hcase)) (.unspaced rfl .start)) (.spaced rfl (.behind (by decide)))

theorem tagListing_keeps_layout : ∃ l, ofColumnProperties tagListing = .ok l ∧
    ofColumnProperties tagListingRespelled = .ok l := by
  have hlayout : ofColumnProperties tagListing =
      .ok ⟨[column "id" .int, column "tags" (.struct [("A", .date)])]⟩ := ColumnType.ok_of_toOption (by decide +kernel)
  obtain ⟨hkept, -⟩ :=
    respelling_keeps_layout tagListing tagListingRespelled rfl rfl tagNames_respelled tagTypes_respelled
  exact ⟨_, hlayout, hkept _ hlayout⟩

end Layout

end TableScan
