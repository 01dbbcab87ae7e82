/-
  TableScan.Proofs.SchemaLayouts — one list of columns, told by an Avro schema or by the column
  properties, is one layout.

  Names and types come by two ways. In the properties they stand in two texts, names behind a
  delimiter and types as expressions with a separator between any two. In the schema each
  stands in a field of a record. `DeclaresRecord` and `DeclaresColumns` say that properties list
  columns in either notation, and `notations_agree` that the layouts are then equal, so that a
  table and its partitions do not drift by the notation alone.

  - `splitChars_intercalate`: names are found again between the delimiters.
  - `ColumnType.listOfString_intercalated`: and types between the separators.
  - `ofColumns_fieldTypes`: names that differ as ASCII text without regard to case are no
    duplicates.
-/

import TableScan.Layout
import TableScan.Proofs.Drift
import TableScan.Proofs.SchemaTypes
import TableScan.Proofs.TopLevelPieces
import TableScan.Proofs.WritableTypes

namespace TableScan

open TableScan.Json (Tree Value nestingLimit)

/-! ## Pieces between separators -/

namespace Text

variable {d : Char} {ds : List Char}

/-- No separator starts in a piece without its first character. -/
theorem splitAfter_piece (rest : List Char) : ∀ {run : List Char} (piece : List Char), d ∉ run →
    splitAfter (d :: ds) 0 piece (run ++ rest) = splitAfter (d :: ds) 0 (run.reverse ++ piece) rest
  | [], _, _ => rfl
  | c :: run, piece, h => by
    have hc : (d == c) = false := beq_eq_false_iff_ne.mpr fun heq => h (heq ▸ List.mem_cons_self ..)
    have hrun : d ∉ run := fun hmem => h (List.mem_cons_of_mem c hmem)
    rw [List.cons_append, splitAfter, List.isPrefixOf, hc, Bool.false_and, if_neg Bool.false_ne_true,
      splitAfter_piece rest (c :: piece) hrun, List.reverse_cons, List.append_assoc]
    rfl

theorem splitAfter_skipped (separator rest : List Char) : ∀ run : List Char,
    splitAfter separator run.length [] (run ++ rest) = splitAfter separator 0 [] rest
  | [] => rfl
  | _ :: run => splitAfter_skipped separator rest run

theorem splitAfter_separator (piece rest : List Char) :
    splitAfter (d :: ds) 0 piece (d :: ds ++ rest) = piece.reverse :: splitChars (d :: ds) rest := by
  have hprefix : (d :: ds).isPrefixOf (d :: (ds ++ rest)) = true :=
    List.isPrefixOf_iff_prefix.mpr (List.prefix_append (d :: ds) rest)
  rw [List.cons_append, splitAfter, hprefix, if_pos rfl, List.length_cons, Nat.add_sub_cancel, splitAfter_skipped]
  rfl

/-- Pieces are found again if the separator starts with a character that is in none of them. -/
theorem splitChars_intercalate {pieces : List (List Char)} (hne : pieces ≠ []) (h : ∀ piece ∈ pieces, d ∉ piece) :
    splitChars (d :: ds) ((d :: ds).intercalate pieces) = pieces := by
  induction pieces with
  | nil => exact absurd rfl hne
  | cons piece pieces ih =>
    obtain ⟨hpiece, hpieces⟩ := List.forall_mem_cons.mp h
    cases pieces with
    | nil =>
      have hsplit : splitAfter (d :: ds) 0 [] (piece ++ []) = splitAfter (d :: ds) 0 (piece.reverse ++ []) [] :=
        splitAfter_piece [] [] hpiece
      rw [List.append_nil, List.append_nil] at hsplit
      rw [List.intercalate_singleton, splitChars, hsplit, splitAfter, List.reverse_reverse]
    | cons next rest =>
      rw [List.intercalate_cons_cons, List.append_assoc, splitChars, splitAfter_piece _ _ hpiece,
        splitAfter_separator, List.append_nil, List.reverse_reverse, ih (by simp) hpieces]

/-- Nothing is trimmed off a text that neither starts nor ends with a blank. -/
theorem trimChars_of_ends {cs : List Char} (hhead : ∀ c ∈ cs.head?, isBlank c = false)
    (hlast : ∀ c ∈ cs.getLast?, isBlank c = false) : trimChars cs = cs := by
  have hkeep : ∀ ds : List Char, (∀ c ∈ ds.head?, isBlank c = false) → ds.dropWhile isBlank = ds := by
    intro ds hds
    cases ds with
    | nil => rfl
    | cons c rest => exact List.dropWhile_cons_of_neg (by simp [hds c rfl])
  have hback : ∀ c ∈ cs.reverse.head?, isBlank c = false := by
    rw [List.head?_reverse]
    exact hlast
  rw [trimChars, hkeep cs hhead, hkeep _ hback, List.reverse_reverse]

theorem trimChars_eq_self {cs : List Char} (h : ∀ c ∈ cs, isBlank c = false) : trimChars cs = cs :=
  trimChars_of_ends (fun c hc => h c (List.mem_of_head? hc)) fun c hc => h c (List.mem_of_getLast? hc)

end Text

open TableScan.Text

/-! ## Avro names -/

theorem isNameChar_of_isNameHead {c : Char} (h : isNameHead c = true) : isNameChar c = true := by
  rw [isNameHead, Bool.or_eq_true] at h
  rw [isNameChar, Char.isAlphanum, Bool.or_eq_true, Bool.or_eq_true]
  exact h.imp_left .inl

theorem mem_avroName {cs : List Char} (h : isAvroName cs = true) : ∀ c ∈ cs, isNameChar c = true := by
  cases cs with
  | nil => cases h
  | cons c rest =>
    rw [isAvroName, Bool.and_eq_true, List.all_eq_true] at h
    exact List.forall_mem_cons.mpr ⟨isNameChar_of_isNameHead h.1, h.2⟩

theorem not_mem_avroName {cs : List Char} (h : isAvroName cs = true) {c : Char} (hc : isNameChar c = false) :
    c ∉ cs := by
  intro hmem
  cases hc.symm.trans (mem_avroName h c hmem)

theorem avroName_ne_nil {cs : List Char} (h : isAvroName cs = true) : cs ≠ [] := by
  rintro rfl
  cases h

/-- A name does not start with a digit. -/
theorem isDigit_of_isNameHead {c : Char} (h : isNameHead c = true) : c.isDigit = false := by
  rw [isNameHead, Bool.or_eq_true] at h
  rcases h with h | h
  · refine eq_false_of_ne_true fun hdigit => ?_
    have := ColumnType.toNat_of_isAlpha h
    have := toNat_of_isDigit hdigit
    omega
  · obtain rfl := beq_iff_eq.mp h
    decide

/-- The characters of names lie between 0 and z. -/
theorem isNameChar_range {c : Char} (h : isNameChar c = true) : 0x30 ≤ c.toNat ∧ c.toNat ≤ 0x7A := by
  rw [isNameChar, Char.isAlphanum, Bool.or_eq_true, Bool.or_eq_true] at h
  rcases h with (h | h) | h
  · have := ColumnType.toNat_of_isAlpha h
    omega
  · have := toNat_of_isDigit h
    omega
  · obtain rfl := beq_iff_eq.mp h
    decide

theorem isBlank_of_isNameChar {c : Char} (h : isNameChar c = true) : isBlank c = false := by
  have := isNameChar_range h
  simp only [isBlank, Bool.or_eq_false_iff, Bool.and_eq_false_iff, decide_eq_false_iff_not, beq_eq_false_iff_ne]
  omega

theorem lowerChars_avroName {cs : List Char} (h : isAvroName cs = true) : lowerChars cs = cs.map Char.toLower :=
  lowerAfter_ascii [] cs fun c hc => by
    have := isNameChar_range (mem_avroName h c hc)
    omega

theorem lower_avroName_inj {a b : String} (ha : isAvroName a.toList = true) (hb : isAvroName b.toList = true)
    (h : lower a = lower b) : sameIgnoringCase a b = true := by
  rw [lower, lower, lowerChars_avroName ha, lowerChars_avroName hb] at h
  exact beq_iff_eq.mpr (String.ofList_injective h)

/-- Such a name is one word, and so is read as itself. -/
theorem isWord_avroName {cs : List Char} (h : isAvroName cs = true) : ColumnType.isWord cs = true := by
  cases cs with
  | nil => cases h
  | cons c rest =>
    have hword : ∀ d, isNameChar d = true → ColumnType.isWordChar d = true := by
      intro d hd
      rw [isNameChar, Bool.or_eq_true] at hd
      rcases hd with hd | hd <;> simp [ColumnType.isWordChar, hd]
    have hhead : isNameHead c = true := by
      rw [isAvroName, Bool.and_eq_true] at h
      exact h.1
    simp only [ColumnType.isWord, isDigit_of_isNameHead hhead, Bool.not_false, Bool.true_and, List.all_eq_true]
    exact fun d hd => hword d (mem_avroName h d hd)

/-! ## Types in column properties -/

namespace ColumnType

theorem isBareWord_avroName {cs : List Char} (h : isAvroName cs = true) : IsBareWord cs := by
  have hquote : '\x60' ∉ cs := not_mem_avroName h (by decide)
  exact ⟨isWord_avroName h, fun heq => hquote (List.mem_of_head? heq), fun heq => hquote (List.mem_of_getLast? heq)⟩

mutual

theorem HasSchema.parts : ∀ {t : ColumnType}, t.HasSchema →
    t.EachDecimal IsDecimal ∧ t.EachName fun name => isAvroName name.toList = true
  | .array t, h => @HasSchema.parts t h
  | .map k v, h => by
    obtain ⟨rfl, hv⟩ := h
    obtain ⟨hd, hn⟩ := hv.parts
    exact ⟨⟨trivial, hd⟩, trivial, hn⟩
  | .struct columns, h => @FieldsHaveSchema.parts columns h
  | .decimal _ _, h => ⟨h, trivial⟩
  | .void, _ | .boolean, _ | .int, _ | .bigint, _ | .float, _ | .double, _ | .string, _ | .binary, _
  | .date, _ => ⟨trivial, trivial⟩

theorem FieldsHaveSchema.parts : ∀ {columns : List (String × ColumnType)}, FieldsHaveSchema columns →
    EachFieldDecimal IsDecimal columns ∧ EachFieldName (fun name => isAvroName name.toList = true) columns
  | [], _ => ⟨trivial, trivial⟩
  | (_, _) :: _, h => by
    obtain ⟨hname, ht, hrest⟩ := h
    obtain ⟨hd, hn⟩ := ht.parts
    obtain ⟨hds, hns⟩ := FieldsHaveSchema.parts hrest
    exact ⟨⟨hd, hds⟩, hname, hn, hns⟩

end

theorem FieldsHaveSchema.of_mem {columns : List (String × ColumnType)} (h : FieldsHaveSchema columns)
    {c : String × ColumnType} (hc : c ∈ columns) : isAvroName c.1.toList = true ∧ c.2.HasSchema := by
  induction columns with
  | nil => cases hc
  | cons first rest ih =>
    rcases List.mem_cons.mp hc with rfl | hc
    · exact ⟨h.1, h.2.1⟩
    · exact ih h.2.2 hc

/-- What is written for such a type is read as the type. -/
theorem HasSchema.reads_back {t : ColumnType} (h : t.HasSchema) : ofString t.render = .ok t := by
  obtain ⟨hdecimals, hnames⟩ := h.parts
  rw [ofString_eq_ok, render, String.toList_ofList]
  exact writes_of_parts hdecimals (hnames.mono fun name hname => .inl (isBareWord_avroName hname))

/-- Types are found again between separators that are all the same. -/
theorem listOfString_intercalated {s : Symbol} (hs : s ∈ [Symbol.colon, .comma, .semicolon])
    {types : List ColumnType} (h : ∀ t ∈ types, ofString t.render = .ok t) :
    listOfString ((String.singleton s.char).intercalate (types.map render)) = .ok types := by
  cases types with
  | nil => exact listOfString_eq_ok.mpr ⟨[], .done, .inl ⟨rfl, rfl⟩⟩
  | cons first rest =>
    have hsnd : (rest.map fun t => (s, t)).map Prod.snd = rest := by
      rw [List.map_map]
      exact List.map_id' rest
    have hseparators : ∀ m ∈ rest.map fun t => (s, t), m.1 ∈ [Symbol.colon, .comma, .semicolon] := by
      intro m hm
      obtain ⟨t, -, rfl⟩ := List.mem_map.mp hm
      exact hs
    have hlist := listOfString_rendered hseparators (by rwa [hsnd])
    rw [hsnd, List.map_map] at hlist
    rw [List.map_cons, ← joined_same, List.map_map]
    exact hlist

end ColumnType

/-! ## Layouts -/

namespace Layout

open TableScan.AvroSchema

/-- The literal of the properties is the JSON text of a record whose fields are these columns. How deep
the text nests is not said. -/
def DeclaresRecord (p : Properties) (tree : Tree) (columns : List (String × ColumnType)) : Prop :=
  ∃ literal node, p.get? avroLiteralKey = some literal ∧ Tree.ofString? literal = some tree ∧
    tree.content? = some node ∧ Describes node (.struct columns)

/-- The properties list these columns: their names behind one another with the delimiter between, which
starts in none of them, and their types with a separator between. -/
structure DeclaresColumns (p : Properties) (columns : List (String × ColumnType)) : Prop where
  names : p.get? columnsKey = some ((delimiter p).intercalate (columns.map Prod.fst))
  delimited : ∀ c ∈ (delimiter p).toList.head?, ∀ n ∈ columns.map Prod.fst, c ∉ n.toList
  types : ∃ s ∈ [ColumnType.Symbol.colon, .comma, .semicolon], p.get? columnTypesKey =
    some ((String.singleton s.char).intercalate ((columns.map Prod.snd).map ColumnType.render))

theorem fieldTypes_eq (columns : List (String × ColumnType)) :
    ColumnType.fieldTypes columns = columns.map fun c => column (lower c.1) c.2 := by
  induction columns with
  | nil => rw [ColumnType.fieldTypes, List.map_nil]
  | cons c rest ih =>
    obtain ⟨name, t⟩ := c
    rw [ColumnType.fieldTypes, ih, List.map_cons, column]

theorem delimiter_ne_nil (p : Properties) : (delimiter p).toList ≠ [] := by
  unfold delimiter
  split
  · split
    · decide
    · rename_i hne
      exact fun h => hne (String.toList_inj.mp h)
  · decide

theorem nameOf_avroName {name : String} (h : isAvroName name.toList = true) :
    String.ofList (lowerChars (trimChars name.toList)) = lower name := by
  rw [trimChars_eq_self fun c hc => isBlank_of_isNameChar (mem_avroName h c hc)]
  rfl

theorem lower_avroName_ne {name : String} (h : isAvroName name.toList = true) : lower name ≠ "" := by
  intro heq
  have hchars : lowerChars name.toList = [] := by
    rw [← String.toList_ofList (l := lowerChars name.toList)]
    exact congrArg String.toList heq
  rw [lowerChars_avroName h] at hchars
  exact avroName_ne_nil h (List.map_eq_nil_iff.mp hchars)

variable {p : Properties} {columns : List (String × ColumnType)}

/-- Each name is found again, trimmed and in lower case. -/
theorem columnNames_pieces {names : List String} (hget : p.get? columnsKey = some ((delimiter p).intercalate names))
    (hdelimited : ∀ c ∈ (delimiter p).toList.head?, ∀ n ∈ names, c ∉ n.toList) :
    columnNames p = (names.map fun n => String.ofList (lowerChars (trimChars n.toList))).filter (· ≠ "") := by
  unfold columnNames
  rw [hget]
  show ((splitChars (delimiter p).toList ((delimiter p).intercalate names).toList).map _).filter _ = _
  rw [String.toList_intercalate]
  by_cases hne : names = []
  · subst hne
    -- No names leave one empty piece, which is no name.
    rfl
  · cases hd : (delimiter p).toList with
    | nil => exact absurd hd (delimiter_ne_nil p)
    | cons d ds =>
      have hpieces : ∀ piece ∈ names.map String.toList, d ∉ piece := by
        intro piece hpiece
        obtain ⟨n, hn, rfl⟩ := List.mem_map.mp hpiece
        exact hdelimited d (by rw [hd]; rfl) n hn
      rw [splitChars_intercalate (by simpa using hne) hpieces, List.map_map]
      rfl

theorem columnNames_joined {names : List String} (hnames : ∀ n ∈ names, isAvroName n.toList = true)
    (hget : p.get? columnsKey = some ((delimiter p).intercalate names))
    (hdelimited : ∀ c ∈ (delimiter p).toList.head?, ∀ n ∈ names, c ∉ n.toList) : columnNames p = names.map lower := by
  have hkept : ∀ n ∈ names.map lower, decide (n ≠ "") = true := by
    intro m hm
    obtain ⟨n, hn, rfl⟩ := List.mem_map.mp hm
    exact decide_eq_true (lower_avroName_ne (hnames n hn))
  rw [columnNames_pieces hget hdelimited, List.map_congr_left fun n hn => nameOf_avroName (hnames n hn),
    List.filter_eq_self.mpr hkept]

/-- Names that differ without regard to case are no duplicates. -/
theorem ofColumns_fieldTypes (hcolumns : ColumnType.FieldsHaveSchema columns)
    (hdistinct : columns.Pairwise fun a b => sameIgnoringCase a.1 b.1 = false) :
    ofColumns (ColumnType.fieldTypes columns) = .ok ⟨ColumnType.fieldTypes columns⟩ := by
  have hnodup : ((ColumnType.fieldTypes columns).map (·.name)).Nodup := by
    rw [fieldTypes_eq, List.map_map]
    refine List.pairwise_map.mpr (hdistinct.imp_of_mem fun ha hb hne heq => ?_)
    have hsame := lower_avroName_inj (hcolumns.of_mem ha).1 (hcolumns.of_mem hb).1 heq
    cases hne.symm.trans hsame
  exact ofColumns_eq_ok.mpr ⟨hnodup, rfl⟩

theorem ofColumnProperties_declared (hcolumns : ColumnType.FieldsHaveSchema columns) (h : DeclaresColumns p columns) :
    ofColumnProperties p = ofColumns (ColumnType.fieldTypes columns) := by
  obtain ⟨s, hs, hget⟩ := h.types
  have htypes : columnTypes p = .ok (columns.map Prod.snd) := by
    unfold columnTypes
    rw [hget]
    refine ColumnType.listOfString_intercalated hs fun t ht => ?_
    obtain ⟨c, hc, rfl⟩ := List.mem_map.mp ht
    exact (hcolumns.of_mem hc).2.reads_back
  have hnames : columnNames p = columns.map fun c => lower c.1 := by
    rw [columnNames_joined _ h.names h.delimited, List.map_map]
    · rfl
    · intro n hn
      obtain ⟨c, hc, rfl⟩ := List.mem_map.mp hn
      exact (hcolumns.of_mem hc).1
  have hfields : (columns.map fun c => lower c.1).zipWith column (columns.map Prod.snd) =
      ColumnType.fieldTypes columns := by
    rw [fieldTypes_eq, List.zipWith_map, List.zipWith_self]
  unfold ofColumnProperties
  rw [htypes, hnames]
  by_cases hne : columns = []
  · subst hne
    rfl
  · simp [Except.mapError, bind, Except.bind, hne, hfields]

theorem recordFields_described {node : Value} (h : Describes node (.struct columns)) {literal : String}
    (hnode : Value.ofString? literal = some node) : recordFields literal = .ok (ColumnType.fieldTypes columns) := by
  cases h with
  | named hname => simp [namedTypes] at hname
  | record htype hfields hdescribes =>
    unfold recordFields
    rw [hnode]
    show (if (node.member? "type").bind Value.text? = some "record" then _ else _) = _
    rw [htype, hfields, Option.bind_some, Value.text?, if_pos rfl]
    exact hdescribes.fieldsOf ""

variable {tree : Tree}

theorem ofAvroProperties_declared (h : DeclaresRecord p tree columns) (hnesting : tree.nesting ≤ nestingLimit) :
    ofAvroProperties p = ofColumns (ColumnType.fieldTypes columns) := by
  obtain ⟨literal, node, hliteral, htree, hnode, hdescribes⟩ := h
  have hread : Value.ofString? literal = some node := Json.Value.ofString?_eq_some.mpr ⟨tree, htree, hnesting, hnode⟩
  unfold ofAvroProperties
  rw [hliteral]
  show ((recordFields literal).mapError _ >>= ofColumns) = _
  rw [recordFields_described hdescribes hread]
  rfl

/-- Beyond the limit the literal is no JSON text. -/
theorem ofAvroProperties_tooDeep (h : DeclaresRecord p tree columns) (hnesting : nestingLimit < tree.nesting) :
    ofAvroProperties p = .error (.avroLiteral .invalidJson) := by
  obtain ⟨literal, node, hliteral, htree, -, -⟩ := h
  have hread : Value.ofString? literal = none := by
    refine Option.eq_none_iff_forall_ne_some.mpr fun v hv => ?_
    obtain ⟨tree', htree', hle, -⟩ := Json.Value.ofString?_eq_some.mp hv
    obtain rfl := Option.some.inj (htree'.symm.trans htree)
    omega
  have hfields : recordFields literal = .error .invalidJson := by
    unfold recordFields
    rw [hread]
  unfold ofAvroProperties
  rw [hliteral]
  show ((recordFields literal).mapError _ >>= ofColumns) = _
  rw [hfields]
  rfl

theorem declaresRecord_schemaOf {name : String} (hcolumns : ColumnType.FieldsHaveSchema columns)
    (hliteral : p.get? avroLiteralKey = some (schemaOf name (.struct columns)).render) :
    DeclaresRecord p (schemaOf name (.struct columns)).tree columns := by
  have hwell := wellFormed_schemaOf name (.struct columns)
  exact ⟨_, _, hliteral, hwell.treeOfString?_render, hwell.content?_tree, describes_schemaOf name hcolumns⟩

/-- One list of columns is one layout in both notations, as far as a literal may nest. -/
theorem notations_agree :
    (∀ (t : ColumnType) (path : String), t.HasSchema →
      (∀ name, typeOf path (schemaOf name t) = .ok t.dataType) ∧
        ∀ node, Describes node t → typeOf path node = .ok t.dataType) ∧
    (∀ (columns : List (String × ColumnType)) (p q : Properties) (tree : Tree),
      ColumnType.FieldsHaveSchema columns → columns.Pairwise (fun a b => sameIgnoringCase a.1 b.1 = false) →
      DeclaresRecord p tree columns → DeclaresColumns q columns →
      ofColumnProperties q = .ok ⟨ColumnType.fieldTypes columns⟩ ∧
        (tree.nesting ≤ nestingLimit → ofAvroProperties p = ofColumnProperties q) ∧
        (nestingLimit < tree.nesting → ofAvroProperties p = .error (.avroLiteral .invalidJson))) ∧
    (∀ (columns : List (String × ColumnType)) (p : Properties) (name : String), ColumnType.FieldsHaveSchema columns →
      p.get? avroLiteralKey = some (schemaOf name (.struct columns)).render →
      DeclaresRecord p (schemaOf name (.struct columns)).tree columns) := by
  refine ⟨?_, ?_, ?_⟩
  · intro t path ht
    exact ⟨fun name => (describes_schemaOf name ht).typeOf path, fun node h => h.typeOf path⟩
  · intro columns p q tree hcolumns hdistinct hrecord hlisted
    rw [ofColumnProperties_declared hcolumns hlisted]
    exact ⟨ofColumns_fieldTypes hcolumns hdistinct, ofAvroProperties_declared hrecord, ofAvroProperties_tooDeep hrecord⟩
  · intro columns p name hcolumns hliteral
    exact declaresRecord_schemaOf hcolumns hliteral

/-- A struct in an array in a map, a date and a decimal. The delimiter ends in a letter that is in names. -/
def mixedColumns : List (String × ColumnType) :=
  [("Id", .bigint), ("day", .date), ("cost", .decimal 9 2),
    ("_tags", .map .string (.array (.struct [("X", .void), ("y2", .binary)])))]

def mixedRecord : Properties := .ofList [(avroLiteralKey, (schemaOf "row" (.struct mixedColumns)).render)]

def mixedListing : Properties :=
  .ofList [(columnsKey, "Id#aday#acost#a_tags"), (delimiterKey, "#a"),
    (columnTypesKey, "bigint:date:decimal(9,2):map<string,array<struct<X:void,y2:binary>>>")]

theorem mixedColumns_agree :
    typeOf "" (schemaOf "row" (.struct mixedColumns)) = .ok (ColumnType.struct mixedColumns).dataType ∧
      ofAvroProperties mixedRecord = ofColumnProperties mixedListing ∧
      ofColumnProperties mixedListing = .ok ⟨ColumnType.fieldTypes mixedColumns⟩ := by
  have hcost : (ColumnType.decimal 9 2).HasSchema := ⟨by decide, by decide, by decide⟩
  have htags : (ColumnType.struct [("X", .void), ("y2", .binary)]).HasSchema := ⟨rfl, trivial, rfl, trivial, trivial⟩
  have hcolumns : ColumnType.FieldsHaveSchema mixedColumns :=
    ⟨rfl, trivial, rfl, trivial, rfl, hcost, rfl, ⟨rfl, htags⟩, trivial⟩
  have hdistinct : mixedColumns.Pairwise fun a b => sameIgnoringCase a.1 b.1 = false := by decide
  have hliteral : mixedRecord.get? avroLiteralKey = some (schemaOf "row" (.struct mixedColumns)).render := rfl
  have hnesting : (schemaOf "row" (.struct mixedColumns)).tree.nesting ≤ nestingLimit := by decide +kernel
  have hdelimiter : delimiter mixedListing = "#a" := rfl
  have hnames : "Id#aday#acost#a_tags" = "#a".intercalate (mixedColumns.map Prod.fst) :=
    String.toList_inj.mp (by decide)
  have htypes : "bigint:date:decimal(9,2):map<string,array<struct<X:void,y2:binary>>>" =
      (String.singleton ColumnType.Symbol.colon.char).intercalate
        ((mixedColumns.map Prod.snd).map ColumnType.render) := by
    decide +kernel
  have hlisted : DeclaresColumns mixedListing mixedColumns := by
    refine ⟨?_, ?_, .colon, List.mem_cons_self .., ?_⟩
    · rw [hdelimiter, ← hnames]
      rfl
    · intro c hc n hn
      obtain ⟨column, hcolumn, rfl⟩ := List.mem_map.mp hn
      rw [hdelimiter] at hc
      obtain rfl : '#' = c := Option.some.inj hc
      exact not_mem_avroName (hcolumns.of_mem hcolumn).1 (by decide)
    · rw [← htypes]
      rfl
  obtain ⟨hconverted, hlayouts, hwritten⟩ := notations_agree
  obtain ⟨hlayout, hsame, -⟩ := hlayouts _ _ _ _ hcolumns hdistinct (hwritten _ _ _ hcolumns hliteral) hlisted
  exact ⟨(hconverted (.struct mixedColumns) "" hcolumns).1 "row", hsame hnesting, hlayout⟩

end Layout

end TableScan
