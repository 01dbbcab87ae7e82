/-
  TableScan.Proofs.ListedColumns — columns that are listed in properties are found again, each name
  with its type.

  Names stand in one property, with a delimiter of one character between them, and types as they
  are written in another, with any separator between any two (`Lists`). The two texts share
  nothing but the order, by which names and types are paired. So all depends on both being cut
  where they were joined. Names are if they are already as the reader leaves them (`IsColumnName`),
  types if each is read back as itself.

  - `columnNames_listed`, `columnTypes_listed`: the names and types found are the ones listed.
  - `firstRepeated?_eq_some`: the name reported is the first that stood before.
  - `listed_columns_found`: the layout, or what is wrong with the lists.
-/

import TableScan.Proofs.SchemaLayouts
import TableScan.Proofs.TopLevelPieces

namespace TableScan

open TableScan.Text

/-! ## Names -/

namespace Layout

/-- A name that the reader of names leaves as it is, and that can stand between delimiters. -/
structure IsColumnName (delimiter : Char) (name : String) : Prop where
  nonempty : name ≠ ""
  lowered : lower name = name
  startsPlain : ∀ c ∈ name.toList.head?, isBlank c = false
  endsPlain : ∀ c ∈ name.toList.getLast?, isBlank c = false
  undelimited : delimiter ∉ name.toList

instance (d : Char) (name : String) : Decidable (IsColumnName d name) :=
  decidable_of_iff
    (name ≠ "" ∧ lower name = name ∧ name.toList.head?.all (fun c => !isBlank c) = true ∧
      name.toList.getLast?.all (fun c => !isBlank c) = true ∧ d ∉ name.toList) <| by
    simp only [Option.all_eq_true, Bool.not_eq_true']
    exact ⟨fun ⟨hne, hlower, hhead, hlast, hd⟩ => ⟨hne, hlower, hhead, hlast, hd⟩,
      fun ⟨hne, hlower, hhead, hlast, hd⟩ => ⟨hne, hlower, hhead, hlast, hd⟩⟩

theorem IsColumnName.read {d : Char} {name : String} (h : IsColumnName d name) :
    String.ofList (lowerChars (trimChars name.toList)) = name := by
  rw [trimChars_of_ends h.startsPlain h.endsPlain]
  exact h.lowered

/-- The text writes these types, with a separator between any two. -/
inductive WritesTypes : List ColumnType → String → Prop
  | none : WritesTypes [] ""
  | some (first : ColumnType) (more : List (ColumnType.Symbol × ColumnType)) :
      (∀ m ∈ more, m.1 ∈ [ColumnType.Symbol.colon, .comma, .semicolon]) →
      WritesTypes (first :: more.map Prod.snd) (ColumnType.joined first.render (more.map fun m => (m.1, m.2.render)))

/-- The properties list these names with the delimiter between any two, and write these types. Without a
delimiter of their own it is the comma. -/
structure Lists (p : Properties) (d : Char) (names : List String) (types : List ColumnType) : Prop where
  delimiter : p.get? delimiterKey = some (String.singleton d) ∨
    d = ',' ∧ (p.get? delimiterKey = none ∨ p.get? delimiterKey = some "")
  names : p.get? columnsKey = some ((String.singleton d).intercalate names)
  types : ∃ text, p.get? columnTypesKey = some text ∧ WritesTypes types text

section Lists

variable {p : Properties} {d : Char} {names : List String} {types : List ColumnType}

theorem Lists.delimiter_eq (h : Lists p d names types) : Layout.delimiter p = String.singleton d := by
  have hne : String.singleton d ≠ "" := by
    intro heq
    simpa using congrArg String.toList heq
  unfold Layout.delimiter
  rcases h.delimiter with hd | ⟨rfl, hd | hd⟩
  · simp [hd, hne]
  · rw [hd]
    rfl
  · rw [hd]
    rfl

theorem columnNames_listed (h : Lists p d names types) (hnames : ∀ n ∈ names, IsColumnName d n) :
    columnNames p = names := by
  have hdelimited : ∀ c ∈ (Layout.delimiter p).toList.head?, ∀ n ∈ names, c ∉ n.toList := by
    rw [h.delimiter_eq, String.toList_singleton]
    intro c hc n hn
    obtain rfl : d = c := Option.some.inj hc
    exact (hnames n hn).undelimited
  have hkept : ∀ n ∈ names, decide (n ≠ "") = true := fun n hn => decide_eq_true (hnames n hn).nonempty
  rw [columnNames_pieces (h.delimiter_eq ▸ h.names) hdelimited, List.map_congr_left fun n hn => (hnames n hn).read,
    List.map_id', List.filter_eq_self.mpr hkept]

/-! ## Types -/

theorem listOfString_written {text : String} (h : WritesTypes types text)
    (htypes : ∀ t ∈ types, ColumnType.ofString t.render = .ok t) : ColumnType.listOfString text = .ok types := by
  cases h with
  | none => exact ColumnType.listOfString_eq_ok.mpr ⟨[], .done, .inl ⟨rfl, rfl⟩⟩
  | some first more hseparators => exact ColumnType.listOfString_rendered hseparators htypes

theorem columnTypes_listed (h : Lists p d names types)
    (htypes : ∀ t ∈ types, ColumnType.ofString t.render = .ok t) : columnTypes p = .ok types := by
  obtain ⟨text, hget, hwrites⟩ := h.types
  unfold columnTypes
  rw [hget]
  exact listOfString_written hwrites htypes

end Lists

/-! ## Layouts -/

section Paired

variable {p : Properties} {types : List ColumnType}

/-- As many types as names are paired with them. -/
theorem ofColumnProperties_paired (htypes : columnTypes p = .ok types) (hcount : (columnNames p).length = types.length) :
    ofColumnProperties p = ofColumns ((columnNames p).zipWith column types) := by
  unfold ofColumnProperties
  rw [htypes]
  cases types with
  | nil =>
    have hnone : columnNames p = [] := List.length_eq_zero_iff.mp hcount
    simp [hnone, Except.mapError, bind, Except.bind]
  | cons t types =>
    have hsome : columnNames p ≠ [] := by
      intro hnone
      simp [hnone] at hcount
    simp [hsome, hcount, Except.mapError, bind, Except.bind]

theorem ofColumnProperties_unpaired (htypes : columnTypes p = .ok types) (hnames : columnNames p ≠ [])
    (hne : types ≠ []) (hcount : (columnNames p).length ≠ types.length) :
    ofColumnProperties p = .error (.countMismatch (columnNames p).length types.length) := by
  unfold ofColumnProperties
  rw [htypes]
  simp [hnames, hne, hcount, Except.mapError, bind, Except.bind]
  rfl

end Paired

/-- The name found stood before, there or earlier, and no name in front of it did. -/
theorem firstRepeated?_eq_some {names before : List String} {name : String}
    (h : firstRepeated? before names = some name) :
    ∃ front back, names = front ++ name :: back ∧ (name ∈ before ∨ name ∈ front) ∧ front.Nodup ∧
      ∀ n ∈ front, n ∉ before := by
  induction names generalizing before with
  | nil => cases h
  | cons n rest ih =>
    rw [firstRepeated?] at h
    by_cases hn : n ∈ before
    · simp only [List.contains_eq_mem, hn, decide_true, if_true] at h
      obtain rfl := Option.some.inj h
      exact ⟨[], rest, rfl, .inl hn, .nil, by simp⟩
    · simp only [List.contains_eq_mem, hn, decide_false, Bool.false_eq_true, if_false] at h
      obtain ⟨front, back, rfl, hmem, hnodup, hnew⟩ := ih h
      refine ⟨n :: front, back, rfl, ?_, ?_, ?_⟩
      · simp only [List.mem_cons] at hmem ⊢
        tauto
      · exact List.nodup_cons.mpr ⟨fun hfront => hnew n hfront (List.mem_cons_self ..), hnodup⟩
      · refine List.forall_mem_cons.mpr ⟨hn, fun m hm hbefore => ?_⟩
        exact hnew m hm (List.mem_cons_of_mem n hbefore)

/-- Of names that are not all different the first that stands for the second time is reported. -/
theorem ofColumns_repeated {columns : List Field} (h : ¬ (columns.map (·.name)).Nodup) :
    ∃ name front back, columns.map (·.name) = front ++ name :: back ∧ name ∈ front ∧ front.Nodup ∧
      ofColumns columns = .error (.duplicateColumn name) := by
  cases hfound : firstRepeated? [] (columns.map (·.name)) with
  | none => exact absurd (firstRepeated?_eq_none.mp hfound).1 h
  | some name =>
    obtain ⟨front, back, hnames, hmem, hnodup, -⟩ := firstRepeated?_eq_some hfound
    refine ⟨name, front, back, hnames, hmem.resolve_left List.not_mem_nil, hnodup, ?_⟩
    unfold ofColumns
    rw [hfound]

/-- Names and types that are listed are found as columns, or it is said how the lists do not fit. -/
theorem listed_columns_found :
    (∀ (p : Properties) (d : Char) (columns : List (String × ColumnType)),
      Lists p d (columns.map Prod.fst) (columns.map Prod.snd) → (∀ c ∈ columns, IsColumnName d c.1) →
      (∀ c ∈ columns, ColumnType.ofString c.2.render = .ok c.2) → (columns.map Prod.fst).Nodup →
      ofColumnProperties p = .ok ⟨columns.map fun c => ⟨c.1, c.2.dataType, true⟩⟩) ∧
    (∀ (p : Properties) (d : Char) (names : List String) (types : List ColumnType), Lists p d names types →
      (∀ n ∈ names, IsColumnName d n) → (∀ t ∈ types, ColumnType.ofString t.render = .ok t) →
      names ≠ [] → types ≠ [] →
      (names.length ≠ types.length → ofColumnProperties p = .error (.countMismatch names.length types.length)) ∧
      (names.length = types.length → ¬ names.Nodup →
        ∃ name front back, names = front ++ name :: back ∧ name ∈ front ∧ front.Nodup ∧
          ofColumnProperties p = .error (.duplicateColumn name))) := by
  refine ⟨?_, ?_⟩
  · intro p d columns hlists hnames htypes hnodup
    have hfound := columnNames_listed hlists fun n hn => by
      obtain ⟨c, hc, rfl⟩ := List.mem_map.mp hn
      exact hnames c hc
    have hread := columnTypes_listed hlists fun t ht => by
      obtain ⟨c, hc, rfl⟩ := List.mem_map.mp ht
      exact htypes c hc
    have hpaired := ofColumnProperties_paired hread (by simp [hfound])
    rw [hpaired, hfound, List.zipWith_map, List.zipWith_self, ofColumns_eq_ok, List.map_map]
    exact ⟨hnodup, rfl⟩
  · intro p d names types hlists hnames htypes hsome hne
    have hfound := columnNames_listed hlists hnames
    have hread := columnTypes_listed hlists htypes
    refine ⟨?_, ?_⟩
    · intro hcount
      rw [← hfound] at hsome hcount ⊢
      exact ofColumnProperties_unpaired hread hsome hne hcount
    · intro hcount hrepeated
      have hnamed : (names.zipWith column types).map (·.name) = names := by
        refine List.ext_getElem (by simp [hcount]) fun i _ _ => ?_
        simp [column]
      rw [← hnamed] at hrepeated
      obtain ⟨name, front, back, heq, hmem, hnodup, herror⟩ := ofColumns_repeated hrepeated
      refine ⟨name, front, back, hnamed.symm.trans heq, hmem, hnodup, ?_⟩
      rw [ofColumnProperties_paired hread (by rw [hfound, hcount]), hfound, herror]

/-- A delimiter that is blank, names in other scripts and with blanks inside, and three separators. -/
def storedColumns : List (String × ColumnType) :=
  [("net price", .decimal 9 2), ("größe", .map .int (.varchar 3)), ("id", .struct [("A", .double), ("b", .char 1)]),
    ("日付", .date)]

def storedListing : Properties :=
  .ofList [(columnsKey, "net price\tgröße\tid\t日付"), (delimiterKey, "\t"),
    (columnTypesKey, "decimal(9,2),map<int,varchar(3)>:struct<A:double,b:char(1)>;date"), ("owner", "etl")]

/-- The same types under three names. -/
def shortListing : Properties :=
  .ofList [(columnsKey, "a,b,a"), (columnTypesKey, "decimal(9,2),map<int,varchar(3)>:struct<A:double,b:char(1)>;date")]

/-- The same types under four names, two of which are the same; an empty delimiter is none. -/
def repeatedListing : Properties :=
  .ofList [(columnsKey, "a,b,c,b"), (delimiterKey, ""),
    (columnTypesKey, "decimal(9,2),map<int,varchar(3)>:struct<A:double,b:char(1)>;date")]

theorem storedTypes_written : WritesTypes (storedColumns.map Prod.snd)
    "decimal(9,2),map<int,varchar(3)>:struct<A:double,b:char(1)>;date" := by
  have htext : "decimal(9,2),map<int,varchar(3)>:struct<A:double,b:char(1)>;date" =
      ColumnType.joined (ColumnType.decimal 9 2).render
        ([(.comma, .map .int (.varchar 3)), (.colon, .struct [("A", .double), ("b", .char 1)]), (.semicolon, .date)].map
          fun m : ColumnType.Symbol × ColumnType => (m.1, m.2.render)) := by
    decide +kernel
  rw [htext]
  exact .some _ [(.comma, .map .int (.varchar 3)), (.colon, .struct [("A", .double), ("b", .char 1)]),
    (.semicolon, .date)] (by decide)

theorem storedTypes_read : ∀ t ∈ storedColumns.map Prod.snd, ColumnType.ofString t.render = .ok t := by
  have hread : ∀ t ∈ storedColumns.map Prod.snd, (ColumnType.ofString t.render).toOption = some t := by decide +kernel
  exact fun t ht => ColumnType.ok_of_toOption (hread t ht)

theorem storedListing_found :
    Lists storedListing '\t' (storedColumns.map Prod.fst) (storedColumns.map Prod.snd) ∧
      ofColumnProperties storedListing = .ok ⟨storedColumns.map fun c => ⟨c.1, c.2.dataType, true⟩⟩ ∧
      ofColumnProperties shortListing = .error (.countMismatch 3 4) ∧
      ∃ name front back, ["a", "b", "c", "b"] = front ++ name :: back ∧ name ∈ front ∧ front.Nodup ∧
        ofColumnProperties repeatedListing = .error (.duplicateColumn name) := by
  have hstored : Lists storedListing '\t' (storedColumns.map Prod.fst) (storedColumns.map Prod.snd) :=
    ⟨.inl (by decide +kernel), by decide +kernel, _, rfl, storedTypes_written⟩
  have hshort : Lists shortListing ',' ["a", "b", "a"] (storedColumns.map Prod.snd) :=
    ⟨.inr ⟨rfl, .inl rfl⟩, by decide +kernel, _, rfl, storedTypes_written⟩
  have hrepeated : Lists repeatedListing ',' ["a", "b", "c", "b"] (storedColumns.map Prod.snd) :=
    ⟨.inr ⟨rfl, .inr rfl⟩, by decide +kernel, _, rfl, storedTypes_written⟩
  have htypes := storedTypes_read
  obtain ⟨hfound, hunfit⟩ := listed_columns_found
  refine ⟨hstored, ?_, ?_, ?_⟩
  · refine hfound _ _ _ hstored (by decide +kernel) (fun c hc => ?_) (by decide)
    exact htypes _ (List.mem_map_of_mem hc)
  · exact (hunfit _ _ _ _ hshort (by decide +kernel) htypes (by decide) (by decide)).1 (by decide)
  · exact (hunfit _ _ _ _ hrepeated (by decide +kernel) htypes (by decide) (by decide)).2 rfl (by decide)

end Layout

end TableScan
