/-
  TableScan.Proofs.TopLevelPieces — a list of types is the types of its pieces at the top level.

  Colons, commas and semicolons separate the types of a list, and the same characters stand
  between the parts of a struct, a map or a decimal. The reader of lists never counts brackets:
  it asks whether a type may end where a separator comes. Counting them finds the same places.
  `topPieces` cuts a text wherever a separator stands with no bracket open, and a text lists
  types just if each of its pieces spells one (`lists_by_pieces`).

  - `Uncut`: a stretch of text that is cut nowhere, and leaves open as many brackets as it
    finds, at a given depth and all greater ones. Whatever a type is spelled with is uncut at
    the top level (`IsType.uncut`), and the fields of a struct below it (`IsFields.uncut`).
  - `listOfString_joined`, `listOfString_pieces`: the two directions.
-/

import TableScan.Proofs.TypeRoundTrip

namespace TableScan.ColumnType

/-! ## Pieces -/

/-- How many brackets are open behind a character. -/
def depthAfter (depth : Nat) (c : Char) : Nat :=
  if c = '<' ∨ c = '(' then depth + 1
  else if c = '>' ∨ c = ')' then depth - 1
  else depth

/-- The characters between the types of a list. -/
def separates (c : Char) : Bool := c == ':' || c == ',' || c == ';'

/-- The pieces of a text in which `depth` brackets are open; `piece` is the piece so far, latest character
first. -/
def piecesAfter (depth : Nat) (piece : List Char) : List Char → List (List Char)
  | [] => [piece.reverse]
  | c :: rest =>
    if depth = 0 ∧ separates c = true then piece.reverse :: piecesAfter 0 [] rest
    else piecesAfter (depthAfter depth c) (c :: piece) rest

/-- The pieces of a text between the separators that stand outside all brackets. -/
def topPieces (s : String) : List String := (piecesAfter 0 [] s.toList).map String.ofList

/-- Texts with a symbol in front of each but the first. -/
def joined (first : String) : List (Symbol × String) → String
  | [] => first
  | (s, next) :: more => first ++ String.singleton s.char ++ joined next more

theorem toList_joined (first next : String) (s : Symbol) (more : List (Symbol × String)) :
    (joined first ((s, next) :: more)).toList = first.toList ++ s.char :: (joined next more).toList := by
  simp [joined, String.toList_append]

/-- One symbol everywhere. -/
theorem joined_same (s : Symbol) (rest : List String) : ∀ first : String,
    joined first (rest.map fun next => (s, next)) = (String.singleton s.char).intercalate (first :: rest) := by
  induction rest with
  | nil =>
    intro first
    rw [List.map_nil, joined, String.intercalate_singleton]
  | cons next rest ih =>
    intro first
    rw [List.map_cons, joined, ih, String.intercalate_cons_cons]

theorem separates_iff {s : Symbol} : separates s.char = true ↔ s ∈ [Symbol.colon, .comma, .semicolon] := by
  cases s <;> decide

theorem symbol_of_separates {c : Char} (h : separates c = true) :
    ∃ s ∈ [Symbol.colon, .comma, .semicolon], c = s.char := by
  have hc : (c = ':' ∨ c = ',') ∨ c = ';' := by simpa [separates] using h
  rcases hc with (rfl | rfl) | rfl
  · exact ⟨.colon, by simp, rfl⟩
  · exact ⟨.comma, by simp, rfl⟩
  · exact ⟨.semicolon, by simp, rfl⟩

/-- Cutting loses nothing but which separator stood where. -/
theorem piecesAfter_joined (cs : List Char) : ∀ (depth : Nat) (piece : List Char),
    ∃ first more, (∀ m ∈ more, m.1 ∈ [Symbol.colon, .comma, .semicolon]) ∧
      (piecesAfter depth piece cs).map String.ofList = first :: more.map Prod.snd ∧
      String.ofList (piece.reverse ++ cs) = joined first more := by
  induction cs with
  | nil =>
    intro depth piece
    exact ⟨String.ofList piece.reverse, [], by simp, rfl, by simp [joined]⟩
  | cons c rest ih =>
    intro depth piece
    by_cases hcut : depth = 0 ∧ separates c = true
    · obtain ⟨s, hs, rfl⟩ := symbol_of_separates hcut.2
      obtain ⟨first, more, hmore, hpieces, hrest⟩ := ih 0 []
      refine ⟨String.ofList piece.reverse, (s, first) :: more, ?_, ?_, ?_⟩
      · exact List.forall_mem_cons.mpr ⟨hs, hmore⟩
      · simp [piecesAfter, hcut, hpieces]
      · refine String.toList_inj.mp ?_
        rw [toList_joined, ← hrest]
        simp
    · obtain ⟨first, more, hmore, hpieces, hrest⟩ := ih (depthAfter depth c) (c :: piece)
      refine ⟨first, more, hmore, ?_, ?_⟩
      · rw [piecesAfter, if_neg hcut, hpieces]
      · rw [← hrest]
        simp

/-! ## Stretches that are not cut -/

/-- With so many brackets open, or more, the stretch is no end of a piece, and closes just what it opens. -/
def Uncut (floor : Nat) (cs : List Char) : Prop :=
  ∀ depth, floor ≤ depth → ∀ piece rest,
    piecesAfter depth piece (cs ++ rest) = piecesAfter depth (cs.reverse ++ piece) rest

section Uncut

variable {floor : Nat} {cs ds : List Char}

theorem Uncut.mono (h : Uncut floor cs) {floor' : Nat} (hle : floor ≤ floor') : Uncut floor' cs :=
  fun depth hdepth => h depth (by omega)

theorem uncut_nil : Uncut floor [] := fun _ _ _ _ => rfl

theorem Uncut.append (hc : Uncut floor cs) (hd : Uncut floor ds) : Uncut floor (cs ++ ds) := by
  intro depth hdepth piece rest
  rw [List.append_assoc, hc depth hdepth, hd depth hdepth, List.reverse_append, List.append_assoc]

theorem Uncut.cons {c : Char} (hc : Uncut floor [c]) (hd : Uncut floor cs) : Uncut floor (c :: cs) := hc.append hd

/-- Neither a bracket nor a separator. -/
theorem uncut_char {c : Char} (h : Symbol.ofChar? c = none) : Uncut 0 [c] := by
  have hne : ∀ s : Symbol, c ≠ s.char := by
    rintro s rfl
    cases s.ofChar?_char.symm.trans h
  have hdepth : ∀ depth, depthAfter depth c = depth := by
    intro depth
    have hopen : ¬ (c = '<' ∨ c = '(') := by simpa using ⟨hne .openAngle, hne .openParen⟩
    have hclose : ¬ (c = '>' ∨ c = ')') := by simpa using ⟨hne .closeAngle, hne .closeParen⟩
    rw [depthAfter, if_neg hopen, if_neg hclose]
  have hseparates : separates c = false := by
    refine eq_false_of_ne_true fun hsep => ?_
    obtain ⟨s, -, heq⟩ := symbol_of_separates hsep
    exact hne s heq
  intro depth _ piece rest
  simp [piecesAfter, hseparates, hdepth]

theorem uncut_chars (h : ∀ c ∈ cs, Symbol.ofChar? c = none) : Uncut 0 cs := by
  induction cs with
  | nil => exact uncut_nil
  | cons c cs ih =>
    obtain ⟨hc, hcs⟩ := List.forall_mem_cons.mp h
    exact (uncut_char hc).cons (ih hcs)

/-- A separator in brackets is none. -/
theorem uncut_separator {s : Symbol} (hs : s ∈ [Symbol.colon, .comma, .semicolon]) : Uncut 1 [s.char] := by
  intro depth hdepth piece rest
  have hne : ¬ (depth = 0 ∧ separates s.char = true) := by omega
  have hkept : depthAfter depth s.char = depth := by
    simp only [List.mem_cons, List.not_mem_nil, or_false] at hs
    rcases hs with rfl | rfl | rfl <;> simp [depthAfter, Symbol.char]
  rw [List.singleton_append, piecesAfter, if_neg hne, hkept]
  rfl

/-- An opening bracket with the one that closes it. -/
def Encloses (opener closer : Symbol) : Prop :=
  opener = .openAngle ∧ closer = .closeAngle ∨ opener = .openParen ∧ closer = .closeParen

/-- What is uncut between brackets is uncut with them everywhere. -/
theorem Uncut.enclosed {opener closer : Symbol} (he : Encloses opener closer) (h : Uncut 1 cs) :
    Uncut 0 (opener.char :: (cs ++ [closer.char])) := by
  have hopen : ∀ depth, depthAfter depth opener.char = depth + 1 := by
    intro depth
    rcases he with ⟨rfl, rfl⟩ | ⟨rfl, rfl⟩ <;> simp [depthAfter, Symbol.char]
  have hclose : ∀ depth, depthAfter (depth + 1) closer.char = depth := by
    intro depth
    rcases he with ⟨rfl, rfl⟩ | ⟨rfl, rfl⟩ <;> simp [depthAfter, Symbol.char]
  have hseparates : separates opener.char = false ∧ separates closer.char = false := by
    rcases he with ⟨rfl, rfl⟩ | ⟨rfl, rfl⟩ <;> decide
  intro depth _ piece rest
  -- Whatever the depth outside, it is at least one inside, where `h` applies.
  calc piecesAfter depth piece (opener.char :: (cs ++ [closer.char]) ++ rest)
      = piecesAfter (depth + 1) (opener.char :: piece) (cs ++ closer.char :: rest) := by
        simp [piecesAfter, hseparates, hopen]
    _ = piecesAfter (depth + 1) (cs.reverse ++ opener.char :: piece) (closer.char :: rest) := h _ (by omega) _ _
    _ = piecesAfter depth ((opener.char :: (cs ++ [closer.char])).reverse ++ piece) rest := by
        simp [piecesAfter, hclose]

/-- A piece ends where a separator comes at the top level. -/
theorem Uncut.pieces_cut (h : Uncut 0 cs) {s : Symbol} (hs : s ∈ [Symbol.colon, .comma, .semicolon]) :
    piecesAfter 0 [] (cs ++ s.char :: ds) = cs :: piecesAfter 0 [] ds := by
  rw [h 0 (Nat.le_refl 0)]
  simp [piecesAfter, separates_iff.mpr hs]

theorem Uncut.pieces (h : Uncut 0 cs) : piecesAfter 0 [] cs = [cs] := by
  have := h 0 (Nat.le_refl 0) [] []
  simpa [piecesAfter] using this

end Uncut

/-! ## Texts of types -/

theorem ofChar?_of_isSpace {c : Char} (h : isSpace c = true) : Symbol.ofChar? c = none := by
  cases hs : Symbol.ofChar? c with
  | none => rfl
  | some s =>
    rw [Symbol.char_of_ofChar? hs, isSpace_symbol] at h
    cases h

theorem uncut_of_no_symbol {cs : List Char} {ts : List Token} (h : Spells cs ts) (hno : ∀ s, .symbol s ∉ ts) :
    Uncut 0 cs := by
  induction h with
  | done => exact uncut_nil
  | space hc _ ih => exact (uncut_char (ofChar?_of_isSpace hc)).cons (ih hno)
  | symbol s _ _ => exact absurd (List.mem_cons_self ..) (hno s)
  | number hds _ _ _ ih =>
    refine Uncut.append (uncut_chars fun c hc => ?_) (ih fun s hs => hno s (List.mem_cons_of_mem _ hs))
    exact ofChar?_of_isWordChar (isWordChar_of_isDigit (hds c hc))
  | word _ hname _ _ ih =>
    refine Uncut.append (uncut_chars fun c hc => ?_) (ih fun s hs => hno s (List.mem_cons_of_mem _ hs))
    exact ofChar?_of_isWordChar (hname c hc)

/-- Whatever spells the tokens is uncut. -/
def AlwaysUncut (floor : Nat) (ts : List Token) : Prop := ∀ cs, Spells cs ts → Uncut floor cs

theorem alwaysUncut_of_no_symbol {ts : List Token} (hno : ∀ s, .symbol s ∉ ts) (floor : Nat) :
    AlwaysUncut floor ts :=
  fun _ hspells => (uncut_of_no_symbol hspells hno).mono (Nat.zero_le floor)

/-- What is uncut at the top level is so in brackets. -/
theorem AlwaysUncut.inside {ts : List Token} (ht : AlwaysUncut 0 ts) : AlwaysUncut 1 ts :=
  fun cs hspells => (ht cs hspells).mono (Nat.zero_le 1)

/-- Two stretches with a separator between them, in brackets. -/
theorem AlwaysUncut.separated {ts us : List Token} (ht : AlwaysUncut 1 ts) (s : Symbol)
    (hs : s ∈ [Symbol.colon, .comma, .semicolon]) (hu : AlwaysUncut 1 us) : AlwaysUncut 1 (ts ++ .symbol s :: us) := by
  intro cs hspells
  obtain ⟨ds, es, rfl, hds, hes⟩ := hspells.split_symbol
  exact (ht ds hds).append ((uncut_separator hs).cons (hu es hes))

/-- A name and brackets behind it. -/
theorem AlwaysUncut.named {ts : List Token} (ht : AlwaysUncut 1 ts) (name : List Char) {opener closer : Symbol}
    (he : Encloses opener closer) :
    AlwaysUncut 0 (.word name :: .symbol opener :: (ts ++ [.symbol closer])) := by
  intro cs hspells
  rw [← List.singleton_append] at hspells
  obtain ⟨ds, es, rfl, hds, hes⟩ := hspells.split_symbol
  obtain ⟨fs, gs, rfl, hfs, hgs⟩ := hes.split_symbol
  have hname : Uncut 0 ds := uncut_of_no_symbol hds (by simp)
  have hrest : Uncut 0 gs := uncut_of_no_symbol hgs (by simp)
  have hall := (hname.append ((ht fs hfs).enclosed he)).append hrest
  simpa using hall

theorem encloses_angle : Encloses .openAngle .closeAngle := .inl ⟨rfl, rfl⟩

theorem encloses_paren : Encloses .openParen .closeParen := .inr ⟨rfl, rfl⟩

theorem IsFieldName.uncut {tok : Token} {field : String} (h : IsFieldName tok field) : AlwaysUncut 1 [tok] := by
  cases h <;> exact alwaysUncut_of_no_symbol (by simp) 1

mutual

theorem IsType.uncut {ts : List Token} {t : ColumnType} (h : IsType ts t) : AlwaysUncut 0 ts := by
  cases h with
  | plain _ _ | double _ | doublePrecision _ _ | bareDecimal _ => exact alwaysUncut_of_no_symbol (by simp) 0
  | @varchar name n _ | @char name n _ =>
    have hn : AlwaysUncut 1 [.number n] := alwaysUncut_of_no_symbol (by simp) 1
    exact hn.named name encloses_paren
  | @decimalPrecision name p _ _ _ =>
    have hp : AlwaysUncut 1 [.number p.toUInt32] := alwaysUncut_of_no_symbol (by simp) 1
    exact hp.named name encloses_paren
  | @decimal name p s _ _ _ _ =>
    have hp : AlwaysUncut 1 [.number p.toUInt32] := alwaysUncut_of_no_symbol (by simp) 1
    have hs : AlwaysUncut 1 [.number s.toUInt32] := alwaysUncut_of_no_symbol (by simp) 1
    exact (hp.separated .comma (by simp) hs).named name encloses_paren
  | @array name _ _ _ ht => exact ht.uncut.inside.named name encloses_angle
  | @map name ks vs _ _ _ hk hv =>
    have hboth := hk.uncut.inside.separated .comma (by simp) hv.uncut.inside
    simpa using hboth.named name encloses_angle
  | @emptyStruct name _ =>
    have hnone : AlwaysUncut 1 [] := alwaysUncut_of_no_symbol (by simp) 1
    exact hnone.named name encloses_angle
  | @struct name _ _ _ hf => exact hf.uncut.named name encloses_angle

theorem IsFields.uncut {ts : List Token} {fields : List (String × ColumnType)} (h : IsFields ts fields) :
    AlwaysUncut 1 ts := by
  cases h with
  | last hname ht => exact hname.uncut.separated .colon (by simp) ht.uncut.inside
  | more hname ht hrest =>
    have hboth := ht.uncut.inside.separated .comma (by simp) hrest.uncut
    exact hname.uncut.separated .colon (by simp) hboth

end

/-! ## Lists of types -/

/-- What lists types falls into pieces that spell them. -/
theorem IsList.pieces {ts : List Token} {types : List ColumnType} (h : IsList ts types) :
    ∀ {cs : List Char}, Spells cs ts →
      (piecesAfter 0 [] cs).map (fun piece => ofString (String.ofList piece)) = types.map .ok := by
  have read : ∀ {cs : List Char} {ts : List Token} {t : ColumnType}, Spells cs ts → IsType ts t →
      ofString (String.ofList cs) = .ok t := by
    intro cs ts t hspells ht
    exact ofString_eq_ok.mpr ⟨ts, by rwa [String.toList_ofList], ht⟩
  induction h with
  | one ht =>
    intro cs hspells
    rw [(ht.uncut cs hspells).pieces]
    simp [read hspells ht]
  | more s hs ht _ ih =>
    intro cs hspells
    obtain ⟨ds, es, rfl, hds, hes⟩ := hspells.split_symbol
    rw [(ht.uncut ds hds).pieces_cut hs]
    simp [read hds ht, ih hes]

theorem listOfString_pieces {s : String} {types : List ColumnType} (h : listOfString s = .ok types)
    (hne : types ≠ []) : (topPieces s).map ofString = types.map .ok := by
  obtain ⟨ts, hspells, hlist⟩ := listOfString_eq_ok.mp h
  rcases hlist with ⟨-, hnil⟩ | hlist
  · exact absurd hnil hne
  · rw [topPieces, List.map_map]
    exact hlist.pieces hspells

theorem isList_joined (more : List (Symbol × String)) : ∀ {first : String} {types : List ColumnType},
    (∀ m ∈ more, m.1 ∈ [Symbol.colon, .comma, .semicolon]) →
    (first :: more.map Prod.snd).map ofString = types.map .ok →
    ∃ ts, Spells (joined first more).toList ts ∧ IsList ts types := by
  induction more with
  | nil =>
    intro first types _ hread
    cases types with
    | nil => simp at hread
    | cons t types =>
      simp only [List.map_nil, List.map_cons, List.cons.injEq] at hread
      obtain rfl : types = [] := by simpa using hread.2
      obtain ⟨ts, hspells, ht⟩ := ofString_eq_ok.mp hread.1
      exact ⟨ts, hspells, .one ht⟩
  | cons m more ih =>
    intro first types hseparators hread
    obtain ⟨s, next⟩ := m
    obtain ⟨hs, hmore⟩ := List.forall_mem_cons.mp hseparators
    cases types with
    | nil => simp at hread
    | cons t types =>
      obtain ⟨hfirst, hrest⟩ := List.cons.inj hread
      obtain ⟨ts, hspells, ht⟩ := ofString_eq_ok.mp hfirst
      obtain ⟨us, huspells, hu⟩ := ih hmore hrest
      refine ⟨_, ?_, .more s hs ht hu⟩
      rw [toList_joined]
      exact hspells.append_symbol s huspells

theorem listOfString_joined {first : String} {more : List (Symbol × String)} {types : List ColumnType}
    (hseparators : ∀ m ∈ more, m.1 ∈ [Symbol.colon, .comma, .semicolon])
    (hread : (first :: more.map Prod.snd).map ofString = types.map .ok) : listOfString (joined first more) = .ok types := by
  obtain ⟨ts, hspells, hlist⟩ := isList_joined more hseparators hread
  exact listOfString_eq_ok.mpr ⟨ts, hspells, .inr hlist⟩

/-- Types that are read back are listed as they are written, with any separators between. -/
theorem listOfString_rendered {first : ColumnType} {more : List (Symbol × ColumnType)}
    (hseparators : ∀ m ∈ more, m.1 ∈ [Symbol.colon, .comma, .semicolon])
    (hread : ∀ t ∈ first :: more.map Prod.snd, ofString t.render = .ok t) :
    listOfString (joined first.render (more.map fun m => (m.1, m.2.render))) = .ok (first :: more.map Prod.snd) := by
  refine listOfString_joined ?_ ?_
  · intro m hm
    obtain ⟨written, hwritten, rfl⟩ := List.mem_map.mp hm
    exact hseparators written hwritten
  · rw [List.map_map, ← List.map_congr_left hread, List.map_cons, List.map_cons, List.map_map, List.map_map]
    rfl

/-- Pieces that spell types make a list of them, as they stand in the text. -/
theorem listOfString_of_pieces {s : String} {types : List ColumnType}
    (h : (topPieces s).map ofString = types.map .ok) : listOfString s = .ok types := by
  obtain ⟨first, more, hseparators, hpieces, htext⟩ := piecesAfter_joined s.toList 0 []
  rw [List.reverse_nil, List.nil_append, String.ofList_toList] at htext
  rw [topPieces, hpieces] at h
  rw [htext]
  exact listOfString_joined hseparators h

theorem topPieces_ne_nil (s : String) : topPieces s ≠ [] := by
  obtain ⟨first, more, -, hpieces, -⟩ := piecesAfter_joined s.toList 0 []
  rw [topPieces, hpieces]
  simp

/-- A text lists types just if its pieces at the top level spell them, one by one. -/
theorem lists_by_pieces :
    (∀ (first : String) (more : List (Symbol × String)) (types : List ColumnType),
      (∀ m ∈ more, m.1 ∈ [Symbol.colon, .comma, .semicolon]) →
      (first :: more.map Prod.snd).map ofString = types.map .ok → listOfString (joined first more) = .ok types) ∧
    (∀ (s : String) (types : List ColumnType),
      listOfString s = .ok types ∧ types ≠ [] ↔ (topPieces s).map ofString = types.map .ok) ∧
    (∀ (s : String) (t : ColumnType), ofString s = .ok t ↔ listOfString s = .ok [t]) := by
  refine ⟨fun _ _ _ hseparators hread => listOfString_joined hseparators hread, ?_, ?_⟩
  · intro s types
    constructor
    · exact fun h => listOfString_pieces h.1 h.2
    · intro h
      refine ⟨listOfString_of_pieces h, ?_⟩
      rintro rfl
      exact topPieces_ne_nil s (by simpa using h)
  · intro s t
    rw [ofString_eq_ok, listOfString_eq_ok]
    constructor
    · intro h
      obtain ⟨ts, hspells, ht⟩ := h
      exact ⟨ts, hspells, .inr (.one ht)⟩
    · intro h
      obtain ⟨ts, hspells, ⟨-, hnil⟩ | hlist⟩ := h
      · cases hnil
      · cases hlist with
        | one ht => exact ⟨ts, hspells, ht⟩
        | more _ _ _ hrest => cases hrest

def nestedTypes : List ColumnType := [.map .int (.varchar 3), .decimal 4 2, .struct [("a", .double)]]

/-- Separators stand between the types and in each of them. -/
def nestedListing : String := "Map<int,varchar(3)> : decimal(4,2);struct<\x60a\x60:double precision>"

theorem nestedListing_by_pieces :
    listOfString nestedListing = .ok nestedTypes ∧ (topPieces nestedListing).map ofString = nestedTypes.map .ok ∧
      topPieces nestedListing =
        ["Map<int,varchar(3)> ", " decimal(4,2)", "struct<\x60a\x60:double precision>"] := by
  have hmap : ofString "Map<int,varchar(3)> " = .ok (.map .int (.varchar 3)) := ok_of_toOption (by decide +kernel)
  have hdecimal : ofString " decimal(4,2)" = .ok (.decimal 4 2) := ok_of_toOption (by decide +kernel)
  have hstruct : ofString "struct<\x60a\x60:double precision>" = .ok (.struct [("a", .double)]) :=
    ok_of_toOption (by decide +kernel)
  obtain ⟨hjoined, hpieces, -⟩ := lists_by_pieces
  have htext : nestedListing = joined "Map<int,varchar(3)> "
      [(.colon, " decimal(4,2)"), (.semicolon, "struct<\x60a\x60:double precision>")] :=
    String.toList_inj.mp (by decide)
  have hlist : listOfString nestedListing = .ok nestedTypes := by
    rw [htext]
    exact hjoined _ _ _ (by simp) (by simp [hmap, hdecimal, hstruct, nestedTypes])
  exact ⟨hlist, (hpieces nestedListing nestedTypes).mp ⟨hlist, by decide⟩, by decide +kernel⟩

end TableScan.ColumnType
