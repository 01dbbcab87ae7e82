/-
  TableScan.Proofs.TypeReading — the reader of type expressions accepts just what the grammar
  derives.

  `Stands` says which tokens lead to a state of the reader. Every step keeps it (`Stands.step`),
  and where a type is complete it is a derivation (`Stands.complete`). With the grammar's own
  `IsType.reads` this gives both directions, for one type, for lists, where a separator never
  goes on with a type (`step_separator`), and for texts (`read_iff_derived`).
-/

import TableScan.Proofs.TypeGrammar

namespace TableScan.ColumnType

/-! ## Whatever is read has a derivation -/

/-- Fields of a struct, each with the comma behind it; the latest comes first. -/
inductive FieldsBefore : List Token → List (String × ColumnType) → Prop
  | nil : FieldsBefore [] []
  | more {before : List Token} {fields : List (String × ColumnType)} {name : Token} {field : String}
      {ts : List Token} {t : ColumnType} : FieldsBefore before fields → IsFieldName name field → IsType ts t →
      FieldsBefore (before ++ name :: .symbol .colon :: (ts ++ [.symbol .comma])) ((field, t) :: fields)

/-- Tokens that open the types around, innermost first. -/
inductive Opens : List Token → List Around → Prop
  | top : Opens [] []
  | array {pre : List Token} {around : List Around} {name : List Char} : Opens pre around → Named name "array" →
      Opens (pre ++ [.word name, .symbol .openAngle]) (.array :: around)
  | mapKey {pre : List Token} {around : List Around} {name : List Char} : Opens pre around → Named name "map" →
      Opens (pre ++ [.word name, .symbol .openAngle]) (.mapKey :: around)
  | mapValue {pre ks : List Token} {around : List Around} {name : List Char} {k : ColumnType} : Opens pre around →
      Named name "map" → IsType ks k →
      Opens (pre ++ .word name :: .symbol .openAngle :: (ks ++ [.symbol .comma])) (.mapValue k :: around)
  | field {pre before : List Token} {around : List Around} {name : List Char} {tok : Token} {field : String}
      {fields : List (String × ColumnType)} : Opens pre around → Named name "struct" →
      FieldsBefore before fields → IsFieldName tok field →
      Opens (pre ++ .word name :: .symbol .openAngle :: (before ++ [tok, .symbol .colon]))
        (.field fields field :: around)

/-- Tokens that lead to a state of the reader. -/
inductive Stands : List Token → Reader → Prop
  | start {pre : List Token} {around : List Around} : Opens pre around → Stands pre (.start around)
  | arrayOpen {pre : List Token} {around : List Around} {name : List Char} : Opens pre around →
      Named name "array" → Stands (pre ++ [.word name]) (.arrayOpen around)
  | mapOpen {pre : List Token} {around : List Around} {name : List Char} : Opens pre around →
      Named name "map" → Stands (pre ++ [.word name]) (.mapOpen around)
  | structOpen {pre : List Token} {around : List Around} {name : List Char} : Opens pre around →
      Named name "struct" → Stands (pre ++ [.word name]) (.structOpen around)
  | firstField {pre : List Token} {around : List Around} {name : List Char} : Opens pre around →
      Named name "struct" → Stands (pre ++ [.word name, .symbol .openAngle]) (.firstField around)
  | nextField {pre before : List Token} {around : List Around} {name : List Char}
      {fields : List (String × ColumnType)} : Opens pre around → Named name "struct" →
      FieldsBefore before fields →
      Stands (pre ++ .word name :: .symbol .openAngle :: before) (.nextField fields around)
  | fieldColon {pre before : List Token} {around : List Around} {name : List Char} {tok : Token} {field : String}
      {fields : List (String × ColumnType)} : Opens pre around → Named name "struct" →
      FieldsBefore before fields → IsFieldName tok field →
      Stands (pre ++ .word name :: .symbol .openAngle :: (before ++ [tok])) (.fieldColon fields field around)
  | sizedOpen {pre : List Token} {around : List Around} {name : List Char} {make : UInt32 → ColumnType} :
      Opens pre around → Announces name (.sized make) → Stands (pre ++ [.word name]) (.sizedOpen make around)
  | size {pre : List Token} {around : List Around} {name : List Char} {make : UInt32 → ColumnType} :
      Opens pre around → Announces name (.sized make) →
      Stands (pre ++ [.word name, .symbol .openParen]) (.size make around)
  | sizedClose {pre : List Token} {around : List Around} {name : List Char} {make : UInt32 → ColumnType}
      (n : UInt32) : Opens pre around → Announces name (.sized make) →
      Stands (pre ++ [.word name, .symbol .openParen, .number n]) (.sizedClose (make n) around)
  | precision {pre : List Token} {around : List Around} {name : List Char} : Opens pre around →
      Named name "decimal" → Stands (pre ++ [.word name, .symbol .openParen]) (.precision around)
  | scaleOrClose {pre : List Token} {around : List Around} {name : List Char} (p : UInt32) : Opens pre around →
      Named name "decimal" →
      Stands (pre ++ [.word name, .symbol .openParen, .number p]) (.scaleOrClose p around)
  | scale {pre : List Token} {around : List Around} {name : List Char} (p : UInt32) : Opens pre around →
      Named name "decimal" →
      Stands (pre ++ [.word name, .symbol .openParen, .number p, .symbol .comma]) (.scale p around)
  | decimalClose {pre : List Token} {around : List Around} {name : List Char} (p s : UInt32) : Opens pre around →
      Named name "decimal" →
      Stands (pre ++ [.word name, .symbol .openParen, .number p, .symbol .comma, .number s])
        (.decimalClose p s around)
  | afterDouble {pre : List Token} {around : List Around} {name : List Char} : Opens pre around →
      Named name "double" → Stands (pre ++ [.word name]) (.afterDouble around)
  | afterDecimal {pre : List Token} {around : List Around} {name : List Char} : Opens pre around →
      Named name "decimal" → Stands (pre ++ [.word name]) (.afterDecimal around)
  | finished {pre ts : List Token} {around : List Around} {t : ColumnType} : Opens pre around → IsType ts t →
      Stands (pre ++ ts) (.finished t around)

theorem FieldsBefore.fields {before ts : List Token} {earlier fields : List (String × ColumnType)}
    (h : FieldsBefore before earlier) (hf : IsFields ts fields) :
    IsFields (before ++ ts) (earlier.reverse ++ fields) := by
  induction h generalizing ts fields with
  | nil => exact hf
  | more _ hname ht ih =>
    have := ih (.more hname ht hf)
    simpa using this

section Step

variable {pre ts : List Token} {around : List Around} {t : ColumnType} {name : List Char} {r : Reader}

theorem stands_stepFinished (ho : Opens pre around) (ht : IsType ts t) {s : Symbol}
    (h : Reader.stepFinished t around s = .ok r) : Stands (pre ++ ts ++ [.symbol s]) r := by
  cases ho with
  | top => cases s <;> cases h
  | array ho hn =>
    cases s <;> cases h
    simpa using Stands.finished ho (.array hn ht)
  | mapKey ho hn =>
    cases s <;> cases h
    simpa using Stands.start (.mapValue ho hn ht)
  | mapValue ho hn hk =>
    cases s <;> cases h
    simpa using Stands.finished ho (.map hn hk ht)
  | field ho hn hb hf =>
    cases s <;> cases h
    · have := Stands.finished ho (.struct hn (hb.fields (.last hf ht)))
      simpa using this
    · simpa using Stands.nextField ho hn (hb.more hf ht)

theorem stands_stepHead (ho : Opens pre around) (h : Reader.stepHead around name = .ok r) :
    Stands (pre ++ [.word name]) r := by
  unfold Reader.stepHead at h
  cases hn : Head.ofName? name with
  | none =>
    rw [hn] at h
    cases h
  | some head =>
    rw [hn] at h
    by_cases hu : head = .unsupported
    · subst hu
      cases h
    · cases announces_of_ofName? hn hu with
      | plain hm hk =>
        cases h
        exact .finished ho (.plain hm hk)
      | double hk =>
        cases h
        exact .afterDouble ho hk
      | decimal hk =>
        cases h
        exact .afterDecimal ho hk
      | varchar hk =>
        cases h
        exact .sizedOpen ho (.varchar hk)
      | char hk =>
        cases h
        exact .sizedOpen ho (.char hk)
      | array hk =>
        cases h
        exact .arrayOpen ho hk
      | map hk =>
        cases h
        exact .mapOpen ho hk
      | struct hk =>
        cases h
        exact .structOpen ho hk

/-- A type with its length. -/
theorem isType_sized {make : UInt32 → ColumnType} (h : Announces name (.sized make)) (n : UInt32) :
    IsType [.word name, .symbol .openParen, .number n, .symbol .closeParen] (make n) := by
  cases h with
  | varchar hn => exact .varchar n hn
  | char hn => exact .char n hn

/-- A decimal whose scale is written has just that scale; one without has scale 0. -/
theorem isType_decimal (hn : Named name "decimal") {p s : UInt32} (h : checkDecimal p s = .ok t) :
    IsType [.word name, .symbol .openParen, .number p, .symbol .comma, .number s, .symbol .closeParen] t ∧
      (s = 0 → IsType [.word name, .symbol .openParen, .number p, .symbol .closeParen] t) := by
  obtain ⟨p, s, rfl, rfl, h1, h2, h3, rfl⟩ := checkDecimal_eq_ok.mp h
  refine ⟨.decimal hn h1 h2 h3, ?_⟩
  intro hs
  obtain rfl : s = 0 := UInt8.toNat_inj.mp (by simpa using congrArg UInt32.toNat hs)
  exact .decimalPrecision hn h1 h2

/-- The state once a field name has been read. -/
theorem stands_stepField {before : List Token} {fields : List (String × ColumnType)} {tok : Token}
    (ho : Opens pre around) (hn : Named name "struct") (hb : FieldsBefore before fields)
    (h : Reader.stepField fields around tok = .ok r) :
    Stands (pre ++ .word name :: .symbol .openAngle :: before ++ [tok]) r := by
  obtain ⟨field, hf, rfl⟩ := stepField_eq_ok.mp h
  simpa using Stands.fieldColon ho hn hb hf

/-- The state once the parenthesis behind a decimal is closed. -/
theorem stands_checkDecimal {p s : UInt32} {ts : List Token} (ho : Opens pre around)
    (h : (do return .finished (← checkDecimal p s) around) = Except.ok r)
    (ht : ∀ t, checkDecimal p s = .ok t → IsType ts t) : Stands (pre ++ ts) r := by
  cases hc : checkDecimal p s with
  | error e =>
    rw [hc] at h
    cases h
  | ok t =>
    rw [hc] at h
    cases h
    exact .finished ho (ht t hc)

theorem Stands.step (h : Stands pre r) {tok : Token} {r' : Reader} (hs : r.step tok = .ok r') :
    Stands (pre ++ [tok]) r' := by
  cases h with
  | start ho =>
    cases tok with
    | word name => exact stands_stepHead ho hs
    | number n => cases hs
    | symbol s => cases hs
  | arrayOpen ho hn =>
    cases tok with
    | symbol s =>
      cases s <;> cases hs
      simpa using Stands.start (.array ho hn)
    | _ => cases hs
  | mapOpen ho hn =>
    cases tok with
    | symbol s =>
      cases s <;> cases hs
      simpa using Stands.start (.mapKey ho hn)
    | _ => cases hs
  | structOpen ho hn =>
    cases tok with
    | symbol s =>
      cases s <;> cases hs
      simpa using Stands.firstField ho hn
    | _ => cases hs
  | firstField ho hn =>
    by_cases hc : tok = .symbol .closeAngle
    · subst hc
      cases hs
      simpa using Stands.finished ho (.emptyStruct hn)
    · rw [step_firstField hc] at hs
      exact stands_stepField ho hn .nil hs
  | nextField ho hn hb => exact stands_stepField ho hn hb hs
  | fieldColon ho hn hb hf =>
    cases tok with
    | symbol s =>
      cases s <;> cases hs
      simpa using Stands.start (.field ho hn hb hf)
    | _ => cases hs
  | sizedOpen ho ha =>
    cases tok with
    | symbol s =>
      cases s <;> cases hs
      simpa using Stands.size ho ha
    | _ => cases hs
  | size ho ha =>
    cases tok with
    | number n =>
      cases hs
      simpa using Stands.sizedClose n ho ha
    | _ => cases hs
  | sizedClose n ho ha =>
    cases tok with
    | symbol s =>
      cases s <;> cases hs
      simpa using Stands.finished ho (isType_sized ha n)
    | _ => cases hs
  | precision ho hn =>
    cases tok with
    | number p =>
      cases hs
      simpa using Stands.scaleOrClose p ho hn
    | _ => cases hs
  | scaleOrClose p ho hn =>
    cases tok with
    | symbol s =>
      cases s with
      | comma =>
        cases hs
        simpa using Stands.scale p ho hn
      | closeParen =>
        rw [List.append_assoc]
        exact stands_checkDecimal ho hs fun t ht => (isType_decimal hn ht).2 rfl
      | _ => cases hs
    | _ => cases hs
  | scale p ho hn =>
    cases tok with
    | number s =>
      cases hs
      simpa using Stands.decimalClose p s ho hn
    | _ => cases hs
  | decimalClose p s ho hn =>
    cases tok with
    | symbol c =>
      cases c with
      | closeParen =>
        rw [List.append_assoc]
        exact stands_checkDecimal ho hs fun t ht => (isType_decimal hn ht).1
      | _ => cases hs
    | _ => cases hs
  | afterDouble ho hn =>
    cases tok with
    | word more =>
      rw [Reader.step] at hs
      split at hs
      · rename_i hm
        cases hs
        simpa using Stands.finished ho (.doublePrecision hn hm)
      · cases hs
    | number n => cases hs
    | symbol s => exact stands_stepFinished ho (.double hn) hs
  | afterDecimal ho hn =>
    cases tok with
    | symbol s =>
      by_cases hp : s = .openParen
      · subst hp
        cases hs
        simpa using Stands.precision ho hn
      · refine stands_stepFinished ho (.bareDecimal hn) ?_
        rw [← hs]
        exact (Settled.afterDecimal.step hp).symm
    | _ => cases hs
  | finished ho ht =>
    cases tok with
    | symbol s => exact stands_stepFinished ho ht hs
    | _ => cases hs

theorem Stands.reads {us : List Token} {r' : Reader} (h : Stands pre r) (hr : r.reads us = some r') :
    Stands (pre ++ us) r' := by
  induction us generalizing pre r with
  | nil =>
    cases hr
    rw [List.append_nil]
    exact h
  | cons tok us ih =>
    obtain ⟨next, hs, hr⟩ := Reader.reads_cons_eq_some.mp hr
    rw [← List.singleton_append, ← List.append_assoc]
    exact ih (h.step hs) hr

/-- With nothing around, what was read is a type. -/
theorem Stands.complete (h : Stands pre r) (hc : r.complete? = some t) : IsType pre t := by
  have top : ∀ {pre : List Token}, Opens pre [] → pre = [] := by
    intro pre ho
    cases ho
    rfl
  cases settled_of_complete? hc with
  | finished =>
    cases h with
    | finished ho ht => simpa [top ho] using ht
  | afterDouble =>
    cases h with
    | afterDouble ho hn => simpa [top ho] using IsType.double hn
  | afterDecimal =>
    cases h with
    | afterDecimal ho hn =>
      rw [top ho]
      exact .bareDecimal hn

end Step

/-! ## Types -/

theorem stands_start : Stands [] (.start []) := .start .top

theorem run_eq_ok {toks : List (Nat × Token)} {r' : Reader} : ∀ {r : Reader},
    r.run toks = .ok r' ↔ r.reads (toks.map Prod.snd) = some r' := by
  induction toks with
  | nil =>
    intro r
    simp [Reader.run, Reader.reads]
  | cons tok toks ih =>
    intro r
    rw [Reader.run, List.map_cons, Reader.reads]
    cases r.step tok.2 with
    | error e => simp
    | ok next => exact ih

theorem ofTokens_eq_ok {toks : List (Nat × Token)} {t : ColumnType} : ofTokens toks = .ok t ↔
    ∃ r, (Reader.start []).reads (toks.map Prod.snd) = some r ∧ r.complete? = some t := by
  unfold ofTokens
  cases hr : (Reader.start []).run toks with
  | error e =>
    constructor
    · intro h
      cases h
    · intro h
      obtain ⟨r, hreads, -⟩ := h
      cases hr.symm.trans (run_eq_ok.mpr hreads)
  | ok r =>
    simp only [run_eq_ok.mp hr, bind, Except.bind]
    cases hc : r.complete? with
    | none => simp [hc]
    | some u => simp [hc]

theorem ofTokens_iff_isType {toks : List (Nat × Token)} {t : ColumnType} :
    ofTokens toks = .ok t ↔ IsType (toks.map Prod.snd) t := by
  rw [ofTokens_eq_ok]
  constructor
  · intro h
    obtain ⟨r, hr, hc⟩ := h
    exact (stands_start.reads hr).complete hc
  · intro h
    obtain ⟨r, hr, hs⟩ := h.reads []
    exact ⟨r, hr, hs.complete?⟩

/-! ## Lists of types -/

theorem isSeparator_iff {tok : Token} : isSeparator tok = true ↔
    ∃ s ∈ [Symbol.colon, .comma, .semicolon], tok = .symbol s := by
  simp [isSeparator, or_assoc]

/-- A separator does not go on with a type that may end where it stands. -/
theorem step_separator {r r' : Reader} {t : ColumnType} {tok : Token} (hc : r.complete? = some t)
    (hs : isSeparator tok = true) : r.step tok ≠ .ok r' := by
  obtain ⟨s, hs, rfl⟩ := isSeparator_iff.mp hs
  have hne : s ≠ .openParen := by
    intro h
    subst h
    exact absurd hs (by decide)
  rw [(settled_of_complete? hc).step hne]
  intro h
  cases s <;> cases h

/-- Among types, the tokens of one are read as they are alone. -/
theorem runList_reads {before : List ColumnType} {ts : List Token} {r' : Reader} {more : List (Nat × Token)} :
    ∀ {r : Reader} {toks : List (Nat × Token)}, r.reads ts = some r' → toks.map Prod.snd = ts →
      runList before r (toks ++ more) = runList before r' more := by
  induction ts with
  | nil =>
    intro r toks hr ht
    obtain rfl := List.map_eq_nil_iff.mp ht
    cases hr
    rfl
  | cons t ts ih =>
    intro r toks hr ht
    obtain ⟨tok, toks, rfl, rfl, htoks⟩ := List.map_eq_cons_iff.mp ht
    obtain ⟨next, hs, hr⟩ := Reader.reads_cons_eq_some.mp hr
    rw [List.cons_append, runList]
    split
    · rename_i hc hsep
      exact absurd hs (step_separator hc hsep)
    · rw [hs]
      exact ih hr htoks

/-- A separator behind a type ends it. -/
theorem IsType.runList_separated {ts : List Token} {t : ColumnType} (h : IsType ts t) (before : List ColumnType)
    {first rest : List (Nat × Token)} {sep : Nat × Token} (hfirst : first.map Prod.snd = ts)
    (hsep : isSeparator sep.2 = true) :
    runList before (.start []) (first ++ sep :: rest) = runList (t :: before) (.start []) rest := by
  obtain ⟨r, hr, hsettled⟩ := h.reads []
  rw [runList_reads hr hfirst, ColumnType.runList, hsettled.complete?, hsep]

theorem IsList.runList {ts : List Token} {types : List ColumnType} (h : IsList ts types) :
    ∀ (before : List ColumnType) (toks : List (Nat × Token)), toks.map Prod.snd = ts →
      runList before (.start []) toks = .ok (before.reverse ++ types) := by
  induction h with
  | @one ts t ht =>
    intro before toks htoks
    obtain ⟨r, hr, hs⟩ := ht.reads []
    rw [← List.append_nil toks, runList_reads hr htoks, ColumnType.runList, hs.complete?, ← List.reverse_cons]
  | @more ts rest t types s hs ht hrest ih =>
    intro before toks htoks
    obtain ⟨first, rest, rfl, hfirst, hrest⟩ := List.map_eq_append_iff.mp htoks
    obtain ⟨sep, rest, rfl, hsep, hrest⟩ := List.map_eq_cons_iff.mp hrest
    rw [ht.runList_separated before hfirst (isSeparator_iff.mpr ⟨s, hs, hsep⟩)]
    have := ih (t :: before) rest hrest
    rw [List.reverse_cons, List.append_assoc] at this
    exact this

theorem isList_of_runList {toks : List (Nat × Token)} {types : List ColumnType} :
    ∀ {pre : List Token} {r : Reader} {before : List ColumnType}, Stands pre r →
      runList before r toks = .ok types →
      ∃ more, types = before.reverse ++ more ∧ IsList (pre ++ toks.map Prod.snd) more := by
  induction toks with
  | nil =>
    intro pre r before h hrun
    rw [runList] at hrun
    cases hc : r.complete? with
    | none =>
      rw [hc] at hrun
      cases hrun
    | some t =>
      rw [hc] at hrun
      obtain rfl := Except.ok.inj hrun
      refine ⟨[t], List.reverse_cons, ?_⟩
      rw [List.map_nil, List.append_nil]
      exact .one (h.complete hc)
  | cons tok toks ih =>
    intro pre r before h hrun
    rw [runList] at hrun
    split at hrun
    · rename_i t hc hsep
      obtain ⟨s, hs, htok⟩ := isSeparator_iff.mp hsep
      obtain ⟨more, rfl, hmore⟩ := ih stands_start hrun
      refine ⟨t :: more, by simp, ?_⟩
      rw [List.map_cons, htok]
      exact .more s hs (h.complete hc) hmore
    · cases hs : r.step tok.2 with
      | error e =>
        rw [hs] at hrun
        cases hrun
      | ok next =>
        rw [hs] at hrun
        obtain ⟨more, rfl, hmore⟩ := ih (h.step hs) hrun
        exact ⟨more, rfl, by simpa using hmore⟩

theorem listOfTokens_iff_isList {toks : List (Nat × Token)} {types : List ColumnType} :
    listOfTokens toks = .ok types ↔
      toks = [] ∧ types = [] ∨ IsList (toks.map Prod.snd) types := by
  cases toks with
  | nil =>
    have hno : ¬ IsList [] types := by
      intro h
      have := h.runList [] [] rfl
      cases this
    simp [listOfTokens, hno, eq_comm]
  | cons tok toks =>
    rw [listOfTokens]
    constructor
    · intro h
      obtain ⟨more, rfl, hmore⟩ := isList_of_runList stands_start h
      exact .inr hmore
    · intro h
      rcases h with ⟨h, -⟩ | h
      · cases h
      · exact h.runList [] _ rfl
    · exact nofun

/-! ## Texts -/

/-- A fault of the scanner or of the reader is a fault of the text. -/
theorem scanned_eq_ok {α : Type} {s : String} {f : List (Nat × Token) → Except Fault α} {a : α} :
    (scanString s >>= f).mapError (ReadError.mk s) = .ok a ↔
      ∃ toks, scan 0 s.toList = .ok toks ∧ f toks = .ok a := by
  unfold scanString
  cases scan 0 s.toList with
  | error e => exact ⟨nofun, nofun⟩
  | ok toks =>
    show (f toks).mapError _ = .ok a ↔ _
    constructor
    · intro h
      cases hf : f toks with
      | error e =>
        rw [hf] at h
        cases h
      | ok b =>
        rw [hf] at h
        cases h
        exact ⟨toks, rfl, hf⟩
    · intro h
      obtain ⟨toks', ht, hf⟩ := h
      obtain rfl := Except.ok.inj ht
      rw [hf]
      rfl

theorem ofString_eq_ok {s : String} {t : ColumnType} :
    ofString s = .ok t ↔ ∃ ts, Spells s.toList ts ∧ IsType ts t := by
  rw [ofString, scanned_eq_ok]
  constructor
  · intro h
    obtain ⟨toks, hscan, ht⟩ := h
    exact ⟨_, scan_spells hscan, ofTokens_iff_isType.mp ht⟩
  · intro h
    obtain ⟨ts, hts, ht⟩ := h
    obtain ⟨toks, hscan, rfl⟩ := spells_scan hts 0
    exact ⟨toks, hscan, ofTokens_iff_isType.mpr ht⟩

theorem listOfString_eq_ok {s : String} {types : List ColumnType} :
    listOfString s = .ok types ↔ ∃ ts, Spells s.toList ts ∧ (ts = [] ∧ types = [] ∨ IsList ts types) := by
  rw [listOfString, scanned_eq_ok]
  constructor
  · intro h
    obtain ⟨toks, hscan, ht⟩ := h
    refine ⟨_, scan_spells hscan, ?_⟩
    simpa using listOfTokens_iff_isList.mp ht
  · intro h
    obtain ⟨ts, hts, ht⟩ := h
    obtain ⟨toks, hscan, rfl⟩ := spells_scan hts 0
    exact ⟨toks, hscan, listOfTokens_iff_isList.mpr (by simpa using ht)⟩

theorem read_iff_derived (s : String) :
    (∀ t, ofString s = .ok t ↔ ∃ ts, Spells s.toList ts ∧ IsType ts t) ∧
    (∀ types, listOfString s = .ok types ↔
      ∃ ts, Spells s.toList ts ∧ (ts = [] ∧ types = [] ∨ IsList ts types)) ∧
    (∀ ts us, Spells s.toList ts → Spells s.toList us → ts = us) ∧
    (∀ ts t u, IsType ts t → IsType ts u → t = u) :=
  ⟨fun _ => ofString_eq_ok, fun _ => listOfString_eq_ok, fun _ _ => Spells.unique, fun _ _ _ => IsType.unique⟩

example : (listOfString " MAP<int,`a`>").toOption = none := by decide +kernel

example : (listOfString "Map<int,varchar(3)> : Decimal;struct<`a`:double precision>").toOption =
    some [.map .int (.varchar 3), .decimal 10 0, .struct [("a", .double)]] := by
  decide +kernel

end TableScan.ColumnType
