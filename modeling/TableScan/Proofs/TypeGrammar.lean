/-
  TableScan.Proofs.TypeGrammar — the type expressions that can be read, as a grammar over tokens.

  `IsType`, `IsFields` and `IsList` say which tokens are a type, the fields of a struct, and a
  list of types, without the reader. Every derivation can be read (`IsType.reads`), by
  induction over it, and so derives one type only (`IsType.unique`).
-/

import TableScan.ColumnType.Reader
import TableScan.Proofs.TypeLexicon

namespace TableScan.ColumnType

open TableScan.Text

/-! ## The grammar -/

/-- The word is the keyword, in any case. -/
def Named (name : List Char) (keyword : String) : Prop := name.map Char.toLower = keyword.toList

/-- Types that are a name alone. -/
def plainNames : List (String × ColumnType) :=
  [("void", .void), ("boolean", .boolean), ("tinyint", .tinyint), ("smallint", .smallint), ("int", .int),
    ("integer", .int), ("bigint", .bigint), ("float", .float), ("string", .string), ("binary", .binary),
    ("date", .date), ("timestamp", .timestamp)]

/-- A field goes by a word without the backticks around it, or by the numeral of a number. -/
inductive IsFieldName : Token → String → Prop
  | word (before after : Nat) {core : List Char} : core.head? ≠ some '\x60' → core.getLast? ≠ some '\x60' →
      IsFieldName (.word (List.replicate before '\x60' ++ core ++ List.replicate after '\x60'))
        (String.ofList core)
  | number (n : UInt32) : IsFieldName (.number n) (Text.decimal n.toNat)

mutual

inductive IsType : List Token → ColumnType → Prop
  | plain {keyword : String} {t : ColumnType} {name : List Char} : (keyword, t) ∈ plainNames →
      Named name keyword → IsType [.word name] t
  | double {name : List Char} : Named name "double" → IsType [.word name] .double
  | doublePrecision {name more : List Char} : Named name "double" → Named more "precision" →
      IsType [.word name, .word more] .double
  | varchar {name : List Char} (n : UInt32) : Named name "varchar" →
      IsType [.word name, .symbol .openParen, .number n, .symbol .closeParen] (.varchar n)
  | char {name : List Char} (n : UInt32) : Named name "char" →
      IsType [.word name, .symbol .openParen, .number n, .symbol .closeParen] (.char n)
  | bareDecimal {name : List Char} : Named name "decimal" → IsType [.word name] (.decimal 10 0)
  | decimalPrecision {name : List Char} {p : UInt8} : Named name "decimal" → 1 ≤ p → p ≤ 38 →
      IsType [.word name, .symbol .openParen, .number p.toUInt32, .symbol .closeParen] (.decimal p 0)
  | decimal {name : List Char} {p s : UInt8} : Named name "decimal" → 1 ≤ p → p ≤ 38 → s ≤ p →
      IsType [.word name, .symbol .openParen, .number p.toUInt32, .symbol .comma, .number s.toUInt32,
        .symbol .closeParen] (.decimal p s)
  | array {name : List Char} {ts : List Token} {t : ColumnType} : Named name "array" → IsType ts t →
      IsType (.word name :: .symbol .openAngle :: (ts ++ [.symbol .closeAngle])) (.array t)
  | map {name : List Char} {ks vs : List Token} {k v : ColumnType} : Named name "map" → IsType ks k → IsType vs v →
      IsType (.word name :: .symbol .openAngle :: (ks ++ .symbol .comma :: (vs ++ [.symbol .closeAngle])))
        (.map k v)
  | emptyStruct {name : List Char} : Named name "struct" →
      IsType [.word name, .symbol .openAngle, .symbol .closeAngle] (.struct [])
  | struct {name : List Char} {ts : List Token} {fields : List (String × ColumnType)} : Named name "struct" →
      IsFields ts fields →
      IsType (.word name :: .symbol .openAngle :: (ts ++ [.symbol .closeAngle])) (.struct fields)

inductive IsFields : List Token → List (String × ColumnType) → Prop
  | last {name : Token} {field : String} {ts : List Token} {t : ColumnType} : IsFieldName name field →
      IsType ts t → IsFields (name :: .symbol .colon :: ts) [(field, t)]
  | more {name : Token} {field : String} {ts rest : List Token} {t : ColumnType}
      {fields : List (String × ColumnType)} : IsFieldName name field → IsType ts t → IsFields rest fields →
      IsFields (name :: .symbol .colon :: (ts ++ .symbol .comma :: rest)) ((field, t) :: fields)

end

/-- Types with one colon, comma or semicolon between any two. -/
inductive IsList : List Token → List ColumnType → Prop
  | one {ts : List Token} {t : ColumnType} : IsType ts t → IsList ts [t]
  | more {ts rest : List Token} {t : ColumnType} {types : List ColumnType} (s : Symbol) :
      s ∈ [Symbol.colon, .comma, .semicolon] → IsType ts t → IsList rest types →
      IsList (ts ++ .symbol s :: rest) (t :: types)

/-! ## Names -/

theorem Named.keyword {name : List Char} {keyword : String} (h : Named name keyword) :
    String.ofList (name.map Char.toLower) = keyword := by
  rw [h, String.ofList_toList]

theorem named_of_keyword {name : List Char} {keyword : String}
    (h : String.ofList (name.map Char.toLower) = keyword) : Named name keyword := by
  rw [Named, ← h, String.toList_ofList]

/-- What a name announces, told by the keyword that it is. -/
inductive Announces (name : List Char) : Head → Prop
  | plain {keyword : String} {t : ColumnType} : (keyword, t) ∈ plainNames → Named name keyword →
      Announces name (.plain t)
  | double : Named name "double" → Announces name .double
  | decimal : Named name "decimal" → Announces name .decimal
  | varchar : Named name "varchar" → Announces name (.sized .varchar)
  | char : Named name "char" → Announces name (.sized .char)
  | array : Named name "array" → Announces name .array
  | map : Named name "map" → Announces name .map
  | struct : Named name "struct" → Announces name .struct

theorem announces_of_ofName? {name : List Char} {head : Head} (h : Head.ofName? name = some head)
    (hu : head ≠ .unsupported) : Announces name head := by
  unfold Head.ofName? at h
  split at h <;> rename_i hk <;> cases h
  all_goals first
    | exact .plain (by simp [plainNames]) (named_of_keyword hk)
    | exact .double (named_of_keyword hk)
    | exact .decimal (named_of_keyword hk)
    | exact .varchar (named_of_keyword hk)
    | exact .char (named_of_keyword hk)
    | exact .array (named_of_keyword hk)
    | exact .map (named_of_keyword hk)
    | exact .struct (named_of_keyword hk)
    | exact absurd rfl hu

theorem Announces.ofName? {name : List Char} {head : Head} (h : Announces name head) :
    Head.ofName? name = some head := by
  unfold Head.ofName?
  cases h with
  | plain hm hn =>
    rw [hn.keyword]
    simp only [plainNames, List.mem_cons, List.not_mem_nil, or_false, Prod.mk.injEq] at hm
    rcases hm with h | h | h | h | h | h | h | h | h | h | h | h <;> obtain ⟨rfl, rfl⟩ := h <;> rfl
  | double hn | decimal hn | varchar hn | char hn | array hn | map hn | struct hn =>
    rw [hn.keyword]
    rfl

/-! ## Names of fields -/

theorem takeWhile_backticks (cs : List Char) :
    ∃ n, cs.takeWhile (· == '\x60') = List.replicate n '\x60' := by
  refine ⟨_, List.eq_replicate_iff.mpr ⟨rfl, ?_⟩⟩
  intro c hc
  exact beq_iff_eq.mp (List.all_eq_true.mp List.all_takeWhile c hc)

theorem head?_dropWhile_backticks (cs : List Char) : (cs.dropWhile (· == '\x60')).head? ≠ some '\x60' := by
  intro h
  have := stops_dropWhile (· == '\x60') cs '\x60' h
  cases this

theorem dropWhile_backticks {n : Nat} {cs : List Char} (h : cs.head? ≠ some '\x60') :
    (List.replicate n '\x60' ++ cs).dropWhile (· == '\x60') = cs := by
  refine dropWhile_run ?_ ?_
  · intro c hc
    exact beq_iff_eq.mpr (List.eq_of_mem_replicate hc)
  · intro c hc
    refine eq_false_of_ne_true fun heq => h ?_
    rw [Option.mem_def.mp hc, beq_iff_eq.mp heq]

/-- Any word is a name between backticks. -/
theorem isFieldName_word (name : List Char) :
    IsFieldName (.word name) (String.ofList (unquoteName name)) := by
  let inner := name.dropWhile (· == '\x60')
  let core := inner.reverse.dropWhile (· == '\x60')
  obtain ⟨before, hbefore⟩ := takeWhile_backticks name
  obtain ⟨after, hafter⟩ := takeWhile_backticks inner.reverse
  have hname : name = List.replicate before '\x60' ++ inner := by
    rw [← hbefore, List.takeWhile_append_dropWhile]
  have hinner : inner = core.reverse ++ List.replicate after '\x60' := by
    rw [← List.reverse_replicate, ← hafter, ← List.reverse_append, List.takeWhile_append_dropWhile,
      List.reverse_reverse]
  have hhead : core.reverse.head? ≠ some '\x60' := by
    intro h
    have : inner.head? = some '\x60' := by rw [hinner, List.head?_append, h]; rfl
    exact head?_dropWhile_backticks name this
  have hlast : core.reverse.getLast? ≠ some '\x60' := by
    rw [List.getLast?_reverse]
    exact head?_dropWhile_backticks _
  have := IsFieldName.word before after hhead hlast
  rw [List.append_assoc, ← hinner, ← hname] at this
  exact this

theorem unquoteName_eq (before after : Nat) {core : List Char} (hhead : core.head? ≠ some '\x60')
    (hlast : core.getLast? ≠ some '\x60') :
    unquoteName (List.replicate before '\x60' ++ core ++ List.replicate after '\x60') = core := by
  unfold unquoteName
  cases core with
  | nil =>
    rw [List.append_nil, List.replicate_append_replicate, List.dropWhile_replicate]
    rfl
  | cons c core =>
    have hhead' : (c :: core ++ List.replicate after '\x60').head? ≠ some '\x60' := hhead
    rw [List.append_assoc, dropWhile_backticks hhead', List.reverse_append, List.reverse_replicate,
      dropWhile_backticks (by rw [List.head?_reverse]; exact hlast), List.reverse_reverse]

theorem stepField_eq_ok {fields : List (String × ColumnType)} {around : List Around} {tok : Token} {r : Reader} :
    Reader.stepField fields around tok = .ok r ↔
      ∃ field, IsFieldName tok field ∧ r = .fieldColon fields field around := by
  constructor
  · intro h
    cases tok with
    | word name =>
      cases h
      exact ⟨_, isFieldName_word name, rfl⟩
    | number n =>
      cases h
      exact ⟨_, .number n, rfl⟩
    | symbol s => cases h
  · intro h
    obtain ⟨field, hf, rfl⟩ := h
    cases hf with
    | word before after hhead hlast => rw [Reader.stepField, unquoteName_eq before after hhead hlast]
    | number n => rfl

/-! ## Decimals -/

theorem toUInt32_toUInt8 {n : UInt32} (h : n.toNat ≤ 38) : n.toUInt8.toUInt32 = n := by
  refine UInt32.toNat_inj.mp ?_
  rw [UInt8.toNat_toUInt32, UInt32.toNat_toUInt8]
  omega

theorem checkDecimal_eq_ok {p s : UInt32} {t : ColumnType} : checkDecimal p s = .ok t ↔
    ∃ p' s' : UInt8, p = p'.toUInt32 ∧ s = s'.toUInt32 ∧ 1 ≤ p' ∧ p' ≤ 38 ∧ s' ≤ p' ∧
      t = .decimal p' s' := by
  have hzero : p = 0 ↔ p.toNat = 0 := UInt32.toNat_inj.symm
  simp only [checkDecimal, maxPrecision, hzero, UInt32.lt_iff_toNat_lt]
  constructor
  · intro h
    split at h
    · cases h
    · split at h
      · cases h
      · rename_i hp hs
        cases h
        have hp' : p.toUInt8.toNat = p.toNat := by rw [UInt32.toNat_toUInt8]; omega
        have hs' : s.toUInt8.toNat = s.toNat := by rw [UInt32.toNat_toUInt8]; omega
        refine ⟨p.toUInt8, s.toUInt8, (toUInt32_toUInt8 (by omega)).symm, (toUInt32_toUInt8 (by omega)).symm,
          ?_, ?_, ?_, rfl⟩
        · rw [UInt8.le_iff_toNat_le, hp']
          show 1 ≤ p.toNat
          omega
        · rw [UInt8.le_iff_toNat_le, hp']
          show p.toNat ≤ 38
          omega
        · rw [UInt8.le_iff_toNat_le, hp', hs']
          omega
  · intro h
    obtain ⟨p', s', rfl, rfl, h1, h2, h3, rfl⟩ := h
    have h1 : 1 ≤ p'.toNat := h1
    have h2 : p'.toNat ≤ 38 := h2
    have h3 : s'.toNat ≤ p'.toNat := h3
    rw [UInt8.toNat_toUInt32, UInt8.toNat_toUInt32, if_neg (by omega), if_neg (by omega), UInt8.toUInt8_toUInt32,
      UInt8.toUInt8_toUInt32]

/-! ## Every derivation can be read -/

namespace Reader

/-- The reader after some tokens, if it refuses none. -/
def reads (r : Reader) : List Token → Option Reader
  | [] => some r
  | t :: ts =>
    match r.step t with
    | .ok r => r.reads ts
    | .error _ => none

theorem reads_cons {r r' : Reader} {t : Token} (h : r.step t = .ok r') (ts : List Token) :
    r.reads (t :: ts) = r'.reads ts := by
  rw [reads, h]

theorem reads_cons_eq_some {r r' : Reader} {t : Token} {ts : List Token} :
    r.reads (t :: ts) = some r' ↔ ∃ next, r.step t = .ok next ∧ next.reads ts = some r' := by
  rw [reads]
  cases r.step t with
  | error e => simp
  | ok next => simp

theorem reads_append (ts us : List Token) : ∀ r : Reader, r.reads (ts ++ us) = (r.reads ts).bind (·.reads us) := by
  induction ts with
  | nil => exact fun r => rfl
  | cons t ts ih =>
    intro r
    rw [List.cons_append, reads, reads]
    cases r.step t with
    | ok r => exact ih r
    | error e => rfl

end Reader

/-- The reader stands behind a whole type. -/
inductive Settled : Reader → ColumnType → List Around → Prop
  | finished {t : ColumnType} {around : List Around} : Settled (.finished t around) t around
  | afterDouble {around : List Around} : Settled (.afterDouble around) .double around
  | afterDecimal {around : List Around} : Settled (.afterDecimal around) bareDecimal around

theorem Settled.step {r : Reader} {t : ColumnType} {around : List Around} (h : Settled r t around) {s : Symbol}
    (hs : s ≠ .openParen) : r.step (.symbol s) = Reader.stepFinished t around s := by
  cases h with
  | finished => rfl
  | afterDouble => rfl
  | afterDecimal => cases s <;> first | rfl | exact absurd rfl hs

theorem Settled.step_closeAngle {r : Reader} {t : ColumnType} {around : List Around} (h : Settled r t around) :
    r.step (.symbol .closeAngle) = Reader.stepFinished t around .closeAngle :=
  h.step (by decide)

theorem Settled.step_comma {r : Reader} {t : ColumnType} {around : List Around} (h : Settled r t around) :
    r.step (.symbol .comma) = Reader.stepFinished t around .comma :=
  h.step (by decide)

theorem Settled.complete? {r : Reader} {t : ColumnType} (h : Settled r t []) : r.complete? = some t := by
  cases h <;> rfl

theorem settled_of_complete? {r : Reader} {t : ColumnType} (h : r.complete? = some t) : Settled r t [] := by
  unfold Reader.complete? at h
  split at h <;> cases h
  · exact .finished
  · exact .afterDouble
  · exact .afterDecimal

theorem step_name {name : List Char} {head : Head} (h : Announces name head) (around : List Around) :
    (Reader.start around).step (.word name) = match head with
      | .plain t => .ok (.finished t around)
      | .double => .ok (.afterDouble around)
      | .decimal => .ok (.afterDecimal around)
      | .sized make => .ok (.sizedOpen make around)
      | .array => .ok (.arrayOpen around)
      | .map => .ok (.mapOpen around)
      | .struct => .ok (.structOpen around)
      | .unsupported => .error .unsupported := by
  rw [Reader.step, Reader.stepHead, h.ofName?]
  cases head <;> rfl

theorem step_precision {more : List Char} (h : Named more "precision") (around : List Around) :
    (Reader.afterDouble around).step (.word more) = .ok (.finished .double around) := by
  rw [Reader.step]
  exact if_pos h

theorem step_field {tok : Token} {field : String} (h : IsFieldName tok field)
    (before : List (String × ColumnType)) (around : List Around) :
    (Reader.nextField before around).step tok = .ok (.fieldColon before field around) :=
  stepField_eq_ok.mpr ⟨field, h, rfl⟩

/-- What does not end the struct at once is read like any field. -/
theorem step_firstField {tok : Token} (h : tok ≠ .symbol .closeAngle) (around : List Around) :
    (Reader.firstField around).step tok = Reader.stepField [] around tok := by
  cases tok with
  | symbol s => cases s <;> first | rfl | exact absurd rfl h
  | _ => rfl

theorem reads_firstField {ts : List Token} {fields : List (String × ColumnType)} (h : IsFields ts fields)
    (around : List Around) (us : List Token) :
    (Reader.firstField around).reads (ts ++ us) = (Reader.nextField [] around).reads (ts ++ us) := by
  have hstep : ∀ {tok : Token} {field : String}, IsFieldName tok field →
      (Reader.firstField around).step tok = (Reader.nextField [] around).step tok := by
    intro tok field hf
    apply step_firstField
    rintro rfl
    cases hf
  cases h with
  | last hf _ => rw [List.cons_append, Reader.reads, Reader.reads, hstep hf]
  | more hf _ _ => rw [List.cons_append, Reader.reads, Reader.reads, hstep hf]

mutual

theorem IsType.reads {ts : List Token} {t : ColumnType} (h : IsType ts t) (around : List Around) :
    ∃ r, (Reader.start around).reads ts = some r ∧ Settled r t around := by
  cases h with
  | plain hm hn => exact ⟨_, Reader.reads_cons (step_name (.plain hm hn) around) [], .finished⟩
  | double hn => exact ⟨_, Reader.reads_cons (step_name (.double hn) around) [], .afterDouble⟩
  | doublePrecision hn hm =>
    refine ⟨.finished _ around, ?_, .finished⟩
    rw [Reader.reads_cons (step_name (.double hn) around), Reader.reads_cons (step_precision hm around)]
    rfl
  | varchar n hn => exact ⟨_, by rw [Reader.reads_cons (step_name (.varchar hn) around)]; rfl, .finished⟩
  | char n hn => exact ⟨_, by rw [Reader.reads_cons (step_name (.char hn) around)]; rfl, .finished⟩
  | bareDecimal hn => exact ⟨_, Reader.reads_cons (step_name (.decimal hn) around) [], .afterDecimal⟩
  | @decimalPrecision _ p hn h1 h2 =>
    have hc : checkDecimal p.toUInt32 0 = .ok (.decimal p 0) :=
      checkDecimal_eq_ok.mpr ⟨p, 0, rfl, rfl, h1, h2, UInt8.zero_le, rfl⟩
    refine ⟨.finished _ around, ?_, .finished⟩
    rw [Reader.reads_cons (step_name (.decimal hn) around)]
    simp only [Reader.reads, Reader.step, hc]
    rfl
  | @decimal _ p s hn h1 h2 h3 =>
    have hc : checkDecimal p.toUInt32 s.toUInt32 = .ok (.decimal p s) :=
      checkDecimal_eq_ok.mpr ⟨p, s, rfl, rfl, h1, h2, h3, rfl⟩
    refine ⟨.finished _ around, ?_, .finished⟩
    rw [Reader.reads_cons (step_name (.decimal hn) around)]
    simp only [Reader.reads, Reader.step, hc]
    rfl
  | array hn ht =>
    obtain ⟨r, hr, hs⟩ := ht.reads (.array :: around)
    refine ⟨.finished _ around, ?_, .finished⟩
    rw [Reader.reads_cons (step_name (.array hn) around), Reader.reads_cons rfl, Reader.reads_append, hr,
      Option.bind_some, Reader.reads_cons hs.step_closeAngle]
    rfl
  | map hn hk hv =>
    obtain ⟨r, hr, hs⟩ := hk.reads (.mapKey :: around)
    obtain ⟨u, hu, hsv⟩ := hv.reads (.mapValue _ :: around)
    refine ⟨.finished _ around, ?_, .finished⟩
    rw [Reader.reads_cons (step_name (.map hn) around), Reader.reads_cons rfl, Reader.reads_append, hr,
      Option.bind_some, Reader.reads_cons hs.step_comma, Reader.reads_append, hu,
      Option.bind_some, Reader.reads_cons hsv.step_closeAngle]
    rfl
  | emptyStruct hn => exact ⟨_, by rw [Reader.reads_cons (step_name (.struct hn) around)]; rfl, .finished⟩
  | struct hn hf =>
    refine ⟨.finished _ around, ?_, .finished⟩
    rw [Reader.reads_cons (step_name (.struct hn) around), Reader.reads_cons rfl, reads_firstField hf,
      hf.reads [] around]
    rfl

theorem IsFields.reads {ts : List Token} {fields : List (String × ColumnType)} (h : IsFields ts fields)
    (before : List (String × ColumnType)) (around : List Around) :
    (Reader.nextField before around).reads (ts ++ [.symbol .closeAngle]) =
      some (.finished (.struct (before.reverse ++ fields)) around) := by
  cases h with
  | @last _ field _ t hf ht =>
    obtain ⟨r, hr, hs⟩ := ht.reads (.field before field :: around)
    rw [List.cons_append, List.cons_append, Reader.reads_cons (step_field hf before around),
      Reader.reads_cons rfl, Reader.reads_append, hr, Option.bind_some, Reader.reads_cons hs.step_closeAngle]
    simp [Reader.reads]
  | @more _ field _ _ t fields hf ht hrest =>
    obtain ⟨r, hr, hs⟩ := ht.reads (.field before field :: around)
    rw [List.cons_append, List.cons_append, Reader.reads_cons (step_field hf before around),
      Reader.reads_cons rfl, List.append_assoc, Reader.reads_append, hr, Option.bind_some, List.cons_append,
      Reader.reads_cons hs.step_comma]
    have := hrest.reads ((field, t) :: before) around
    rw [List.reverse_cons, List.append_assoc] at this
    exact this

end

/-- No tokens are two types. -/
theorem IsType.unique {ts : List Token} {t u : ColumnType} (h : IsType ts t) (k : IsType ts u) : t = u := by
  obtain ⟨r, hr, hs⟩ := h.reads []
  obtain ⟨r', hr', hs'⟩ := k.reads []
  obtain rfl := Option.some.inj (hr.symm.trans hr')
  exact Option.some.inj (hs.complete?.symm.trans hs'.complete?)

end TableScan.ColumnType
