/-
  TableScan.Proofs.RespelledTypes — type expressions do not depend on the case of letters, nor on
  white space next to symbols.

  `Respells` is one edit of a text: some letters in the other case, or white space put in or
  taken away beside one of some marks or at an end of the text. The scanner finds the same tokens
  but for the case of words (`lexemes?_respelled`), and the reader takes no notice of that: in
  each state it does the same with a word in any case (`step_recased`), so that it either
  accepts two such lists of types, which then differ in the case of field names only, or refuses
  both for the same reason (`listOfString_respelled`).
-/

import Mathlib.Logic.Relation
import TableScan.Proofs.TypeRoundTrip

namespace TableScan

open TableScan.Text

/-! ## Edits -/

/-- Next to a mark between the two texts, or at an end. -/
inductive Beside (marks : List Char) : List Char → List Char → Prop
  | start {after : List Char} : Beside marks [] after
  | stop {before : List Char} : Beside marks before []
  | behind {before after : List Char} {c : Char} : c ∈ marks → Beside marks (before ++ [c]) after
  | ahead {before after : List Char} {c : Char} : c ∈ marks → Beside marks before (c :: after)

/-- One text is the other but for the case of letters or one character of white space. -/
inductive Respells (marks : List Char) : List Char → List Char → Prop
  | recased {cs ds : List Char} : cs.map Char.toLower = ds.map Char.toLower → Respells marks cs ds
  | spaced {before after : List Char} {c : Char} : ColumnType.isSpace c = true → Beside marks before after →
      Respells marks (before ++ after) (before ++ c :: after)
  | unspaced {before after : List Char} {c : Char} : ColumnType.isSpace c = true → Beside marks before after →
      Respells marks (before ++ c :: after) (before ++ after)

/-- Two computations give results that are so related, or fail with faults that are. -/
inductive EndAlike {ε α : Type} (same : α → α → Prop) (kin : ε → ε → Prop) : Except ε α → Except ε α → Prop
  | ok {a b : α} : same a b → EndAlike same kin (.ok a) (.ok b)
  | error {e f : ε} : kin e f → EndAlike same kin (.error e) (.error f)

namespace EndAlike

variable {ε ε' α β : Type} {same : α → α → Prop} {same' : β → β → Prop} {kin : ε → ε → Prop} {kin' : ε' → ε' → Prop}
  {x y : Except ε α}

theorem mapError (h : EndAlike same kin x y) {g g' : ε → ε'} (hg : ∀ e f, kin e f → kin' (g e) (g' f)) :
    EndAlike same kin' (x.mapError g) (y.mapError g') := by
  cases h with
  | ok h => exact .ok h
  | error h => exact .error (hg _ _ h)

theorem bind (h : EndAlike same kin x y) {k k' : α → Except ε β}
    (hk : ∀ a b, same a b → EndAlike same' kin (k a) (k' b)) : EndAlike same' kin (x >>= k) (y >>= k') := by
  cases h with
  | ok h => exact hk _ _ h
  | error h => exact .error h

end EndAlike

/-! ## Characters in lower case -/

namespace Text

theorem isUpper_iff {c : Char} : c.isUpper = true ↔ 0x41 ≤ c.toNat ∧ c.toNat ≤ 0x5A := by
  show decide (c.val ≥ 'A'.val ∧ c.val ≤ 'Z'.val) = true ↔ _
  rw [decide_eq_true_iff]
  exact Iff.rfl

theorem toLower_of_not_isUpper {c : Char} (h : c.isUpper = false) : c.toLower = c :=
  dif_neg fun hrange => Bool.false_ne_true (h.symm.trans (decide_eq_true hrange))

theorem toNat_toLower {c : Char} (h : c.isUpper = true) : c.toLower.toNat = c.toNat + 0x20 := by
  have hrange : c.val.toNat ≤ 0x5A := (isUpper_iff.mp h).2
  have hval : c.toLower.val = c.val + 0x20 := congrArg Char.val (dif_pos (of_decide_eq_true h))
  show c.toLower.val.toNat = c.val.toNat + 0x20
  rw [hval, UInt32.toNat_add]
  show (c.val.toNat + 0x20) % 2 ^ 32 = _
  omega

theorem isUpper_toLower (c : Char) : c.toLower.isUpper = false := by
  refine eq_false_of_ne_true fun hlower => ?_
  cases h : c.isUpper with
  | true =>
    have := isUpper_iff.mp h
    have := isUpper_iff.mp hlower
    rw [toNat_toLower h] at this
    omega
  | false =>
    rw [toLower_of_not_isUpper h, h] at hlower
    cases hlower

theorem toLower_toLower (c : Char) : c.toLower.toLower = c.toLower :=
  toLower_of_not_isUpper (isUpper_toLower c)

/-- Only letters have another case, and they remain letters. -/
theorem toLower_cases (c : Char) : c.toLower = c ∨ c.isAlpha = true ∧ c.toLower.isAlpha = true := by
  cases h : c.isUpper with
  | false => exact .inl (toLower_of_not_isUpper h)
  | true =>
    have hrange := isUpper_iff.mp h
    have hlower : c.toLower.isLower = true := by
      refine Bool.and_eq_true_iff.mpr ⟨decide_eq_true ?_, decide_eq_true ?_⟩
      · show 0x61 ≤ c.toLower.toNat
        rw [toNat_toLower h]
        omega
      · show c.toLower.toNat ≤ 0x7A
        rw [toNat_toLower h]
        omega
    exact .inr ⟨Bool.or_eq_true_iff.mpr (.inl h), Bool.or_eq_true_iff.mpr (.inr hlower)⟩

/-- What is said of all letters alike does not depend on the case of a character. -/
theorem apply_toLower {α : Type} {p : Char → α} {a : α} (h : ∀ c, c.isAlpha = true → p c = a) (c : Char) :
    p c.toLower = p c := by
  rcases toLower_cases c with heq | ⟨hc, hlower⟩
  · rw [heq]
  · rw [h _ hlower, h _ hc]

end Text

namespace ColumnType

theorem isSpace_toLower (c : Char) : isSpace c.toLower = isSpace c :=
  apply_toLower (fun _ h => isSpace_of_isWordChar (isWordChar_of_isAlpha h)) c

theorem isWordChar_toLower (c : Char) : isWordChar c.toLower = isWordChar c :=
  apply_toLower (fun _ h => isWordChar_of_isAlpha h) c

theorem ofChar?_toLower (c : Char) : Symbol.ofChar? c.toLower = Symbol.ofChar? c :=
  apply_toLower (fun _ h => ofChar?_of_isWordChar (isWordChar_of_isAlpha h)) c

theorem isDigit_of_isAlpha {c : Char} (h : c.isAlpha = true) : c.isDigit = false := by
  refine eq_false_of_ne_true fun hdigit => ?_
  have := toNat_of_isAlpha h
  have := toNat_of_isDigit hdigit
  omega

theorem isDigit_toLower (c : Char) : c.toLower.isDigit = c.isDigit :=
  apply_toLower (fun _ h => isDigit_of_isAlpha h) c

theorem toLower_of_isDigit {c : Char} (h : c.isDigit = true) : c.toLower = c := by
  rcases toLower_cases c with heq | ⟨hc, -⟩
  · exact heq
  · cases h.symm.trans (isDigit_of_isAlpha hc)

theorem map_toLower_digits {ds : List Char} (h : ∀ c ∈ ds, c.isDigit = true) : ds.map Char.toLower = ds :=
  (List.map_congr_left fun c hc => toLower_of_isDigit (h c hc)).trans (List.map_id ds)

/-! ## The tokens of a respelled text -/

/-- The token with a word in lower case. -/
def Token.lowered : Token → Token
  | .word name => .word (name.map Char.toLower)
  | t => t

/-- The tokens of a text without regard to case, if the scanner finds nothing else in it. -/
def lexemes? (cs : List Char) : Option (List Token) := (scan 0 cs).toOption.map (List.map fun t => t.2.lowered)

theorem lexemes?_eq_some {cs : List Char} {ts : List Token} :
    lexemes? cs = some ts ↔ ∃ us, Spells cs us ∧ us.map Token.lowered = ts := by
  unfold lexemes?
  constructor
  · intro h
    cases hscan : scan 0 cs with
    | error e =>
      rw [hscan] at h
      cases h
    | ok toks =>
      rw [hscan] at h
      obtain rfl := Option.some.inj h
      exact ⟨_, scan_spells hscan, by rw [List.map_map]; rfl⟩
  · rintro ⟨us, hspells, rfl⟩
    obtain ⟨toks, hscan, rfl⟩ := spells_scan hspells 0
    rw [hscan, List.map_map]
    rfl

theorem all_recased {p : Char → Bool} (hp : ∀ c, p c.toLower = p c) {cs ds : List Char}
    (h : cs.map Char.toLower = ds.map Char.toLower) (hcs : ∀ c ∈ cs, p c = true) : ∀ d ∈ ds, p d = true := by
  intro d hd
  have hmem : d.toLower ∈ cs.map Char.toLower := h ▸ List.mem_map_of_mem hd
  obtain ⟨c, hc, heq⟩ := List.mem_map.mp hmem
  rw [← hp, ← heq, hp]
  exact hcs c hc

theorem Stops.recased {p : Char → Bool} (hp : ∀ c, p c.toLower = p c) {cs ds : List Char}
    (h : cs.map Char.toLower = ds.map Char.toLower) (hcs : Stops p cs) : Stops p ds := by
  intro d hd
  have hhead : (cs.head?).map Char.toLower = some d.toLower := by
    rw [← List.head?_map, h, List.head?_map, hd]
    rfl
  obtain ⟨c, hc, heq⟩ := Option.map_eq_some_iff.mp hhead
  rw [← hp, ← heq, hp]
  exact hcs c hc

/-- Words are found in any case, and nothing else has more than one. -/
theorem Spells.recased {cs : List Char} {us : List Token} (h : Spells cs us) : ∀ {ds : List Char},
    cs.map Char.toLower = ds.map Char.toLower → ∃ vs, Spells ds vs ∧ vs.map Token.lowered = us.map Token.lowered := by
  induction h with
  | done =>
    intro ds hds
    obtain rfl := List.map_eq_nil_iff.mp hds.symm
    exact ⟨[], .done, rfl⟩
  | @space c _ _ hc _ ih =>
    intro ds hds
    obtain ⟨d, ds, rfl, hd, hrest⟩ := List.map_eq_cons_iff.mp hds.symm
    obtain ⟨vs, hvs, heq⟩ := ih hrest.symm
    have hspace : isSpace d = true := by rw [← isSpace_toLower, hd, isSpace_toLower, hc]
    exact ⟨vs, .space hspace hvs, heq⟩
  | symbol s _ ih =>
    intro ds hds
    obtain ⟨d, ds, rfl, hd, hrest⟩ := List.map_eq_cons_iff.mp hds.symm
    obtain ⟨vs, hvs, heq⟩ := ih hrest.symm
    have hsymbol : Symbol.ofChar? d = some s := by rw [← ofChar?_toLower, hd, ofChar?_toLower, s.ofChar?_char]
    obtain rfl := Symbol.char_of_ofChar? hsymbol
    exact ⟨.symbol s :: vs, .symbol s hvs, by rw [List.map_cons, heq, List.map_cons]⟩
  | @number n d digits _ _ hdigits hstop hn _ ih =>
    intro ds hds
    rw [List.map_append] at hds
    obtain ⟨run, rest, rfl, hrun, hrest⟩ := List.map_eq_append_iff.mp hds.symm
    obtain ⟨vs, hvs, heq⟩ := ih hrest.symm
    have hrun' : ∀ c ∈ run, c.isDigit = true := all_recased isDigit_toLower hrun.symm hdigits
    rw [map_toLower_digits hrun', map_toLower_digits hdigits] at hrun
    subst hrun
    exact ⟨.number n :: vs, .number hdigits (hstop.recased isDigit_toLower hrest.symm) hn hvs,
      by rw [List.map_cons, heq, List.map_cons]⟩
  | @word c name _ _ hc hname hstop _ ih =>
    intro ds hds
    rw [List.map_append] at hds
    obtain ⟨run, rest, rfl, hrun, hrest⟩ := List.map_eq_append_iff.mp hds.symm
    obtain ⟨vs, hvs, heq⟩ := ih hrest.symm
    obtain ⟨d, more, rfl, hd, -⟩ := List.map_eq_cons_iff.mp hrun
    have hfirst : d.isDigit = false := by rw [← isDigit_toLower, hd, isDigit_toLower, hc]
    refine ⟨.word (d :: more) :: vs, .word hfirst (all_recased isWordChar_toLower hrun.symm hname)
      (hstop.recased isWordChar_toLower hrest.symm) hvs, ?_⟩
    rw [List.map_cons, heq, List.map_cons, Token.lowered, hrun, Token.lowered]

/-- The characters `<>(),:;`. -/
def symbolChars : List Char :=
  [Symbol.openAngle, .closeAngle, .openParen, .closeParen, .comma, .colon, .semicolon].map Symbol.char

theorem exists_symbol {c : Char} (h : c ∈ symbolChars) : ∃ s : Symbol, s.char = c := by
  obtain ⟨s, -, hs⟩ := List.mem_map.mp h
  exact ⟨s, hs⟩

/-- A text comes apart next to a symbol: no token goes across. -/
theorem spells_beside {before after : List Char} {ts : List Token} (h : Beside symbolChars before after) :
    Spells (before ++ after) ts ↔ ∃ us vs, ts = us ++ vs ∧ Spells before us ∧ Spells after vs := by
  cases h with
  | start =>
    constructor
    · exact fun hspells => ⟨[], ts, rfl, .done, hspells⟩
    · rintro ⟨us, vs, rfl, hus, hvs⟩
      obtain rfl := hus.unique .done
      exact hvs
  | stop =>
    rw [List.append_nil]
    constructor
    · exact fun hspells => ⟨ts, [], (List.append_nil ts).symm, hspells, .done⟩
    · rintro ⟨us, vs, rfl, hus, hvs⟩
      obtain rfl := hvs.unique .done
      rwa [List.append_nil]
  | @behind before _ c hc =>
    obtain ⟨s, rfl⟩ := exists_symbol hc
    rw [List.append_assoc, List.singleton_append]
    constructor
    · intro hspells
      obtain ⟨us, vs, rfl, hus, hvs⟩ := spells_append_symbol hspells
      exact ⟨us ++ [.symbol s], vs, by simp, hus.append_symbol s .done, hvs⟩
    · rintro ⟨us, vs, rfl, hus, hvs⟩
      obtain ⟨ws, xs, rfl, hws, hxs⟩ := spells_append_symbol hus
      obtain rfl := hxs.unique .done
      rw [List.append_assoc]
      exact hws.append_symbol s hvs
  | @ahead _ after c hc =>
    obtain ⟨s, rfl⟩ := exists_symbol hc
    constructor
    · exact fun hspells => spells_append hspells (stops_symbol s after)
    · rintro ⟨us, vs, rfl, hus, hvs⟩
      exact hus.append hvs (stops_symbol s after)

/-- White space next to a symbol says nothing. -/
theorem spells_spaced {before after : List Char} {c : Char} (hc : isSpace c = true)
    (h : Beside symbolChars before after) (ts : List Token) :
    Spells (before ++ after) ts ↔ Spells (before ++ c :: after) ts := by
  rw [spells_beside h]
  constructor
  · rintro ⟨us, vs, rfl, hus, hvs⟩
    exact hus.append (.space hc hvs) (stops_space hc after)
  · intro hspells
    obtain ⟨us, vs, rfl, hus, hvs⟩ := spells_append hspells (stops_space hc after)
    exact ⟨us, vs, rfl, hus, hvs.of_space hc⟩

theorem lexemes?_congr {cs ds : List Char} (h : ∀ ts, Spells cs ts ↔ Spells ds ts) : lexemes? cs = lexemes? ds := by
  apply Option.ext
  intro ts
  rw [lexemes?_eq_some, lexemes?_eq_some]
  exact exists_congr fun us => and_congr_left fun _ => h us

theorem lexemes?_recased {cs ds : List Char} (h : cs.map Char.toLower = ds.map Char.toLower) :
    lexemes? cs = lexemes? ds := by
  apply Option.ext
  intro ts
  rw [lexemes?_eq_some, lexemes?_eq_some]
  constructor
  · rintro ⟨us, hus, rfl⟩
    exact hus.recased h
  · rintro ⟨us, hus, rfl⟩
    exact hus.recased h.symm

/-- An edit leaves the tokens as they are, or both texts have some stretch that is no token. -/
theorem lexemes?_respelled {cs ds : List Char} (h : Respells symbolChars cs ds) : lexemes? cs = lexemes? ds := by
  cases h with
  | recased h => exact lexemes?_recased h
  | spaced hc h => exact lexemes?_congr (spells_spaced hc h)
  | unspaced hc h => exact (lexemes?_congr (spells_spaced hc h)).symm

/-! ## The reader without regard to case -/

/-- The name in ASCII lower case. -/
def recasedName (name : String) : String := String.ofList (name.toList.map Char.toLower)

mutual

/-- The type with field names in ASCII lower case. -/
def recased : ColumnType → ColumnType
  | .array t => .array t.recased
  | .map k v => .map k.recased v.recased
  | .struct fields => .struct (recasedFields fields)
  | t => t

def recasedFields : List (String × ColumnType) → List (String × ColumnType)
  | [] => []
  | (name, t) :: rest => (recasedName name, t.recased) :: recasedFields rest

end

theorem recasedFields_eq (fields : List (String × ColumnType)) :
    recasedFields fields = fields.map fun f => (recasedName f.1, f.2.recased) := by
  induction fields with
  | nil => rfl
  | cons f rest ih =>
    obtain ⟨name, t⟩ := f
    rw [recasedFields, ih, List.map_cons]

def Around.recased : Around → Around
  | .array => .array
  | .mapKey => .mapKey
  | .mapValue key => .mapValue key.recased
  | .field fields name => .field (recasedFields fields) (recasedName name)

def Reader.recased : Reader → Reader
  | .start around => .start (around.map Around.recased)
  | .arrayOpen around => .arrayOpen (around.map Around.recased)
  | .mapOpen around => .mapOpen (around.map Around.recased)
  | .structOpen around => .structOpen (around.map Around.recased)
  | .firstField around => .firstField (around.map Around.recased)
  | .nextField fields around => .nextField (recasedFields fields) (around.map Around.recased)
  | .fieldColon fields name around =>
    .fieldColon (recasedFields fields) (recasedName name) (around.map Around.recased)
  | .sizedOpen make around => .sizedOpen (fun n => (make n).recased) (around.map Around.recased)
  | .size make around => .size (fun n => (make n).recased) (around.map Around.recased)
  | .sizedClose t around => .sizedClose t.recased (around.map Around.recased)
  | .precision around => .precision (around.map Around.recased)
  | .scaleOrClose p around => .scaleOrClose p (around.map Around.recased)
  | .scale p around => .scale p (around.map Around.recased)
  | .decimalClose p s around => .decimalClose p s (around.map Around.recased)
  | .afterDouble around => .afterDouble (around.map Around.recased)
  | .afterDecimal around => .afterDecimal (around.map Around.recased)
  | .finished t around => .finished t.recased (around.map Around.recased)

section Step

variable {name : List Char} {t : ColumnType} {around : List Around} {fields : List (String × ColumnType)}

theorem map_toLower_toLower (cs : List Char) : (cs.map Char.toLower).map Char.toLower = cs.map Char.toLower := by
  rw [List.map_map]
  exact List.map_congr_left fun c _ => toLower_toLower c

theorem ofName?_lowered (name : List Char) : Head.ofName? (name.map Char.toLower) = Head.ofName? name := by
  unfold Head.ofName?
  rw [map_toLower_toLower]

theorem isBacktick_toLower (c : Char) : (c.toLower == '\x60') = (c == '\x60') := by
  refine apply_toLower (p := (· == '\x60')) (a := false) (fun d hd => ?_) c
  rw [beq_eq_false_iff_ne]
  rintro rfl
  exact absurd hd (by decide)

theorem unquoteName_lowered (name : List Char) :
    unquoteName (name.map Char.toLower) = (unquoteName name).map Char.toLower := by
  have hquote : (· == '\x60') ∘ Char.toLower = (· == '\x60') := funext isBacktick_toLower
  have hdrop : ∀ cs : List Char,
      (cs.map Char.toLower).dropWhile (· == '\x60') = (cs.dropWhile (· == '\x60')).map Char.toLower := by
    intro cs
    rw [List.dropWhile_map, hquote]
  unfold unquoteName
  rw [hdrop, ← List.map_reverse, hdrop, List.map_reverse]

theorem recasedName_decimal (n : Nat) : recasedName (Text.decimal n) = Text.decimal n := by
  unfold recasedName
  rw [map_toLower_digits (isDigit_of_mem_decimal n), String.ofList_toList]

theorem recased_of_plain {keyword : String} (h : (keyword, t) ∈ plainNames) : t.recased = t := by
  simp only [plainNames, List.mem_cons, List.not_mem_nil, or_false, Prod.mk.injEq] at h
  rcases h with h | h | h | h | h | h | h | h | h | h | h | h <;> obtain ⟨-, rfl⟩ := h <;> rfl

theorem stepHead_recased (around : List Around) (name : List Char) :
    Reader.stepHead (around.map Around.recased) (name.map Char.toLower) =
      (Reader.stepHead around name).map Reader.recased := by
  unfold Reader.stepHead
  rw [ofName?_lowered]
  cases hn : Head.ofName? name with
  | none => rfl
  | some head =>
    by_cases hu : head = .unsupported
    · subst hu
      rfl
    · cases announces_of_ofName? hn hu with
      | plain hm _ =>
        show Except.ok (Reader.finished _ _) = Except.ok (Reader.finished _ _)
        rw [recased_of_plain hm]
      | _ => rfl

theorem stepField_recased (fields : List (String × ColumnType)) (around : List Around) (t : Token) :
    Reader.stepField (recasedFields fields) (around.map Around.recased) t.lowered =
      (Reader.stepField fields around t).map Reader.recased := by
  cases t with
  | word name =>
    show Except.ok (Reader.fieldColon _ (String.ofList (unquoteName (name.map Char.toLower))) _) =
      Except.ok (Reader.fieldColon _ (recasedName (String.ofList (unquoteName name))) _)
    rw [unquoteName_lowered, recasedName, String.toList_ofList]
  | number n =>
    show Except.ok (Reader.fieldColon _ (Text.decimal n.toNat) _) =
      Except.ok (Reader.fieldColon _ (recasedName (Text.decimal n.toNat)) _)
    rw [recasedName_decimal]
  | symbol s => rfl

theorem stepFinished_recased (t : ColumnType) (around : List Around) (s : Symbol) :
    Reader.stepFinished t.recased (around.map Around.recased) s =
      (Reader.stepFinished t around s).map Reader.recased := by
  cases around with
  | nil => cases s <;> rfl
  | cons a around =>
    cases a with
    | field fields name =>
      cases s with
      | closeAngle =>
        show Except.ok (Reader.finished (.struct ((recasedName name, t.recased) :: recasedFields fields).reverse) _) =
          Except.ok (Reader.finished (.struct (recasedFields ((name, t) :: fields).reverse)) _)
        rw [recasedFields_eq, recasedFields_eq, List.map_reverse, List.map_cons]
      | _ => rfl
    | _ => cases s <;> rfl

theorem checkDecimal_recased (p s : UInt32) (around : List Around) :
    (do return .finished (← checkDecimal p s) (around.map Around.recased) : Except Refusal Reader) =
      (do return .finished (← checkDecimal p s) around : Except Refusal Reader).map Reader.recased := by
  cases hc : checkDecimal p s with
  | error e => rfl
  | ok t =>
    obtain ⟨p', s', -, -, -, -, -, rfl⟩ := checkDecimal_eq_ok.mp hc
    rfl

/-- In each state the reader does the same with a word in any case. -/
theorem step_recased (r : Reader) (t : Token) : r.recased.step t.lowered = (r.step t).map Reader.recased := by
  cases r with
  | start around =>
    cases t with
    | word name => exact stepHead_recased around name
    | _ => rfl
  | firstField around =>
    by_cases hclose : t = .symbol .closeAngle
    · subst hclose
      rfl
    · have hclose' : t.lowered ≠ .symbol .closeAngle := by
        cases t with
        | symbol s => exact hclose
        | _ => nofun
      rw [step_firstField hclose]
      exact (step_firstField hclose' _).trans (stepField_recased [] around t)
  | nextField fields around => exact stepField_recased fields around t
  | scaleOrClose p around =>
    cases t with
    | symbol s =>
      cases s with
      | closeParen => exact checkDecimal_recased p 0 around
      | _ => rfl
    | _ => rfl
  | decimalClose p s around =>
    cases t with
    | symbol c =>
      cases c with
      | closeParen => exact checkDecimal_recased p s around
      | _ => rfl
    | _ => rfl
  | afterDouble around =>
    cases t with
    | word name =>
      show (if (name.map Char.toLower).map Char.toLower = _ then _ else _) = _
      rw [map_toLower_toLower, Reader.step]
      split <;> rfl
    | number n => rfl
    | symbol s => exact stepFinished_recased .double around s
  | afterDecimal around =>
    cases t with
    | symbol s =>
      by_cases hopen : s = .openParen
      · subst hopen
        rfl
      · rw [Settled.afterDecimal.step hopen]
        exact (Settled.afterDecimal.step hopen).trans (stepFinished_recased bareDecimal around s)
    | _ => rfl
  | finished t around =>
    rename_i tok
    cases tok with
    | symbol s => exact stepFinished_recased t around s
    | _ => rfl
  | _ =>
    cases t with
    | symbol s => cases s <;> rfl
    | _ => rfl

end Step

theorem complete?_recased (r : Reader) : r.recased.complete? = r.complete?.map recased := by
  cases r with
  | finished t around => cases around <;> rfl
  | afterDouble around => cases around <;> rfl
  | afterDecimal around => cases around <;> rfl
  | _ => rfl

/-- What was refused, if the text did not just end early. -/
def Fault.refusal? : Fault → Option Refusal
  | .endsEarly => none
  | .unexpected _ _ => some .unexpected
  | .unknown _ => some .unknown
  | .unsupported _ => some .unsupported
  | .badDecimal p s fault => some (.badDecimal p s fault)

theorem refusal?_fault (refusal : Refusal) (t : Nat × Token) : (refusal.fault t).refusal? = some refusal := by
  cases refusal <;> rfl

/-- Types are the same but for the case of field names, and faults but for where they are and what is found there. -/
abbrev ReadAlike : Except Fault (List ColumnType) → Except Fault (List ColumnType) → Prop :=
  EndAlike (fun types types' => types.map recased = types'.map recased) fun e f => e.refusal? = f.refusal?

theorem isSeparator_lowered (t : Token) : isSeparator t.lowered = isSeparator t := by
  cases t <;> rfl

section Alike

variable {r r' : Reader}

theorem step_alike (hr : r.recased = r'.recased) {t t' : Token} (ht : t.lowered = t'.lowered) :
    EndAlike (fun next next' => next.recased = next'.recased) (· = ·) (r.step t) (r'.step t') := by
  have hstep : (r.step t).map Reader.recased = (r'.step t').map Reader.recased := by
    rw [← step_recased, hr, ht, step_recased]
  cases h : r.step t with
  | error e =>
    rw [h] at hstep
    cases h' : r'.step t' with
    | error e' =>
      rw [h'] at hstep
      exact .error (Except.error.inj hstep)
    | ok next' =>
      rw [h'] at hstep
      cases hstep
  | ok next =>
    rw [h] at hstep
    cases h' : r'.step t' with
    | error e' =>
      rw [h'] at hstep
      cases hstep
    | ok next' =>
      rw [h'] at hstep
      exact .ok (Except.ok.inj hstep)

theorem complete_alike (hr : r.recased = r'.recased) : r.complete? = none ∧ r'.complete? = none ∨
    ∃ t t', r.complete? = some t ∧ r'.complete? = some t' ∧ t.recased = t'.recased := by
  have hcomplete : r.complete?.map recased = r'.complete?.map recased := by
    rw [← complete?_recased, hr, complete?_recased]
  cases h : r.complete? with
  | none =>
    rw [h] at hcomplete
    exact .inl ⟨rfl, Option.map_eq_none_iff.mp hcomplete.symm⟩
  | some t =>
    rw [h] at hcomplete
    obtain ⟨t', ht', heq⟩ := Option.map_eq_some_iff.mp hcomplete.symm
    exact .inr ⟨t, t', rfl, ht', heq.symm⟩

end Alike

/-- Where no type ends, the token is for the reader. -/
theorem runList_go {r : Reader} {tok : Nat × Token} (h : r.complete? = none ∨ isSeparator tok.2 = false)
    {before : List ColumnType} {toks : List (Nat × Token)} : runList before r (tok :: toks) =
      (r.step tok.2).mapError (·.fault tok) >>= (runList before · toks) := by
  rw [runList]
  split
  · rename_i hsome hsep
    rcases h with hnone | hother
    · cases hnone.symm.trans hsome
    · cases hother.symm.trans hsep
  · cases r.step tok.2 <;> rfl

/-- Two readers go on alike if they read the same tokens. -/
theorem runList_alike {toks : List (Nat × Token)} : ∀ {toks' : List (Nat × Token)} {before before' : List ColumnType}
    {r r' : Reader}, toks.map (fun t => t.2.lowered) = toks'.map (fun t => t.2.lowered) →
    before.map recased = before'.map recased → r.recased = r'.recased →
    ReadAlike (runList before r toks) (runList before' r' toks') := by
  induction toks with
  | nil =>
    intro toks' before before' r r' htoks hbefore hr
    obtain rfl := List.map_eq_nil_iff.mp htoks.symm
    rw [runList, runList]
    rcases complete_alike hr with ⟨hnone, hnone'⟩ | ⟨t, t', hsome, hsome', ht⟩
    · rw [hnone, hnone']
      exact .error rfl
    · rw [hsome, hsome']
      apply EndAlike.ok
      rw [List.map_reverse, List.map_reverse, List.map_cons, List.map_cons, hbefore, ht]
  | cons tok toks ih =>
    intro toks' before before' r r' htoks hbefore hr
    obtain ⟨tok', toks', rfl, htok, hrest⟩ := List.map_eq_cons_iff.mp htoks.symm
    replace htok : tok'.2.lowered = tok.2.lowered := htok
    have hseparator : isSeparator tok'.2 = isSeparator tok.2 := by
      rw [← isSeparator_lowered, htok, isSeparator_lowered]
    have go : ReadAlike ((r.step tok.2).mapError (·.fault tok) >>= (runList before · toks))
        ((r'.step tok'.2).mapError (·.fault tok') >>= (runList before' · toks')) := by
      refine ((step_alike hr htok.symm).mapError ?_).bind fun next next' hnext => ih hrest.symm hbefore hnext
      rintro refusal _ rfl
      rw [refusal?_fault, refusal?_fault]
    rcases complete_alike hr with ⟨hnone, hnone'⟩ | ⟨t, t', hsome, hsome', ht⟩
    · rw [runList_go (.inl hnone), runList_go (.inl hnone')]
      exact go
    · cases hsep : isSeparator tok.2 with
      | true =>
        rw [runList, runList, hsome, hsome', hseparator, hsep]
        exact ih hrest.symm (by rw [List.map_cons, List.map_cons, hbefore, ht]) rfl
      | false =>
        rw [runList_go (.inr hsep), runList_go (.inr (hseparator.trans hsep))]
        exact go

theorem listOfTokens_alike {toks toks' : List (Nat × Token)}
    (h : toks.map (fun t => t.2.lowered) = toks'.map (fun t => t.2.lowered)) :
    ReadAlike (listOfTokens toks) (listOfTokens toks') := by
  cases toks with
  | nil =>
    obtain rfl := List.map_eq_nil_iff.mp h.symm
    exact .ok rfl
  | cons tok toks =>
    obtain ⟨tok', toks', rfl, -, -⟩ := List.map_eq_cons_iff.mp h.symm
    exact runList_alike h rfl rfl

/-- Texts with the same tokens are read alike; one with something else in it is refused before. -/
theorem listOfString_alike {s t : String} (h : lexemes? s.toList = lexemes? t.toList) :
    EndAlike (fun types types' => types.map recased = types'.map recased)
      (fun e f => e.fault.refusal? = f.fault.refusal?) (listOfString s) (listOfString t) := by
  have hscan : EndAlike (fun toks toks' => toks.map (fun t => t.2.lowered) = toks'.map (fun t => t.2.lowered))
      (fun e f => e.refusal? = f.refusal?) (scanString s) (scanString t) := by
    unfold lexemes? at h
    unfold scanString
    cases hs : scan 0 s.toList with
    | error e =>
      rw [hs] at h
      cases ht : scan 0 t.toList with
      | error f => exact .error rfl
      | ok toks' =>
        rw [ht] at h
        cases h
    | ok toks =>
      rw [hs] at h
      cases ht : scan 0 t.toList with
      | error f =>
        rw [ht] at h
        cases h
      | ok toks' =>
        rw [ht] at h
        exact .ok (Option.some.inj h)
  exact (hscan.bind fun _ _ => listOfTokens_alike).mapError fun _ _ => id

/-- Any number of edits leaves the types that a text lists as they are but for the case of field names, and the
reason why it lists none. -/
theorem listOfString_respelled {s t : String} (h : Relation.ReflTransGen (Respells symbolChars) s.toList t.toList) :
    EndAlike (fun types types' => types.map recased = types'.map recased)
      (fun e f => e.fault.refusal? = f.fault.refusal?) (listOfString s) (listOfString t) := by
  apply listOfString_alike
  generalize s.toList = cs at h
  generalize t.toList = ds at h
  induction h with
  | refl => rfl
  | tail _ hedit ih => exact ih.trans (lexemes?_respelled hedit)

end ColumnType

end TableScan
