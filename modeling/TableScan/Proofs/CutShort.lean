/-
  TableScan.Proofs.CutShort — type expressions, and lists of them, that are cut behind one of
  their tokens.

  The reader judges each token as it comes, so nothing in front of a cut is refused that was
  not refused before; all that can be wrong with it is its end. It need not be wrong: a decimal
  is a type without its parameters, a double without the word behind it, and a list may end
  behind any of its types.

  - `cutBehind_cutAfter`: a text cut behind its `n`-th token spells its first `n` tokens, and
    what is cut off spells the others (`CutBehind`).
  - `IsType.omits`: a type that is whole in front of a cut, and not the whole type, is one of the
    two that can go on (`Omits`).
  - `runList_cut`: a list keeps the types in front of the cut but for the last (`AgreesToLast`),
    or ends early; `IsList.ends` tells where it must.
  - `cut_short_ends_early`: both for texts.
-/

import Mathlib.Data.List.DropRight
import TableScan.Proofs.TypeRoundTrip

namespace TableScan.ColumnType

open TableScan.Text

/-! ## Texts cut behind a token -/

/-- What stands before an offset in a text, without the white space at its end. -/
def textBefore (s : String) (offset : Nat) : String := String.ofList ((s.toList.take offset).rdropWhile isSpace)

/-- The text up to the end of its `n`-th token; all of it if it has no more. -/
def cutAfter (s : String) (n : Nat) : String :=
  match (scan 0 s.toList).toOption.bind (·[n]?) with
  | some next => textBefore s next.1
  | none => s

/-- A text falls into two, and the first ends with the last of its tokens. -/
structure CutBehind (s p : String) (kept lost : List Token) : Prop where
  spelled : Spells p.toList kept
  trimmed : ∀ c ∈ p.toList.getLast?, isSpace c = false
  rest : ∃ rest, s.toList = p.toList ++ rest ∧ Spells rest lost

theorem Stops.take {p : Char → Bool} {cs : List Char} (h : Stops p cs) (n : Nat) : Stops p (cs.take n) := by
  rw [← List.take_append_drop n cs] at h
  exact stops_of_append h

/-- What stands behind a run is cut where it would be without the run. -/
theorem take_drop_run (run cs : List Char) {offset place : Nat} (h : offset + run.length ≤ place) :
    (run ++ cs).take (place - offset) = run ++ cs.take (place - (offset + run.length)) ∧
      (run ++ cs).drop (place - offset) = cs.drop (place - (offset + run.length)) := by
  have hplace : place - offset = run.length + (place - (offset + run.length)) := by omega
  rw [hplace, List.take_length_add_append, List.drop_length_add_append]
  exact ⟨rfl, rfl⟩

/-- Of tokens that were found from an offset on, those before any of them are spelled by what is in front of it, and
the others by what is not. -/
def Divided (offset : Nat) (cs : List Char) (toks : List (Nat × Token)) : Prop :=
  ∀ (kept : List (Nat × Token)) (next : Nat × Token) (rest : List (Nat × Token)), toks = kept ++ next :: rest →
    offset ≤ next.1 ∧ Spells (cs.take (next.1 - offset)) (kept.map Prod.snd) ∧
      Spells (cs.drop (next.1 - offset)) ((next :: rest).map Prod.snd)

section Divided

variable {offset : Nat} {run cs : List Char} {toks : List (Nat × Token)}

theorem Divided.space {c : Char} (hc : isSpace c = true) (h : Divided (offset + 1) cs toks) :
    Divided offset (c :: cs) toks := by
  intro kept next rest hk
  obtain ⟨hle, hkept, hlost⟩ := h kept next rest hk
  obtain ⟨htake, hdrop⟩ := take_drop_run [c] cs hle
  rw [← List.singleton_append, htake, hdrop]
  exact ⟨by omega, .space hc hkept, hlost⟩

theorem Divided.token {tok : Token} (h : Divided (offset + run.length) cs toks) (hcs : Spells cs (toks.map Prod.snd))
    (hspell : ∀ n ts, Spells (cs.take n) ts → Spells (run ++ cs.take n) (tok :: ts)) :
    Divided offset (run ++ cs) ((offset, tok) :: toks) := by
  intro kept next rest hk
  cases kept with
  | nil =>
    obtain ⟨rfl, rfl⟩ := List.cons.inj hk
    have hall := hspell cs.length _ (by rwa [List.take_length])
    rw [List.take_length] at hall
    rw [Nat.sub_self, List.take_zero, List.drop_zero]
    exact ⟨Nat.le_refl offset, .done, hall⟩
  | cons first kept =>
    obtain ⟨rfl, htail⟩ := List.cons.inj hk
    obtain ⟨hle, hkept, hlost⟩ := h kept next rest htail
    obtain ⟨htake, hdrop⟩ := take_drop_run run cs hle
    rw [htake, hdrop]
    exact ⟨by omega, hspell _ _ hkept, hlost⟩

end Divided

theorem divided_scan {offset : Nat} {cs : List Char} {toks : List (Nat × Token)} (h : scan offset cs = .ok toks) :
    Divided offset cs toks := by
  fun_induction scan offset cs generalizing toks with
  | case1 offset =>
    cases h
    intro kept next rest hk
    simp at hk
  | case2 offset c cs hc ih => exact (ih h).space hc
  | case3 offset c cs hc s hs ih =>
    obtain rfl := Symbol.char_of_ofChar? hs
    obtain ⟨more, hmore, rfl⟩ := found_eq_ok h
    show Divided offset ([s.char] ++ cs) _
    exact (ih hmore).token (scan_spells hmore) fun n ts => .symbol s
  | case4 offset c cs hc hs hd run hlt =>
    rename_i ih
    obtain ⟨more, hmore, rfl⟩ := found_eq_ok h
    have hn : numeralValue run = (UInt32.ofNat (numeralValue run)).toNat :=
      (UInt32.toNat_ofNat_of_lt' hlt).symm
    have := (ih hmore).token (scan_spells hmore) fun n ts =>
      .number (all_run hd cs) ((stops_dropWhile _ cs).take n) hn
    rwa [List.cons_append, List.takeWhile_append_dropWhile] at this
  | case5 => cases h
  | case6 offset c cs hc hs hd hw run =>
    rename_i ih
    obtain ⟨more, hmore, rfl⟩ := found_eq_ok h
    have := (ih hmore).token (scan_spells hmore) fun n ts =>
      .word (eq_false_of_ne_true hd) (all_run hw cs) ((stops_dropWhile _ cs).take n)
    rwa [List.cons_append, List.takeWhile_append_dropWhile] at this
  | case7 => cases h

/-- What spells no token is white space. -/
theorem Spells.blank {cs : List Char} (h : Spells cs []) : ∀ c ∈ cs, isSpace c = true := by
  generalize hts : [] = ts at h
  induction h with
  | done => simp
  | space hc _ ih => exact List.forall_mem_cons.mpr ⟨hc, ih hts⟩
  | _ => cases hts

section Blank

variable {cs blanks : List Char} {ts : List Token} (hblank : ∀ c ∈ blanks, isSpace c = true)

include hblank

theorem Spells.behind_blank (h : Spells cs ts) : Spells (blanks ++ cs) ts := by
  induction blanks with
  | nil => exact h
  | cons c blanks ih =>
    obtain ⟨hc, hblanks⟩ := List.forall_mem_cons.mp hblank
    exact .space hc (ih hblanks)

theorem Spells.before_blank (h : Spells (cs ++ blanks) ts) : Spells cs ts := by
  have hnone := Spells.done.behind_blank hblank
  rw [List.append_nil] at hnone
  cases blanks with
  | nil => rwa [List.append_nil] at h
  | cons c blanks =>
    have hstop := stops_space (hblank c (List.mem_cons_self ..)) blanks
    obtain ⟨before, after, rfl, hbefore, hafter⟩ := spells_append h hstop
    obtain rfl := hafter.unique hnone
    rwa [List.append_nil]

end Blank

/-- A text may be cut behind each of its tokens, and in front of the first. -/
theorem cutBehind_cutAfter {s : String} {ts : List Token} (h : Spells s.toList ts) {n : Nat} (hn : n < ts.length) :
    CutBehind s (cutAfter s n) (ts.take n) (ts.drop n) := by
  obtain ⟨toks, hscan, rfl⟩ := spells_scan h 0
  rw [List.length_map] at hn
  have htoks : toks = toks.take n ++ toks[n] :: toks.drop (n + 1) := by simp
  obtain ⟨-, hkept, hlost⟩ := divided_scan hscan _ _ _ htoks
  rw [Nat.sub_zero, ← List.rdropWhile_append_rtakeWhile (p := isSpace) (l := s.toList.take _)] at hkept
  rw [Nat.sub_zero, ← List.drop_eq_getElem_cons hn] at hlost
  have hblank : ∀ c ∈ (s.toList.take toks[n].1).rtakeWhile isSpace, isSpace c = true :=
    fun c => List.mem_rtakeWhile_imp
  have hcut : (cutAfter s n).toList = (s.toList.take toks[n].1).rdropWhile isSpace := by
    simp [cutAfter, textBefore, hscan, Except.toOption, List.getElem?_eq_getElem hn]
  rw [← List.map_take, ← List.map_drop]
  refine ⟨?_, ?_, (s.toList.take toks[n].1).rtakeWhile isSpace ++ s.toList.drop toks[n].1, ?_, ?_⟩
  · rw [hcut]
    exact hkept.before_blank hblank
  · intro c hc
    rw [hcut, List.rdropWhile, List.getLast?_reverse] at hc
    exact stops_dropWhile isSpace _ c hc
  · rw [hcut, ← List.append_assoc, List.rdropWhile_append_rtakeWhile, List.take_append_drop]
  · exact hlost.behind_blank hblank

/-- What ends with its last token and has none is empty. -/
theorem CutBehind.eq_empty {s p : String} {lost : List Token} (h : CutBehind s p [] lost) : p = "" := by
  refine String.toList_eq_nil_iff.mp ?_
  cases hlast : p.toList.getLast? with
  | none => exact List.getLast?_eq_none_iff.mp hlast
  | some c => cases (h.trimmed c hlast).symm.trans (h.spelled.blank c (List.mem_of_getLast? hlast))

/-! ## What is read before a cut -/

theorem scanned_of_scan {α : Type} {s : String} {toks : List (Nat × Token)} (h : scan 0 s.toList = .ok toks)
    (f : List (Nat × Token) → Except Fault α) :
    (scanString s >>= f).mapError (ReadError.mk s) = (f toks).mapError (ReadError.mk s) := by
  rw [scanString, h]
  rfl

/-- No token of a type is refused, so of those before a cut none is. -/
theorem IsType.reads_front {kept lost : List Token} {t : ColumnType} (h : IsType (kept ++ lost) t) :
    ∃ r, (Reader.start []).reads kept = some r := by
  obtain ⟨r, hr, -⟩ := h.reads []
  rw [Reader.reads_append] at hr
  obtain ⟨mid, hmid, -⟩ := Option.bind_eq_some_iff.mp hr
  exact ⟨mid, hmid⟩

theorem ofTokens_front {kept lost : List Token} {t : ColumnType} (h : IsType (kept ++ lost) t)
    {toks : List (Nat × Token)} (htoks : toks.map Prod.snd = kept) :
    ofTokens toks = .error .endsEarly ∨ ∃ u, ofTokens toks = .ok u := by
  obtain ⟨r, hr⟩ := h.reads_front
  rw [← htoks] at hr
  rw [ofTokens, run_eq_ok.mpr hr]
  cases hc : r.complete? with
  | none => exact .inl (by simp [bind, Except.bind, hc])
  | some u => exact .inr ⟨u, by simp [bind, Except.bind, hc]⟩

/-! ## Types that go on -/

/-- All the parameters of a decimal. -/
inductive IsParameters : List Token → Prop
  | precision (p : UInt32) : IsParameters [.symbol .openParen, .number p, .symbol .closeParen]
  | scale (p s : UInt32) :
      IsParameters [.symbol .openParen, .number p, .symbol .comma, .number s, .symbol .closeParen]

/-- A type, what may go on with it to a longer one, and the type that it is alone. -/
inductive Omits : List Token → List Token → ColumnType → Prop
  | parameters {name : List Char} {more : List Token} : Named name "decimal" → IsParameters more →
      Omits [.word name] more (.decimal 10 0)
  | precision {name more : List Char} : Named name "double" → Named more "precision" →
      Omits [.word name] [.word more] .double

theorem Named.unique {name : List Char} {keyword keyword' : String} (h : Named name keyword)
    (h' : Named name keyword') : keyword = keyword' :=
  String.toList_inj.mp (h.symm.trans h')

theorem Omits.isType {kept lost : List Token} {u : ColumnType} (h : Omits kept lost u) : IsType kept u := by
  cases h with
  | parameters hn _ => exact .bareDecimal hn
  | precision hn _ => exact .double hn

section Keyword

variable {name : List Char} {more : List Token} {t : ColumnType}

theorem IsType.of_decimal (h : IsType (.word name :: more) t) (hn : Named name "decimal") :
    more = [] ∨ IsParameters more := by
  cases h with
  | bareDecimal _ => exact .inl rfl
  | decimalPrecision _ _ _ => exact .inr (.precision _)
  | decimal _ _ _ _ => exact .inr (.scale _ _)
  | plain _ _ | double _ => exact .inl rfl
  | doublePrecision hk _ | varchar _ hk | char _ hk | array hk _ | map hk _ _ | emptyStruct hk | struct hk _ =>
    exact absurd (hn.unique hk) (by decide)

theorem IsType.of_double (h : IsType (.word name :: more) t) (hn : Named name "double") :
    more = [] ∨ ∃ word, more = [.word word] ∧ Named word "precision" := by
  cases h with
  | doublePrecision _ hm => exact .inr ⟨_, rfl, hm⟩
  | plain _ _ | double _ | bareDecimal _ => exact .inl rfl
  | decimalPrecision hk _ _ | decimal hk _ _ _ | varchar _ hk | char _ hk | array hk _ | map hk _ _ | emptyStruct hk
  | struct hk _ =>
    exact absurd (hn.unique hk) (by decide)

end Keyword

/-- Only a decimal and a double may be whole and go on. -/
theorem IsType.omits {kept lost : List Token} {u t : ColumnType} (h : IsType kept u) (hall : IsType (kept ++ lost) t)
    (hne : lost ≠ []) : Omits kept lost u := by
  obtain ⟨r, hr, hsettled⟩ := h.reads []
  obtain ⟨r', hr', -⟩ := hall.reads []
  rw [Reader.reads_append, hr, Option.bind_some] at hr'
  have hstands := stands_start.reads hr
  rw [List.nil_append] at hstands
  cases hsettled with
  | finished =>
    obtain ⟨tok, more, rfl⟩ := List.exists_cons_of_ne_nil hne
    obtain ⟨next, hstep, -⟩ := Reader.reads_cons_eq_some.mp hr'
    cases tok with
    | symbol s => cases s <;> cases hstep
    | _ => cases hstep
  | afterDouble =>
    cases hstands with
    | afterDouble ho hn =>
      cases ho
      obtain ⟨word, rfl, hword⟩ := (hall.of_double hn).resolve_left hne
      exact .precision hn hword
  | afterDecimal =>
    cases hstands with
    | afterDecimal ho hn =>
      cases ho
      exact .parameters hn ((hall.of_decimal hn).resolve_left hne)

/-! ## Lists of types -/

/-- The first list is no longer, and the same but for its last type. -/
def AgreesToLast (shorter types : List ColumnType) : Prop :=
  shorter.length ≤ types.length ∧ shorter.dropLast <+: types

theorem agreesToLast_one (u t : ColumnType) (types : List ColumnType) : AgreesToLast [u] (t :: types) :=
  ⟨Nat.le_add_left 1 _, List.nil_prefix⟩

theorem AgreesToLast.cons {shorter types : List ColumnType} (h : AgreesToLast shorter types) (t : ColumnType) :
    AgreesToLast (t :: shorter) (t :: types) := by
  refine ⟨Nat.succ_le_succ h.1, ?_⟩
  by_cases hnil : shorter = []
  · rw [hnil]
    exact List.nil_prefix
  · rw [List.dropLast_cons_of_ne_nil hnil]
    exact (List.prefix_cons_inj t).mpr h.2

section Front

variable {kept lost : List Token} {toks : List (Nat × Token)}

/-- In front of a cut inside a type of a list stand the types before it, and one more if it may end there. -/
theorem runList_front {t : ColumnType} (h : IsType (kept ++ lost) t) (types before : List ColumnType)
    (htoks : toks.map Prod.snd = kept) :
    runList before (.start []) toks = .error .endsEarly ∨
      ∃ shorter, runList before (.start []) toks = .ok (before.reverse ++ shorter) ∧
        AgreesToLast shorter (t :: types) := by
  obtain ⟨r, hr⟩ := h.reads_front
  rw [← List.append_nil toks, runList_reads hr htoks, runList]
  cases r.complete? with
  | none => exact .inl rfl
  | some u => exact .inr ⟨[u], congrArg Except.ok List.reverse_cons, agreesToLast_one u t types⟩

theorem runList_cut {ts : List Token} {types : List ColumnType} (h : IsList ts types) :
    ∀ {kept lost : List Token} {toks : List (Nat × Token)} (before : List ColumnType), ts = kept ++ lost →
      toks.map Prod.snd = kept →
      runList before (.start []) toks = .error .endsEarly ∨
        ∃ shorter, runList before (.start []) toks = .ok (before.reverse ++ shorter) ∧ AgreesToLast shorter types := by
  induction h with
  | @one ts t ht =>
    intro kept lost toks before hts htoks
    exact runList_front (hts ▸ ht) [] before htoks
  | @more ts rest t types s hs ht hrest ih =>
    intro kept lost toks before hts htoks
    -- The cut stands in the first type, right behind it, or behind the separator.
    rcases List.append_eq_append_iff.mp hts with ⟨beyond, hkept, hbeyond⟩ | ⟨later, hlater, -⟩
    · cases beyond with
      | nil =>
        rw [List.append_nil] at hkept
        subst hkept
        rw [← List.append_nil kept] at ht
        exact runList_front ht types before htoks
      | cons tok beyond =>
        obtain ⟨htok, hrest'⟩ := List.cons.inj hbeyond
        obtain ⟨first, more, rfl, hfirst, hmore⟩ := List.map_eq_append_iff.mp (htoks.trans hkept)
        obtain ⟨sep, more, rfl, hsep, hmore⟩ := List.map_eq_cons_iff.mp hmore
        have hsep' : isSeparator sep.2 = true := isSeparator_iff.mpr ⟨s, hs, hsep.trans htok.symm⟩
        rw [ht.runList_separated before hfirst hsep']
        refine (ih (t :: before) hrest' hmore).imp id fun ⟨shorter, hshorter, hagrees⟩ => ?_
        refine ⟨t :: shorter, ?_, hagrees.cons t⟩
        rw [hshorter, List.reverse_cons, List.append_assoc]
        rfl
    · exact runList_front (hlater ▸ ht) types before htoks

theorem listOfTokens_cut {types : List ColumnType} (h : IsList (kept ++ lost) types)
    (htoks : toks.map Prod.snd = kept) (hne : kept ≠ []) :
    listOfTokens toks = .error .endsEarly ∨
      ∃ shorter, listOfTokens toks = .ok shorter ∧ AgreesToLast shorter types := by
  cases toks with
  | nil => exact absurd htoks.symm hne
  | cons tok toks => exact runList_cut h [] rfl htoks

end Front

/-! ## Where a list cannot end -/

def opens (tok : Token) : Bool := tok == .symbol .openAngle || tok == .symbol .openParen

def closes (tok : Token) : Bool := tok == .symbol .closeAngle || tok == .symbol .closeParen

/-- A bracket is open behind the tokens. -/
def IsInside (ts : List Token) : Prop := ts.countP closes < ts.countP opens

def EndsInSeparator (ts : List Token) : Prop := ∃ tok ∈ ts.getLast?, isSeparator tok = true

/-- The tokens close what they open. -/
def Balanced (ts : List Token) : Prop := ts.countP closes = ts.countP opens

section Balanced

variable {ts us : List Token} {tok : Token}

theorem Balanced.append (ht : Balanced ts) (hu : Balanced us) : Balanced (ts ++ us) := by
  rw [Balanced, List.countP_append, List.countP_append, ht, hu]

theorem Balanced.cons (h : Balanced ts) (hopens : opens tok = false) (hcloses : closes tok = false) :
    Balanced (tok :: ts) := by
  rw [Balanced, List.countP_cons, List.countP_cons, hopens, hcloses, h]

theorem Balanced.angled (h : Balanced ts) (name : List Char) :
    Balanced (.word name :: .symbol .openAngle :: (ts ++ [.symbol .closeAngle])) := by
  rw [Balanced] at h
  simp [Balanced, opens, closes, List.countP_append, h]

/-- Two balanced stretches with a mark between them. -/
theorem Balanced.parted (ht : Balanced ts) (tok : Token) (hu : Balanced us) (hopens : opens tok = false)
    (hcloses : closes tok = false) : Balanced (ts ++ tok :: us) :=
  ht.append (hu.cons hopens hcloses)

end Balanced

mutual

theorem IsType.balanced {ts : List Token} {t : ColumnType} (h : IsType ts t) : Balanced ts := by
  cases h with
  | plain _ _ | double _ | doublePrecision _ _ | bareDecimal _ | varchar _ _ | char _ _ | decimalPrecision _ _ _
  | decimal _ _ _ _ | emptyStruct _ => rfl
  | array _ ht => exact ht.balanced.angled _
  | @map name _ _ _ _ _ hk hv =>
    have hboth := hk.balanced.parted (.symbol .comma) hv.balanced rfl rfl
    simpa using hboth.angled name
  | struct _ hf => exact hf.balanced.angled _

theorem IsFields.balanced {ts : List Token} {fields : List (String × ColumnType)} (h : IsFields ts fields) :
    Balanced ts := by
  have name : ∀ {tok : Token} {field : String}, IsFieldName tok field → opens tok = false ∧ closes tok = false := by
    intro tok field hf
    cases hf <;> exact ⟨rfl, rfl⟩
  cases h with
  | last hf ht => exact (ht.balanced.cons rfl rfl).cons (name hf).1 (name hf).2
  | more hf ht hrest =>
    have hboth := ht.balanced.parted (.symbol .comma) hrest.balanced rfl rfl
    exact (hboth.cons rfl rfl).cons (name hf).1 (name hf).2

end

/-- Only the last stretch tells how tokens end. -/
theorem endsInSeparator_append (ts : List Token) {us : List Token} (h : us ≠ []) :
    EndsInSeparator (ts ++ us) ↔ EndsInSeparator us := by
  rw [EndsInSeparator, EndsInSeparator, List.getLast?_append_of_ne_nil ts h]

theorem endsInSeparator_cons {tok : Token} {ts : List Token} (h : ts ≠ []) :
    EndsInSeparator (tok :: ts) ↔ EndsInSeparator ts := endsInSeparator_append [tok] h

theorem endsInSeparator_one {tok : Token} : EndsInSeparator [tok] ↔ isSeparator tok = true := by
  simp [EndsInSeparator]

theorem IsType.not_endsInSeparator {ts : List Token} {t : ColumnType} (h : IsType ts t) : ¬ EndsInSeparator ts := by
  cases h <;> simp [endsInSeparator_cons, endsInSeparator_append, endsInSeparator_one, isSeparator]

theorem IsType.ne_nil {ts : List Token} {t : ColumnType} (h : IsType ts t) : ts ≠ [] := by
  cases h <;> exact List.cons_ne_nil _ _

/-- What is a list closes all brackets, and goes on behind each separator. -/
theorem IsList.ends {ts : List Token} {types : List ColumnType} (h : IsList ts types) :
    ts ≠ [] ∧ Balanced ts ∧ ¬ EndsInSeparator ts := by
  induction h with
  | one ht => exact ⟨ht.ne_nil, ht.balanced, ht.not_endsInSeparator⟩
  | @more ts rest t types s hs ht _ ih =>
    obtain ⟨hne, hbalanced, hends⟩ := ih
    have hmark : opens (.symbol s) = false ∧ closes (.symbol s) = false := by
      simp only [List.mem_cons, List.not_mem_nil, or_false] at hs
      rcases hs with rfl | rfl | rfl <;> exact ⟨rfl, rfl⟩
    refine ⟨by simp, ht.balanced.parted _ hbalanced hmark.1 hmark.2, ?_⟩
    rw [endsInSeparator_append _ (List.cons_ne_nil _ _), endsInSeparator_cons hne]
    exact hends

/-! ## Cut texts -/

section Cut

variable {s p : String} {kept lost : List Token}

theorem ofString_cut {t : ColumnType} (h : IsType (kept ++ lost) t) (hp : Spells p.toList kept) :
    ofString p = .error ⟨p, .endsEarly⟩ ∨ ∃ u, ofString p = .ok u := by
  obtain ⟨toks, hscan, htoks⟩ := spells_scan hp 0
  rw [ofString, scanned_of_scan hscan]
  rcases ofTokens_front h htoks with hearly | ⟨u, hu⟩
  · exact .inl (by rw [hearly]; rfl)
  · exact .inr ⟨u, by rw [hu]; rfl⟩

theorem ofString_cut_eq_ok {t u : ColumnType} (h : IsType (kept ++ lost) t) (hne : lost ≠ [])
    (hp : Spells p.toList kept) : ofString p = .ok u ↔ Omits kept lost u := by
  constructor
  · intro hu
    obtain ⟨us, hus, htype⟩ := ofString_eq_ok.mp hu
    obtain rfl := hus.unique hp
    exact htype.omits h hne
  · exact fun homits => ofString_eq_ok.mpr ⟨kept, hp, homits.isType⟩

theorem listOfString_cut {types : List ColumnType} (h : IsList (kept ++ lost) types) (hne : kept ≠ [])
    (hp : Spells p.toList kept) :
    listOfString p = .error ⟨p, .endsEarly⟩ ∨
      ∃ shorter, listOfString p = .ok shorter ∧ AgreesToLast shorter types := by
  obtain ⟨toks, hscan, htoks⟩ := spells_scan hp 0
  rw [listOfString, scanned_of_scan hscan]
  rcases listOfTokens_cut h htoks hne with hearly | ⟨shorter, hshorter, hagrees⟩
  · exact .inl (by rw [hearly]; rfl)
  · exact .inr ⟨shorter, by rw [hshorter]; rfl, hagrees⟩

/-- Behind a separator, or between brackets, there is more to come. -/
theorem listOfString_unfinished {types : List ColumnType} (hne : kept ≠ []) (hp : Spells p.toList kept)
    (hend : EndsInSeparator kept ∨ IsInside kept) : listOfString p ≠ .ok types := by
  intro h
  obtain ⟨us, hus, hlist⟩ := listOfString_eq_ok.mp h
  obtain rfl := hus.unique hp
  rcases hlist with ⟨hnil, -⟩ | hlist
  · exact hne hnil
  · obtain ⟨-, hbalanced, hseparator⟩ := hlist.ends
    exact hend.elim hseparator (Nat.ne_of_lt · hbalanced)

/-- A type that is cut short ends early, or is a decimal without its parameters or a double without the word for its
precision. A list that is cut short ends early, or has the types before the cut, the last of which may be another; behind
a separator and between brackets it ends early. A separator that is not at the top level stands between brackets. -/
theorem cut_short_ends_early {ts : List Token} (hs : Spells s.toList ts) {n : Nat} (hn : n < ts.length) :
    CutBehind s (cutAfter s n) (ts.take n) (ts.drop n) ∧ (n = 0 → cutAfter s n = "") ∧
    (∀ t, ofString s = .ok t →
      (ofString (cutAfter s n) = .error ⟨cutAfter s n, .endsEarly⟩ ∨ ∃ u, ofString (cutAfter s n) = .ok u) ∧
      ∀ u, ofString (cutAfter s n) = .ok u ↔ Omits (ts.take n) (ts.drop n) u) ∧
    (∀ types, listOfString s = .ok types → 0 < n →
      (listOfString (cutAfter s n) = .error ⟨cutAfter s n, .endsEarly⟩ ∨
        ∃ shorter, listOfString (cutAfter s n) = .ok shorter ∧ AgreesToLast shorter types) ∧
      (EndsInSeparator (ts.take n) ∨ IsInside (ts.take n) →
        listOfString (cutAfter s n) = .error ⟨cutAfter s n, .endsEarly⟩)) := by
  have hcut := cutBehind_cutAfter hs hn
  refine ⟨hcut, ?_, ?_, ?_⟩
  · intro hzero
    subst hzero
    exact hcut.eq_empty
  · intro t ht
    obtain ⟨us, hus, htype⟩ := ofString_eq_ok.mp ht
    obtain rfl := hus.unique hs
    rw [← List.take_append_drop n us] at htype
    have hlost : us.drop n ≠ [] := List.ne_nil_of_length_pos (by rw [List.length_drop]; omega)
    exact ⟨ofString_cut htype hcut.spelled, fun u => ofString_cut_eq_ok htype hlost hcut.spelled⟩
  · intro types htypes hpos
    obtain ⟨us, hus, hlist⟩ := listOfString_eq_ok.mp htypes
    obtain rfl := hus.unique hs
    have hkept : us.take n ≠ [] := List.ne_nil_of_length_pos (by rw [List.length_take]; omega)
    have hlist := hlist.resolve_left fun h => by simp [h.1] at hn
    rw [← List.take_append_drop n us] at hlist
    have hread := listOfString_cut hlist hkept hcut.spelled
    refine ⟨hread, fun hend => hread.resolve_right ?_⟩
    intro hok
    obtain ⟨shorter, hshorter, -⟩ := hok
    exact listOfString_unfinished hkept hcut.spelled hend hshorter

end Cut

/-! A decimal that is cut behind its name and between its parameters, and as the last type of a list. -/

def measuredType : String := " Decimal (4, 2)"

def measuredListing : String := "string : decimal(4,2)"

def parameterTokens : List Token :=
  [.symbol .openParen, .number 4, .symbol .comma, .number 2, .symbol .closeParen]

theorem measured_spelled :
    Spells measuredType.toList (.word "Decimal".toList :: parameterTokens) ∧
      Spells measuredListing.toList
        (.word "string".toList :: .symbol .colon :: .word "decimal".toList :: parameterTokens) := by
  constructor
  · have hscan : scan 0 measuredType.toList = .ok [(1, .word "Decimal".toList), (9, .symbol .openParen), (10, .number 4),
        (11, .symbol .comma), (13, .number 2), (14, .symbol .closeParen)] := ok_of_toOption (by decide +kernel)
    exact scan_spells hscan
  · have hscan : scan 0 measuredListing.toList = .ok [(0, .word "string".toList), (7, .symbol .colon),
        (9, .word "decimal".toList), (16, .symbol .openParen), (17, .number 4), (18, .symbol .comma), (19, .number 2),
        (20, .symbol .closeParen)] := ok_of_toOption (by decide +kernel)
    exact scan_spells hscan

theorem measured_cut_short :
    ofString measuredType = .ok (.decimal 4 2) ∧
      cutAfter measuredType 1 = " Decimal" ∧ ofString " Decimal" = .ok (.decimal 10 0) ∧
      cutAfter measuredType 4 = " Decimal (4," ∧ ofString " Decimal (4," = .error ⟨" Decimal (4,", .endsEarly⟩ ∧
      listOfString measuredListing = .ok [.string, .decimal 4 2] ∧
      cutAfter measuredListing 2 = "string :" ∧ listOfString "string :" = .error ⟨"string :", .endsEarly⟩ ∧
      cutAfter measuredListing 3 = "string : decimal" ∧ listOfString "string : decimal" = .ok [.string, .decimal 10 0] ∧
      AgreesToLast [.string, .decimal 10 0] [.string, .decimal 4 2] := by
  obtain ⟨htype, hlisting⟩ := measured_spelled
  have hread : ofString measuredType = .ok (.decimal 4 2) := ok_of_toOption (by decide +kernel)
  have hlisted : listOfString measuredListing = .ok [.string, .decimal 4 2] := ok_of_toOption (by decide +kernel)
  have hone : cutAfter measuredType 1 = " Decimal" := by decide +kernel
  have hfour : cutAfter measuredType 4 = " Decimal (4," := by decide +kernel
  have htwo : cutAfter measuredListing 2 = "string :" := by decide +kernel
  have hthree : cutAfter measuredListing 3 = "string : decimal" := by decide +kernel
  obtain ⟨-, -, hbare, -⟩ := cut_short_ends_early htype (n := 1) (by decide)
  obtain ⟨-, -, hopen, -⟩ := cut_short_ends_early htype (n := 4) (by decide)
  obtain ⟨-, -, -, hmark⟩ := cut_short_ends_early hlisting (n := 2) (by decide)
  obtain ⟨-, -, -, hlast⟩ := cut_short_ends_early hlisting (n := 3) (by decide)
  rw [hone] at hbare
  rw [hfour] at hopen
  rw [htwo] at hmark
  rw [hthree] at hlast
  have hdecimal : ofString " Decimal" = .ok (.decimal 10 0) :=
    ((hbare _ hread).2 _).mpr (.parameters (show _ = _ by decide) (.scale 4 2))
  have hearly : ofString " Decimal (4," = .error ⟨" Decimal (4,", .endsEarly⟩ := by
    refine (hopen _ hread).1.resolve_right fun ⟨u, hu⟩ => ?_
    cases ((hopen _ hread).2 u).mp hu
  have hcolon : listOfString "string :" = .error ⟨"string :", .endsEarly⟩ :=
    (hmark _ hlisted (by decide)).2 (.inl ⟨.symbol .colon, rfl, rfl⟩)
  have hshorter : listOfString "string : decimal" = .ok [.string, .decimal 10 0] := ok_of_toOption (by decide +kernel)
  have hagrees : AgreesToLast [.string, .decimal 10 0] [.string, .decimal 4 2] := by
    obtain hends | ⟨shorter, hread', hagrees⟩ := (hlast _ hlisted (by decide)).1
    · cases hshorter.symm.trans hends
    · cases hshorter.symm.trans hread'
      exact hagrees
  exact ⟨hread, hone, hdecimal, hfour, hearly, hlisted, htwo, hcolon, hthree, hshorter, hagrees⟩

end TableScan.ColumnType
