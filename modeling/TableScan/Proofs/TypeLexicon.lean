/-
  TableScan.Proofs.TypeLexicon — the tokens of a type expression, told without the scanner.

  `Spells cs ts`: the text is the tokens, one behind the other, with white space between and
  around them. A number may be written with any zeros before it; numbers and words end only
  where no digit, or no character of a word, follows. The scanner finds just these tokens
  (`scan_iff_spells`), so a text spells at most one list of them (`Spells.unique`).
-/

import TableScan.ColumnType.Token

namespace TableScan.ColumnType

open TableScan.Text

/-- The text does not go on with a character like that. -/
def Stops (p : Char → Bool) (cs : List Char) : Prop := ∀ c ∈ cs.head?, p c = false

inductive Spells : List Char → List Token → Prop
  | done : Spells [] []
  | space {c : Char} {cs : List Char} {ts : List Token} : isSpace c = true → Spells cs ts →
      Spells (c :: cs) ts
  | symbol (s : Symbol) {cs : List Char} {ts : List Token} : Spells cs ts →
      Spells (s.char :: cs) (.symbol s :: ts)
  | number {n : UInt32} {d : Char} {ds cs : List Char} {ts : List Token} : (∀ c ∈ d :: ds, c.isDigit = true) →
      Stops Char.isDigit cs → numeralValue (d :: ds) = n.toNat → Spells cs ts →
      Spells (d :: ds ++ cs) (.number n :: ts)
  | word {c : Char} {name cs : List Char} {ts : List Token} : c.isDigit = false →
      (∀ d ∈ c :: name, isWordChar d = true) → Stops isWordChar cs → Spells cs ts →
      Spells (c :: name ++ cs) (.word (c :: name) :: ts)

/-! ## Kinds of characters -/

theorem Symbol.ofChar?_char (s : Symbol) : Symbol.ofChar? s.char = some s := by
  cases s <;> rfl

theorem Symbol.char_of_ofChar? {c : Char} {s : Symbol} (h : Symbol.ofChar? c = some s) : c = s.char := by
  unfold Symbol.ofChar? at h
  split at h <;> cases h <;> rfl

theorem isSpace_symbol (s : Symbol) : isSpace s.char = false := by
  cases s <;> decide

theorem isWordChar_symbol (s : Symbol) : isWordChar s.char = false := by
  cases s <;> decide

theorem toNat_of_isAlpha {c : Char} (h : c.isAlpha = true) : 0x41 ≤ c.toNat ∧ c.toNat ≤ 0x7A := by
  have hcase : (decide ('A'.val ≤ c.val ∧ c.val ≤ 'Z'.val) ||
      decide ('a'.val ≤ c.val) && decide (c.val ≤ 'z'.val)) = true := h
  simp only [Bool.or_eq_true, Bool.and_eq_true, decide_eq_true_eq, UInt32.le_iff_toNat_le] at hcase
  show 0x41 ≤ c.val.toNat ∧ c.val.toNat ≤ 0x7A
  have hupper : 'A'.val.toNat = 0x41 ∧ 'Z'.val.toNat = 0x5A := ⟨rfl, rfl⟩
  have hlower : 'a'.val.toNat = 0x61 ∧ 'z'.val.toNat = 0x7A := ⟨rfl, rfl⟩
  omega

theorem isWordChar_of_isAlpha {c : Char} (h : c.isAlpha = true) : isWordChar c = true := by
  simp [isWordChar, Char.isAlphanum, h]

theorem isWordChar_of_isDigit {c : Char} (h : c.isDigit = true) : isWordChar c = true := by
  simp [isWordChar, Char.isAlphanum, h]

theorem isSpace_of_isWordChar {c : Char} (h : isWordChar c = true) : isSpace c = false := by
  by_cases hs : isSpace c = true
  · have : (((c = ' ' ∨ c = '\t') ∨ c = '\n') ∨ c = '\x0c') ∨ c = '\r' := by simpa [isSpace] using hs
    rcases this with (((rfl | rfl) | rfl) | rfl) | rfl <;> exact absurd h (by decide)
  · exact eq_false_of_ne_true hs

theorem ofChar?_of_isWordChar {c : Char} (h : isWordChar c = true) : Symbol.ofChar? c = none := by
  cases hs : Symbol.ofChar? c with
  | none => rfl
  | some s =>
    rw [Symbol.char_of_ofChar? hs, isWordChar_symbol] at h
    cases h

/-! ## Runs of characters -/

section Run

variable {p : Char → Bool} {run rest : List Char}

theorem takeWhile_run (hrun : ∀ c ∈ run, p c = true) (hrest : Stops p rest) :
    (run ++ rest).takeWhile p = run := by
  rw [List.takeWhile_append_of_pos hrun]
  cases rest with
  | nil => exact List.append_nil run
  | cons c rest => rw [List.takeWhile_cons_of_neg (by simp [hrest c rfl]), List.append_nil]

theorem dropWhile_run (hrun : ∀ c ∈ run, p c = true) (hrest : Stops p rest) :
    (run ++ rest).dropWhile p = rest := by
  rw [List.dropWhile_append_of_pos hrun]
  cases rest with
  | nil => rfl
  | cons c rest => rw [List.dropWhile_cons_of_neg (by simp [hrest c rfl])]

theorem stops_dropWhile (p : Char → Bool) (cs : List Char) : Stops p (cs.dropWhile p) := by
  intro c hc
  have := List.head?_dropWhile_not p cs
  rw [Option.mem_def.mp hc] at this
  exact this

end Run

/-! ## What the scanner finds -/

theorem spells_scan {cs : List Char} {ts : List Token} (h : Spells cs ts) :
    ∀ offset, ∃ toks, scan offset cs = .ok toks ∧ toks.map Prod.snd = ts := by
  induction h with
  | done => exact fun offset => ⟨[], by rw [scan], rfl⟩
  | space hc _ ih =>
    intro offset
    obtain ⟨toks, hscan, hts⟩ := ih (offset + 1)
    exact ⟨toks, by rw [scan, if_pos hc, hscan], hts⟩
  | symbol s _ ih =>
    intro offset
    obtain ⟨toks, hscan, rfl⟩ := ih (offset + 1)
    refine ⟨(offset, .symbol s) :: toks, ?_, rfl⟩
    rw [scan, isSpace_symbol, s.ofChar?_char, hscan]
    rfl
  | @number n d ds cs ts hds hstop hn _ ih =>
    intro offset
    obtain ⟨toks, hscan, rfl⟩ := ih (offset + (d :: ds).length)
    refine ⟨(offset, .number n) :: toks, ?_, rfl⟩
    have hd := hds d (List.mem_cons_self ..)
    have hds' : ∀ c ∈ ds, c.isDigit = true := fun c hc => hds c (List.mem_cons_of_mem d hc)
    have hw := isWordChar_of_isDigit hd
    have hlt : n.toNat < UInt32.size := n.toNat_lt
    rw [List.cons_append, scan, isSpace_of_isWordChar hw, ofChar?_of_isWordChar hw]
    simp only [hd, if_true, takeWhile_run hds' hstop, dropWhile_run hds' hstop, hn, hlt, hscan]
    simp only [Bool.false_eq_true, if_false, UInt32.ofNat_toNat]
    rfl
  | @word c name cs ts hc hname hstop _ ih =>
    intro offset
    obtain ⟨toks, hscan, rfl⟩ := ih (offset + (c :: name).length)
    refine ⟨(offset, .word (c :: name)) :: toks, ?_, rfl⟩
    have hw := hname c (List.mem_cons_self ..)
    have hname' : ∀ d ∈ name, isWordChar d = true := fun d hd => hname d (List.mem_cons_of_mem c hd)
    rw [List.cons_append, scan, isSpace_of_isWordChar hw, ofChar?_of_isWordChar hw]
    simp only [hc, hw, if_true, takeWhile_run hname' hstop, dropWhile_run hname' hstop, hscan]
    simp only [Bool.false_eq_true, if_false]
    rfl

/-- A token that was found stands before those of the rest. -/
theorem found_eq_ok {x : Except Stray (List (Nat × Token))} {tok : Nat × Token} {toks : List (Nat × Token)}
    (h : (do return tok :: (← x)) = Except.ok toks) : ∃ more, x = .ok more ∧ toks = tok :: more := by
  cases x with
  | error e => cases h
  | ok more =>
    cases h
    exact ⟨more, rfl, rfl⟩

/-- A run that begins as it should is one throughout. -/
theorem all_run {p : Char → Bool} {c : Char} (hc : p c = true) (cs : List Char) :
    ∀ d ∈ c :: cs.takeWhile p, p d = true := by
  intro d hd
  rcases List.mem_cons.mp hd with rfl | hd
  · exact hc
  · exact List.all_eq_true.mp List.all_takeWhile d hd

theorem scan_spells {offset : Nat} {cs : List Char} {toks : List (Nat × Token)}
    (h : scan offset cs = .ok toks) : Spells cs (toks.map Prod.snd) := by
  fun_induction scan offset cs generalizing toks with
  | case1 offset =>
    cases h
    exact .done
  | case2 offset c rest hc ih => exact .space hc (ih h)
  | case3 offset c rest hc s hs ih =>
    obtain rfl := Symbol.char_of_ofChar? hs
    obtain ⟨more, hmore, rfl⟩ := found_eq_ok h
    exact .symbol s (ih hmore)
  | case4 offset c rest hc hs hd run hlt =>
    rename_i ih
    obtain ⟨more, hmore, rfl⟩ := found_eq_ok h
    have hn : numeralValue run = (UInt32.ofNat (numeralValue run)).toNat :=
      (UInt32.toNat_ofNat_of_lt' hlt).symm
    have := Spells.number (all_run hd rest) (stops_dropWhile _ rest) hn (ih hmore)
    rwa [List.cons_append, List.takeWhile_append_dropWhile] at this
  | case5 => cases h
  | case6 offset c rest hc hs hd hw run =>
    rename_i ih
    obtain ⟨more, hmore, rfl⟩ := found_eq_ok h
    have := Spells.word (eq_false_of_ne_true hd) (all_run hw rest) (stops_dropWhile _ rest) (ih hmore)
    rwa [List.cons_append, List.takeWhile_append_dropWhile] at this
  | case7 => cases h

theorem scan_iff_spells {cs : List Char} {ts : List Token} (offset : Nat) :
    (∃ toks, scan offset cs = .ok toks ∧ toks.map Prod.snd = ts) ↔ Spells cs ts := by
  constructor
  · intro h
    obtain ⟨toks, h, rfl⟩ := h
    exact scan_spells h
  · exact fun h => spells_scan h offset

theorem Spells.unique {cs : List Char} {ts us : List Token} (h : Spells cs ts) (k : Spells cs us) : ts = us := by
  obtain ⟨toks, hscan, rfl⟩ := spells_scan h 0
  obtain ⟨toks', hscan', rfl⟩ := spells_scan k 0
  obtain rfl := Except.ok.inj (hscan.symm.trans hscan')
  rfl

/-! ## Texts put together -/

theorem isDigit_symbol (s : Symbol) : s.char.isDigit = false := by
  cases s <;> decide

theorem Symbol.char_inj {s s' : Symbol} (h : s.char = s'.char) : s = s' := by
  have := s.ofChar?_char
  rw [h, s'.ofChar?_char] at this
  exact (Option.some.inj this).symm

theorem Stops.append {p : Char → Bool} {cs ds : List Char} (hc : Stops p cs) (hd : Stops p ds) :
    Stops p (cs ++ ds) := by
  cases cs with
  | nil => exact hd
  | cons c cs => exact hc

theorem stops_of_append {p : Char → Bool} {cs ds : List Char} (h : Stops p (cs ++ ds)) : Stops p cs := by
  cases cs with
  | nil => exact fun c hc => by cases hc
  | cons c cs => exact h

theorem Stops.mono {p q : Char → Bool} {cs : List Char} (h : Stops q cs) (hpq : ∀ c, p c = true → q c = true) :
    Stops p cs := by
  intro c hc
  refine eq_false_of_ne_true fun hp => ?_
  cases (h c hc).symm.trans (hpq c hp)

/-- Where no word can go on, a text ends whatever stands before it. -/
theorem Spells.append {cs ds : List Char} {ts us : List Token} (h : Spells cs ts) (k : Spells ds us)
    (hstop : Stops isWordChar ds) : Spells (cs ++ ds) (ts ++ us) := by
  induction h with
  | done => exact k
  | space hc _ ih => exact .space hc ih
  | symbol s _ ih => exact .symbol s ih
  | number hds hdigit hn _ ih =>
    rw [List.append_assoc]
    exact .number hds (hdigit.append (hstop.mono fun _ => isWordChar_of_isDigit)) hn ih
  | word hc hname hword _ ih =>
    rw [List.append_assoc]
    exact .word hc hname (hword.append hstop) ih

theorem stops_symbol (s : Symbol) (cs : List Char) : Stops isWordChar (s.char :: cs) := by
  intro c hc
  cases hc
  exact isWordChar_symbol s

theorem stops_space {c : Char} (hc : isSpace c = true) (cs : List Char) : Stops isWordChar (c :: cs) := by
  intro d hd
  cases hd
  refine eq_false_of_ne_true fun hword => ?_
  cases hc.symm.trans (isSpace_of_isWordChar hword)

/-- A symbol ends whatever stands before it. -/
theorem Spells.append_symbol {cs ds : List Char} {ts us : List Token} (h : Spells cs ts) (s : Symbol)
    (k : Spells ds us) : Spells (cs ++ s.char :: ds) (ts ++ .symbol s :: us) :=
  h.append (.symbol s k) (stops_symbol s ds)

/-- A run lies before a text that cannot go on with it. -/
theorem run_before {p : Char → Bool} {run xs cs ds : List Char} (hrun : ∀ c ∈ run, p c = true) (hstop : Stops p ds)
    (h : run ++ xs = cs ++ ds) : ∃ cs', cs = run ++ cs' ∧ xs = cs' ++ ds := by
  rcases List.append_eq_append_iff.mp h with ⟨cs', hcs, hxs⟩ | ⟨more, hrun', hds⟩
  · exact ⟨cs', hcs, hxs⟩
  · cases more with
    | nil => exact ⟨[], by simpa using hrun'.symm, hds.symm⟩
    | cons y more =>
      have hy : p y = true := hrun y (by rw [hrun']; simp)
      cases (hstop y (by rw [hds]; rfl)).symm.trans hy

/-- The tokens of a text are those of its parts, if the second part cannot go on with a word. -/
theorem spells_append {cs ds : List Char} {ts : List Token} (h : Spells (cs ++ ds) ts) (hstop : Stops isWordChar ds) :
    ∃ before after, ts = before ++ after ∧ Spells cs before ∧ Spells ds after := by
  generalize hxs : cs ++ ds = xs at h
  induction h generalizing cs with
  | done =>
    obtain ⟨rfl, rfl⟩ := List.append_eq_nil_iff.mp hxs
    exact ⟨[], [], rfl, .done, .done⟩
  | @space c xs ts hc h ih =>
    cases cs with
    | nil =>
      subst hxs
      exact ⟨[], ts, rfl, .done, .space hc h⟩
    | cons c' cs =>
      obtain ⟨rfl, htail⟩ := List.cons.inj hxs
      obtain ⟨before, after, rfl, hb, ha⟩ := ih htail
      exact ⟨before, after, rfl, .space hc hb, ha⟩
  | @symbol s xs ts h ih =>
    cases cs with
    | nil =>
      subst hxs
      exact ⟨[], _, rfl, .done, .symbol s h⟩
    | cons c cs =>
      obtain ⟨rfl, htail⟩ := List.cons.inj hxs
      obtain ⟨before, after, rfl, hb, ha⟩ := ih htail
      exact ⟨.symbol s :: before, after, rfl, .symbol s hb, ha⟩
  | @number n d dds xs ts hds hdigit hn _ ih =>
    obtain ⟨cs', rfl, rfl⟩ := run_before hds (hstop.mono fun _ => isWordChar_of_isDigit) hxs.symm
    obtain ⟨before, after, rfl, hb, ha⟩ := ih rfl
    exact ⟨.number n :: before, after, rfl, .number hds (stops_of_append hdigit) hn hb, ha⟩
  | @word c name xs ts hc hname hword _ ih =>
    obtain ⟨cs', rfl, rfl⟩ := run_before hname hstop hxs.symm
    obtain ⟨before, after, rfl, hb, ha⟩ := ih rfl
    exact ⟨.word (c :: name) :: before, after, rfl, .word hc hname (stops_of_append hword) hb, ha⟩

/-- The kind of its first character tells how a text that is spelled begins. -/
theorem Spells.of_space {c : Char} {cs : List Char} {ts : List Token} (h : Spells (c :: cs) ts)
    (hc : isSpace c = true) : Spells cs ts := by
  generalize hxs : c :: cs = xs at h
  cases h with
  | done => cases hxs
  | space _ h =>
    obtain ⟨-, rfl⟩ := List.cons.inj hxs
    exact h
  | symbol s _ =>
    obtain ⟨rfl, -⟩ := List.cons.inj hxs
    cases (isSpace_symbol s).symm.trans hc
  | number hds =>
    obtain ⟨rfl, -⟩ := List.cons.inj hxs
    have hword := isWordChar_of_isDigit (hds _ (List.mem_cons_self ..))
    cases (isSpace_of_isWordChar hword).symm.trans hc
  | word _ hname =>
    obtain ⟨rfl, -⟩ := List.cons.inj hxs
    cases (isSpace_of_isWordChar (hname _ (List.mem_cons_self ..))).symm.trans hc

theorem Spells.of_symbol {cs : List Char} {s : Symbol} {ts : List Token} (h : Spells (s.char :: cs) ts) :
    ∃ after, ts = .symbol s :: after ∧ Spells cs after := by
  generalize hxs : s.char :: cs = xs at h
  cases h with
  | done => cases hxs
  | space hc _ =>
    obtain ⟨rfl, -⟩ := List.cons.inj hxs
    cases (isSpace_symbol s).symm.trans hc
  | symbol s' h =>
    obtain ⟨hs, rfl⟩ := List.cons.inj hxs
    obtain rfl := Symbol.char_inj hs
    exact ⟨_, rfl, h⟩
  | number hds =>
    obtain ⟨rfl, -⟩ := List.cons.inj hxs
    cases (isDigit_symbol s).symm.trans (hds _ (List.mem_cons_self ..))
  | word _ hname =>
    obtain ⟨rfl, -⟩ := List.cons.inj hxs
    cases (isWordChar_symbol s).symm.trans (hname _ (List.mem_cons_self ..))

theorem spells_append_symbol {cs ds : List Char} {s : Symbol} {ts : List Token}
    (h : Spells (cs ++ s.char :: ds) ts) :
    ∃ before after, ts = before ++ .symbol s :: after ∧ Spells cs before ∧ Spells ds after := by
  obtain ⟨before, rest, rfl, hb, hrest⟩ := spells_append h (stops_symbol s ds)
  obtain ⟨after, rfl, ha⟩ := hrest.of_symbol
  exact ⟨before, after, rfl, hb, ha⟩

/-- A symbol among the tokens stands in the text, what is before it and what is behind it around it. -/
theorem Spells.split_symbol {cs : List Char} {ts us : List Token} {s : Symbol} (h : Spells cs (ts ++ .symbol s :: us)) :
    ∃ ds es, cs = ds ++ s.char :: es ∧ Spells ds ts ∧ Spells es us := by
  generalize hall : ts ++ .symbol s :: us = all at h
  induction h generalizing ts with
  | done => simp at hall
  | @space c _ _ hc _ ih =>
    obtain ⟨ds, es, rfl, hds, hes⟩ := ih hall
    exact ⟨c :: ds, es, rfl, .space hc hds, hes⟩
  | symbol s' h ih =>
    cases ts with
    | nil =>
      obtain ⟨hs, rfl⟩ := List.cons.inj hall
      obtain rfl := Token.symbol.inj hs
      exact ⟨[], _, rfl, .done, h⟩
    | cons tok ts =>
      obtain ⟨rfl, htail⟩ := List.cons.inj hall
      obtain ⟨ds, es, rfl, hds, hes⟩ := ih htail
      exact ⟨s'.char :: ds, es, rfl, .symbol s' hds, hes⟩
  | number hdigits hstop hn _ ih =>
    cases ts with
    | nil => cases (List.cons.inj hall).1
    | cons tok ts =>
      obtain ⟨rfl, htail⟩ := List.cons.inj hall
      obtain ⟨ds, es, rfl, hds, hes⟩ := ih htail
      exact ⟨_, es, (List.append_assoc ..).symm, .number hdigits (stops_of_append hstop) hn hds, hes⟩
  | word hc hname hstop _ ih =>
    cases ts with
    | nil => cases (List.cons.inj hall).1
    | cons tok ts =>
      obtain ⟨rfl, htail⟩ := List.cons.inj hall
      obtain ⟨ds, es, rfl, hds, hes⟩ := ih htail
      exact ⟨_, es, (List.append_assoc ..).symm, .word hc hname (stops_of_append hstop) hds, hes⟩

/-- The characters of one word. -/
def isWord : List Char → Bool
  | [] => false
  | c :: name => !c.isDigit && (c :: name).all isWordChar

theorem spells_word {name : List Char} (h : isWord name = true) : Spells name [.word name] := by
  cases name with
  | nil => cases h
  | cons c name =>
    simp only [isWord, Bool.and_eq_true, Bool.not_eq_true', List.all_eq_true] at h
    have := Spells.word h.1 h.2 (fun d hd => by cases hd) .done
    rwa [List.append_nil] at this

theorem spells_numeral (n : UInt32) : Spells (numeral n.toNat) [.number n] := by
  cases hds : numeral n.toNat with
  | nil => exact absurd hds (numeral_ne_nil _)
  | cons d ds =>
    have hd : ∀ c ∈ d :: ds, c.isDigit = true := hds ▸ isDigit_of_mem_numeral n.toNat
    have hn : numeralValue (d :: ds) = n.toNat := hds ▸ numeralValue_numeral n.toNat
    have := Spells.number hd (fun c hc => by cases hc) hn .done
    rwa [List.append_nil] at this

theorem Spells.word_chars {cs : List Char} {ts : List Token} (h : Spells cs ts) :
    ∀ name, .word name ∈ ts → ∀ c ∈ name, isWordChar c = true := by
  induction h with
  | done => exact fun name hn => by cases hn
  | space _ _ ih => exact ih
  | symbol s _ ih =>
    intro name hn
    exact ih name ((List.mem_cons.mp hn).resolve_left nofun)
  | number _ _ _ _ ih =>
    intro name hn
    exact ih name ((List.mem_cons.mp hn).resolve_left nofun)
  | word _ hname _ _ ih =>
    intro name hn
    rcases List.mem_cons.mp hn with hn | hn
    · obtain rfl := Token.word.inj hn
      exact hname
    · exact ih name hn

end TableScan.ColumnType
