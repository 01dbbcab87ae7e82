/-
  TableScan.Proofs.WritableTypes — of all types there are, those that are read back from how
  they are written.

  Any byte can be the precision or scale of a decimal, and any text the name of a field, also
  one that is empty, holds a bracket or starts with zeros. What a grammar can derive bounds
  both (`derivable_iff`): decimals have 1 to 38 digits, and a name shows no backtick at its
  ends or is the numeral of a number. What is written keeps a name whole only if it is one
  token. The two together are just the types that are read back (`reads_back_iff_writable`);
  no surroundings mend a name that is not.

  - `IsCanonical.numeral`: a run of digits that starts with no zero is the numeral of its value.
  - `isPlain_and_derivable_iff`: the names that a derivation has and a text keeps.
-/

import Mathlib.Data.List.Induction
import TableScan.Proofs.TypeRoundTrip

namespace TableScan

/-! ## Numerals without leading zeros -/

namespace Text

/-- A run of digits with no zero in front, but for zero itself. -/
structure IsCanonical (ds : List Char) : Prop where
  nonempty : ds ≠ []
  digits : ∀ c ∈ ds, c.isDigit = true
  shortest : ds.head? = some '0' → ds = ['0']

theorem numeral_zero : numeral 0 = ['0'] := by
  rw [numeral]
  rfl

theorem isCanonical_numeral (n : Nat) : IsCanonical (numeral n) := by
  refine ⟨numeral_ne_nil n, isDigit_of_mem_numeral n, ?_⟩
  intro hhead
  by_cases hn : n = 0
  · rw [hn, numeral_zero]
  · exact absurd hhead (head?_numeral hn)

/-- A digit is the one of its value. -/
theorem digitChar_of_isDigit {c : Char} (h : c.isDigit = true) :
    c.toNat - 0x30 < 10 ∧ digitChar (c.toNat - 0x30) = c := by
  have hrange := toNat_of_isDigit h
  refine ⟨by omega, ?_⟩
  rw [digitChar, show 0x30 + (c.toNat - 0x30) = c.toNat by omega, Char.ofNat_toNat]

theorem IsCanonical.head?_ne {ds : List Char} {d : Char} (h : IsCanonical (ds ++ [d])) (hne : ds ≠ []) :
    ds.head? ≠ some '0' := by
  intro hhead
  have hall := h.shortest (by simp [hhead])
  have hlength := congrArg List.length hall
  simp only [List.length_append, List.length_singleton] at hlength
  exact hne (List.length_eq_zero_iff.mp (by omega))

/-- By the last digit: the run before it has no zero in front either, and so is no zero. -/
theorem IsCanonical.numeral {ds : List Char} (h : IsCanonical ds) : numeral (numeralValue ds) = ds := by
  induction ds using List.reverseRecOn with
  | nil => exact absurd rfl h.nonempty
  | append_singleton ds d ih =>
    obtain ⟨hlt, hd⟩ := digitChar_of_isDigit (h.digits d (by simp))
    rw [numeralValue_append, Text.numeral]
    by_cases hne : ds = []
    · subst hne
      simp [numeralValue, hlt, hd]
    · have hhead := h.head?_ne hne
      have hds := ih ⟨hne, fun c hc => h.digits c (by simp [hc]), fun hzero => absurd hzero hhead⟩
      have hpos : numeralValue ds ≠ 0 := by
        intro hzero
        rw [hzero, numeral_zero] at hds
        exact hhead (by rw [← hds]; rfl)
      have hquotient : (10 * numeralValue ds + (d.toNat - 0x30)) / 10 = numeralValue ds := by omega
      have hremainder : (10 * numeralValue ds + (d.toNat - 0x30)) % 10 = d.toNat - 0x30 := by omega
      rw [if_neg (by omega), hquotient, hremainder, hds, hd]

end Text

namespace ColumnType

open TableScan.Text

/-! ## Parts of types -/

mutual

/-- Every decimal has such a precision and scale, at every depth. -/
def EachDecimal (p : UInt8 → UInt8 → Prop) : ColumnType → Prop
  | .decimal precision scale => p precision scale
  | .array t => t.EachDecimal p
  | .map k v => k.EachDecimal p ∧ v.EachDecimal p
  | .struct fields => EachFieldDecimal p fields
  | _ => True

def EachFieldDecimal (p : UInt8 → UInt8 → Prop) : List (String × ColumnType) → Prop
  | [] => True
  | (_, t) :: rest => t.EachDecimal p ∧ EachFieldDecimal p rest

end

section EachName

variable {p q r : String → Prop}

mutual

theorem EachName.combine : ∀ {t : ColumnType}, t.EachName p → t.EachName q → (∀ name, p name → q name → r name) →
    t.EachName r
  | .array t, hp, hq, h => @EachName.combine t hp hq h
  | .map _ _, hp, hq, h => ⟨hp.1.combine hq.1 h, hp.2.combine hq.2 h⟩
  | .struct fields, hp, hq, h => @EachFieldName.combine fields hp hq h
  | .void, _, _, _ | .boolean, _, _, _ | .tinyint, _, _, _ | .smallint, _, _, _ | .int, _, _, _ | .bigint, _, _, _
  | .float, _, _, _ | .double, _, _, _ | .string, _, _, _ | .binary, _, _, _ | .date, _, _, _ | .timestamp, _, _, _
  | .varchar _, _, _, _ | .char _, _, _, _ | .decimal _ _, _, _, _ => trivial

theorem EachFieldName.combine : ∀ {fields : List (String × ColumnType)}, EachFieldName p fields →
    EachFieldName q fields → (∀ name, p name → q name → r name) → EachFieldName r fields
  | [], _, _, _ => trivial
  | (name, _) :: _, hp, hq, h =>
    ⟨h name hp.1 hq.1, hp.2.1.combine hq.2.1 h, EachFieldName.combine hp.2.2 hq.2.2 h⟩

end

theorem EachName.mono {t : ColumnType} (hp : t.EachName p) (h : ∀ name, p name → q name) : t.EachName q :=
  hp.combine hp fun name hname _ => h name hname

end EachName

/-! ## Types that have a derivation -/

/-- A decimal has 1 to 38 digits, and no more of them behind the point than there are. -/
def IsDecimal (p s : UInt8) : Prop := 1 ≤ p ∧ p ≤ 38 ∧ s ≤ p

/-- Some token is read as the name. -/
def IsNameOfField (name : String) : Prop := ∃ tok, IsFieldName tok name

mutual

theorem IsType.parts {ts : List Token} {t : ColumnType} (h : IsType ts t) :
    t.EachDecimal IsDecimal ∧ t.EachName IsNameOfField := by
  cases h with
  | plain hm _ =>
    simp only [plainNames, List.mem_cons, List.not_mem_nil, or_false, Prod.mk.injEq] at hm
    rcases hm with h | h | h | h | h | h | h | h | h | h | h | h <;> obtain ⟨-, rfl⟩ := h <;> exact ⟨trivial, trivial⟩
  | double _ | doublePrecision _ _ | varchar _ _ | char _ _ => exact ⟨trivial, trivial⟩
  | bareDecimal _ => exact ⟨⟨by decide, by decide, by decide⟩, trivial⟩
  | decimalPrecision _ h1 h2 => exact ⟨⟨h1, h2, UInt8.zero_le⟩, trivial⟩
  | decimal _ h1 h2 h3 => exact ⟨⟨h1, h2, h3⟩, trivial⟩
  | array _ ht => exact ht.parts
  | map _ hk hv => exact ⟨⟨hk.parts.1, hv.parts.1⟩, hk.parts.2, hv.parts.2⟩
  | emptyStruct _ => exact ⟨trivial, trivial⟩
  | struct _ hf => exact hf.parts

theorem IsFields.parts {ts : List Token} {fields : List (String × ColumnType)} (h : IsFields ts fields) :
    EachFieldDecimal IsDecimal fields ∧ EachFieldName IsNameOfField fields := by
  cases h with
  | last hname ht =>
    obtain ⟨hd, hn⟩ := ht.parts
    exact ⟨⟨hd, trivial⟩, ⟨_, hname⟩, hn, trivial⟩
  | more hname ht hrest =>
    obtain ⟨hd, hn⟩ := ht.parts
    obtain ⟨hds, hns⟩ := hrest.parts
    exact ⟨⟨hd, hds⟩, ⟨_, hname⟩, hn, hns⟩

end

theorem derivable_plain {t : ColumnType} (h : t ∈ plainNames.map Prod.snd) : ∃ ts, IsType ts t := by
  obtain ⟨⟨keyword, t⟩, hmem, rfl⟩ := List.mem_map.mp h
  obtain ⟨us, -, hu⟩ := writes_plain hmem
  exact ⟨us, hu⟩

mutual

theorem derivable {t : ColumnType} (hd : t.EachDecimal IsDecimal) (hn : t.EachName IsNameOfField) :
    ∃ ts, IsType ts t := by
  cases t with
  | double => exact ⟨_, .double (named_self rfl)⟩
  | varchar n => exact ⟨_, .varchar n (named_self rfl)⟩
  | char n => exact ⟨_, .char n (named_self rfl)⟩
  | decimal p s => exact ⟨_, .decimal (named_self rfl) hd.1 hd.2.1 hd.2.2⟩
  | array t =>
    obtain ⟨ts, ht⟩ := @derivable t hd hn
    exact ⟨_, .array (named_self rfl) ht⟩
  | map k v =>
    obtain ⟨ks, hk⟩ := derivable hd.1 hn.1
    obtain ⟨vs, hv⟩ := derivable hd.2 hn.2
    exact ⟨_, .map (named_self rfl) hk hv⟩
  | struct fields =>
    by_cases hne : fields = []
    · subst hne
      exact ⟨_, .emptyStruct (named_self rfl)⟩
    · obtain ⟨ts, hts⟩ := derivable_fields hne hd hn
      exact ⟨_, .struct (named_self rfl) hts⟩
  | _ => exact derivable_plain (by simp [plainNames])

theorem derivable_fields {fields : List (String × ColumnType)} (hne : fields ≠ [])
    (hd : EachFieldDecimal IsDecimal fields) (hn : EachFieldName IsNameOfField fields) :
    ∃ ts, IsFields ts fields := by
  cases fields with
  | nil => exact absurd rfl hne
  | cons field rest =>
    obtain ⟨⟨tok, hname⟩, hnt, hnrest⟩ := hn
    obtain ⟨ts, ht⟩ := derivable hd.1 hnt
    by_cases hrest : rest = []
    · subst hrest
      exact ⟨_, .last hname ht⟩
    · obtain ⟨us, hus⟩ := derivable_fields hrest hd.2 hnrest
      exact ⟨_, .more hname ht hus⟩

end

/-- The types of the grammar: their decimals are in range, and each of their names is one. -/
theorem derivable_iff {t : ColumnType} :
    (∃ ts, IsType ts t) ↔ t.EachDecimal IsDecimal ∧ t.EachName IsNameOfField := by
  constructor
  · intro h
    obtain ⟨ts, ht⟩ := h
    exact ht.parts
  · exact fun h => derivable h.1 h.2

/-! ## Names that are written as they are read -/

/-- One word, without a backtick at either end. -/
def IsBareWord (name : List Char) : Prop :=
  isWord name = true ∧ name.head? ≠ some '\x60' ∧ name.getLast? ≠ some '\x60'

/-- The numeral of a number of 32 bits. -/
def IsWordNumeral (name : List Char) : Prop := IsCanonical name ∧ numeralValue name < UInt32.size

theorem isWordNumeral_decimal (n : UInt32) : IsWordNumeral (Text.decimal n.toNat).toList := by
  rw [Text.decimal, String.toList_ofList]
  refine ⟨isCanonical_numeral _, ?_⟩
  rw [numeralValue_numeral]
  exact n.toNat_lt

theorem IsWordNumeral.eq_decimal {name : String} (h : IsWordNumeral name.toList) :
    ∃ n : UInt32, name = Text.decimal n.toNat := by
  refine ⟨UInt32.ofNat (numeralValue name.toList), ?_⟩
  rw [UInt32.toNat_ofNat_of_lt' h.2, Text.decimal, h.1.numeral, String.ofList_toList]

theorem isPlain_and_derivable_iff {name : String} :
    IsPlain name ∧ IsNameOfField name ↔ IsBareWord name.toList ∨ IsWordNumeral name.toList := by
  constructor
  · intro h
    obtain ⟨hplain, tok, htok⟩ := h
    cases htok with
    | number n => exact .inr (isWordNumeral_decimal n)
    | @word before after core hhead hlast =>
      -- A numeral in backticks is a word among tokens, so the token does not say which of the two it is.
      generalize hname : String.ofList core = name at hplain ⊢
      cases hplain with
      | word hword =>
        rw [← hname, String.toList_ofList] at hword ⊢
        exact .inl ⟨hword, hhead, hlast⟩
      | number n => exact .inr (isWordNumeral_decimal n)
  · intro h
    rcases h with ⟨hword, hhead, hlast⟩ | hnumeral
    · refine ⟨.word hword, .word name.toList, ?_⟩
      simpa using IsFieldName.word 0 0 hhead hlast
    · obtain ⟨n, rfl⟩ := hnumeral.eq_decimal
      exact ⟨.number n, .number n, .number n⟩

/-! ## Types that are read back -/

/-- What is read from the text of a type is that type only if its names are plain. -/
theorem IsType.plain_of_written {us : List Token} {t : ColumnType} (h : IsType us t) (hs : Spells t.chars us) :
    t.EachName IsPlain := by
  have hwordy : t.EachName IsWordy := h.wordy hs.word_chars
  obtain ⟨r, hr, hsettled⟩ := h.reads []
  -- The reader goes over the text once for what it settles on, and once for what that says of the names.
  obtain ⟨u, hsettled', hplain⟩ := plain_of_reads h hwordy hs hr
  have hsame : u = t := Option.some.inj (hsettled'.complete?.symm.trans hsettled.complete?)
  exact hplain hsame

/-- With decimals in range and such names, what is written is a type of the grammar. -/
theorem writes_of_parts {t : ColumnType} (hd : t.EachDecimal IsDecimal)
    (hn : t.EachName fun name => IsBareWord name.toList ∨ IsWordNumeral name.toList) :
    ∃ us, Spells t.chars us ∧ IsType us t := by
  have hplain : t.EachName IsPlain := hn.mono fun name hname => (isPlain_and_derivable_iff.mpr hname).1
  have hread : t.EachName IsNameOfField := hn.mono fun name hname => (isPlain_and_derivable_iff.mpr hname).2
  obtain ⟨ts, ht⟩ := derivable_iff.mpr ⟨hd, hread⟩
  exact ht.writes hplain

/-- The types that are read back from how they are written, whether any text spells them or not. -/
theorem reads_back_iff_writable (t : ColumnType) :
    ofString t.render = .ok t ↔
      t.EachDecimal (fun p s => 1 ≤ p ∧ p ≤ 38 ∧ s ≤ p) ∧
        t.EachName (fun name => IsBareWord name.toList ∨ IsWordNumeral name.toList) := by
  rw [ofString_eq_ok, render, String.toList_ofList]
  constructor
  · intro h
    obtain ⟨us, hspells, hu⟩ := h
    have hplain := hu.plain_of_written hspells
    obtain ⟨hdecimals, hnames⟩ := derivable_iff.mp ⟨us, hu⟩
    exact ⟨hdecimals, hplain.combine hnames fun name hp hn => isPlain_and_derivable_iff.mp ⟨hp, hn⟩⟩
  · exact fun h => writes_of_parts h.1 h.2

example : (ofString (render (.struct [("007", .void), ("a:int,b", .date)]))).toOption =
    some (.struct [("7", .void), ("a", .int), ("b", .date)]) := by
  decide +kernel

end ColumnType

end TableScan
