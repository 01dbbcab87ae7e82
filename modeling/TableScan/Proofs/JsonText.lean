/-
  TableScan.Proofs.JsonText — the lexemes of a written JSON text are read as what they were
  written for: a text as the pieces of its characters, which decode to it again, and an integer
  as the numeral of its digits.

  Writing goes by characters and reading by bytes; `utf8` lies between them. A numeral ends
  where its digits do, so whatever stands behind it must be no part of a number (`Delimited`).
-/

import Mathlib.Data.List.Basic
import TableScan.Json.Printer

namespace TableScan.Json

open TableScan.Text

/-! ## Bytes of characters -/

def utf8 (cs : List Char) : List UInt8 := cs.flatMap String.utf8EncodeChar

@[simp] theorem utf8_nil : utf8 [] = [] := rfl

@[simp] theorem utf8_cons (c : Char) (cs : List Char) : utf8 (c :: cs) = String.utf8EncodeChar c ++ utf8 cs := rfl

@[simp] theorem utf8_append (cs ds : List Char) : utf8 (cs ++ ds) = utf8 cs ++ utf8 ds :=
  List.flatMap_append

theorem toList_loop (bs : ByteArray) (i : Nat) (r : List UInt8) :
    ByteArray.toList.loop bs i r = r.reverse ++ bs.data.toList.drop i := by
  fun_induction ByteArray.toList.loop bs i r with
  | case1 i r hi ih =>
    have hlt : i < bs.data.toList.length := hi
    have hget : bs.get! i = bs.data.toList[i] := by
      rw [ByteArray.get!, getElem!_pos bs.data i hi, Array.getElem_toList]
    rw [ih, List.drop_eq_getElem_cons hlt, List.reverse_cons, List.append_assoc, hget]
    rfl
  | case2 i r hi =>
    rw [List.drop_eq_nil_of_le (Nat.le_of_not_lt hi), List.append_nil]

theorem toList_toByteArray (l : List UInt8) : l.toByteArray.toList = l := by
  rw [ByteArray.toList, toList_loop]
  simp

theorem utf8_toList (s : String) : utf8 s.toList = s.toUTF8.toList := by
  have h := congrArg String.toByteArray (String.ofList_toList (s := s))
  rw [String.toUTF8_eq_toByteArray, ← h, String.toByteArray_ofList]
  exact (toList_toByteArray _).symm

theorem fromUTF8?_toUTF8 (s : String) : String.fromUTF8? s.toUTF8 = some s := by
  rw [String.fromUTF8?, String.toUTF8_eq_toByteArray, dif_pos s.isValidUTF8]
  rfl

theorem fromUTF8?_utf8 (s : String) : String.fromUTF8? ⟨(utf8 s.toList).toArray⟩ = some s := by
  have hbytes : (⟨(utf8 s.toList).toArray⟩ : ByteArray) = s.toUTF8 := by
    rw [String.toUTF8_eq_toByteArray, ← String.ofList_toList (s := s), String.toByteArray_ofList, String.toList_ofList]
    refine ByteArray.ext ?_
    exact (List.data_toByteArray).symm
  rw [hbytes, fromUTF8?_toUTF8]

theorem toNat_code {c : Char} (h : c.toNat < 0x80) : (code c).toNat = c.toNat := by
  rw [code, Nat.toUInt8, UInt8.toNat_ofNat', Nat.mod_eq_of_lt (Nat.lt_trans h (by decide))]

theorem utf8EncodeChar_ascii {c : Char} (h : c.toNat < 0x80) : String.utf8EncodeChar c = [code c] := by
  have h' : c.val.toNat ≤ 127 := Nat.le_of_lt_succ h
  simp only [String.utf8EncodeChar, h', if_true]
  rfl

theorem utf8_ascii {cs : List Char} (h : ∀ c ∈ cs, c.toNat < 0x80) : utf8 cs = cs.map code := by
  induction cs with
  | nil => rfl
  | cons c cs ih =>
    have hcs : ∀ d ∈ cs, d.toNat < 0x80 := fun d hd => h d (List.mem_cons_of_mem c hd)
    rw [utf8_cons, utf8EncodeChar_ascii (h c (List.mem_cons_self ..)), ih hcs]
    rfl

theorem mem_utf8EncodeChar {c : Char} (h : 0x80 ≤ c.toNat) : ∀ b ∈ String.utf8EncodeChar c, 0x80 ≤ b := by
  have h' : ¬ c.val.toNat ≤ 127 := Nat.not_le_of_lt h
  intro b hb
  simp only [String.utf8EncodeChar, h', if_false] at hb
  have hhigh (n k : Nat) (hk : 128 ≤ k) (hn : n + k < 256) : 0x80 ≤ UInt8.ofNat (n + k) := by
    rw [UInt8.le_iff_toNat_le, UInt8.toNat_ofNat', Nat.mod_eq_of_lt hn]
    exact Nat.le_trans hk (Nat.le_add_left ..)
  split at hb
  · simp only [List.mem_cons, List.not_mem_nil, or_false] at hb
    rcases hb with rfl | rfl <;> exact hhigh _ _ (by omega) (by omega)
  · split at hb
    · simp only [List.mem_cons, List.not_mem_nil, or_false] at hb
      rcases hb with rfl | rfl | rfl <;> exact hhigh _ _ (by omega) (by omega)
    · simp only [List.mem_cons, List.not_mem_nil, or_false] at hb
      rcases hb with rfl | rfl | rfl | rfl <;> exact hhigh _ _ (by omega) (by omega)

/-! ## Texts -/

/-- The letter escapes are read as bytes, other controls as units, and all else as its bytes. -/
def piecesOf (c : Char) : RawText :=
  if c.toNat < 0x20 ∧ c ∉ ['\x08', '\x0c', '\n', '\r', '\t'] then [.unit c.toNat]
  else (String.utf8EncodeChar c).map .byte

/-- A text as it is read. -/
def RawText.ofString (s : String) : RawText := s.toList.flatMap piecesOf

/-- A byte that stands for itself in a text. -/
def IsPlainByte (b : UInt8) : Prop := b ≠ code '"' ∧ b ≠ code '\\' ∧ ¬ b < 0x20

theorem rawText?_plain {bs : List UInt8} (h : ∀ b ∈ bs, IsPlainByte b) (rest : List UInt8) :
    rawText? (bs ++ rest) = (rawText? rest).map fun r => (bs.map .byte ++ r.1, r.2) := by
  induction bs with
  | nil =>
    rw [List.nil_append]
    cases rawText? rest <;> rfl
  | cons b bs ih =>
    obtain ⟨hquote, hescape, hlow⟩ := h b (List.mem_cons_self ..)
    have ih := ih fun b hb => h b (List.mem_cons_of_mem _ hb)
    rw [List.cons_append, rawText?.eq_def]
    dsimp only
    rw [if_neg hquote, if_neg hescape, if_neg hlow, ih]
    cases rawText? rest <;> rfl

theorem isPlainByte_utf8EncodeChar {c : Char} (hlow : ¬ c.toNat < 0x20) (hquote : c ≠ '"') (hescape : c ≠ '\\') :
    ∀ b ∈ String.utf8EncodeChar c, IsPlainByte b := by
  intro b hb
  by_cases hc : c.toNat < 0x80
  · rw [utf8EncodeChar_ascii hc, List.mem_singleton] at hb
    subst hb
    have hcode := toNat_code hc
    refine ⟨?_, ?_, ?_⟩
    · intro h
      exact hquote (Char.toNat_inj.mp (hcode.symm.trans (congrArg UInt8.toNat h)))
    · intro h
      exact hescape (Char.toNat_inj.mp (hcode.symm.trans (congrArg UInt8.toNat h)))
    · rw [UInt8.lt_iff_toNat_lt, hcode]
      exact hlow
  · have hb := mem_utf8EncodeChar (Nat.le_of_not_lt hc) b hb
    rw [UInt8.le_iff_toNat_le] at hb
    refine ⟨?_, ?_, ?_⟩
    · rintro rfl
      exact absurd hb (by decide)
    · rintro rfl
      exact absurd hb (by decide)
    · rw [UInt8.lt_iff_toNat_lt]
      exact Nat.not_lt_of_le (Nat.le_trans (by decide) hb)

theorem rawText?_escape {e b : UInt8} (he : e ≠ code 'u') (hb : letterEscape? e = some b) (rest : List UInt8) :
    rawText? (code '\\' :: e :: rest) = (rawText? rest).map fun r => (.byte b :: r.1, r.2) := by
  have hquote : code '\\' ≠ code '"' := by decide
  rw [rawText?.eq_def]
  dsimp only
  rw [if_neg hquote, if_pos rfl, if_neg he, hb]
  cases rawText? rest <;> rfl

theorem hexDigit?_digitChar {d : Nat} (h : d < 16) : hexDigit? (code (Nat.digitChar d)) = some d := by
  have : ∀ d : Fin 16, hexDigit? (code (Nat.digitChar d)) = some d.val := by decide
  exact this ⟨d, h⟩

theorem digitChar_ascii {d : Nat} (h : d < 16) : (Nat.digitChar d).toNat < 0x80 := by
  have : ∀ d : Fin 16, (Nat.digitChar d).toNat < 0x80 := by decide
  exact this ⟨d, h⟩

theorem rawText?_unit {n : Nat} (h : n < 0x20) (rest : List UInt8) :
    rawText? (code '\\' :: code 'u' :: code '0' :: code '0' :: code (Nat.digitChar (n / 16))
      :: code (Nat.digitChar (n % 16)) :: rest) = (rawText? rest).map fun r => (.unit n :: r.1, r.2) := by
  have hquote : code '\\' ≠ code '"' := by decide
  have hzero : hexDigit? (code '0') = some 0 := by decide
  have hhigh : hexDigit? (code (Nat.digitChar (n / 16))) = some (n / 16) := hexDigit?_digitChar (by omega)
  have hlow : hexDigit? (code (Nat.digitChar (n % 16))) = some (n % 16) := hexDigit?_digitChar (by omega)
  have hvalue : ((0 * 16 + 0) * 16 + n / 16) * 16 + n % 16 = n := by omega
  rw [rawText?.eq_def]
  dsimp only
  rw [if_neg hquote, if_pos rfl, if_pos rfl, hzero, hhigh, hlow]
  simp only [Option.bind_eq_bind, Option.bind_some, hvalue]
  cases rawText? rest <;> rfl

theorem rawText?_escapedChar (c : Char) (rest : List UInt8) :
    rawText? (utf8 (escapedChar c) ++ rest) = (rawText? rest).map fun r => (piecesOf c ++ r.1, r.2) := by
  unfold escapedChar
  repeat' split
  · subst c; exact rawText?_escape (by decide) (by decide) rest
  · subst c; exact rawText?_escape (by decide) (by decide) rest
  · subst c; exact rawText?_escape (by decide) (by decide) rest
  · subst c; exact rawText?_escape (by decide) (by decide) rest
  · subst c; exact rawText?_escape (by decide) (by decide) rest
  · subst c; exact rawText?_escape (by decide) (by decide) rest
  · subst c; exact rawText?_escape (by decide) (by decide) rest
  · rename_i hbackspace hfeed hline hreturn htab hlow
    have hpieces : piecesOf c = [.unit c.toNat] :=
      if_pos ⟨hlow, by simp [hbackspace, hfeed, hline, hreturn, htab]⟩
    have hchars : utf8 ['\\', 'u', '0', '0', Nat.digitChar (c.toNat / 16), Nat.digitChar (c.toNat % 16)] =
        [code '\\', code 'u', code '0', code '0', code (Nat.digitChar (c.toNat / 16)),
          code (Nat.digitChar (c.toNat % 16))] := by
      refine utf8_ascii ?_
      intro d hd
      simp only [List.mem_cons, List.not_mem_nil, or_false] at hd
      rcases hd with rfl | rfl | rfl | rfl | rfl | rfl
      · decide
      · decide
      · decide
      · decide
      · exact digitChar_ascii (by omega)
      · exact digitChar_ascii (by omega)
    rw [hchars, hpieces]
    exact rawText?_unit hlow rest
  · rename_i hquote hescape _ _ _ _ _ hlow
    have hpieces : piecesOf c = (String.utf8EncodeChar c).map .byte := if_neg fun h => hlow h.1
    rw [utf8_cons, utf8_nil, List.append_nil, hpieces]
    exact rawText?_plain (isPlainByte_utf8EncodeChar hlow hquote hescape) rest

theorem rawText?_text (cs : List Char) (rest : List UInt8) :
    rawText? (utf8 (cs.flatMap escapedChar ++ ['"']) ++ rest) = some (cs.flatMap piecesOf, rest) := by
  induction cs with
  | nil =>
    have hquote : utf8 ['"'] = [code '"'] := by decide
    rw [List.flatMap_nil, List.nil_append, hquote, List.singleton_append, rawText?.eq_def]
    dsimp only
    rw [if_pos rfl]
    rfl
  | cons c cs ih =>
    rw [List.flatMap_cons, List.flatMap_cons, List.append_assoc, utf8_append, List.append_assoc,
      rawText?_escapedChar, ih]
    rfl

/-! ## What texts decode to -/

theorem utf8?_bytes (bs : List UInt8) (t : RawText) :
    RawText.utf8? (bs.map .byte ++ t) = (RawText.utf8? t).map (bs ++ ·) := by
  induction bs with
  | nil => 
    rw [List.map_nil, List.nil_append]
    cases RawText.utf8? t <;> rfl
  | cons b bs ih =>
    rw [List.map_cons, List.cons_append, RawText.utf8?, ih]
    cases RawText.utf8? t <;> rfl

theorem utf8?_piecesOf (c : Char) (t : RawText) :
    RawText.utf8? (piecesOf c ++ t) = (RawText.utf8? t).map (String.utf8EncodeChar c ++ ·) := by
  unfold piecesOf
  split
  · rename_i h
    have hlow : ¬ (0xD800 ≤ c.toNat ∧ c.toNat < 0xDC00) := by omega
    have hhigh : ¬ (0xDC00 ≤ c.toNat ∧ c.toNat < 0xE000) := by omega
    rw [List.singleton_append, RawText.utf8?.eq_def]
    dsimp only
    rw [if_neg hlow, if_neg hhigh, Char.ofNat_toNat]
  · exact utf8?_bytes _ _

theorem utf8?_ofString (cs : List Char) : RawText.utf8? (cs.flatMap piecesOf) = some (utf8 cs) := by
  induction cs with
  | nil => rfl
  | cons c cs ih =>
    rw [List.flatMap_cons, utf8?_piecesOf, ih]
    rfl

@[simp] theorem decode?_ofString (s : String) : (RawText.ofString s).decode? = some s := by
  rw [RawText.decode?, RawText.ofString, utf8?_ofString]
  exact fromUTF8?_utf8 s

/-! ## Integers -/

/-- The values of the digits of a number. -/
def digitValues (n : Nat) : List Nat := (numeral n).map fun c => c.toNat - 0x30

/-- An integer as it is read. -/
def Numeral.ofInt (i : Int) : Numeral := ⟨decide (i < 0), digitValues i.natAbs, none, none⟩

/-- What may stand behind a lexeme: the end, or what divides or closes. -/
def Delimited (rest : List UInt8) : Prop := ∀ b ∈ rest.head?, b ∈ [code ',', code ':', code ']', code '\x7d']

theorem delimited_nil : Delimited [] := by
  intro b hb
  cases hb

theorem digitValues_ne_nil (n : Nat) : digitValues n ≠ [] := by
  simpa [digitValues] using numeral_ne_nil n

theorem head?_digitValues {n : Nat} (h : n ≠ 0) : (digitValues n).head? ≠ some 0 := by
  intro hhead
  rw [digitValues, List.head?_map, Option.map_eq_some_iff] at hhead
  obtain ⟨c, hc, hzero⟩ := hhead
  have hrange := toNat_of_isDigit (isDigit_of_mem_numeral n c (List.mem_of_head? hc))
  have hcode : c = '0' := Char.toNat_inj.mp (show c.toNat = 48 by omega)
  exact head?_numeral h (hcode ▸ hc)

theorem digit?_of_isDigit {c : Char} (h : c.isDigit = true) : digit? (code c) = some (c.toNat - 0x30) := by
  have hrange := toNat_of_isDigit h
  have hcode : (code c).toNat = c.toNat := toNat_code (by omega)
  have hle : code '0' ≤ code c ∧ code c ≤ code '9' := by
    rw [UInt8.le_iff_toNat_le, UInt8.le_iff_toNat_le, hcode]
    exact hrange
  rw [digit?, if_pos hle, hcode]

theorem utf8_digits {ds : List Char} (h : ∀ c ∈ ds, c.isDigit = true) : utf8 ds = ds.map code := by
  refine utf8_ascii ?_
  intro c hc
  have hrange := toNat_of_isDigit (h c hc)
  omega

/-- A numeral goes no further than its digits where something divides. -/
theorem Delimited.ends {rest : List UInt8} (h : Delimited rest) :
    digits rest = ([], rest) ∧ fraction? rest = some (none, rest) ∧ exponent? rest = some (none, rest) := by
  cases rest with
  | nil => exact ⟨rfl, rfl, rfl⟩
  | cons b rest =>
    have hb := h b rfl
    simp only [List.mem_cons, List.not_mem_nil, or_false] at hb
    rcases hb with rfl | rfl | rfl | rfl <;> exact ⟨rfl, rfl, rfl⟩

theorem digits_run {ds : List Char} (h : ∀ c ∈ ds, c.isDigit = true) {rest : List UInt8}
    (hrest : Delimited rest) : digits (ds.map code ++ rest) = (ds.map fun c => c.toNat - 0x30, rest) := by
  induction ds with
  | nil => exact hrest.ends.1
  | cons c ds ih =>
    have hds : ∀ d ∈ ds, d.isDigit = true := fun d hd => h d (List.mem_cons_of_mem c hd)
    rw [List.map_cons, List.cons_append, digits, digit?_of_isDigit (h c (List.mem_cons_self ..))]
    simp only [ih hds, List.map_cons]

theorem number?_numeral (negative : Bool) (n : Nat) {rest : List UInt8} (hrest : Delimited rest) :
    number? negative (utf8 (numeral n) ++ rest) = some (⟨negative, digitValues n, none, none⟩, rest) := by
  have hdigits : digits (utf8 (numeral n) ++ rest) = (digitValues n, rest) := by
    rw [utf8_digits (isDigit_of_mem_numeral n)]
    exact digits_run (isDigit_of_mem_numeral n) hrest
  have hwhole : ¬ (digitValues n = [] ∨ (digitValues n).head? = some 0 ∧ (digitValues n).length ≠ 1) := by
    rintro (h | ⟨h, hlen⟩)
    · exact digitValues_ne_nil n h
    · by_cases hn : n = 0
      · subst hn
        exact hlen (by simp [digitValues, numeral])
      · exact head?_digitValues hn h
  obtain ⟨-, hfraction, hexponent⟩ := hrest.ends
  simp only [number?, hdigits, if_neg hwhole, hfraction, Option.bind_eq_bind, Option.bind_some, hexponent]
  rfl

theorem wholeValue_digitValues (negative : Bool) (n : Nat) :
    Numeral.wholeValue ⟨negative, digitValues n, none, none⟩ = n := by
  rw [Numeral.wholeValue, digitValues, List.foldl_map]
  exact numeralValue_numeral n

@[simp] theorem int?_ofInt (i : Int) : (Numeral.ofInt i).int? = some i := by
  have hwhole := wholeValue_digitValues (decide (i < 0)) i.natAbs
  by_cases hi : i < 0
  · have hne : i.natAbs ≠ 0 := by omega
    have hvalue : -(i.natAbs : Int) = i := by omega
    rw [decide_eq_true hi] at hwhole
    simp only [Numeral.ofInt, Numeral.int?, decide_eq_true hi, hwhole, Option.isSome_none, Bool.false_eq_true,
      or_self, if_false, if_true, if_neg hne, hvalue]
  · have hvalue : (i.natAbs : Int) = i := by omega
    rw [decide_eq_false hi] at hwhole
    simp only [Numeral.ofInt, Numeral.int?, decide_eq_false hi, hwhole, Option.isSome_none, Bool.false_eq_true,
      or_self, if_false, hvalue]

/-! ## Tokens -/

theorem tokens?_cons {b : UInt8} {bs rest : List UInt8} {t : Token} (hb : isBlank b = false)
    (h : token? (b :: bs) = some (t, rest)) : tokens? (b :: bs) = (tokens? rest).map (t :: ·) := by
  rw [tokens?, hb]
  simp only [Bool.false_eq_true, if_false]
  split
  · rename_i hnone
    cases hnone.symm.trans h
  · rename_i t' more hsome
    obtain ⟨rfl, rfl⟩ := Prod.mk.inj (Option.some.inj (hsome.symm.trans h))
    rfl

theorem tokens?_punctuation {b : UInt8} {t : Token} (hb : isBlank b = false) (h : punctuation? b = some t)
    (rest : List UInt8) : tokens? (b :: rest) = (tokens? rest).map (t :: ·) := by
  refine tokens?_cons hb ?_
  rw [token?, h]

theorem tokens?_text (s : String) (rest : List UInt8) :
    tokens? (utf8 (textChars s) ++ rest) = (tokens? rest).map (.text (RawText.ofString s) :: ·) := by
  have hquote : String.utf8EncodeChar '"' = [code '"'] := utf8EncodeChar_ascii (by decide)
  rw [textChars, List.cons_append, utf8_cons, hquote, List.append_assoc, List.singleton_append]
  refine tokens?_cons (by decide) ?_
  have hpunctuation : punctuation? (code '"') = none := by decide
  rw [token?, hpunctuation]
  simp only [if_true, rawText?_text]
  rfl

/-- Nothing but a number starts with a digit. -/
structure StartsNumber (b : UInt8) : Prop where
  blank : isBlank b = false
  punctuation : punctuation? b = none
  others : b ≠ code '"' ∧ b ≠ code '-' ∧ b ≠ code 'n' ∧ b ≠ code 't' ∧ b ≠ code 'f'

theorem startsNumber {c : Char} (h : c.isDigit = true) : StartsNumber (code c) := by
  have hrange := toNat_of_isDigit h
  have hdigit : code c = (48 + (⟨c.toNat - 48, by omega⟩ : Fin 10).val).toUInt8 := by
    rw [code]
    congr 1
    show c.toNat = 48 + (c.toNat - 48)
    omega
  have hall : ∀ d : Fin 10, isBlank (48 + d.val).toUInt8 = false ∧ punctuation? (48 + d.val).toUInt8 = none ∧
      (48 + d.val).toUInt8 ≠ code '"' ∧ (48 + d.val).toUInt8 ≠ code '-' ∧ (48 + d.val).toUInt8 ≠ code 'n' ∧
      (48 + d.val).toUInt8 ≠ code 't' ∧ (48 + d.val).toUInt8 ≠ code 'f' := by decide
  rw [hdigit]
  obtain ⟨hblank, hpunctuation, hothers⟩ := hall ⟨c.toNat - 48, by omega⟩
  exact ⟨hblank, hpunctuation, hothers⟩

theorem ofInt_negSucc (n : Nat) : Numeral.ofInt (.negSucc n) = ⟨true, digitValues (n + 1), none, none⟩ := by
  rw [Numeral.ofInt, decide_eq_true (Int.negSucc_lt_zero n)]
  rfl

theorem tokens?_int (i : Int) {rest : List UInt8} (hrest : Delimited rest) :
    tokens? (utf8 (intChars i) ++ rest) = (tokens? rest).map (.number (Numeral.ofInt i) :: ·) := by
  cases i with
  | ofNat n =>
    have hn := number?_numeral false n hrest
    have hdigits := isDigit_of_mem_numeral n
    rw [intChars]
    cases hcs : numeral n with
    | nil => exact absurd hcs (numeral_ne_nil n)
    | cons c cs =>
      rw [hcs] at hn hdigits
      obtain ⟨hblank, hpunctuation, hquote, hminus, hnull, htrue, hfalse⟩ :=
        startsNumber (hdigits c (List.mem_cons_self ..))
      rw [utf8_digits hdigits, List.map_cons, List.cons_append] at hn ⊢
      refine tokens?_cons hblank ?_
      rw [token?, hpunctuation]
      simp only [if_neg hquote, if_neg hminus, if_neg hnull, if_neg htrue, if_neg hfalse, hn]
      rfl
  | negSucc n =>
    have hminus : String.utf8EncodeChar '-' = [code '-'] := utf8EncodeChar_ascii (by decide)
    have hpunctuation : punctuation? (code '-') = none := by decide
    have hquote : code '-' ≠ code '"' := by decide
    rw [intChars, utf8_cons, hminus, List.append_assoc, List.singleton_append]
    refine tokens?_cons (by decide) ?_
    rw [token?, hpunctuation]
    simp only [if_neg hquote, if_true, number?_numeral true (n + 1) hrest, ofInt_negSucc]
    rfl

theorem tokens?_null (rest : List UInt8) :
    tokens? (utf8 ['n', 'u', 'l', 'l'] ++ rest) = (tokens? rest).map (.null :: ·) := by
  have hchars : utf8 ['n', 'u', 'l', 'l'] = [code 'n', code 'u', code 'l', code 'l'] := by decide
  rw [hchars]
  exact tokens?_cons (by decide) rfl

theorem tokens?_true (rest : List UInt8) :
    tokens? (utf8 ['t', 'r', 'u', 'e'] ++ rest) = (tokens? rest).map (.bool true :: ·) := by
  have hchars : utf8 ['t', 'r', 'u', 'e'] = [code 't', code 'r', code 'u', code 'e'] := by decide
  rw [hchars]
  exact tokens?_cons (by decide) rfl

theorem tokens?_false (rest : List UInt8) :
    tokens? (utf8 ['f', 'a', 'l', 's', 'e'] ++ rest) = (tokens? rest).map (.bool false :: ·) := by
  have hchars : utf8 ['f', 'a', 'l', 's', 'e'] = [code 'f', code 'a', code 'l', code 's', code 'e'] := by decide
  rw [hchars]
  exact tokens?_cons (by decide) rfl

end TableScan.Json
