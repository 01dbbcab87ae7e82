/-
  TableScan.Proofs.JsonReading — a written JSON text is read as the tree of its value.

  Characters are related to tokens by `Lexes`, which goes through whatever may stand behind them, and
  tokens to trees by running the reader. `Plain` values are those that records are written as:
  no floats, integers of 64 bits, and only so much nesting. `Plain.ofString?_render` puts the
  two together.
-/

import TableScan.Proofs.JsonText

namespace TableScan.Json

/-! ## Trees of values -/

mutual

/-- A value as it is read. What is read for a float is not told here. -/
def Value.tree : Value → Tree
  | .null | .float _ => .null
  | .bool b => .bool b
  | .int i => .number (.ofInt i)
  | .text s => .text (.ofString s)
  | .array items => .array (Value.trees items)
  | .object members => .object (Value.memberTrees members)

def Value.trees : List Value → List Tree
  | [] => []
  | v :: rest => v.tree :: Value.trees rest

def Value.memberTrees : List (String × Value) → List (RawText × Tree)
  | [] => []
  | (k, v) :: rest => (.ofString k, v.tree) :: Value.memberTrees rest

end

theorem Value.trees_eq (items : List Value) : Value.trees items = items.map Value.tree := by
  induction items with
  | nil => rfl
  | cons v rest ih => rw [trees, ih, List.map_cons]

theorem Value.memberTrees_eq (members : List (String × Value)) :
    Value.memberTrees members = members.map fun m => (RawText.ofString m.1, m.2.tree) := by
  induction members with
  | nil => rfl
  | cons m rest ih => rw [memberTrees, ih, List.map_cons]

/-- A value of texts and of integers that 64 bits hold, in which at most so many arrays and objects
nest. -/
inductive Value.Plain : Nat → Value → Prop
  | null {k : Nat} : Plain k .null
  | bool {k : Nat} (b : Bool) : Plain k (.bool b)
  | int {k : Nat} {i : Int} : Int64.minValue.toInt ≤ i → i < UInt64.size → Plain k (.int i)
  | text {k : Nat} (s : String) : Plain k (.text s)
  | array {k : Nat} {items : List Value} : (∀ v ∈ items, Plain k v) → Plain (k + 1) (.array items)
  | object {k : Nat} {members : List (String × Value)} : (∀ m ∈ members, Plain k m.2) →
      Plain (k + 1) (.object members)

/-! ## Tokens of trees -/

mutual

def Tree.tokens : Tree → List Token
  | .null => [.null]
  | .bool b => [.bool b]
  | .number n => [.number n]
  | .text t => [.text t]
  | .array items => .openArray :: (Tree.itemsTokens items ++ [.closeArray])
  | .object members => .openObject :: (Tree.membersTokens members ++ [.closeObject])

def Tree.itemsTokens : List Tree → List Token
  | [] => []
  | [t] => t.tokens
  | t :: u :: rest => t.tokens ++ .comma :: Tree.itemsTokens (u :: rest)

def Tree.membersTokens : List (RawText × Tree) → List Token
  | [] => []
  | [(k, t)] => .text k :: .colon :: t.tokens
  | (k, t) :: m :: rest => .text k :: .colon :: (t.tokens ++ .comma :: Tree.membersTokens (m :: rest))

end

/-- Whatever may stand behind these characters, they come to these tokens. -/
def Lexes (cs : List Char) (ts : List Token) : Prop :=
  ∀ rest, Delimited rest → tokens? (utf8 cs ++ rest) = (tokens? rest).map (ts ++ ·)

theorem lexes_nil : Lexes [] [] := by
  intro rest _
  rw [utf8_nil, List.nil_append]
  cases tokens? rest <;> rfl

theorem delimited_cons {c : Char} (h : c ∈ [',', ':', ']', '\x7d']) (rest : List UInt8) :
    Delimited (code c :: rest) := by
  intro b hb
  obtain rfl : code c = b := by simpa using hb
  simp only [List.mem_cons, List.not_mem_nil, or_false] at h
  rcases h with rfl | rfl | rfl | rfl <;> decide

theorem structural {c : Char} (h : c ∈ ['[', '\x7b', ',', ':', ']', '\x7d']) :
    String.utf8EncodeChar c = [code c] ∧ isBlank (code c) = false := by
  simp only [List.mem_cons, List.not_mem_nil, or_false] at h
  rcases h with rfl | rfl | rfl | rfl | rfl | rfl <;> exact ⟨utf8EncodeChar_ascii (by decide), by decide⟩

/-- What divides is a token of its own, and ends the one before it. -/
theorem Lexes.divided {cs ds : List Char} {ts us : List Token} {c : Char} {t : Token} (h : Lexes cs ts)
    (k : Lexes ds us) (hc : c ∈ [',', ':', ']', '\x7d']) (ht : punctuation? (code c) = some t) :
    Lexes (cs ++ c :: ds) (ts ++ t :: us) := by
  intro rest hrest
  obtain ⟨hascii, hblank⟩ := structural (List.mem_append_right ['[', '\x7b'] hc)
  rw [utf8_append, utf8_cons, hascii, List.append_assoc, List.append_assoc, List.singleton_append,
    h _ (delimited_cons hc _), tokens?_punctuation hblank ht, k rest hrest]
  cases tokens? rest <;> simp

theorem Lexes.opened {cs : List Char} {ts : List Token} {c : Char} {t : Token} (h : Lexes cs ts)
    (hc : c ∈ ['[', '\x7b']) (ht : punctuation? (code c) = some t) : Lexes (c :: cs) (t :: ts) := by
  intro rest hrest
  obtain ⟨hascii, hblank⟩ := structural (List.mem_append_left [',', ':', ']', '\x7d'] hc)
  rw [utf8_cons, hascii, List.append_assoc, List.singleton_append, tokens?_punctuation hblank ht, h rest hrest]
  cases tokens? rest <;> rfl

theorem lexes_text (s : String) : Lexes (textChars s) [.text (.ofString s)] :=
  fun rest _ => tokens?_text s rest

theorem lexes_items {items : List Value} (h : ∀ v ∈ items, Lexes v.chars v.tree.tokens) :
    Lexes (Value.itemsChars items) (Tree.itemsTokens (Value.trees items)) := by
  induction items with
  | nil => exact lexes_nil
  | cons v rest ih =>
    have hv := h v (List.mem_cons_self ..)
    have hrest := ih fun w hw => h w (List.mem_cons_of_mem v hw)
    cases rest with
    | nil => exact hv
    | cons w rest => exact hv.divided hrest (by decide) rfl

theorem lexes_members {members : List (String × Value)} (h : ∀ m ∈ members, Lexes m.2.chars m.2.tree.tokens) :
    Lexes (Value.membersChars members) (Tree.membersTokens (Value.memberTrees members)) := by
  induction members with
  | nil => exact lexes_nil
  | cons m rest ih =>
    obtain ⟨k, v⟩ := m
    have hv : Lexes (textChars k ++ ':' :: v.chars) ([.text (.ofString k)] ++ .colon :: v.tree.tokens) :=
      (lexes_text k).divided (h (k, v) (List.mem_cons_self ..)) (by decide) rfl
    have hrest := ih fun w hw => h w (List.mem_cons_of_mem _ hw)
    cases rest with
    | nil => exact hv
    | cons w rest => exact hv.divided hrest (by decide) rfl

theorem Value.Plain.lexes {k : Nat} {v : Value} (h : v.Plain k) : Lexes v.chars v.tree.tokens := by
  induction h with
  | null => exact fun rest _ => tokens?_null rest
  | bool b =>
    cases b with
    | true => exact fun rest _ => tokens?_true rest
    | false => exact fun rest _ => tokens?_false rest
  | int _ _ => exact fun rest hrest => tokens?_int _ hrest
  | text s => exact lexes_text s
  | array _ ih => exact ((lexes_items ih).divided lexes_nil (by decide) rfl).opened (by decide) rfl
  | object _ ih => exact ((lexes_members ih).divided lexes_nil (by decide) rfl).opened (by decide) rfl

/-! ## Trees of tokens -/

namespace Tree.Reader

theorem run_cons {r r' : Reader} {t : Token} (h : r.step t = some r') (ts : List Token) :
    r.run (t :: ts) = r'.run ts := by
  rw [run, h]
  rfl

theorem tokens_cons (t : Tree) : ∃ first rest, t.tokens = first :: rest ∧ first ≠ .closeArray := by
  cases t <;> exact ⟨_, _, by rw [Tree.tokens], by simp⟩

/-- The first item of an array is read like any other. -/
theorem run_firstItem (t : Tree) (around : List Unfinished) (ts : List Token) :
    (firstItem around).run (t.tokens ++ ts) = (value (.array [] :: around)).run (t.tokens ++ ts) := by
  obtain ⟨first, rest, ht, hne⟩ := tokens_cons t
  have hstep : (firstItem around).step first = (value (.array [] :: around)).step first := by
    cases first with
    | closeArray => exact absurd rfl hne
    | _ => rfl
  rw [ht, List.cons_append, run, run, hstep]

end Tree.Reader

/-- The tree is read from its tokens, whatever is unfinished around it. -/
def Tree.IsRead (t : Tree) : Prop := ∀ (around : List Tree.Unfinished) (ts : List Token),
  (Tree.Reader.value around).run (t.tokens ++ ts) = (Tree.Reader.finished t around).run ts

section IsRead

open Tree.Reader

/-- Items are read behind those that were read before, which stand latest first. -/
theorem run_items {t : Tree} {rest : List Tree} (h : ∀ u ∈ t :: rest, u.IsRead) (before : List Tree)
    (around : List Tree.Unfinished) (ts : List Token) :
    (value (.array before :: around)).run (Tree.itemsTokens (t :: rest) ++ .closeArray :: ts) =
      (finished (.array (before.reverse ++ t :: rest)) around).run ts := by
  have ht := h t (List.mem_cons_self ..)
  induction rest generalizing t before with
  | nil =>
    rw [Tree.itemsTokens, ht]
    refine (run_cons rfl ts).trans ?_
    rw [List.reverse_cons]
  | cons u rest ih =>
    have hrest : ∀ w ∈ u :: rest, w.IsRead := fun w hw => h w (List.mem_cons_of_mem t hw)
    rw [Tree.itemsTokens, List.append_assoc, List.cons_append, ht]
    refine (run_cons rfl _).trans ?_
    rw [ih hrest (t :: before) (hrest u (List.mem_cons_self ..)), List.reverse_cons, List.append_assoc]
    rfl

theorem isRead_array {items : List Tree} (h : ∀ t ∈ items, t.IsRead) : (Tree.array items).IsRead := by
  intro around ts
  rw [Tree.tokens, List.cons_append, List.append_assoc, List.singleton_append]
  cases items with
  | nil => exact (run_cons rfl _).trans (run_cons rfl ts)
  | cons t rest =>
    have hfirst : ∃ more, Tree.itemsTokens (t :: rest) ++ Token.closeArray :: ts = t.tokens ++ more := by
      cases rest with
      | nil => exact ⟨_, rfl⟩
      | cons u rest => exact ⟨_, List.append_assoc ..⟩
    obtain ⟨more, hmore⟩ := hfirst
    have hitems := run_items h [] around ts
    rw [hmore] at hitems ⊢
    exact (run_cons rfl _).trans ((run_firstItem t around more).trans hitems)

theorem run_members {m : RawText × Tree} {rest : List (RawText × Tree)} (h : ∀ u ∈ m :: rest, u.2.IsRead)
    (before : List (RawText × Tree)) (around : List Tree.Unfinished) (ts : List Token) :
    (nextKey before around).run (Tree.membersTokens (m :: rest) ++ .closeObject :: ts) =
      (finished (.object (before.reverse ++ m :: rest)) around).run ts := by
  have hm := h m (List.mem_cons_self ..)
  induction rest generalizing m before with
  | nil =>
    obtain ⟨k, t⟩ := m
    rw [Tree.membersTokens, List.cons_append, List.cons_append]
    refine (run_cons rfl _).trans ((run_cons rfl _).trans ?_)
    rw [hm]
    refine (run_cons rfl ts).trans ?_
    rw [List.reverse_cons]
  | cons u rest ih =>
    obtain ⟨k, t⟩ := m
    have hrest : ∀ w ∈ u :: rest, w.2.IsRead := fun w hw => h w (List.mem_cons_of_mem _ hw)
    rw [Tree.membersTokens, List.cons_append, List.cons_append, List.append_assoc, List.cons_append]
    refine (run_cons rfl _).trans ((run_cons rfl _).trans ?_)
    rw [hm]
    refine (run_cons rfl _).trans ?_
    rw [ih hrest ((k, t) :: before) (hrest u (List.mem_cons_self ..)), List.reverse_cons, List.append_assoc]
    rfl

theorem isRead_object {members : List (RawText × Tree)} (h : ∀ m ∈ members, m.2.IsRead) :
    (Tree.object members).IsRead := by
  intro around ts
  rw [Tree.tokens, List.cons_append, List.append_assoc, List.singleton_append]
  cases members with
  | nil => exact (run_cons rfl _).trans (run_cons rfl ts)
  | cons m rest =>
    have hfirst : (firstKey around).run (Tree.membersTokens (m :: rest) ++ .closeObject :: ts) =
        (nextKey [] around).run (Tree.membersTokens (m :: rest) ++ .closeObject :: ts) := by
      obtain ⟨k, t⟩ := m
      cases rest <;> exact (run_cons rfl _).trans (run_cons rfl _).symm
    exact (run_cons rfl _).trans (hfirst.trans (run_members h [] around ts))

theorem Value.Plain.isRead {k : Nat} {v : Value} (h : v.Plain k) : v.tree.IsRead := by
  induction h with
  | null | bool b | int _ _ | text s => exact fun around ts => run_cons rfl ts
  | array _ ih =>
    refine isRead_array ?_
    intro t ht
    rw [Value.trees_eq, List.mem_map] at ht
    obtain ⟨v, hv, rfl⟩ := ht
    exact ih v hv
  | object _ ih =>
    refine isRead_object ?_
    intro m hm
    rw [Value.memberTrees_eq, List.mem_map] at hm
    obtain ⟨m, hm, rfl⟩ := hm
    exact ih m hm

end IsRead

/-- What a plain value is written as is read as its tree. -/
theorem Value.Plain.ofString?_render {k : Nat} {v : Value} (h : v.Plain k) :
    Tree.ofString? v.render = some v.tree := by
  have hbytes : v.render.toUTF8.toList = utf8 v.chars := by
    rw [← utf8_toList, Value.render, String.toList_ofList]
  have htokens : tokens? (utf8 v.chars) = some v.tree.tokens := by
    have := h.lexes [] delimited_nil
    rw [List.append_nil, tokens?] at this
    simpa using this
  have hread := h.isRead [] []
  rw [List.append_nil] at hread
  rw [Tree.ofString?, Tree.ofBytes?, hbytes, htokens]
  show (Tree.Reader.value []).run v.tree.tokens >>= Tree.Reader.result? = _
  rw [hread]
  rfl

end TableScan.Json
