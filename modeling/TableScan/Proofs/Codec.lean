/-
  TableScan.Proofs.Codec — what readers of values take back from the values that writers make.

  `Reads k d v a` says that `d` finds `a` in what `v` is read as, wherever `k` more arrays and
  objects may nest. There is one lemma for each way to put a reader together; a record is written
  with some of its members, in declared order (`Reads.record`), and for a member that is left out
  the reader has a value of its own (`Members.getD_leftOut`).
-/

import TableScan.Proofs.JsonReading
import TableScan.Json.Decoder

namespace TableScan.Json

open TableScan.Text

/-! ## Plain values are values -/

theorem Value.Plain.mono {k j : Nat} {v : Value} (h : v.Plain k) (hkj : k ≤ j) : v.Plain j := by
  induction h generalizing j with
  | null => exact .null
  | bool b => exact .bool b
  | int hlow hhigh => exact .int hlow hhigh
  | text s => exact .text s
  | array _ ih =>
    obtain ⟨j, rfl⟩ := Nat.exists_eq_add_of_lt hkj
    exact .array fun v hv => ih v hv (by omega)
  | object _ ih =>
    obtain ⟨j, rfl⟩ := Nat.exists_eq_add_of_lt hkj
    exact .object fun m hm => ih m hm (by omega)

mutual

/-- The value with the members of every object in the order of their keys. -/
def Value.sorted : Value → Value
  | .array items => .array (Value.sortedItems items)
  | .object members => .object (Dict.ofList (Value.sortedMembers members)).entries
  | v => v

def Value.sortedItems : List Value → List Value
  | [] => []
  | v :: rest => v.sorted :: Value.sortedItems rest

def Value.sortedMembers : List (String × Value) → List (String × Value)
  | [] => []
  | (k, v) :: rest => (k, v.sorted) :: Value.sortedMembers rest

end

theorem values?_trees {room : Nat} {items : List Value} (h : ∀ v ∈ items, v.tree.value? room = some v.sorted) :
    Tree.values? room (Value.trees items) = some (Value.sortedItems items) := by
  induction items with
  | nil => rw [Value.trees, Tree.values?, Value.sortedItems]
  | cons v rest ih =>
    have hv := h v (List.mem_cons_self ..)
    have hrest := ih fun u hu => h u (List.mem_cons_of_mem v hu)
    rw [Value.trees, Tree.values?, hv, hrest, Value.sortedItems]
    rfl

theorem memberValues?_trees {room : Nat} {members : List (String × Value)}
    (h : ∀ m ∈ members, m.2.tree.value? room = some m.2.sorted) :
    Tree.memberValues? room (Value.memberTrees members) = some (Value.sortedMembers members) := by
  induction members with
  | nil => rw [Value.memberTrees, Tree.memberValues?, Value.sortedMembers]
  | cons m rest ih =>
    obtain ⟨k, v⟩ := m
    have hv := h (k, v) (List.mem_cons_self ..)
    have hrest := ih fun u hu => h u (List.mem_cons_of_mem _ hu)
    rw [Value.memberTrees, Tree.memberValues?, decode?_ofString, hv, hrest, Value.sortedMembers]
    rfl

/-- Read without a type, a plain value is itself but for the order of its members. -/
theorem Value.Plain.value? {k : Nat} {v : Value} (h : v.Plain k) (room : Nat) :
    v.tree.value? (room + k) = some v.sorted := by
  induction h with
  | null => rw [tree, Tree.value?, sorted] <;> simp
  | bool b => rw [tree, Tree.value?, sorted] <;> simp
  | @int _ i hlow hhigh =>
    rw [tree, Tree.value?, Numeral.value?, int?_ofInt, sorted]
    · exact if_pos ⟨hlow, hhigh⟩
    · simp
    · simp
  | text s => rw [tree, Tree.value?, decode?_ofString, Option.map_some, sorted] <;> simp
  | array _ ih => rw [tree, ← Nat.add_assoc, Tree.value?, values?_trees ih, Option.map_some, sorted]
  | object _ ih => rw [tree, ← Nat.add_assoc, Tree.value?, memberValues?_trees ih, Option.map_some, sorted]

/-! ## What is read back -/

/-- The reader finds `a` in what the value is read as, wherever `k` more arrays and objects may nest. -/
structure Reads {α : Type} (k : Nat) (d : Decoder α) (v : Value) (a : α) : Prop where
  plain : v.Plain k
  reads : ∀ room, d (room + k) v.tree = some a

namespace Reads

variable {α β : Type} {k j : Nat} {d : Decoder α} {v : Value} {a : α}

theorem mono (h : Reads k d v a) (hkj : k ≤ j) : Reads j d v a where
  plain := h.plain.mono hkj
  reads room := by
    -- The nesting that is not used up is room.
    have hroom : room + j = (room + (j - k)) + k := by omega
    rw [hroom]
    exact h.reads _

/-- A document that nests no deeper than documents may is read back from its text. -/
theorem ofString? (h : Reads k d v a) (hk : k ≤ nestingLimit) : d.ofString? v.render = some a := by
  have htree : Tree.ofBytes? v.render.toUTF8.toList = some v.tree := h.plain.ofString?_render
  have hread := (h.mono hk).reads 0
  rw [Nat.zero_add] at hread
  rw [Decoder.ofString?, Decoder.ofBytes?, htree]
  exact hread

theorem map (f : α → β) (h : Reads k d v a) : Reads k (fun room t => (d room t).map f) v (f a) where
  plain := h.plain
  reads room := by rw [h.reads, Option.map_some]

theorem text (s : String) : Reads k .text (.text s) s where
  plain := .text s
  reads _ := decode?_ofString s

theorem bool (b : Bool) : Reads k .bool (.bool b) b where
  plain := .bool b
  reads _ := rfl

theorem intBetween {low high i : Int} (hlow : low ≤ i) (hhigh : i < high)
    (hplain : Int64.minValue.toInt ≤ low ∧ high ≤ UInt64.size) :
    Reads k (.intBetween low high) (.int i) i where
  plain := .int (by omega) (by omega)
  reads _ := by
    rw [Value.tree, Decoder.intBetween, int?_ofInt, Option.filter_some, if_pos]
    exact decide_eq_true ⟨hlow, hhigh⟩

/-- The words differ in their sizes only. -/
theorem word {size n : Nat} (ofNat : Nat → β) (hn : n < size) (hsize : (size : Int) ≤ UInt64.size) :
    Reads k (fun room t => (Decoder.intBetween 0 size room t).map fun i => ofNat i.toNat) (.int n) (ofNat n) :=
  (intBetween (Int.natCast_nonneg n) (Int.ofNat_lt.mpr hn) ⟨by decide, hsize⟩).map fun i => ofNat i.toNat

theorem uint8 (n : UInt8) : Reads k .uint8 (.int n.toNat) n := by
  have h := word (k := k) UInt8.ofNat n.toNat_lt (by decide)
  rwa [UInt8.ofNat_toNat] at h

theorem uint32 (n : UInt32) : Reads k .uint32 (.int n.toNat) n := by
  have h := word (k := k) UInt32.ofNat n.toNat_lt (by decide)
  rwa [UInt32.ofNat_toNat] at h

theorem uint64 (n : UInt64) : Reads k .uint64 (.int n.toNat) n := by
  have h := word (k := k) UInt64.ofNat n.toNat_lt (by decide)
  rwa [UInt64.ofNat_toNat] at h

theorem int32 (i : Int32) : Reads k .int32 (.int i.toInt) i := by
  have h := (intBetween (k := k) i.minValue_le_toInt (Int.lt_add_one_of_le i.toInt_le)
    (by decide)).map Int32.ofInt
  rwa [Int32.ofInt_toInt] at h

theorem absent (d : Decoder α) : Reads k d.optional .null none where
  plain := .null
  reads _ := rfl

theorem present (h : Reads k d v a) (hv : v.tree ≠ .null) : Reads k d.optional v (some a) where
  plain := h.plain
  reads room := by
    have hread := h.reads room
    cases ht : v.tree with
    | null => exact absurd ht hv
    | _ => rw [ht] at hread; rw [Decoder.optional, hread] <;> simp

end Reads

/-! ## Lists and maps -/

theorem mapM_map {α β γ : Type} {f : α → β} {g : β → Option γ} {h : α → γ} (hg : ∀ a, g (f a) = some (h a))
    (l : List α) : (l.map f).mapM g = some (l.map h) := by
  induction l with
  | nil => rfl
  | cons a rest ih =>
    rw [List.map_cons, List.mapM_cons, hg, ih]
    rfl

namespace Reads

variable {α : Type} {k : Nat} {d : Decoder α}

theorem list {toJson : α → Value} (h : ∀ a, Reads k d (toJson a) a) (items : List α) :
    Reads (k + 1) d.list (.array (items.map toJson)) items where
  plain := by
    refine .array ?_
    intro v hv
    obtain ⟨a, -, rfl⟩ := List.mem_map.mp hv
    exact (h a).plain
  reads room := by
    have hitems := mapM_map (fun a => (h a).reads room) items
    rw [List.map_id'] at hitems
    rw [Value.tree, Value.trees_eq, List.map_map]
    exact hitems

/-- A map is written in the order of its keys, and its entries make it up again. -/
theorem dict {K : Type} [Ord K] [Std.TransOrd K] [Std.LawfulEqOrd K] [DecidableEq K] {key : RawText → Option K}
    {toKey : K → String} {toJson : α → Value} (hkey : ∀ i, key (.ofString (toKey i)) = some i)
    (h : ∀ a, Reads k d (toJson a) a) (m : Dict K α) :
    Reads (k + 1) (.dict key d) (.object (m.entries.map fun e => (toKey e.1, toJson e.2))) m where
  plain := by
    refine .object ?_
    intro e he
    obtain ⟨e, -, rfl⟩ := List.mem_map.mp he
    exact (h e.2).plain
  reads room := by
    rw [Value.tree, Value.memberTrees_eq, List.map_map]
    have hentry : ∀ e : K × α, (do
        return ((← key (.ofString (toKey e.1))), (← d (room + k) (toJson e.2).tree))) = some e := by
      intro e
      rw [hkey, (h e.2).reads]
      rfl
    refine (congrArg (Option.map Dict.ofList) (mapM_map hentry m.entries)).trans ?_
    rw [List.map_id', Option.map_some, m.ofList_entries]

end Reads

/-! ## Keys that spell integers -/

theorem toList_signedDecimal (i : Int) : (signedDecimal i).toList = intChars i := by
  cases i with
  | ofNat n => exact String.toList_ofList
  | negSucc n =>
    rw [signedDecimal, String.toList_append, decimal, String.toList_ofList, String.toList_ofList, intChars]
    rfl

theorem isDigit_or_minus {i : Int} {c : Char} (h : c ∈ intChars i) : c.isDigit = true ∨ c = '-' := by
  cases i with
  | ofNat n => exact .inl (isDigit_of_mem_numeral n c h)
  | negSucc n =>
    rcases List.mem_cons.mp h with rfl | h
    · exact .inr rfl
    · exact .inl (isDigit_of_mem_numeral (n + 1) c h)

/-- Texts without controls stand for their bytes. -/
theorem ofString_bytes {cs : List Char} (h : ∀ c ∈ cs, ¬ c.toNat < 0x20) :
    cs.flatMap piecesOf = (utf8 cs).map .byte := by
  induction cs with
  | nil => rfl
  | cons c cs ih =>
    have hc : piecesOf c = (String.utf8EncodeChar c).map .byte :=
      if_neg fun hlow => h c (List.mem_cons_self ..) hlow.1
    rw [List.flatMap_cons, hc, ih fun d hd => h d (List.mem_cons_of_mem c hd), utf8_cons, List.map_append]

theorem int32Key_bytes (b : UInt8) (more : List UInt8) :
    Decoder.int32Key ((b :: more).map .byte) =
      (if b = code '-' then number? true more else number? false (b :: more)).bind
        fun r => if r.2 = [] then Decoder.int32 0 (.number r.1) else none := by
  rw [Decoder.int32Key]
  refine (congrArg (· >>= _) (mapM_map (f := Piece.byte) (h := fun b => b) (fun _ => rfl) (b :: more))).trans ?_
  rw [List.map_id', Option.bind_eq_bind, Option.bind_some]
  by_cases hb : b = code '-'
  · simp only [if_pos hb]
    rfl
  · simp only [if_neg hb]
    rfl

theorem int32Key_signedDecimal (i : Int32) :
    Decoder.int32Key (.ofString (signedDecimal i.toInt)) = some i := by
  have hplain : ∀ c ∈ intChars i.toInt, ¬ c.toNat < 0x20 := by
    intro c hc
    rcases isDigit_or_minus hc with hc | rfl
    · have hrange := toNat_of_isDigit hc
      omega
    · decide
  have hread : Decoder.int32 0 (.number (Numeral.ofInt i.toInt)) = some i := (Reads.int32 (k := 0) i).reads 0
  rw [RawText.ofString, toList_signedDecimal, ofString_bytes hplain]
  cases hi : i.toInt with
  | ofNat n =>
    have hn := number?_numeral false n delimited_nil
    have hdigits := isDigit_of_mem_numeral n
    rw [hi] at hread
    rw [List.append_nil] at hn
    rw [intChars]
    cases hcs : numeral n with
    | nil => exact absurd hcs (numeral_ne_nil n)
    | cons c cs =>
      -- A digit in front is no minus, so the whole key is read as a numeral without one.
      rw [hcs] at hn hdigits
      obtain ⟨-, hminus, -⟩ := (startsNumber (hdigits c (List.mem_cons_self ..))).others
      rw [utf8_digits hdigits, List.map_cons] at hn ⊢
      rw [int32Key_bytes, if_neg hminus, hn, Option.bind_some, if_pos rfl]
      exact hread
  | negSucc n =>
    have hn := number?_numeral true (n + 1) delimited_nil
    have hminus : String.utf8EncodeChar '-' = [code '-'] := utf8EncodeChar_ascii (by decide)
    rw [hi, ofInt_negSucc] at hread
    rw [List.append_nil] at hn
    rw [intChars, utf8_cons, hminus, List.singleton_append, int32Key_bytes, if_pos rfl, hn,
      Option.bind_some, if_pos rfl]
    exact hread

/-! ## Records -/

/-- Members of a record in declared order, some of them left out. -/
inductive Written (k : Nat) : List String → List (String × Value) → Prop
  | nil : Written k [] []
  | member (name : String) {v : Value} {names : List String} {members : List (String × Value)} :
      v.Plain k → Written k names members → Written k (name :: names) ((name, v) :: members)
  | leftOut (name : String) {names : List String} {members : List (String × Value)} :
      Written k names members → Written k (name :: names) members

namespace Written

variable {k : Nat} {names names' : List String} {members members' : List (String × Value)}

theorem sublist (h : Written k names members) : (members.map (·.1)).Sublist names := by
  induction h with
  | nil => exact .slnil
  | member name _ _ ih => exact ih.cons_cons name
  | leftOut name _ ih => exact ih.cons name

theorem plain (h : Written k names members) : ∀ m ∈ members, m.2.Plain k := by
  induction h with
  | nil => exact List.forall_mem_nil _
  | member name hv _ ih => exact List.forall_mem_cons.mpr ⟨hv, ih⟩
  | leftOut name _ ih => exact ih

theorem append (h : Written k names members) (h' : Written k names' members') :
    Written k (names ++ names') (members ++ members') := by
  induction h with
  | nil => exact h'
  | member name hv _ ih => exact .member name hv ih
  | leftOut name _ ih => exact .leftOut name ih

end Written

/-- The members that these values are read as. -/
def Members.ofValues (room : Nat) (members : List (String × Value)) : Members :=
  ⟨room, members.map fun m => (m.1, m.2.tree)⟩

namespace Members

variable {α : Type} {k : Nat} {d : Decoder α} {members : List (String × Value)} {name : String} {a : α}

theorem lookup_given (room : Nat) (members : List (String × Value)) (name : String) :
    (ofValues room members).given.lookup name = (members.lookup name).map Value.tree := by
  rw [ofValues]
  induction members with
  | nil => rfl
  | cons m rest ih =>
    rw [List.map_cons, List.lookup_cons, List.lookup_cons, ih]
    cases name == m.1 <;> rfl

theorem required_of_lookup {v : Value} (h : Reads k d v a) (hv : members.lookup name = some v) (room : Nat) :
    (ofValues (room + k) members).required name d = some a := by
  rw [required, lookup_given, hv]
  exact h.reads room

theorem getD_of_lookup {default : α} {v : Value} (h : Reads k d v a) (hv : members.lookup name = some v)
    (room : Nat) : (ofValues (room + k) members).getD name d default = some a := by
  rw [getD, lookup_given, hv]
  exact h.reads room

theorem getD_leftOut {default : α} (hnone : members.lookup name = none) (room : Nat) :
    (ofValues room members).getD name d default = some default := by
  rw [getD, lookup_given, hnone]
  rfl

end Members

theorem Written.ofTree?_object {k : Nat} {names : List String} {members : List (String × Value)}
    (h : Written k names members) (hnames : names.Nodup) (room : Nat) :
    Members.ofTree? names (room + 1) (Value.object members).tree = some (.ofValues room members) := by
  have hmember : ∀ m : String × Value,
      (do return ((← (RawText.ofString m.1).decode?), m.2.tree)) = some (m.1, m.2.tree) := by
    intro m
    rw [decode?_ofString]
    rfl
  have hknown : (members.map fun m => (m.1, m.2.tree)).filter (fun m => names.contains m.1) =
      members.map fun m => (m.1, m.2.tree) := by
    refine List.filter_eq_self.mpr ?_
    intro m hm
    obtain ⟨w, hw, rfl⟩ := List.mem_map.mp hm
    exact List.contains_iff_mem.mpr (h.sublist.subset (List.mem_map_of_mem hw))
  have hdistinct : ((members.map fun m => (m.1, m.2.tree)).map (·.1)).Nodup := by
    rw [List.map_map]
    exact h.sublist.nodup hnames
  rw [Value.tree, Value.memberTrees_eq]
  refine (congrArg (· >>= _) (mapM_map hmember members)).trans ?_
  rw [Option.bind_eq_bind, Option.bind_some]
  dsimp only
  rw [hknown, if_pos hdistinct]
  rfl

namespace Reads

variable {α : Type} {k : Nat} {members : List (String × Value)} {a : α}

theorem record {names : List String} {build : Members → Option α}
    (hwritten : Written k names members) (hnames : names.Nodup)
    (hbuild : ∀ room, build (.ofValues (room + k) members) = some a) :
    Reads (k + 1) (.record names build) (.object members) a where
  plain := .object hwritten.plain
  reads room := by
    rw [Decoder.record, ← Nat.add_assoc, hwritten.ofTree?_object hnames]
    exact hbuild room

theorem tag_unseen {tag : String} (htag : tag ∉ members.map (·.1)) :
    ∀ m ∈ Value.memberTrees members, m.1.decode? ≠ some tag := by
  intro m hm
  rw [Value.memberTrees_eq] at hm
  obtain ⟨w, hw, rfl⟩ := List.mem_map.mp hm
  rw [decode?_ofString]
  intro h
  exact htag (Option.some.inj h ▸ List.mem_map_of_mem hw)

/-- A record of some kind is written as the record with its tag in front. -/
theorem tagged {tag kind : String} {kinds : List (String × Decoder α)} {d : Decoder α}
    (h : Reads k d (.object members) a) (hkind : kinds.lookup kind = some d)
    (htag : tag ∉ members.map (·.1)) :
    Reads k (.tagged tag kinds) (.object ((tag, .text kind) :: members)) a := by
  have hplain : (Value.object ((tag, .text kind) :: members)).Plain k := by
    cases h.plain with
    | object hmembers => exact .object (List.forall_mem_cons.mpr ⟨.text kind, hmembers⟩)
  refine ⟨hplain, ?_⟩
  intro room
  have hunseen := tag_unseen htag
  have htagged : ((RawText.ofString tag, (Value.text kind).tree) :: Value.memberTrees members).filter
      (·.1.decode? = some tag) = [(RawText.ofString tag, .text (RawText.ofString kind))] := by
    rw [List.filter_cons_of_pos (by simp), List.filter_eq_nil_iff.mpr (by simpa using hunseen)]
    rfl
  have hothers : ((RawText.ofString tag, (Value.text kind).tree) :: Value.memberTrees members).filter
      (·.1.decode? ≠ some tag) = Value.memberTrees members := by
    rw [List.filter_cons_of_neg (by simp), List.filter_eq_self.mpr (by simpa using hunseen)]
  -- A tagged record is refused unless all of it is a value, members that are passed over too.
  have hw := hplain.value? room
  have hread := h.reads room
  rw [Value.tree, Value.memberTrees] at hw ⊢
  rw [Value.tree] at hread
  rw [Decoder.tagged, hw, Option.bind_eq_bind, Option.bind_some, htagged, hothers]
  dsimp only
  rw [decode?_ofString, Option.bind_eq_bind, Option.bind_some, hkind]
  exact hread

end Reads

end TableScan.Json
