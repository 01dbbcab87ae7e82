/-
  TableScan.Proofs.FreeValues — values that documents hold without a type, such as the filter of a
  scan.

  - `WellFormed`: the values that reading gives. Members ascend by key and integers are of 64 bits
    (`wellFormed_of_value?`), and only the null is read as one (`eq_null_of_value?`).
  - `value?_eq`: a tree is refused for want of room if it nests deeper than the room, and only then
    (`Value.ofString?_eq_some`).
  - `WellFormed.ofString?_render`: one without floats that nests no deeper than documents may is
    read back as itself.
-/

import TableScan.Proofs.Codec

namespace TableScan.Json

/-! ## Values as they are read -/

/-- A value as reading gives it. Whether it may hold floats is up to whoever asks. -/
inductive Value.WellFormed (floats : Prop) : Value → Prop
  | null : WellFormed floats .null
  | bool (b : Bool) : WellFormed floats (.bool b)
  | int {i : Int} : Int64.minValue.toInt ≤ i → i < UInt64.size → WellFormed floats (.int i)
  | float (x : Number.Binary64) : floats → WellFormed floats (.float x)
  | text (s : String) : WellFormed floats (.text s)
  | array {items : List Value} : (∀ v ∈ items, WellFormed floats v) → WellFormed floats (.array items)
  | object {members : List (String × Value)} : members.Pairwise (fun a b => compare a.1 b.1 = .lt) →
      (∀ m ∈ members, WellFormed floats m.2) → WellFormed floats (.object members)

theorem wellFormed_of_float? {n : Numeral} {v : Value} (h : n.float?.map Value.float = some v) :
    v.WellFormed True := by
  obtain ⟨x, -, rfl⟩ := Option.map_eq_some_iff.mp h
  exact .float x trivial

theorem wellFormed_of_number {n : Numeral} {v : Value} (h : n.value? = some v) : v.WellFormed True := by
  unfold Numeral.value? at h
  split at h
  · split at h
    · rename_i hrange
      cases h
      exact .int hrange.1 hrange.2
    · exact wellFormed_of_float? h
  · exact wellFormed_of_float? h

/-- Of members with one key the last is kept, and nothing is kept that was not there. -/
theorem mem_ofList {K V : Type} [Ord K] [Std.TransOrd K] [Std.LawfulEqOrd K] {pairs : List (K × V)} {e : K × V}
    (h : e ∈ (Dict.ofList pairs).entries) : e ∈ pairs := by
  have hfold : ∀ (pairs : List (K × V)) (d : Dict K V),
      e ∈ (pairs.foldl (fun d e => d.insert e.1 e.2) d).entries → e ∈ d.entries ∨ e ∈ pairs := by
    intro pairs
    induction pairs with
    | nil => exact fun d h => .inl h
    | cons a rest ih =>
      intro d h
      rcases ih _ h with h | h
      · rcases Dict.mem_place h with rfl | h
        · exact .inr (List.mem_cons_self ..)
        · exact .inl h
      · exact .inr (List.mem_cons_of_mem a h)
  exact (hfold pairs .empty h).resolve_left (List.not_mem_nil)

mutual

theorem wellFormed_of_value? : ∀ {t : Tree} {room : Nat} {v : Value}, t.value? room = some v → v.WellFormed True
  | .null, _, v, h => by
    rw [Tree.value?] at h
    cases h
    exact .null
  | .bool b, _, v, h => by
    rw [Tree.value?] at h
    cases h
    exact .bool b
  | .number n, _, v, h => by
    rw [Tree.value?] at h
    exact wellFormed_of_number h
  | .text t, _, v, h => by
    rw [Tree.value?] at h
    obtain ⟨s, -, rfl⟩ := Option.map_eq_some_iff.mp h
    exact .text s
  | .array items, 0, v, h => by
    rw [Tree.value?] at h
    cases h
  | .array items, room + 1, v, h => by
    rw [Tree.value?] at h
    obtain ⟨vs, hvs, rfl⟩ := Option.map_eq_some_iff.mp h
    exact .array (wellFormed_of_values? hvs)
  | .object members, 0, v, h => by
    rw [Tree.value?] at h
    cases h
  | .object members, room + 1, v, h => by
    rw [Tree.value?] at h
    obtain ⟨ms, hms, rfl⟩ := Option.map_eq_some_iff.mp h
    exact .object (Dict.ofList ms).ascending fun m hm => wellFormed_of_memberValues? hms m (mem_ofList hm)

theorem wellFormed_of_values? : ∀ {ts : List Tree} {room : Nat} {vs : List Value}, Tree.values? room ts = some vs →
    ∀ v ∈ vs, v.WellFormed True
  | [], _, vs, h => by
    rw [Tree.values?] at h
    cases h
    exact List.forall_mem_nil _
  | t :: rest, room, vs, h => by
    rw [Tree.values?] at h
    obtain ⟨v, hv, h⟩ := Option.bind_eq_some_iff.mp h
    obtain ⟨ws, hws, h⟩ := Option.bind_eq_some_iff.mp h
    cases h
    exact List.forall_mem_cons.mpr ⟨wellFormed_of_value? hv, wellFormed_of_values? hws⟩

theorem wellFormed_of_memberValues? : ∀ {ts : List (RawText × Tree)} {room : Nat} {ms : List (String × Value)},
    Tree.memberValues? room ts = some ms → ∀ m ∈ ms, m.2.WellFormed True
  | [], _, ms, h => by
    rw [Tree.memberValues?] at h
    cases h
    exact List.forall_mem_nil _
  | (k, t) :: rest, room, ms, h => by
    rw [Tree.memberValues?] at h
    obtain ⟨key, -, h⟩ := Option.bind_eq_some_iff.mp h
    obtain ⟨v, hv, h⟩ := Option.bind_eq_some_iff.mp h
    obtain ⟨ws, hws, h⟩ := Option.bind_eq_some_iff.mp h
    cases h
    exact List.forall_mem_cons.mpr ⟨wellFormed_of_value? hv, wellFormed_of_memberValues? hws⟩

end

/-! ## The null -/

theorem number_ne_null {n : Numeral} : n.value? ≠ some .null := by
  intro h
  unfold Numeral.value? at h
  have hfloat : n.float?.map Value.float ≠ some .null := by simp
  split at h
  · split at h
    · cases h
    · exact hfloat h
  · exact hfloat h

/-- Only the null itself is read as one. -/
theorem eq_null_of_value? {room : Nat} {t : Tree} (h : t.value? room = some .null) : t = .null := by
  cases t with
  | null => rfl
  | bool b => rw [Tree.value?] at h; cases h
  | number n => rw [Tree.value?] at h; exact absurd h number_ne_null
  | text t => rw [Tree.value?] at h; simp at h
  | array items =>
    rw [Tree.value?.eq_def] at h
    dsimp only at h
    split at h
    · cases h
    · simp at h
  | object members =>
    rw [Tree.value?.eq_def] at h
    dsimp only at h
    split at h
    · cases h
    · simp at h

theorem Decoder.optional_value {room : Nat} {t : Tree} {v : Value}
    (h : Decoder.optional .value room t = some (some v)) : v.WellFormed True ∧ v ≠ .null := by
  unfold Decoder.optional at h
  split at h
  · cases h
  · rename_i hnull
    obtain ⟨w, hw, hv⟩ := Option.map_eq_some_iff.mp h
    cases hv
    refine ⟨wellFormed_of_value? hw, ?_⟩
    rintro rfl
    exact hnull (eq_null_of_value? hw)

/-! ## Nesting -/

mutual

/-- How deep arrays and objects nest in a value. -/
def Value.nesting : Value → Nat
  | .array items => Value.itemsNesting items + 1
  | .object members => Value.membersNesting members + 1
  | _ => 0

def Value.itemsNesting : List Value → Nat
  | [] => 0
  | v :: rest => max v.nesting (Value.itemsNesting rest)

def Value.membersNesting : List (String × Value) → Nat
  | [] => 0
  | (_, v) :: rest => max v.nesting (Value.membersNesting rest)

end

theorem nesting_le_items {items : List Value} {v : Value} (h : v ∈ items) : v.nesting ≤ Value.itemsNesting items := by
  induction items with
  | nil => cases h
  | cons w rest ih =>
    rw [Value.itemsNesting]
    rcases List.mem_cons.mp h with rfl | h
    · exact Nat.le_max_left ..
    · exact Nat.le_trans (ih h) (Nat.le_max_right ..)

theorem nesting_le_members {members : List (String × Value)} {m : String × Value} (h : m ∈ members) :
    m.2.nesting ≤ Value.membersNesting members := by
  induction members with
  | nil => cases h
  | cons w rest ih =>
    obtain ⟨k, w⟩ := w
    rw [Value.membersNesting]
    rcases List.mem_cons.mp h with rfl | h
    · exact Nat.le_max_left ..
    · exact Nat.le_trans (ih h) (Nat.le_max_right ..)

mutual

/-- How deep arrays and objects nest in a tree, those included that its value leaves out. -/
def Tree.nesting : Tree → Nat
  | .array items => Tree.itemsNesting items + 1
  | .object members => Tree.membersNesting members + 1
  | _ => 0

def Tree.itemsNesting : List Tree → Nat
  | [] => 0
  | t :: rest => max t.nesting (Tree.itemsNesting rest)

def Tree.membersNesting : List (RawText × Tree) → Nat
  | [] => 0
  | (_, t) :: rest => max t.nesting (Tree.membersNesting rest)

end

mutual

/-- The value of a tree, however deep it nests. -/
def Tree.content? : Tree → Option Value
  | .null => some .null
  | .bool b => some (.bool b)
  | .number n => n.value?
  | .text t => t.decode?.map .text
  | .array items => (Tree.contents? items).map .array
  | .object members => (Tree.memberContents? members).map fun ms => .object (Dict.ofList ms).entries

def Tree.contents? : List Tree → Option (List Value)
  | [] => some []
  | t :: rest => do return (← t.content?) :: (← Tree.contents? rest)

def Tree.memberContents? : List (RawText × Tree) → Option (List (String × Value))
  | [] => some []
  | (k, t) :: rest => do return ((← k.decode?), (← t.content?)) :: (← Tree.memberContents? rest)

end

mutual

/-- What nests too deep is refused, and nothing else for want of room. -/
theorem value?_eq : ∀ (t : Tree) (room : Nat), t.value? room = if t.nesting ≤ room then t.content? else none
  | .null, _ | .bool _, _ | .number _, _ | .text _, _ => by
    rw [Tree.value?, Tree.nesting, if_pos (Nat.zero_le _), Tree.content?] <;> simp
  | .array items, 0 => by rw [Tree.value?, Tree.nesting, if_neg (by omega)]
  | .array items, room + 1 => by
    rw [Tree.value?, Tree.nesting, Tree.content?, values?_eq items room]
    by_cases h : Tree.itemsNesting items ≤ room <;> simp [h]
  | .object members, 0 => by rw [Tree.value?, Tree.nesting, if_neg (by omega)]
  | .object members, room + 1 => by
    rw [Tree.value?, Tree.nesting, Tree.content?, memberValues?_eq members room]
    by_cases h : Tree.membersNesting members ≤ room <;> simp [h]

theorem values?_eq : ∀ (items : List Tree) (room : Nat),
    Tree.values? room items = if Tree.itemsNesting items ≤ room then Tree.contents? items else none
  | [], _ => by rw [Tree.values?, Tree.itemsNesting, Tree.contents?, if_pos (Nat.zero_le _)]
  | t :: rest, room => by
    rw [Tree.values?, Tree.itemsNesting, Tree.contents?, value?_eq t room, values?_eq rest room]
    simp only [Nat.max_le]
    by_cases ht : t.nesting ≤ room
    · by_cases hrest : Tree.itemsNesting rest ≤ room <;> simp [ht, hrest]
    · simp [ht]

theorem memberValues?_eq : ∀ (members : List (RawText × Tree)) (room : Nat),
    Tree.memberValues? room members = if Tree.membersNesting members ≤ room then Tree.memberContents? members else none
  | [], _ => by rw [Tree.memberValues?, Tree.membersNesting, Tree.memberContents?, if_pos (Nat.zero_le _)]
  | (k, t) :: rest, room => by
    rw [Tree.memberValues?, Tree.membersNesting, Tree.memberContents?, value?_eq t room, memberValues?_eq rest room]
    simp only [Nat.max_le]
    by_cases ht : t.nesting ≤ room
    · by_cases hrest : Tree.membersNesting rest ≤ room <;> simp [ht, hrest]
    · simp [ht]

end

/-- A text is read as a value if its tree is one and nests no deeper than documents may. -/
theorem Value.ofString?_eq_some {s : String} {v : Value} : Value.ofString? s = some v ↔
    ∃ t, Tree.ofString? s = some t ∧ t.nesting ≤ nestingLimit ∧ t.content? = some v := by
  unfold Value.ofString?
  rw [Option.bind_eq_bind, Option.bind_eq_some_iff]
  refine exists_congr fun t => and_congr_right fun _ => ?_
  rw [value?_eq]
  by_cases h : t.nesting ≤ nestingLimit <;> simp [h]

/-! ## Values that are read back -/

namespace Value.WellFormed

variable {floats : Prop} {v : Value} {k : Nat}

theorem plain (h : v.WellFormed False) (hk : v.nesting ≤ k) : v.Plain k := by
  induction h generalizing k with
  | null => exact .null
  | bool b => exact .bool b
  | int hlow hhigh => exact .int hlow hhigh
  | float _ hno => exact hno.elim
  | text s => exact .text s
  | array _ ih =>
    rw [nesting] at hk
    obtain ⟨k, rfl⟩ := Nat.exists_eq_add_of_lt hk
    exact .array fun v hv => ih v hv (Nat.le_trans (nesting_le_items hv) (Nat.le_add_right ..))
  | object _ _ ih =>
    rw [nesting] at hk
    obtain ⟨k, rfl⟩ := Nat.exists_eq_add_of_lt hk
    exact .object fun m hm => ih m hm (Nat.le_trans (nesting_le_members hm) (Nat.le_add_right ..))

theorem sortedItems_eq {items : List Value} (h : ∀ v ∈ items, v.sorted = v) : sortedItems items = items := by
  induction items with
  | nil => rw [sortedItems]
  | cons v rest ih =>
    rw [sortedItems, h v (List.mem_cons_self ..), ih fun w hw => h w (List.mem_cons_of_mem v hw)]

theorem sortedMembers_eq {members : List (String × Value)} (h : ∀ m ∈ members, m.2.sorted = m.2) :
    sortedMembers members = members := by
  induction members with
  | nil => rw [sortedMembers]
  | cons m rest ih =>
    obtain ⟨key, v⟩ := m
    have hv : v.sorted = v := h (key, v) (List.mem_cons_self ..)
    rw [sortedMembers, hv, ih fun w hw => h w (List.mem_cons_of_mem _ hw)]

/-- Nothing is left to be put in order. -/
theorem sorted_eq (h : v.WellFormed floats) : v.sorted = v := by
  induction h with
  | array _ ih => rw [sorted, sortedItems_eq ih]
  | @object members hascending _ ih =>
    rw [sorted, sortedMembers_eq ih]
    exact congrArg (fun d => Value.object d.entries) (Dict.ofList_entries ⟨members, hascending⟩)
  | null | bool | int | float | text => rw [sorted] <;> simp

theorem value? (h : v.WellFormed False) (hk : v.nesting ≤ k) (room : Nat) : v.tree.value? (room + k) = some v := by
  rw [(h.plain hk).value? room, h.sorted_eq]

theorem content?_tree (h : v.WellFormed False) : v.tree.content? = some v := by
  have hread := h.value? (Nat.le_refl _) 0
  rw [value?_eq] at hread
  exact (Option.ite_none_right_eq_some.mp hread).2

theorem tree_ne_null (h : v.WellFormed False) (hv : v ≠ .null) : v.tree ≠ .null := by
  cases h with
  | null => exact absurd rfl hv
  | float _ hno => exact hno.elim
  | _ => simp [Value.tree]

theorem reads (h : v.WellFormed False) (hk : v.nesting ≤ k) : Reads k .value v v := ⟨h.plain hk, h.value? hk⟩

/-- However deep it nests, its text is its tree. -/
theorem treeOfString?_render (h : v.WellFormed False) : Tree.ofString? v.render = some v.tree :=
  (h.plain (Nat.le_refl _)).ofString?_render

theorem ofString?_render (h : v.WellFormed False) (hk : v.nesting ≤ nestingLimit) :
    Value.ofString? v.render = some v := by
  have hread := h.value? hk 0
  rw [Nat.zero_add] at hread
  rw [Value.ofString?, h.treeOfString?_render]
  exact hread

end Value.WellFormed

end TableScan.Json
