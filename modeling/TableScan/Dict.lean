/-
  TableScan.Dict — finite maps whose entries ascend by key. Every map has one list of entries,
  so equal look-ups mean equal maps (`ext_get?`), and writing a map out in key order needs
  no sorting. The view is `get?`; each operation has its equation there (`get?_insert`,
  `get?_overlay`).
-/

namespace TableScan

/-- Keys ascend strictly, so no key occurs twice. -/
structure Dict (K V : Type) [Ord K] where
  entries : List (K × V)
  ascending : entries.Pairwise (fun a b => compare a.1 b.1 = .lt)
  deriving DecidableEq

namespace Dict

variable {K V : Type} [Ord K]

def empty : Dict K V := ⟨[], .nil⟩

instance : Inhabited (Dict K V) := ⟨empty⟩

def lookup (k : K) : List (K × V) → Option V
  | [] => none
  | e :: rest => if compare k e.1 = .eq then some e.2 else lookup k rest

def get? (d : Dict K V) (k : K) : Option V := lookup k d.entries

def contains (d : Dict K V) (k : K) : Bool := (d.get? k).isSome

def size (d : Dict K V) : Nat := d.entries.length

def isEmpty (d : Dict K V) : Bool := d.entries.isEmpty

/-- Puts an entry where its key belongs, in place of one with the same key. -/
def place (k : K) (v : V) : List (K × V) → List (K × V)
  | [] => [(k, v)]
  | e :: rest =>
    match compare k e.1 with
    | .lt => (k, v) :: e :: rest
    | .eq => (k, v) :: rest
    | .gt => e :: place k v rest

theorem mem_place {k : K} {v : V} {l : List (K × V)} {e : K × V} (h : e ∈ place k v l) :
    e = (k, v) ∨ e ∈ l := by
  induction l with
  | nil => simpa [place] using h
  | cons a rest ih =>
    rw [place] at h
    split at h
    · simpa using h
    · simp only [List.mem_cons] at h ⊢; grind
    · simp only [List.mem_cons] at h ⊢; grind

theorem lookup_eq_none_of_lt {j : K} {l : List (K × V)}
    (h : ∀ e ∈ l, compare j e.1 = .lt) : lookup j l = none := by
  induction l with
  | nil => rfl
  | cons a rest ih => simp [lookup, h a (by simp), ih fun e he => h e (by simp [he])]

@[simp] theorem get?_empty (k : K) : (empty : Dict K V).get? k = none := rfl

section Entries

variable [Std.LawfulEqOrd K] [DecidableEq K]

theorem lookup_cons (j : K) (e : K × V) (rest : List (K × V)) :
    lookup j (e :: rest) = if j = e.1 then some e.2 else lookup j rest := by
  simp only [lookup, Std.compare_eq_iff_eq]

theorem lookup_place (k j : K) (v : V) (l : List (K × V)) :
    lookup j (place k v l) = if j = k then some v else lookup j l := by
  induction l with
  | nil => rw [place, lookup_cons]
  | cons a rest ih =>
    rw [place]
    split
    case h_1 => rw [lookup_cons]
    case h_2 heq =>
      have := Std.LawfulEqCmp.eq_of_compare heq
      subst this
      simp only [lookup_cons]
      grind
    case h_3 hgt =>
      have hne : k ≠ a.1 := by rintro rfl; simp at hgt
      simp only [lookup_cons, ih]
      grind

end Entries

variable [Std.TransOrd K] [Std.LawfulEqOrd K]

theorem pairwise_place {k : K} {v : V} {l : List (K × V)}
    (h : l.Pairwise (fun a b => compare a.1 b.1 = .lt)) :
    (place k v l).Pairwise (fun a b => compare a.1 b.1 = .lt) := by
  induction l with
  | nil => simp [place]
  | cons a rest ih =>
    rw [List.pairwise_cons] at h
    rw [place]
    split
    case h_1 hlt =>
      refine List.pairwise_cons.2 ⟨fun b hb => ?_, List.pairwise_cons.2 h⟩
      rcases List.mem_cons.1 hb with rfl | hb
      · exact hlt
      · exact Std.TransCmp.lt_trans hlt (h.1 b hb)
    case h_2 heq =>
      have := Std.LawfulEqCmp.eq_of_compare heq
      subst this
      exact List.pairwise_cons.2 h
    case h_3 hgt =>
      refine List.pairwise_cons.2 ⟨fun b hb => ?_, ih h.2⟩
      rcases mem_place hb with rfl | hb
      · exact Std.OrientedCmp.lt_of_gt hgt
      · exact h.1 b hb

def insert (d : Dict K V) (k : K) (v : V) : Dict K V :=
  ⟨place k v d.entries, pairwise_place d.ascending⟩

/-- Later pairs win over earlier ones with the same key. -/
def ofList (pairs : List (K × V)) : Dict K V :=
  pairs.foldl (fun d e => d.insert e.1 e.2) empty

/-- The entries of `top` over those of `base`. -/
def overlay (base top : Dict K V) : Dict K V :=
  top.entries.foldl (fun d e => d.insert e.1 e.2) base

section Views

variable [DecidableEq K]

theorem get?_insert (d : Dict K V) (k j : K) (v : V) :
    (d.insert k v).get? j = if j = k then some v else d.get? j :=
  lookup_place k j v d.entries

theorem get?_overlay (base top : Dict K V) (j : K) :
    (base.overlay top).get? j = (top.get? j).or (base.get? j) := by
  obtain ⟨entries, ascending⟩ := top
  simp only [overlay, get?]
  induction entries generalizing base with
  | nil => simp [lookup]
  | cons a rest ih =>
    rw [List.pairwise_cons] at ascending
    have hins := get?_insert base a.1 j a.2
    simp only [get?] at hins
    rw [List.foldl_cons, ih _ ascending.2, hins, lookup_cons]
    by_cases hj : j = a.1
    · subst hj
      simp [lookup_eq_none_of_lt ascending.1]
    · simp [hj]

theorem entries_eq_of_lookup {l m : List (K × V)}
    (hl : l.Pairwise (fun a b => compare a.1 b.1 = .lt))
    (hm : m.Pairwise (fun a b => compare a.1 b.1 = .lt))
    (h : ∀ k, lookup k l = lookup k m) : l = m := by
  induction l generalizing m with
  | nil =>
    cases m with
    | nil => rfl
    | cons b m => simpa [lookup_cons, lookup] using h b.1
  | cons a l ih =>
    rw [List.pairwise_cons] at hl
    cases m with
    | nil => simpa [lookup_cons, lookup] using h a.1
    | cons b m =>
      rw [List.pairwise_cons] at hm
      have hab : compare a.1 b.1 = .eq := by
        cases hc : compare a.1 b.1 with
        | eq => rfl
        | lt =>
          have hb : lookup a.1 (b :: m) = none := lookup_eq_none_of_lt fun e he => by
            rcases List.mem_cons.1 he with rfl | he
            · exact hc
            · exact Std.TransCmp.lt_trans hc (hm.1 e he)
          have := h a.1
          rw [hb, lookup_cons, if_pos rfl] at this
          cases this
        | gt =>
          have hc' := Std.OrientedCmp.lt_of_gt hc
          have ha : lookup b.1 (a :: l) = none := lookup_eq_none_of_lt fun e he => by
            rcases List.mem_cons.1 he with rfl | he
            · exact hc'
            · exact Std.TransCmp.lt_trans hc' (hl.1 e he)
          have := h b.1
          rw [ha, lookup_cons, if_pos rfl] at this
          cases this
      have hk := Std.LawfulEqCmp.eq_of_compare hab
      have hv : a.2 = b.2 := by
        have := h a.1
        rwa [lookup_cons, if_pos rfl, lookup_cons, if_pos hk, Option.some.injEq] at this
      have hrest : ∀ k, lookup k l = lookup k m := fun k => by
        by_cases hka : k = a.1
        · rw [hka, lookup_eq_none_of_lt hl.1, lookup_eq_none_of_lt (hk ▸ hm.1)]
        · have := h k
          rwa [lookup_cons, if_neg hka, lookup_cons, if_neg (hk ▸ hka)] at this
      rw [ih hl.2 hm.2 hrest, Prod.ext hk hv]

theorem ext_get? {d e : Dict K V} (h : ∀ k, d.get? k = e.get? k) : d = e := by
  obtain ⟨l, hl⟩ := d
  obtain ⟨m, hm⟩ := e
  obtain rfl := entries_eq_of_lookup hl hm h
  rfl

/-- A map is rebuilt from its own entries. -/
theorem ofList_entries (d : Dict K V) : ofList d.entries = d :=
  ext_get? fun k => by simpa [overlay, ofList] using get?_overlay empty d k

end Views

end Dict

end TableScan
