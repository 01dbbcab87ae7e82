/-
  TableScan.Proofs.DecimalScales — the scale of a decimal in an Avro schema, and where it is lost.

  A decimal must have a precision of 1 to 38 digits, and may have a scale between 0 and the
  precision; without one the scale is 0. A scale above the precision is refused. One that is no
  natural number, such as a negative or a fractional one, or a text, is not: it counts as if
  there were none (`HidesScale`), and every value of the column is off by a power of ten.

  - `decimalType_eq_ok`: which decimals are accepted, and with which numbers.
  - `scale_kept_unless_hidden`: all others keep their scale or are refused, at any depth of a
    literal.
  - `negativeScale_replaced`: a literal in which -1 is taken for 0.
-/

import TableScan.Proofs.SchemaNodes

namespace TableScan.AvroSchema

open TableScan.Json TableScan.Text

/-! ## Decimals -/

/-- A schema of decimals, over bytes of any number or of a fixed one. -/
structure IsDecimalNode (node : Value) : Prop where
  base : node.member? "type" = some (.text "bytes") ∨ node.member? "type" = some (.text "fixed")
  logical : node.member? "logicalType" = some (.text "decimal")

/-- The scale that a decimal declares, 0 if it declares none. -/
def DeclaresScale (node : Value) (s : Int) : Prop :=
  node.member? "scale" = some (.int s) ∨ node.member? "scale" = none ∧ s = 0

/-- A decimal that is accepted has the numbers it declares, and one whose scale is out of range is refused. -/
structure KeepsScale (path : String) (node : Value) : Prop where
  declared : ∀ t, typeOf path node = .ok t → ∃ (p : UInt8) (s : Int8), t = .decimal128 p s ∧
    node.member? "precision" = some (.int p.toNat) ∧ DeclaresScale node s.toInt
  refused : ∀ scale, node.member? "scale" = some scale →
    (∀ p i : Int, node.member? "precision" = some (.int p) → 0 ≤ i → i ≤ p → scale ≠ .int i) →
    ∃ fault, typeOf path node = .error fault

/-- The precision is in range, and what stands for the scale is no natural number. -/
structure HidesScale (node : Value) : Prop where
  precision : ∃ p : Int, node.member? "precision" = some (.int p) ∧ 1 ≤ p ∧ p ≤ 38
  scale : ∃ scale, node.member? "scale" = some scale ∧ ∀ n : Nat, scale ≠ .int n

/-! ## Which decimals are accepted -/

variable {path : String} {node : Value}

theorem naturalMember?_eq_some {key : String} {n : Int} :
    naturalMember? node key = some n ↔ node.member? key = some (.int n) ∧ 0 ≤ n := by
  simp [naturalMember?, Option.filter_eq_some_iff, int_member_iff]

/-- A scale that is found is the one that is declared; none is found just if there is no natural number. -/
theorem scale_cases (node : Value) :
    (∃ s : Int, naturalMember? node "scale" = some s ∧ node.member? "scale" = some (.int s) ∧ 0 ≤ s) ∨
    naturalMember? node "scale" = none ∧ ∀ scale, node.member? "scale" = some scale → ∀ n : Nat, scale ≠ .int n := by
  cases h : naturalMember? node "scale" with
  | some s => exact .inl ⟨s, rfl, naturalMember?_eq_some.mp h⟩
  | none =>
    refine .inr ⟨rfl, ?_⟩
    rintro _ hscale n rfl
    have := naturalMember?_eq_some.mpr ⟨hscale, Int.natCast_nonneg n⟩
    cases h.symm.trans this

/-- The numbers of an accepted decimal are in range, so that no byte cuts them. -/
theorem decimalType_eq_ok {t : DataType} : decimalType path node = .ok t ↔
    ∃ (p : UInt8) (s : Int8), node.member? "precision" = some (.int p.toNat) ∧
      (naturalMember? node "scale").getD 0 = s.toInt ∧ 1 ≤ p.toNat ∧ p.toNat ≤ 38 ∧ s.toInt ≤ p.toNat ∧
      t = .decimal128 p s := by
  have hscale : 0 ≤ (naturalMember? node "scale").getD 0 := by
    rcases scale_cases node with ⟨s, hs, -, hnonneg⟩ | ⟨hnone, -⟩
    · rw [hs]
      exact hnonneg
    · rw [hnone]
      exact Int.le_refl 0
  unfold decimalType
  constructor
  · intro h
    split at h
    · cases h
    · rename_i p hp
      obtain ⟨hmember, hnonneg⟩ := naturalMember?_eq_some.mp hp
      dsimp only at h
      by_cases hrange : p = 0 ∨ 38 < p ∨ p < (naturalMember? node "scale").getD 0
      · rw [if_pos hrange] at h
        cases h
      · rw [if_neg hrange] at h
        cases h
        have hp8 : (UInt8.ofNat p.toNat).toNat = p.toNat := UInt8.toNat_ofNat_of_lt' (by unfold UInt8.size; omega)
        have hs8 : (Int8.ofInt ((naturalMember? node "scale").getD 0)).toInt = (naturalMember? node "scale").getD 0 :=
          Int8.toInt_ofInt_of_le (by omega) (by omega)
        refine ⟨_, _, ?_, hs8.symm, ?_, ?_, ?_, rfl⟩
        · rw [hp8, hmember, Int.toNat_of_nonneg hnonneg]
        all_goals omega
  · rintro ⟨p, s, hp, hs, h1, h2, h3, rfl⟩
    rw [naturalMember?_natural hp]
    dsimp only
    rw [hs, if_neg (by omega), Int.toNat_natCast, UInt8.ofNat_toNat, Int8.ofInt_toInt]

theorem typeOf_decimal (h : IsDecimalNode node) : typeOf path node = decimalType path node := by
  obtain ⟨type, htype, hlogical⟩ : ∃ type, node.member? "type" = some type ∧
      logicalType path node = (decimalType path node).map some := by
    rcases h.base with htype | htype <;>
      exact ⟨_, htype, by simp [logicalType, htype, h.logical, Value.text?]⟩
  cases hdecimal : decimalType path node with
  | error e =>
    rw [hdecimal] at hlogical
    exact typeOf_misrefined htype hlogical
  | ok t =>
    rw [hdecimal] at hlogical
    exact typeOf_refined htype hlogical

/-! ## Where a scale is lost -/

/-- What hides the scale makes it 0. -/
theorem HidesScale.typeOf_eq (h : HidesScale node) (hdecimal : IsDecimalNode node) :
    ∃ p : UInt8, node.member? "precision" = some (.int p.toNat) ∧ typeOf path node = .ok (.decimal128 p 0) := by
  obtain ⟨p, hp, h1, h38⟩ := h.precision
  obtain ⟨scale, hscale, hnot⟩ := h.scale
  have hnone : naturalMember? node "scale" = none := by
    rcases scale_cases node with ⟨s, -, hs, hnonneg⟩ | ⟨hnone, -⟩
    · obtain ⟨n, rfl⟩ := Int.eq_ofNat_of_zero_le hnonneg
      exact (hnot n (Option.some.inj (hscale.symm.trans hs))).elim
    · exact hnone
  have hp8 : ((UInt8.ofNat p.toNat).toNat : Int) = p := by
    rw [UInt8.toNat_ofNat_of_lt' (by unfold UInt8.size; omega), Int.toNat_of_nonneg (by omega)]
  refine ⟨UInt8.ofNat p.toNat, by rw [hp8, hp], ?_⟩
  rw [typeOf_decimal hdecimal]
  refine decimalType_eq_ok.mpr ⟨_, _, by rw [hp8, hp], by rw [hnone]; rfl, by omega, by omega, ?_, rfl⟩
  rw [Int8.toInt_zero]
  omega

theorem keepsScale_iff (hdecimal : IsDecimalNode node) : KeepsScale path node ↔ ¬ HidesScale node := by
  constructor
  · intro hkeeps hhides
    obtain ⟨p, -, htype⟩ : ∃ p : UInt8, node.member? "precision" = some (.int p.toNat) ∧
        typeOf path node = .ok (.decimal128 p 0) := hhides.typeOf_eq hdecimal
    obtain ⟨scale, hscale, hnot⟩ := hhides.scale
    -- No natural number stands for the scale, so none in range does.
    have houtside : ∀ p i : Int, node.member? "precision" = some (.int p) → 0 ≤ i → i ≤ p → scale ≠ .int i := by
      intro p i _ hi _
      obtain ⟨n, rfl⟩ := Int.eq_ofNat_of_zero_le hi
      exact hnot n
    obtain ⟨fault, hfault⟩ := hkeeps.refused scale hscale houtside
    cases htype.symm.trans hfault
  · intro hshown
    have declared : ∀ t, typeOf path node = .ok t → ∃ (p : UInt8) (s : Int8), t = .decimal128 p s ∧
        node.member? "precision" = some (.int p.toNat) ∧ DeclaresScale node s.toInt ∧
        0 ≤ s.toInt ∧ s.toInt ≤ p.toNat := by
      intro t ht
      rw [typeOf_decimal hdecimal] at ht
      obtain ⟨p, s, hp, hs, h1, h38, hle, rfl⟩ := decimalType_eq_ok.mp ht
      refine ⟨p, s, rfl, hp, ?_⟩
      rcases scale_cases node with ⟨n, hn, hmember, hnonneg⟩ | ⟨hnone, hnot⟩
      · rw [hn, Option.getD_some] at hs
        subst hs
        exact ⟨.inl hmember, hnonneg, hle⟩
      · rw [hnone, Option.getD_none] at hs
        refine ⟨.inr ⟨?_, hs.symm⟩, by omega, hle⟩
        cases hscale : node.member? "scale" with
        | none => rfl
        | some scale => exact (hshown ⟨⟨_, hp, by omega, by omega⟩, scale, hscale, hnot scale hscale⟩).elim
    refine ⟨?_, ?_⟩
    · intro t ht
      obtain ⟨p, s, heq, hp, hs, -, -⟩ := declared t ht
      exact ⟨p, s, heq, hp, hs⟩
    · intro scale hscale houtside
      cases ht : typeOf path node with
      | error fault => exact ⟨fault, rfl⟩
      | ok t =>
        obtain ⟨p, s, -, hp, hs | ⟨hnone, -⟩, hnonneg, hle⟩ := declared t ht
        · exact (houtside _ _ hp hnonneg hle (Option.some.inj (hscale.symm.trans hs))).elim
        · cases hnone.symm.trans hscale

/-- The scale of a decimal is kept unless it is no natural number, at any depth of a record. -/
theorem scale_kept_unless_hidden (path : String) (node : Value) (hdecimal : IsDecimalNode node) :
    (KeepsScale path node ↔ ¬ HidesScale node) ∧
    (HidesScale node → ∃ p : UInt8, node.member? "precision" = some (.int p.toNat) ∧
      typeOf path node = .ok (.decimal128 p 0)) ∧
    ∀ (literal : String) (root : Value), Value.ofString? literal = some root → Reaches ("", root) (path, node) →
      (∀ columns, recordFields literal = .ok columns → ∃ (p : UInt8) (s : Int8),
        typeOf path node = .ok (.decimal128 p s) ∧ ∃ f ∈ columns, f.type.Holds (.decimal128 p s)) ∧
      ((∃ fault, typeOf path node = .error fault) → ∃ fault, recordFields literal = .error fault) := by
  refine ⟨keepsScale_iff hdecimal, fun hhides => hhides.typeOf_eq hdecimal, ?_⟩
  intro literal root hroot hreaches
  have accepted : ∀ columns, recordFields literal = .ok columns →
      ∃ u, typeOf path node = .ok u ∧ (DataType.struct columns).Holds u := by
    intro columns hcolumns
    obtain ⟨root', hroot', -, hstruct⟩ := recordFields_eq_ok.mp hcolumns
    obtain rfl := Option.some.inj (hroot.symm.trans hroot')
    exact hreaches.accepted hstruct
  constructor
  · intro columns hcolumns
    obtain ⟨u, hu, hholds⟩ := accepted columns hcolumns
    have ht := hu
    rw [typeOf_decimal hdecimal] at ht
    obtain ⟨p, s, -, -, -, -, -, rfl⟩ := decimalType_eq_ok.mp ht
    refine ⟨p, s, hu, ?_⟩
    rcases DataType.holds_struct.mp hholds with hself | hfield
    · cases hself
    · exact hfield
  · rintro ⟨fault, hfault⟩
    cases hcolumns : recordFields literal with
    | error e => exact ⟨e, rfl⟩
    | ok columns =>
      obtain ⟨u, hu, -⟩ := accepted columns hcolumns
      cases hu.symm.trans hfault

/-- Decimals with 3 digits behind the point. -/
def scaledDecimal : Value :=
  .object [("logicalType", .text "decimal"), ("precision", .int 12), ("scale", .int 3), ("size", .int 8),
    ("type", .text "fixed")]

/-- Any number of them, some of which may be missing. -/
def scaledDecimals : Value :=
  .object [("items", .array [.text "null", scaledDecimal]), ("type", .text "array")]

theorem scaledDecimals_keep_scale :
    KeepsScale "v.item" scaledDecimal ∧
      ∃ columns, recordFields (recordOf scaledDecimals).render = .ok columns ∧
        ∃ f ∈ columns, f.type.Holds (.decimal128 12 3) := by
  have hdecimal : IsDecimalNode scaledDecimal := ⟨.inr rfl, rfl⟩
  have hnode : scaledDecimal.WellFormed False :=
    wellFormed_object ["logicalType", "precision", "scale", "size", "type"] rfl (by decide)
      (by simp [Value.WellFormed.text, Value.WellFormed.int])
  have hnodes : scaledDecimals.WellFormed False :=
    wellFormed_object ["items", "type"] rfl (by decide)
      (by simp [Value.WellFormed.text, Value.WellFormed.array, hnode])
  have hone : typeOf "v.item" scaledDecimal = .ok (.decimal128 12 3) := by
    rw [typeOf_decimal hdecimal]
    exact decimalType_eq_ok.mpr ⟨12, 3, rfl, rfl, by decide, by decide, by decide, rfl⟩
  have hbranch : typeOf "v.item" (.array [.text "null", scaledDecimal]) = .ok (.decimal128 12 3) := by
    rw [typeOf_union]
    exact hone
  have hmany : typeOf "v" scaledDecimals = .ok (.listOf (.decimal128 12 3)) :=
    (typeOf_array_eq_ok rfl).mpr ⟨_, _, rfl, hbranch, rfl⟩
  have hnesting : (recordOf scaledDecimals).nesting ≤ nestingLimit := by decide +kernel
  have hcolumns := recordFields_recordOf hnodes hnesting hmany
  have hreaches : Reaches ("", recordOf scaledDecimals) ("v.item", scaledDecimal) :=
    ((reaches_recordOf scaledDecimals).tail (.items rfl rfl)).tail
      (.branch (List.mem_cons_of_mem _ (List.mem_singleton_self _)) rfl)
  obtain ⟨hkept, -, hliteral⟩ := scale_kept_unless_hidden "v.item" scaledDecimal hdecimal
  refine ⟨hkept.mpr ?_, _, hcolumns, ?_⟩
  · rintro ⟨-, scale, hscale, hnot⟩
    exact hnot 3 (Option.some.inj (hscale.symm.trans rfl))
  · obtain ⟨p, s, htype, hholds⟩ :=
      (hliteral _ _ (ofString?_recordOf hnodes hnesting) hreaches).1 _ hcolumns
    cases htype.symm.trans hone
    exact hholds

/-- Decimals whose scale is a number below 0. -/
def negativeScale : Value :=
  .object [("logicalType", .text "decimal"), ("precision", .int 9), ("scale", .int (-1)), ("type", .text "bytes")]

/-- The scale is there and out of range, and the column is one without digits behind the point. -/
theorem negativeScale_replaced :
    IsDecimalNode negativeScale ∧ Reaches ("", recordOf negativeScale) ("v", negativeScale) ∧
      Value.ofString? (recordOf negativeScale).render = some (recordOf negativeScale) ∧
      recordFields (recordOf negativeScale).render = .ok [⟨lower "v", .decimal128 9 0, true⟩] ∧
      ¬ KeepsScale "v" negativeScale := by
  have hdecimal : IsDecimalNode negativeScale := ⟨.inl rfl, rfl⟩
  have hhides : HidesScale negativeScale := ⟨⟨9, rfl, by decide, by decide⟩, .int (-1), rfl, by simp⟩
  have hnode : negativeScale.WellFormed False :=
    wellFormed_object ["logicalType", "precision", "scale", "type"] rfl (by decide)
      (by simp [Value.WellFormed.text, Value.WellFormed.int])
  have hnesting : (recordOf negativeScale).nesting ≤ nestingLimit := by decide +kernel
  have ht : typeOf "v" negativeScale = .ok (.decimal128 9 0) := by
    rw [typeOf_decimal hdecimal]
    exact decimalType_eq_ok.mpr ⟨9, 0, rfl, rfl, by decide, by decide, by decide, rfl⟩
  refine ⟨hdecimal, reaches_recordOf _, ofString?_recordOf hnode hnesting,
    recordFields_recordOf hnode hnesting ht, ?_⟩
  exact fun hkeeps => (keepsScale_iff hdecimal).mp hkeeps hhides

end TableScan.AvroSchema
