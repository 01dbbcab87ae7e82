/-
  TableScan.Proofs.NativeLibraries — which readers may be asked for zero-copy reads without the
  libraries for it.

  Libraries are checked where a strategy is resolved: for the table against the settings of the
  scan, and for the partition against those of the split. A split that keeps the strategy of
  its table is `Overlooked` if only its partition asks for zero-copy reads. In every run, all
  other splits get their libraries or fail for the first one missing, and overlooked splits
  are handed to a constructor (`libraries_checked_unless_overlooked`,
  `constructed_without_snappy`).
-/

import TableScan.Proofs.Run
import TableScan.Proofs.StrategyRule

namespace TableScan

/-! ## What resolving a strategy checks -/

/-- The native columnar readers, vectorized or not. -/
def Strategy.IsColumnar (strategy : Strategy) : Prop :=
  strategy = .columnarNative ∨ strategy = .columnarVectorized

section Resolve

variable {r : Resolver} {c : Circumstances}

theorem Resolver.resolve_missing {library : NativeLibrary}
    (hr : c.format.bind r.registry.get? = some .columnarNative) (ha : c.settings.asksZeroCopy = true)
    (hm : r.libraries.firstMissing? = some library) : r.resolve c = .error ⟨library⟩ := by
  simp only [Resolver.resolve, hr, NativeLibrary.check, ha, hm]
  rfl

theorem Resolver.resolve_unasked (hr : c.format.bind r.registry.get? = some .columnarNative)
    (ha : ¬ c.settings.asksZeroCopy = true) :
    ∃ strategy : Strategy, strategy.IsColumnar ∧ r.resolve c = .ok strategy := by
  refine ⟨_, ?_, by simp only [Resolver.resolve, hr, NativeLibrary.check, ha]; rfl⟩
  split
  · exact .inr rfl
  · exact .inl rfl

theorem Resolver.resolve_error {e : NativeLibrary.NotLoaded} (h : r.resolve c = .error e) :
    r.libraries.firstMissing? = some e.library := by
  unfold Resolver.resolve at h
  split at h
  · cases h
  · rename_i hr
    by_cases ha : c.settings.asksZeroCopy = true
    · cases hm : r.libraries.firstMissing? with
      | none =>
        simp only [NativeLibrary.check, hm, ite_self] at h
        cases h
      | some library =>
        simp only [NativeLibrary.check, ha, hm] at h
        cases h
        rfl
    · simp only [NativeLibrary.check, ha] at h
      cases h
  · cases h

/-- A native columnar reader that is asked for zero-copy reads has all libraries. -/
theorem Resolver.resolve_checked (hreg : ∀ f, r.registry.get? f ≠ some .columnarVectorized)
    {strategy : Strategy} (h : r.resolve c = .ok strategy) (hs : strategy.IsColumnar)
    (ha : c.settings.asksZeroCopy = true) : r.libraries.firstMissing? = none := by
  cases hm : r.libraries.firstMissing? with
  | none => rfl
  | some library =>
    have hr : c.format.bind r.registry.get? = some .columnarNative := by
      cases Scan.resolve_rule h with
      | noFormat _ | unregistered _ _ => rcases hs with hs | hs <;> cases hs
      | other hf hr hne =>
        rcases hs with rfl | rfl
        · exact absurd rfl hne
        · exact absurd hr (hreg _)
      | vectorized hf hr _ | native hf hr _ => simpa [hf] using hr
    rw [Resolver.resolve_missing hr ha hm] at h
    cases h

end Resolve

@[simp] theorem Properties.asksZeroCopy_withInputFormat (p : Properties) (format : String) :
    (p.withInputFormat format).asksZeroCopy = p.asksZeroCopy := by
  have h : zeroCopyKey ≠ inputFormatKey := by decide
  have hold : oldZeroCopyKey ≠ inputFormatKey := by decide
  simp only [asksZeroCopy, withInputFormat, Dict.get?_insert, if_neg h, if_neg hold]

namespace Scan

/-! ## Splits that are not checked -/

/-- Nothing but the settings of its partition tells the split from the table, and the settings of the
scan ask for no zero-copy reads. -/
structure Overlooked (s : Scan) (d : SplitDetails) : Prop where
  partitioned : s.table.isPartitioned = true
  format : effectiveFormat s d = s.table.format
  stable : ¬ Drifts s d
  merged : ¬ HasDeltas s d
  unasked : ¬ s.baseSettings.asksZeroCopy = true

section Surveyed

variable {s : Scan} {split : Split} {v : Survey} {library : NativeLibrary}

theorem Surveyed.asksZeroCopy_of_unpartitioned (h : Surveyed s split v)
    (hp : ¬ s.table.isPartitioned = true) :
    (v.settings s).asksZeroCopy = s.baseSettings.asksZeroCopy := by
  rcases partitionOf_eq_ok h.partition with ⟨-, hb, -⟩ | ⟨hp', -⟩
  · unfold Survey.settings
    split
    · rw [Properties.asksZeroCopy_withInputFormat, hb]
    · rw [hb]
  · exact absurd hp' hp

/-- An overlooked split keeps the strategy of its table. -/
theorem Surveyed.again_of_overlooked (h : Surveyed s split v) (ho : Overlooked s v.details) :
    ¬ v.again s = true := by
  rw [h.again_iff]
  intro h
  obtain ⟨-, hf | hd | hm⟩ := h
  · exact hf ho.format
  · exact ho.stable hd
  · exact ho.merged hm

/-- A split that asks for zero-copy reads is checked against what asks for them, unless it is
overlooked. -/
theorem Surveyed.again_or_base (h : Surveyed s split v) (ha : (v.settings s).asksZeroCopy = true)
    (ho : ¬ Overlooked s v.details) :
    v.again s = true ∨ effectiveFormat s v.details = s.table.format ∧ s.baseSettings.asksZeroCopy = true := by
  by_cases hagain : v.again s = true
  · exact .inl hagain
  · obtain ⟨hf, hd⟩ := h.of_not_again hagain
    refine .inr ⟨hf, ?_⟩
    by_cases hp : s.table.isPartitioned = true
    · have hm : ¬ HasDeltas s v.details := fun hm => hagain (h.again_iff.mpr ⟨hp, .inr (.inr hm)⟩)
      exact Decidable.byContradiction fun hb => ho ⟨hp, hf, hd, hm, hb⟩
    · exact h.asksZeroCopy_of_unpartitioned hp ▸ ha

/-- What resolves to a native columnar reader and asks for zero-copy reads has all libraries. -/
theorem Surveyed.strategy_checked (h : Surveyed s split v)
    (hreg : ∀ f, s.resolver.registry.get? f ≠ some .columnarVectorized)
    {tableStrategy strategy : Strategy} (ht : v.tableStrategy s = .ok tableStrategy)
    (hs : (if v.again s then v.partitionStrategy s else .ok tableStrategy) = .ok strategy)
    (hc : strategy.IsColumnar) (ha : (v.settings s).asksZeroCopy = true) (ho : ¬ Overlooked s v.details) :
    s.resolver.libraries.firstMissing? = none := by
  by_cases hagain : v.again s = true
  · rw [if_pos hagain] at hs
    exact Resolver.resolve_checked hreg hs hc ha
  · rw [if_neg hagain] at hs
    cases hs
    obtain ⟨-, hb⟩ := (h.again_or_base ha ho).resolve_left hagain
    exact Resolver.resolve_checked hreg ht hc hb

/-- Without a library it needs, a split fails for it unless it is overlooked. -/
theorem Surveyed.decide_missing (h : Surveyed s split v)
    (hn : (effectiveFormat s v.details).bind s.resolver.registry.get? = some .columnarNative)
    (ha : (v.settings s).asksZeroCopy = true) (hm : s.resolver.libraries.firstMissing? = some library)
    (ho : ¬ Overlooked s v.details) : v.decide s split = .error ⟨library⟩ := by
  unfold Survey.decide
  cases ht : v.tableStrategy s with
  | error e =>
    obtain rfl := Option.some.inj (hm.symm.trans (Resolver.resolve_error ht))
    rfl
  | ok tableStrategy =>
    rcases h.again_or_base ha ho with hagain | ⟨hf, hb⟩
    · have : v.partitionStrategy s = .error ⟨library⟩ :=
        Resolver.resolve_missing (c := ⟨_, _, _, _, _, _⟩) (h.format_eq ▸ hn) ha hm
      simp only [hagain, if_true, this]
      rfl
    · have : v.tableStrategy s = .error ⟨library⟩ :=
        Resolver.resolve_missing (c := ⟨_, _, _, _, _, _⟩) (hf ▸ hn) hb hm
      cases ht.symm.trans this

/-- An overlooked split is planned for a native columnar reader. -/
theorem Surveyed.decide_overlooked (h : Surveyed s split v)
    (hn : (effectiveFormat s v.details).bind s.resolver.registry.get? = some .columnarNative)
    (ho : Overlooked s v.details) :
    ∃ strategy : Strategy, strategy.IsColumnar ∧
      v.decide s split = .ok (v.prepared s split strategy strategy) := by
  obtain ⟨strategy, hs, ht⟩ := Resolver.resolve_unasked (r := s.resolver)
    (c := ⟨s.table.format, s.context.vectorize, false, s.isTransactional, v.pending, s.baseSettings⟩)
    (ho.format ▸ hn) ho.unasked
  refine ⟨strategy, hs, decide_eq_ok.mpr ⟨strategy, strategy, ht, ?_, rfl⟩⟩
  rw [if_neg (h.again_of_overlooked ho)]

end Surveyed

/-! ## Runs -/

/-- What constructors were handed was checked, or overlooked. -/
theorem Sound.request_checked {s : Scan} {σ : Session} (h : Sound s σ)
    (hreg : ∀ f, s.resolver.registry.get? f ≠ some .columnarVectorized) {r : Request} (hr : r ∈ σ.requests)
    (hc : r.strategy.IsColumnar) (ha : r.settings.asksZeroCopy = true) :
    s.resolver.libraries.firstMissing? = none ∨ Overlooked s r.details := by
  obtain ⟨p, hp, hrp⟩ := h.requested r hr
  obtain ⟨v, t, u, hv, ht, hu, rfl⟩ := outlook_prepared hp
  rw [hrp] at hc ha ⊢
  by_cases ho : Overlooked s v.details
  · exact .inr ho
  · exact .inl (hv.strategy_checked hreg ht hu hc ha ho)

section Next

variable {s : Scan} {q : Sequence} {split : Split} {n again : Nat}

/-- A split for which a library is missing fails for that. -/
theorem construct_missing {σ : Session} {e : NativeLibrary.NotLoaded} (h : Sound s σ)
    (hscope : s.context.scope σ.entries s.context.user = .runs again)
    (ho : outlook s split = .error (.capability e)) :
    ((construct s split).run σ).1 = .error (.capability e) := by
  refine construct_ends (P := fun r _ => r = .error (.capability e)) h hscope ?_ (fun _ _ _ hr => hr)
  intro τ r υ hb
  cases hb with
  | unplanned he _ => exact congrArg _ (Except.error.inj (he.symm.trans ho))
  | unconstructed hp _ _ | wrapped hp _ _ _ | unwrapped hp _ _ _ => cases hp.symm.trans ho

/-- A split that is planned is handed to a constructor. -/
theorem construct_requested {σ : Session} {p : Prepared} (h : Sound s σ)
    (hscope : s.context.scope σ.entries s.context.user = .runs again) (ho : outlook s split = .ok p) :
    request s split p ∈ ((construct s split).run σ).2.requests := by
  refine construct_ends (P := fun _ τ => request s split p ∈ τ.requests) h hscope ?_ ?_
  · intro τ r υ hb
    cases hb with
    | unplanned he _ => cases he.symm.trans ho
    | unconstructed hp _ _ | wrapped hp _ _ _ | unwrapped hp _ _ _ =>
      obtain rfl := Except.ok.inj (hp.symm.trans ho)
      simp [wrapping, Event.request?]
  · intro r τ e hr
    rw [Session.requests_record]
    exact List.mem_append_left _ hr

/-- The next split fails for a library that is missing; if it is overlooked, its reader is asked for
zero-copy reads all the same. -/
def FailsUnlessOverlooked (s : Scan) (q : Sequence) (split : Split) (d : SplitDetails)
    (library : NativeLibrary) : Prop :=
  (Overlooked s d ∧ ∃ r ∈ (q.move s .next).2.session.requests,
      r.split = split ∧ r.strategy.IsColumnar ∧ r.settings.asksZeroCopy = true) ∨
    (¬ Overlooked s d ∧ ∃ suppressed,
      (q.move s .next).1 = .next (.failed (.configuration split.key ⟨library⟩ suppressed)))

theorem next_missing {v : Survey} {library : NativeLibrary} (h : Sound s q.session) (he : q.ended = false)
    (hs : q.source = .splits n) (hn : s.part.splits[n]? = some split)
    (hscope : s.context.scope q.session.entries s.context.user = .runs again)
    (hv : survey s split = .ok v)
    (hf : (effectiveFormat s v.details).bind s.resolver.registry.get? = some .columnarNative)
    (ha : (v.settings s).asksZeroCopy = true) (hm : s.resolver.libraries.firstMissing? = some library) :
    FailsUnlessOverlooked s q split v.details library := by
  have hsv := survey_eq_ok.mp hv
  rw [FailsUnlessOverlooked, move_next_splits he hs hn]
  by_cases ho : Overlooked s v.details
  · obtain ⟨strategy, hc, hd⟩ := hsv.decide_overlooked hf ho
    have hr := construct_requested h hscope (outlook_eq_ok.mpr ⟨v, hsv, hd⟩)
    refine .inl ⟨ho, request s split (v.prepared s split strategy strategy), ?_, rfl, hc, ha⟩
    rcases hrun : (construct s split).run q.session with ⟨r, σ⟩
    rw [hrun] at hr
    cases r with
    | ok number => exact hr
    | error fault => rw [Session.requests_closeEach]; exact hr
  · have hout : outlook s split = .error (.capability ⟨library⟩) := by
      rw [outlook, hv]
      exact congrArg (Except.mapError _) (hsv.decide_missing hf ha hm ho)
    have hr := construct_missing h hscope hout
    refine .inr ⟨ho, ?_⟩
    rcases hrun : (construct s split).run q.session with ⟨r, σ⟩
    rw [hrun] at hr
    obtain rfl : r = .error (.capability ⟨library⟩) := hr
    exact ⟨_, rfl⟩

end Next

theorem libraries_checked_unless_overlooked (s : Scan)
    (hreg : ∀ f, s.resolver.registry.get? f ≠ some .columnarVectorized) (moves : List Move) :
    let q := (play s moves).2
    (∀ r ∈ q.session.requests, r.strategy.IsColumnar → r.settings.asksZeroCopy = true →
      s.resolver.libraries.firstMissing? = none ∨ Overlooked s r.details) ∧
    (∀ n again split v library, q.ended = false → q.source = .splits n → s.part.splits[n]? = some split →
      s.context.scope q.session.entries s.context.user = .runs again → survey s split = .ok v →
      (effectiveFormat s v.details).bind s.resolver.registry.get? = some .columnarNative →
      (v.settings s).asksZeroCopy = true → s.resolver.libraries.firstMissing? = some library →
      FailsUnlessOverlooked s q split v.details library) := by
  intro q
  have h := (play_reached s moves).sound
  refine ⟨?_, ?_⟩
  · intro r hr hc ha
    exact h.request_checked hreg hr hc ha
  · intro n again split v library he hs hn hscope hv hf ha hm
    exact next_missing h he hs hn hscope hv hf ha hm

/-- A table whose partition 1 asks for zero-copy reads, on a host without Snappy. -/
def zeroCopyScan : Scan where
  resolver := ⟨Dict.ofList [("orc", .columnarNative)], ⟨true, false, true⟩⟩
  constructors := .uniform fun _ _ => .ok .empty
  serdes := .permissive
  deltas := Delta.recorded
  table :=
    { Table.ofFormat "serde" "orc" with
      properties := Dict.ofList [(Layout.columnsKey, "a")]
      partitionColumns := ["ds"]
      partitions := Dict.ofList
        [(1, { PartitionOverride.none with properties := Dict.ofList [(Properties.zeroCopyKey, "true")] })] }
  part := ⟨[⟨"s", "[1,[\"file\",\"\"]]".toUTF8.toList, []⟩], ["a"], none⟩
  context := ⟨true, "reader", .current, "root"⟩
  composite := .ofColumns ["a"] ["ds"]
  settings := .empty

theorem zeroCopyScan_registry (f : String) :
    zeroCopyScan.resolver.registry.get? f ≠ some .columnarVectorized := by
  show (Dict.empty.insert "orc" Strategy.columnarNative).get? f ≠ some .columnarVectorized
  rw [Dict.get?_insert]
  split <;> simp

theorem zeroCopyScan_requests :
    (play zeroCopyScan [.next]).2.session.requests.map (fun r => (r.strategy, r.settings.asksZeroCopy)) =
      [(.columnarVectorized, true)] := by
  decide +kernel

/-- A vectorized reader is constructed that asks for zero-copy reads, though Snappy is missing. -/
theorem constructed_without_snappy :
    ¬ ∀ r ∈ (play zeroCopyScan [.next]).2.session.requests, r.strategy.IsColumnar →
      r.settings.asksZeroCopy = false ∨ zeroCopyScan.resolver.libraries.firstMissing? = none := by
  intro h
  obtain ⟨r, hr, heq⟩ := List.mem_map.mp (zeroCopyScan_requests ▸ List.mem_singleton_self _)
  obtain ⟨hs, ha⟩ := Prod.mk.inj heq
  rcases h r hr (.inr hs) with hno | hno
  · cases ha.symm.trans hno
  · cases hno

theorem zeroCopyScan_overlooked :
    ∃ r ∈ (play zeroCopyScan [.next]).2.session.requests, Overlooked zeroCopyScan r.details := by
  obtain ⟨r, hr, heq⟩ := List.mem_map.mp (zeroCopyScan_requests ▸ List.mem_singleton_self _)
  obtain ⟨hs, ha⟩ := Prod.mk.inj heq
  have h := (libraries_checked_unless_overlooked zeroCopyScan zeroCopyScan_registry [.next]).1 r hr (.inr hs) ha
  exact ⟨r, hr, h.resolve_left nofun⟩

end Scan

end TableScan
