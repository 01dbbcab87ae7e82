/-
  TableScan.Proofs.Release — every reader is closed once.

  A reader can be released in five ways: through its handle, by the failure of a later split, when
  the sequence is closed or dropped, and where it could not be wrapped. The accounts of a run
  (`Ledger`) weigh the calls to close a reader against the slots that still hold it: together
  they are one for each reader built. `Aligned` is why a handle is the handle of its own
  reader, `Traced` what the log has to do with the calls. Every move keeps all three, and
  `readers_released_once` reads the rule off them.
-/

import TableScan.Proofs.Run

namespace TableScan.Scan

/-! ## Slots -/

theorem holding_append (slots more : List Slot) : holding (slots ++ more) = holding slots ++ holding more :=
  List.filterMap_append

/-- A slot of a list stands between others, and so does whatever is put in its place. -/
theorem split_at_slot {slots : List Slot} {h : Nat} {slot : Slot} (hs : slots[h]? = some slot) :
    ∃ before after, slots = before ++ slot :: after ∧
      ∀ other, slots.set h other = before ++ other :: after := by
  obtain ⟨hlt, rfl⟩ := List.getElem?_eq_some_iff.mp hs
  refine ⟨slots.take h, slots.drop (h + 1), by simp, ?_⟩
  intro other
  rw [List.set_eq_take_append_cons_drop, if_pos hlt]

theorem holding_set {slots : List Slot} {h : Nat} {slot other : Slot} (hs : slots[h]? = some slot)
    (hn : other.number? = slot.number?) : holding (slots.set h other) = holding slots := by
  obtain ⟨before, after, rfl, hset⟩ := split_at_slot hs
  rw [hset]
  simp [holding, List.filterMap_cons, hn]

theorem holding_set_emptied {slots : List Slot} {h : Nat} {slot : Slot} (hs : slots[h]? = some slot) :
    (holding slots).Perm (slot.number?.toList ++ holding (slots.set h slot.emptied)) := by
  obtain ⟨before, after, rfl, hset⟩ := split_at_slot hs
  rw [hset]
  cases hn : slot.number? with
  | none => simp [holding, List.filterMap_cons, hn]
  | some n => simp [holding, List.filterMap_cons, hn]

theorem mem_holding {slots : List Slot} {n : Nat} :
    n ∈ holding slots ↔ ∃ (i : Nat) (slot : Slot), slots[i]? = some slot ∧ slot.number? = some n := by
  simp only [holding, List.mem_filterMap]
  constructor
  · intro h
    obtain ⟨slot, hm, hn⟩ := h
    obtain ⟨i, hi⟩ := List.mem_iff_getElem?.mp hm
    exact ⟨i, slot, hi, hn⟩
  · intro h
    obtain ⟨i, slot, hi, hn⟩ := h
    exact ⟨slot, List.mem_of_getElem? hi, hn⟩

theorem Slot.number?_eq_some {slot : Slot} {n : Nat} : slot.number? = some n ↔ slot.reader = some (.built n) := by
  rcases slot with ⟨_, _ | _ | m, _⟩ <;> simp [Slot.number?]

theorem Sequence.slot?_eq_some {q : Sequence} {h : Nat} {slot : Slot} (hs : q.slot? h = some slot) :
    q.slots[h]? = some slot :=
  (Option.filter_eq_some_iff.mp hs).1

/-- Slots that keep their places and splits, and at most lose their readers. -/
structure Worn (slots slots' : List Slot) : Prop where
  length : slots'.length = slots.length
  kept : ∀ (i : Nat) (slot' : Slot), slots'[i]? = some slot' → ∃ slot, slots[i]? = some slot ∧
    slot'.split = slot.split ∧ (slot'.reader = slot.reader ∨ slot'.reader = none)

theorem worn_refl (slots : List Slot) : Worn slots slots :=
  ⟨rfl, fun _ slot hs => ⟨slot, hs, rfl, .inl rfl⟩⟩

theorem worn_emptied (slots : List Slot) : Worn slots (slots.map Slot.emptied) := by
  refine ⟨List.length_map .., ?_⟩
  intro i slot' hs
  rw [List.getElem?_map, Option.map_eq_some_iff] at hs
  obtain ⟨slot, hs, rfl⟩ := hs
  exact ⟨slot, hs, rfl, .inr rfl⟩

theorem worn_set {slots : List Slot} {h : Nat} {slot other : Slot} (hs : slots[h]? = some slot)
    (hsplit : other.split = slot.split) (hreader : other.reader = slot.reader ∨ other.reader = none) :
    Worn slots (slots.set h other) := by
  refine ⟨List.length_set, ?_⟩
  intro i slot' hi
  by_cases hih : h = i
  · subst hih
    rw [List.getElem?_set_self (List.getElem?_eq_some_iff.mp hs).1] at hi
    cases hi
    exact ⟨slot, hs, hsplit, hreader⟩
  · rw [List.getElem?_set_ne hih] at hi
    exact ⟨slot', hi, rfl, .inl rfl⟩

/-- A slot without reader stays without. -/
theorem Worn.shut {slots slots' : List Slot} (hw : Worn slots slots') {i : Nat}
    (h : ∃ slot, slots[i]? = some slot ∧ slot.reader = none) :
    ∃ slot, slots'[i]? = some slot ∧ slot.reader = none := by
  obtain ⟨slot, hs, hr⟩ := h
  have hi := hw.length ▸ (List.getElem?_eq_some_iff.mp hs).1
  refine ⟨slots'[i], List.getElem?_eq_getElem hi, ?_⟩
  obtain ⟨slot₀, hs₀, -, hr₀⟩ := hw.kept i _ (List.getElem?_eq_getElem hi)
  obtain rfl := Option.some.inj (hs.symm.trans hs₀)
  rcases hr₀ with hr₀ | hr₀
  · exact hr₀.trans hr
  · exact hr₀

theorem Worn.holding_eq_nil {slots slots' : List Slot} (hw : Worn slots slots') (h : holding slots = []) :
    holding slots' = [] := by
  refine List.eq_nil_iff_forall_not_mem.mpr ?_
  intro n hn
  obtain ⟨i, slot', hi, hn⟩ := mem_holding.mp hn
  rw [Slot.number?_eq_some] at hn
  obtain ⟨slot, hslot, -, hr⟩ := hw.kept i slot' hi
  rcases hr with hr | hr
  · have : n ∈ holding slots := mem_holding.mpr ⟨i, slot, hslot, Slot.number?_eq_some.mpr (hr ▸ hn)⟩
    rw [h] at this
    cases this
  · rw [hr] at hn
    cases hn

/-! ## The accounts of a session -/

theorem count_close_map (n : Nat) (readers : List Nat) :
    (readers.map ReaderCall.close).count (.close n) = readers.count n := by
  induction readers with
  | nil => rfl
  | cons m readers ih => simp [List.count_cons, ih]

/-- No reader is pulled from after a call that closed it. -/
def Orderly (calls : List ReaderCall) : Prop :=
  calls.Pairwise fun before after => ∀ n, before = .close n → after ≠ .pull n

/-- The calls made, the readers held and how many were built go together. -/
structure Ledger (calls : List ReaderCall) (held : List Nat) (built : Nat) : Prop where
  balanced : ∀ n, calls.count (.close n) + held.count n = if n < built then 1 else 0
  orderly : Orderly calls

namespace Ledger

variable {calls : List ReaderCall} {held readers : List Nat} {built n : Nat}

theorem start : Ledger [] [] 0 := ⟨fun n => by simp, List.Pairwise.nil⟩

theorem perm (h : Ledger calls held built) (hp : held.Perm readers) : Ledger calls readers built :=
  ⟨fun n => hp.count_eq n ▸ h.balanced n, h.orderly⟩

/-- A reader built is held. -/
theorem build (h : Ledger calls held built) : Ledger calls (held ++ [built]) (built + 1) := by
  refine ⟨?_, h.orderly⟩
  intro n
  have := h.balanced n
  rw [List.count_append, List.count_singleton]
  by_cases hn : built = n
  · subst hn
    simp at this ⊢
    omega
  · simp only [beq_iff_eq, hn, if_false]
    split at this <;> split <;> omega

/-- Readers held may be closed. -/
theorem close (h : Ledger calls (readers ++ held) built) :
    Ledger (calls ++ readers.map .close) held built := by
  refine ⟨?_, ?_⟩
  · intro n
    rw [List.count_append, count_close_map, Nat.add_assoc, ← List.count_append]
    exact h.balanced n
  · have hpull : ∀ c ∈ readers.map ReaderCall.close, ∀ n, c ≠ .pull n := by
      intro c hc n hn
      obtain ⟨m, -, rfl⟩ := List.mem_map.mp hc
      cases hn
    refine List.pairwise_append.mpr ⟨h.orderly, ?_, ?_⟩
    · exact List.pairwise_of_forall_mem_list fun _ _ c hc n _ => hpull c hc n
    · exact fun _ _ c hc n _ => hpull c hc n

theorem not_closed (h : Ledger calls held built) (hn : n ∈ held) : .close n ∉ calls := by
  intro hc
  have hb := h.balanced n
  have h1 := List.count_pos_iff.mpr hn
  have h2 := List.count_pos_iff.mpr hc
  split at hb <;> omega

/-- Readers held may be pulled from. -/
theorem pull (h : Ledger calls held built) (hn : n ∈ held) : Ledger (calls ++ [.pull n]) held built := by
  refine ⟨?_, ?_⟩
  · intro m
    rw [List.count_append, List.count_singleton]
    simpa using h.balanced m
  · refine List.pairwise_append.mpr ⟨h.orderly, List.pairwise_singleton _ _, ?_⟩
    intro a ha b hb m hm hm'
    obtain rfl := List.mem_singleton.mp hb
    obtain rfl := ReaderCall.pull.inj hm'
    exact h.not_closed hn (hm ▸ ha)

theorem count_le_one (h : Ledger calls held built) (n : Nat) : calls.count (.close n) ≤ 1 := by
  have := h.balanced n
  split at this <;> omega

/-- A reader built is closed unless it is held. -/
theorem count_eq_one (h : Ledger calls held built) (hb : n < built) (hn : n ∉ held) :
    calls.count (.close n) = 1 := by
  have := h.balanced n
  rw [if_pos hb, List.count_eq_zero_of_not_mem hn] at this
  exact this

theorem mem_held (h : Ledger calls held built) (hb : n < built) (hc : .close n ∉ calls) : n ∈ held := by
  by_cases hn : n ∈ held
  · exact hn
  · have := h.count_eq_one hb hn
    rw [List.count_eq_zero_of_not_mem hc] at this
    cases this

end Ledger

/-! ## What every move keeps -/

def Accounted (q : Sequence) : Prop := Ledger q.session.calls (holding q.slots) q.session.built.length

/-- Handles, slots, readers and splits are numbered alike. -/
structure Aligned (s : Scan) (q : Sequence) : Prop where
  own : ∀ (i : Nat) (slot : Slot) (n : Nat), q.slots[i]? = some slot → slot.number? = some n → n = i
  reading : ∀ n, q.source = .splits n → q.slots.length = n ∧ q.session.built.length = n
  blank : q.source = .emptyScan → s.part.splits = [] ∧ q.slots = []
  keyed : ∀ (i : Nat) (slot : Slot) (split : Split), q.slots[i]? = some slot → s.part.splits[i]? = some split →
    slot.split = split.key ∧ slot.reader ≠ some .empty

/-- A move that ended the sequence, by the caller's will or for a split that failed. -/
def Ends : Move × Answer → Prop
  | (.closeAll, _) => True
  | (.drop, _) => True
  | (_, .next (.failed _)) => True
  | _ => False

def Over (log : Log) : Prop := ∃ entry ∈ log, Ends entry

/-- What the log tells of the calls and of the slots. -/
structure Traced (log : Log) (q : Sequence) : Prop where
  through : ¬ Over log → ∀ n, .close n ∈ q.session.calls → ∃ r, (.close n, .close r) ∈ log
  shut : ∀ n r, (.close n, .close r) ∈ log → ∃ slot, q.slots[n]? = some slot ∧ slot.reader = none
  after : Over log → holding q.slots = [] ∧ q.source = .finished
  ended : q.ended = true → Over log

section Moves

variable {s : Scan} {q q' : Sequence} {m : Move} {a : Answer}

theorem start_accounted (s : Scan) : Accounted (.start s) := Ledger.start

theorem Accounted.pulled (h : Accounted q) {i : Nat} {slot : Slot} {held : Held} (hs : q.slots[i]? = some slot)
    (hr : slot.reader = some held) : Accounted { q with session := (Sequence.pullHeld q.session held).2 } := by
  cases held with
  | empty => exact h
  | built n =>
    have hn : n ∈ holding q.slots := mem_holding.mpr ⟨i, slot, hs, Slot.number?_eq_some.mpr hr⟩
    have := h.pull hn
    simpa [Accounted, Sequence.pullHeld, Session.pull, Event.call?] using this

theorem Accounted.closed (h : Accounted q) {i : Nat} {slot : Slot} {held : Held} (hs : q.slots[i]? = some slot)
    (hr : slot.reader = some held) :
    Accounted { q with session := (Sequence.closeHeld q.session held).2, slots := q.slots.set i slot.emptied } := by
  have hp := holding_set_emptied hs
  cases held with
  | empty =>
    have hn : slot.number? = none := by simp only [Slot.number?, hr]
    rw [hn] at hp
    exact h.perm hp
  | built n =>
    rw [Slot.number?_eq_some.mpr hr] at hp
    have : Ledger _ ([n] ++ holding (q.slots.set i slot.emptied)) _ := h.perm hp
    have := this.close
    simpa [Accounted, Sequence.closeHeld, Session.close, Event.call?] using this

/-- All readers held may be closed at once. -/
theorem Accounted.released {σ : Session} {slots : List Slot}
    (h : Ledger σ.calls (holding slots) σ.built.length) :
    Ledger (σ.closeEach (holding slots)).calls (holding (slots.map Slot.emptied))
      (σ.closeEach (holding slots)).built.length := by
  rw [Session.calls_closeEach, holding_emptied]
  have : Ledger σ.calls (holding slots ++ []) σ.built.length := by rw [List.append_nil]; exact h
  exact this.close

/-- A failure leaves no reader behind that is neither held nor closed. -/
theorem Accounted.unyielded (h : Accounted q) {fault : SplitFault} {σ : Session}
    (hy : Yield q.session (.error fault) σ) : Ledger σ.calls (holding q.slots) σ.built.length := by
  cases hy with
  | nothing hb hc => exact hc ▸ hb ▸ h
  | lost hb hc =>
    have : Ledger _ ([q.session.built.length] ++ holding q.slots) _ := h.build.perm List.perm_append_comm
    rw [hb, hc]
    exact this.close

theorem Accounted.yielded (h : Accounted q) {number : Nat} {σ : Session}
    (hy : Yield q.session (.ok number) σ) (key : String) (source : Source) :
    Accounted { q with session := σ, source := source,
                       slots := q.slots ++ [⟨key, some (.built number), true⟩] } := by
  cases hy with
  | reader hb hc =>
    have : holding [(⟨key, some (.built q.session.built.length), true⟩ : Slot)] = [q.session.built.length] := rfl
    rw [Accounted, holding_append, this, hb, hc]
    exact h.build

@[simp] theorem Session.calls_warnEach (faults : List ReleaseFault) (σ : Session) :
    (faults.foldl (fun σ fault => σ.warn fault.message) σ).calls = σ.calls := by
  rw [Session.warnEach_eq]
  rfl

@[simp] theorem Session.built_warnEach (faults : List ReleaseFault) (σ : Session) :
    (faults.foldl (fun σ fault => σ.warn fault.message) σ).built = σ.built := by
  rw [Session.warnEach_eq]

theorem Moved.accounted (hm : Moved s q m a q') (hscope : s.context.scope.NeverRepeats)
    (hr : Sound s q.session) (h : Accounted q) : Accounted q' := by
  cases hm with
  | gone _ _ | unheld _ _ | exhausted _ _ | ranOut _ _ _ | refused _ _ | closedBefore _ _ => exact h
  | nothingToRead _ _ =>
    have : holding [⟨emptyScanKey, some .empty, true⟩] = [] := rfl
    rw [Accounted, holding_append, this, List.append_nil]
    exact h
  | yielded _ _ _ hc => exact h.yielded (construct_yields hscope hr hc) _ _
  | failed _ _ _ hc => exact Accounted.released (h.unyielded (construct_yields hscope hr hc))
  | pulled hs hr => exact h.pulled (Sequence.slot?_eq_some hs) hr
  | closed hs hr => exact h.closed (Sequence.slot?_eq_some hs) hr
  | @gaveUp _ slot hs =>
    have : holding (q.slots.set _ { slot with handle := false }) = holding q.slots :=
      holding_set (Sequence.slot?_eq_some hs) rfl
    rw [Accounted, this]
    exact h
  | closedAll _ => exact Accounted.released h
  | dropped _ =>
    have := Accounted.released h
    rw [Accounted, Session.calls_warnEach, Session.built_warnEach]
    exact this

theorem start_aligned (s : Scan) : Aligned s (.start s) := by
  unfold Sequence.start
  refine ⟨fun i slot n hs => by simp at hs, ?_, ?_, fun i slot split hs => by simp at hs⟩
  · intro n hn
    dsimp only at hn
    split at hn
    · cases hn
    · cases hn
      exact ⟨rfl, rfl⟩
  · intro hb
    dsimp only at hb
    split at hb
    · exact ⟨List.isEmpty_iff.mp ‹_›, rfl⟩
    · cases hb

theorem Aligned.worn (h : Aligned s q) (hw : Worn q.slots q'.slots)
    (hs : q'.source = .finished ∨
      q'.source = q.source ∧ q'.session.built.length = q.session.built.length) : Aligned s q' := by
  refine ⟨?_, ?_, ?_, ?_⟩
  · intro i slot' n hi hn
    obtain ⟨slot, hslot, -, hr⟩ := hw.kept i slot' hi
    rw [Slot.number?_eq_some] at hn
    rcases hr with hr | hr
    · exact h.own i slot n hslot (Slot.number?_eq_some.mpr (hr ▸ hn))
    · rw [hr] at hn
      cases hn
  · intro n hn
    rcases hs with hs | ⟨hs, hb⟩
    · rw [hs] at hn
      cases hn
    · rw [hw.length, hb]
      exact h.reading n (hs ▸ hn)
  · intro he
    rcases hs with hs | ⟨hs, -⟩
    · rw [hs] at he
      cases he
    · obtain ⟨hsplits, hslots⟩ := h.blank (hs ▸ he)
      exact ⟨hsplits, List.length_eq_zero_iff.mp (hw.length.trans (congrArg List.length hslots))⟩
  · intro i slot' split hi hsplit
    obtain ⟨slot, hslot, hk, hr⟩ := hw.kept i slot' hi
    obtain ⟨hkey, hne⟩ := h.keyed i slot split hslot hsplit
    refine ⟨hk.trans hkey, ?_⟩
    rcases hr with hr | hr
    · rw [hr]
      exact hne
    · rw [hr]
      exact fun h => by cases h

theorem Aligned.yielded (h : Aligned s q) {n number : Nat} {split : Split} {σ : Session}
    (hs : q.source = .splits n) (hn : s.part.splits[n]? = some split) (hy : Yield q.session (.ok number) σ) :
    Aligned s { q with session := σ, source := .splits (n + 1),
                       slots := q.slots ++ [⟨split.key, some (.built number), true⟩] } := by
  obtain ⟨hslots, hbuilt⟩ := h.reading n hs
  cases hy with
  | reader hb _ =>
    -- The new slot is the n-th, and holds the n-th reader.
    have hnew : ∀ (i : Nat) (slot : Slot),
        (q.slots ++ [⟨split.key, some (.built q.session.built.length), true⟩])[i]? = some slot →
        q.slots[i]? = some slot ∨ i = n ∧ slot = ⟨split.key, some (.built n), true⟩ := by
      intro i slot hi
      rcases Nat.lt_or_ge i q.slots.length with hlt | hge
      · exact .inl (List.getElem?_append_left hlt ▸ hi)
      · rw [List.getElem?_append_right hge, List.getElem?_singleton] at hi
        split at hi
        · exact .inr ⟨by omega, by rw [← Option.some.inj hi, hbuilt]⟩
        · cases hi
    refine ⟨?_, ?_, ?_, ?_⟩
    · intro i slot m hi hm
      rcases hnew i slot hi with hi | ⟨rfl, rfl⟩
      · exact h.own i slot m hi hm
      · cases hm
        rfl
    · intro m hm
      cases hm
      exact ⟨by simp [hslots], by simp [hb, hbuilt]⟩
    · intro he
      cases he
    · intro i slot other hi ho
      rcases hnew i slot hi with hi | ⟨rfl, rfl⟩
      · exact h.keyed i slot other hi ho
      · obtain rfl := Option.some.inj (hn.symm.trans ho)
        exact ⟨rfl, fun h => by cases h⟩

theorem Moved.aligned (hm : Moved s q m a q') (hscope : s.context.scope.NeverRepeats)
    (hr : Sound s q.session) (h : Aligned s q) : Aligned s q' := by
  cases hm with
  | gone _ _ | unheld _ _ | exhausted _ _ | refused _ _ | closedBefore _ _ => exact h
  | ranOut _ _ _ => exact h.worn (worn_refl _) (.inl rfl)
  | nothingToRead _ he =>
    obtain ⟨hsplits, hslots⟩ := h.blank he
    rw [hslots]
    refine ⟨?_, ?_, ?_, ?_⟩
    · intro i slot n hi hn
      obtain rfl := List.mem_singleton.mp (List.mem_of_getElem? hi)
      cases hn
    · intro n hn
      cases hn
    · intro hb
      cases hb
    · intro i slot split _ hsplit
      simp [hsplits] at hsplit
  | yielded _ hs hn hc => exact h.yielded hs hn (construct_yields hscope hr hc)
  | failed _ _ _ _ => exact h.worn (worn_emptied _) (.inl rfl)
  | @pulled _ _ held _ _ =>
    refine h.worn (worn_refl _) (.inr ⟨rfl, ?_⟩)
    cases held with
    | empty => rfl
    | built n => simp [Sequence.pullHeld, Session.pull]
  | @closed _ _ held hs _ =>
    refine h.worn (worn_set (Sequence.slot?_eq_some hs) rfl (.inr rfl)) (.inr ⟨rfl, ?_⟩)
    cases held with
    | empty => rfl
    | built n => rfl
  | gaveUp hs => exact h.worn (worn_set (Sequence.slot?_eq_some hs) rfl (.inl rfl)) (.inr ⟨rfl, rfl⟩)
  | closedAll _ => exact h.worn (worn_emptied _) (.inl rfl)
  | dropped _ => exact h.worn (worn_emptied _) (.inl rfl)

theorem Moved.slots (hm : Moved s q m a q') :
    Worn q.slots q'.slots ∨ q.source ≠ .finished ∧ ∃ slot, q'.slots = q.slots ++ [slot] := by
  cases hm with
  | gone _ _ | unheld _ _ | exhausted _ _ | ranOut _ _ _ | refused _ _ | closedBefore _ _ | pulled _ _ =>
    exact .inl (worn_refl _)
  | nothingToRead _ he => exact .inr ⟨by simp [he], _, rfl⟩
  | yielded _ hs _ _ => exact .inr ⟨by simp [hs], _, rfl⟩
  | closed hs _ => exact .inl (worn_set (Sequence.slot?_eq_some hs) rfl (.inr rfl))
  | gaveUp hs => exact .inl (worn_set (Sequence.slot?_eq_some hs) rfl (.inl rfl))
  | failed _ _ _ _ | closedAll _ | dropped _ => exact .inl (worn_emptied _)

theorem Moved.shut (hm : Moved s q m a q') {i : Nat} (h : ∃ slot, q.slots[i]? = some slot ∧ slot.reader = none) :
    ∃ slot, q'.slots[i]? = some slot ∧ slot.reader = none := by
  rcases hm.slots with hw | ⟨-, new, hn⟩
  · exact hw.shut h
  · obtain ⟨slot, hs, hr⟩ := h
    exact ⟨slot, by rw [hn, List.getElem?_append_left (List.getElem?_eq_some_iff.mp hs).1, hs], hr⟩

/-- Once it has ended with no reader held, the sequence stays so. -/
theorem Moved.finished (hm : Moved s q m a q') (h : holding q.slots = [] ∧ q.source = .finished) :
    holding q'.slots = [] ∧ q'.source = .finished := by
  obtain ⟨hheld, hs⟩ := h
  refine ⟨?_, ?_⟩
  · rcases hm.slots with hw | ⟨hne, -⟩
    · exact hw.holding_eq_nil hheld
    · exact absurd hs hne
  · cases hm with
    | yielded _ hs' _ _ => simp [hs] at hs'
    | _ => first | exact hs | rfl

/-- A move that does not end the sequence closes no reader but the one of the handle it closes. -/
theorem Moved.closes (hm : Moved s q m a q') (hscope : s.context.scope.NeverRepeats)
    (hr : Sound s q.session) (h : Aligned s q) (he : ¬ Ends (m, a)) {n : Nat}
    (hn : .close n ∈ q'.session.calls) : .close n ∈ q.session.calls ∨ ∃ r, (m, a) = (.close n, .close r) := by
  cases hm with
  | gone _ _ | unheld _ _ | exhausted _ _ | ranOut _ _ _ | nothingToRead _ _ | refused _ _ | closedBefore _ _
  | gaveUp _ => exact .inl hn
  | yielded _ _ _ hc =>
    cases construct_yields hscope hr hc with
    | reader _ hcalls => exact .inl (hcalls ▸ hn)
  | failed _ _ _ _ => exact absurd trivial he
  | @pulled _ _ held _ _ =>
    cases held with
    | empty => exact .inl hn
    | built k => exact .inl (by simpa [Sequence.pullHeld, Session.pull, Event.call?] using hn)
  | @closed i slot held hs hheld =>
    cases held with
    | empty => exact .inl hn
    | built k =>
      obtain rfl := h.own i slot k (Sequence.slot?_eq_some hs) (Slot.number?_eq_some.mpr hheld)
      have : .close n ∈ q.session.calls ∨ n = k := by
        simpa [Sequence.closeHeld, Session.close, Event.call?] using hn
      rcases this with hn | rfl
      · exact .inl hn
      · exact .inr ⟨_, rfl⟩
  | closedAll _ => exact absurd trivial he
  | dropped _ => exact absurd trivial he

theorem over_append {log : Log} : Over (log ++ [(m, a)]) ↔ Over log ∨ Ends (m, a) := by
  simp [Over, or_and_right, exists_or]

theorem start_traced (s : Scan) : Traced [] (.start s) := by
  refine ⟨?_, ?_, ?_, ?_⟩
  · intro _ n hn
    cases hn
  · intro n r hr
    cases hr
  · intro h
    obtain ⟨entry, he, -⟩ := h
    cases he
  · intro he
    cases he

theorem Moved.traced {log : Log} (hm : Moved s q m a q') (hscope : s.context.scope.NeverRepeats)
    (hr : Sound s q.session) (hal : Aligned s q) (h : Traced log q) : Traced (log ++ [(m, a)]) q' := by
  refine ⟨?_, ?_, ?_, ?_⟩
  · intro ho n hn
    rw [over_append, not_or] at ho
    rcases hm.closes hscope hr hal ho.2 hn with hn | ⟨r, hr⟩
    · obtain ⟨r, hlog⟩ := h.through ho.1 n hn
      exact ⟨r, List.mem_append_left _ hlog⟩
    · exact ⟨r, List.mem_append_right _ (List.mem_singleton.mpr hr.symm)⟩
  · intro n r hlog
    rcases List.mem_append.mp hlog with hlog | hlog
    · exact hm.shut (h.shut n r hlog)
    · obtain ⟨rfl, rfl⟩ := Prod.mk.inj (List.mem_singleton.mp hlog)
      cases hm with
      | gone _ hg => simp at hg
      | closedBefore hs hnone => exact ⟨_, Sequence.slot?_eq_some hs, hnone⟩
      | closed hs _ =>
        have hlt := (List.getElem?_eq_some_iff.mp (Sequence.slot?_eq_some hs)).1
        exact ⟨_, List.getElem?_set_self hlt, rfl⟩
  · intro ho
    rw [over_append] at ho
    by_cases hlog : Over log
    · exact hm.finished (h.after hlog)
    · have he := ho.resolve_left hlog
      cases hm with
      | gone hended _ => exact absurd (h.ended hended) hlog
      | failed _ _ _ _ | closedAll _ | dropped _ => exact ⟨holding_emptied _, rfl⟩
      | unheld _ hmoves =>
        simp only [List.mem_cons, List.not_mem_nil, or_false] at hmoves
        rcases hmoves with rfl | rfl | rfl <;> cases he
      | _ => cases he
  · intro hended
    rw [over_append]
    cases hm with
    | closedAll _ | dropped _ => exact .inr trivial
    | _ => exact .inl (h.ended hended)

end Moves

/-! ## Whole runs -/

/-- How the readers of a run are released. Reader `n` is the one behind handle `n`, and is built for
the `n`-th split. -/
structure ReleasedOnce (s : Scan) (log : Log) (q : Sequence) : Prop where
  atMostOnce : ∀ n, q.session.calls.count (.close n) ≤ 1
  onceOver : Over log → ∀ n < q.session.built.length, q.session.calls.count (.close n) = 1
  behindHandle : ∀ n < q.session.built.length, .close n ∉ q.session.calls →
    ∃ slot, q.slots[n]? = some slot ∧ slot.reader = some (.built n)
  throughHandle : ¬ Over log → ∀ n < q.session.built.length,
    .close n ∈ q.session.calls ↔ ∃ r, (.close n, .close r) ∈ log
  neverAfter : Orderly q.session.calls
  refused : ∀ (n : Nat) (split : Split) (slot : Slot), s.part.splits[n]? = some split →
    .close n ∈ q.session.calls → q.slot? n = some slot →
    q.pull n = (some (.error (.released split.key)), q)

theorem ReleasedOnce.of_kept {s : Scan} {log : Log} {q : Sequence} (ha : Accounted q) (hal : Aligned s q)
    (ht : Traced log q) : ReleasedOnce s log q := by
  refine ⟨ha.count_le_one, ?_, ?_, ?_, ha.orderly, ?_⟩
  · intro ho n hn
    exact ha.count_eq_one hn (by simp [(ht.after ho).1])
  · intro n hn hc
    obtain ⟨i, slot, hi, hnum⟩ := mem_holding.mp (ha.mem_held hn hc)
    obtain rfl := hal.own i slot n hi hnum
    exact ⟨slot, hi, Slot.number?_eq_some.mp hnum⟩
  · intro ho n hn
    refine ⟨ht.through ho n, ?_⟩
    intro h
    obtain ⟨r, hr⟩ := h
    obtain ⟨slot, hs, hnone⟩ := ht.shut n r hr
    have hheld : n ∉ holding q.slots := by
      intro hheld
      obtain ⟨i, slot', hi, hnum⟩ := mem_holding.mp hheld
      obtain rfl := hal.own i slot' n hi hnum
      obtain rfl := Option.some.inj (hs.symm.trans hi)
      simp [Slot.number?, hnone] at hnum
    exact List.count_pos_iff.mp (by rw [ha.count_eq_one hn hheld]; exact Nat.one_pos)
  · intro n split slot hsplit hc hs
    have hi := Sequence.slot?_eq_some hs
    obtain ⟨hkey, hne⟩ := hal.keyed n slot split hi hsplit
    have hnone : slot.reader = none := by
      cases hr : slot.reader with
      | none => rfl
      | some held =>
        cases held with
        | empty => exact absurd hr hne
        | built k =>
          have hk := Slot.number?_eq_some.mpr hr
          obtain rfl := hal.own n slot k hi hk
          exact absurd hc (ha.not_closed (mem_holding.mpr ⟨k, slot, hi, hk⟩))
    simp only [Sequence.pull, hs, hnone, hkey]

theorem readers_released_once (s : Scan) (hscope : s.context.scope.NeverRepeats) (moves : List Move) :
    ReleasedOnce s (play s moves).1 (play s moves).2 := by
  have kept := play_keeps (s := s)
    (I := fun log q => Reached s q.session ∧ Accounted q ∧ Aligned s q ∧ Traced log q)
    ⟨.start, start_accounted s, start_aligned s, start_traced s⟩
    (by
      intro log q m h
      obtain ⟨hr, ha, hal, ht⟩ := h
      have hm := move_cases s q m
      exact ⟨hm.reached hr, hm.accounted hscope hr.sound ha, hm.aligned hscope hr.sound hal,
        hm.traced hscope hr.sound hal ht⟩)
    moves
  obtain ⟨-, ha, hal, ht⟩ := kept
  exact .of_kept ha hal ht

def readableSplit (key : String) : Split := ⟨key, "[1,[\"file\",\"\"]]".toUTF8.toList, []⟩

/-- Of two splits the second has a reader that cannot be wrapped. No reader closes without a fault. -/
def halfWrappedScan : Scan where
  resolver := ⟨.empty, .everything⟩
  constructors := .uniform fun _ _ => .ok ⟨[], [], some (.external "stuck")⟩
  serdes := .permissive
  deltas := Delta.recorded
  table := { Table.ofFormat "serde" "text" with properties := Dict.ofList [(Layout.columnsKey, "a")] }
  part := ⟨[readableSplit "first", readableSplit "second"], ["a"], none⟩
  context := ⟨true, "reader", .current, "root"⟩
  composite := ⟨["a"], fun split _ reader => if split.key = "first" then .ok reader else .error "no"⟩
  settings := .empty

def halfWrappedMoves : List Move := [.next, .pull 0, .close 0, .next, .pull 0, .closeAll, .drop]

theorem halfWrapped_released_once :
    halfWrappedScan.context.scope.NeverRepeats ∧
      (play halfWrappedScan halfWrappedMoves).2.session.calls = [.pull 0, .close 0, .close 1] ∧
      ReleasedOnce halfWrappedScan (play halfWrappedScan halfWrappedMoves).1
        (play halfWrappedScan halfWrappedMoves).2 :=
  ⟨Scope.current_neverRepeats, by decide +kernel,
    readers_released_once halfWrappedScan Scope.current_neverRepeats halfWrappedMoves⟩

end TableScan.Scan
