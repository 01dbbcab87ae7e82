/-
  TableScan.Proofs.Order — readers come one at a time and in the order of their splits.

  `asked` is what asking for readers has given so far, and its length is whose turn it is. Asking once
  more gives what is `Due`: the reader of the split whose turn it is, or a fault that names it,
  until every split had its turn or one failed (`Spent`); from then on nothing. Only asking calls
  collaborators, and only for that one split.

  - `InTurn`: where the sequence stands, told by the answers so far. Every move keeps it.
  - `Blank`: the same for a scan without splits, which calls nobody.
  - `readers_in_turn`: both, for every move of every run.
-/

import TableScan.Proofs.CloseFaults
import TableScan.Proofs.Independence

namespace TableScan.Scan

/-! ## Calls to collaborators -/

/-- The event is a call to a collaborator, not to a reader. -/
def Event.isConsultation : Event → Bool
  | .pulled _ | .closed _ => false
  | _ => true

namespace Session

/-- The calls to collaborators, in order. -/
def consulted (σ : Session) : List Event := σ.events.filter Event.isConsultation

@[simp] theorem consulted_closeEach (σ : Session) (readers : List Nat) :
    (σ.closeEach readers).consulted = σ.consulted := by
  have : (readers.map Event.closed).filter Event.isConsultation = [] := by
    rw [List.filter_eq_nil_iff]
    intro e he
    obtain ⟨n, -, rfl⟩ := List.mem_map.mp he
    exact Bool.false_ne_true
  rw [consulted, closeEach, List.filter_append, this, List.append_nil, consulted]

/-- Constructors are collaborators. -/
theorem requests_of_consulted {σ τ : Session} (h : τ.consulted = σ.consulted) : τ.requests = σ.requests := by
  have hfilter (σ : Session) : σ.requests = σ.consulted.filterMap Event.request? := by
    rw [consulted, List.filterMap_filter, requests]
    refine List.filterMap_congr ?_
    intro e _
    cases e <;> rfl
  rw [hfilter τ, hfilter σ, h]

end Session

/-! ## Answers -/

/-- What a move that asks for a reader gives, if there is a sequence to ask. -/
def Answer.next? : Answer → Option Sequence.Next
  | .next .gone => none
  | .next a => some a
  | _ => none

def Answer.isPull : Answer → Bool
  | .pull _ => true
  | _ => false

/-- What asking for readers has given, in order. -/
def asked (log : Log) : List Sequence.Next := log.filterMap fun entry => entry.2.next?

theorem asked_append (log : Log) (m : Move) (a : Answer) : asked (log ++ [(m, a)]) = asked log ++ a.next?.toList := by
  rw [asked, List.filterMap_append, asked]
  cases h : a.next? <;> simp [h]

/-- Every split had its turn, or one failed. -/
def Spent (s : Scan) (earlier : List Sequence.Next) : Prop :=
  s.part.splits.length ≤ earlier.length ∨ ∃ f, .failed f ∈ earlier

/-- What may come after these answers. -/
inductive Due (s : Scan) (earlier : List Sequence.Next) : Sequence.Next → Prop
  | reader {split : Split} {fields : List Field} : ¬ Spent s earlier →
      s.part.splits[earlier.length]? = some split → Due s earlier (.reader earlier.length split.key fields)
  | failed {split : Split} {fault : ScanFault} : ¬ Spent s earlier →
      s.part.splits[earlier.length]? = some split → fault.split? = some split.key → Due s earlier (.failed fault)
  | exhausted : Spent s earlier → Due s earlier .exhausted

@[simp] theorem split?_ofSplit (key : String) (fault : SplitFault) (suppressed : List ReleaseFault) :
    (ScanFault.ofSplit key fault suppressed).split? = some key := by
  cases fault <;> rfl

/-! ## A scan of splits -/

/-- Where the sequence stands after these answers. -/
structure InTurn (s : Scan) (answers : List Sequence.Next) (q : Sequence) : Prop where
  reading : ∀ n, q.source = .splits n → answers.length = n ∧ ∀ f, .failed f ∉ answers
  finished : q.source = .finished → q.ended = true ∨ Spent s answers
  nonblank : q.source ≠ .emptyScan

section InTurn

variable {s : Scan} {answers : List Sequence.Next} {q q' : Sequence} {m : Move} {a : Answer} {n : Nat} {split : Split}

theorem start_inTurn (hne : s.part.splits ≠ []) : InTurn s [] (.start s) := by
  have hsource : (Sequence.start s).source = .splits 0 := by
    unfold Sequence.start
    simp [hne]
  refine ⟨?_, ?_, ?_⟩
  · intro n hn
    cases hsource.symm.trans hn
    exact ⟨rfl, by simp⟩
  · intro hf
    cases hsource.symm.trans hf
  · rw [hsource]
    nofun

theorem InTurn.not_spent (h : InTurn s answers q) (hs : q.source = .splits n) (hn : s.part.splits[n]? = some split) :
    ¬ Spent s answers := by
  obtain ⟨hlen, hok⟩ := h.reading n hs
  rintro (hle | ⟨f, hf⟩)
  · have := (List.getElem?_eq_some_iff.mp hn).1
    omega
  · exact hok f hf

theorem InTurn.spent (h : InTurn s answers q) (hs : q.source = .splits n) (hn : s.part.splits[n]? = none) :
    Spent s answers := by
  have := (h.reading n hs).1
  exact .inl (by rw [this]; exact List.getElem?_eq_none_iff.mp hn)

theorem Spent.append (h : Spent s answers) (more : List Sequence.Next) : Spent s (answers ++ more) := by
  rcases h with hle | ⟨f, hf⟩
  · exact .inl (by rw [List.length_append]; omega)
  · exact .inr ⟨f, List.mem_append_left _ hf⟩

theorem InTurn.over (h : InTurn s answers q) (he : q.ended = false) (hs : q.source = .finished) : Spent s answers := by
  refine (h.finished hs).resolve_left ?_
  rw [he]
  exact Bool.false_ne_true

/-- A move that asks for no reader, and leaves the sequence where it stands or ends it. -/
theorem InTurn.aside (h : InTurn s answers q) (hs : q'.source = q.source ∧ q'.ended = q.ended ∨
    q'.source = .finished ∧ q'.ended = true) : InTurn s answers q' := by
  rcases hs with ⟨hs, he⟩ | ⟨hs, he⟩
  · exact ⟨fun n hn => h.reading n (hs ▸ hn), fun hf => he ▸ h.finished (hs ▸ hf), hs ▸ h.nonblank⟩
  · refine ⟨?_, fun _ => .inl he, by rw [hs]; nofun⟩
    intro n hn
    cases hs.symm.trans hn

theorem Moved.inTurn (hm : Moved s q m a q') (h : InTurn s answers q) : InTurn s (answers ++ a.next?.toList) q' := by
  -- Only three ways of asking take a turn; every other answer but `exhausted` is no answer to asking.
  have haside {a : Answer} (ha : a.next? = none) (hs : q'.source = q.source ∧ q'.ended = q.ended ∨
      q'.source = .finished ∧ q'.ended = true) : InTurn s (answers ++ a.next?.toList) q' := by
    rw [ha]
    simpa using h.aside hs
  have hover (hs : q'.source = .finished) {more : List Sequence.Next} (hspent : Spent s (answers ++ more)) :
      InTurn s (answers ++ more) q' := by
    refine ⟨?_, fun _ => .inr hspent, by simp [hs]⟩
    intro n hn
    cases hs.symm.trans hn
  cases hm with
  | gone _ hmoves =>
    refine haside ?_ (.inl ⟨rfl, rfl⟩)
    simp only [List.mem_cons, Prod.mk.injEq, List.not_mem_nil, or_false] at hmoves
    rcases hmoves with ⟨-, rfl⟩ | ⟨-, rfl⟩ | ⟨-, rfl⟩ <;> rfl
  | unheld _ _ | refused _ _ | pulled _ _ | closedBefore _ _ | closed _ _ | gaveUp _ =>
    exact haside rfl (.inl ⟨rfl, rfl⟩)
  | closedAll _ | dropped _ => exact haside rfl (.inr ⟨rfl, rfl⟩)
  | exhausted he hs =>
    exact hover hs ((h.over he hs).append _)
  | ranOut _ hs hn => exact hover rfl ((h.spent hs hn).append _)
  | nothingToRead _ hs => exact absurd hs h.nonblank
  | yielded _ hs hn _ =>
    obtain ⟨hlen, hok⟩ := h.reading _ hs
    refine ⟨?_, by simp, by simp⟩
    intro k hk
    cases hk
    refine ⟨by simp [Answer.next?, hlen], ?_⟩
    intro f hf
    simp [Answer.next?, hok f] at hf
  | failed _ _ _ _ => exact hover rfl (.inr ⟨_, List.mem_append_right _ (List.mem_singleton_self _)⟩)

theorem play_inTurn (hne : s.part.splits ≠ []) (moves : List Move) :
    InTurn s (asked (play s moves).1) (play s moves).2 :=
  play_keeps (s := s) (I := fun log q => InTurn s (asked log) q) (start_inTurn hne)
    (fun log q m h => asked_append log m _ ▸ (move_cases s q m).inTurn h) moves

/-- Asking while there is a sequence gives what is due. -/
theorem InTurn.due (h : InTurn s answers q) (hl : Lined s q) (he : q.ended = false) :
    ∃ a, (q.move s .next).1 = .next a ∧ Due s answers a := by
  have hm := next_cases s q
  rcases hq : q.move s .next with ⟨a, q'⟩
  rw [hq] at hm
  cases hm with
  | gone hended _ => cases he.symm.trans hended
  | unheld _ hmoves => simp at hmoves
  | exhausted he hs => exact ⟨_, rfl, .exhausted (h.over he hs)⟩
  | ranOut _ hs hn => exact ⟨_, rfl, .exhausted (h.spent hs hn)⟩
  | nothingToRead _ hs => exact absurd hs h.nonblank
  | yielded _ hs hn _ =>
    refine ⟨_, rfl, ?_⟩
    obtain ⟨hlen, -⟩ := h.reading _ hs
    rw [hl.reading _ hs, ← hlen]
    exact .reader (h.not_spent hs hn) (hlen ▸ hn)
  | failed _ hs hn _ =>
    obtain ⟨hlen, -⟩ := h.reading _ hs
    exact ⟨_, rfl, .failed (h.not_spent hs hn) (hlen ▸ hn) (split?_ofSplit ..)⟩

/-- No move calls a collaborator but asking for the reader of a split whose turn it is. -/
theorem Moved.idle (hm : Moved s q m a q') (h : InTurn s answers q)
    (hidle : m ≠ .next ∨ q.ended = true ∨ Spent s answers) :
    q'.session.consulted = q.session.consulted := by
  cases hm with
  | gone _ _ | unheld _ _ | exhausted _ _ | ranOut _ _ _ | nothingToRead _ _ | refused _ _ | closedBefore _ _
  | gaveUp _ => rfl
  | yielded he hs hn _ | failed he hs hn _ =>
    rcases hidle with hne | hended | hspent
    · exact absurd rfl hne
    · cases he.symm.trans hended
    · exact absurd hspent (h.not_spent hs hn)
  | @pulled _ _ held _ _ | @closed _ _ held _ _ =>
    cases held with
    | empty => rfl
    | built n =>
      simp [Sequence.pullHeld, Session.pull, Sequence.closeHeld, Session.close, Session.consulted, Session.record,
        Session.setReader, Event.isConsultation]
  | closedAll _ => exact Session.consulted_closeEach ..
  | dropped _ =>
    rw [Session.warnEach_eq]
    exact Session.consulted_closeEach ..

/-! ## What constructors are handed -/

/-- A split is handed to a constructor once, or not at all. -/
theorem demanded_once (hscope : s.context.scope.NeverRepeats) (split : Split) (entries : Nat) :
    demanded s split entries = [] ∨ ∃ r, demanded s split entries = [r] ∧ r.split = split := by
  unfold demanded
  split
  · rename_i again hs
    obtain rfl := hscope _ _ _ hs
    cases h : outlook s split with
    | error e => exact .inl (by simp [demand_of_error h])
    | ok p => exact .inr ⟨request s split p, by simp [demand_of_ok h], rfl⟩
  · exact .inl rfl

/-- A reader that was built was asked of a constructor. -/
theorem demanded_ne_nil {σ τ : Session} {number : Nat} (h : Sound s σ)
    (hc : (construct s split).run σ = (.ok number, τ)) : demanded s split σ.entries ≠ [] := by
  have ho := (construct_leads h split).answer
  rw [hc] at ho
  unfold outcome at ho
  unfold demanded
  split at ho
  · cases hp : outlook s split with
    | error e => rw [readerOf_of_error hp] at ho; cases ho
    | ok p => simp [demand_of_ok hp, List.replicate_succ]
  · cases ho

/-- Only the split whose turn it is is handed to constructors. -/
theorem InTurn.own (h : InTurn s answers q) (hr : Sound s q.session) (m : Move) :
    ∃ handed, (q.move s m).2.session.requests = q.session.requests ++ handed ∧
      (∀ r ∈ handed, m = .next ∧ s.part.splits[answers.length]? = some r.split) ∧
      (s.context.scope.NeverRepeats → handed.length ≤ 1) := by
  by_cases hturn : m = .next ∧ q.ended = false ∧ ¬ Spent s answers
  · obtain ⟨rfl, he, hspent⟩ := hturn
    cases hs : q.source with
    | finished => exact absurd (h.over he hs) hspent
    | emptyScan => exact absurd hs h.nonblank
    | splits n =>
      cases hn : s.part.splits[n]? with
      | none => exact absurd (h.spent hs hn) hspent
      | some split =>
        refine ⟨_, requests_of_next hr he hs hn, ?_, ?_⟩
        · intro r hmem
          obtain ⟨p, -, rfl⟩ := mem_demanded hmem
          rw [(h.reading n hs).1]
          exact ⟨rfl, hn⟩
        · intro hscope
          rcases demanded_once hscope split q.session.entries with hd | ⟨r, hd, -⟩ <;> simp [hd]
  · have hidle := (move_cases s q m).idle h (by grind)
    exact ⟨[], by rw [Session.requests_of_consulted hidle, List.append_nil], by simp, by simp⟩

/-- Constructors have been handed the first splits, each once. -/
structure HandedFirst (s : Scan) (q : Sequence) : Prop where
  inOrder : q.session.requests.map (·.split) <+: s.part.splits
  reading : ∀ n, q.source = .splits n → q.session.requests.map (·.split) = s.part.splits.take n

theorem HandedFirst.idle (h : HandedFirst s q) (hs : q'.source = q.source ∨ q'.source = .finished)
    (hr : q'.session.requests = q.session.requests) : HandedFirst s q' := by
  refine ⟨hr ▸ h.inOrder, ?_⟩
  intro n hn
  rcases hs with hs | hs
  · rw [hr]
    exact h.reading n (hs ▸ hn)
  · cases hs.symm.trans hn

/-- Asking for a reader hands on the next split, or none. -/
theorem HandedFirst.next (h : HandedFirst s q) (hr : Sound s q.session) (hscope : s.context.scope.NeverRepeats)
    (he : q.ended = false) (hs : q.source = .splits n) (hn : s.part.splits[n]? = some split) :
    (q.move s .next).2.session.requests.map (·.split) =
      s.part.splits.take (if demanded s split q.session.entries = [] then n else n + 1) := by
  rw [requests_of_next hr he hs hn, List.map_append, h.reading n hs]
  rcases demanded_once hscope split q.session.entries with hd | ⟨r, hd, hr⟩
  · simp [hd]
  · simp [hd, hr, List.take_add_one, hn]

theorem move_handedFirst (h : HandedFirst s q) (hr : Sound s q.session) (hscope : s.context.scope.NeverRepeats)
    (hi : InTurn s answers q) (m : Move) : HandedFirst s (q.move s m).2 := by
  have hm := move_cases s q m
  have hnext {n : Nat} {split : Split} (he : q.ended = false) (hs : q.source = .splits n)
      (hn : s.part.splits[n]? = some split) := h.next hr hscope he hs hn
  have hquiet (hne : m ≠ .next) := Session.requests_of_consulted (hm.idle hi (.inl hne))
  rcases hq : q.move s m with ⟨a, q'⟩
  rw [hq] at hm hquiet
  cases hm with
  | yielded he hs hn hc =>
    have hreq := hnext he hs hn
    rw [hq, if_neg (demanded_ne_nil hr hc)] at hreq
    refine ⟨hreq ▸ List.take_prefix .., ?_⟩
    intro k hk
    cases hk
    exact hreq
  | failed he hs hn _ =>
    have hreq := hnext he hs hn
    rw [hq] at hreq
    exact ⟨hreq ▸ List.take_prefix .., nofun⟩
  | ranOut _ _ _ => exact h.idle (.inr rfl) rfl
  | nothingToRead _ hs => exact absurd hs hi.nonblank
  | gone _ _ | unheld _ _ | exhausted _ _ | refused _ _ | closedBefore _ _ | gaveUp _ => exact h.idle (.inl rfl) rfl
  | pulled _ _ | closed _ _ => exact h.idle (.inl rfl) (hquiet nofun)
  | closedAll _ | dropped _ => exact h.idle (.inr rfl) (hquiet nofun)

theorem play_handedFirst (hne : s.part.splits ≠ []) (hscope : s.context.scope.NeverRepeats) (moves : List Move) :
    HandedFirst s (play s moves).2 := by
  have hstart : HandedFirst s (.start s) := by
    refine ⟨List.nil_prefix, ?_⟩
    intro n hn
    obtain ⟨hzero, -⟩ := (start_inTurn hne).reading n hn
    rw [← hzero]
    rfl
  have kept := play_keeps (s := s)
    (I := fun log q => Reached s q.session ∧ InTurn s (asked log) q ∧ HandedFirst s q)
    ⟨.start, start_inTurn hne, hstart⟩
    (by
      intro log q m h
      obtain ⟨hr, hi, hf⟩ := h
      have hm := move_cases s q m
      exact ⟨hm.reached hr, asked_append log m _ ▸ hm.inTurn hi, move_handedFirst hf hr.sound hscope hi m⟩)
    moves
  exact kept.2.2

end InTurn

/-! ## A scan without splits -/

/-- The slot of the reader of a scan without splits. -/
def Slot.IsBlank (slot : Slot) : Prop := slot.split = emptyScanKey ∧ slot.number? = none

/-- What a scan without splits comes to: one reader without columns or batches, and no call to anybody. -/
structure Blank (log : Log) (q : Sequence) : Prop where
  answers : asked log = [] ∨ ∃ k, asked log = .reader 0 emptyScanKey [] :: List.replicate k .exhausted
  standing : q.source = .emptyScan ∧ asked log = [] ∧ q.slots = [] ∨
    q.source = .finished ∧ (q.ended = true ∨ asked log ≠ [])
  slots : ∀ slot ∈ q.slots, slot.IsBlank
  silent : q.session.events = []
  pulls : ∀ h a, (.pull h, .pull a) ∈ log → a = .ok none ∨ a = .error (.released emptyScanKey)

section Blank

variable {s : Scan} {log : Log} {q q' : Sequence} {m : Move} {a : Answer}

theorem start_blank (hs : s.part.splits = []) : Blank [] (.start s) := by
  refine ⟨.inl rfl, .inl ⟨?_, rfl, rfl⟩, ?_, rfl, ?_⟩
  · unfold Sequence.start
    simp [hs]
  · intro slot hslot
    cases hslot
  · intro h a hlog
    cases hlog

theorem holding_eq_nil_of_blank {slots : List Slot} (h : ∀ slot ∈ slots, slot.IsBlank) : holding slots = [] :=
  List.filterMap_eq_nil_iff.mpr fun slot hs => (h slot hs).2

/-- The reader of a scan without splits is no reader that was built. -/
theorem Slot.held_empty {slot : Slot} {held : Held} (hn : slot.number? = none) (hr : slot.reader = some held) :
    held = .empty := by
  cases held with
  | empty => rfl
  | built n => cases hn.symm.trans (Slot.number?_eq_some.mpr hr)

/-- A move that does not ask for a reader. -/
theorem Blank.aside (h : Blank log q) (ha : a.next? = none)
    (hs : q'.source = q.source ∧ q'.ended = q.ended ∨ q'.source = .finished ∧ q'.ended = true)
    (hlength : q'.slots.length = q.slots.length)
    (hslots : ∀ slot ∈ q'.slots, slot.IsBlank)
    (hevents : q'.session.events = q.session.events)
    (hpull : ∀ x, a = .pull x → x = .ok none ∨ x = .error (.released emptyScanKey)) :
    Blank (log ++ [(m, a)]) q' := by
  have hasked : asked (log ++ [(m, a)]) = asked log := by simp [asked_append, ha]
  refine ⟨hasked ▸ h.answers, ?_, hslots, hevents.trans h.silent, ?_⟩
  · rw [hasked]
    rcases hs with ⟨hs, he⟩ | ⟨hs, he⟩
    · rw [hs, he, List.eq_nil_iff_length_eq_zero (l := q'.slots), hlength, ← List.eq_nil_iff_length_eq_zero]
      exact h.standing
    · exact .inr ⟨hs, .inl he⟩
  · intro i x hx
    rcases List.mem_append.mp hx with hx | hx
    · exact h.pulls i x hx
    · obtain ⟨-, rfl⟩ := Prod.mk.inj (List.mem_singleton.mp hx)
      exact hpull x rfl

/-- Asking once more, when nothing is left. -/
theorem Blank.exhausted (h : Blank log q) (he : q.ended = false) (hs : q.source = .finished) :
    Blank (log ++ [(.next, .next .exhausted)]) q := by
  have hne : asked log ≠ [] := by
    rcases h.standing with ⟨hs', -⟩ | ⟨-, he' | hne⟩
    · cases hs.symm.trans hs'
    · cases he.symm.trans he'
    · exact hne
  refine ⟨.inr ?_, .inr ⟨hs, .inr (by simp [asked_append, hne])⟩, h.slots, h.silent, ?_⟩
  · obtain ⟨k, hk⟩ := h.answers.resolve_left hne
    exact ⟨k + 1, by rw [asked_append, hk, List.replicate_succ']; rfl⟩
  · intro i x hx
    exact h.pulls i x (by simpa using hx)

theorem Moved.blank (hm : Moved s q m a q') (h : Blank log q) : Blank (log ++ [(m, a)]) q' := by
  have hmem {i : Nat} {slot : Slot} (hs : q.slot? i = some slot) : slot.IsBlank :=
    h.slots slot (List.mem_of_getElem? (Sequence.slot?_eq_some hs))
  have hset (i : Nat) {slot : Slot} (hs : slot.IsBlank) : ∀ other ∈ q.slots.set i slot, other.IsBlank := by
    intro other ho
    rcases List.mem_or_eq_of_mem_set ho with ho | rfl
    · exact h.slots other ho
    · exact hs
  have hemptied : ∀ slot ∈ q.slots.map Slot.emptied, slot.IsBlank := by
    intro other ho
    obtain ⟨slot, hslot, rfl⟩ := List.mem_map.mp ho
    exact ⟨(h.slots slot hslot).1, rfl⟩
  have hclosed : (q.session.closeEach (holding q.slots)).events = q.session.events := by
    rw [holding_eq_nil_of_blank h.slots, Session.closeEach_nil]
  have hother {a : Answer} (ha : a.isPull = false) :
      ∀ x, a = .pull x → x = .ok none ∨ x = .error (.released emptyScanKey) := by
    rintro x rfl
    cases ha
  have hnone {n : Nat} (hs : q.source = .splits n) : False := by
    rcases h.standing with ⟨hs', -⟩ | ⟨hs', -⟩ <;> cases hs.symm.trans hs'
  cases hm with
  | ranOut _ hs _ | yielded _ hs _ _ | failed _ hs _ _ => exact (hnone hs).elim
  | exhausted he hs => exact h.exhausted he hs
  | nothingToRead he hs =>
    obtain ⟨-, hasked, hslots⟩ : q.source = .emptyScan ∧ asked log = [] ∧ q.slots = [] := by
      rcases h.standing with hb | ⟨hs', -⟩
      · exact hb
      · cases hs.symm.trans hs'
    refine ⟨.inr ⟨0, by simp [asked_append, hasked, hslots, Answer.next?]⟩, .inr ⟨rfl, .inr ?_⟩, ?_, h.silent, ?_⟩
    · simp [asked_append, Answer.next?]
    · simp [hslots, Slot.IsBlank, Slot.number?]
    · intro i x hx
      exact h.pulls i x (by simpa using hx)
  | gone _ hmoves =>
    have ha : a.next? = none ∧ a.isPull = false := by
      simp only [List.mem_cons, Prod.mk.injEq, List.not_mem_nil, or_false] at hmoves
      rcases hmoves with ⟨-, rfl⟩ | ⟨-, rfl⟩ | ⟨-, rfl⟩ <;> exact ⟨rfl, rfl⟩
    exact h.aside ha.1 (.inl ⟨rfl, rfl⟩) rfl h.slots rfl (hother ha.2)
  | unheld _ _ | closedBefore _ _ => exact h.aside rfl (.inl ⟨rfl, rfl⟩) rfl h.slots rfl (hother rfl)
  | refused hs _ =>
    refine h.aside rfl (.inl ⟨rfl, rfl⟩) rfl h.slots rfl ?_
    intro x hx
    rw [← Answer.pull.inj hx, (hmem hs).1]
    exact .inr rfl
  | pulled hs hr =>
    obtain rfl := Slot.held_empty (hmem hs).2 hr
    exact h.aside rfl (.inl ⟨rfl, rfl⟩) rfl h.slots rfl fun x hx => .inl (Answer.pull.inj hx).symm
  | closed hs hr =>
    obtain rfl := Slot.held_empty (hmem hs).2 hr
    exact h.aside rfl (.inl ⟨rfl, rfl⟩) List.length_set (hset _ ⟨(hmem hs).1, rfl⟩) rfl (hother rfl)
  | gaveUp hs =>
    exact h.aside rfl (.inl ⟨rfl, rfl⟩) List.length_set (hset _ ⟨(hmem hs).1, (hmem hs).2⟩) rfl (hother rfl)
  | closedAll _ => exact h.aside rfl (.inr ⟨rfl, rfl⟩) (List.length_map _) hemptied hclosed (hother rfl)
  | dropped _ =>
    refine h.aside rfl (.inr ⟨rfl, rfl⟩) (List.length_map _) hemptied ?_ (hother rfl)
    rw [Session.warnEach_eq]
    exact hclosed

theorem play_blank (hs : s.part.splits = []) (moves : List Move) : Blank (play s moves).1 (play s moves).2 :=
  play_keeps (s := s) (start_blank hs) (fun _ q m h => (move_cases s q m).blank h) moves

/-- The first to ask gets the reader. -/
theorem Blank.next (h : Blank log q) (he : q.ended = false) :
    (q.move s .next).1 = .next (if (asked log).isEmpty then .reader 0 emptyScanKey [] else .exhausted) := by
  rcases h.standing with ⟨hs, hasked, hslots⟩ | ⟨hs, hended | hne⟩
  · simp [Sequence.move, Sequence.next, he, hs, hasked, hslots, Sequence.give, Sequence.heldReader, Reader.empty]
  · cases he.symm.trans hended
  · simp [Sequence.move, Sequence.next, he, hs, hne]

end Blank

/-! ## Whole runs -/

/-- What a move comes to after these answers. -/
structure TakesTurn (s : Scan) (earlier : List Sequence.Next) (q : Sequence) (m : Move) : Prop where
  /-- Asking gives what is due, for as long as there is a sequence. -/
  due : m = .next → q.ended = false → ∃ a, (q.move s m).1 = .next a ∧ Due s earlier a
  /-- Nothing else calls a collaborator, and neither does asking when nothing is left. -/
  idle : m ≠ .next ∨ q.ended = true ∨ Spent s earlier →
    (q.move s m).2.session.consulted = q.session.consulted
  /-- Constructors are handed the split whose turn it is, and no more than once. -/
  own : ∃ handed, (q.move s m).2.session.requests = q.session.requests ++ handed ∧
    (∀ r ∈ handed, m = .next ∧ s.part.splits[earlier.length]? = some r.split) ∧
    (s.context.scope.NeverRepeats → handed.length ≤ 1)

/-- One reader without columns or batches is given, then none for ever, and nobody is called. -/
structure OneBlankReader (s : Scan) (log : Log) (q : Sequence) : Prop where
  answers : asked log = [] ∨ ∃ k, asked log = .reader 0 emptyScanKey [] :: List.replicate k .exhausted
  next : q.ended = false →
    (q.move s .next).1 = .next (if (asked log).isEmpty then .reader 0 emptyScanKey [] else .exhausted)
  pulls : ∀ h a, (.pull h, .pull a) ∈ log → a = .ok none ∨ a = .error (.released emptyScanKey)
  silent : q.session.events = []

theorem readers_in_turn (s : Scan) (moves : List Move) :
    (s.part.splits ≠ [] →
      (∀ m, TakesTurn s (asked (play s moves).1) (play s moves).2 m) ∧
      (s.context.scope.NeverRepeats → (play s moves).2.session.requests.map (·.split) <+: s.part.splits)) ∧
    (s.part.splits = [] → OneBlankReader s (play s moves).1 (play s moves).2) := by
  refine ⟨?_, ?_⟩
  · intro hne
    have hi := play_inTurn hne moves
    refine ⟨?_, fun hscope => (play_handedFirst hne hscope moves).inOrder⟩
    intro m
    refine ⟨?_, (move_cases s _ m).idle hi, hi.own (play_reached s moves).sound m⟩
    rintro rfl
    exact hi.due (play_lined s moves)
  · intro hs
    have hb := play_blank hs moves
    exact ⟨hb.answers, hb.next, hb.pulls, hb.silent⟩

/-- After one reader the second split failed, and from then on not a word is said to anybody. -/
theorem halfWrapped_in_turn :
    halfWrappedScan.part.splits ≠ [] ∧ driftingScan.part.splits = [] ∧
      (play halfWrappedScan halfWrappedMoves).2.session.requests.map (·.split.key) = ["first", "second"] ∧
      (∀ m, TakesTurn halfWrappedScan (asked (play halfWrappedScan [.next, .pull 0, .next]).1)
        (play halfWrappedScan [.next, .pull 0, .next]).2 m) ∧
      OneBlankReader driftingScan (play driftingScan [.next, .pull 0, .close 0, .next]).1
        (play driftingScan [.next, .pull 0, .close 0, .next]).2 := by
  have hne : halfWrappedScan.part.splits ≠ [] := nofun
  refine ⟨hne, rfl, by decide +kernel, ?_, ?_⟩
  · exact ((readers_in_turn halfWrappedScan [.next, .pull 0, .next]).1 hne).1
  · exact (readers_in_turn driftingScan [.next, .pull 0, .close 0, .next]).2 rfl

end TableScan.Scan
