/-
  TableScan.Proofs.RecordedDeltas — the deltas that a split records and the deltas that lie under
  its root are the same, if the directories there are those that the record stands for.

  A recorded range stands for one directory, or for one for each of its statements (`parts`). The
  directory is named by a rule (`Part.Named`): a word, the two write ids and the statement, with
  underscores between them and with zeros in front of numbers that are short. The rule tells
  which names there are, not how to come by them.

  - `isPadded_iff`: there is one way to write a number in so many digits or more.
  - `Part.named_iff`, `Part.Named.unique`: each part has one name, which no other part has.
  - `Part.Named.prefixed`: and a listing knows it for the name of a delta.
  - `listers_agree`: what is recorded, and that it is what is listed.
-/

import Mathlib.Data.List.Forall2
import Mathlib.Data.List.Nodup
import TableScan.Proofs.ListedDeltas
import TableScan.Proofs.SchemaLayouts
import TableScan.Proofs.WritableTypes

namespace TableScan

/-! ## Padded numerals -/

namespace Text

/-- The digits of a number, with zeros in front of them as far as they are fewer than `width`. -/
structure IsPadded (width n : Nat) (ds : List Char) : Prop where
  digits : ∀ c ∈ ds, c.isDigit = true
  value : numeralValue ds = n
  wide : width ≤ ds.length
  shortest : width < ds.length → ds.head? ≠ some '0'

/-- Digits are a canonical numeral behind zeros. -/
theorem canonical_behind_zeros {ds : List Char} (hne : ds ≠ []) (hdigits : ∀ c ∈ ds, c.isDigit = true) :
    ∃ k rest, ds = List.replicate k '0' ++ rest ∧ IsCanonical rest := by
  induction ds with
  | nil => exact absurd rfl hne
  | cons c ds ih =>
    by_cases hzero : c = '0' ∧ ds ≠ []
    · obtain ⟨rfl, hds⟩ := hzero
      obtain ⟨k, rest, rfl, hrest⟩ := ih hds fun d hd => hdigits d (List.mem_cons_of_mem _ hd)
      exact ⟨k + 1, rest, rfl, hrest⟩
    · refine ⟨0, c :: ds, rfl, hne, hdigits, ?_⟩
      intro hhead
      obtain rfl : c = '0' := Option.some.inj hhead
      rw [Classical.not_not.mp fun hds => hzero ⟨rfl, hds⟩]

theorem isDigit_of_mem_padded (width n : Nat) : ∀ c ∈ padded width n, c.isDigit = true := by
  intro c hc
  rcases List.mem_append.mp hc with hzero | hdigit
  · rw [List.eq_of_mem_replicate hzero]
    rfl
  · exact isDigit_of_mem_numeral n c hdigit

theorem isPadded_padded {width : Nat} (hwidth : 0 < width) (n : Nat) : IsPadded width n (padded width n) := by
  refine ⟨isDigit_of_mem_padded width n, numeralValue_padded width n, ?_, ?_⟩
  · rw [padded, List.length_append, List.length_replicate]
    omega
  · intro hlong hhead
    rw [padded, List.length_append, List.length_replicate] at hlong
    have hnone : width - (numeral n).length = 0 := by omega
    rw [padded, hnone, List.replicate_zero, List.nil_append] at hhead
    have hone := congrArg List.length ((isCanonical_numeral n).shortest hhead)
    rw [List.length_singleton] at hone
    omega

/-- By what is behind the zeros, which are as many as it takes to come to the width. -/
theorem isPadded_iff {width n : Nat} (hwidth : 0 < width) {ds : List Char} :
    IsPadded width n ds ↔ ds = padded width n := by
  constructor
  · intro h
    have hwide := h.wide
    have hne : ds ≠ [] := by
      intro hnil
      rw [hnil, List.length_nil] at hwide
      omega
    obtain ⟨k, rest, rfl, hrest⟩ := canonical_behind_zeros hne h.digits
    have hn : numeral n = rest := by
      rw [← h.value, numeralValue_zeros, hrest.numeral]
    rw [List.length_append, List.length_replicate] at hwide
    have hk : k = width - rest.length := by
      by_cases hzero : k = 0
      · omega
      · have hlong := mt h.shortest (Classical.not_not.mpr ?_)
        · rw [List.length_append, List.length_replicate] at hlong
          omega
        · obtain ⟨j, rfl⟩ := Nat.exists_eq_succ_of_ne_zero hzero
          rfl
    rw [padded, hn, hk]
  · rintro rfl
    exact isPadded_padded hwidth n

theorem IsPadded.plain {width n : Nat} {ds : List Char} (h : IsPadded width n ds) : '_' ∉ ds := by
  intro hmem
  exact absurd (h.digits _ hmem) (by decide)

end Text

namespace Delta

open FileTree TableScan.Text

/-! ## Names -/

/-- A delta that has a directory of its own: a whole range, or one statement of it. -/
structure Part where
  first : UInt64
  last : UInt64
  statement : Option UInt32
  deriving DecidableEq

/-- What a recorded range stands for. -/
def parts (d : DeltaRange) : List Part :=
  match d.statements with
  | [] => [⟨d.first, d.last, none⟩]
  | s :: rest => (s :: rest).map fun s => ⟨d.first, d.last, some s⟩

/-- What stands between the underscores of a name. -/
inductive Part.Runs : Part → List (List Char) → Prop
  | range {first last : UInt64} {a b : List Char} : IsPadded 7 first.toNat a → IsPadded 7 last.toNat b →
      Runs ⟨first, last, none⟩ ["delta".toList, a, b]
  | statement {first last : UInt64} {s : UInt32} {a b c : List Char} : IsPadded 7 first.toNat a →
      IsPadded 7 last.toNat b → IsPadded 4 s.toNat c → Runs ⟨first, last, some s⟩ ["delta".toList, a, b, c]

def Part.Named (part : Part) (name : String) : Prop :=
  ∃ runs, part.Runs runs ∧ name.toList = ['_'].intercalate runs

variable {part other : Part} {name : String}

theorem Part.Runs.plain {runs : List (List Char)} (h : part.Runs runs) : ∀ run ∈ runs, '_' ∉ run := by
  cases h with
  | range ha hb => simp [ha.plain, hb.plain]
  | statement ha hb hc => simp [ha.plain, hb.plain, hc.plain]

theorem Part.Runs.unique {runs : List (List Char)} (h : part.Runs runs) (h' : other.Runs runs) : part = other := by
  cases h with
  | range ha hb =>
    cases h' with
    | range ha' hb' =>
      rw [UInt64.toNat_inj.mp (ha.value.symm.trans ha'.value), UInt64.toNat_inj.mp (hb.value.symm.trans hb'.value)]
  | statement ha hb hc =>
    cases h' with
    | statement ha' hb' hc' =>
      rw [UInt64.toNat_inj.mp (ha.value.symm.trans ha'.value), UInt64.toNat_inj.mp (hb.value.symm.trans hb'.value),
        UInt32.toNat_inj.mp (hc.value.symm.trans hc'.value)]

/-- No two parts have the same name. -/
theorem Part.Named.unique (h : part.Named name) (h' : other.Named name) : part = other := by
  obtain ⟨runs, hruns, hname⟩ := h
  obtain ⟨runs', hruns', hname'⟩ := h'
  have hne : runs ≠ [] := by cases hruns <;> simp
  have hne' : runs' ≠ [] := by cases hruns' <;> simp
  have hsame : runs = runs' := by
    rw [← splitChars_intercalate hne hruns.plain, ← splitChars_intercalate hne' hruns'.plain, ← hname, ← hname']
  exact hruns.unique (hsame ▸ hruns')

/-- Every name is recognised. -/
theorem Part.Named.prefixed (h : part.Named name) : "delta_".toList <+: name.toList := by
  obtain ⟨runs, hruns, hname⟩ := h
  rw [hname]
  cases hruns with
  | range | statement => exact ⟨_, by simp [List.intercalate]; rfl⟩

def Part.runs (part : Part) : List (List Char) :=
  "delta".toList :: padded 7 part.first.toNat :: padded 7 part.last.toNat ::
    (part.statement.map fun s => padded 4 s.toNat).toList

theorem Part.runs_iff {runs : List (List Char)} : part.Runs runs ↔ runs = part.runs := by
  constructor
  · intro h
    cases h with
    | range ha hb =>
      rw [(isPadded_iff (by decide)).mp ha, (isPadded_iff (by decide)).mp hb]
      rfl
    | statement ha hb hc =>
      rw [(isPadded_iff (by decide)).mp ha, (isPadded_iff (by decide)).mp hb, (isPadded_iff (by decide)).mp hc]
      rfl
  · rintro rfl
    obtain ⟨first, last, statement⟩ := part
    have hfirst : IsPadded 7 first.toNat _ := isPadded_padded (by decide) _
    have hlast : IsPadded 7 last.toNat _ := isPadded_padded (by decide) _
    cases statement with
    | none => exact .range hfirst hlast
    | some s => exact .statement hfirst hlast (isPadded_padded (by decide) _)

/-- The name that a part has. -/
def Part.directory (part : Part) : String := directoryName part.first part.last part.statement

theorem Part.directory_toList (part : Part) : part.directory.toList = ['_'].intercalate part.runs := by
  obtain ⟨first, last, statement⟩ := part
  cases statement <;> simp [Part.directory, Part.runs, directoryName, namePrefix, List.intercalate]

theorem Part.named_iff : part.Named name ↔ name = part.directory := by
  simp only [Part.Named, Part.runs_iff, exists_eq_left, ← Part.directory_toList, String.toList_inj]

/-! ## Listings -/

def recordedParts (r : TransactionalRange) : List Part := r.deltas.flatMap parts

theorem names_eq (d : DeltaRange) : names d = (parts d).map Part.directory := by
  unfold names parts
  cases d.statements with
  | nil => rfl
  | cons s rest => simp [Part.directory]

theorem recorded_eq (root : String) (r : TransactionalRange) :
    recorded root r = .ok ((recordedParts r).map fun part => join root part.directory) := by
  have hnames : r.deltas.flatMap names = (recordedParts r).map Part.directory := by
    rw [recordedParts, List.map_flatMap, funext names_eq]
  rw [recorded, hnames, List.map_map]
  rfl

/-- Every range stands for something. -/
theorem recordedParts_eq_nil_iff {r : TransactionalRange} : recordedParts r = [] ↔ r.deltas = [] := by
  have hparts : ∀ d, parts d ≠ [] := by
    intro d
    unfold parts
    cases d.statements <;> simp
  rw [recordedParts, List.flatMap_eq_nil_iff, List.eq_nil_iff_forall_not_mem]
  exact forall_congr' fun d => forall_congr' fun _ => iff_false_intro (hparts d)

/-- The directories among the entries that are named as deltas are those that the record stands for. -/
structure AsRecorded (entries : List (FileName × FileNode)) (r : TransactionalRange) : Prop where
  recorded : ∀ (name : String) (below : List (FileName × FileNode)), (name.toUTF8.toList, .directory below) ∈ entries →
    "delta_".toList <+: name.toList ∨ "delete_delta_".toList <+: name.toList →
    ∃ part ∈ recordedParts r, part.Named name
  present : ∀ part ∈ recordedParts r, ∀ name : String, part.Named name →
    ∃ below, (name.toUTF8.toList, .directory below) ∈ entries

theorem AsRecorded.mem_deltaNames_iff {entries : List (FileName × FileNode)} {r : TransactionalRange}
    (h : AsRecorded entries r) {name : String} : name ∈ deltaNames entries ↔ ∃ part ∈ recordedParts r, part.Named name := by
  rw [mem_deltaNames]
  constructor
  · intro hname
    obtain ⟨below, hentry, hprefix⟩ := hname
    exact h.recorded name below hentry hprefix
  · intro hname
    obtain ⟨part, hpart, hnamed⟩ := hname
    obtain ⟨below, hentry⟩ := h.present part hpart name hnamed
    exact ⟨below, hentry, .inl hnamed.prefixed⟩

theorem directory_injective : Function.Injective Part.directory := by
  intro part other h
  exact (Part.named_iff.mpr rfl).unique (Part.named_iff.mpr h)

/-- The record has a path for each part, in order. Deltas are pending for it if it has any range. If the directories
under a root that are named as deltas are those of the recorded parts, the same paths are listed there, and the same
answer is given. -/
theorem listers_agree (r : TransactionalRange) (root : String) :
    (∃ told, recorded root r = .ok told ∧
      List.Forall₂ (fun part path => ∃ name, part.Named name ∧ path = join root name) (recordedParts r) told ∧
      (told.Nodup ↔ (recordedParts r).Nodup)) ∧
    (∃ found, pending recorded r = .ok found ∧ (found = true ↔ r.deltas ≠ [])) ∧
    ∀ (t : FileTree) (place : List FileName) (entries : List (FileName × FileNode)),
      t.ArrivesAt root place → t.node? place = some (.directory entries) → AsRecorded entries r →
      (∃ found told, listed t root r = .ok found ∧ recorded root r = .ok told ∧ ∀ path, path ∈ found ↔ path ∈ told) ∧
      (Delta.root r = root → pending (listed t) r = pending recorded r) := by
  refine ⟨?_, ?_, ?_⟩
  · refine ⟨_, recorded_eq root r, ?_, ?_⟩
    · rw [List.forall₂_map_right_iff, List.forall₂_same]
      exact fun part _ => ⟨part.directory, Part.named_iff.mpr rfl, rfl⟩
    · exact List.nodup_map_iff ((join_injective root).comp directory_injective)
  · refine ⟨_, by rw [pending, recorded_eq]; rfl, ?_⟩
    rw [Bool.not_eq_true', List.isEmpty_eq_false_iff, Ne, List.map_eq_nil_iff, recordedParts_eq_nil_iff]
  · intro t place entries harrives hnode hrecorded
    have hlisted := listed_arrived harrives hnode r
    have hsame : ∀ path, path ∈ (deltaNames entries).map (join root) ↔
        path ∈ (recordedParts r).map fun part => join root part.directory := by
      intro path
      simp only [List.mem_map, hrecorded.mem_deltaNames_iff, Part.named_iff]
      constructor
      · rintro ⟨_, ⟨part, hpart, rfl⟩, hpath⟩
        exact ⟨part, hpart, hpath⟩
      · rintro ⟨part, hpart, hpath⟩
        exact ⟨_, ⟨part, hpart, rfl⟩, hpath⟩
    refine ⟨⟨_, _, hlisted, recorded_eq root r, hsame⟩, ?_⟩
    rintro rfl
    rw [pending, pending, hlisted, recorded_eq]
    refine congrArg (fun empty => Except.ok (!empty)) (Bool.eq_iff_iff.mpr ?_)
    simp only [List.isEmpty_iff, List.eq_nil_iff_forall_not_mem, hsame]

/-! Two statements of a range, another range that is recorded twice, and the directories for them. -/

def statedEntries : List (FileName × FileNode) :=
  [("base_0000005".toUTF8.toList, .directory []), ("delta_0000009_0000009".toUTF8.toList, .directory []),
    ("delta_0000010_12345678_0000".toUTF8.toList, .directory []),
    ("delta_0000010_12345678_0001".toUTF8.toList, .directory [])]

def statedTree : FileTree := ⟨.directory [("t".toUTF8.toList, .directory statedEntries)], []⟩

def statedBase : TransactionalRange :=
  ⟨"/t/base_0000005/bucket_00000", 0, 9, true, false, [⟨10, 12345678, [0, 1]⟩, ⟨9, 9, []⟩, ⟨9, 9, []⟩]⟩

theorem statedTree_root : statedTree.ArrivesAt "/t" ["t".toUTF8.toList] := by
  have hstart : statedTree.start "/t" = ⟨[], [[], "t".toUTF8.toList]⟩ := by decide +kernel
  have hchild : [("t".toUTF8.toList, FileNode.directory statedEntries)].lookup "t".toUTF8.toList =
      some (.directory statedEntries) := List.lookup_cons_self
  refine ⟨⟨by decide, by decide +kernel, by decide +kernel⟩, 0, _, by decide, ?_, .arrived _⟩
  rw [hstart]
  have henter : StepsTo statedTree 0 ⟨[], ["t".toUTF8.toList]⟩ _ :=
    .enter rfl (by decide +kernel) (by decide +kernel) hchild (by simp)
  exact .step (.stay rfl (.inl rfl)) (.step henter (.here _))

theorem statedEntries_recorded : AsRecorded statedEntries statedBase := by
  have hrecorded : ∀ name ∈ (statedEntries.filterMap directoryName?).filter isDeltaName,
      name ∈ (recordedParts statedBase).map Part.directory := by decide +kernel
  have hpresent : ∀ part ∈ recordedParts statedBase, part.directory ∈ statedEntries.filterMap directoryName? := by
    decide +kernel
  constructor
  · intro name below hentry hprefix
    have hname := List.mem_filterMap.mpr ⟨_, hentry, directoryName?_eq_some.mpr ⟨below, rfl⟩⟩
    obtain ⟨part, hpart, rfl⟩ := List.mem_map.mp
      (hrecorded name (List.mem_filter.mpr ⟨hname, (isDeltaName_iff name).mpr hprefix⟩))
    exact ⟨part, hpart, Part.named_iff.mpr rfl⟩
  · intro part hpart name hname
    obtain ⟨e, hentry, he⟩ := List.mem_filterMap.mp (hpresent part hpart)
    obtain ⟨below, rfl⟩ := directoryName?_eq_some.mp he
    exact ⟨below, Part.named_iff.mp hname ▸ hentry⟩

/-- All that is recorded is found under the root, and deltas are pending for either. -/
theorem statedBase_found :
    statedTree.ArrivesAt "/t" ["t".toUTF8.toList] ∧
      statedTree.node? ["t".toUTF8.toList] = some (.directory statedEntries) ∧
      AsRecorded statedEntries statedBase ∧ root statedBase = "/t" ∧
      (∃ found told, listed statedTree "/t" statedBase = .ok found ∧ recorded "/t" statedBase = .ok told ∧
        ∀ path, path ∈ found ↔ path ∈ told) ∧
      pending (listed statedTree) statedBase = .ok true := by
  have hnode : statedTree.node? ["t".toUTF8.toList] = some (.directory statedEntries) := by
    simp only [node?, statedTree, nodeAt?, List.lookup_cons_self, Option.bind_some]
  have hroot : root statedBase = "/t" := by decide +kernel
  obtain ⟨-, ⟨found, hfound, hiff⟩, hagree⟩ := listers_agree statedBase "/t"
  obtain ⟨hpaths, hpending⟩ := hagree statedTree _ _ statedTree_root hnode statedEntries_recorded
  have htrue : found = true := hiff.mpr (by simp [statedBase])
  exact ⟨statedTree_root, hnode, statedEntries_recorded, hroot, hpaths, by rw [hpending hroot, hfound, htrue]⟩

end Delta

end TableScan
