/-
  TableScan.Proofs.ListedDeltas — the deltas listed under a root are those that are there, and no
  failure is taken for their absence.

  A root has no deltas if something on the way to it is missing, or if it is a directory without
  any. Whatever else keeps the root from being a directory is an error. Of a directory every
  child is listed that is a directory itself, not by way of a link, and has the name of a delta;
  names that are no text are passed over.

  - `bytes_lt`: the order of texts, which goes by characters, is the order of their bytes.
  - `deltaNames_ascend`: names are listed in this order, each of them once.
  - `join_eq`: what stands between the root and a name.
  - `listed_cases`: what is listed for what becomes of the root.
  - `listing_sound_and_complete`: what is listed, and when.
-/

import TableScan.Proofs.PathSteps
import TableScan.Proofs.PendingDeltas

namespace TableScan

/-! ## The order of bytes -/

namespace Json

/-- Bytes are compared one after the other. -/
theorem ofNat_cons_lt {m n : Nat} (hn : n < 256) (hle : m ≤ n) {us vs : List UInt8} (h : m = n → us < vs) :
    UInt8.ofNat m :: us < UInt8.ofNat n :: vs := by
  rw [List.cons_lt_cons_iff]
  rcases Nat.lt_or_eq_of_le hle with hlt | heq
  · left
    rw [UInt8.lt_iff_toNat_lt, UInt8.toNat_ofNat', UInt8.toNat_ofNat', Nat.mod_eq_of_lt hn, Nat.mod_eq_of_lt (by omega)]
    exact hlt
  · exact .inr ⟨congrArg UInt8.ofNat heq, h heq⟩

/-- The bytes of a greater character are greater: the first one, if there are more of them, or else the
first that differs. -/
theorem utf8EncodeChar_lt {c d : Char} (h : c < d) (us vs : List UInt8) :
    String.utf8EncodeChar c ++ us < String.utf8EncodeChar d ++ vs := by
  have hlt : c.val.toNat < d.val.toNat := UInt32.lt_iff_toNat_lt.mp h
  have hvalid : d.val.toNat < 0x110000 := by
    rcases d.valid with h | ⟨-, h⟩
    · exact Nat.lt_trans h (by decide)
    · exact h
  unfold String.utf8EncodeChar
  generalize c.val.toNat = m at hlt ⊢
  generalize d.val.toNat = n at hlt hvalid ⊢
  dsimp only
  -- By the number of bytes of the greater character; in each case the other one may have fewer.
  by_cases hone : n ≤ 127
  · have hm : m ≤ 127 := by omega
    simp only [hm, hone, if_true, List.cons_append]
    exact ofNat_cons_lt (by omega) (by omega) (by omega)
  by_cases htwo : n ≤ 2047
  · simp only [hone, htwo, if_true, if_false]
    split
    · exact ofNat_cons_lt (by omega) (by omega) (by omega)
    have hm : m ≤ 2047 := by omega
    simp only [hm, if_true, List.cons_append]
    refine ofNat_cons_lt (by omega) (by omega) fun hlead => ?_
    exact ofNat_cons_lt (by omega) (by omega) (by omega)
  by_cases hthree : n ≤ 65535
  · simp only [hone, htwo, hthree, if_true, if_false]
    split
    · exact ofNat_cons_lt (by omega) (by omega) (by omega)
    split
    · exact ofNat_cons_lt (by omega) (by omega) (by omega)
    have hm : m ≤ 65535 := by omega
    simp only [hm, if_true, List.cons_append]
    refine ofNat_cons_lt (by omega) (by omega) fun hlead => ?_
    refine ofNat_cons_lt (by omega) (by omega) fun hsecond => ?_
    exact ofNat_cons_lt (by omega) (by omega) (by omega)
  · simp only [hone, htwo, hthree, if_false]
    split
    · exact ofNat_cons_lt (by omega) (by omega) (by omega)
    split
    · exact ofNat_cons_lt (by omega) (by omega) (by omega)
    split
    · exact ofNat_cons_lt (by omega) (by omega) (by omega)
    simp only [List.cons_append]
    refine ofNat_cons_lt (by omega) (by omega) fun hlead => ?_
    refine ofNat_cons_lt (by omega) (by omega) fun hsecond => ?_
    refine ofNat_cons_lt (by omega) (by omega) fun hthird => ?_
    exact ofNat_cons_lt (by omega) (by omega) (by omega)

theorem utf8_lt {cs ds : List Char} (h : cs < ds) : utf8 cs < utf8 ds := by
  induction cs generalizing ds with
  | nil =>
    cases ds with
    | nil => exact absurd h (List.not_lt_nil [])
    | cons d ds =>
      cases hd : utf8 (d :: ds) with
      | nil => exact absurd hd (Delta.utf8_ne_nil (List.cons_ne_nil d ds))
      | cons b bs => exact List.nil_lt_cons b bs
  | cons c cs ih =>
    cases ds with
    | nil => exact absurd h (List.not_lt_nil _)
    | cons d ds =>
      rw [utf8_cons, utf8_cons]
      rcases List.cons_lt_cons_iff.mp h with hlt | ⟨rfl, hrest⟩
      · exact utf8EncodeChar_lt hlt _ _
      · exact List.append_left_lt (ih hrest)

theorem bytes_lt {a b : String} (h : a < b) : a.toUTF8.toList < b.toUTF8.toList := by
  rw [← utf8_toList, ← utf8_toList]
  exact utf8_lt (String.lt_iff.mp h)

end Json

open FileTree TableScan.Json

/-- In every directory of the tree all names are different. -/
inductive FileNode.Distinct : FileNode → Prop
  | directory {entries : List (FileName × FileNode)} : (entries.map Prod.fst).Nodup →
      (∀ e ∈ entries, Distinct e.2) → Distinct (.directory entries)
  | file : Distinct .file
  | link {target : List UInt8} : Distinct (.link target)

theorem FileNode.Distinct.nodeAt? {place : List FileName} : ∀ {node found : FileNode}, node.Distinct →
    nodeAt? place node = some found → found.Distinct := by
  induction place with
  | nil =>
    intro node found hnode h
    cases h
    exact hnode
  | cons name place ih =>
    intro node found hnode h
    cases hnode with
    | directory _ hchildren =>
      rw [FileTree.nodeAt?, Option.bind_eq_some_iff] at h
      obtain ⟨child, hlookup, h⟩ := h
      exact ih (hchildren _ (mem_of_lookup hlookup)) h
    | file => cases h
    | link => cases h

namespace Delta

/-! ## Names -/

/-- Directories with different names are told apart by them. -/
theorem directoryNames_nodup {entries : List (FileName × FileNode)} (h : (entries.map Prod.fst).Nodup) :
    (entries.filterMap directoryName?).Nodup := by
  refine List.pairwise_filterMap.mpr ((List.pairwise_map.mp h).imp ?_)
  intro e e' hne name hname name' hname' heq
  obtain ⟨below, rfl⟩ := directoryName?_eq_some.mp hname
  obtain ⟨below', rfl⟩ := directoryName?_eq_some.mp hname'
  exact hne (by rw [heq])

theorem deltaNames_ascend {entries : List (FileName × FileNode)} (h : (entries.map Prod.fst).Nodup) :
    (deltaNames entries).Pairwise fun a b => a.toUTF8.toList < b.toUTF8.toList := by
  let le (a b : String) : Bool := decide (a ≤ b)
  have htrans : ∀ a b c, le a b = true → le b c = true → le a c = true := by
    intro a b c hab hbc
    exact decide_eq_true (String.le_trans (of_decide_eq_true hab) (of_decide_eq_true hbc))
  have htotal : ∀ a b, (le a b || le b a) = true := by
    intro a b
    simpa [le] using String.le_total a b
  have hsorted := List.pairwise_mergeSort htrans htotal (entries.filterMap directoryName?)
  have hnodup := (List.mergeSort_perm (entries.filterMap directoryName?) le).nodup_iff.mpr (directoryNames_nodup h)
  refine ((hsorted.and hnodup).imp ?_).filter _
  intro a b hab
  obtain ⟨hle, hne⟩ := hab
  refine bytes_lt (Classical.not_not.mp fun hlt => hne ?_)
  exact String.le_antisymm (of_decide_eq_true hle) (String.not_lt.mp hlt)

/-! ## Listings -/

/-- A name goes behind the root and one slash, which is the root's own if it ends in one. -/
theorem join_eq (root : String) : ∃ slash : String, (root.toList.getLast? = some '/' → slash = "") ∧
    (root.toList.getLast? ≠ some '/' → slash = "/") ∧ join root = fun name => root ++ slash ++ name := by
  by_cases hends : root.toList.getLast? = some '/'
  · refine ⟨"", fun _ => rfl, fun hnot => absurd hends hnot, ?_⟩
    funext name
    rw [join, if_pos hends, String.append_empty]
  · refine ⟨"/", fun h => absurd h hends, fun _ => rfl, ?_⟩
    funext name
    rw [join, if_neg hends]

theorem join_injective (root : String) : Function.Injective (join root) := by
  obtain ⟨slash, -, -, hjoin⟩ := join_eq root
  intro a b h
  rw [hjoin] at h
  exact String.ext (by simpa using congrArg String.toList h)

variable {t : FileTree} {root : String}

theorem listed_missing (h : t.MeetsMissing root) (r : TransactionalRange) : listed t root r = .ok [] := by
  have hresolve : t.resolve root = .error .notFound := PathEnds.resolve h
  unfold listed subdirectories
  rw [hresolve]

theorem listed_failed (h : t.FailsOtherwise root) (r : TransactionalRange) : ∃ fault, listed t root r = .error fault := by
  obtain ⟨cause, hne, hresolve⟩ := h.resolve
  unfold listed subdirectories
  rw [hresolve]
  cases cause with
  | notFound => exact absurd rfl hne
  | _ => exact ⟨_, rfl⟩

theorem listed_no_directory {place : List FileName} (h : t.ArrivesAt root place)
    (hnode : ∀ entries, t.node? place ≠ some (.directory entries)) (r : TransactionalRange) :
    ∃ fault, listed t root r = .error fault := by
  have hresolve : t.resolve root = .ok place := PathEnds.resolve h
  unfold listed subdirectories
  rw [hresolve]
  dsimp only
  cases hat : t.node? place with
  | none => exact ⟨_, rfl⟩
  | some node =>
    cases node with
    | directory entries => exact absurd hat (hnode entries)
    | _ => exact ⟨_, rfl⟩

theorem listed_arrived {place : List FileName} {entries : List (FileName × FileNode)} (h : t.ArrivesAt root place)
    (hnode : t.node? place = some (.directory entries)) (r : TransactionalRange) :
    listed t root r = .ok ((deltaNames entries).map (join root)) :=
  listed_directory (PathEnds.resolve h) hnode r

/-- Nothing else becomes of a root. -/
theorem listed_cases (t : FileTree) (hroot : root ≠ "") :
    t.MeetsMissing root ∨ t.FailsOtherwise root ∨
      (∃ place, t.ArrivesAt root place ∧ ∀ entries, t.node? place ≠ some (.directory entries)) ∨
      ∃ place entries, t.ArrivesAt root place ∧ t.node? place = some (.directory entries) := by
  rcases path_cases t hroot with h | h | ⟨place, h⟩
  · exact .inl h
  · exact .inr (.inl h)
  · by_cases hnode : ∃ entries, t.node? place = some (.directory entries)
    · obtain ⟨entries, hnode⟩ := hnode
      exact .inr (.inr (.inr ⟨place, entries, h, hnode⟩))
    · exact .inr (.inr (.inl ⟨place, h, fun entries hentries => hnode ⟨entries, hentries⟩⟩))

theorem listed_eq_nil_iff (t : FileTree) (hroot : root ≠ "") (r : TransactionalRange) :
    listed t root r = .ok [] ↔ t.MeetsMissing root ∨
      ∃ place entries, t.ArrivesAt root place ∧ t.node? place = some (.directory entries) ∧ ¬ HoldsDelta entries := by
  constructor
  · intro h
    rcases listed_cases t hroot with hmissing | hfails | ⟨place, harrives, hnode⟩ | ⟨place, entries, harrives, hnode⟩
    · exact .inl hmissing
    · obtain ⟨fault, hfault⟩ := listed_failed hfails r
      cases h.symm.trans hfault
    · obtain ⟨fault, hfault⟩ := listed_no_directory harrives hnode r
      cases h.symm.trans hfault
    · have hnames := Except.ok.inj (h.symm.trans (listed_arrived harrives hnode r))
      have hnone : deltaNames entries = [] := List.map_eq_nil_iff.mp hnames.symm
      exact .inr ⟨place, entries, harrives, hnode, deltaNames_eq_nil_iff.mp hnone⟩
  · rintro (hmissing | ⟨place, entries, harrives, hnode, hnone⟩)
    · exact listed_missing hmissing r
    · rw [listed_arrived harrives hnode r, deltaNames_eq_nil_iff.mpr hnone]
      rfl

theorem listed_eq_error_iff (t : FileTree) (hroot : root ≠ "") (r : TransactionalRange) :
    (∃ fault, listed t root r = .error fault) ↔ t.FailsOtherwise root ∨
      ∃ place, t.ArrivesAt root place ∧ ∀ entries, t.node? place ≠ some (.directory entries) := by
  constructor
  · rintro ⟨fault, h⟩
    rcases listed_cases t hroot with hmissing | hfails | hother | ⟨place, entries, harrives, hnode⟩
    · cases h.symm.trans (listed_missing hmissing r)
    · exact .inl hfails
    · exact .inr hother
    · cases h.symm.trans (listed_arrived harrives hnode r)
  · rintro (hfails | ⟨place, harrives, hnode⟩)
    · exact listed_failed hfails r
    · exact listed_no_directory harrives hnode r

/-- Nothing is listed only where nothing is, an error never hides what is there, and what is there is listed in
the order of bytes, each name behind the root and one slash. A root that runs in a circle is an error. -/
theorem listing_sound_and_complete {t : FileTree} (ht : t.root.Distinct) {root : String} (hroot : root ≠ "")
    (r : TransactionalRange) :
    (listed t root r = .ok [] ↔ t.MeetsMissing root ∨
      ∃ place entries, t.ArrivesAt root place ∧ t.node? place = some (.directory entries) ∧ ¬ HoldsDelta entries) ∧
    ((∃ fault, listed t root r = .error fault) ↔ t.FailsOtherwise root ∨
      ∃ place, t.ArrivesAt root place ∧ ∀ entries, t.node? place ≠ some (.directory entries)) ∧
    (∀ place entries, t.ArrivesAt root place → t.node? place = some (.directory entries) →
      ∃ (names : List String) (slash : String), (root.toList.getLast? = some '/' → slash = "") ∧
        (root.toList.getLast? ≠ some '/' → slash = "/") ∧
        listed t root r = .ok (names.map fun name => root ++ slash ++ name) ∧
        (names.map fun name => root ++ slash ++ name).Nodup ∧
        names.Pairwise (fun a b => a.toUTF8.toList < b.toUTF8.toList) ∧
        ∀ name : String, name ∈ names ↔ ∃ below, (name.toUTF8.toList, .directory below) ∈ entries ∧
          ("delta_".toList <+: name.toList ∨ "delete_delta_".toList <+: name.toList)) ∧
    (∀ n m p, Leads t n (t.start root) p → Leads t (m + 1) p p → ∃ fault, listed t root r = .error fault) := by
  refine ⟨listed_eq_nil_iff t hroot r, listed_eq_error_iff t hroot r, ?_, ?_⟩
  · intro place entries harrives hnode
    have hdirectory : (FileNode.directory entries).Distinct := ht.nodeAt? hnode
    have hlisted := listed_arrived harrives hnode r
    obtain ⟨slash, hends, helse, hjoin⟩ := join_eq root
    cases hdirectory with
    | directory hnames _ =>
      have hascend := deltaNames_ascend hnames
      have hnodup : ((deltaNames entries).map (join root)).Nodup := by
        refine List.pairwise_map.mpr (hascend.imp ?_)
        intro a b hlt heq
        rw [join_injective root heq] at hlt
        exact List.lt_irrefl _ hlt
      rw [hjoin] at hlisted hnodup
      exact ⟨deltaNames entries, slash, hends, helse, hlisted, hnodup, hascend, fun _ => mem_deltaNames⟩
  · intro n m p hleads hcircle
    exact listed_failed (failsOtherwise_of_circle hroot hleads hcircle) r

/-! A directory that a link leads to, another link that leads nowhere, and one that leads to itself. -/

def heldEntries : List (FileName × FileNode) :=
  [("delta_0000010_0000010".toUTF8.toList, .directory []), ("delta_0000009_0000009".toUTF8.toList, .directory []),
    ("delta_0000011_0000011".toUTF8.toList, .link "base_0000005".toUTF8.toList),
    ("delta_0000012_0000012".toUTF8.toList, .file), ("base_0000005".toUTF8.toList, .directory []),
    ("delta_".toUTF8.toList ++ [0xFF], .directory [])]

def linkedEntries : List (FileName × FileNode) :=
  [("here".toUTF8.toList, .link "t/".toUTF8.toList), ("gone".toUTF8.toList, .link "nowhere".toUTF8.toList),
    ("loop".toUTF8.toList, .link "./loop".toUTF8.toList), ("t".toUTF8.toList, .directory heldEntries)]

def linkedTree : FileTree := ⟨.directory [("w".toUTF8.toList, .directory linkedEntries)], ["w".toUTF8.toList]⟩

theorem linkedTree_distinct : linkedTree.root.Distinct := by
  have hheld : (FileNode.directory heldEntries).Distinct := by
    refine .directory (by decide +kernel) ?_
    simp only [heldEntries, List.forall_mem_cons, List.not_mem_nil, false_imp_iff, implies_true, and_true]
    exact ⟨.directory (by simp) (by simp), .directory (by simp) (by simp), .link, .file,
      .directory (by simp) (by simp), .directory (by simp) (by simp)⟩
  have hlinked : (FileNode.directory linkedEntries).Distinct := by
    refine .directory (by decide +kernel) ?_
    simp only [linkedEntries, List.forall_mem_cons, List.not_mem_nil, false_imp_iff, implies_true, and_true]
    exact ⟨.link, .link, .link, hheld⟩
  exact .directory (by simp) (by simpa using hlinked)

theorem linkedEntries_table : linkedEntries.lookup "t".toUTF8.toList = some (.directory heldEntries) :=
  List.lookup_eq_some_iff.mpr ⟨linkedEntries.take 3, [], rfl, by decide +kernel⟩

theorem linkedTree_work : linkedTree.node? ["w".toUTF8.toList] = some (.directory linkedEntries) := by
  simp only [node?, linkedTree, nodeAt?, List.lookup_cons, beq_self_eq_true, Option.bind_some]

theorem linkedTree_held :
    linkedTree.node? ["w".toUTF8.toList, "t".toUTF8.toList] = some (.directory heldEntries) := by
  simp only [node?, linkedTree, nodeAt?, List.lookup_cons, beq_self_eq_true, Option.bind_some, linkedEntries_table]

theorem linkedTree_follow {name : FileName} {target : List UInt8} (hname : IsChildStep name ∧ name.length ≤ maxName)
    (hlink : linkedEntries.lookup name = some (.link target)) (htarget : ¬ isAbsolute target = true) :
    StepsTo linkedTree 1 ⟨["w".toUTF8.toList], [name]⟩ ⟨["w".toUTF8.toList], FileTree.steps target⟩ := by
  have hfollow : StepsTo linkedTree 1 ⟨["w".toUTF8.toList], [name]⟩ _ := .follow linkedTree_work hname.1 hname.2 hlink
  rwa [if_neg htarget, List.append_nil] at hfollow

/-- A link is followed to a directory, and the step behind it stays there. -/
theorem linkedTree_here : linkedTree.ArrivesAt "here" ["w".toUTF8.toList, "t".toUTF8.toList] := by
  have hlink : linkedEntries.lookup "here".toUTF8.toList = some (.link "t/".toUTF8.toList) :=
    List.lookup_eq_some_iff.mpr ⟨[], linkedEntries.drop 1, rfl, by decide⟩
  have hstart : linkedTree.start "here" = ⟨["w".toUTF8.toList], ["here".toUTF8.toList]⟩ := by decide +kernel
  have hsteps : FileTree.steps "t/".toUTF8.toList = ["t".toUTF8.toList, []] := by decide +kernel
  have hfollow := linkedTree_follow (by decide +kernel) hlink (by decide +kernel)
  have henter : StepsTo linkedTree 0 ⟨_, ["t".toUTF8.toList, []]⟩ _ :=
    .enter linkedTree_work (by decide +kernel) (by decide +kernel) linkedEntries_table (by simp)
  rw [hsteps] at hfollow
  refine ⟨⟨by decide, by decide +kernel, by decide +kernel⟩, 1, _, by decide, ?_, .arrived _⟩
  rw [hstart]
  exact .step (n := 0) hfollow (.step henter (.step (.stay linkedTree_held (.inl rfl)) (.here _)))

theorem linkedTree_gone : linkedTree.MeetsMissing "gone" := by
  have hlink : linkedEntries.lookup "gone".toUTF8.toList = some (.link "nowhere".toUTF8.toList) :=
    List.lookup_eq_some_iff.mpr ⟨linkedEntries.take 1, linkedEntries.drop 2, rfl, by decide +kernel⟩
  have hnone : linkedEntries.lookup "nowhere".toUTF8.toList = none :=
    List.lookup_eq_none_iff.mpr (by decide +kernel)
  have hstart : linkedTree.start "gone" = ⟨["w".toUTF8.toList], ["gone".toUTF8.toList]⟩ := by decide +kernel
  have hsteps : FileTree.steps "nowhere".toUTF8.toList = ["nowhere".toUTF8.toList] := by decide +kernel
  have hfollow := linkedTree_follow (by decide +kernel) hlink (by decide +kernel)
  have hend : Ends linkedTree ⟨_, ["nowhere".toUTF8.toList]⟩ _ :=
    .missing linkedTree_work (by decide +kernel) (by decide +kernel) hnone
  rw [hsteps] at hfollow
  refine ⟨⟨by decide, by decide +kernel, by decide +kernel⟩, 1, _, by decide, ?_, hend⟩
  rw [hstart]
  exact .step (n := 0) hfollow (.here _)

/-- The link and the step before it lead to the link again. -/
theorem linkedTree_loop : Leads linkedTree 1 (linkedTree.start "loop") (linkedTree.start "loop") := by
  have hlink : linkedEntries.lookup "loop".toUTF8.toList = some (.link "./loop".toUTF8.toList) :=
    List.lookup_eq_some_iff.mpr ⟨linkedEntries.take 2, linkedEntries.drop 3, rfl, by decide +kernel⟩
  have hstart : linkedTree.start "loop" = ⟨["w".toUTF8.toList], ["loop".toUTF8.toList]⟩ := by decide +kernel
  have hsteps : FileTree.steps "./loop".toUTF8.toList = [[point], "loop".toUTF8.toList] := by decide +kernel
  have hfollow := linkedTree_follow (by decide +kernel) hlink (by decide +kernel)
  rw [hsteps] at hfollow
  rw [hstart]
  exact .step (n := 0) hfollow (.step (.stay linkedTree_work (.inr rfl)) (.here _))

/-- The two directories are listed; the link to a directory, the file and the name that is no text are not. -/
theorem linkedTree_listed :
    linkedTree.root.Distinct ∧ "here" ≠ "" ∧ "gone" ≠ "" ∧ "loop" ≠ "" ∧
      linkedTree.ArrivesAt "here" ["w".toUTF8.toList, "t".toUTF8.toList] ∧
      Leads linkedTree 1 (linkedTree.start "loop") (linkedTree.start "loop") ∧
      (∃ names : List String, listed linkedTree "here" tableBase = .ok (names.map fun name => "here/" ++ name) ∧
        "delta_0000009_0000009" ∈ names ∧ "delta_0000010_0000010" ∈ names ∧ "base_0000005" ∉ names ∧
        "delta_0000011_0000011" ∉ names ∧ "delta_0000012_0000012" ∉ names) ∧
      listed linkedTree "gone" tableBase = .ok [] ∧
      ∃ fault, listed linkedTree "loop" tableBase = .error fault := by
  have hhere : "here" ≠ "" := by decide
  have hgone : "gone" ≠ "" := by decide
  have hloop : "loop" ≠ "" := by decide
  refine ⟨linkedTree_distinct, hhere, hgone, hloop, linkedTree_here, linkedTree_loop, ?_, ?_, ?_⟩
  · obtain ⟨-, -, hlisted, -⟩ := listing_sound_and_complete linkedTree_distinct hhere tableBase
    obtain ⟨names, slash, -, helse, hnames, -, -, hmem⟩ := hlisted _ _ linkedTree_here linkedTree_held
    obtain rfl : slash = "/" := helse (by decide)
    have hdirectories : heldEntries.filterMap directoryName? =
        ["delta_0000010_0000010", "delta_0000009_0000009", "base_0000005"] := by decide +kernel
    have hunlisted : ∀ name : String, name ∉ ["delta_0000010_0000010", "delta_0000009_0000009", "base_0000005"] →
        name ∉ names := by
      intro name hname hlisted
      obtain ⟨below, hentry, -⟩ := (hmem name).mp hlisted
      exact hname (hdirectories ▸ List.mem_filterMap.mpr ⟨_, hentry, directoryName?_eq_some.mpr ⟨below, rfl⟩⟩)
    refine ⟨names, hnames, (hmem _).mpr ?_, (hmem _).mpr ?_, ?_, hunlisted _ (by decide), hunlisted _ (by decide)⟩
    · exact ⟨[], by simp [heldEntries], by decide +kernel⟩
    · exact ⟨[], by simp [heldEntries], by decide +kernel⟩
    · intro hbase
      obtain ⟨below, -, hprefix⟩ := (hmem _).mp hbase
      exact absurd hprefix (by decide +kernel)
  · obtain ⟨hempty, -⟩ := listing_sound_and_complete linkedTree_distinct hgone tableBase
    exact hempty.mpr (.inl linkedTree_gone)
  · obtain ⟨-, -, -, hcircle⟩ := listing_sound_and_complete linkedTree_distinct hloop tableBase
    exact hcircle 0 0 _ (.here _) linkedTree_loop

end Delta

end TableScan
