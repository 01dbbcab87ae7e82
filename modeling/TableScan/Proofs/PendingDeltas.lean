/-
  TableScan.Proofs.PendingDeltas — deltas beside a base are found in a file tree, wherever the
  base lies. The root of a base is worked out from its path and then resolved in the tree; what
  the tree has for the root is where the names above the base lead to (`rootPlace`).

  - `placeOf_root`: working out and resolving lead to the same place.
  - `deltas_seen_unless_bare`: so deltas are pending exactly if the root holds one. The only
    exception are relative paths that name nothing above the base (`IsBare`): their root is no
    path, which is taken for a directory that is not there.
-/

import TableScan.Proofs.Paths

namespace TableScan.Delta

open FileTree TableScan.Json

/-! ## The root of a base -/

/-- The names of a base from its root on: the base alone, or its directory and the base. -/
def depth (r : TransactionalRange) : Nat := if r.baseInRoot then 1 else 2

/-- The names in the path of a base that lead to its root. -/
def rootNames (r : TransactionalRange) : List FileName :=
  if r.baseInRoot then (pathNames r.path).dropLast else (pathNames r.path).dropLast.dropLast

/-- The place of the directory that holds a base, or holds the directory of the base. -/
def rootPlace (t : FileTree) (r : TransactionalRange) : List FileName :=
  (if isAbsolute r.path.toUTF8.toList then [] else t.workingDirectory) ++ rootNames r

/-- The path starts at the root, and does not name it. -/
def IsBare (r : TransactionalRange) : Prop := isAbsolute r.path.toUTF8.toList = false ∧ rootNames r = []

section Root

variable {r : TransactionalRange} (hbase : r.hasBase = true)

include hbase

theorem root_of_inRoot (h : r.baseInRoot = true) : root r = parent r.path := by
  simp [root, hbase, h]

theorem root_of_not_inRoot (h : ¬ r.baseInRoot = true) : root r = parent (parent r.path) := by
  simp [root, hbase, h]

theorem pathNames_root : pathNames (root r) = rootNames r := by
  unfold rootNames
  split
  · rename_i h
    rw [root_of_inRoot hbase h, pathNames_parent]
  · rename_i h
    rw [root_of_not_inRoot hbase h, pathNames_parent, pathNames_parent]

theorem length_root_le : (root r).toUTF8.toList.length ≤ r.path.toUTF8.toList.length := by
  by_cases h : r.baseInRoot = true
  · rw [root_of_inRoot hbase h]
    exact length_parent_le _
  · rw [root_of_not_inRoot hbase h]
    exact Nat.le_trans (length_parent_le _) (length_parent_le _)

theorem isAbsolute_root (h : root r ≠ "") :
    isAbsolute (root r).toUTF8.toList = isAbsolute r.path.toUTF8.toList := by
  by_cases hr : r.baseInRoot = true
  · rw [root_of_inRoot hbase hr] at h ⊢
    exact isAbsolute_parent _ h
  · rw [root_of_not_inRoot hbase hr] at h ⊢
    rw [isAbsolute_parent _ h]
    refine isAbsolute_parent _ ?_
    -- What has a parent is a path itself.
    intro hempty
    rw [hempty] at h
    exact h rfl

theorem root_eq_empty_iff (hdepth : depth r ≤ (pathNames r.path).length) : root r = "" ↔ IsBare r := by
  unfold IsBare rootNames
  unfold depth at hdepth
  by_cases hr : r.baseInRoot = true
  · rw [if_pos hr] at hdepth ⊢
    rw [root_of_inRoot hbase hr, parent_eq_empty_iff]
    simp only [← List.length_eq_zero_iff, List.length_dropLast]
    refine ⟨?_, fun h => .inr ⟨h.1, by omega⟩⟩
    rintro (h | h)
    · omega
    · exact ⟨h.1, by omega⟩
  · rw [if_neg hr] at hdepth ⊢
    have hparent : parent r.path ≠ "" := by
      rw [Ne, parent_eq_empty_iff, ← List.length_eq_zero_iff]
      omega
    rw [root_of_not_inRoot hbase hr, parent_eq_empty_iff, pathNames_parent, isAbsolute_parent _ hparent]
    simp only [← List.length_eq_zero_iff, List.length_dropLast]
    refine ⟨?_, fun h => .inr ⟨h.1, by omega⟩⟩
    rintro (h | h)
    · omega
    · exact ⟨h.1, by omega⟩

theorem placeOf_root (h : root r ≠ "") (t : FileTree) : t.placeOf (root r) = rootPlace t r := by
  rw [placeOf, isAbsolute_root hbase h, pathNames_root hbase, rootPlace]

end Root

/-! ## What a directory holds -/

theorem toUTF8_of_fromUTF8? {bytes : List UInt8} {name : String}
    (h : String.fromUTF8? ⟨bytes.toArray⟩ = some name) : name.toUTF8.toList = bytes := by
  unfold String.fromUTF8? at h
  split at h
  · rename_i hvalid
    cases h
    have hbytes : (String.fromUTF8 ⟨bytes.toArray⟩ hvalid).toByteArray = ⟨bytes.toArray⟩ := rfl
    rw [String.toUTF8_eq_toByteArray, hbytes, ByteArray.toList, toList_loop]
    simp
  · cases h

/-- A directory among the entries has the name of a delta. -/
def HoldsDelta (entries : List (FileName × FileNode)) : Prop :=
  ∃ (name : String) (below : List (FileName × FileNode)), (name.toUTF8.toList, .directory below) ∈ entries ∧
    ("delta_".toList <+: name.toList ∨ "delete_delta_".toList <+: name.toList)

theorem isDeltaName_iff (name : String) :
    isDeltaName name = true ↔ "delta_".toList <+: name.toList ∨ "delete_delta_".toList <+: name.toList := by
  rw [isDeltaName, namePrefix, deleteNamePrefix, Bool.or_eq_true, List.isPrefixOf_iff_prefix, List.isPrefixOf_iff_prefix]

theorem directoryName?_eq_some {e : FileName × FileNode} {name : String} :
    directoryName? e = some name ↔ ∃ below, e = (name.toUTF8.toList, .directory below) := by
  constructor
  · intro h
    obtain ⟨bytes, node⟩ := e
    cases node with
    | directory below =>
      refine ⟨below, ?_⟩
      rw [← toUTF8_of_fromUTF8? h]
    | file => cases h
    | link target => cases h
  · rintro ⟨below, rfl⟩
    rw [← utf8_toList]
    exact fromUTF8?_utf8 name

/-- The names of the deltas in a directory, in order. -/
def deltaNames (entries : List (FileName × FileNode)) : List String :=
  ((entries.filterMap directoryName?).mergeSort fun a b => a ≤ b).filter isDeltaName

theorem mem_deltaNames {entries : List (FileName × FileNode)} {name : String} :
    name ∈ deltaNames entries ↔ ∃ below, (name.toUTF8.toList, .directory below) ∈ entries ∧
      ("delta_".toList <+: name.toList ∨ "delete_delta_".toList <+: name.toList) := by
  rw [deltaNames, List.mem_filter, List.mem_mergeSort, List.mem_filterMap, isDeltaName_iff]
  constructor
  · rintro ⟨⟨e, hmem, he⟩, hprefix⟩
    obtain ⟨below, rfl⟩ := directoryName?_eq_some.mp he
    exact ⟨below, hmem, hprefix⟩
  · rintro ⟨below, hmem, hprefix⟩
    exact ⟨⟨_, hmem, directoryName?_eq_some.mpr ⟨below, rfl⟩⟩, hprefix⟩

theorem deltaNames_eq_nil_iff {entries : List (FileName × FileNode)} :
    deltaNames entries = [] ↔ ¬ HoldsDelta entries := by
  rw [List.eq_nil_iff_forall_not_mem, HoldsDelta, not_exists]
  simp only [mem_deltaNames]

/-- A root that leads to a directory has the deltas that are there. -/
theorem listed_directory {t : FileTree} {root : String} {place : List FileName}
    {entries : List (FileName × FileNode)} (hresolve : t.resolve root = .ok place)
    (hnode : t.node? place = some (.directory entries)) (r : TransactionalRange) :
    listed t root r = .ok ((deltaNames entries).map (join root)) := by
  rw [listed, subdirectories, hresolve]
  dsimp only
  rw [hnode]
  rfl

/-- Among the directories listed under a root is a delta if the root holds one. -/
theorem listed_of_resolved {t : FileTree} {root : String} {place : List FileName}
    {entries : List (FileName × FileNode)} (hresolve : t.resolve root = .ok place)
    (hnode : t.node? place = some (.directory entries)) (r : TransactionalRange) :
    ∃ found, listed t root r = .ok found ∧ (found ≠ [] ↔ HoldsDelta entries) := by
  refine ⟨_, listed_directory hresolve hnode r, ?_⟩
  rw [Ne, List.map_eq_nil_iff, deltaNames_eq_nil_iff, Classical.not_not]

theorem deltas_seen_unless_bare {t : FileTree} (ht : t.root.Proper) {r : TransactionalRange}
    (hbase : r.hasBase = true) (hdepth : depth r ≤ (pathNames r.path).length)
    {entries : List (FileName × FileNode)} (hroot : t.node? (rootPlace t r) = some (.directory entries)) :
    (IsBare r → root r = "" ∧ pending (listed t) r = .ok false) ∧
    (¬ IsBare r → (root r).toUTF8.toList.length ≤ maxPath →
      ∃ found, pending (listed t) r = .ok found ∧ (found = true ↔ HoldsDelta entries)) ∧
    (maxPath < (root r).toUTF8.toList.length →
      pending (listed t) r = .error ⟨root r, .unreadable (root r) .nameTooLong⟩) ∧
    (root r).toUTF8.toList.length ≤ r.path.toUTF8.toList.length := by
  have hempty := root_eq_empty_iff hbase hdepth
  have hresolve (hne : root r ≠ "") := resolve_names ht (placeOf_root hbase hne t ▸ hroot)
  refine ⟨?_, ?_, ?_, length_root_le hbase⟩
  · intro hbare
    have hr := hempty.mpr hbare
    refine ⟨hr, ?_⟩
    rw [pending, hr, listed, subdirectories, resolve_empty]
    rfl
  · intro hbare hlen
    have hne := hempty.not.mpr hbare
    have hplace := hresolve hne
    rw [if_neg hne, if_neg (Nat.not_lt_of_le hlen), placeOf_root hbase hne] at hplace
    obtain ⟨found, hfound, hiff⟩ := listed_of_resolved hplace hroot r
    refine ⟨!found.isEmpty, by rw [pending, hfound]; rfl, ?_⟩
    rw [← hiff]
    cases found <;> simp
  · intro hlen
    have hne : root r ≠ "" := by
      intro h
      simp [h] at hlen
    have hplace := hresolve hne
    rw [if_neg hne, if_pos hlen] at hplace
    rw [pending, listed, subdirectories, hplace]
    rfl

/-! A working directory that holds a base with its delta, and a table with another. -/

def tableEntries : List (FileName × FileNode) :=
  [("base_0000005".toUTF8.toList, .directory [("bucket_00000".toUTF8.toList, .file)]),
    ("delete_delta_0000006_0000006".toUTF8.toList, .directory [])]

def workEntries : List (FileName × FileNode) :=
  [("000000_0".toUTF8.toList, .file), ("delta_0000001_0000001".toUTF8.toList, .directory []),
    ("t".toUTF8.toList, .directory tableEntries)]

def workTree : FileTree := ⟨.directory [("w".toUTF8.toList, .directory workEntries)], ["w".toUTF8.toList]⟩

def bareBase : TransactionalRange := ⟨"000000_0", 0, 9, true, true, []⟩

def tableBase : TransactionalRange := ⟨"t/base_0000005/bucket_00000", 0, 9, true, false, []⟩

theorem workTree_proper : workTree.root.Proper := by
  have htable : (FileNode.directory tableEntries).Proper := by
    refine .directory (by decide +kernel) ?_
    simp only [tableEntries, List.forall_mem_cons, List.not_mem_nil, false_imp_iff, implies_true, and_true]
    exact ⟨.directory (by decide +kernel) (by simpa using .file), .directory (by simp) (by simp)⟩
  have hwork : (FileNode.directory workEntries).Proper := by
    refine .directory (by decide +kernel) ?_
    simp only [workEntries, List.forall_mem_cons, List.not_mem_nil, false_imp_iff, implies_true, and_true]
    exact ⟨.file, .directory (by simp) (by simp), htable⟩
  exact .directory (by decide +kernel) (by simpa using hwork)

theorem workTree_bareRoot : workTree.node? (rootPlace workTree bareBase) = some (.directory workEntries) := by
  have hplace : rootPlace workTree bareBase = ["w".toUTF8.toList] := by decide +kernel
  rw [hplace]
  simp only [node?, workTree, nodeAt?, List.lookup_cons, beq_self_eq_true, Option.bind_some]

theorem workTree_tableRoot : workTree.node? (rootPlace workTree tableBase) = some (.directory tableEntries) := by
  have hplace : rootPlace workTree tableBase = ["w".toUTF8.toList, "t".toUTF8.toList] := by decide +kernel
  have hbase : ("t".toUTF8.toList == "000000_0".toUTF8.toList) = false := by decide +kernel
  have hdelta : ("t".toUTF8.toList == "delta_0000001_0000001".toUTF8.toList) = false := by decide +kernel
  rw [hplace]
  simp only [node?, workTree, workEntries, nodeAt?, List.lookup_cons, beq_self_eq_true, Option.bind_some, hbase, hdelta]

theorem tableBase_delta_seen :
    workTree.root.Proper ∧ tableBase.hasBase = true ∧ depth tableBase ≤ (pathNames tableBase.path).length ∧
      workTree.node? (rootPlace workTree tableBase) = some (.directory tableEntries) ∧
      pending (listed workTree) tableBase = .ok true ∧ pending (listed workTree) bareBase = .ok false := by
  have htable : depth tableBase ≤ (pathNames tableBase.path).length := by decide +kernel
  have hbare : depth bareBase ≤ (pathNames bareBase.path).length := by decide +kernel
  have hholds : HoldsDelta tableEntries :=
    ⟨"delete_delta_0000006_0000006", [], by simp [tableEntries], by decide +kernel⟩
  refine ⟨workTree_proper, rfl, htable, workTree_tableRoot, ?_, ?_⟩
  · obtain ⟨-, hseen, -, -⟩ := deltas_seen_unless_bare workTree_proper rfl htable workTree_tableRoot
    obtain ⟨found, hfound, hiff⟩ := hseen (by unfold IsBare; decide +kernel) (by decide +kernel)
    rw [hfound, hiff.mpr hholds]
  · obtain ⟨hunseen, -⟩ := deltas_seen_unless_bare workTree_proper rfl hbare workTree_bareRoot
    exact (hunseen (by unfold IsBare; decide +kernel)).2

/-- The working directory holds a delta beside the base, and yet none is pending. -/
theorem bareBase_delta_overlooked :
    workTree.root.Proper ∧ bareBase.hasBase = true ∧ depth bareBase ≤ (pathNames bareBase.path).length ∧
      workTree.node? (rootPlace workTree bareBase) = some (.directory workEntries) ∧ HoldsDelta workEntries ∧
      pending (listed workTree) bareBase = .ok false := by
  refine ⟨workTree_proper, rfl, by decide +kernel, workTree_bareRoot, ?_, ?_⟩
  · exact ⟨"delta_0000001_0000001", [], by simp [workEntries], by decide +kernel⟩
  · have hroot : root bareBase = "" := by decide +kernel
    rw [pending, hroot, listed, subdirectories, resolve_empty]
    rfl

end TableScan.Delta
