/-
  TableScan.Proofs.DeltaPaths — the paths of deltas. A root is found by taking names off the
  path of a base, and a delta gets its path by a name that is put under the root; the one undoes
  the other, and different names give different paths.

  - `parent_join`: a name that was put under a directory comes off again, and so do slashes
    behind it (`parent_withSlashes`). A directory is written as a slash alone, or as a text that
    does not end in one (`IsDirectoryPath`); slashes that are doubled inside it stay.
  - `root_found_again`: so the root of a base is the directory that its path was built on, and
    a recorded delta lies right under its root.
  - `recorded_apart`: two deltas of a split are listed under one path only if they are the same
    writes.
-/

import TableScan.Proofs.RecordedDeltas

namespace TableScan.Delta

open FileTree TableScan.Text TableScan.Json

/-! ## Names under a directory -/

/-- The topmost directory, or a text that does not end in a slash. -/
def IsDirectoryPath (dir : String) : Prop := dir = "/" ∨ dir ≠ "" ∧ dir.toList.getLast? ≠ some '/'

/-- What may stand in a directory. -/
def IsEntry (name : String) : Prop := name ≠ "" ∧ '/' ∉ name.toList

/-- The path with so many slashes behind it. -/
def withSlashes (path : String) (n : Nat) : String := path ++ String.ofList (List.replicate n '/')

/-- Slashes at the end are no part of what is taken off. -/
theorem parent_withSlashes (path : String) (n : Nat) : parent (withSlashes path n) = parent path := by
  have hslashes : ∀ c ∈ List.replicate n '/', decide (c = '/') = true := by
    intro c hc
    exact decide_eq_true (List.eq_of_mem_replicate hc)
  have hback : (withSlashes path n).toList.reverse = List.replicate n '/' ++ path.toList.reverse := by
    simp [withSlashes]
  rw [parent, parent, parentChars, parentChars, hback, List.dropWhile_append_of_pos hslashes]

/-- A name comes off with the slash before it, unless nothing is left. -/
theorem parentChars_under (above : List Char) {name : List Char} (hne : name ≠ []) (hname : '/' ∉ name) :
    parentChars (above ++ '/' :: name) = if above = [] then ['/'] else above := by
  have hother : ∀ c ∈ name.reverse, decide (c ≠ '/') = true := by
    intro c hc
    apply decide_eq_true
    intro h
    exact hname (h ▸ List.mem_reverse.mp hc)
  -- Backwards the path is the name, which no slash is dropped from, a slash and what is above.
  have hback : (above ++ '/' :: name).reverse = name.reverse ++ '/' :: above.reverse := by
    simp
  have hkept : (name.reverse ++ '/' :: above.reverse).dropWhile (· = '/') = name.reverse ++ '/' :: above.reverse := by
    obtain ⟨c, more, hcons⟩ := List.exists_cons_of_ne_nil (List.reverse_ne_nil_iff.mpr hne)
    rw [hcons] at hother ⊢
    rw [List.cons_append, List.dropWhile_cons_of_neg]
    simpa using hother c (List.mem_cons_self ..)
  have hslash : ColumnType.Stops (fun c => decide (c ≠ '/')) ('/' :: above.reverse) := by
    intro c hc
    cases hc
    rfl
  rw [parentChars, hback, hkept, ColumnType.dropWhile_run hother hslash]
  cases h : above.reverse with
  | nil => simp [List.reverse_eq_nil_iff.mp h]
  | cons c more =>
    have habove : above ≠ [] := by
      intro hnil
      rw [hnil] at h
      cases h
    show (c :: more).reverse = _
    rw [if_neg habove, ← h, List.reverse_reverse]

section Directory

variable {dir name : String} (hdir : IsDirectoryPath dir) (hname : IsEntry name)

theorem IsEntry.toList_ne_nil (h : IsEntry name) : name.toList ≠ [] := String.toList_eq_nil_iff.not.mpr h.1

include hdir

/-- A name under a directory stands behind a slash and what is above it, which is nothing for the topmost one. -/
theorem toList_join (name : String) :
    ∃ above, (join dir name).toList = above ++ '/' :: name.toList ∧
      dir.toList = (if above = [] then ['/'] else above) ∧ namesOf (utf8 above) = pathNames dir := by
  rcases hdir with h | ⟨hne, hlast⟩
  · subst h
    refine ⟨[], ?_, rfl, by decide +kernel⟩
    simp [join]
  · have hchars : dir.toList ≠ [] := String.toList_eq_nil_iff.not.mpr hne
    refine ⟨dir.toList, ?_, (if_neg hchars).symm, ?_⟩
    · rw [join, if_neg hlast]
      simp
    · rw [pathNames, utf8_toList]

include hname

theorem isDirectoryPath_join : IsDirectoryPath (join dir name) := by
  obtain ⟨above, hjoin, -⟩ := toList_join hdir name
  refine .inr ⟨?_, ?_⟩
  · intro hempty
    rw [hempty] at hjoin
    simp at hjoin
  · intro hlast
    rw [hjoin, ← List.singleton_append, ← List.append_assoc,
      List.getLast?_append_of_ne_nil _ hname.toList_ne_nil] at hlast
    exact hname.2 (List.mem_of_getLast? hlast)

theorem parent_join : parent (join dir name) = dir := by
  obtain ⟨above, hjoin, hchars, -⟩ := toList_join hdir name
  rw [parent, hjoin, parentChars_under above hname.toList_ne_nil hname.2, ← hchars, String.ofList_toList]

theorem pathNames_join : pathNames (join dir name) = pathNames dir ++ [name.toUTF8.toList] := by
  obtain ⟨above, hjoin, -, hnames⟩ := toList_join hdir name
  have := namesOf_under above 0 hname.2 hname.toList_ne_nil
  rw [List.replicate_zero, List.append_nil] at this
  rw [← hnames, pathNames, ← utf8_toList, ← utf8_toList, hjoin, this]

end Directory

/-! ## Roots -/

theorem isEntry_directoryName (first last : UInt64) (statement : Option UInt32) :
    IsEntry (directoryName first last statement) := by
  have hdigits : ∀ width n : Nat, '/' ∉ padded width n := by
    intro width n hmem
    exact absurd (isDigit_of_mem_padded width n _ hmem) (by decide)
  constructor
  · intro hempty
    have hchars := congrArg String.toList hempty
    simp [directoryName, namePrefix] at hchars
  · cases statement <;> simp [directoryName, namePrefix, hdigits]

/-- Put on and taken off again, a name leaves the directory as it was written: for a base that lies in a directory of
its own, for one that lies in the root itself, and for a recorded delta. Without a base nothing is taken off. -/
theorem root_found_again {dir : String} (hdir : IsDirectoryPath dir) :
    (∀ (base file : String) (n : Nat) (r : TransactionalRange), IsEntry base → IsEntry file →
      r.path = withSlashes (join (join dir base) file) n → r.hasBase = true → r.baseInRoot = false → root r = dir) ∧
    (∀ (file : String) (n : Nat) (r : TransactionalRange), IsEntry file → r.path = withSlashes (join dir file) n →
      r.hasBase = true → r.baseInRoot = true → root r = dir) ∧
    (∀ r : TransactionalRange, r.hasBase = false → root r = r.path) ∧
    (∀ r : TransactionalRange, ∃ told, recorded dir r = .ok told ∧ ∀ path ∈ told, parent path = dir ∧
      ∃ name, IsEntry name ∧ path = join dir name ∧ pathNames path = pathNames dir ++ [name.toUTF8.toList]) := by
  have hpart : ∀ part : Part, IsEntry part.directory :=
    fun part => isEntry_directoryName part.first part.last part.statement
  refine ⟨?_, ?_, ?_, ?_⟩
  · intro base file n r hbase hfile hpath hhas hown
    have hdeep := parent_join (isDirectoryPath_join hdir hbase) hfile
    rw [root_of_not_inRoot hhas (by simp [hown]), hpath, parent_withSlashes, hdeep, parent_join hdir hbase]
  · intro file n r hfile hpath hhas hin
    rw [root_of_inRoot hhas hin, hpath, parent_withSlashes, parent_join hdir hfile]
  · intro r hhas
    simp [root, hhas]
  · intro r
    refine ⟨_, recorded_eq dir r, ?_⟩
    intro path hpath
    obtain ⟨part, -, rfl⟩ := List.mem_map.mp hpath
    exact ⟨parent_join hdir (hpart part), part.directory, hpart part, rfl, pathNames_join hdir (hpart part)⟩

/-! A table in a store, with a slash too many in its path, and a split that lies in the topmost directory. -/

def storedTable : String := "hdfs://nn:8020/w//t"

def storedBase : TransactionalRange :=
  ⟨"hdfs://nn:8020/w//t/base_0000005/bucket_00000//", 0, 9, true, false, [⟨6, 6, []⟩, ⟨7, 8, [0, 1]⟩]⟩

def topmostBase : TransactionalRange := ⟨"/000000_0/", 0, 9, true, true, []⟩

theorem storedBase_root_found :
    IsDirectoryPath storedTable ∧ IsEntry "base_0000005" ∧ IsEntry "bucket_00000" ∧ IsDirectoryPath "/" ∧
      IsEntry "000000_0" ∧ root storedBase = storedTable ∧ root topmostBase = "/" ∧
      root { storedBase with hasBase := false } = "hdfs://nn:8020/w//t/base_0000005/bucket_00000//" ∧
      ∃ told, recorded storedTable storedBase = .ok told ∧ ∀ path ∈ told, parent path = storedTable := by
  have hstored : IsDirectoryPath storedTable := .inr ⟨by decide, by decide⟩
  have hbase : IsEntry "base_0000005" := ⟨by decide, by decide⟩
  have hbucket : IsEntry "bucket_00000" := ⟨by decide, by decide⟩
  have hfile : IsEntry "000000_0" := ⟨by decide, by decide⟩
  obtain ⟨hown, -, hnone, hrecorded⟩ := root_found_again hstored
  obtain ⟨-, hin, -, -⟩ := root_found_again (.inl rfl : IsDirectoryPath "/")
  obtain ⟨told, htold, hunder⟩ := hrecorded storedBase
  refine ⟨hstored, hbase, hbucket, .inl rfl, hfile, ?_, ?_, hnone _ rfl, told, htold, fun path h => (hunder path h).1⟩
  · exact hown "base_0000005" "bucket_00000" 2 storedBase hbase hbucket (by decide +kernel) rfl rfl
  · exact hin "000000_0" 1 topmostBase hfile (by decide +kernel) rfl rfl

/-! ## Deltas apart -/

/-- A name tells the writes that a delta holds. So where the paths of two deltas of a split agree, the deltas do. -/
theorem recorded_apart (dir : String) (r : TransactionalRange) :
    (∀ (first last first' last' : UInt64) (statement statement' : Option UInt32),
      directoryName first last statement = directoryName first' last' statement' ↔
        first = first' ∧ last = last' ∧ statement = statement') ∧
    ∃ told, recorded dir r = .ok told ∧ told.length = (recordedParts r).length ∧
      ∀ i j : Nat, told[i]? = told[j]? ↔ (recordedParts r)[i]? = (recordedParts r)[j]? := by
  constructor
  · intro first last first' last' statement statement'
    have hsame : Part.directory ⟨first, last, statement⟩ = Part.directory ⟨first', last', statement'⟩ ↔ _ :=
      directory_injective.eq_iff
    rw [Part.mk.injEq] at hsame
    exact hsame
  · refine ⟨_, recorded_eq dir r, List.length_map .., ?_⟩
    intro i j
    have hinj := (join_injective dir).comp directory_injective
    rw [List.getElem?_map, List.getElem?_map]
    exact (Option.map_injective hinj).eq_iff

end TableScan.Delta
