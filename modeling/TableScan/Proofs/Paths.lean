/-
  TableScan.Proofs.Paths — what a path names. Above paths stands arithmetic on slashes
  (`Delta.parent`), below them a walk from directory to directory (`FileTree.walk`); the names
  of a path lie between the two.

  - `pathNames`: the names in a path, without regard to how many slashes part them.
  - `pathNames_parent`: the parent of a path lacks its last name and is otherwise the same
    (`isAbsolute_parent`), but for a relative path of one name, whose parent is no path
    (`parent_eq_empty_iff`).
  - `walk_names`: the names that lead to a directory are the place that a path walks to.
-/

import TableScan.Delta
import TableScan.Proofs.JsonText

namespace TableScan

open TableScan.Text TableScan.Json

namespace FileTree

/-! ## Steps -/

theorem steps_ne_nil (bs : List UInt8) : steps bs ≠ [] := by
  cases bs with
  | nil => exact List.cons_ne_nil _ _
  | cons b bs =>
    rw [steps]
    split
    · exact List.cons_ne_nil _ _
    · split <;> exact List.cons_ne_nil _ _

theorem steps_slash (bs : List UInt8) : steps (slash :: bs) = [] :: steps bs := by
  rw [steps]
  cases h : steps bs with
  | nil => exact absurd h (steps_ne_nil bs)
  | cons s more => rfl

theorem steps_cons {b : UInt8} (hb : b ≠ slash) {bs : List UInt8} {s : FileName} {more : List FileName}
    (h : steps bs = s :: more) : steps (b :: bs) = (b :: s) :: more := by
  rw [steps, h]
  exact if_neg hb

theorem steps_append_slash (bs cs : List UInt8) : steps (bs ++ slash :: cs) = steps bs ++ steps cs := by
  induction bs with
  | nil => exact steps_slash cs
  | cons b bs ih =>
    rw [List.cons_append]
    by_cases hb : b = slash
    · rw [hb, steps_slash, steps_slash, ih, List.cons_append]
    · cases h : steps bs with
      | nil => exact absurd h (steps_ne_nil bs)
      | cons s more =>
        rw [steps_cons hb h]
        rw [h, List.cons_append] at ih
        rw [steps_cons hb ih, List.cons_append]

theorem steps_of_not_mem {bs : List UInt8} (h : slash ∉ bs) : steps bs = [bs] := by
  induction bs with
  | nil => rfl
  | cons b bs ih =>
    rw [List.mem_cons, not_or] at h
    exact steps_cons (Ne.symm h.1) (ih h.2)

theorem mem_of_mem_steps {bs : List UInt8} {b : UInt8} (hb : b ∈ bs) : b = slash ∨ ∃ s ∈ steps bs, b ∈ s := by
  induction bs with
  | nil => cases hb
  | cons a bs ih =>
    by_cases ha : a = slash
    · rw [ha, steps_slash]
      rcases List.mem_cons.mp hb with rfl | hb
      · exact .inl ha
      · exact (ih hb).imp id fun ⟨s, hs, hmem⟩ => ⟨s, List.mem_cons_of_mem _ hs, hmem⟩
    · cases h : steps bs with
      | nil => exact absurd h (steps_ne_nil bs)
      | cons s more =>
        rw [steps_cons ha h]
        rw [h] at ih
        rcases List.mem_cons.mp hb with rfl | hb
        · exact .inr ⟨_, List.mem_cons_self .., List.mem_cons_self ..⟩
        · refine (ih hb).imp id ?_
          rintro ⟨s', hs', hmem⟩
          rcases List.mem_cons.mp hs' with rfl | hs'
          · exact ⟨_, List.mem_cons_self .., List.mem_cons_of_mem _ hmem⟩
          · exact ⟨s', List.mem_cons_of_mem _ hs', hmem⟩

/-! ## Names -/

/-- The names between slashes. -/
def namesOf (bs : List UInt8) : List FileName := (steps bs).filter (· ≠ [])

/-- The names in a path. -/
def pathNames (path : String) : List FileName := namesOf path.toUTF8.toList

theorem namesOf_append_slash (bs cs : List UInt8) : namesOf (bs ++ slash :: cs) = namesOf bs ++ namesOf cs := by
  rw [namesOf, steps_append_slash, List.filter_append, namesOf, namesOf]

theorem namesOf_name {bs : List UInt8} (h : slash ∉ bs) (hne : bs ≠ []) : namesOf bs = [bs] := by
  rw [namesOf, steps_of_not_mem h]
  simp [hne]

theorem namesOf_slashes (n : Nat) : namesOf (List.replicate n slash) = [] := by
  induction n with
  | zero => rfl
  | succ n ih => exact (namesOf_append_slash [] _).trans ih

/-- Slashes at the end of a path are no part of its names. -/
theorem namesOf_append_slashes (bs : List UInt8) (n : Nat) :
    namesOf (bs ++ List.replicate n slash) = namesOf bs := by
  cases n with
  | zero => simp
  | succ n => rw [List.replicate_succ, namesOf_append_slash, namesOf_slashes, List.append_nil]

theorem namesOf_ne_nil {b : UInt8} {bs : List UInt8} (hb : b ∈ bs) (hslash : b ≠ slash) : namesOf bs ≠ [] := by
  obtain ⟨s, hs, hmem⟩ := (mem_of_mem_steps hb).resolve_left hslash
  exact List.ne_nil_of_mem (List.mem_filter.mpr ⟨hs, by simpa using List.ne_nil_of_mem hmem⟩)

theorem isAbsolute_append {bs : List UInt8} (h : bs ≠ []) (cs : List UInt8) :
    isAbsolute (bs ++ cs) = isAbsolute bs := by
  cases bs with
  | nil => exact absurd rfl h
  | cons b bs => rfl

theorem isAbsolute_of_not_mem {bs : List UInt8} (h : slash ∉ bs) : isAbsolute bs = false := by
  cases bs with
  | nil => rfl
  | cons b bs =>
    have : slash ≠ b := fun heq => h (heq ▸ List.mem_cons_self ..)
    simpa [isAbsolute] using this.symm

theorem namesOf_ne_nil_of_relative {bs : List UInt8} (h : bs ≠ []) (hrel : isAbsolute bs = false) :
    namesOf bs ≠ [] := by
  cases bs with
  | nil => exact absurd rfl h
  | cons b bs => exact namesOf_ne_nil (List.mem_cons_self ..) (by simpa [isAbsolute] using hrel)

end FileTree

namespace Delta

open FileTree

/-! ## Parents -/

/-- An ASCII character is a byte of its own, and its byte is part of no other. -/
theorem code_mem_utf8 {a : Char} (ha : a.toNat < 0x80) {cs : List Char} : code a ∈ utf8 cs ↔ a ∈ cs := by
  induction cs with
  | nil => simp
  | cons c cs ih =>
    rw [utf8_cons, List.mem_append, List.mem_cons, ih]
    refine or_congr_left ?_
    by_cases hc : c.toNat < 0x80
    · rw [utf8EncodeChar_ascii hc, List.mem_singleton]
      refine ⟨?_, congrArg code⟩
      intro h
      have hnat := congrArg UInt8.toNat h
      rw [toNat_code ha, toNat_code hc] at hnat
      exact Char.toNat_inj.mp hnat
    · refine ⟨?_, ?_⟩
      · intro h
        have := mem_utf8EncodeChar (Nat.le_of_not_lt hc) _ h
        rw [UInt8.le_iff_toNat_le, toNat_code ha] at this
        exact absurd ha (Nat.not_lt_of_le this)
      · rintro rfl
        exact absurd ha hc

theorem slash_mem_utf8 {cs : List Char} : slash ∈ utf8 cs ↔ '/' ∈ cs := code_mem_utf8 (a := '/') (by decide)

theorem utf8_slashes (n : Nat) : utf8 (List.replicate n '/') = List.replicate n slash := by
  induction n with
  | zero => rfl
  | succ n ih => rw [List.replicate_succ, utf8_cons, ih, List.replicate_succ]; rfl

/-- A path ends in a name and slashes, with what lies above the name before one more slash; its parent is what
lies above. -/
inductive Parted : List Char → List Char → Prop
  | under {above name : List Char} (n : Nat) : '/' ∉ name → name ≠ [] →
      Parted (above ++ '/' :: (name ++ List.replicate n '/')) (if above = [] then ['/'] else above)
  | alone {name : List Char} (n : Nat) : '/' ∉ name → name ≠ [] → Parted (name ++ List.replicate n '/') []
  | nameless (n : Nat) : Parted (List.replicate n '/') []

theorem parted (cs : List Char) : Parted cs (parentChars cs) := by
  -- Read backwards: slashes, a name, and what lies above it.
  obtain ⟨n, hn⟩ : ∃ n, cs.reverse.takeWhile (· = '/') = List.replicate n '/' :=
    ⟨_, List.eq_replicate_of_mem fun c hc => by simpa using List.all_eq_true.mp List.all_takeWhile c hc⟩
  have hcs : cs = (cs.reverse.dropWhile (· = '/')).reverse ++ List.replicate n '/' := by
    rw [← List.reverse_replicate, ← hn, ← List.reverse_append, List.takeWhile_append_dropWhile, List.reverse_reverse]
  have hhead := List.head?_dropWhile_not (· = '/') cs.reverse
  unfold parentChars
  generalize cs.reverse.dropWhile (· = '/') = back at hcs hhead ⊢
  subst hcs
  have hback := List.takeWhile_append_dropWhile (p := (· ≠ '/')) (l := back)
  have hname : '/' ∉ (back.takeWhile (· ≠ '/')).reverse := by
    intro h
    simpa using List.all_eq_true.mp List.all_takeWhile _ (List.mem_reverse.mp h)
  have habove := List.head?_dropWhile_not (· ≠ '/') back
  generalize back.takeWhile (· ≠ '/') = name at hback hname
  generalize back.dropWhile (· ≠ '/') = above at hback habove ⊢
  subst hback
  cases above with
  | nil =>
    rw [List.append_nil]
    by_cases hempty : name = []
    · rw [hempty]
      exact .nameless n
    · exact .alone n hname (by simpa using hempty)
  | cons c above =>
    obtain rfl : c = '/' := by simpa using habove
    have hempty : name ≠ [] := by
      rintro rfl
      simp at hhead
    rw [List.reverse_append, List.reverse_cons, List.append_assoc, List.append_assoc, List.singleton_append]
    have := @Parted.under above.reverse _ n hname (by simpa using hempty)
    cases above with
    | nil => exact this
    | cons c above => simpa using this

theorem utf8_ne_nil {cs : List Char} (h : cs ≠ []) : utf8 cs ≠ [] := by
  cases cs with
  | nil => exact absurd rfl h
  | cons c cs =>
    rw [utf8_cons]
    exact List.append_ne_nil_of_left_ne_nil String.utf8EncodeChar_ne_nil _

section Parted

variable {cs up : List Char}

theorem utf8_under (above name : List Char) (n : Nat) :
    utf8 (above ++ '/' :: (name ++ List.replicate n '/')) =
      utf8 above ++ slash :: (utf8 name ++ List.replicate n slash) := by
  rw [utf8_append, utf8_cons, utf8_append, utf8_slashes]
  rfl

theorem namesOf_under (above : List Char) {name : List Char} (n : Nat) (hname : '/' ∉ name) (hne : name ≠ []) :
    namesOf (utf8 (above ++ '/' :: (name ++ List.replicate n '/'))) = namesOf (utf8 above) ++ [utf8 name] := by
  rw [utf8_under, namesOf_append_slash, namesOf_append_slashes,
    namesOf_name (slash_mem_utf8.not.mpr hname) (utf8_ne_nil hne)]

theorem namesOf_alone {name : List Char} (n : Nat) (hname : '/' ∉ name) (hne : name ≠ []) :
    namesOf (utf8 (name ++ List.replicate n '/')) = [utf8 name] := by
  rw [utf8_append, utf8_slashes, namesOf_append_slashes,
    namesOf_name (slash_mem_utf8.not.mpr hname) (utf8_ne_nil hne)]

theorem Parted.names (h : Parted cs up) : namesOf (utf8 up) = (namesOf (utf8 cs)).dropLast := by
  cases h with
  | @under above name n hname hne =>
    rw [namesOf_under above n hname hne, List.dropLast_concat]
    split
    · rename_i habove
      rw [habove]
      rfl
    · rfl
  | alone n hname hne =>
    rw [namesOf_alone n hname hne]
    rfl
  | nameless n =>
    rw [utf8_slashes, namesOf_slashes]
    rfl

theorem Parted.isAbsolute (h : Parted cs up) (hup : up ≠ []) : isAbsolute (utf8 up) = isAbsolute (utf8 cs) := by
  cases h with
  | @under above name n hname hne =>
    rw [utf8_under]
    split
    · rename_i habove
      rw [habove]
      rfl
    · rename_i habove
      exact (isAbsolute_append (utf8_ne_nil habove) _).symm
  | alone _ _ _ => exact absurd rfl hup
  | nameless _ => exact absurd rfl hup

/-- What lies above the last name of a relative path is lost if it is the only one. -/
theorem Parted.eq_nil_iff (h : Parted cs up) :
    up = [] ↔ namesOf (utf8 cs) = [] ∨ FileTree.isAbsolute (utf8 cs) = false ∧ (namesOf (utf8 cs)).length = 1 := by
  cases h with
  | @under above name n hname hne =>
    rw [namesOf_under above n hname hne, utf8_under]
    refine ⟨?_, ?_⟩
    · intro h
      split at h
      · cases h
      · contradiction
    · rintro (h | ⟨hrel, hlen⟩)
      · simp at h
      · have habove : namesOf (utf8 above) = [] := by simpa using hlen
        by_cases h : above = []
        · rw [h] at hrel
          cases hrel
        · rw [isAbsolute_append (utf8_ne_nil h)] at hrel
          exact absurd habove (namesOf_ne_nil_of_relative (utf8_ne_nil h) hrel)
  | alone n hname hne =>
    rw [namesOf_alone n hname hne, utf8_append, isAbsolute_append (utf8_ne_nil hne)]
    simp [isAbsolute_of_not_mem (slash_mem_utf8.not.mpr hname)]
  | nameless n => simp [utf8_slashes, namesOf_slashes]

theorem Parted.length_le (h : Parted cs up) : (utf8 up).length ≤ (utf8 cs).length := by
  cases h with
  | @under above name n hname hne =>
    rw [utf8_under, List.length_append, List.length_cons]
    split
    · exact Nat.le_trans (Nat.le_add_left 1 _) (Nat.le_add_left _ _)
    · exact Nat.le_add_right _ _
  | alone _ _ _ => exact Nat.zero_le _
  | nameless _ => exact Nat.zero_le _

end Parted

section Parent

variable (path : String)

theorem bytes_parent : (parent path).toUTF8.toList = utf8 (parentChars path.toList) := by
  rw [← utf8_toList, parent, String.toList_ofList]

/-- A parent is no longer than what it is the parent of. -/
theorem length_parent_le : (parent path).toUTF8.toList.length ≤ path.toUTF8.toList.length := by
  rw [bytes_parent, ← utf8_toList]
  exact (parted path.toList).length_le

theorem pathNames_parent : pathNames (parent path) = (pathNames path).dropLast := by
  rw [pathNames, pathNames, bytes_parent, ← utf8_toList]
  exact (parted path.toList).names

theorem isAbsolute_parent (h : parent path ≠ "") :
    isAbsolute (parent path).toUTF8.toList = isAbsolute path.toUTF8.toList := by
  rw [bytes_parent, ← utf8_toList]
  refine (parted path.toList).isAbsolute ?_
  intro hnil
  exact h (congrArg String.ofList hnil)

theorem parent_eq_empty_iff :
    parent path = "" ↔
      pathNames path = [] ∨ isAbsolute path.toUTF8.toList = false ∧ (pathNames path).length = 1 := by
  rw [pathNames, ← utf8_toList, ← (parted path.toList).eq_nil_iff, parent]
  refine ⟨?_, congrArg String.ofList⟩
  intro h
  simpa using congrArg String.toList h

end Parent

end Delta

namespace FileTree

/-! ## Walks -/

/-- The name may stand in a directory. -/
structure IsName (name : FileName) : Prop where
  nonempty : name ≠ []
  noSlash : slash ∉ name
  noNul : 0 ∉ name
  short : name.length ≤ maxName
  noPoint : name ≠ [point] ∧ name ≠ [point, point]

instance (name : FileName) : Decidable (IsName name) :=
  decidable_of_iff
    (name ≠ [] ∧ slash ∉ name ∧ 0 ∉ name ∧ name.length ≤ maxName ∧ name ≠ [point] ∧ name ≠ [point, point])
    ⟨fun ⟨h, h', h'', hshort, hpoint⟩ => ⟨h, h', h'', hshort, hpoint⟩,
      fun ⟨h, h', h'', hshort, hpoint⟩ => ⟨h, h', h'', hshort, hpoint⟩⟩

end FileTree

/-- All names in the tree may stand there. -/
inductive FileNode.Proper : FileNode → Prop
  | directory {entries : List (FileName × FileNode)} : (∀ e ∈ entries, FileTree.IsName e.1) →
      (∀ e ∈ entries, Proper e.2) → Proper (.directory entries)
  | file : Proper .file
  | link {target : List UInt8} : Proper (.link target)

namespace FileTree

theorem mem_of_lookup {name : FileName} {node : FileNode} {entries : List (FileName × FileNode)}
    (h : entries.lookup name = some node) : (name, node) ∈ entries := by
  obtain ⟨before, after, rfl, -⟩ := List.lookup_eq_some_iff.mp h
  simp

theorem nodeAt?_append (place more : List FileName) :
    ∀ node : FileNode, nodeAt? (place ++ more) node = (nodeAt? place node).bind (nodeAt? more) := by
  induction place with
  | nil => exact fun _ => rfl
  | cons name place ih =>
    intro node
    cases node with
    | directory entries =>
      rw [List.cons_append, nodeAt?, nodeAt?]
      cases entries.lookup name with
      | none => rfl
      | some child => exact ih child
    | file => rfl
    | link target => rfl

/-- What leads to a node of a proper tree are names. -/
theorem nodeAt?_proper {place : List FileName} : ∀ {node found : FileNode}, node.Proper →
    nodeAt? place node = some found → (∀ name ∈ place, IsName name) ∧ found.Proper := by
  induction place with
  | nil =>
    intro node found hproper h
    cases h
    exact ⟨by simp, hproper⟩
  | cons name place ih =>
    intro node found hproper h
    cases node with
    | directory entries =>
      rw [nodeAt?, Option.bind_eq_some_iff] at h
      obtain ⟨child, hlookup, h⟩ := h
      cases hproper with
      | directory hnames hchildren =>
        have hmem := mem_of_lookup hlookup
        obtain ⟨hplace, hfound⟩ := ih (hchildren _ hmem) h
        exact ⟨List.forall_mem_cons.mpr ⟨hnames _ hmem, hplace⟩, hfound⟩
    | file => cases h
    | link target => cases h

/-- A directory is reached through directories. -/
theorem nodeAt?_directory {place : List FileName} {node : FileNode} {entries : List (FileName × FileNode)}
    (h : nodeAt? place node = some (.directory entries)) : ∃ entries', node = .directory entries' := by
  cases node with
  | directory entries' => exact ⟨entries', rfl⟩
  | file => cases place <;> simp [nodeAt?] at h
  | link target => cases place <;> simp [nodeAt?] at h

theorem walk_names {t : FileTree} {links : Nat} {entries : List (FileName × FileNode)} {path : List FileName} :
    ∀ {place : List FileName}, (∀ name ∈ path.filter (· ≠ []), IsName name) →
      t.node? (place ++ path.filter (· ≠ [])) = some (.directory entries) →
      t.walk links place path = .ok (place ++ path.filter (· ≠ [])) := by
  induction path with
  | nil =>
    intro place _ _
    rw [walk, List.filter_nil, List.append_nil]
  | cons step rest ih =>
    intro place hnames hnode
    have hat := hnode
    rw [node?, nodeAt?_append, Option.bind_eq_some_iff] at hat
    obtain ⟨node, hplace, hat⟩ := hat
    obtain ⟨here, rfl⟩ := nodeAt?_directory hat
    rw [walk, node?, hplace]
    dsimp only
    by_cases hstep : step = []
    · rw [if_pos (.inl hstep)]
      have hfilter : (step :: rest).filter (· ≠ []) = rest.filter (· ≠ []) := by simp [hstep]
      rw [hfilter] at hnames hnode ⊢
      exact ih hnames hnode
    · have hfilter : (step :: rest).filter (· ≠ []) = step :: rest.filter (· ≠ []) := by simp [hstep]
      rw [hfilter] at hnames hnode hat ⊢
      have hname := hnames step (List.mem_cons_self ..)
      rw [if_neg (by simp [hstep, hname.noPoint.1]), if_neg hname.noPoint.2, if_neg (Nat.not_lt_of_le hname.short)]
      rw [nodeAt?, Option.bind_eq_some_iff] at hat
      obtain ⟨child, hlookup, hat⟩ := hat
      obtain ⟨below, rfl⟩ := nodeAt?_directory hat
      rw [hlookup]
      dsimp only
      have happend : place ++ step :: rest.filter (· ≠ []) = (place ++ [step]) ++ rest.filter (· ≠ []) := by simp
      rw [happend] at hnode ⊢
      exact ih (fun name h => hnames name (List.mem_cons_of_mem _ h)) hnode

@[simp] theorem bytes_empty : "".toUTF8.toList = [] := (utf8_toList "").symm

theorem bytes_eq_nil_iff {path : String} : path.toUTF8.toList = [] ↔ path = "" := by
  rw [← utf8_toList, ← String.toList_eq_nil_iff]
  exact ⟨not_imp_not.mp Delta.utf8_ne_nil, fun hp => by rw [hp, utf8_nil]⟩

theorem resolve_empty (t : FileTree) : t.resolve "" = .error .notFound := by
  simp [resolve]

/-- The place that the names of a path lead to. -/
def placeOf (t : FileTree) (path : String) : List FileName :=
  (if isAbsolute path.toUTF8.toList then [] else t.workingDirectory) ++ pathNames path

/-- A path names the directory that its names lead to, unless it is too long, or empty. -/
theorem resolve_names {t : FileTree} (ht : t.root.Proper) {path : String} {entries : List (FileName × FileNode)}
    (h : t.node? (t.placeOf path) = some (.directory entries)) :
    t.resolve path = if path = "" then .error .notFound
      else if maxPath < path.toUTF8.toList.length then .error .nameTooLong else .ok (t.placeOf path) := by
  have hnames : ∀ name ∈ pathNames path, IsName name :=
    fun name hname => (nodeAt?_proper ht h).1 name (List.mem_append_right _ hname)
  have hnul : 0 ∉ path.toUTF8.toList := by
    intro hmem
    obtain ⟨step, hstep, hzero⟩ := (mem_of_mem_steps hmem).resolve_left (by decide)
    have hne : step ≠ [] := List.ne_nil_of_mem hzero
    exact (hnames step (List.mem_filter.mpr ⟨hstep, by simpa using hne⟩)).noNul hzero
  simp only [resolve, if_neg hnul, bytes_eq_nil_iff]
  split
  · rfl
  · split
    · rfl
    · exact walk_names hnames h

end FileTree

end TableScan
