/-
  TableScan.Proofs.PathSteps — where a path leads, one step at a time.

  A step stays in a directory, goes up, enters a child, or goes on with the steps of a link
  (`StepsTo`). Nothing is said about how often: of the steps that lead from one position to
  another (`Leads`) only the links are counted. A path comes to an end (`Ends`) when no step is
  left, when a directory has no child of the name, when something else than a directory is to be
  stepped in, or when the name is too long.

  - `Leads.walk`, `Leads.exhausted`: a walk goes where steps lead, until it runs out of links.
  - `ends_or_exhausted`: either steps come to an end, or there are more links than any bound.
  - `walk_eq_iff`: so the answer of a walk is the end of its path, or that there are too many
    links. That is the answer for paths that run in a circle (`Leads.circle`).
  - `MeetsMissing`, `ArrivesAt`, `FailsOtherwise`: what becomes of a path. It is one of the three
    (`path_cases`).
-/

import TableScan.Proofs.Paths

namespace TableScan.FileTree

/-! ## Steps -/

/-- A place that was reached, and the steps left to be taken from it. -/
structure Position where
  place : List FileName
  steps : List FileName
  deriving DecidableEq

/-- The step neither stays nor goes up. -/
def IsChildStep (step : FileName) : Prop := step ≠ [] ∧ step ≠ [point] ∧ step ≠ [point, point]

instance (step : FileName) : Decidable (IsChildStep step) :=
  inferInstanceAs (Decidable (step ≠ [] ∧ step ≠ [point] ∧ step ≠ [point, point]))

/-- Steps are taken in directories. The number is 1 for a link that is followed. -/
inductive StepsTo (t : FileTree) : Nat → Position → Position → Prop
  | stay {place rest : List FileName} {step : FileName} {entries : List (FileName × FileNode)} :
      t.node? place = some (.directory entries) → step = [] ∨ step = [point] →
      StepsTo t 0 ⟨place, step :: rest⟩ ⟨place, rest⟩
  | up {place rest : List FileName} {entries : List (FileName × FileNode)} :
      t.node? place = some (.directory entries) →
      StepsTo t 0 ⟨place, [point, point] :: rest⟩ ⟨place.dropLast, rest⟩
  | enter {place rest : List FileName} {step : FileName} {entries : List (FileName × FileNode)} {child : FileNode} :
      t.node? place = some (.directory entries) → IsChildStep step → step.length ≤ maxName →
      entries.lookup step = some child → (∀ target, child ≠ .link target) →
      StepsTo t 0 ⟨place, step :: rest⟩ ⟨place ++ [step], rest⟩
  | follow {place rest : List FileName} {step : FileName} {entries : List (FileName × FileNode)}
      {target : List UInt8} :
      t.node? place = some (.directory entries) → IsChildStep step → step.length ≤ maxName →
      entries.lookup step = some (.link target) →
      StepsTo t 1 ⟨place, step :: rest⟩ ⟨if isAbsolute target then [] else place, FileTree.steps target ++ rest⟩

/-- Steps lead from one position to another, through so many links. -/
inductive Leads (t : FileTree) : Nat → Position → Position → Prop
  | here (p : Position) : Leads t 0 p p
  | step {m n : Nat} {p q r : Position} : StepsTo t m p q → Leads t n q r → Leads t (m + n) p r

/-- No step can be taken, and why. -/
inductive Ends (t : FileTree) : Position → Except PathFault (List FileName) → Prop
  | arrived (place : List FileName) : Ends t ⟨place, []⟩ (.ok place)
  | missing {place rest : List FileName} {step : FileName} {entries : List (FileName × FileNode)} :
      t.node? place = some (.directory entries) → IsChildStep step → step.length ≤ maxName →
      entries.lookup step = none → Ends t ⟨place, step :: rest⟩ (.error .notFound)
  | longName {place rest : List FileName} {step : FileName} {entries : List (FileName × FileNode)} :
      t.node? place = some (.directory entries) → IsChildStep step → maxName < step.length →
      Ends t ⟨place, step :: rest⟩ (.error .nameTooLong)
  | noDirectory {place rest : List FileName} {step : FileName} :
      (∀ entries, t.node? place ≠ some (.directory entries)) → Ends t ⟨place, step :: rest⟩ (.error .notADirectory)

variable {t : FileTree} {p q r : Position}

theorem StepsTo.walk {m : Nat} (h : StepsTo t m p q) (links : Nat) :
    t.walk (links + m) p.place p.steps = t.walk links q.place q.steps := by
  cases h with
  | stay hdir hstep => simp only [Nat.add_zero, FileTree.walk, hdir, if_pos hstep]
  | up hdir =>
    have hstay : ¬ ([point, point] = [] ∨ [point, point] = [point]) := by decide
    simp only [Nat.add_zero, FileTree.walk, hdir, if_neg hstay, if_true]
  | @enter place rest step entries child hdir hchild hlen hlookup hlink =>
    obtain ⟨hempty, hpoint, hup⟩ := hchild
    have hshort : ¬ maxName < step.length := by omega
    rw [Nat.add_zero, FileTree.walk, hdir]
    cases child with
    | link target => exact absurd rfl (hlink target)
    | _ => simp [hempty, hpoint, hup, hshort, hlookup]
  | @follow place rest step entries target hdir hchild hlen hlookup =>
    obtain ⟨hempty, hpoint, hup⟩ := hchild
    have hshort : ¬ maxName < step.length := by omega
    rw [FileTree.walk, hdir]
    simp [hempty, hpoint, hup, hshort, hlookup]

/-- A link that is not to be followed any more. -/
theorem StepsTo.exhausted {m : Nat} (h : StepsTo t (m + 1) p q) :
    t.walk 0 p.place p.steps = .error .tooManyLinks := by
  cases h with
  | @follow place rest step entries target hdir hchild hlen hlookup =>
    obtain ⟨hempty, hpoint, hup⟩ := hchild
    have hshort : ¬ maxName < step.length := by omega
    rw [FileTree.walk, hdir]
    simp [hempty, hpoint, hup, hshort, hlookup]

theorem Ends.walk {answer : Except PathFault (List FileName)} (h : Ends t p answer) (links : Nat) :
    t.walk links p.place p.steps = answer := by
  cases h with
  | arrived place => rw [FileTree.walk]
  | missing hdir hchild hlen hlookup =>
    obtain ⟨hempty, hpoint, hup⟩ := hchild
    rw [FileTree.walk, hdir]
    simp [hempty, hpoint, hup, Nat.not_lt_of_le hlen, hlookup]
  | longName hdir hchild hlen =>
    obtain ⟨hempty, hpoint, hup⟩ := hchild
    rw [FileTree.walk, hdir]
    simp [hempty, hpoint, hup, hlen]
  | @noDirectory place rest step hdir =>
    rw [FileTree.walk]
    cases hnode : t.node? place with
    | none => rfl
    | some node =>
      cases node with
      | directory entries => exact absurd hnode (hdir entries)
      | file => rfl
      | link target => rfl

/-! ## Walks -/

theorem Leads.trans {m n : Nat} (h : Leads t m p q) (h' : Leads t n q r) : Leads t (m + n) p r := by
  induction h with
  | here p => rwa [Nat.zero_add]
  | step hstep _ ih =>
    rw [Nat.add_assoc]
    exact .step hstep (ih h')

/-- A walk with links to spare goes where steps lead. -/
theorem Leads.walk {n : Nat} (h : Leads t n p q) (links : Nat) :
    t.walk (links + n) p.place p.steps = t.walk links q.place q.steps := by
  induction h with
  | here p => rfl
  | @step m n p q r hstep _ ih =>
    rw [Nat.add_comm m n, ← Nat.add_assoc, hstep.walk, ih]

theorem StepsTo.links_le {m : Nat} (h : StepsTo t m p q) : m ≤ 1 := by
  cases h <;> omega

theorem Leads.exhausted {n : Nat} (h : Leads t n p q) : ∀ {links : Nat}, links < n →
    t.walk links p.place p.steps = .error .tooManyLinks := by
  induction h with
  | here p =>
    intro links hlinks
    omega
  | @step m n p q r hstep _ ih =>
    intro links hlinks
    by_cases hm : m ≤ links
    · obtain ⟨spare, rfl⟩ := Nat.exists_eq_add_of_le' hm
      rw [hstep.walk]
      exact ih (by omega)
    · have hone := hstep.links_le
      obtain rfl : m = 0 + 1 := by omega
      obtain rfl : links = 0 := by omega
      exact hstep.exhausted

/-- Wherever a path has come to, it ends there, or a step can be taken. -/
theorem ends_or_steps (t : FileTree) (p : Position) : (∃ answer, Ends t p answer) ∨ ∃ m q, StepsTo t m p q := by
  obtain ⟨place, path⟩ := p
  cases path with
  | nil => exact .inl ⟨_, .arrived place⟩
  | cons step rest =>
    by_cases hdir : ∃ entries, t.node? place = some (.directory entries)
    · obtain ⟨entries, hdir⟩ := hdir
      by_cases hstay : step = [] ∨ step = [point]
      · exact .inr ⟨0, _, .stay hdir hstay⟩
      by_cases hup : step = [point, point]
      · subst hup
        exact .inr ⟨0, _, .up hdir⟩
      have hchild : IsChildStep step := ⟨fun h => hstay (.inl h), fun h => hstay (.inr h), hup⟩
      by_cases hlen : step.length ≤ maxName
      · cases hlookup : entries.lookup step with
        | none => exact .inl ⟨_, .missing hdir hchild hlen hlookup⟩
        | some child =>
          cases child with
          | link target => exact .inr ⟨1, _, .follow hdir hchild hlen hlookup⟩
          | _ => exact .inr ⟨0, _, .enter hdir hchild hlen hlookup (by simp)⟩
      · exact .inl ⟨_, .longName hdir hchild (by omega)⟩
    · exact .inl ⟨_, .noDirectory fun entries h => hdir ⟨entries, h⟩⟩

/-- A step that follows no link leaves fewer steps. -/
theorem StepsTo.shorter (h : StepsTo t 0 p q) : q.steps.length < p.steps.length := by
  cases h <;> simp

/-- A path ends after so many links at most, or it leads through more. -/
theorem ends_or_exhausted (t : FileTree) (links : Nat) (p : Position) :
    (∃ n q answer, n ≤ links ∧ Leads t n p q ∧ Ends t q answer) ∨ ∃ n q, links < n ∧ Leads t n p q := by
  rcases ends_or_steps t p with ⟨answer, hends⟩ | ⟨m, q, hstep⟩
  · exact .inl ⟨0, p, answer, Nat.zero_le _, .here p, hends⟩
  · have hm := hstep.links_le
    by_cases hlinks : m ≤ links
    · have hless : Prod.Lex (· < ·) (· < ·) (links - m, q.steps.length) (links, p.steps.length) := by
        by_cases hzero : m = 0
        · subst hzero
          exact .right _ hstep.shorter
        · exact .left _ _ (by omega)
      rcases ends_or_exhausted t (links - m) q with ⟨n, r, answer, hn, hleads, hends⟩ | ⟨n, r, hn, hleads⟩
      · exact .inl ⟨m + n, r, answer, by omega, .step hstep hleads, hends⟩
      · exact .inr ⟨m + n, r, by omega, .step hstep hleads⟩
    · exact .inr ⟨m + 0, q, by omega, .step hstep (.here q)⟩
termination_by (links, p.steps.length)
decreasing_by exact hless

/-- The answer of a walk is the end of its path, or that the path leads through too many links. -/
theorem walk_eq_iff {links : Nat} {answer : Except PathFault (List FileName)} :
    t.walk links p.place p.steps = answer ↔
      (∃ n q, n ≤ links ∧ Leads t n p q ∧ Ends t q answer) ∨
      (answer = .error .tooManyLinks ∧ ∃ n q, links < n ∧ Leads t n p q) := by
  have hends : ∀ {n : Nat} {q : Position} {answer : Except PathFault (List FileName)}, n ≤ links → Leads t n p q →
      Ends t q answer → t.walk links p.place p.steps = answer := by
    intro n q answer hn hleads hends
    obtain ⟨spare, rfl⟩ := Nat.exists_eq_add_of_le' hn
    rw [hleads.walk, hends.walk]
  constructor
  · intro h
    rcases ends_or_exhausted t links p with ⟨n, q, answer', hn, hleads, hend⟩ | ⟨n, q, hn, hleads⟩
    · have hsame : answer' = answer := (hends hn hleads hend).symm.trans h
      exact .inl ⟨n, q, hn, hleads, hsame ▸ hend⟩
    · exact .inr ⟨h.symm.trans (hleads.exhausted hn), n, q, hn, hleads⟩
  · rintro (⟨n, q, hn, hleads, hend⟩ | ⟨rfl, n, q, hn, hleads⟩)
    · exact hends hn hleads hend
    · exact hleads.exhausted hn

/-- A circle can be run through as often as one likes. -/
theorem Leads.circle {m : Nat} (h : Leads t (m + 1) p p) (bound : Nat) : ∃ n, bound ≤ n ∧ Leads t n p p := by
  induction bound with
  | zero => exact ⟨0, Nat.le_refl 0, .here p⟩
  | succ bound ih =>
    obtain ⟨n, hn, hleads⟩ := ih
    exact ⟨m + 1 + n, by omega, h.trans hleads⟩

/-! ## Paths -/

/-- The text can be given to the system as a path. -/
structure IsPath (path : String) : Prop where
  nonempty : path ≠ ""
  noNul : 0 ∉ path.toUTF8.toList
  short : path.toUTF8.toList.length ≤ maxPath

/-- Where a path starts: at the root, or in the working directory. -/
def start (t : FileTree) (path : String) : Position :=
  ⟨if isAbsolute path.toUTF8.toList then [] else t.workingDirectory, FileTree.steps path.toUTF8.toList⟩

/-- The path comes to this end, through no more links than the system follows. -/
def PathEnds (t : FileTree) (path : String) (answer : Except PathFault (List FileName)) : Prop :=
  IsPath path ∧ ∃ n q, n ≤ maxLinks ∧ Leads t n (t.start path) q ∧ Ends t q answer

/-- On its way the path asks a directory for a child that it does not have. -/
def MeetsMissing (t : FileTree) (path : String) : Prop := t.PathEnds path (.error .notFound)

def ArrivesAt (t : FileTree) (path : String) (place : List FileName) : Prop := t.PathEnds path (.ok place)

/-- A path that leads nowhere, for another reason than that something is missing. -/
inductive FailsOtherwise (t : FileTree) (path : String) : Prop
  | noPath : path ≠ "" → ¬ IsPath path → FailsOtherwise t path
  | longName : t.PathEnds path (.error .nameTooLong) → FailsOtherwise t path
  | noDirectory : t.PathEnds path (.error .notADirectory) → FailsOtherwise t path
  | manyLinks {n : Nat} {q : Position} : IsPath path → maxLinks < n → Leads t n (t.start path) q →
      FailsOtherwise t path

section Resolved

variable {path : String}

theorem IsPath.resolve (h : IsPath path) (t : FileTree) :
    t.resolve path = t.walk maxLinks (t.start path).place (t.start path).steps := by
  simp only [FileTree.resolve, if_neg h.noNul, if_neg (mt bytes_eq_nil_iff.mp h.nonempty),
    if_neg (Nat.not_lt_of_le h.short)]
  rfl

/-- What is no path fails before any step. -/
theorem resolve_of_not_isPath (t : FileTree) (hne : path ≠ "") (h : ¬ IsPath path) :
    ∃ cause, cause ≠ .notFound ∧ t.resolve path = .error cause := by
  by_cases hnul : 0 ∈ path.toUTF8.toList
  · exact ⟨.nulByte, by simp, by simp only [FileTree.resolve, if_pos hnul]⟩
  · have hlong : maxPath < path.toUTF8.toList.length := by
      by_contra hshort
      exact h ⟨hne, hnul, by omega⟩
    refine ⟨.nameTooLong, by simp, ?_⟩
    simp only [FileTree.resolve, if_neg hnul, if_neg (mt bytes_eq_nil_iff.mp hne), if_pos hlong]

theorem PathEnds.resolve {answer : Except PathFault (List FileName)} (h : t.PathEnds path answer) :
    t.resolve path = answer := by
  obtain ⟨hpath, hends⟩ := h
  rw [hpath.resolve]
  exact walk_eq_iff.mpr (.inl hends)

theorem FailsOtherwise.resolve (h : t.FailsOtherwise path) :
    ∃ cause, cause ≠ .notFound ∧ t.resolve path = .error cause := by
  cases h with
  | noPath hne hpath => exact resolve_of_not_isPath t hne hpath
  | longName hends => exact ⟨.nameTooLong, by simp, hends.resolve⟩
  | noDirectory hends => exact ⟨.notADirectory, by simp, hends.resolve⟩
  | manyLinks hpath hn hleads => exact ⟨.tooManyLinks, by simp, hpath.resolve t ▸ hleads.exhausted hn⟩

/-- A path that runs in a circle fails. -/
theorem failsOtherwise_of_circle {n m : Nat} {p : Position} (hne : path ≠ "") (h : Leads t n (t.start path) p)
    (hcircle : Leads t (m + 1) p p) : t.FailsOtherwise path := by
  by_cases hpath : IsPath path
  · obtain ⟨k, hk, hround⟩ := hcircle.circle (maxLinks + 1)
    exact .manyLinks (n := n + k) hpath (by omega) (h.trans hround)
  · exact .noPath hne hpath

/-- One of three things becomes of a path. -/
theorem path_cases (t : FileTree) (hne : path ≠ "") :
    t.MeetsMissing path ∨ t.FailsOtherwise path ∨ ∃ place, t.ArrivesAt path place := by
  by_cases hpath : IsPath path
  · rcases ends_or_exhausted t maxLinks (t.start path) with ⟨n, q, answer, hn, hleads, hends⟩ | ⟨n, q, hn, hleads⟩
    · have hend : t.PathEnds path answer := ⟨hpath, n, q, hn, hleads, hends⟩
      cases hends with
      | arrived place => exact .inr (.inr ⟨place, hend⟩)
      | missing => exact .inl hend
      | longName => exact .inr (.inl (.longName hend))
      | noDirectory => exact .inr (.inl (.noDirectory hend))
    · exact .inr (.inl (.manyLinks hpath hn hleads))
  · exact .inr (.inl (.noPath hne hpath))

end Resolved

end TableScan.FileTree
