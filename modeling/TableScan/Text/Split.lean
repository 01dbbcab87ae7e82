/-
  TableScan.Text.Split — the pieces of a text between the places where a separator stands.
  Places are found from the left and do not overlap.
-/

namespace TableScan.Text

/-- `skip` characters still belong to a separator that has been found; `piece` is the piece so far,
latest character first. -/
def splitAfter (separator : List Char) (skip : Nat) (piece : List Char) : List Char → List (List Char)
  | [] => [piece.reverse]
  | c :: rest =>
    match skip with
    | skip + 1 => splitAfter separator skip piece rest
    | 0 =>
      if separator.isPrefixOf (c :: rest) then
        piece.reverse :: splitAfter separator (separator.length - 1) [] rest
      else splitAfter separator 0 (c :: piece) rest

/-- The pieces of `cs` between separators, which must not be empty: one more than there are of those. -/
def splitChars (separator cs : List Char) : List (List Char) := splitAfter separator 0 [] cs

end TableScan.Text
