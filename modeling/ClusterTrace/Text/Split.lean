/-!
# Cutting text

Cutting a list at every separator, at the first one, into lines, and at the first occurrence of a
longer marker.
-/

namespace ClusterTrace.Text

variable {α : Type} [DecidableEq α]

/-- Cuts the rest of a list at every separator. The piece under way and the finished pieces are kept
in reverse. -/
def piecesFrom (sep : α) (done : List (List α)) (current : List α) : List α → List (List α)
  | [] => (current.reverse :: done).reverse
  | x :: xs =>
    if x = sep then piecesFrom sep (current.reverse :: done) [] xs
    else piecesFrom sep done (x :: current) xs

/-- The pieces of a list between the separators: one more than there are separators. -/
def pieces (sep : α) (xs : List α) : List (List α) := piecesFrom sep [] [] xs

/-- The pieces of a list, each ended by a separator; what follows the last separator counts unless
it is empty. -/
def terminated (sep : α) (xs : List α) : List (List α) :=
  let all := pieces sep xs
  if all.getLast? = some [] then all.dropLast else all

/-- What stands before and after the first separator. -/
def splitFirst? (sep : α) : List α → Option (List α × List α)
  | [] => none
  | x :: xs =>
    if x = sep then some ([], xs)
    else (splitFirst? sep xs).map fun (before, after) => (x :: before, after)

/-- What follows a marker at the start of a list. -/
def dropMarker? : List α → List α → Option (List α)
  | [], xs => some xs
  | _ :: _, [] => none
  | m :: marker, x :: xs => if x = m then dropMarker? marker xs else none

/-- What stands before and after the first occurrence of a marker. -/
def splitMarker? (marker : List α) : List α → Option (List α × List α)
  | [] => (dropMarker? marker []).map fun after => ([], after)
  | x :: xs =>
    match dropMarker? marker (x :: xs) with
    | some after => some ([], after)
    | none => (splitMarker? marker xs).map fun (before, after) => (x :: before, after)

def hasMarker (marker : List α) (xs : List α) : Bool := (splitMarker? marker xs).isSome

/-- A line without the carriage return that a line end may leave on it. -/
def dropReturn (line : List Char) : List Char :=
  if line.getLast? = some '\r' then line.dropLast else line

/-- The lines of a text. A line ends at a line feed, and a carriage return before it belongs to the
line end. -/
def lines (s : List Char) : List (List Char) :=
  let all := pieces '\n' s
  let ended := all.dropLast.map dropReturn
  match all.getLast? with
  | none | some [] => ended
  | some last => ended ++ [last]

end ClusterTrace.Text
