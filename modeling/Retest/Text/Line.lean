namespace Retest

/-- Cuts a list after every element that equals the mark. The mark stays at the end of its piece,
and a last piece without it is kept if it is not empty. -/
def splitAfter {α : Type} [DecidableEq α] (mark : α) : List α → List (List α)
  | [] => []
  | a :: rest =>
    if a = mark then [a] :: splitAfter mark rest
    else
      match splitAfter mark rest with
      | [] => [[a]]
      | piece :: more => (a :: piece) :: more

/-- Cuts a list at every element that equals the mark, which belongs to no piece. There is always
one piece more than there are marks. -/
def splitOn {α : Type} [DecidableEq α] (mark : α) : List α → List (List α)
  | [] => [[]]
  | a :: rest =>
    if a = mark then [] :: splitOn mark rest
    else
      match splitOn mark rest with
      | [] => [[a]]
      | piece :: more => (a :: piece) :: more

def cutAt? (mark : List Char) : List Char → Option (List Char × List Char)
  | [] => none
  | c :: rest =>
    if mark.isPrefixOf (c :: rest) then some ([], (c :: rest).drop mark.length)
    else (cutAt? mark rest).map fun r => (c :: r.1, r.2)

/-- A line without its end: one line feed, and one carriage return before it. A carriage return
that no line feed follows belongs to the line. -/
def chompLine (line : List Char) : List Char :=
  match line.reverse with
  | '\n' :: '\r' :: front => front.reverse
  | '\n' :: front => front.reverse
  | _ => line

def textLines (s : List Char) : List (List Char) := (splitAfter '\n' s).map chompLine

end Retest
