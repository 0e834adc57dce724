import SmallLisp.Console.Line
import SmallLisp.Text.Bytes
import SmallLisp.Text.Cluster

/-!
# Lines with backspaces

The line editor of the console that runs (`editLine?`). A backspace in a line
takes back the cluster that was typed before it. What is taken back is counted
in bytes, and the count of each cluster is kept in a single byte: of a cluster of
256 bytes or more, a backspace takes back the remainder only, and where that
would divide a character the line cannot be edited.
-/

namespace SmallLisp.Console

/-- A text without a number of bytes at its end, if that is not inside a character. The text is
given and returned with its last character first. -/
def dropBytes? : Nat → List Char → Option (List Char)
  | 0, cs => some cs
  | _ + 1, [] => none
  | n + 1, c :: cs => if c.utf8Size ≤ n + 1 then dropBytes? (n + 1 - c.utf8Size) cs else none

/-- Edits a line that goes on with some clusters after the text `written`, which is given with its
last character first. Of the clusters that can still be taken back there are the counts in `counts`,
the last one first; without any, a backspace does nothing. -/
def editFrom? (written : List Char) (counts : List Nat) : List (List Char) → Option (List Char)
  | [] => some written.reverse
  | cluster :: clusters =>
    if cluster = [backspace] then
      match counts with
      | [] => editFrom? written [] clusters
      | n :: counts =>
        (dropBytes? n written).bind fun written => editFrom? written counts clusters
    else editFrom? (cluster.reverse ++ written) (Text.utf8Length cluster % 256 :: counts) clusters

/-- The line that is left when its backspaces have been obeyed. Most lines have none. -/
def editLine? : LineEditor := fun line =>
  if backspace ∈ line then editFrom? [] [] (Text.clusters line) else some line

theorem keepsPlain_editLine? : editLine?.KeepsPlain := fun _ h => if_neg h

end SmallLisp.Console
