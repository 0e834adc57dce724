/-!
# Lengths in bytes

Texts are measured in bytes of UTF-8 where they leave the language: in the
offsets of errors, in the paths of files and in the lines of the console.
-/

namespace SmallLisp.Text

/-- The bytes that a text takes in UTF-8. -/
def utf8Length : List Char → Nat
  | [] => 0
  | c :: cs => c.utf8Size + utf8Length cs

end SmallLisp.Text
