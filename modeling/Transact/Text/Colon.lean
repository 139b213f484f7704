import Transact.Text.Word

/-! Colons of statement text. A colon starts a parameter; a backslash before it makes it plain. -/
namespace Transact.Text

def isNameChar (c : Char) : Bool := isWord c || c == '$'

/-- The name that starts here ends before a colon. A dollar sign in it ends it earlier. -/
def isBoundName (cs : List Char) : Bool :=
  (cs.dropWhile isNameChar).head? == some ':' && !(cs.takeWhile isNameChar).contains '$'

/-- Drops the backslash of `\:name`, unless another colon follows the name. -/
def resolveColons : List Char → List Char
  | '\\' :: ':' :: rest =>
    if isBoundName rest then '\\' :: ':' :: resolveColons rest else ':' :: resolveColons rest
  | c :: rest => c :: resolveColons rest
  | [] => []

end Transact.Text
