/-!
Line ends of every kind as newlines.
-/

namespace Awk.Text

def newlinesOf : List Char → List Char
  | [] => []
  | '\r' :: '\n' :: rest => '\n' :: newlinesOf rest
  | c :: rest => (if c = '\r' then '\n' else c) :: newlinesOf rest

def withNewlines (s : String) : String := String.ofList (newlinesOf s.toList)

end Awk.Text
