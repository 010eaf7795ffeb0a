/-!
The sets of blank characters the language distinguishes.

Three sets are in use: the white space of every script, the six blanks that may
stand before a number, and the three blanks that separate fields by default.
Line ends are a fourth set of their own.
-/

namespace Awk.Text

/-- White space of every script, together with the four information
separators. -/
def isSpace (c : Char) : Bool :=
  let n := c.toNat
  (0x09 ≤ n && n ≤ 0x0d) || (0x1c ≤ n && n ≤ 0x20) || n == 0x85 || n == 0xa0 ||
    n == 0x1680
    || (0x2000 ≤ n && n ≤ 0x200a) || n == 0x2028 || n == 0x2029 ||
      n == 0x202f || n == 0x205f
    || n == 0x3000

def isNumberBlank (c : Char) : Bool :=
  c == ' ' || (0x09 ≤ c.toNat && c.toNat ≤ 0x0d)

def isFieldBlank (c : Char) : Bool := c == ' ' || c == '\t' || c == '\n'

/-- Characters that end a line of source text.  A return followed by a newline
is one end. -/
def isLineEnd (c : Char) : Bool :=
  let n := c.toNat
  (0x0a ≤ n && n ≤ 0x0d) || (0x1c ≤ n && n ≤ 0x1e) || n == 0x85 ||
    n == 0x2028 || n == 0x2029

def strip (p : Char → Bool) (cs : List Char) : List Char :=
  ((cs.dropWhile p).reverse.dropWhile p).reverse

end Awk.Text
