/-
**The command that shows the grammar.**
-/

namespace Formula.Command

/-- An overview of the language, operators listed from the loosest to the tightest. -/
def overview : String :=
  "EXPRC EXPRESSION GRAMMAR

LITERALS
  42  3.14  1e-3          numbers (integers stay integers)
  \"text\"  'text'          strings, escapes: \\n \\t \\r \\\\ \\\" \\'

REFERENCES
  amount                  variable
  order.total             dotted variable
  round(x, 2)             function call
  math.max(a, b)          dotted function call

OPERATORS (loosest first, binary operators are left-associative)
  or
  and
  not                     prefix
  ==  !=  <  <=  >  >=
  |
  &
  +  -
  *  /  %
  -  +  ~                 prefix

GROUPING
  (a + b) * c             parentheses only change precedence

COMMENTS
  a + b  # anything after '#' up to the end of the line is ignored
"

end Formula.Command
