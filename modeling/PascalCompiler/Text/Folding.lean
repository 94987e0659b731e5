/-!
# Case folding onto ASCII words

Two names are the same up to case when their simple case foldings agree. For a
name made of lower-case ASCII letters this needs no table: besides the letters
themselves in either case, only the long s and the Kelvin sign fold to an ASCII
letter.
-/

namespace PascalCompiler.Folding

/-- The lower-case ASCII letter that a character folds to, or the character
itself when there is none. -/
def fold (c : Char) : Char :=
  if c = '\u017F' then 's' else if c = '\u212A' then 'k' else c.toLower

/-- Does a name fold to the word, which is in lower-case ASCII letters? -/
def foldsTo (name word : String) : Bool :=
  name.toList.map fold = word.toList

end PascalCompiler.Folding
