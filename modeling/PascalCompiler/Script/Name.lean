/-!
# Names in scripts

A source name is used in a script as it is, unless scripts reserve it; then a
dollar sign is put behind it. Source names have no dollar signs, so no two of
them become the same.

## Main definitions

* `Script.reserved`: the reserved words
* `Script.identifier`: the name that stands for a source name
-/

namespace PascalCompiler.Script

/-- The reserved words of ECMAScript 5, those reserved for the future and in
strict mode, and the literals `null`, `true` and `false`. -/
def reserved : List String :=
  ["arguments", "break", "case", "catch", "class", "const", "continue", "debugger", "default",
    "delete", "do", "else", "enum", "eval", "export", "extends", "false", "finally", "for",
    "function", "if", "implements", "import", "in", "instanceof", "interface", "let", "new",
    "null", "package", "private", "protected", "public", "return", "static", "super", "switch",
    "this", "throw", "true", "try", "typeof", "var", "void", "while", "with", "yield"]

/-- The name in a script that stands for a source name. -/
def identifier (name : String) : String :=
  if reserved.contains name then name ++ "$" else name

end PascalCompiler.Script
