/-!
# JSON documents

The program's JSON output is built as a `JsonValue` and written in the
indented layout: every array element and object member on a line of its own,
indented by two spaces a level, members as `"key": value`, and an empty array
or object as `[]` or `{}`.  Members keep the order they are given in.

In a string, `"` and `\` are escaped with a backslash, backspace, form feed,
line feed, carriage return and tab as `\b`, `\f`, `\n`, `\r` and `\t`, and the
other controls below `U+0020` as `\u00hh` in lower-case hexadecimal; every
other character stands for itself.
-/

namespace ScopeSelectors

/-- A JSON value whose numbers are natural numbers. -/
inductive JsonValue where
  /-- `null`. -/
  | null
  /-- `true` or `false`. -/
  | bool (b : Bool)
  /-- A natural number. -/
  | num (n : Nat)
  /-- A string. -/
  | str (s : String)
  /-- An array. -/
  | arr (items : List JsonValue)
  /-- An object, its members in order. -/
  | obj (members : List (String × JsonValue))

namespace JsonValue

/-- Two hexadecimal digits of a byte below `0x100`, lower case. -/
def hexByte (n : Nat) : String :=
  let digit (d : Nat) : Char := if d < 10 then Char.ofNat (48 + d) else Char.ofNat (87 + d)
  String.ofList [digit (n / 16), digit (n % 16)]

/-- How a character is written inside a JSON string. -/
def escapeChar (c : Char) : String :=
  if c = '"' then "\\\""
  else if c = '\\' then "\\\\"
  else if c = '\x08' then "\\b"
  else if c = '\x0c' then "\\f"
  else if c = '\n' then "\\n"
  else if c = '\r' then "\\r"
  else if c = '\t' then "\\t"
  else if c.toNat < 0x20 then "\\u00" ++ hexByte c.toNat
  else c.toString

/-- A string as a JSON string literal. -/
def quote (s : String) : String :=
  "\"" ++ String.join (s.toList.map escapeChar) ++ "\""

/-- Two spaces for each level of indentation. -/
def indentation (level : Nat) : String := String.ofList (List.replicate (2 * level) ' ')

/-- The value written in the indented layout, its inner lines at `level + 1`. -/
def pretty (level : Nat) : JsonValue → String
  | .null => "null"
  | .bool b => if b then "true" else "false"
  | .num n => toString n
  | .str s => quote s
  | .arr [] => "[]"
  | .arr items =>
    "[\n" ++ ",\n".intercalate (items.attach.map fun ⟨v, _⟩ =>
      indentation (level + 1) ++ pretty (level + 1) v) ++ "\n" ++ indentation level ++ "]"
  | .obj [] => "\x7b\x7d"
  | .obj members =>
    "\x7b\n" ++ ",\n".intercalate (members.attach.map fun ⟨(k, v), _⟩ =>
      indentation (level + 1) ++ quote k ++ ": " ++ pretty (level + 1) v) ++ "\n" ++
      indentation level ++ "\x7d"
termination_by v => sizeOf v
decreasing_by
  all_goals simp_wf
  · have := List.sizeOf_lt_of_mem ‹_›
    omega
  · have := List.sizeOf_lt_of_mem ‹_›
    simp at this
    omega

/-- The value as a document, at the outermost level. -/
def render (v : JsonValue) : String := pretty 0 v

end JsonValue

end ScopeSelectors
