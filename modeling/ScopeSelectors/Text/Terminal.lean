import ScopeSelectors.Text.Escape
/-!
# Text meant for a terminal

Two things keep control characters that come from the command line away from
a terminal.

* A log message escapes the characters that can start or take part in a
  terminal control sequence (`escapeControls`): the escape, the bell,
  backspace, form feed and delete as `\xNN`, and the C1 controls
  `U+0080`–`U+009F` as `\u{N}`.  Other characters, tabs and line ends
  included, stay as they are.
* The messages about the command line itself are written through a stream
  that is not a terminal, which drops control sequences and control
  characters (`stripSequences`).  It reads the UTF-8 bytes of the text with
  the usual parser of terminal control sequences: a byte moves the parser to
  another state or leaves it where it is, and does something.  From the
  ordinary state, printable bytes, the first byte of a multi-byte character
  and the white-space controls (tab, line feed, form feed, carriage return)
  are written; everything else is not, so an escape sequence such as
  `ESC [ 3 1 m` or `ESC j` vanishes with the characters it consumes.  A
  white-space control met inside a sequence is written too and ends it.

A character is written whole or not at all: only the first byte of a
character is ever written on its own, and the bytes after it follow it.

Those messages are *styled* (`Styled`): the parts that name arguments and
values stand between *marks*, where a colour starts or ends.  A mark is a
complete control sequence of its own, so the stream drops it and is back in
ordinary text after it; an escape character in a value therefore consumes at
most the rest of the value, never the quote mark after it.
-/

namespace ScopeSelectors.Text

/-! ## Escaping in log messages -/

/-- Two lower-case hexadecimal digits of a number below `0x100`. -/
def twoHexDigits (n : Nat) : String :=
  let digit (d : Nat) : Char := if d < 10 then Char.ofNat (48 + d) else Char.ofNat (87 + d)
  String.ofList [digit (n / 16 % 16), digit (n % 16)]

/-- How a log message writes `c`. -/
def escapeControl (c : Char) : String :=
  let n := c.toNat
  if n = 0x1b ∨ n = 0x07 ∨ n = 0x08 ∨ n = 0x0c ∨ n = 0x7f then "\\x" ++ twoHexDigits n
  else if 0x80 ≤ n ∧ n ≤ 0x9f then unicodeEscape c
  else c.toString

/-- A log message with its control characters escaped. -/
def escapeControls (s : String) : String := String.join (s.toList.map escapeControl)

example : escapeControls "a\x1b[1m\tb\x0bc\x85" = "a\\x1b[1m\tb\x0bc\\u{85}" := by decide

/-! ## Dropping control sequences -/

/-- Where the parser of control sequences is. -/
inductive SequenceState where
  /-- Ordinary text. -/
  | ground
  /-- After `ESC`. -/
  | escape
  /-- In an escape sequence, after an intermediate byte. -/
  | escapeIntermediate
  /-- After `ESC [`. -/
  | csiEntry
  /-- In the parameters of a control sequence. -/
  | csiParam
  /-- In the intermediate bytes of a control sequence. -/
  | csiIntermediate
  /-- In a malformed control sequence, up to its final byte. -/
  | csiIgnore
  /-- After `ESC P`. -/
  | dcsEntry
  /-- In the parameters of a device control string. -/
  | dcsParam
  /-- In the intermediate bytes of a device control string. -/
  | dcsIntermediate
  /-- In the data of a device control string. -/
  | dcsPassthrough
  /-- In a malformed device control string. -/
  | dcsIgnore
  /-- In an operating system command, after `ESC ]`. -/
  | oscString
  /-- In a string after `ESC X`, `ESC ^` or `ESC _`. -/
  | sosPmApcString
  deriving DecidableEq, Repr

/-- What a byte does, as far as writing goes. -/
inductive ByteAction where
  /-- A control function. -/
  | execute
  /-- A printable byte. -/
  | print
  /-- The first byte of a multi-byte character. -/
  | beginChar
  /-- Anything else: part of a sequence, or ignored. -/
  | skip
  deriving DecidableEq, Repr

/-- Whether `b` is a C0 control that a sequence does not swallow: all of
`0x00`–`0x1F` but the cancel bytes `0x18`, `0x1A` and the escape. -/
def isPlainControl (b : Nat) : Bool :=
  b ≤ 0x17 || b = 0x19 || (0x1c ≤ b && b ≤ 0x1f)

/-- The state after `b` in state `s` (`none`: unchanged) and what `b` does.
The cancel bytes and the escape act the same in every state. -/
def sequenceStep (s : SequenceState) (b : Nat) : Option SequenceState × ByteAction :=
  if b = 0x18 || b = 0x1a then (some .ground, .execute)
  else if b = 0x1b then (some .escape, .skip)
  else
    match s with
    | .ground =>
      if isPlainControl b then (none, .execute)
      else if b ≤ 0x7f then (none, .print)
      else if (0x80 ≤ b && b ≤ 0x8f) || (0x91 ≤ b && b ≤ 0x9a) || b = 0x9c then (none, .execute)
      else if 0xc2 ≤ b && b ≤ 0xf4 then (none, .beginChar)
      else (none, .skip)
    | .escape =>
      if isPlainControl b then (none, .execute)
      else if 0x20 ≤ b && b ≤ 0x2f then (some .escapeIntermediate, .skip)
      else if b = 0x5b then (some .csiEntry, .skip)
      else if b = 0x5d then (some .oscString, .skip)
      else if b = 0x50 then (some .dcsEntry, .skip)
      else if b = 0x58 || b = 0x5e || b = 0x5f then (some .sosPmApcString, .skip)
      else if 0x30 ≤ b && b ≤ 0x7e then (some .ground, .skip)
      else (none, .skip)
    | .escapeIntermediate =>
      if isPlainControl b then (none, .execute)
      else if 0x30 ≤ b && b ≤ 0x7e then (some .ground, .skip)
      else (none, .skip)
    | .csiEntry =>
      if isPlainControl b then (none, .execute)
      else if 0x20 ≤ b && b ≤ 0x2f then (some .csiIntermediate, .skip)
      else if 0x30 ≤ b && b ≤ 0x3f then (some .csiParam, .skip)
      else if 0x40 ≤ b && b ≤ 0x7e then (some .ground, .skip)
      else (none, .skip)
    | .csiParam =>
      if isPlainControl b then (none, .execute)
      else if 0x3c ≤ b && b ≤ 0x3f then (some .csiIgnore, .skip)
      else if 0x20 ≤ b && b ≤ 0x2f then (some .csiIntermediate, .skip)
      else if 0x40 ≤ b && b ≤ 0x7e then (some .ground, .skip)
      else (none, .skip)
    | .csiIntermediate =>
      if isPlainControl b then (none, .execute)
      else if 0x30 ≤ b && b ≤ 0x3f then (some .csiIgnore, .skip)
      else if 0x40 ≤ b && b ≤ 0x7e then (some .ground, .skip)
      else (none, .skip)
    | .csiIgnore =>
      if isPlainControl b then (none, .execute)
      else if 0x40 ≤ b && b ≤ 0x7e then (some .ground, .skip)
      else (none, .skip)
    | .dcsEntry =>
      if 0x20 ≤ b && b ≤ 0x2f then (some .dcsIntermediate, .skip)
      else if 0x30 ≤ b && b ≤ 0x3f then (some .dcsParam, .skip)
      else if 0x40 ≤ b && b ≤ 0x7e then (some .dcsPassthrough, .skip)
      else (none, .skip)
    | .dcsParam =>
      if 0x3c ≤ b && b ≤ 0x3f then (some .dcsIgnore, .skip)
      else if 0x20 ≤ b && b ≤ 0x2f then (some .dcsIntermediate, .skip)
      else if 0x40 ≤ b && b ≤ 0x7e then (some .dcsPassthrough, .skip)
      else (none, .skip)
    | .dcsIntermediate =>
      if 0x30 ≤ b && b ≤ 0x3f then (some .dcsIgnore, .skip)
      else if 0x40 ≤ b && b ≤ 0x7e then (some .dcsPassthrough, .skip)
      else (none, .skip)
    | .dcsPassthrough | .dcsIgnore | .sosPmApcString =>
      if b = 0x9c then (some .ground, .skip) else (none, .skip)
    | .oscString =>
      if b = 0x07 then (some .ground, .skip) else (none, .skip)

/-- Whether a stream without a terminal writes a byte `b` that does `a`: a
printable byte but delete, the first byte of a character, or a white-space
control. -/
def isWritten (a : ByteAction) (b : Nat) : Bool :=
  (a = .print && b != 0x7f) || a = .beginChar ||
    (a = .execute && (b = 0x20 || b = 0x09 || b = 0x0a || b = 0x0c || b = 0x0d))

/-- The UTF-8 bytes of `c`. -/
def utf8Bytes (c : Char) : List Nat :=
  let n := c.toNat
  if n < 0x80 then [n]
  else if n < 0x800 then [0xc0 + n / 0x40, 0x80 + n % 0x40]
  else if n < 0x10000 then [0xe0 + n / 0x1000, 0x80 + n / 0x40 % 0x40, 0x80 + n % 0x40]
  else [0xf0 + n / 0x40000, 0x80 + n / 0x1000 % 0x40, 0x80 + n / 0x40 % 0x40, 0x80 + n % 0x40]

/-- Reads the character `c` in state `s`: `none` when it is written (the
parser is then back in ordinary text), or the state after its bytes. -/
def readChar (s : SequenceState) (c : Char) : Option SequenceState :=
  match utf8Bytes c with
  | [] => some s
  | b :: rest =>
    let (next, action) := sequenceStep s b
    if isWritten action b then none
    else some (rest.foldl (fun st x => ((sequenceStep st x).1).getD st) (next.getD s))

/-- The characters written of `cs`, read from state `s`, and the state
after them. -/
def stripFrom (s : SequenceState) : List Char → List Char × SequenceState
  | [] => ([], s)
  | c :: rest =>
    match readChar s c with
    | none =>
      let (out, last) := stripFrom .ground rest
      (c :: out, last)
    | some s' => stripFrom s' rest

/-- What a stream that is not a terminal writes of `text`. -/
def stripSequences (text : String) : String := String.ofList (stripFrom .ground text.toList).1

example : stripSequences "\x1bjson" = "son" := by decide
example : stripSequences "x\x1b[31mred\x1b[0m\x07\x7f\tz" = "xred\tz" := by decide
example : stripSequences "é\x1b" = "é" := by decide

/-! ## Styled text -/

/-- A piece of text meant for a terminal: plain text, or a mark where a style
starts or ends. -/
inductive Piece where
  /-- Plain text. -/
  | text (s : String)
  /-- A style boundary: a complete control sequence that sets colours. -/
  | mark
  deriving DecidableEq, Repr

/-- Text with style marks. -/
abbrev Styled := List Piece

/-- Plain text. -/
def plain (s : String) : Styled := [.text s]

/-- Text in a style of its own, between two marks. -/
def emphasized (s : String) : Styled := [.mark, .text s, .mark]

/-- What a stream that is not a terminal writes of styled text, read from
state `s`: each piece of text is read on from where the last one left the
parser, and a mark leaves it in ordinary text. -/
def stripPieces (s : SequenceState) : Styled → List Char
  | [] => []
  | .mark :: rest => stripPieces .ground rest
  | .text t :: rest =>
    let (out, next) := stripFrom s t.toList
    out ++ stripPieces next rest

/-- What a stream that is not a terminal writes of styled text. -/
def stripStyled (text : Styled) : String := String.ofList (stripPieces .ground text)

example : stripStyled (plain "'" ++ emphasized "\x1b" ++ plain "'") = "''" := by decide

end ScopeSelectors.Text
