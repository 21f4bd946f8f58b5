/-!
Writing TOML strings.  The plainest form that can hold a text is chosen:
double quotes, single quotes, or three of either; only a text that none of
these can hold as it stands is written with escapes.
-/

namespace BuildWatch.Toml

/-! ### What a text holds -/

/-- The control characters that only an escape can stand for. -/
def needsEscape (char : Char) : Bool :=
  (char < ' ' && char != '\t' && char != '\n') || char == '\x7f'

/-- The greatest number of copies of a character that follow one another, if
`run` of them stand right before. -/
def longestRun (char : Char) (run : Nat) : List Char → Nat
  | [] => run
  | first :: rest =>
      if first = char then longestRun char (run + 1) rest
      else max run (longestRun char 0 rest)

/-! ### Escapes -/

def upperHexDigit (value : Nat) : Char :=
  if value < 10 then Char.ofNat ('0'.toNat + value) else Char.ofNat ('A'.toNat + (value - 10))

def escapeControl (char : Char) : List Char :=
  if char = '\x08' then ['\\', 'b']
  else if char = '\t' then ['\\', 't']
  else if char = '\n' then ['\\', 'n']
  else if char = '\x0c' then ['\\', 'f']
  else if char = '\r' then ['\\', 'r']
  else ['\\', 'u', '0', '0', upperHexDigit (char.toNat / 16), upperHexDigit (char.toNat % 16)]

/-- The characters between double quotes.  So many double quotes in a row may
stand for themselves, and line breaks do so if `onLines` is true; `run` double
quotes stand right before. -/
def escapeBasic (quotes : Nat) (onLines : Bool) (run : Nat) : List Char → List Char
  | [] => []
  | char :: rest =>
      if char = '"' then
        if run < quotes then char :: escapeBasic quotes onLines (run + 1) rest
        else '\\' :: char :: escapeBasic quotes onLines 0 rest
      else if char = '\\' then '\\' :: '\\' :: escapeBasic quotes onLines 0 rest
      else if char = '\n' && onLines then char :: escapeBasic quotes onLines 0 rest
      else if char < ' ' || char = '\x7f' then
        escapeControl char ++ escapeBasic quotes onLines 0 rest
      else char :: escapeBasic quotes onLines 0 rest

/-! ### Strings -/

def leadingBreak (text : List Char) : List Char :=
  if text.contains '\n' then ['\n'] else []

def basicString (text : List Char) : List Char :=
  '"' :: (escapeBasic 0 false 0 text ++ ['"'])

def literalString (text : List Char) : List Char :=
  '\'' :: (text ++ ['\''])

def basicLines (text : List Char) : List Char :=
  ['"', '"', '"'] ++ leadingBreak text ++ escapeBasic 2 true 0 text ++ ['"', '"', '"']

def literalLines (text : List Char) : List Char :=
  ['\'', '\'', '\''] ++ leadingBreak text ++ text ++ ['\'', '\'', '\'']

def renderString (text : List Char) : List Char :=
  let controls := text.any needsEscape
  let backslashes := text.contains '\\'
  let breaks := text.contains '\n'
  let doubles := longestRun '"' 0 text
  let singles := longestRun '\'' 0 text
  if !controls && !backslashes && doubles == 0 && !breaks then basicString text
  else if !controls && singles == 0 && !breaks then literalString text
  else if !controls && !backslashes && doubles ≤ 2 then basicLines text
  else if !controls && singles ≤ 2 then literalLines text
  else if breaks then basicLines text
  else basicString text

end BuildWatch.Toml
