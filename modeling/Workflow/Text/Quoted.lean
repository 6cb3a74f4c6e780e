import Workflow.Json.Value
import Workflow.Text.Printable

/-!
# Quoted and displayed values

Messages show a value in one of two forms.

**Displayed** (`Value.display`). A text as it is; null, true and false as `None`, `True` and
`False`; numbers in decimal; a list or an object with its members quoted.

**Quoted** (`Value.quoted`). The same, with texts between quotes. The quote is single, or double
where the text has a single quote and no double one. Inside, a backslash, the quote and what
is not printable are escaped.
-/

namespace Workflow.Text

/-- Lower-case hexadecimal digits, at least `width` of them. -/
def hex (width n : Nat) : List Char :=
  let digits := Nat.toDigits 16 n
  List.replicate (width - digits.length) '0' ++ digits

/-- The quote that a text is put in. -/
def quoteFor (cs : List Char) : Char :=
  if cs.contains '\'' && !cs.contains '"' then '"' else '\''

/-- How a character stands between quotes. -/
def escaped (quote : Char) (c : Char) : List Char :=
  if c = quote || c = '\\' then ['\\', c]
  else if c = '\n' then ['\\', 'n']
  else if c = '\r' then ['\\', 'r']
  else if c = '\t' then ['\\', 't']
  else if isPrintable c then [c]
  else if c.toNat < 0x100 then '\\' :: 'x' :: hex 2 c.toNat
  else if c.toNat < 0x10000 then '\\' :: 'u' :: hex 4 c.toNat
  else '\\' :: 'U' :: hex 8 c.toNat

/-- A text between quotes. -/
def quoted (s : String) : String :=
  let quote := quoteFor s.toList
  String.ofList (quote :: (s.toList.flatMap (escaped quote) ++ [quote]))

end Workflow.Text

namespace Workflow

/-- How numbers stand in messages. -/
def NumberForm.spoken : NumberForm :=
  { NumberForm.plain with infinity := "inf", notANumber := "nan" }

mutual

/-- A value with its texts between quotes. -/
def Value.quoted : Value → String
  | .null => "None"
  | .bool b => if b then "True" else "False"
  | .int i => toString i
  | .float x => NumberForm.spoken.text x
  | .text s => Text.quoted s
  | .list items => "[" ++ String.intercalate ", " (Value.quotedItems items) ++ "]"
  | .object members =>
    "\x7b" ++ String.intercalate ", " (Value.quotedMembers members) ++ "\x7d"

def Value.quotedItems : List Value → List String
  | [] => []
  | v :: rest => Value.quoted v :: Value.quotedItems rest

def Value.quotedMembers : List (String × Value) → List String
  | [] => []
  | (name, v) :: rest =>
    (Text.quoted name ++ ": " ++ Value.quoted v) :: Value.quotedMembers rest

end

/-- A value as it stands in a message. -/
def Value.display : Value → String
  | .text s => s
  | v => v.quoted

end Workflow
