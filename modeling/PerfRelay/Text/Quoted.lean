import PerfRelay.Text.Quoted.Table
import PerfRelay.Text.Ranges

/-!
# Quoted texts

Texts that come from outside are shown in messages between double quotes.  Quotes, backslashes and
the common controls have short escapes, and characters without a shape of their own are shown by
number, so a message stays on one line and can be told apart from its neighbours.
-/

namespace PerfRelay.Quoted

/-- Whether a character is shown by number. -/
def isShapeless (c : Char) : Bool :=
  inRanges shapelessRanges c.toNat

/-- A code point in small hexadecimal digits. -/
def hexDigits (n : Nat) : List Char :=
  Nat.toDigits 16 n

/-- How one character is shown. -/
def escape (c : Char) : List Char :=
  if c = '"' then ['\\', '"']
  else if c = '\\' then ['\\', '\\']
  else if c = '\n' then ['\\', 'n']
  else if c = '\r' then ['\\', 'r']
  else if c = '\t' then ['\\', 't']
  else if c.toNat = 0 then ['\\', '0']
  else if isShapeless c then ['\\', 'u', '\x7b'] ++ hexDigits c.toNat ++ ['\x7d']
  else [c]

/-- A text between double quotes. -/
def quote (text : String) : String :=
  String.ofList ('"' :: text.toList.flatMap escape ++ ['"'])

/-- A list of texts, quoted and in braces. -/
def quoteSet (texts : List String) : String :=
  "\x7b" ++ ", ".intercalate (texts.map quote) ++ "\x7d"

/-- Pairs of texts, quoted and in braces. -/
def quotePairs (pairs : List (String × String)) : String :=
  "\x7b" ++ ", ".intercalate (pairs.map fun (k, v) => quote k ++ ": " ++ quote v) ++ "\x7d"

example : quote "q\"\n" = "\"q\\\"\\n\"" := by decide +kernel

example : quote "n\u3164\uff9e" = "\"n\\u\x7b3164\x7d\uff9e\"" := by decide +kernel

example : quoteSet ["b", "a"] = "\x7b\"b\", \"a\"\x7d" := by decide +kernel

end PerfRelay.Quoted
