import Arborist.Text.Bytes
import Arborist.Text.Printable

/-!
# Quoted text

How messages show a text: between quotes, on one line, with every character either printable or
named by its code point. Single quotes are used, unless the text has a single quote and no double
quote. Bytes are shown alike, with a `b` before the quote and every byte outside ASCII named.
-/

namespace Arborist.Text

/-- The hexadecimal digits of a number, in lower case, padded with zeros to a width. -/
def hexPadded (width : Nat) (n : Nat) : List Char :=
  let digits := Nat.toDigits 16 n
  List.replicate (width - digits.length) '0' ++ digits

/-- One character inside quotes: the quote and the backslash get a backslash, the three common
controls have a letter, other unprintable characters are written by code point. -/
def quotedChar (quote : Char) (c : Char) : List Char :=
  if c == quote || c == '\\' then ['\\', c]
  else if c == '\n' then ['\\', 'n']
  else if c == '\r' then ['\\', 'r']
  else if c == '\t' then ['\\', 't']
  else if isPrintable c then [c]
  else if c.toNat < 0x100 then '\\' :: 'x' :: hexPadded 2 c.toNat
  else if c.toNat < 0x10000 then '\\' :: 'u' :: hexPadded 4 c.toNat
  else '\\' :: 'U' :: hexPadded 8 c.toNat

/-- The quote that a text is shown with. -/
def quoteFor (cs : List Char) : Char :=
  if cs.contains '\'' && !cs.contains '"' then '"' else '\''

/-- A text between quotes. -/
def quoted (text : String) : String :=
  let quote := quoteFor text.toList
  String.ofList (quote :: text.toList.flatMap (quotedChar quote) ++ [quote])

/-- Bytes between quotes. -/
def quotedBytes (bytes : Bytes) : String :=
  let cs := bytes.map fun byte => Char.ofNat byte.toNat
  let quote := quoteFor cs
  let shown (c : Char) : List Char :=
    if c.toNat < 128 then quotedChar quote c else '\\' :: 'x' :: hexPadded 2 c.toNat
  String.ofList ('b' :: quote :: cs.flatMap shown ++ [quote])

end Arborist.Text
