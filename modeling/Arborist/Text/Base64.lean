import Arborist.Text.Bytes

/-!
# Bytes written in base 64

Four characters of the alphabet stand for three bytes. Reading passes over characters that are not
of the alphabet. A last group of two or three characters is filled up to four with equals signs;
what follows such a group is not read. Without them a group that is not full is refused.
-/

namespace Arborist.Text

/-- The value of a character of the alphabet. -/
def sextet? (c : Char) : Option Nat :=
  if 'A' ≤ c && c ≤ 'Z' then some (c.toNat - 'A'.toNat)
  else if 'a' ≤ c && c ≤ 'z' then some (c.toNat - 'a'.toNat + 26)
  else if '0' ≤ c && c ≤ '9' then some (c.toNat - '0'.toNat + 52)
  else if c == '+' then some 62
  else if c == '/' then some 63
  else none

/-- The bytes that are complete in a group of sextets. -/
def groupBytes : List Nat → Bytes
  | a :: b :: rest =>
    UInt8.ofNat (a * 4 + b / 16) :: match rest with
      | [] => []
      | c :: rest =>
        UInt8.ofNat (b % 16 * 16 + c / 4) :: match rest with
          | [] => []
          | d :: _ => [UInt8.ofNat (c % 4 * 64 + d)]
  | _ => []

/-- The bytes from a place on. A group has been begun, and `pads` equals signs have come after
it. -/
def decodeBase64From (group : List Nat) (pads : Nat) : List Char → Option Bytes
  | [] => if group.isEmpty then some [] else none
  | c :: rest =>
    if c == '=' then
      if group.length < 2 then decodeBase64From group pads rest
      else if group.length + pads + 1 ≥ 4 then some (groupBytes group)
      else decodeBase64From group (pads + 1) rest
    else match sextet? c with
      | none => decodeBase64From group pads rest
      | some sextet =>
        if group.length == 3 then
          (decodeBase64From [] 0 rest).map (groupBytes (group ++ [sextet]) ++ ·)
        else decodeBase64From (group ++ [sextet]) 0 rest

/-- The bytes that a text in base 64 stands for. -/
def decodeBase64? (cs : List Char) : Option Bytes := decodeBase64From [] 0 cs

end Arborist.Text
