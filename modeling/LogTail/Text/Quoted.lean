import LogTail.Text.Unprintable
import LogTail.Text.GraphemeExtend

/-!
# Quoted text

A text between double quotes, on one line and free of characters that cannot be
seen: the quote, the backslash, tab, line feed, carriage return and the null
character have short escapes; every other unprintable character, and every mark that
joins the character before it, is written by its number in braces. A single quote
stays as it is.
-/
namespace LogTail.Text

/-- Marks that join the character before them. The halfwidth sound marks have the
property too, but take a place of their own. -/
def isJoined (c : Char) : Bool := isGraphemeExtend c && c != '\uff9e' && c != '\uff9f'

/-- Lower case hexadecimal digits without padding. -/
def hexDigits (n : Nat) : List Char := Nat.toDigits 16 n

def quotedChar (c : Char) : List Char :=
  if c = '\x22' then ['\\', '\x22']
  else if c = '\\' then ['\\', '\\']
  else if c = '\n' then ['\\', 'n']
  else if c = '\r' then ['\\', 'r']
  else if c = '\t' then ['\\', 't']
  else if c = '\x00' then ['\\', '0']
  else if isUnprintable c || isJoined c then
    ['\\', 'u', '\x7b'] ++ hexDigits c.toNat ++ ['\x7d']
  else [c]

def quoted (s : String) : String :=
  String.ofList ('\x22' :: s.toList.flatMap quotedChar ++ ['\x22'])

end LogTail.Text
