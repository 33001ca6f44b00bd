import WebBindings.Text.Unicode
import WebBindings.Text.Units
/-!
# Quoted text

The form in which messages and log records show a text: between double quotes, with the quote, the
backslash and the common controls escaped, and other hidden characters written by number.
-/

namespace WebBindings.Quoted

/-- The lower-case hexadecimal digits of a number, without leading zeros. -/
def hexadecimal (n : Nat) : String := String.ofList (Nat.toDigits 16 n)

def encodeChar (c : Char) : String :=
  if c = '"' then "\\\""
  else if c = '\\' then "\\\\"
  else if c = '\n' then "\\n"
  else if c = '\r' then "\\r"
  else if c = '\t' then "\\t"
  else if c = '\x00' then "\\0"
  else if Unicode.isHidden c then "\\u\x7b" ++ hexadecimal c.toNat ++ "\x7d"
  else c.toString

def encode (text : String) : String :=
  "\"" ++ String.join (text.toList.map encodeChar) ++ "\""

end WebBindings.Quoted
