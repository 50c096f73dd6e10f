/-!
# Quoted text

Text between double quotes, in which a quote, a backslash and control characters are escaped. The
frequent controls have a letter of their own and the others are written by number in base sixteen.
Only ASCII text is quoted in diagnostics, so characters beyond it stand for themselves.
-/

namespace ScopeMachine.Text

/-- Number in base sixteen with small letters and no leading zeros. -/
def hexadecimal (n : Nat) : String := String.ofList (Nat.toDigits 16 n)

/-- Written form of one character inside quotes. -/
def escape (c : Char) : String :=
  if c = '"' then "\\\""
  else if c = '\\' then "\\\\"
  else if c = '\n' then "\\n"
  else if c = '\r' then "\\r"
  else if c = '\t' then "\\t"
  else if c = '\x00' then "\\0"
  else if c.toNat < 32 ∨ c.toNat = 127 then "\\u\x7b" ++ hexadecimal c.toNat ++ "\x7d"
  else c.toString

/-- Text between double quotes. -/
def quoted (text : String) : String :=
  "\"" ++ String.join (text.toList.map escape) ++ "\""

end ScopeMachine.Text
