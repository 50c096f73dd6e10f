/-!
# Diagnostic notation

Diagnostic texts have one shape throughout: a label applied to one thing in parentheses, a record of
named parts in braces, a list in brackets, and a marked presence or absence.
-/

namespace ScopeMachine.Text

/-- Label applied to a part: `Label(part)`. -/
def applied (label part : String) : String := label ++ "(" ++ part ++ ")"

/-- Parts in brackets, divided by commas. -/
def bracketed (parts : List String) : String := "[" ++ String.intercalate ", " parts ++ "]"

/-- Named part: the name, a colon and the text. -/
def part (entry : String × String) : String := entry.1 ++ ": " ++ entry.2

/-- Record with all its parts. -/
def record (label : String) (parts : List (String × String)) : String :=
  label ++ " \x7b " ++ String.intercalate ", " (parts.map part) ++ " \x7d"

/-- Record that shows only some of its parts and says so by two dots. -/
def openRecord (label : String) (parts : List (String × String)) : String :=
  label ++ " \x7b " ++ String.intercalate ", " (parts.map part ++ [".."]) ++ " \x7d"

/-- Presence or absence of a part. -/
def optional : Option String → String
  | none => "None"
  | some text => applied "Some" text

/-- Truth value in words. -/
def truth : Bool → String
  | true => "true"
  | false => "false"

end ScopeMachine.Text
