import Pitwall.Text.Words

/-!
# Weather names

Some weather is named with parameters behind the name, as in `3_clear_type=18_time=0`. The name
ends before the first word that holds the mark `type=`.
-/

namespace Pitwall.Weather

open Text

/-- The mark of the first parameter. -/
def parameterMark : List Char := ['t', 'y', 'p', 'e', '=']

/-- The words of a weather name without its parameters. -/
def nameChars (weather : List Char) : List Char :=
  join ['_']
    ((splitAt (· == '_') weather).takeWhile (fun word => !occursIn parameterMark word))

/-- A weather name without its parameters. -/
def name (weather : String) : String := String.ofList (nameChars weather.toList)

/-- The text with escaped spaces written as spaces. -/
def unescapeSpaces : List Char → List Char
  | '%' :: '2' :: '0' :: rest => ' ' :: unescapeSpaces rest
  | c :: rest => c :: unescapeSpaces rest
  | [] => []

/-- A readable weather name. -/
def title (weather : String) : String :=
  readableName (String.ofList (unescapeSpaces (nameChars weather.toList)))

end Pitwall.Weather
