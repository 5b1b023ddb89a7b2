import Pitwall.Link.Fault
import Pitwall.Text.Blank

/-!
# Addresses of race control

Messages come over a web socket. The address of the server's web page does as well: its scheme
is exchanged for the one of the socket. Behind the scheme a host has to follow.
-/

namespace Pitwall.Address

open Text

/-- The rest of a text behind a given beginning. -/
def after? : List Char → List Char → Option (List Char)
  | [], cs => some cs
  | _ :: _, [] => none
  | b :: bs, c :: cs => if b = c then after? bs cs else none

/-- The scheme of a web socket. -/
def plain : List Char := ['w', 's', ':', '/', '/']

/-- The scheme of a secure web socket. -/
def secure : List Char := ['w', 's', 's', ':', '/', '/']

/-- The scheme of a web page. -/
def plainPage : List Char := ['h', 't', 't', 'p', ':', '/', '/']

/-- The scheme of a secure web page. -/
def securePage : List Char := ['h', 't', 't', 'p', 's', ':', '/', '/']

/-- The address with the scheme of a web page exchanged. -/
def exchangeScheme (cs : List Char) : List Char :=
  match after? plainPage cs with
  | some rest => plain ++ rest
  | none =>
    match after? securePage cs with
    | some rest => secure ++ rest
    | none => cs

/-- What stands behind the scheme of a web socket. -/
def host? (cs : List Char) : Option (List Char) := (after? plain cs).or (after? secure cs)

/-- Whether a host follows: something that does not begin with a slash. -/
def isHost : List Char → Bool
  | [] => false
  | c :: _ => c != '/'

/-- The address of the web socket that an address stands for. White space around it does not
count. -/
def normalise (address : String) : Except Fault String :=
  let trimmed := trim address.toList
  let socket := exchangeScheme trimmed
  if (host? socket).any isHost then .ok (String.ofList socket)
  else .error (.invalidAddress (String.ofList trimmed))

end Pitwall.Address
