import Pitwall.Json.Numeral

/-!
# Tokens — the words and marks of a JSON text

A text is read character by character. Between tokens stand blanks and marks; a *word* is a
run of other characters and has to be a literal or a number; a string runs to its closing
quotation mark.

A token is kept even when it has no value, as a number that is too large for a double or a
string with half of a surrogate pair: such a token is well formed, and only whoever asks for
its value has to refuse it.
-/

namespace Pitwall.Json

/-- A token. -/
inductive Token where
  /-- The mark `[`. -/
  | openArr
  /-- The mark `]`. -/
  | closeArr
  | openObj
  | closeObj
  /-- The mark `,`. -/
  | comma
  /-- The mark `:`. -/
  | colon
  /-- The literal `null`. -/
  | null
  /-- The literals `true` and `false`. -/
  | bool (b : Bool)
  /-- A number; without a value when it is too large. -/
  | num (n : Option Number)
  /-- A string; without a value when a surrogate lacks its other half. -/
  | str (s : Option String)

namespace Token

/-! ## Strings -/

/-- A part of a string: a character, or a code unit given by number. -/
inductive Piece where
  | char (c : Char)
  /-- A sixteen-bit code unit. -/
  | unit (n : Nat)

/-- Whether a code unit begins a surrogate pair. -/
def isLead (n : Nat) : Bool := decide (0xD800 ≤ n ∧ n < 0xDC00)

/-- Whether a code unit ends a surrogate pair. -/
def isTrail (n : Nat) : Bool := decide (0xDC00 ≤ n ∧ n < 0xE000)

/-- The characters of a string from its pieces, last piece first; `done` are the characters
behind them. A code unit that ends a pair needs its beginning right before it. -/
def joinPieces (done : List Char) : List Piece → Option (List Char)
  | [] => some done
  | .char c :: pieces => joinPieces (c :: done) pieces
  | .unit n :: pieces =>
    if isLead n then none
    else if isTrail n then
      match pieces with
      | .unit m :: pieces =>
        if isLead m then
          joinPieces (Char.ofNat (0x10000 + (m - 0xD800) * 0x400 + (n - 0xDC00)) :: done) pieces
        else none
      | _ => none
    else joinPieces (Char.ofNat n :: done) pieces

/-- The character that a letter stands for behind a backslash. -/
def escaped? (c : Char) : Option Char :=
  if c = '"' ∨ c = '\\' ∨ c = '/' then some c
  else if c = 'b' then some '\x08'
  else if c = 'f' then some '\x0c'
  else if c = 'n' then some '\n'
  else if c = 'r' then some '\r'
  else if c = 't' then some '\t'
  else none

/-- The value of a hexadecimal digit. -/
def hexDigit? (c : Char) : Option Nat :=
  if '0' ≤ c ∧ c ≤ '9' then some (c.toNat - '0'.toNat)
  else if 'a' ≤ c ∧ c ≤ 'f' then some (c.toNat - 'a'.toNat + 10)
  else if 'A' ≤ c ∧ c ≤ 'F' then some (c.toNat - 'A'.toNat + 10)
  else none

/-! ## Words and marks -/

/-- The token that a word stands for. -/
def ofWord? (word : List Char) : Option Token :=
  if word = ['n', 'u', 'l', 'l'] then some .null
  else if word = ['t', 'r', 'u', 'e'] then some (.bool true)
  else if word = ['f', 'a', 'l', 's', 'e'] then some (.bool false)
  else (Numeral.read? word).map (fun n => .num n.number?)

def ofMark? (c : Char) : Option Token :=
  if c = '[' then some .openArr
  else if c = ']' then some .closeArr
  else if c = '\x7b' then some .openObj
  else if c = '\x7d' then some .closeObj
  else if c = ',' then some .comma
  else if c = ':' then some .colon
  else none

/-- The blanks that may stand between tokens. -/
def isBlank (c : Char) : Bool := c == ' ' || c == '\t' || c == '\n' || c == '\r'

/-! ## Scanning -/

/-- Where in the text the scan stands; what has been read of a token is kept last first. -/
inductive Place where
  | between
  | word (read : List Char)
  | string (read : List Piece)
  /-- Behind a backslash in a string. -/
  | escape (read : List Piece)
  /-- In a code unit that still lacks some of its digits. -/
  | unit (read : List Piece) (missing : Nat) (value : Nat)

/-- A scan under way. -/
structure Scan where
  /-- Where the scan stands. -/
  place : Place
  /-- The tokens that are complete, last first. -/
  tokens : List Token

/-- Reads a character between two tokens. -/
def Scan.between (tokens : List Token) (c : Char) : Scan :=
  if isBlank c then ⟨.between, tokens⟩
  else if c = '"' then ⟨.string [], tokens⟩
  else
    match ofMark? c with
    | some t => ⟨.between, t :: tokens⟩
    | none => ⟨.word [c], tokens⟩

/-- Whether a character ends a word. -/
def endsWord (c : Char) : Bool := isBlank c || c == '"' || (ofMark? c).isSome

def Scan.step (s : Scan) (c : Char) : Option Scan :=
  match s.place with
  | .between => some (.between s.tokens c)
  | .word read =>
    if endsWord c then (ofWord? read.reverse).map (fun t => .between (t :: s.tokens) c)
    else some ⟨.word (c :: read), s.tokens⟩
  | .string read =>
    if c = '"' then
      some ⟨.between, .str ((joinPieces [] read).map String.ofList) :: s.tokens⟩
    else if c = '\\' then some ⟨.escape read, s.tokens⟩
    else if c < ' ' then none
    else some ⟨.string (.char c :: read), s.tokens⟩
  | .escape read =>
    if c = 'u' then some ⟨.unit read 4 0, s.tokens⟩
    else (escaped? c).map (fun e => ⟨.string (.char e :: read), s.tokens⟩)
  | .unit read missing value =>
    (hexDigit? c).map (fun digit =>
      let value := 16 * value + digit
      if missing ≤ 1 then ⟨.string (.unit value :: read), s.tokens⟩
      else ⟨.unit read (missing - 1) value, s.tokens⟩)

/-- Ends a scan: a last word may stand at the end of the text, a string has to be closed. -/
def Scan.finish (s : Scan) : Option (List Token) :=
  match s.place with
  | .between => some s.tokens.reverse
  | .word read => (ofWord? read.reverse).map (fun t => (t :: s.tokens).reverse)
  | _ => none

def scan? (cs : List Char) : Option (List Token) :=
  cs.foldlM Scan.step ⟨.between, []⟩ >>= Scan.finish

end Token

end Pitwall.Json
