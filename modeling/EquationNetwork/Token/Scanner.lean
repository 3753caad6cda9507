import EquationNetwork.Token.Automaton

/-!
# Scanning

A text is cut into tokens by running the automaton over its characters. Whenever no edge accepts the
next character, the token read so far ends before it and the automaton starts again on that same
character; a character that `start` does not accept either is an error.

* `Cursor` is the token being read, `Cursor.feed` takes one more character.
* `scanFrom` is the run over the characters, `scan` its start on a text.
* `tokenize` is the list of tokens of a text that has no illegal character.
-/

namespace EquationNetwork

/-- What can go wrong in scanning. -/
inductive ScanError where
  /-- No token starts with or goes on with the character at this position, counted from 1. -/
  | unexpectedCharacter (character : Char) (position : Nat)
deriving DecidableEq, Repr

def ScanError.message : ScanError → String
  | unexpectedCharacter c position => s!"unexpected character '{c}' at position {position}"

namespace Scanner

/-- A token being read: the state reached, the characters taken and the number of characters of the
text that are behind. -/
structure Cursor where
  state : State
  lexeme : String
  position : Nat

namespace Cursor

/-- No token is being read, `position` characters into the text. -/
def atRest (position : Nat) : Cursor := ⟨.start, "", position⟩

/-- Takes one more character, if an edge accepts it. A blank is taken and leaves nothing. -/
def feed (cursor : Cursor) (c : Char) : Option Cursor :=
  (cursor.state.next c).map fun state =>
    ⟨state, if state = .start then "" else cursor.lexeme.push c, cursor.position + 1⟩

/-- The token that ends where the cursor stands, if one is being read. -/
def token? (cursor : Cursor) : Option Token :=
  cursor.state.kind?.map fun kind =>
    ⟨kind, cursor.lexeme, ⟨cursor.position + 1 - cursor.lexeme.length, cursor.position⟩⟩

end Cursor

/-- What scanning found: the tokens, and the error that ended it early. -/
structure Scan where
  tokens : List Token
  error? : Option ScanError
deriving DecidableEq

/-- A scan with a token before it. -/
def Scan.before (scan : Scan) (token? : Option Token) : Scan :=
  { scan with tokens := token?.toList ++ scan.tokens }

/-- Scans the characters that follow a cursor. -/
def scanFrom (cursor : Cursor) : List Char → Scan
  | [] => ⟨cursor.token?.toList, none⟩
  | c :: cs =>
      match cursor.feed c with
      | some longer => scanFrom longer cs
      | none =>
          match (Cursor.atRest cursor.position).feed c with
          | some fresh => (scanFrom fresh cs).before cursor.token?
          | none =>
              ⟨cursor.token?.toList, some (.unexpectedCharacter c (cursor.position + 1))⟩

/-- Scans a text. -/
def scan (text : String) : Scan := scanFrom (.atRest 0) text.toList

end Scanner

/-- The tokens of a text, or its first illegal character. -/
def tokenize (text : String) : Except ScanError (List Token) :=
  let scan := Scanner.scan text
  match scan.error? with
  | some error => .error error
  | none => .ok scan.tokens

end EquationNetwork
