import Splice.Place
import Splice.Text.Quoted

/-!
# Tokens

Scanning turns a source into tokens: the plain text and comments that are kept, and the parts of
each directive line. A scan ends with an end-of-input token, or with an invalid token where the
source stops making sense.
-/

namespace Splice

/-- What can be wrong with the characters of a directive line. -/
inductive LexicalFault where
  /-- A shebang stands on another line than the first. -/
  | misplacedShebang
  /-- The source ends inside a directive line. -/
  | unexpectedEnd
  /-- A carriage return is not followed by a line feed. -/
  | malformedLineEnd
  /-- A quoted string is not closed on its line. -/
  | unterminatedQuote
  /-- A character belongs to no word, string or line end. -/
  | unexpectedCharacter (c : Char)
  /-- The tokens stop without one that ends the input. -/
  | missingEnd
deriving DecidableEq

/-- The wording of a lexical fault. -/
def LexicalFault.message : LexicalFault → String
  | misplacedShebang => "shebang only allowed on the first line"
  | unexpectedEnd => "unexpected EOF"
  | malformedLineEnd => "malformed end-of-line"
  | unterminatedQuote => "unterminated quoted string"
  | unexpectedCharacter c => "unexpected character " ++ Text.showQuoted [c]
  | missingEnd => "token stream ended without EOF"

/-- What a token says. -/
inductive Lexeme where
  /-- Plain text. -/
  | text (content : Text)
  /-- A comment that is kept, delimiters included. -/
  | comment (content : Text)
  /-- The trigger that begins a directive. -/
  | trigger (mark : Text)
  /-- A bare word of a directive line. -/
  | word (name : Text)
  /-- A quoted string of a directive line, without quotes and escapes. -/
  | quoted (content : Text)
  /-- The end of a directive line. -/
  | lineEnd (mark : Text)
  /-- A point at which the source cannot be read on. -/
  | invalid (fault : LexicalFault)
  /-- The end of the source. -/
  | endOfInput
deriving DecidableEq

namespace Lexeme

/-- The text that a lexeme carries. -/
def value : Lexeme → Text
  | text s | comment s | trigger s | word s | quoted s | lineEnd s => s
  | invalid fault => fault.message.toList
  | endOfInput => []

/-- The name of a lexeme's kind. -/
def kind : Lexeme → String
  | text _ => "TEXT"
  | comment _ => "COMMENT"
  | trigger _ => "ACTION_BEGIN"
  | word _ => "IDENTIFIER"
  | quoted _ => "STRING"
  | lineEnd _ => "ACTION_END"
  | invalid _ => "ERROR"
  | endOfInput => "EOF"

end Lexeme

/-- A lexeme and the place where it starts. -/
structure Token where
  lexeme : Lexeme
  place : Place
deriving DecidableEq

namespace Token

/-- Whether a token is plain text. -/
def isText (token : Token) : Bool :=
  match token.lexeme with
  | .text _ => true
  | _ => false

/-- A value as a listing of tokens shows it: one of more than twenty characters is cut after the
seventeenth. -/
def abridge (value : Text) : Text :=
  if 20 < value.length then value.take 17 ++ ['.', '.', '.'] else value

/-- A token as a listing shows it. -/
def describe (token : Token) : String :=
  "Token(" ++ token.lexeme.kind ++ ", " ++ Text.showQuoted (abridge token.lexeme.value) ++ ", " ++
    Text.showInt token.place.line ++ ":" ++ Text.showInt token.place.column ++ ")"

end Token

end Splice
