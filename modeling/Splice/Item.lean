import Splice.Diagnostic
import Splice.Segment

/-!
# Items

The tokens of a file are read as a list of items, to be carried out in order: text and comments to
be kept, requests for other files, and at the end the problem that stops the file short, if there is
one. A directive that asks for an error is such a problem.
-/

namespace Splice

/-- The commands of directive lines. -/
inductive Command where
  /-- Splice a file in. -/
  | splice
  /-- Splice a file in unless it was met before. -/
  | spliceOnce
  /-- Stop with an error. -/
  | stop
deriving DecidableEq

/-- The command with the given name. -/
def Command.ofName? (name : Text) : Option Command :=
  if name = "include".toList then some splice
  else if name = "require".toList then some spliceOnce
  else if name = "error".toList then some stop
  else none

/-- A request for a file. -/
structure Request where
  /-- The path as it is written in the directive. -/
  target : String
  /-- The position of the directive. -/
  location : Position
  /-- Whether the request is skipped for a file that was met before. -/
  once : Bool
deriving DecidableEq

/-- What a piece of a file asks for. -/
inductive Item where
  /-- Keep text. -/
  | text (location : Position) (content : Text)
  /-- Keep a comment. -/
  | comment (location : Position) (content : Text)
  /-- Splice a file in. -/
  | request (request : Request)
  /-- Give up. -/
  | failure (diagnostic : Diagnostic)
deriving DecidableEq

namespace Item

/-- What is wrong with the tokens after a trigger, when they are not a word, a string and a line
end. The tokens are looked at one after the other, and an invalid one is reported as soon as it is
met. -/
def fault (source : String) : List Token → Diagnostic
  | [] => .ofLexicalFault .missingEnd (.start source)
  | ⟨.invalid fault, place⟩ :: _ => .ofLexicalFault fault (place.position source)
  | ⟨.word name, place⟩ :: rest =>
    match Command.ofName? name with
    | none => .ofDirectiveFault (.unknownCommand name) (place.position source)
    | some _ =>
      match rest with
      | [] => .ofLexicalFault .missingEnd (.start source)
      | ⟨.invalid fault, place⟩ :: _ => .ofLexicalFault fault (place.position source)
      | ⟨.lineEnd _, place⟩ :: _ =>
        .ofDirectiveFault (.missingArgument name) (place.position source)
      | argument :: rest =>
        match rest with
        | [] => .ofLexicalFault .missingEnd (.start source)
        | ⟨.invalid fault, place⟩ :: _ => .ofLexicalFault fault (place.position source)
        | _ :: _ => .ofDirectiveFault (.notOneString name) (argument.place.position source)
  | token :: _ => .ofDirectiveFault .missingCommand (token.place.position source)

/-- The items of the named source with the given tokens. -/
def ofTokens (source : String) : List Token → List Item
  | [] => [.failure (.ofLexicalFault .missingEnd (.start source))]
  | ⟨.text content, place⟩ :: rest => .text (place.position source) content :: ofTokens source rest
  | ⟨.comment content, place⟩ :: rest =>
    .comment (place.position source) content :: ofTokens source rest
  | ⟨.trigger _, place⟩ :: ⟨.word name, namePlace⟩ :: ⟨.quoted argument, _⟩ :: ⟨.lineEnd _, _⟩ ::
      rest =>
    let location := place.position source
    match Command.ofName? name with
    | some .splice =>
      .request ⟨String.ofList argument, location, false⟩ :: ofTokens source rest
    | some .spliceOnce =>
      .request ⟨String.ofList argument, location, true⟩ :: ofTokens source rest
    | some .stop => [.failure (.requested argument location)]
    | none =>
      [.failure (.ofDirectiveFault (.unknownCommand name) (namePlace.position source))]
  | ⟨.trigger _, _⟩ :: rest => [.failure (fault source rest)]
  | ⟨.invalid fault, place⟩ :: _ => [.failure (.ofLexicalFault fault (place.position source))]
  | ⟨.endOfInput, _⟩ :: _ => []
  | token :: _ =>
    [.failure (.ofDirectiveFault (.strayToken token.lexeme.kind) (token.place.position source))]

end Item

/-- The items of a source. -/
def Dialect.items (dialect : Dialect) (name : String) (source : Text) : List Item :=
  Item.ofTokens name (dialect.tokens source)

end Splice
