import JobPlane.Shell.Syntax

/-!
# Tokens

What the text of a script is made of, once its characters are put together.
-/

namespace JobPlane.Shell

/-- The words that mean something to the shell where a command can begin. -/
inductive Keyword
  | not_
  | case_
  | do_
  | done_
  | elif_
  | else_
  | esac_
  | fi_
  | for_
  | if_
  | in_
  | then_
  | until_
  | while_
  | leftBrace
  | rightBrace
  deriving Repr, DecidableEq

namespace Keyword

/-- All of them. -/
def all : List Keyword :=
  [not_, case_, do_, done_, elif_, else_, esac_, fi_, for_, if_, in_, then_, until_, while_, leftBrace, rightBrace]

/-- How a keyword is written. -/
def text : Keyword → String
  | not_ => "!"
  | case_ => "case"
  | do_ => "do"
  | done_ => "done"
  | elif_ => "elif"
  | else_ => "else"
  | esac_ => "esac"
  | fi_ => "fi"
  | for_ => "for"
  | if_ => "if"
  | in_ => "in"
  | then_ => "then"
  | until_ => "until"
  | while_ => "while"
  | leftBrace => "\x7b"
  | rightBrace => "\x7d"

end Keyword

/-- What a redirection is begun by. -/
inductive Arrow
  | file (opening : Opening)
  | copy
  /-- A text that follows the line, whose tabs at the beginnings of lines do not count if `strip` is set. -/
  | text (strip : Bool)
  deriving Repr, DecidableEq

/-- A token. -/
inductive Token
  | finish
  | newline
  | semicolon
  | ampersand
  | and
  | or
  | pipe
  | opening
  | closing
  | caseEnd
  | redirect (n : Nat) (arrow : Arrow)
  | word (parts : Word)
  | keyword (k : Keyword)

namespace Token

/-- How a token is called in a message. -/
def called : Token → String
  | finish => "end of file"
  | newline => "newline"
  | semicolon => "\";\""
  | ampersand => "\"&\""
  | .and => "\"&&\""
  | .or => "\"||\""
  | pipe => "\"|\""
  | opening => "\"(\""
  | closing => "\")\""
  | caseEnd => "\";;\""
  | redirect _ _ => "redirection"
  | word _ => "word"
  | keyword k => "\"" ++ k.text ++ "\""

/-- Whether a token ends a list of commands. -/
def endsList : Token → Bool
  | finish | closing | caseEnd => true
  | keyword k => [Keyword.do_, .done_, .elif_, .else_, .esac_, .fi_, .then_, .rightBrace].contains k
  | _ => false

end Token

end JobPlane.Shell
