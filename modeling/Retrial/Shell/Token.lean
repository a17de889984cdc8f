import Retrial.Shell.Tree

/-!
# Tokens

What the text of a child's script falls into: words, operators, redirections and
the words of the language itself. A reader that meets a token where it cannot
stand names it, and the token it would have needed.
-/

set_option autoImplicit false

namespace Retrial.Shell

inductive RedirectSign
  | file (opening : Opening)
  | copy
  | here (dropsTabs : Bool)
  deriving DecidableEq, Repr

inductive Token
  | ended
  | newline
  | op (text : String)
  | redirect (stream : Nat) (sign : RedirectSign)
  | keyword (text : String)
  | word (word : Word)

def keywords : List String :=
  ["!", "case", "do", "done", "elif", "else", "esac", "fi", "for", "if", "in", "then", "until", "while",
    "\x7b", "\x7d"]

namespace Token

def describe : Token → String
  | .ended => "end of file"
  | .newline => "newline"
  | .op text | .keyword text => "\"" ++ text ++ "\""
  | .redirect _ _ => "redirection"
  | .word _ => "word"

def isOp (t : Token) (text : String) : Bool :=
  match t with
  | .op o => o == text
  | _ => false

def isKeyword (t : Token) (text : String) : Bool :=
  match t with
  | .keyword k => k == text
  | _ => false

def endsList : Token → Bool
  | .ended => true
  | .op text => text == ")" || text == ";;"
  | .keyword text => ["do", "done", "elif", "else", "esac", "fi", "then", "\x7d"].contains text
  | _ => false

end Token

structure SyntaxFault where
  line : Nat
  message : String
  deriving DecidableEq, Repr

def isNameStart (c : Char) : Bool := c.isAlpha || c == '_'

def isNameChar (c : Char) : Bool := c.isAlphanum || c == '_'

def isName (cs : List Char) : Bool :=
  match cs with
  | [] => false
  | c :: _ => isNameStart c && cs.all isNameChar

def isMeta (c : Char) : Bool := " \t\n;&|<>()".toList.contains c

def isSpecialName (c : Char) : Bool := "@*#?-$!".toList.contains c || c.isDigit

namespace Word

def bareText? : Word → Option (List Char)
  | [.text false cs] => some cs
  | _ => none

def assignment? : Word → Option (String × Word)
  | .text false cs :: parts =>
    match cs.dropWhile (· != '=') with
    | _ :: value =>
      let name := cs.takeWhile (· != '=')
      if isName name then
        some (String.ofList name, if value.isEmpty then parts else .text false value :: parts)
      else none
    | [] => none
  | _ => none

end Word

def prepend (quoted : Bool) (cs : List Char) : Word → Word
  | .text q ds :: parts =>
    if q == quoted && !cs.isEmpty then .text q (cs ++ ds) :: parts
    else .text quoted cs :: .text q ds :: parts
  | parts => .text quoted cs :: parts

def countLines (cs : List Char) : Nat := (cs.filter (· == '\n')).length

end Retrial.Shell
