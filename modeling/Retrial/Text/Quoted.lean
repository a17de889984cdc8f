/-!
# Quoted arguments

A command line as it would be typed into a shell. An argument without a
character that a shell reads in its own way stands as it is; any other is put
between single quotes, and a single quote inside it is written outside of them.
-/

set_option autoImplicit false

namespace Retrial.Text

def specialChars : List Char := "|&;<>()$`\\\"' \t\n*?[#~=%".toList

def quoteBody : List Char → List Char
  | [] => []
  | c :: cs => if c == '\'' then '\'' :: '\\' :: '\'' :: '\'' :: quoteBody cs else c :: quoteBody cs

def quoteArg (arg : String) : String :=
  if arg.isEmpty then "''"
  else if arg.toList.any specialChars.contains then "'" ++ String.ofList (quoteBody arg.toList) ++ "'"
  else arg

def commandLine (args : List String) : String := String.intercalate " " (args.map quoteArg)

end Retrial.Text
