/-!
# Text on a terminal

A terminal takes some rows of characters for commands: an escape character and a bracket, parameters
and a letter. What is written to something else than a terminal is written without them.
-/

namespace MailMerge.Text

def isParameter (c : Char) : Bool := c.isDigit || c = ';' || c = '?'

/-- How long the command is that a text begins with; zero, if it begins with none. -/
def commandLength : List Char → Nat
  | '\x1b' :: '[' :: rest =>
    let parameters := rest.takeWhile isParameter
    if (rest.drop parameters.length).head?.any Char.isAlpha then parameters.length + 3 else 0
  | _ => 0

/-- The text behind `skipped` characters, without commands. -/
def withoutCommandsFrom : Nat → List Char → List Char
  | _, [] => []
  | skipped + 1, _ :: rest => withoutCommandsFrom skipped rest
  | 0, c :: rest =>
    match commandLength (c :: rest) with
    | 0 => c :: withoutCommandsFrom 0 rest
    | n + 1 => withoutCommandsFrom n rest

/-- The text without the commands for a terminal in it. -/
def withoutCommands (s : String) : String := String.ofList (withoutCommandsFrom 0 s.toList)

end MailMerge.Text
