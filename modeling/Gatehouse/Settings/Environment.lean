import Gatehouse.Bytes
import Gatehouse.Settings.Quoting
import Gatehouse.Text.Alphanumeric

/-!
# The environment

Settings come from variables, and variables from two places: the process, and a file that fills in
what the process leaves open. The environment is the list of all definitions in the order of their
precedence, so the first definition of a name is the one that counts, in a file as well.

A line of a file is `NAME=value`, with an optional `export` in front. A value ends at a blank
outside quotes; a dollar sign puts in the value of another variable, whose name is either in
braces or goes as far as there are letters and digits. At the first line that is none of this the
rest of the file is ignored.

A value with the character zero in it cannot be given to a variable of the process. A file that asks
for it ends the program, so an environment with the definitions of a file need not be there.
-/

namespace Gatehouse

/-- Definitions of variables; the first one of a name counts. -/
abbrev Environment := List (String × String)

namespace Environment

def value? (e : Environment) (name : String) : Option String :=
  (e.find? fun d ↦ d.1 == name).map Prod.snd

/-- The variables of a process. One whose value is no text counts as not set. -/
def ofProcess (definitions : List (String × Bytes)) : Environment :=
  definitions.filterMap fun (name, value) ↦ (ofUtf8? value).map fun text ↦ (name, text)

/-! ## Values in a file -/

def isNameStart (c : Char) : Bool := c.isAlpha || c == '_'

def isNameChar (c : Char) : Bool := c.isAlphanum || c == '_' || c == '.'

/-- Where the reading of a value stands. -/
inductive Place where
  | plain
  | single
  | double
  /-- Behind a backslash, outside or inside double quotes. -/
  | escaped (quoted : Bool)
  /-- In a name behind a dollar sign, outside or inside double quotes. -/
  | name (quoted : Bool) (read : List Char)
  /-- In a name in braces behind a dollar sign. -/
  | braced (quoted : Bool) (read : List Char)
  /-- Behind a blank; nothing but a comment may follow. -/
  | ended
  | comment

/-- The place outside or inside double quotes. -/
def Place.within (quoted : Bool) : Place := if quoted then .double else .plain

/-- The characters of the variable whose name was read backwards. -/
def substituted (e : Environment) (read : List Char) : List Char :=
  ((e.value? (String.ofList read.reverse)).getD "").toList

/-- Read a character that has no backslash in front and is in no name. -/
def Place.enter (quoted : Bool) (c : Char) : Place × List Char :=
  if c = '$' then (.name quoted [], [])
  else if c = '\\' then (.escaped quoted, [])
  else if quoted then if c = '"' then (.plain, []) else (.double, [c])
  else if c = '\'' then (.single, [])
  else if c = '"' then (.double, [])
  else if c = ' ' || c = '\t' then (.ended, [])
  else (.plain, [c])

/-- Read a character of a value: the next place and the characters that the value gains. -/
def Place.next? (e : Environment) (c : Char) : Place → Option (Place × List Char)
  | .plain => some (enter false c)
  | .double => some (enter true c)
  | .single => some (if c = '\'' then (.plain, []) else (.single, [c]))
  | .escaped quoted =>
    if c = 'n' then some (.within quoted, ['\n'])
    else if "\\'\"$ ".toList.contains c then some (.within quoted, [c])
    else none
  | .name quoted read =>
    if Text.isAlphanumeric c then some (.name quoted (c :: read), [])
    else if c = '\x7b' && read.isEmpty then some (.braced quoted [], [])
    else if c = '$' then some (.name quoted [], substituted e read)
    else some (.within quoted, substituted e read ++ [c])
  | .braced quoted read =>
    if c = '\x7d' then some (.within quoted, substituted e read)
    else some (.braced quoted (c :: read), [])
  | .ended =>
    if c = ' ' || c = '\t' then some (.ended, []) else if c = '#' then some (.comment, []) else none
  | .comment => some (.comment, [])

/-- The characters of a value from a place on. -/
def Place.read? (e : Environment) : Place → List Char → Option (List Char)
  | p, c :: rest =>
    match p.next? e c with
    | none => none
    | some (next, gained) => (next.read? e rest).map (gained ++ ·)
  | .name quoted read, [] => if quoted then none else some (substituted e read)
  | .single, [] => none
  | .double, [] => none
  | .braced _ _, [] => none
  | .escaped quoted, [] => if quoted then none else some []
  | .plain, [] => some []
  | .ended, [] => some []
  | .comment, [] => some []

/-! ## Lines of a file -/

/-- What a line of a file says. -/
inductive Line where
  | blank
  | definition (name value : String)
  | malformed

/-- A name and what follows it and the blanks behind it. -/
def name? (cs : List Char) : Option (List Char × List Char) :=
  match cs with
  | c :: _ =>
    if isNameStart c then
      some (cs.takeWhile isNameChar, Text.trimLeft (cs.dropWhile isNameChar))
    else none
  | [] => none

/-- The definition of a name by what stands behind an equals sign. -/
def definition (e : Environment) (name : List Char) : List Char → Line
  | '=' :: rest =>
    match Text.trimLeft rest with
    | [] => .definition (String.ofList name) ""
    | '#' :: _ => .definition (String.ofList name) ""
    | value =>
      match Place.plain.read? e value with
      | none => .malformed
      | some value => .definition (String.ofList name) (String.ofList value)
  | _ => .malformed

/-- What a line says, once its variables are known. -/
def line (e : Environment) (text : String) : Line :=
  match Text.trimChars text.toList with
  | [] => .blank
  | '#' :: _ => .blank
  | cs =>
    match name? cs with
    | none => .malformed
    | some (name, '=' :: rest) => definition e name ('=' :: rest)
    | some (name, rest) =>
      if name = "export".toList then
        match name? rest with
        | none => .malformed
        | some (name, rest) => definition e name rest
      else .malformed

/-- The character that ends a text where texts are handed to the system. -/
def zero : Char := Char.ofNat 0

/-- The environment with the definitions of some lines, unless one of them ends the program. A name
that has a value keeps it, and then it does not matter what else the file would give it. -/
def withLines? (e : Environment) : List String → Option Environment
  | [] => some e
  | text :: rest =>
    match e.line text with
    | .blank => e.withLines? rest
    | .malformed => some e
    | .definition name value =>
      if (e.value? name).isNone && value.toList.contains zero then none
      else withLines? (e ++ [(name, value)]) rest

/-- The character that may stand in front of a file to mark the order of its octets. -/
def orderMark : Char := Char.ofNat 0xFEFF

/-- The characters of a file without the mark in front. -/
def withoutMark (cs : List Char) : List Char := if cs.head? = some orderMark then cs.tail else cs

/-- The environment with the definitions of a file behind its own, unless one of them ends the
program. -/
def withFile? (e : Environment) (file : String) : Option Environment :=
  e.withLines? (Quoting.lines (withoutMark file.toList))

end Environment

end Gatehouse
