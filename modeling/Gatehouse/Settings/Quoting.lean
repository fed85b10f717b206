import Gatehouse.Text

/-!
# Lines of a settings file

A definition may go on over several lines, as long as a quote is open. Where the lines of a file
end is decided before any of them is understood, by a machine that knows quotes, backslashes and
comments. A sharp sign begins a comment at the start of a line and behind a blank; of several
blanks in a row only every other one counts.

A last line that is open when the file ends is no line.
-/

namespace Gatehouse

/-- Where the division of a file into lines stands. -/
inductive Quoting where
  /-- Nothing but blanks has been read of the line. -/
  | start
  | plain
  /-- Behind a blank that counts. -/
  | blank
  | escape
  | single (escaped : Bool)
  | double (escaped : Bool)
  | comment
  deriving DecidableEq, Repr

namespace Quoting

/-- Read a character that opens a quote or an escape, or does not. -/
def enter (c : Char) : Quoting :=
  if c = '\\' then .escape
  else if c = '"' then .double false
  else if c = '\'' then .single false
  else .plain

def next (c : Char) : Quoting → Quoting
  | .start => if c = '#' then .comment else if Text.isBlank c then .start else enter c
  | .plain => if Text.isBlank c && c != '\n' && c != '\r' then .blank else enter c
  | .blank => if c = '#' then .comment else enter c
  | .escape => .plain
  | .single false => if c = '\\' then .single true else if c = '\'' then .plain else .single false
  | .single true => .single false
  | .double false => if c = '\\' then .double true else if c = '"' then .plain else .double false
  | .double true => .double false
  | .comment => .comment

def mayEnd : Quoting → Bool
  | .start => true
  | .plain => true
  | .comment => true
  | _ => false

/-- The lines of a text from a place on, where `read` has been read of the first one, backwards. -/
def linesFrom (q : Quoting) (read : List Char) : List Char → List String
  | [] => if q.mayEnd then [String.ofList read.reverse] else []
  | c :: rest =>
    let place := q.next c
    if c = '\n' && place.mayEnd then String.ofList read.reverse :: linesFrom .start [] rest
    else linesFrom place (if place = .comment then read else c :: read) rest

/-- The lines of a text, without comments and line ends. -/
def lines (cs : List Char) : List String := linesFrom .start [] cs

end Quoting

end Gatehouse
