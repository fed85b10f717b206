import Gatehouse.Bytes

/-!
# Glob patterns

A pattern is a list of pieces: any run of octets, any single octet, or one given octet. A
backslash takes its special meaning from the octet behind it; a backslash at the very end is a
piece that matches nothing.

Matching reads the key from its end and keeps, for every suffix of the pattern, whether that
suffix matches what has been read. The work is the product of the two lengths, however many stars
the pattern has, and `accepts_cons_any` is the equation by which stars are usually explained.
-/

namespace Gatehouse.Glob

/-- A part of a pattern. -/
inductive Piece where
  | any
  | one
  | octet (b : UInt8)
  | never
  deriving DecidableEq, Repr

def pieces : Bytes → List Piece
  | [] => []
  | [b] =>
    if b = 0x2A then [.any] else if b = 0x3F then [.one] else if b = 0x5C then [.never]
    else [.octet b]
  | b :: c :: rest =>
    if b = 0x2A then .any :: pieces (c :: rest)
    else if b = 0x3F then .one :: pieces (c :: rest)
    else if b = 0x5C then .octet c :: pieces rest
    else .octet b :: pieces (c :: rest)

/-! ## Matching -/

/-- The first entry of a row, which speaks of the whole pattern. -/
def first (row : List Bool) : Bool := row.headD false

/-- For every suffix of a pattern, whether it matches the empty key. -/
def emptyRow : List Piece → List Bool
  | [] => [true]
  | p :: ps =>
    let row := emptyRow ps
    (p == .any && first row) :: row

/-- For every suffix of a pattern, whether it matches the key that has the octet `b` in front of
the key of the given row. -/
def nextRow (b : UInt8) : List Piece → List Bool → List Bool
  | [], _ => [false]
  | p :: ps, row =>
    let next := nextRow b ps row.tail
    let here :=
      match p with
      | .any => first next || first row
      | .one => first row.tail
      | .octet c => c == b && first row.tail
      | .never => false
    here :: next

/-- For every suffix of a pattern, whether it matches a key. -/
def row (ps : List Piece) : Bytes → List Bool
  | [] => emptyRow ps
  | b :: key => nextRow b ps (row ps key)

def accepts (ps : List Piece) (key : Bytes) : Bool := first (row ps key)

def isMatch (pattern key : String) : Bool := accepts (pieces (utf8 pattern)) (utf8 key)

/-! ## Equations -/

theorem tail_row (p : Piece) (ps : List Piece) (key : Bytes) :
    (row (p :: ps) key).tail = row ps key := by
  induction key with
  | nil => rfl
  | cons b key ih =>
    have step : (row (p :: ps) (b :: key)).tail = nextRow b ps (row (p :: ps) key).tail := rfl
    rw [step, ih, row]

theorem accepts_nil (key : Bytes) : accepts [] key = key.isEmpty := by
  cases key <;> rfl

theorem accepts_cons_any (ps : List Piece) (b : UInt8) (key : Bytes) :
    accepts (.any :: ps) (b :: key) = (accepts ps (b :: key) || accepts (.any :: ps) key) := by
  have step : accepts (.any :: ps) (b :: key) =
      (first (nextRow b ps (row (.any :: ps) key).tail) || accepts (.any :: ps) key) := rfl
  rw [step, tail_row]
  rfl

theorem accepts_cons_one (ps : List Piece) (b : UInt8) (key : Bytes) :
    accepts (.one :: ps) (b :: key) = accepts ps key := by
  have step : accepts (.one :: ps) (b :: key) = first (row (.one :: ps) key).tail := rfl
  rw [step, tail_row, accepts]

theorem accepts_cons_octet (c : UInt8) (ps : List Piece) (b : UInt8) (key : Bytes) :
    accepts (.octet c :: ps) (b :: key) = (c == b && accepts ps key) := by
  have step : accepts (.octet c :: ps) (b :: key) =
      (c == b && first (row (.octet c :: ps) key).tail) := rfl
  rw [step, tail_row, accepts]

theorem accepts_cons_never (ps : List Piece) (key : Bytes) :
    accepts (.never :: ps) key = false := by
  cases key <;> rfl

theorem accepts_cons_nil (p : Piece) (ps : List Piece) :
    accepts (p :: ps) [] = (p == .any && accepts ps []) := rfl

end Gatehouse.Glob
