import EntityQuery.Calendar.Literal
import EntityQuery.Handler.Basic

/-!
# Literals of a type

The value that a literal has for a field. An empty literal is null for every type that reads its
literals; a literal that does not fit its field is an error, and never a different value.

A number is read as an integer unless it has a fraction or an exponent, and brought to the width of
its field last. An integer too large to be one may still be a number of a fractional field.
-/

namespace EntityQuery

/-- Reads literals one by one, an empty one as null; the first that fails decides. -/
def coerceEach (read : String → Except QueryError Value) (literals : List String) :
    Except QueryError Operand :=
  (literals.mapM fun literal => if literal = "" then .ok .null else read literal).map
    Operand.ofValues

namespace Literal

/-- The number of a field of the given width that an integer is. -/
def ofInteger (width : NumericWidth) (n : Int) : Except LiteralFault Value :=
  match width with
  | .fractional p => .ok (.floating p (Floating.ofInt p n))
  | .integral w =>
    match SizedInt.ofInt? w n with
    | some k => .ok (.integer k)
    | none => .error (.outOfRange width)

/-- Whether the magnitude of a number is at most the greatest one of single precision. -/
def withinSingle : Floating → Bool
  | .finite _ m e =>
    ((Floating.finite false m e).compare (Floating.greatest .single)) ≠ some .gt
  | _ => false

/-- The number of a field of the given width that a double is. -/
def ofDouble (width : NumericWidth) (x : Floating) : Except LiteralFault Value :=
  if !x.isFinite then .error .notFinite
  else
    match width with
    | .fractional .double => .ok (.floating .double x)
    | .fractional .single =>
      if withinSingle x then .ok (.floating .single (x.toPrecision .single))
      else .error (.outOfRange width)
    -- digits that did not fit into the double are not there any more
    | .integral _ =>
      match x.toInt? with
      | some n => ofInteger width n
      | none => .error (.fraction width)

/-- Whether a numeral has a fraction or an exponent. -/
def looksFractional (cs : List Char) : Bool := cs.any fun c => c = '.' || c = 'e' || c = 'E'

/-- Reads a numeral at double precision, and brings it to a width. -/
def readDouble (width : NumericWidth) (cs : List Char) : Except LiteralFault Value :=
  match Floating.read .double cs with
  | .ok x => ofDouble width x
  | .error fault => .error (.floating fault)

/-- Reads the number of a field of the given width. -/
def readNumber (width : NumericWidth) (cs : List Char) : Except LiteralFault Value :=
  if looksFractional cs then readDouble width cs
  else
    match Numeral.readInt64 cs, width with
    | .ok n, _ => ofInteger width n
    | .error fault, .integral _ => .error (.integer fault)
    | .error _, .fractional _ => readDouble width cs

/-- The width of a numeric type; other types are read at double precision. -/
def widthOf : FieldType → NumericWidth
  | .numeric width => width
  | _ => .fractional .double

/-- The number of a literal, blanks around it left out. -/
def number (c : LiteralContext) (literal : String) : Except QueryError Value :=
  let trimmed := Text.trim literal
  match readNumber (widthOf c.field.type) trimmed.toList with
  | .ok v => .ok v
  | .error fault => .error (.badLiteral trimmed c.field.name fault)

def character (literal : String) : Value :=
  match literal.toList with
  | [] => .null
  | c :: _ => .character c

/-- A truth value, in any case. -/
def boolean (c : LiteralContext) (literal : String) : Except QueryError Value :=
  let word := literal.toList.map Char.toLower
  if word = "true".toList then .ok (.boolean true)
  else if word = "false".toList then .ok (.boolean false)
  else .error (.badLiteral literal c.field.name .notBoolean)

def enumOf (c : LiteralContext) : Option EnumType :=
  match c.field.type with
  | .enumeration name => c.catalog.enum? name
  | _ => none

/-- A constant of the enumeration of the field. -/
def constant (c : LiteralContext) (literal : String) : Except QueryError Value :=
  match enumOf c with
  | some e =>
    if e.contains literal then .ok (.constant literal)
    else .error (.badLiteral literal c.field.name (.notConstant e.name))
  | none => .error (.badLiteral literal c.field.name (.unknownEnum c.field.type))

/-- A moment, blanks around it left out. -/
def dateTime (c : LiteralContext) (literal : String) : Except QueryError Value :=
  match Calendar.readLiteral? c.datePattern (Text.trim literal) with
  | some t => .ok (.dateTime t)
  | none =>
    .error (.badLiteral literal c.field.name
      (match c.datePattern with
        | some pattern => .notOfPattern pattern
        | none => .notDate))

end Literal

end EntityQuery
