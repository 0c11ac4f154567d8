import Mathlib.Tactic

/-!
# Operations on texts

The operations of a standard library that line-based protocols use: white
space, lines, and the usual rendering of a span of time.
-/

namespace Acdp
namespace Text

/-- The Unicode property `White_Space`. -/
def isWhiteSpace (char : Char) : Bool :=
  let code := char.toNat
  (9 ≤ code && code ≤ 13) || code == 0x20 || code == 0x85 || code == 0xA0 ||
    code == 0x1680 || (0x2000 ≤ code && code ≤ 0x200A) || code == 0x2028 ||
    code == 0x2029 || code == 0x202F || code == 0x205F || code == 0x3000

def trim (text : String) : String :=
  String.ofList
    (((text.toList.dropWhile isWhiteSpace).reverse.dropWhile
      isWhiteSpace).reverse)

def contains (text part : String) : Bool :=
  decide (part.toList <:+: text.toList)

def stripPrefix (lead text : String) : Option String :=
  if lead.toList <+: text.toList then
    some (String.ofList (text.toList.drop lead.toList.length))
  else none

/-- `&text[text.find(part)..]`. -/
def fromFirst (part : List Char) : List Char → Option (List Char)
  | [] => if part = [] then some [] else none
  | char :: rest =>
      if part <+: char :: rest then some (char :: rest)
      else fromFirst part rest

def beforeFirst (part : List Char) : List Char → List Char
  | [] => []
  | char :: rest =>
      if part <+: char :: rest then []
      else char :: beforeFirst part rest

/-- `text.split(part).nth(1)`: what stands between the first occurrence of
the part and the second. -/
def splitSecond (text part : String) : Option String :=
  (fromFirst part.toList text.toList).map fun tail =>
    String.ofList
      (beforeFirst part.toList (tail.drop part.toList.length))

/-- The group of the leftmost match of a pattern `lead([allowed]+)`. -/
def captureAfter (lead : List Char) (allowed : Char → Bool) :
    List Char → Option (List Char)
  | [] => none
  | char :: rest =>
      let group := ((char :: rest).drop lead.length).takeWhile allowed
      if lead <+: char :: rest ∧ group ≠ [] then some group
      else captureAfter lead allowed rest

def stripCarriageReturn (line : List Char) : List Char :=
  if line.getLast? = some '\r' then line.dropLast else line

/-- The lines of a text, `current` being the part of the first one that has
been read, in reverse.  A last line without a line feed counts if it is not
empty, and keeps a carriage return at its end. -/
def linesFrom (current : List Char) : List Char → List String
  | [] => if current = [] then [] else [String.ofList current.reverse]
  | char :: rest =>
      if char = '\n' then
        String.ofList (stripCarriageReturn current.reverse) ::
          linesFrom [] rest
      else linesFrom (char :: current) rest

def lines (text : String) : List String := linesFrom [] text.toList

/-- A decimal number with `width` digits after the point, zeros at the end
left out. -/
def decimalText (whole fraction width : ℕ) : String :=
  let digits := (toString fraction).toList
  let padded := List.replicate (width - digits.length) '0' ++ digits
  let kept := (padded.reverse.dropWhile (fun digit => digit == '0')).reverse
  if kept = [] then toString whole
  else toString whole ++ "." ++ String.ofList kept

/-- A span of time in the largest unit in which it is at least one. -/
def spanText (secs nanos : ℕ) : String :=
  if 0 < secs then decimalText secs nanos 9 ++ "s"
  else if 1000000 ≤ nanos then
    decimalText (nanos / 1000000) (nanos % 1000000) 6 ++ "ms"
  else if 1000 ≤ nanos then
    decimalText (nanos / 1000) (nanos % 1000) 3 ++ "µs"
  else toString nanos ++ "ns"

end Text
end Acdp
