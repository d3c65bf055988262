import Walkthrough.Json
import Walkthrough.Text.Quoted
/-!
Writing JSON: indented by two blanks a level, or on one line.
-/

namespace Walkthrough.Json

def escapeChar (c : Char) : List Char :=
  if c = '"' then ['\\', '"']
  else if c = '\\' then ['\\', '\\']
  else if c = '\n' then ['\\', 'n']
  else if c = '\r' then ['\\', 'r']
  else if c = '\t' then ['\\', 't']
  else if c = '\x0c' then ['\\', 'f']
  else if c = '\x08' then ['\\', 'b']
  else if c.toNat < 0x20 then '\\' :: 'u' :: Text.hex 4 c.toNat
  else [c]

def writeText (s : String) : List Char := '"' :: s.toList.flatMap escapeChar ++ ['"']

/-- A number; the three values that are none have names. -/
def writeNumber : Number → List Char
  | .int n => (toString n).toList
  | .real .nan => "NaN".toList
  | .real (.infinity false) => "Infinity".toList
  | .real (.infinity true) => "-Infinity".toList
  | .real x => x.text

/-- Where line breaks go: none, or one before each item at a depth of indentation. -/
inductive Style where
  | oneLine
  | indented (depth : Nat)
  deriving DecidableEq, Repr

def Style.deeper : Style → Style
  | oneLine => oneLine
  | indented d => indented (d + 1)

/-- What stands before an item or a closing bracket. -/
def Style.lead : Style → List Char
  | oneLine => []
  | indented d => '\n' :: List.replicate (2 * d) ' '

def Style.between : Style → List Char
  | oneLine => [',', ' ']
  | indented d => ',' :: (indented d).lead

mutual
def write (st : Style) : Json → List Char
  | null => "null".toList
  | bool true => "true".toList
  | bool false => "false".toList
  | num n => writeNumber n
  | str s => writeText s
  | arr [] => ['[', ']']
  | arr (v :: vs) =>
    '[' :: st.deeper.lead ++ write st.deeper v ++ writeItems st.deeper vs ++ st.lead ++ [']']
  | obj [] => ['\x7b', '\x7d']
  | obj ((k, v) :: ms) =>
    '\x7b' :: st.deeper.lead ++ writeText k ++ [':', ' '] ++ write st.deeper v ++
      writeMembers st.deeper ms ++ st.lead ++ ['\x7d']

/-- The further values of a list, each with what stands before it. -/
def writeItems (st : Style) : List Json → List Char
  | [] => []
  | v :: vs => st.between ++ write st v ++ writeItems st vs

/-- The further members of an object, each with what stands before it. -/
def writeMembers (st : Style) : List (String × Json) → List Char
  | [] => []
  | (k, v) :: ms =>
    st.between ++ writeText k ++ [':', ' '] ++ write st v ++ writeMembers st ms
end

def pretty (v : Json) : String := String.ofList (write (.indented 0) v)

def compact (v : Json) : String := String.ofList (write .oneLine v)

end Walkthrough.Json
