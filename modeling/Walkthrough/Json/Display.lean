import Walkthrough.Json
import Walkthrough.Text.Quoted
/-!
Values as messages show them: texts in single quotes where they can be, capital `True`, `False`
and `None`.
-/

namespace Walkthrough.Json

mutual
def display : Json → List Char
  | null => "None".toList
  | bool true => "True".toList
  | bool false => "False".toList
  | num n => n.text.toList
  | str s => Text.quoted s.toList
  | arr [] => ['[', ']']
  | arr (v :: vs) => '[' :: display v ++ displayItems vs ++ [']']
  | obj [] => ['\x7b', '\x7d']
  | obj ((k, v) :: ms) =>
    '\x7b' :: Text.quoted k.toList ++ [':', ' '] ++ display v ++ displayMembers ms ++ ['\x7d']

def displayItems : List Json → List Char
  | [] => []
  | v :: vs => [',', ' '] ++ display v ++ displayItems vs

def displayMembers : List (String × Json) → List Char
  | [] => []
  | (k, v) :: ms =>
    [',', ' '] ++ Text.quoted k.toList ++ [':', ' '] ++ display v ++ displayMembers ms
end

def shown (v : Json) : String := String.ofList v.display

/-- A value in words: a text as it is, any other value as messages show it. -/
def words : Json → String
  | str s => s
  | v => v.shown

end Walkthrough.Json
