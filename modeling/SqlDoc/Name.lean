/-
# Names

A name is written as parts with dots between them, such as `schema.pkg."Inner"`. Case does not
matter unless a part stands in double quotes, so each part is kept in a normal form: a quoted
part as it is spelled, without its quotes, and any other in upper case.

Key definitions: `normalizeIdentifier`, `Name`, `Name.parse`, `Name.display`.
-/
import SqlDoc.Text.Blank
import SqlDoc.Text.Quoted
import SqlDoc.Text.Upper

namespace SqlDoc

/-- What stands between the double quotes around a text, if it has them. -/
def betweenQuotes? : List Char → Option (List Char)
  | '"' :: rest =>
    match rest.getLast? with
    | some '"' => some rest.dropLast
    | _ => none
  | _ => none

/-- The normal form of one part of a name. -/
def normalizeIdentifier (part : String) : String :=
  let text := Text.trimChars part.toList
  match betweenQuotes? text with
  | some inner => String.ofList (Text.undouble '"' inner)
  | none => String.ofList (text.flatMap Text.upperChar)

/-- The normal forms of the parts of a name, outermost first. -/
structure Name where
  parts : List String
  deriving DecidableEq, Repr

namespace Name

/-- The name with no parts. -/
def empty : Name := ⟨[]⟩

instance : Inhabited Name := ⟨empty⟩

/-- The pieces of a text between the dots that do not stand inside double quotes. -/
def pieces (quoted : Bool) : List Char → List (List Char)
  | [] => [[]]
  | c :: rest =>
    if c = '.' ∧ !quoted then [] :: pieces quoted rest
    else
      match pieces (if c = '"' then !quoted else quoted) rest with
      | [] => [[c]]
      | piece :: more => (c :: piece) :: more

/-- Reads a name. A text of blanks is the empty name; otherwise every piece is a part, an empty
one too. -/
def parse (text : String) : Name :=
  match pieces false text.toList with
  | [piece] =>
    if (Text.trimChars piece).isEmpty then empty else ⟨[normalizeIdentifier (String.ofList piece)]⟩
  | more => ⟨more.map fun piece => normalizeIdentifier (String.ofList piece)⟩

/-- The unqualified name: the last part, or the empty text. -/
def last (n : Name) : String :=
  n.parts.getLastD ""

/-- The name has no parts. -/
def isEmpty (n : Name) : Bool :=
  n.parts.isEmpty

/-- The name with one more part. -/
def push (n : Name) (part : String) : Name :=
  ⟨n.parts ++ [part]⟩

/-- Both have the same unqualified name. -/
def sameBase (n m : Name) : Bool :=
  n.last == m.last

/-- The parts with dots between them. -/
def display (n : Name) : String :=
  ".".intercalate n.parts

/-- Names are ordered by their parts, and parts by their characters. -/
def order (n m : Name) : Ordering :=
  List.compareLex compare n.parts m.parts

theorem pieces_ne_nil (quoted : Bool) (text : List Char) : pieces quoted text ≠ [] := by
  fun_induction pieces quoted text <;> simp_all

end Name
end SqlDoc
