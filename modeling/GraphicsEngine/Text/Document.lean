/-! Indented JSON text. A document is the text of a value as a function of the depth that it stands
at.
-/

namespace GraphicsEngine.Text

/-- The text of a value at a depth. -/
abbrev Document := (depth : Nat) → String

namespace Document

def indent (depth : Nat)
    : String :=
  String.ofList (List.replicate (2 * depth) ' ')

def null : Document :=
  fun _ => "null"

def number (value : Int)
    : Document :=
  fun _ => toString value

/-- A text that needs no escapes: letters, digits and plain punctuation. -/
def plain (text : String)
    : Document :=
  fun _ => "\"" ++ text ++ "\""

def optional {α : Type} (value : Option α) (document : α → Document)
    : Document :=
  match value with
  | none => null
  | some present => document present

/-- Items between brackets, each on a line of its own; no items leave the brackets together. -/
def block (opening closing : String) (items : List Document)
    : Document :=
  fun depth =>
    if items.isEmpty then
      opening ++ closing
    else
      let lines := items.map fun item => indent (depth + 1) ++ item (depth + 1)
      opening ++ "\n" ++ String.intercalate ",\n" lines ++ "\n" ++ indent depth ++ closing

def array (items : List Document)
    : Document :=
  block "[" "]" items

/-- The named values of an object, in the given order. -/
def object (fields : List (String × Document))
    : Document :=
  block "\x7b" "\x7d" (fields.map fun field depth => "\"" ++ field.1 ++ "\": " ++ field.2 depth)

/-- The text of a value that stands alone. -/
def render (document : Document)
    : String :=
  document 0

end Document

end GraphicsEngine.Text
