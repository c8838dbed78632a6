import GraphicsEngine.Text.Shown

/-! Quoted text: what a reader cannot see or could mistake for the end of the text is escaped. -/

namespace GraphicsEngine.Text

def escape (character : Char)
    : List Char :=
  match character with
  | '\x00' => ['\\', '0']
  | '\t' => ['\\', 't']
  | '\n' => ['\\', 'n']
  | '\r' => ['\\', 'r']
  | '"' => ['\\', '"']
  | '\\' => ['\\', '\\']
  | _ =>
      if isShown character then
        [character]
      else
        ['\\', 'u', '\x7b'] ++ Nat.toDigits 16 character.toNat ++ ['\x7d']

def quote (text : String)
    : String :=
  String.ofList ('"' :: text.toList.flatMap escape ++ ['"'])

end GraphicsEngine.Text
