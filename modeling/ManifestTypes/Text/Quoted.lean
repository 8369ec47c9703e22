import ManifestTypes.Text.GraphemeExtend
import ManifestTypes.Text.Unprintable

/-!
# Quoted text in messages

Messages quote a text so that every character of it can be seen.
-/

namespace ManifestTypes.Text

/-- A character inside double quotes. Marks that would join the character before them and
characters without a visible form are given by their code point. -/
def quotedChar (c : Char) : List Char :=
  if c = '\x00' then ['\\', '0']
  else if c = '\t' then ['\\', 't']
  else if c = '\r' then ['\\', 'r']
  else if c = '\n' then ['\\', 'n']
  else if c = '\\' then ['\\', '\\']
  else if c = '"' then ['\\', '"']
  else if extendsGrapheme c || isUnprintable c then
    '\\' :: 'u' :: '{' :: Nat.toDigits 16 c.toNat ++ ['}']
  else [c]

def quoted (text : String) : String :=
  String.ofList ('"' :: text.toList.flatMap quotedChar ++ ['"'])

end ManifestTypes.Text
