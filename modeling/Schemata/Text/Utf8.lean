/-!
# UTF-8 lengths and bytes

Some texts are measured or read by the bytes of their UTF-8 form.
-/
namespace Schemata.Text

def byteCount (text : List Char) : Nat :=
  text.foldl (fun count c => count + c.utf8Size) 0

def utf8 (text : List Char) : List UInt8 :=
  text.flatMap String.utf8EncodeChar

end Schemata.Text
