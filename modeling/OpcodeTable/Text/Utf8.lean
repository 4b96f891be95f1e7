/-
This file passes between texts and the bytes that files hold. Every text has one encoding;
bytes that are the encoding of no text decode to nothing.
-/

namespace OpcodeTable.Text

/-- What a file or a stream holds. -/
abbrev Bytes := List UInt8

/-- The UTF-8 encoding of a text. -/
def encodeUtf8 (text : List Char) : Bytes := text.flatMap String.utf8EncodeChar

/-- The text that the bytes encode, if they are well formed. -/
def decodeUtf8? (bytes : Bytes) : Option String := String.fromUTF8? bytes.toByteArray

end OpcodeTable.Text
