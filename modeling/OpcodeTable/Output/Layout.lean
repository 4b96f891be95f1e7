/-
This file writes a record as one line of text, either as a struct literal that can be pasted
into a source file or as a JSON object. In both, names are quoted so that nothing in them can
end the line, and numbers are never cut, so a record can be read back from its line.
-/

import OpcodeTable.Record
import OpcodeTable.Text.Quoted

namespace OpcodeTable

open Text

/-- The two forms of a line. -/
inductive Layout where
  | source
  | json
  deriving DecidableEq, Repr

namespace Record

/-- The record as a struct literal, its numbers in hexadecimal. -/
def sourceLine (record : Record) : List Char :=
  let number (word : Word) := '0' :: 'x' :: paddedHex record.width.hexDigits word.toNat
  "Encoding \x7b name: ".toList ++ QuoteStyle.source.quote record.name.toList
    ++ ", mask: ".toList ++ number record.mask
    ++ ", value: ".toList ++ number record.value
    ++ ", fields: &[".toList ++ QuoteStyle.source.quoteAll [',', ' '] record.fields
    ++ "] \x7d,".toList

/-- The record as a JSON object, its numbers in decimal. -/
def jsonLine (record : Record) : List Char :=
  "\x7b\"name\":".toList ++ QuoteStyle.json.quote record.name.toList
    ++ ",\"mask\":".toList ++ decimal record.mask.toNat
    ++ ",\"value\":".toList ++ decimal record.value.toNat
    ++ ",\"width\":".toList ++ decimal record.width.bits
    ++ ",\"fields\":[".toList ++ QuoteStyle.json.quoteAll [','] record.fields
    ++ "]\x7d".toList

end Record

/-- The line of a record, without its ending. -/
def Layout.line (layout : Layout) (record : Record) : List Char :=
  match layout with
  | .source => record.sourceLine
  | .json => record.jsonLine

end OpcodeTable
