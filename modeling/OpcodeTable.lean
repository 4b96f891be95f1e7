import OpcodeTable.Main
import OpcodeTable.Proofs.Meaning
import OpcodeTable.Table.Cursor
import OpcodeTable.Proofs.Tokens
import OpcodeTable.Proofs.Grammar
import OpcodeTable.Proofs.Reading
import OpcodeTable.Proofs.FieldOrder
import OpcodeTable.Proofs.Verdict
import OpcodeTable.Proofs.Tables
import OpcodeTable.Proofs.Stream
import OpcodeTable.Proofs.FieldList
import OpcodeTable.Proofs.Rearrangement
import OpcodeTable.Proofs.RecordWidth
import OpcodeTable.Proofs.RuleChange
import OpcodeTable.Proofs.Concatenation
import OpcodeTable.Proofs.Numerals
import OpcodeTable.Proofs.Printing
import OpcodeTable.Proofs.Quotation
import OpcodeTable.Proofs.Writing
import OpcodeTable.Proofs.Json
import OpcodeTable.Proofs.JsonLines
import OpcodeTable.Proofs.SourceLines
import OpcodeTable.Proofs.LimitedSink
import OpcodeTable.Proofs.Buffering
import OpcodeTable.Proofs.Delivery
import OpcodeTable.Proofs.Stages
import OpcodeTable.Proofs.Agreement
import OpcodeTable.Proofs.OutputOnly
import OpcodeTable.Proofs.Precedence
import OpcodeTable.Proofs.Literals
import OpcodeTable.Proofs.FixedParts
import OpcodeTable.Proofs.Placement
import OpcodeTable.Proofs.Layout
import OpcodeTable.Proofs.Spacing
import OpcodeTable.Proofs.Merging
import OpcodeTable.Proofs.Register
import OpcodeTable.Proofs.CatalogFile
import OpcodeTable.Proofs.Sorting
import OpcodeTable.Proofs.RunLog
import OpcodeTable.Proofs.LiveNames
import OpcodeTable.Proofs.Pending
import OpcodeTable.Proofs.Spellings
import OpcodeTable.Proofs.VerboseFlag
import OpcodeTable.Proofs.LoudReading
import OpcodeTable.Proofs.LogLevels
