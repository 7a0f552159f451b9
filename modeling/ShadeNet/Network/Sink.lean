/-
# Where records go

A sink takes records and plain remarks in order and never forgets any. One kind
keeps the records, the other writes text and may have room for so many bytes
only: what fits of the write that does not is still there.

Key definitions: `Entry`, `recordsOf`, `TextSink.write`, `Sink.write`, `Sink.recordList`,
`TextSink.bytes`.
-/
import ShadeNet.Network.Record

namespace ShadeNet

/-- One write. -/
inductive Entry
  /-- A complete record. -/
  | record (record : Record)
  /-- Text that is no record, such as a comment. -/
  | remark (text : String)
deriving DecidableEq

/-- The text of a write. -/
def Entry.text : Entry → String
  | record r => r.text
  | remark text => text

/-- Whether a write is a record. -/
def Entry.isRecord : Entry → Bool
  | record _ => true
  | remark _ => false

/-- The record of a write that is one. -/
def Entry.record? : Entry → Option Record
  | record r => some r
  | remark _ => none

/-- The records among entries. -/
def recordsOf (entries : List Entry) : List Record := entries.filterMap Entry.record?

@[simp] theorem recordsOf_nil : recordsOf [] = [] := rfl

@[simp] theorem recordsOf_append (a b : List Entry) :
    recordsOf (a ++ b) = recordsOf a ++ recordsOf b := List.filterMap_append

/-- Records kept in memory. -/
structure RecordSink where
  /-- The records, oldest first. -/
  records : List Record := []
  /-- The remarks, oldest first. -/
  remarks : List String := []
deriving DecidableEq

/-- Keeps one write. -/
def RecordSink.write (s : RecordSink) : Entry → RecordSink
  | .record r => { s with records := s.records ++ [r] }
  | .remark text => { s with remarks := s.remarks ++ [text] }

/-- Text written one record after another. -/
structure TextSink where
  /-- The text of the writes that went through. -/
  text : String := ""
  /-- The bytes that fitted of a write that did not. -/
  rest : List UInt8 := []
  /-- The number of records that went through. -/
  count : Nat := 0
  /-- The number of bytes that there is still room for, if that is limited. -/
  room : Option Nat := none
deriving DecidableEq

/-- The bytes of a text. -/
def utf8 (text : String) : List UInt8 := text.toList.flatMap String.utf8EncodeChar

namespace TextSink

/-- Everything written, in bytes. -/
def bytes (s : TextSink) : List UInt8 := utf8 s.text ++ s.rest

/-- Writes an entry, and whether all of it fitted. -/
def write (s : TextSink) (e : Entry) : TextSink × Bool :=
  let stored : TextSink :=
    { s with text := s.text ++ e.text, count := s.count + if e.isRecord then 1 else 0 }
  match s.room with
  | none => (stored, true)
  | some room =>
    if e.text.utf8ByteSize ≤ room then
      ({ stored with room := some (room - e.text.utf8ByteSize) }, true)
    else ({ s with rest := s.rest ++ (utf8 e.text).take room, room := some 0 }, false)

end TextSink

/-- The destination of a compiled network. -/
inductive Sink
  | records (sink : RecordSink)
  | text (sink : TextSink)
deriving DecidableEq

namespace Sink

/-- Writes an entry, and whether it went through. -/
def write : Sink → Entry → Sink × Bool
  | records s, e => (records (s.write e), true)
  | text s, e => ((text (s.write e).1), (s.write e).2)

/-- The text of the writes that went through. -/
def writtenText : Sink → String
  | records _ => ""
  | text s => s.text

/-- The number of records that went through. -/
def recordCount : Sink → Nat
  | records s => s.records.length
  | text s => s.count

/-- The records kept in memory. -/
def recordList : Sink → List Record
  | records s => s.records
  | text _ => []

/-- The remarks kept in memory. -/
def remarkList : Sink → List String
  | records s => s.remarks
  | text _ => []

end Sink

end ShadeNet
