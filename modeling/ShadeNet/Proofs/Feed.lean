/-
# What a sink takes of a list of entries

Entries are written one after another until one of them does not go through. A sink that keeps
records takes all of them; a text without a limit is the texts of the entries in order; and a text
with room for so many bytes gets that many bytes of it, wherever the cut falls, and counts the
records that are whole.

Key definitions: `Sink.feed`, `textOf`, `recordsWithin`, `Sink.writtenBytes`.
Key theorems: `Sink.feed_append`, `Sink.feed_records`, `Sink.feed_text`, `Sink.feed_text_room`.
-/
import ShadeNet.Proofs.Delivery

namespace ShadeNet

/-- The text of entries that are written one after another. -/
def textOf (entries : List Entry) : String := String.join (entries.map Entry.text)

/-- The number of records whose last byte is within the first `room` bytes of the text. -/
def recordsWithin (room : Nat) (entries : List Entry) : Nat :=
  (List.range entries.length).countP fun place =>
    (entries[place]?.any Entry.isRecord) &&
      decide ((utf8 (textOf (entries.take (place + 1)))).length ≤ room)

@[simp] theorem textOf_nil : textOf [] = "" := rfl

theorem textOf_append (a b : List Entry) : textOf (a ++ b) = textOf a ++ textOf b := by
  simp [textOf, String.join_append]

theorem textOf_cons (e : Entry) (rest : List Entry) : textOf (e :: rest) = e.text ++ textOf rest :=
  textOf_append [e] rest

theorem length_recordsOf_cons (e : Entry) (rest : List Entry) :
    (recordsOf (e :: rest)).length = (if e.isRecord then 1 else 0) + (recordsOf rest).length := by
  cases e with
  | record r => exact Nat.add_comm _ 1
  | remark text => exact (Nat.zero_add _).symm

/-! ### Bytes -/

theorem length_utf8 (text : String) : (utf8 text).length = text.utf8ByteSize := by
  have hbytes : (utf8 text).toByteArray = text.toByteArray := by
    rw [← String.utf8Encode_toList]
    rfl
  rw [← List.size_toByteArray, hbytes]
  rfl

theorem length_utf8_textOf_cons (e : Entry) (rest : List Entry) :
    (utf8 (textOf (e :: rest))).length = e.text.utf8ByteSize + (utf8 (textOf rest)).length := by
  rw [textOf_cons, utf8_append, List.length_append, length_utf8]

/-- An entry that fits leaves less room for the ones behind it. -/
theorem recordsWithin_cons {room : Nat} {e : Entry} (h : e.text.utf8ByteSize ≤ room)
    (rest : List Entry) : recordsWithin room (e :: rest) =
      (if e.isRecord then 1 else 0) + recordsWithin (room - e.text.utf8ByteSize) rest := by
  unfold recordsWithin
  rw [List.length_cons, List.range_succ_eq_map, List.countP_cons, List.countP_map, Nat.add_comm]
  congr 1
  · simp [textOf_cons, length_utf8, h]
  · refine List.countP_congr fun place _ => ?_
    have hsize : (utf8 (textOf (e :: rest.take (place + 1)))).length ≤ room ↔
        (utf8 (textOf (rest.take (place + 1)))).length ≤ room - e.text.utf8ByteSize := by
      rw [length_utf8_textOf_cons]
      omega
    simp [hsize]

/-- Behind an entry that does not fit nothing is whole. -/
theorem recordsWithin_of_lt {room : Nat} {e : Entry} (h : room < e.text.utf8ByteSize)
    (rest : List Entry) : recordsWithin room (e :: rest) = 0 := by
  refine List.countP_eq_zero.mpr fun place _ => ?_
  have hsize : ¬ (utf8 (textOf ((e :: rest).take (place + 1)))).length ≤ room := by
    rw [List.take_succ_cons, length_utf8_textOf_cons]
    omega
  simp only [hsize, decide_false, Bool.and_false, Bool.false_eq_true, not_false_eq_true]

/-! ### Sinks -/

namespace Sink

/-- The bytes of the writes that went through and of the one that did in part. -/
def writtenBytes : Sink → List UInt8
  | records _ => []
  | text s => s.bytes

/-- The sink after entries up to the first one that does not go through, and whether all do. -/
def feed (sink : Sink) : List Entry → Sink × Bool
  | [] => (sink, true)
  | e :: rest =>
    if (sink.write e).2 then (sink.write e).1.feed rest else ((sink.write e).1, false)

theorem feed_append (sink : Sink) (a b : List Entry) :
    sink.feed (a ++ b) = if (sink.feed a).2 then (sink.feed a).1.feed b else sink.feed a := by
  induction a generalizing sink with
  | nil => rfl
  | cons e rest ih =>
    rw [List.cons_append, feed, feed]
    split
    · exact ih _
    · rfl

/-- Records are kept in order. -/
theorem feed_records (s : RecordSink) (entries : List Entry) :
    ((records s).feed entries).2 = true ∧
      ((records s).feed entries).1.recordList = s.records ++ recordsOf entries := by
  induction entries generalizing s with
  | nil => exact ⟨rfl, (List.append_nil _).symm⟩
  | cons e rest ih =>
    obtain ⟨hwhole, hrecords⟩ := ih (s.write e)
    refine ⟨hwhole, hrecords.trans ?_⟩
    cases e with
    | record r => exact List.append_assoc _ [r] _
    | remark text => rfl

/-- Without a limit the text is the texts of the entries in order. -/
theorem feed_text {s : TextSink} (hr : s.room = none) (entries : List Entry) :
    (text s).feed entries = (text { s with
      text := s.text ++ textOf entries
      count := s.count + (recordsOf entries).length }, true) := by
  induction entries generalizing s with
  | nil => simp [feed, recordsOf]
  | cons e rest ih =>
    have hwrite : (text s).write e = (text (s.take e none), true) := by
      rw [write, TextSink.write_of_room_none hr]
    rw [feed, hwrite, if_pos rfl, ih (s := s.take e none) rfl, textOf_cons, length_recordsOf_cons]
    simp only [TextSink.take, String.append_assoc, Nat.add_assoc, hr]

/-- With room for some bytes the text gets these bytes of the whole, and fails if there are more. -/
theorem feed_text_room {s : TextSink} {room : Nat} (hr : s.room = some room) (hrest : s.rest = [])
    (entries : List Entry) :
    (((text s).feed entries).2 = true ↔ (utf8 (textOf entries)).length ≤ room) ∧
      ((text s).feed entries).1.writtenBytes = s.bytes ++ (utf8 (textOf entries)).take room ∧
      ((text s).feed entries).1.recordCount = s.count + recordsWithin room entries := by
  induction entries generalizing s room with
  | nil =>
    refine ⟨?_, ?_, rfl⟩
    · simp [feed, utf8]
    · simp [feed, utf8, writtenBytes]
  | cons e rest ih =>
    by_cases hfits : e.text.utf8ByteSize ≤ room
    · have hwrite : (text s).write e =
          (text (s.take e (some (room - e.text.utf8ByteSize))), true) := by
        rw [write, TextSink.write_of_room hr, if_pos hfits]
      have hbytes : (s.take e (some (room - e.text.utf8ByteSize))).bytes =
          s.bytes ++ utf8 e.text := by
        simp [TextSink.bytes, TextSink.take, hrest, utf8_append]
      obtain ⟨hwhole, htaken, hcount⟩ :=
        ih (s := s.take e (some (room - e.text.utf8ByteSize))) rfl hrest
      rw [feed, hwrite, if_pos rfl]
      refine ⟨?_, ?_, ?_⟩
      · rw [hwhole, length_utf8_textOf_cons]
        omega
      · have hall : (utf8 e.text).take room = utf8 e.text :=
          List.take_of_length_le (by rwa [length_utf8])
        rw [htaken, hbytes, textOf_cons, utf8_append, List.append_assoc, List.take_append, hall,
          length_utf8]
      · rw [hcount, recordsWithin_cons hfits, ← Nat.add_assoc]
        rfl
    · have hwrite : (text s).write e =
          (text { s with rest := s.rest ++ (utf8 e.text).take room, room := some 0 }, false) := by
        rw [write, TextSink.write_of_room hr, if_neg hfits]
      rw [feed, hwrite, if_neg (by simp)]
      refine ⟨?_, ?_, ?_⟩
      · rw [length_utf8_textOf_cons]
        simp
        omega
      · rw [textOf_cons, utf8_append,
          List.take_append_of_le_length (by rw [length_utf8]; omega)]
        simp [writtenBytes, TextSink.bytes, hrest]
      · rw [recordsWithin_of_lt (by omega)]
        rfl

end Sink

end ShadeNet
