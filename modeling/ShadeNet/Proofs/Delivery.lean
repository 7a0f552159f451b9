/-
# A sink only grows

A sink is written to one entry after another. What it held before stays in front
of what it holds afterwards, and a sink without a limit takes every entry whole.

Key definitions: `Sink.writeAll`, `Sink.GrowsTo`, `Sink.Received`, `Sink.unlimited`.
Key theorems: `Sink.growsTo_writeAll`, `Sink.Received.holds`, `Sink.write_of_unlimited`.
-/
import ShadeNet.Network.Sink

namespace ShadeNet

theorem utf8_append (a b : String) : utf8 (a ++ b) = utf8 a ++ utf8 b := by
  simp [utf8]

namespace TextSink

/-- What is left of a sink into which an entry fits, with the room there is then. -/
def take (s : TextSink) (e : Entry) (room : Option Nat) : TextSink :=
  { s with
    text := s.text ++ e.text
    count := s.count + if e.isRecord then 1 else 0
    room := room }

theorem write_of_room_none {s : TextSink} (h : s.room = none) (e : Entry) :
    s.write e = (s.take e none, true) := by
  simp [write, take, h]

theorem write_of_room {s : TextSink} {room : Nat} (h : s.room = some room) (e : Entry) :
    s.write e = if e.text.utf8ByteSize ≤ room then
        (s.take e (some (room - e.text.utf8ByteSize)), true)
      else ({ s with rest := s.rest ++ (utf8 e.text).take room, room := some 0 }, false) := by
  simp [write, take, h]

/-- Once an entry was cut off there is no room for another one. -/
def Sound (s : TextSink) : Prop := s.rest ≠ [] → s.room = some 0

/-- A sink with room has cut nothing off. -/
theorem Sound.rest_nil {s : TextSink} (h : s.Sound) (hr : s.room ≠ some 0) : s.rest = [] := by
  by_cases hs : s.rest = []
  · exact hs
  · exact absurd (h hs) hr

theorem sound_write {s : TextSink} (h : s.Sound) (e : Entry) : (s.write e).1.Sound := by
  rcases hr : s.room with _ | room
  · rw [write_of_room_none hr]
    exact fun hs => absurd (h.rest_nil (by simp [hr])) hs
  · rw [write_of_room hr]
    split
    · intro hs
      have hz : room = 0 := by simpa [hr] using h hs
      simp [take, hz]
    · exact fun _ => rfl

/-- What was written before an entry stays in front of it. -/
theorem bytes_prefix_write {s : TextSink} (h : s.Sound) (e : Entry) :
    s.bytes <+: (s.write e).1.bytes := by
  rcases hr : s.room with _ | room
  · rw [write_of_room_none hr]
    simp [bytes, take, utf8_append, h.rest_nil (by simp [hr])]
  · rw [write_of_room hr]
    split
    · rename_i hroom
      by_cases hz : room = 0
      · -- no room is left, so the entry is empty
        have he : e.text = "" := String.utf8ByteSize_eq_zero_iff.mp (by omega)
        simp [bytes, take, he]
      · simp [bytes, take, utf8_append, h.rest_nil (by simp [hr, hz])]
    · simp [bytes]

end TextSink

namespace Sink

/-- The sink after some entries, each of which went through or was cut off. -/
def writeAll (sink : Sink) (entries : List Entry) : Sink :=
  entries.foldl (fun s e => (s.write e).1) sink

@[simp] theorem writeAll_nil (sink : Sink) : sink.writeAll [] = sink := rfl

@[simp] theorem writeAll_append (sink : Sink) (a b : List Entry) :
    sink.writeAll (a ++ b) = (sink.writeAll a).writeAll b := List.foldl_append

/-- Records that are kept in memory are kept in order. -/
theorem recordList_writeAll (s : RecordSink) (entries : List Entry) :
    ((records s).writeAll entries).recordList = s.records ++ recordsOf entries := by
  induction entries generalizing s with
  | nil => exact (List.append_nil _).symm
  | cons e rest ih =>
    refine (ih (s.write e)).trans ?_
    cases e with
    | record r => exact List.append_assoc _ [r] _
    | remark text => rfl

/-- Everything a sink held is in front of what it holds later. -/
def GrowsTo : Sink → Sink → Prop
  | records s, records t => s.records <+: t.records ∧ s.remarks <+: t.remarks
  | text s, text t => s.Sound → t.Sound ∧ s.bytes <+: t.bytes
  | _, _ => False

@[refl] theorem GrowsTo.refl : ∀ s : Sink, s.GrowsTo s
  | records _ => ⟨List.prefix_refl _, List.prefix_refl _⟩
  | text _ => fun h => ⟨h, List.prefix_refl _⟩

theorem GrowsTo.trans : ∀ {s t u : Sink}, s.GrowsTo t → t.GrowsTo u → s.GrowsTo u
  | records _, records _, records _, h, k => ⟨h.1.trans k.1, h.2.trans k.2⟩
  | text _, text _, text _, h, k => fun hs =>
    have ht := h hs
    have hu := k ht.1
    ⟨hu.1, ht.2.trans hu.2⟩
  | records _, records _, text _, _, k => k.elim
  | records _, text _, _, h, _ => h.elim
  | text _, records _, _, h, _ => h.elim
  | text _, text _, records _, _, k => k.elim

theorem growsTo_write : ∀ (s : Sink) (e : Entry), s.GrowsTo (s.write e).1
  | records _, .record _ => ⟨List.prefix_append _ _, List.prefix_refl _⟩
  | records _, .remark _ => ⟨List.prefix_refl _, List.prefix_append _ _⟩
  | text _, e => fun h => ⟨TextSink.sound_write h e, TextSink.bytes_prefix_write h e⟩

theorem growsTo_writeAll (s : Sink) (entries : List Entry) : s.GrowsTo (s.writeAll entries) := by
  induction entries generalizing s with
  | nil => exact GrowsTo.refl s
  | cons e rest ih => exact (growsTo_write s e).trans (ih _)

/-- On the way from one sink to a later one, a record went through whole. -/
def Received (start now : Sink) (r : Record) : Prop :=
  ∃ earlier later : List Entry, ((start.writeAll earlier).write (.record r)).2 = true ∧
    now = start.writeAll (earlier ++ .record r :: later)

/-- A record is among those that are kept, or its text is a part of the text. -/
def Holds : Sink → Record → Prop
  | records s, r => r ∈ s.records
  | text s, r => ∃ before behind, s.text = before ++ r.text ++ behind

/-- What a sink holds it still holds later. -/
theorem Holds.write : ∀ {s : Sink} {r : Record}, s.Holds r → ∀ e, (s.write e).1.Holds r
  | records s, r, h, .record q => List.mem_append_left _ (h : r ∈ s.records)
  | records s, r, h, .remark _ => (h : r ∈ s.records)
  | text s, r, ⟨before, behind, h⟩, e => by
    rcases hr : s.room with _ | room
    · rw [Sink.write, TextSink.write_of_room_none hr]
      exact ⟨before, behind ++ e.text, by simp [TextSink.take, h, String.append_assoc]⟩
    · rw [Sink.write, TextSink.write_of_room hr]
      split
      · exact ⟨before, behind ++ e.text, by simp [TextSink.take, h, String.append_assoc]⟩
      · exact ⟨before, behind, h⟩

/-- A record that goes through whole is held. -/
theorem holds_of_write : ∀ {s : Sink} {r : Record}, (s.write (.record r)).2 = true →
    (s.write (.record r)).1.Holds r
  | records s, r, _ => List.mem_append_right s.records (List.mem_singleton.mpr rfl)
  | text s, r, h => by
    rcases hr : s.room with _ | room
    · rw [Sink.write, TextSink.write_of_room_none hr]
      exact ⟨s.text, "", by simp [TextSink.take, Entry.text]⟩
    · rw [Sink.write, TextSink.write_of_room hr] at h ⊢
      split
      · exact ⟨s.text, "", by simp [TextSink.take, Entry.text]⟩
      · rename_i hcut
        rw [if_neg hcut] at h
        cases h

namespace Received

variable {start first now : Sink} {r : Record}

/-- What was received is there. -/
theorem holds (h : start.Received now r) : now.Holds r := by
  obtain ⟨earlier, later, hwhole, rfl⟩ := h
  rw [writeAll_append]
  show (((start.writeAll earlier).write (.record r)).1.writeAll later).Holds r
  have hlater : ∀ (entries : List Entry) (s : Sink), s.Holds r → (s.writeAll entries).Holds r := by
    intro entries
    induction entries with
    | nil => exact fun s h => h
    | cons e rest ih => exact fun s h => ih _ (h.write e)
  exact hlater later _ (holds_of_write hwhole)

theorem write (h : (now.write (.record r)).2 = true) (earlier : List Entry)
    (hnow : now = start.writeAll earlier) : start.Received (now.write (.record r)).1 r :=
  ⟨earlier, [], hnow ▸ h, by rw [hnow, writeAll_append]; rfl⟩

theorem later (h : start.Received now r) (entries : List Entry) :
    start.Received (now.writeAll entries) r := by
  obtain ⟨earlier, later, hwhole, rfl⟩ := h
  exact ⟨earlier, later ++ entries, hwhole, by rw [← writeAll_append, List.append_assoc]; rfl⟩

theorem earlier (entries : List Entry) (h : (first.writeAll entries).Received now r) :
    first.Received now r := by
  obtain ⟨earlier, later, hwhole, rfl⟩ := h
  refine ⟨entries ++ earlier, later, by rwa [writeAll_append], ?_⟩
  rw [List.append_assoc, writeAll_append first]

end Received

/-- Whether a sink takes any number of entries. -/
def unlimited : Sink → Bool
  | records _ => true
  | text s => s.room.isNone

/-- An entry goes through whole where there is no limit. -/
theorem write_of_unlimited {s : Sink} (h : s.unlimited = true) (e : Entry) :
    (s.write e).2 = true ∧ (s.write e).1.unlimited = true := by
  cases s with
  | records s => exact ⟨rfl, rfl⟩
  | text s =>
    have hr : s.room = none := by simpa [unlimited] using h
    rw [write, TextSink.write_of_room_none hr]
    exact ⟨rfl, rfl⟩

theorem unlimited_writeAll {s : Sink} (h : s.unlimited = true) (entries : List Entry) :
    (s.writeAll entries).unlimited = true := by
  induction entries generalizing s with
  | nil => exact h
  | cons e rest ih => exact ih (write_of_unlimited h e).2

end Sink

end ShadeNet
