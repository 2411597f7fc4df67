import TheKvm.Lib.Prefixed
import TheKvm.Protocol.Frame

/-!
Control messages as frames: a value as its JSON, behind its length in four bytes.

Requests and responses go through the same two functions, each type with its own JSON.
-/

namespace TheKvm

def maxControlFrameSize : ℕ := 64 * 1024

/-- `serde_json` at one type. -/
structure Serde (α : Type) where
  toVec : α → Except String (List UInt8)
  fromSlice : List UInt8 → Except String α

variable {α : Type}

/-- What the library is documented to do with a value: compact JSON, strings escaped as JSON has
it, and the reader decodes it. -/
structure Serde.Handles (serde : Serde α) (toJson : α → Json) (value : α) : Prop where
  encodes : serde.toVec value = .ok (toJson value).bytes
  decodes : serde.fromSlice (toJson value).bytes = .ok value

/-- A library that knows one value. -/
def Serde.knowing [DecidableEq α] (toJson : α → Json) (value : α) : Serde α where
  toVec v := if v = value then .ok (toJson value).bytes else .error "unknown value"
  fromSlice bytes := if bytes = (toJson value).bytes then .ok value else .error "expected value"

lemma Serde.knowing_handles [DecidableEq α] (toJson : α → Json) (value : α) :
    (knowing toJson value).Handles toJson value :=
  ⟨if_pos rfl, if_pos rfl⟩

/-- The bytes of a writer after `write_json_frame`. -/
def writeJsonFrame (serde : Serde α) (writer : List UInt8) (value : α) :
    IoResult (List UInt8) := do
  let payload ← invalidData (serde.toVec value)
  if payload.length = 0 ∨ maxControlFrameSize < payload.length then
    .error ⟨.invalidInput, "control message exceeds maximum frame size"⟩
  else
    return writer ++ Prefixed.frame payload

/-- `read_json_frame`, and the bytes left. A reader that ends inside the length has no message;
one that ends inside the payload is an error. -/
def readJsonFrame (serde : Serde α) (reader : List UInt8) : IoResult (Option α) × List UInt8 :=
  match Bytes.splitExact 4 reader with
  | none => (.ok none, [])
  | some (header, reader) =>
    let size := Bytes.ofBe header
    if size = 0 ∨ maxControlFrameSize < size then
      (.error ⟨.invalidData, "invalid control frame size: " ++ toString size⟩, reader)
    else
      match Bytes.splitExact size reader with
      | none => (.error ⟨.unexpectedEof, "early eof"⟩, [])
      | some (payload, reader) => ((invalidData (serde.fromSlice payload)).map some, reader)

/-- A value goes through: it is written, whatever was written before, and read back, whatever
follows. -/
def GoesThrough (serde : Serde α) (value : α) : Prop :=
  ∃ frame : List UInt8, (∀ writer, writeJsonFrame serde writer value = .ok (writer ++ frame)) ∧
    ∀ rest, readJsonFrame serde (frame ++ rest) = (.ok (some value), rest)

variable {serde : Serde α} {toJson : α → Json} {value : α}

/-- A value is written, unless its text is too long. -/
lemma writeJsonFrame_eq (h : serde.Handles toJson value) (writer : List UInt8) :
    writeJsonFrame serde writer value =
      if maxControlFrameSize < (toJson value).size then
        .error ⟨.invalidInput, "control message exceeds maximum frame size"⟩
      else .ok (writer ++ Prefixed.frame (toJson value).bytes) := by
  have hpos := Json.size_pos (toJson value)
  simp only [writeJsonFrame, h.encodes, invalidData, bind, Except.bind, Json.length_bytes]
  by_cases hlong : maxControlFrameSize < (toJson value).size
  · rw [if_pos (.inr hlong), if_pos hlong]
  · rw [if_neg (by omega), if_neg hlong]
    rfl

/-- A frame is taken off the reader whole. -/
lemma readJsonFrame_frame {payload : List UInt8} (hpos : 0 < payload.length)
    (hle : payload.length ≤ maxControlFrameSize) (rest : List UInt8) :
    readJsonFrame serde (Prefixed.frame payload ++ rest) =
      ((invalidData (serde.fromSlice payload)).map some, rest) := by
  have hsize : Bytes.ofBe (Bytes.toBe 4 payload.length) = payload.length :=
    Bytes.ofBe_toBe (lt_of_le_of_lt hle (by decide))
  rw [Prefixed.frame, List.append_assoc]
  simp only [readJsonFrame, Bytes.splitExact_append (Bytes.length_toBe 4 payload.length), hsize,
    Bytes.splitExact_append rfl]
  rw [if_neg (by omega)]

/-- **What goes through a control frame.** Exactly the values whose text fits, escapes and all. -/
theorem goesThrough_iff (h : serde.Handles toJson value) :
    GoesThrough serde value ↔ (toJson value).size ≤ maxControlFrameSize := by
  constructor
  · rintro ⟨frame, hwrite, -⟩
    by_contra hlong
    have hw := hwrite []
    rw [writeJsonFrame_eq h, if_pos (by omega)] at hw
    cases hw
  · intro hle
    have hpos := Json.size_pos (toJson value)
    refine ⟨Prefixed.frame (toJson value).bytes, fun writer => ?_, fun rest => ?_⟩
    · rw [writeJsonFrame_eq h, if_neg (by omega)]
    · rw [readJsonFrame_frame (by rwa [Json.length_bytes]) (by rwa [Json.length_bytes]),
        h.decodes]
      rfl

end TheKvm
