import TheKvm.Lib.Bytes
import TheKvm.Lib.Framing

/-!
Frames behind their length in four bytes, read piece by piece.

What a reader gets may carry more than its bytes, such as where each is from; `value` is the
byte. A read takes a whole frame, or the length alone if that is over the limit.
-/

namespace TheKvm.Prefixed

open Framing (Lane)

def frame (payload : List UInt8) : List UInt8 := Bytes.toBe 4 payload.length ++ payload

/-- What a read finds in the bytes it can get. -/
inductive Found (β : Type*)
  | more
  | invalid (rest : List β)
  | whole (read rest : List β)

variable {β : Type*} (value : β → UInt8) (limit : ℕ)

def find (bytes : List β) : Found β :=
  if bytes.length < 4 then .more
  else
    let size := Bytes.ofBe ((bytes.take 4).map value)
    if limit < size then .invalid (bytes.drop 4)
    else if bytes.length < 4 + size then .more
    else .whole (bytes.take (4 + size)) (bytes.drop (4 + size))

/-- The payload of a frame that was read. -/
def payload (read : List β) : List UInt8 := (read.drop 4).map value

/-- These are the bytes of a frame within the limit. -/
def IsFrame (bytes : List β) : Prop :=
  ∃ content, bytes.map value = frame content ∧ content.length ≤ limit

variable {value : β → UInt8} {limit : ℕ} {bytes part rest : List β}

lemma length_frame (content : List UInt8) : (frame content).length = 4 + content.length := by
  rw [frame, List.length_append, Bytes.length_toBe]

lemma payload_of_map {content : List UInt8} (h : bytes.map value = frame content) :
    payload value bytes = content := by
  rw [payload, List.map_drop, h, frame, List.drop_left' (Bytes.length_toBe 4 _)]

/-- The length that a frame starts with. -/
lemma IsFrame.size (hlimit : limit < 256 ^ 4) (h : IsFrame value limit (bytes ++ part))
    (hlen : 4 ≤ bytes.length) :
    Bytes.ofBe ((bytes.take 4).map value) + 4 = (bytes ++ part).length ∧
      Bytes.ofBe ((bytes.take 4).map value) ≤ limit := by
  obtain ⟨content, hmap, hle⟩ := h
  have hlength : (bytes ++ part).length = 4 + content.length := by
    rw [← length_frame, ← hmap, List.length_map]
  have hhead : (bytes.take 4).map value = Bytes.toBe 4 content.length := by
    have htake := congrArg (List.take 4) hmap
    rw [List.map_append, List.take_append_of_le_length (by rwa [List.length_map]), frame,
      List.take_left' (Bytes.length_toBe 4 _)] at htake
    rw [List.map_take, htake]
  rw [hhead, Bytes.ofBe_toBe (hle.trans_lt hlimit), hlength]
  exact ⟨Nat.add_comm _ _, hle⟩

/-- A part of a frame asks for more. -/
lemma find_part (hlimit : limit < 256 ^ 4) (h : IsFrame value limit (bytes ++ part))
    (hpart : part ≠ []) : find value limit bytes = .more := by
  unfold find
  by_cases hlen : bytes.length < 4
  · rw [if_pos hlen]
  · obtain ⟨hsize, hle⟩ := h.size hlimit (not_lt.mp hlen)
    have hpos : 0 < part.length := List.length_pos_iff.mpr hpart
    rw [List.length_append] at hsize
    rw [if_neg hlen]
    dsimp only
    rw [if_neg (not_lt.mpr hle), if_pos (by omega)]

/-- A frame is found whole, whatever follows. -/
lemma find_whole (hlimit : limit < 256 ^ 4) (h : IsFrame value limit bytes) (rest : List β) :
    find value limit (bytes ++ rest) = .whole bytes rest := by
  have hlen : 4 ≤ bytes.length := by
    obtain ⟨content, hmap, -⟩ := h
    have hlength := congrArg List.length hmap
    rw [List.length_map, length_frame] at hlength
    omega
  have hwhole : IsFrame value limit (bytes ++ []) := by rwa [List.append_nil]
  obtain ⟨hsize, hle⟩ := hwhole.size hlimit hlen
  rw [List.append_nil] at hsize
  have hhead : (bytes ++ rest).take 4 = bytes.take 4 := List.take_append_of_le_length hlen
  have htotal : 4 + Bytes.ofBe ((bytes.take 4).map value) = bytes.length := by omega
  unfold find
  dsimp only
  rw [hhead, if_neg (by rw [List.length_append]; omega), if_neg (not_lt.mpr hle),
    if_neg (by rw [List.length_append]; omega), htotal, List.take_left, List.drop_left]

/-! ### Lanes of frames -/

section

variable (value limit)

/-- The bytes a read can get. -/
def available {μ : Type*} (l : Lane β μ) : List β := l.taken ++ l.buffered

/-- One go of a read; a frame that was read is handled as its bytes. -/
def read (l : Lane β (List β)) : Lane β (List β) :=
  match find value limit (available l) with
  | .more => l.pend
  | .invalid rest => l.finishRead none rest
  | .whole read rest => l.finishRead (some read) rest

end

variable {written : List (List β)} {l : Lane β (List β)}

/-- In step, a read finds a part of what was written next, or the whole of it. -/
lemma find_of_inStep (hlimit : limit < 256 ^ 4) (hframes : ∀ f ∈ written, IsFrame value limit f)
    (h : l.InStep id written) : find value limit (available l) = .more ∨
      ∃ f ∈ written, ∃ rest, find value limit (available l) = .whole f rest ∧
        (l.finishRead (some f) rest).InStep id written := by
  rcases h.cases with hnil | ⟨f, hf, part, hpart, hbytes, -⟩ | ⟨f, hf, rest, hbytes, hstep⟩
  · left
    rw [Lane.unread, ← List.append_assoc] at hnil
    rw [available, (List.append_eq_nil_iff.mp hnil).1]
    rfl
  · left
    have hframe := hframes f hf
    rw [show f = available l ++ part from hbytes] at hframe
    exact find_part hlimit hframe hpart
  · right
    refine ⟨f, hf, rest, ?_, hstep⟩
    rw [show available l = f ++ rest from hbytes]
    exact find_whole hlimit (hframes f hf) rest

/-- A read stays in step. -/
lemma inStep_read (hlimit : limit < 256 ^ 4) (hframes : ∀ f ∈ written, IsFrame value limit f)
    (h : l.InStep id written) : (read value limit l).InStep id written := by
  unfold read
  rcases find_of_inStep hlimit hframes h with hmore | ⟨f, -, rest, hwhole, hstep⟩
  · rw [hmore]
    exact h.pend
  · rw [hwhole]
    exact hstep

end TheKvm.Prefixed
