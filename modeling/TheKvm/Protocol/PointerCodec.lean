import TheKvm.Protocol.Udp

/-!
The codec of pointer updates, bare and under the keys of the UDP motion path.
-/

namespace TheKvm

/-- The events that may be lost: they go as datagrams. -/
def InputEvent.isPointer : InputEvent → Bool
  | .mouseMove _ _ | .wheel _ | .smoothWheel _ _ => true
  | _ => false

/-- A pointer update is encoded, within the limit. -/
lemma encodeInputDatagram_pointer {packet : DatagramInput} (h : packet.event.isPointer = true) :
    ∃ payload, encodeInputDatagram packet = .ok payload ∧ payload.length ≤ maxDatagramSize := by
  obtain ⟨sequence, event⟩ := packet
  cases event with
  | mouseMove dx dy => exact ⟨_, rfl, by simp [maxDatagramSize]⟩
  | wheel delta => exact ⟨_, rfl, by simp [maxDatagramSize]⟩
  | smoothWheel x y => exact ⟨_, rfl, by simp [maxDatagramSize]⟩
  | _ => cases h

/-- No other event is. -/
lemma encodeInputDatagram_other {packet : DatagramInput} (h : packet.event.isPointer = false) :
    encodeInputDatagram packet =
      .error ⟨.invalidInput, "only pointer motion and wheel events may use datagrams"⟩ := by
  obtain ⟨sequence, event⟩ := packet
  cases event with
  | mouseMove dx dy => cases h
  | wheel delta => cases h
  | smoothWheel x y => cases h
  | _ => rfl

variable {Key : Type} [DecidableEq Key]

/-- **The pointer codec**. Pointer updates and the payloads that decode are one to one, and a
motion packet reads, under a ring with its key, as that update under the first such key. -/
theorem pointer_codec (aead : Aead Key) :
    (∀ packet : DatagramInput, packet.event.isPointer = true →
      ∃ payload, encodeInputDatagram packet = .ok payload ∧ payload.length ≤ maxDatagramSize ∧
        decodeInputDatagram payload = .ok packet) ∧
    (∀ packet : DatagramInput, packet.event.isPointer = false →
      ∃ error, encodeInputDatagram packet = .error error) ∧
    (∀ payload packet, decodeInputDatagram payload = .ok packet →
      encodeInputDatagram packet = .ok payload) ∧
    (aead.Lawful → aead.KeyBound → ∀ nonce : Nonce, ∀ (keys : List Key), ∀ key ∈ keys,
      ∀ (seq : UInt64) (dx dy : Int32), ∃ datagram,
        encodeMotionPacket aead nonce key seq dx dy = .ok datagram ∧
          decodeMotionPacket aead keys datagram = .ok (keys.idxOf key, seq, dx, dy)) := by
  refine ⟨fun packet hpointer => ?_, fun packet hother => ?_, ?_, ?_⟩
  · obtain ⟨payload, hencode, hsize⟩ := encodeInputDatagram_pointer hpointer
    exact ⟨payload, hencode, hsize, decodeInputDatagram_encode hencode⟩
  · exact ⟨_, encodeInputDatagram_other hother⟩
  · exact fun payload packet => encodeInputDatagram_decode
  · intro hlawful hbound nonce keys key hkey seq dx dy
    refine ⟨_, rfl, decodeMotionPacket_encode hlawful ?_ nonce.property hkey rfl⟩
    exact fun k _ hne plaintext => hbound key k nonce plaintext hne

/-- A move under the second of three keys. -/
theorem pointer_codec_second_key :
    ∃ datagram, encodeMotionPacket Aead.clear (Nonce.fill 7) 9 5 (-3) 4 = .ok datagram ∧
      decodeMotionPacket Aead.clear [8, 9, 9] datagram = .ok (1, 5, -3, 4) :=
  (pointer_codec Aead.clear).2.2.2 Aead.clear_lawful Aead.clear_keyBound (Nonce.fill 7) [8, 9, 9] 9
    (by decide) 5 (-3) 4

end TheKvm
