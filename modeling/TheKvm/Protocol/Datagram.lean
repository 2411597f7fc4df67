import TheKvm.Lib.Bytes
import TheKvm.Protocol.Wire

/-!
Pointer updates as datagrams: version, kind, sequence, then the fields of the event, all
big-endian.
-/

namespace TheKvm

def maxDatagramSize : ℕ := 1200
def datagramMouseMove : UInt8 := 1
def datagramWheel : UInt8 := 2
def datagramSmoothWheel : UInt8 := 3
def datagramVersion : UInt8 := 1
def datagramMouseMoveSize : ℕ := 18
def datagramWheelSize : ℕ := 14
def datagramSmoothWheelSize : ℕ := 18

/-- The source's `DatagramInput` has the fields of an `InputPacket`. -/
abbrev DatagramInput := InputPacket

namespace Bytes

/-- `to_be_bytes` of a `u64`, an `i32` and an `i16`. -/
def ofUInt64 (n : UInt64) : List UInt8 := toBe 8 n.toNat
def ofInt32 (n : Int32) : List UInt8 := toBe 4 n.toUInt32.toNat
def ofInt16 (n : Int16) : List UInt8 := toBe 2 n.toUInt16.toNat

def readU64 (bytes : List UInt8) : UInt64 := .ofNat (ofBe bytes)
def readI32 (bytes : List UInt8) : Int32 := (UInt32.ofNat (ofBe bytes)).toInt32
def readI16 (bytes : List UInt8) : Int16 := (UInt16.ofNat (ofBe bytes)).toInt16

/-- `bytes[from..to]`. -/
def slice (bytes : List UInt8) (start stop : ℕ) : List UInt8 :=
  (bytes.drop start).take (stop - start)

end Bytes

def encodeInputDatagram (packet : DatagramInput) : IoResult (List UInt8) :=
  match packet.event with
  | .mouseMove dx dy =>
    .ok ([datagramVersion, datagramMouseMove] ++ Bytes.ofUInt64 packet.sequence ++
      Bytes.ofInt32 dx ++ Bytes.ofInt32 dy)
  | .wheel delta =>
    .ok ([datagramVersion, datagramWheel] ++ Bytes.ofUInt64 packet.sequence ++
      Bytes.ofInt16 delta.x ++ Bytes.ofInt16 delta.y)
  | .smoothWheel x y =>
    .ok ([datagramVersion, datagramSmoothWheel] ++ Bytes.ofUInt64 packet.sequence ++
      Bytes.ofInt32 x ++ Bytes.ofInt32 y)
  | _ => .error ⟨.invalidInput, "only pointer motion and wheel events may use datagrams"⟩

def decodeInputDatagram (payload : List UInt8) : IoResult DatagramInput :=
  if maxDatagramSize < payload.length then .error ⟨.invalidData, "invalid input datagram size"⟩
  else match payload with
  | [] => .error ⟨.invalidData, "empty input datagram"⟩
  | version :: rest =>
    if version ≠ datagramVersion then
      .error ⟨.invalidData, "unsupported input datagram version"⟩
    else match rest with
    | [] => .error ⟨.invalidData, "missing input datagram kind"⟩
    | kind :: _ =>
      let sequence := Bytes.readU64 (Bytes.slice payload 2 10)
      if kind = datagramMouseMove ∧ payload.length = datagramMouseMoveSize then
        .ok ⟨sequence, .mouseMove (Bytes.readI32 (Bytes.slice payload 10 14))
          (Bytes.readI32 (Bytes.slice payload 14 18))⟩
      else if kind = datagramWheel ∧ payload.length = datagramWheelSize then
        .ok ⟨sequence, .wheel ⟨Bytes.readI16 (Bytes.slice payload 10 12),
          Bytes.readI16 (Bytes.slice payload 12 14)⟩⟩
      else if kind = datagramSmoothWheel ∧ payload.length = datagramSmoothWheelSize then
        .ok ⟨sequence, .smoothWheel (Bytes.readI32 (Bytes.slice payload 10 14))
          (Bytes.readI32 (Bytes.slice payload 14 18))⟩
      else .error ⟨.invalidData, "invalid input datagram kind or size"⟩

/-! ### Round trip -/

namespace Bytes

@[simp] lemma length_ofUInt64 (n : UInt64) : (ofUInt64 n).length = 8 := length_toBe _ _
@[simp] lemma length_ofInt32 (n : Int32) : (ofInt32 n).length = 4 := length_toBe _ _
@[simp] lemma length_ofInt16 (n : Int16) : (ofInt16 n).length = 2 := length_toBe _ _

@[simp] lemma readU64_ofUInt64 (n : UInt64) : readU64 (ofUInt64 n) = n := by
  rw [readU64, ofUInt64, ofBe_toBe n.toNat_lt, UInt64.ofNat_toNat]

@[simp] lemma readI32_ofInt32 (n : Int32) : readI32 (ofInt32 n) = n := by
  rw [readI32, ofInt32, ofBe_toBe n.toUInt32.toNat_lt, UInt32.ofNat_toNat]
  rfl

@[simp] lemma readI16_ofInt16 (n : Int16) : readI16 (ofInt16 n) = n := by
  rw [readI16, ofInt16, ofBe_toBe n.toUInt16.toNat_lt, UInt16.ofNat_toNat]
  rfl

/-- A field between what comes before and after it. -/
lemma slice_field {before field rest : List UInt8} {start stop : ℕ}
    (hstart : before.length = start) (hstop : start + field.length = stop) :
    slice (before ++ field ++ rest) start stop = field := by
  subst hstart
  rw [slice, List.append_assoc, List.drop_left, show stop - before.length = field.length by omega,
    List.take_left]

end Bytes

/-- The fields of a datagram. -/
lemma slice_datagram (version kind : UInt8) (sequence first second : List UInt8)
    (hsequence : sequence.length = 8) (hwidth : first.length = second.length) :
    Bytes.slice ([version, kind] ++ sequence ++ first ++ second) 2 10 = sequence ∧
      Bytes.slice ([version, kind] ++ sequence ++ first ++ second) 10 (10 + first.length) = first ∧
      Bytes.slice ([version, kind] ++ sequence ++ first ++ second) (10 + first.length)
        (10 + 2 * first.length) = second := by
  refine ⟨?_, ?_, ?_⟩
  · rw [List.append_assoc _ first second]
    exact Bytes.slice_field rfl (by omega)
  · refine Bytes.slice_field ?_ rfl
    rw [List.length_append, hsequence]
    rfl
  · rw [← List.append_nil ([version, kind] ++ sequence ++ first ++ second)]
    refine Bytes.slice_field ?_ (by omega)
    rw [List.length_append, List.length_append, hsequence]
    rfl

/-- **Round trip.** What is encoded decodes to itself. -/
theorem decodeInputDatagram_encode {packet : DatagramInput} {payload : List UInt8}
    (h : encodeInputDatagram packet = .ok payload) : decodeInputDatagram payload = .ok packet := by
  obtain ⟨sequence, event⟩ := packet
  cases event with
  | mouseMove dx dy =>
    obtain rfl := Except.ok.inj h
    obtain ⟨hseq, hx, hy⟩ := slice_datagram datagramVersion datagramMouseMove
      (Bytes.ofUInt64 sequence) (Bytes.ofInt32 dx) (Bytes.ofInt32 dy) (by simp) (by simp)
    rw [Bytes.length_ofInt32] at hx hy
    simp only [decodeInputDatagram, List.cons_append, List.nil_append,
      List.append_assoc] at hseq hx hy ⊢
    simp [hseq, hx, hy, maxDatagramSize, datagramMouseMoveSize]
  | wheel delta =>
    obtain rfl := Except.ok.inj h
    obtain ⟨hseq, hx, hy⟩ := slice_datagram datagramVersion datagramWheel
      (Bytes.ofUInt64 sequence) (Bytes.ofInt16 delta.x) (Bytes.ofInt16 delta.y) (by simp) (by simp)
    rw [Bytes.length_ofInt16] at hx hy
    simp only [decodeInputDatagram, List.cons_append, List.nil_append,
      List.append_assoc] at hseq hx hy ⊢
    have hkind : datagramWheel ≠ datagramMouseMove := by decide
    simp [hseq, hx, hy, maxDatagramSize, datagramWheelSize, hkind]
  | smoothWheel x y =>
    obtain rfl := Except.ok.inj h
    obtain ⟨hseq, hx, hy⟩ := slice_datagram datagramVersion datagramSmoothWheel
      (Bytes.ofUInt64 sequence) (Bytes.ofInt32 x) (Bytes.ofInt32 y) (by simp) (by simp)
    rw [Bytes.length_ofInt32] at hx hy
    simp only [decodeInputDatagram, List.cons_append, List.nil_append,
      List.append_assoc] at hseq hx hy ⊢
    have hmove : datagramSmoothWheel ≠ datagramMouseMove := by decide
    have hwheel : datagramSmoothWheel ≠ datagramWheel := by decide
    simp [hseq, hx, hy, maxDatagramSize, datagramSmoothWheelSize, hmove, hwheel]
  | _ => cases h

/-! ### The other way -/

namespace Bytes

lemma ofUInt64_readU64 {bytes : List UInt8} (h : bytes.length = 8) :
    ofUInt64 (readU64 bytes) = bytes := by
  have hlt : ofBe bytes < 2 ^ 64 := by
    have := ofBe_lt bytes
    rw [h] at this
    omega
  rw [ofUInt64, readU64, UInt64.toNat_ofNat', Nat.mod_eq_of_lt hlt, ← h, toBe_ofBe]

lemma ofInt32_readI32 {bytes : List UInt8} (h : bytes.length = 4) :
    ofInt32 (readI32 bytes) = bytes := by
  have hlt : ofBe bytes < 2 ^ 32 := by
    have := ofBe_lt bytes
    rw [h] at this
    omega
  have hcast : (readI32 bytes).toUInt32 = UInt32.ofNat (ofBe bytes) := rfl
  rw [ofInt32, hcast, UInt32.toNat_ofNat', Nat.mod_eq_of_lt hlt, ← h, toBe_ofBe]

lemma ofInt16_readI16 {bytes : List UInt8} (h : bytes.length = 2) :
    ofInt16 (readI16 bytes) = bytes := by
  have hlt : ofBe bytes < 2 ^ 16 := by
    have := ofBe_lt bytes
    rw [h] at this
    omega
  have hcast : (readI16 bytes).toUInt16 = UInt16.ofNat (ofBe bytes) := rfl
  rw [ofInt16, hcast, UInt16.toNat_ofNat', Nat.mod_eq_of_lt hlt, ← h, toBe_ofBe]

lemma length_slice (bytes : List UInt8) {start stop : ℕ} (h : stop ≤ bytes.length) :
    (slice bytes start stop).length = stop - start := by
  rw [slice, List.length_take, List.length_drop]
  omega

/-- Two fields next to each other. -/
lemma slice_append (bytes : List UInt8) {start middle stop : ℕ} (hstart : start ≤ middle)
    (hstop : middle ≤ stop) :
    slice bytes start middle ++ slice bytes middle stop = slice bytes start stop := by
  have hwidth : stop - start = (middle - start) + (stop - middle) := by omega
  have hdrop : bytes.drop middle = (bytes.drop start).drop (middle - start) := by
    rw [List.drop_drop, Nat.add_sub_cancel' hstart]
  rw [slice, slice, slice, hwidth, List.take_add, hdrop]

end Bytes

/-- A payload is made of its fields. -/
lemma fields_datagram (version kind : UInt8) (body : List UInt8) (width : ℕ)
    (h : (version :: kind :: body).length = 10 + 2 * width) :
    [version, kind] ++ Bytes.slice (version :: kind :: body) 2 10 ++
        Bytes.slice (version :: kind :: body) 10 (10 + width) ++
        Bytes.slice (version :: kind :: body) (10 + width) (10 + 2 * width) =
      version :: kind :: body := by
  have hhead : [version, kind] = Bytes.slice (version :: kind :: body) 0 2 := rfl
  rw [hhead, Bytes.slice_append _ (by omega) (by omega), Bytes.slice_append _ (by omega) (by omega),
    Bytes.slice_append _ (by omega) (by omega), Bytes.slice, List.drop_zero, Nat.sub_zero,
    List.take_of_length_le (by omega)]

/-- The fields of a payload with two `i32` are written as they were read. -/
lemma fields_i32 (version kind : UInt8) (body : List UInt8)
    (h : (version :: kind :: body).length = 18) :
    [version, kind] ++
        Bytes.ofUInt64 (Bytes.readU64 (Bytes.slice (version :: kind :: body) 2 10)) ++
        Bytes.ofInt32 (Bytes.readI32 (Bytes.slice (version :: kind :: body) 10 14)) ++
        Bytes.ofInt32 (Bytes.readI32 (Bytes.slice (version :: kind :: body) 14 18)) =
      version :: kind :: body := by
  rw [Bytes.ofUInt64_readU64 (Bytes.length_slice _ (by omega)),
    Bytes.ofInt32_readI32 (Bytes.length_slice _ (by omega)),
    Bytes.ofInt32_readI32 (Bytes.length_slice _ (by omega)), fields_datagram _ _ _ 4 h]

/-- **The other way.** What decodes is what its event encodes to. -/
theorem encodeInputDatagram_decode {packet : DatagramInput} {payload : List UInt8}
    (h : decodeInputDatagram payload = .ok packet) : encodeInputDatagram packet = .ok payload := by
  rcases payload with _ | ⟨version, _ | ⟨kind, body⟩⟩
  · cases h
  · rw [decodeInputDatagram] at h
    split_ifs at h
  · simp only [decodeInputDatagram] at h
    split_ifs at h with hlarge hversion hmove hwheel hsmooth
    · obtain rfl : version = datagramVersion := not_not.mp hversion
      obtain ⟨rfl, hlength⟩ := hmove
      obtain rfl := Except.ok.inj h
      exact congrArg Except.ok (fields_i32 _ _ body hlength)
    · obtain rfl : version = datagramVersion := not_not.mp hversion
      obtain ⟨rfl, hlength⟩ := hwheel
      obtain rfl := Except.ok.inj h
      have hsize : (datagramVersion :: datagramWheel :: body).length = 14 := hlength
      simp only [encodeInputDatagram]
      rw [Bytes.ofUInt64_readU64 (Bytes.length_slice _ (by omega)),
        Bytes.ofInt16_readI16 (Bytes.length_slice _ (by omega)),
        Bytes.ofInt16_readI16 (Bytes.length_slice _ (by omega)),
        fields_datagram _ _ _ 2 hsize]
    · obtain rfl : version = datagramVersion := not_not.mp hversion
      obtain ⟨rfl, hlength⟩ := hsmooth
      obtain rfl := Except.ok.inj h
      exact congrArg Except.ok (fields_i32 _ _ body hlength)

end TheKvm
