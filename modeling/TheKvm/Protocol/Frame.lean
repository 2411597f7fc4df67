import TheKvm.Lib.Bytes
import TheKvm.Protocol.Wire

/-!
Frames: a wire message as its JSON, behind its length in four bytes.

Which of the messages that pass their checks go through a frame: all whose strings and
lists are bounded, and of the others those whose escaped text still fits.
-/

namespace TheKvm

/-- `serde_json` at the type of wire messages. -/
structure SerdeJson where
  toVec : WireMessage → Except String (List UInt8)
  fromSlice : List UInt8 → Except String WireMessage

/-- What the writer is documented to do: compact JSON, strings escaped as JSON has it. -/
def SerdeJson.Encodes (serde : SerdeJson) (m : WireMessage) : Prop :=
  serde.toVec m = .ok m.toJson.bytes

/-- The reader decodes what the writer put out. -/
def SerdeJson.Decodes (serde : SerdeJson) (m : WireMessage) : Prop :=
  serde.fromSlice m.toJson.bytes = .ok m

/-- Errors of the JSON library, as `InvalidData`. -/
def invalidData {α : Type} : Except String α → IoResult α
  | .ok a => .ok a
  | .error message => .error ⟨.invalidData, message⟩

/-- The bytes of a writer after a frame was written to it. -/
def writeFrame (serde : SerdeJson) (writer : List UInt8) (message : WireMessage) :
    IoResult (List UInt8) := do
  validateMessage message
  let payload ← invalidData (serde.toVec message)
  if maxFrameSize < payload.length then
    .error ⟨.invalidInput, "wire message exceeds maximum frame size"⟩
  else
    return writer ++ Bytes.toBe 4 payload.length ++ payload

/-- The message of a payload, checked as the sender checked it. -/
def readPayload (serde : SerdeJson) (payload : List UInt8) : IoResult WireMessage := do
  let message ← invalidData (serde.fromSlice payload)
  match validateMessage message with
  | .ok () => return message
  | .error error => .error ⟨.invalidData, error.message⟩

/-- The next message of a reader, if it has one, and the bytes left. A reader that ends
inside the length has no message; one that ends inside the payload is an error. -/
def readFrame (serde : SerdeJson) (reader : List UInt8) :
    IoResult (Option WireMessage) × List UInt8 :=
  match Bytes.splitExact 4 reader with
  | none => (.ok none, [])
  | some (header, reader) =>
    let size := Bytes.ofBe header
    if size = 0 ∨ maxFrameSize < size then
      (.error ⟨.invalidData, "invalid wire frame size: " ++ toString size⟩, reader)
    else
      match Bytes.splitExact size reader with
      | none => (.error ⟨.unexpectedEof, "early eof"⟩, [])
      | some (payload, reader) => ((readPayload serde payload).map some, reader)

/-- A message goes through: it is written as a frame of bounded payload, whatever was
written before, and read back, whatever follows. -/
def Transmissible (serde : SerdeJson) (m : WireMessage) : Prop :=
  ∃ payload : List UInt8, payload.length ≤ maxFrameSize ∧
    (∀ writer, writeFrame serde writer m =
      .ok (writer ++ Bytes.toBe 4 payload.length ++ payload)) ∧
    ∀ rest, readFrame serde (Bytes.toBe 4 payload.length ++ payload ++ rest) = (.ok (some m), rest)

/-- The unbounded parts of a message leave its text within a frame. The numbers are what the
rest of the text takes. -/
def WireMessage.Fits : WireMessage → Prop
  | .stateSync state =>
    50 + (Json.arr (state.pressedKeys.map fun usage => .nat usage.toNat)).size +
      (Json.arr (state.pressedButtons.map MouseButton.toJson)).size ≤ maxFrameSize
  | .clipboardText revision text =>
    41 + Json.decimalLen revision.toNat + Json.escapedLen text ≤ maxFrameSize
  | .clipboardImage revision width height pngBase64 =>
    67 + Json.decimalLen revision.toNat + Json.decimalLen width.toNat +
      Json.decimalLen height.toNat + Json.escapedLen pngBase64 ≤ maxFrameSize
  | .clipboardChunk revision index data =>
    51 + Json.decimalLen revision.toNat + Json.decimalLen index.toNat + Json.escapedLen data ≤
      maxFrameSize
  | .clipboardImageChunk revision index data =>
    56 + Json.decimalLen revision.toNat + Json.decimalLen index.toNat + Json.escapedLen data ≤
      maxFrameSize
  | .pointerHandoff screenId targetName x y screenGeometry =>
    79 + Json.decimalLen screenId.toNat + Json.escapedLen targetName + Json.decimalLen x.toNat +
      Json.decimalLen y.toNat + (Json.option ScreenGeometry.toJson screenGeometry).size ≤
        maxFrameSize
  | .handoffRequest screenId targetName x y dx dy screenGeometry =>
    91 + Json.decimalLen screenId.toNat + Json.escapedLen targetName + Json.decimalLen x.toNat +
      Json.decimalLen y.toNat + Json.decimalLen dx.toInt + Json.decimalLen dy.toInt +
        (Json.option ScreenGeometry.toJson screenGeometry).size ≤ maxFrameSize
  | _ => True

/-! ### What the checks bound -/

lemma validateNodeName_ok {name : String} (h : validateNodeName name = .ok ()) :
    Json.escapedLen name ≤ 6 * 128 := by
  simp only [validateNodeName, rejectIf_ok, Bool.or_eq_false_iff, decide_eq_false_iff_not,
    not_lt] at h
  exact Json.escapedLen_le h.1.2

lemma validateFingerprint_ok {fingerprint : String}
    (h : validateFingerprint fingerprint = .ok ()) : Json.escapedLen fingerprint ≤ 6 * 64 := by
  simp only [validateFingerprint, rejectIf_ok, Bool.or_eq_false_iff, bne_eq_false_iff_eq] at h
  exact Json.escapedLen_le h.1.le

lemma validatePairingCode_ok {code : String} (h : validatePairingCode code = .ok ()) :
    Json.escapedLen code ≤ 6 * 16 := by
  simp only [validatePairingCode, rejectIf_ok, Bool.or_eq_false_iff, decide_eq_false_iff_not,
    not_lt] at h
  exact Json.escapedLen_le h.1

lemma validateVerificationCode_ok {code : String}
    (h : validateVerificationCode code = .ok ()) : Json.escapedLen code ≤ 6 * 6 := by
  simp only [validateVerificationCode, rejectIf_ok, Bool.or_eq_false_iff,
    bne_eq_false_iff_eq] at h
  exact Json.escapedLen_le h.1.le

lemma validateReason_ok {reason : String} (h : validateReason reason = .ok ()) :
    Json.escapedLen reason ≤ 6 * 1024 := by
  simp only [validateReason, rejectIf_ok, Bool.or_eq_false_iff, decide_eq_false_iff_not,
    not_lt] at h
  exact Json.escapedLen_le h.1

/-- A checked string that may be absent. -/
lemma checkSome_size_le {check : String → IoResult Unit} {n : ℕ}
    (hcheck : ∀ {s}, check s = .ok () → Json.escapedLen s ≤ n) {o : Option String}
    (h : checkSome check o = .ok ()) : (Json.option .str o).size ≤ n + 4 := by
  refine Json.size_option_le (by omega) fun s hs => ?_
  have hs : o = some s := hs
  have := hcheck (s := s) (by rwa [hs] at h)
  rw [Json.size_str]
  omega

/-! ### Sizes -/

lemma decimalLen_uint64_le (n : UInt64) : Json.decimalLen n.toNat ≤ 20 :=
  Json.decimalLen_le (by omega) (n.toNat_lt.trans (by decide))

lemma decimalLen_uint32_le (n : UInt32) : Json.decimalLen n.toNat ≤ 10 :=
  Json.decimalLen_le (by omega) (n.toNat_lt.trans (by decide))

lemma decimalLen_uint16_le (n : UInt16) : Json.decimalLen n.toNat ≤ 5 :=
  Json.decimalLen_le (by omega) (n.toNat_lt.trans (by decide))

lemma decimalLen_int32_le (n : Int32) : Json.decimalLen n.toInt ≤ 11 := by
  have := n.toInt_lt
  have := n.le_toInt
  exact Json.decimalLen_int_le (k := 10) (by omega) (by omega)

lemma decimalLen_int16_le (n : Int16) : Json.decimalLen n.toInt ≤ 6 := by
  have := n.toInt_lt
  have := n.le_toInt
  exact Json.decimalLen_int_le (k := 5) (by omega) (by omega)

lemma ScreenGeometry.size_le (geometry : ScreenGeometry) : geometry.toJson.size ≤ 100 := by
  have := decimalLen_uint32_le geometry.screenId
  have := decimalLen_uint32_le geometry.width
  have := decimalLen_uint32_le geometry.height
  simp [ScreenGeometry.toJson]
  omega

lemma size_geometry_le (geometry : Option ScreenGeometry) :
    (Json.option ScreenGeometry.toJson geometry).size ≤ 100 :=
  Json.size_option_le (by omega) fun g _ => g.size_le

lemma InputEvent.size_le (event : InputEvent) : event.toJson.size ≤ 100 := by
  cases event with
  | key event =>
    have := decimalLen_uint16_le event.usage
    have := Json.size_bool_le event.pressed
    have := Json.size_bool_le event.repeated
    simp [InputEvent.toJson]
    omega
  | mouseMove dx dy =>
    have := decimalLen_int32_le dx
    have := decimalLen_int32_le dy
    simp [InputEvent.toJson]
    omega
  | mouseButton button pressed =>
    have := Json.size_bool_le pressed
    cases button <;> simp [InputEvent.toJson, MouseButton.toJson] <;> omega
  | wheel delta =>
    have := decimalLen_int16_le delta.x
    have := decimalLen_int16_le delta.y
    simp [InputEvent.toJson]
    omega
  | smoothWheel x y =>
    have := decimalLen_int32_le x
    have := decimalLen_int32_le y
    simp [InputEvent.toJson]
    omega
  | pinch delta =>
    have := decimalLen_int32_le delta
    simp [InputEvent.toJson]
    omega
  | pinchEnd => simp [InputEvent.toJson]

lemma Hello.size_le {hello : Hello} (h : Json.escapedLen hello.nodeName ≤ 6 * 128) :
    hello.toJson.size ≤ 2000 := by
  have := Json.size_bool_le hello.lockScreenRequested
  have := Json.size_bool_le hello.clipboardEnabled
  have := Json.size_bool_le hello.smoothScroll
  have := Json.size_bool_le hello.pinchZoom
  have := Json.size_bool_le hello.motionLane
  have := Json.size_bool_le hello.udpMotion
  have := size_geometry_le hello.screenGeometry
  have : (Json.option (fun id : UInt64 => .nat id.toNat) hello.linkId).size ≤ 20 :=
    Json.size_option_le (by omega) fun id _ => decimalLen_uint64_le id
  have : hello.mode.toJson.size ≤ 20 := by
    cases hello.mode <;> simp [Mode.toJson]
  simp [Hello.toJson]
  omega

/-- A message that passes its checks fits a frame exactly if its unbounded parts do. -/
lemma fits_iff {m : WireMessage} (h : validateMessage m = .ok ()) :
    m.toJson.size ≤ maxFrameSize ↔ m.Fits := by
  obtain ⟨geometry, hnames, -⟩ := bind_ok.mp h
  cases m with
  | hello hello =>
    obtain ⟨⟨⟩, hname, -⟩ := bind_ok.mp hnames
    have := Hello.size_le (validateNodeName_ok hname)
    simp [WireMessage.toJson, WireMessage.Fits, maxFrameSize]
    omega
  | pairRequest name fingerprint code =>
    obtain ⟨⟨⟩, hname, hrest⟩ := bind_ok.mp hnames
    obtain ⟨⟨⟩, hfingerprint, hrest⟩ := bind_ok.mp hrest
    obtain ⟨⟨⟩, hcode, -⟩ := bind_ok.mp hrest
    have := validateNodeName_ok hname
    have := validateFingerprint_ok hfingerprint
    have := checkSome_size_le validatePairingCode_ok hcode
    simp [WireMessage.toJson, WireMessage.Fits, maxFrameSize]
    omega
  | pairChallenge name fingerprint code approved =>
    obtain ⟨⟨⟩, hname, hrest⟩ := bind_ok.mp hnames
    obtain ⟨⟨⟩, hfingerprint, hrest⟩ := bind_ok.mp hrest
    obtain ⟨⟨⟩, hcode, -⟩ := bind_ok.mp hrest
    have := validateNodeName_ok hname
    have := validateFingerprint_ok hfingerprint
    have := Json.size_bool_le approved
    have := checkSome_size_le validateVerificationCode_ok hcode
    simp [WireMessage.toJson, WireMessage.Fits, maxFrameSize]
    omega
  | pairConfirm fingerprint =>
    obtain ⟨⟨⟩, hfingerprint, -⟩ := bind_ok.mp hnames
    have := validateFingerprint_ok hfingerprint
    simp [WireMessage.toJson, WireMessage.Fits, maxFrameSize]
    omega
  | reject reason =>
    obtain ⟨⟨⟩, hreason, -⟩ := bind_ok.mp hnames
    have := validateReason_ok hreason
    simp [WireMessage.toJson, WireMessage.Fits, maxFrameSize]
    omega
  | accepted lock clipboard screen scroll pinch motion udp =>
    have := Json.size_bool_le lock
    have := Json.size_bool_le clipboard
    have := Json.size_bool_le scroll
    have := Json.size_bool_le pinch
    have := Json.size_bool_le motion
    have := Json.size_bool_le udp
    have := size_geometry_le screen
    simp [WireMessage.toJson, WireMessage.Fits, maxFrameSize]
    omega
  | input packet =>
    have := packet.event.size_le
    have := decimalLen_uint64_le packet.sequence
    simp [WireMessage.toJson, InputPacket.toJson, WireMessage.Fits, maxFrameSize]
    omega
  | clipboardStart revision total chunks =>
    have := decimalLen_uint64_le revision
    have := decimalLen_uint64_le total
    have := decimalLen_uint32_le chunks
    simp [WireMessage.toJson, WireMessage.Fits, maxFrameSize]
    omega
  | clipboardImageStart revision total chunks width height =>
    have := decimalLen_uint64_le revision
    have := decimalLen_uint64_le total
    have := decimalLen_uint32_le chunks
    have := decimalLen_uint32_le width
    have := decimalLen_uint32_le height
    simp [WireMessage.toJson, WireMessage.Fits, maxFrameSize]
    omega
  | linkEnded id =>
    have : (Json.option (fun id : UInt64 => .nat id.toNat) id).size ≤ 20 :=
      Json.size_option_le (by omega) fun id _ => decimalLen_uint64_le id
    simp [WireMessage.toJson, WireMessage.Fits, maxFrameSize]
    omega
  | clipboardEnd n | clipboardImageEnd n | ping n | pong n =>
    have := decimalLen_uint64_le n
    simp [WireMessage.toJson, WireMessage.Fits, maxFrameSize]
    omega
  | releaseAll =>
    simp [WireMessage.toJson, WireMessage.Fits, maxFrameSize]
  | _ =>
    simp [WireMessage.toJson, InputState.toJson, WireMessage.Fits, maxFrameSize]
    omega

/-! ### Frames -/

/-- A message that passes its checks is written, unless its text is too long. -/
lemma writeFrame_eq {serde : SerdeJson} {m : WireMessage} (hvalid : validateMessage m = .ok ())
    (henc : serde.Encodes m) (writer : List UInt8) :
    writeFrame serde writer m =
      if maxFrameSize < m.toJson.bytes.length then
        .error ⟨.invalidInput, "wire message exceeds maximum frame size"⟩
      else .ok (writer ++ Bytes.toBe 4 m.toJson.bytes.length ++ m.toJson.bytes) := by
  unfold SerdeJson.Encodes at henc
  simp only [writeFrame, hvalid, henc, invalidData, bind, Except.bind]
  rfl

/-- A frame is taken off the reader whole. -/
lemma readFrame_frame {serde : SerdeJson} {payload : List UInt8} (hpos : 0 < payload.length)
    (hle : payload.length ≤ maxFrameSize) (rest : List UInt8) :
    readFrame serde (Bytes.toBe 4 payload.length ++ payload ++ rest) =
      ((readPayload serde payload).map some, rest) := by
  have hsize : Bytes.ofBe (Bytes.toBe 4 payload.length) = payload.length :=
    Bytes.ofBe_toBe (lt_of_le_of_lt hle (by decide))
  rw [List.append_assoc]
  simp only [readFrame, Bytes.splitExact_append (Bytes.length_toBe 4 payload.length), hsize,
    Bytes.splitExact_append rfl]
  rw [if_neg (by omega)]

lemma readPayload_eq {serde : SerdeJson} {m : WireMessage} (hvalid : validateMessage m = .ok ())
    (hdec : serde.Decodes m) : readPayload serde m.toJson.bytes = .ok m := by
  unfold SerdeJson.Decodes at hdec
  simp only [readPayload, hdec, invalidData, bind, Except.bind, hvalid]
  rfl

lemma fits_of_transmissible {serde : SerdeJson} {m : WireMessage}
    (hvalid : validateMessage m = .ok ()) (henc : serde.Encodes m)
    (h : Transmissible serde m) : m.Fits := by
  obtain ⟨payload, -, hwrite, -⟩ := h
  rw [← fits_iff hvalid, ← Json.length_bytes]
  by_contra hgt
  have hw := hwrite []
  rw [writeFrame_eq hvalid henc, if_pos (by omega)] at hw
  cases hw

/-- **What goes through a frame.** Of the messages that pass their checks, exactly those
whose unbounded parts fit. -/
theorem transmissible_iff_fits {serde : SerdeJson} {m : WireMessage}
    (hvalid : validateMessage m = .ok ()) (henc : serde.Encodes m) (hdec : serde.Decodes m) :
    Transmissible serde m ↔ m.Fits := by
  refine ⟨fits_of_transmissible hvalid henc, fun hfits => ?_⟩
  rw [← fits_iff hvalid, ← Json.length_bytes] at hfits
  have hpos : 0 < m.toJson.bytes.length := by
    rw [Json.length_bytes]
    exact Json.size_pos _
  refine ⟨m.toJson.bytes, hfits, fun writer => ?_, fun rest => ?_⟩
  · rw [writeFrame_eq hvalid henc, if_neg (by omega)]
  · rw [readFrame_frame hpos hfits, readPayload_eq hvalid hdec]
    rfl

/-- A JSON library that knows the text of one message. -/
def SerdeJson.knowing (m : WireMessage) : SerdeJson where
  toVec m := .ok m.toJson.bytes
  fromSlice bytes := if bytes = m.toJson.bytes then .ok m else .error "expected value"

lemma SerdeJson.knowing_encodes (m : WireMessage) : (knowing m).Encodes m := rfl

lemma SerdeJson.knowing_decodes (m : WireMessage) : (knowing m).Decodes m := if_pos rfl

theorem transmissible_paste :
    Transmissible (.knowing (.clipboardText 1 "paste")) (.clipboardText 1 "paste") :=
  (transmissible_iff_fits rfl (SerdeJson.knowing_encodes _) (SerdeJson.knowing_decodes _)).mpr (by
    simp [WireMessage.Fits, maxFrameSize]
    decide)

/-- Quotes take twice their length. -/
lemma escapedLen_quotes (n : ℕ) :
    Text.len (String.ofList (List.replicate n '"')) = n ∧
      Json.escapedLen (String.ofList (List.replicate n '"')) = n * 2 := by
  constructor
  · rw [Text.len_eq, String.toList_ofList, Text.utf8Len_ascii, List.length_replicate]
    intro c hc
    rw [(List.mem_replicate.mp hc).2]
    decide
  · rw [Json.escapedLen, String.toList_ofList, List.map_replicate, List.sum_replicate]
    rfl

lemma quotes_stuck {n : ℕ} (hle : n ≤ maxClipboardTextBytes) (hgt : maxFrameSize < n * 2)
    (serde : SerdeJson) :
    validateMessage (.clipboardText 0 (String.ofList (List.replicate n '"'))) = .ok () ∧
      (serde.Encodes (.clipboardText 0 (String.ofList (List.replicate n '"'))) →
        ¬Transmissible serde (.clipboardText 0 (String.ofList (List.replicate n '"')))) := by
  obtain ⟨hlen, hescaped⟩ := escapedLen_quotes n
  generalize String.ofList (List.replicate n '"') = text at hlen hescaped
  have hvalid : validateMessage (.clipboardText 0 text) = .ok () := by
    have hcheck : validateClipboard (.clipboardText 0 text) = .ok () := by
      simp only [validateClipboard, rejectIf_ok, decide_eq_false_iff_not]
      omega
    exact hcheck
  refine ⟨hvalid, fun henc h => ?_⟩
  have hfits := fits_of_transmissible hvalid henc h
  simp only [WireMessage.Fits, hescaped] at hfits
  omega

/-- A paste of 48 KiB of quotes passes the checks, and its text takes twice that. -/
theorem quotes_exceed_frame :
    ¬∀ (serde : SerdeJson) (m : WireMessage), validateMessage m = .ok () → serde.Encodes m →
      serde.Decodes m → Transmissible serde m := by
  intro h
  obtain ⟨hvalid, hstuck⟩ := quotes_stuck (n := 49152) (by decide) (by decide)
    (.knowing (.clipboardText 0 (String.ofList (List.replicate 49152 '"'))))
  exact hstuck (SerdeJson.knowing_encodes _)
    (h _ _ hvalid (SerdeJson.knowing_encodes _) (SerdeJson.knowing_decodes _))

end TheKvm
