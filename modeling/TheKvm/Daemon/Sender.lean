import TheKvm.Daemon.Receive

/-!
The bounded writes of a drive to one stream.

A write whose time is up leaves there what the stream took of its frame. The drive goes on, and
the next write starts a frame of its own.
-/

namespace TheKvm

/-- What a stream does with one write: how many bytes it takes within so many milliseconds,
and whether it is flushed by then. -/
structure StreamPace where
  takes : ℕ → ℕ
  flushed : ℕ → Bool

/-- `timeout(limit, write_frame(..))`: its result unless the time is up, and the stream. -/
def timedWrite (serde : SerdeJson) (limit : ℕ) (stream : List UInt8) (message : WireMessage)
    (pace : StreamPace) : Option (IoResult Unit) × List UInt8 :=
  match writeFrame serde stream message with
  | .error error => (some (.error error), stream)
  | .ok written =>
    if written.length ≤ stream.length + pace.takes limit ∧ pace.flushed limit = true then
      (some (.ok ()), written)
    else (none, written.take (stream.length + pace.takes limit))

/-- A send that drops its event when the time is up. -/
def sendBounded (limit : ℕ) (serde : SerdeJson) (stream : List UInt8) (packet : InputPacket)
    (pace : StreamPace) : IoResult Bool × List UInt8 :=
  match timedWrite serde limit stream (.input packet) pace with
  | (some result, stream) => (result.map fun _ => true, stream)
  | (none, stream) => (.ok false, stream)

def sendInput := sendBounded 500
def sendRelease := sendBounded 2000
def sendMotionBestEffort := sendBounded 120

def sendStateSync (serde : SerdeJson) (stream : List UInt8) (state : InputState)
    (pace : StreamPace) : Except String Unit × List UInt8 :=
  match timedWrite serde 2000 stream (.stateSync state) pace with
  | (some result, stream) => (result.mapError IoError.message, stream)
  | (none, stream) => (.error "state sync stalled", stream)

/-- What a drive writes. -/
inductive DriveWrite
  | input (packet : InputPacket)
  | release (packet : InputPacket)
  | motion (packet : InputPacket)
  | stateSync (state : InputState)
  /-- the park -/
  | releaseAll
  /-- the keep-alive -/
  | ping (nonce : UInt64)

namespace DriveWrite

def message : DriveWrite → WireMessage
  | .input packet | .release packet | .motion packet => .input packet
  | .stateSync state => .stateSync state
  | .releaseAll => .releaseAll
  | .ping nonce => .ping nonce

/-- In milliseconds. -/
def limit : DriveWrite → ℕ
  | .input _ => 500
  | .release _ => 2000
  | .motion _ => 120
  | .stateSync _ => 2000
  | .releaseAll => 300
  | .ping _ => 3000

/-- Whether a write is reported sent, and the stream after it. -/
def perform (serde : SerdeJson) (stream : List UInt8) (pace : StreamPace) :
    DriveWrite → Bool × List UInt8
  | .input packet => reported (sendInput serde stream packet pace)
  | .release packet => reported (sendRelease serde stream packet pace)
  | .motion packet => reported (sendMotionBestEffort serde stream packet pace)
  | .stateSync state =>
    let (result, stream) := sendStateSync serde stream state pace
    (result.toBool, stream)
  | .releaseAll => finished (timedWrite serde 300 stream .releaseAll pace)
  | .ping nonce => finished (timedWrite serde 3000 stream (.ping nonce) pace)
where
  reported : IoResult Bool × List UInt8 → Bool × List UInt8
    | (.ok sent, stream) => (sent, stream)
    | (.error _, stream) => (false, stream)
  finished : Option (IoResult Unit) × List UInt8 → Bool × List UInt8
    | (some (.ok ()), stream) => (true, stream)
    | (_, stream) => (false, stream)

end DriveWrite

/-- The frames a reader finds in the bytes so far, up to its first error. -/
def decodeFrames (serde : SerdeJson) : ℕ → List UInt8 → List (IoResult WireMessage)
  | 0, _ => []
  | fuel + 1, bytes =>
    match pollFrame serde false bytes with
    | none | some (.ok none, _) => []
    | some (.ok (some m), rest) => .ok m :: decodeFrames serde fuel rest
    | some (.error error, _) => [.error error]

/-- No frame is empty. -/
def decodeAll (serde : SerdeJson) (bytes : List UInt8) : List (IoResult WireMessage) :=
  decodeFrames serde bytes.length bytes

/-- One stream of a drive. -/
structure Sender where
  stream : List UInt8
  /-- The messages reported sent. -/
  sent : List WireMessage
  /-- What the last write to reach the stream left unfinished there. -/
  unfinished : List UInt8

namespace Sender

def init : Sender := ⟨[], [], []⟩

def step (serde : SerdeJson) (s : Sender) (write : DriveWrite × StreamPace) : Sender × Unit :=
  let (sent, stream) := write.1.perform serde s.stream write.2
  let put := stream.drop s.stream.length
  (if sent then ⟨stream, s.sent ++ [write.1.message], []⟩
    else ⟨stream, s.sent, if put = [] then s.unfinished else put⟩, ())

/-- The stream after some writes. -/
def after (serde : SerdeJson) (writes : List (DriveWrite × StreamPace)) : Sender :=
  Trace.final (step serde) init writes

/-- The stream is the frames of what is reported sent, then a beginning of the frame of the last
write; and a reader of it decodes what is reported sent. -/
def Whole (serde : SerdeJson) (s : Sender) : Prop :=
  s.stream = s.sent.flatMap WireMessage.frame ++ s.unfinished ∧
    (∃ (m : WireMessage) (rest : List UInt8), rest ≠ [] ∧ m.frame = s.unfinished ++ rest) ∧
    decodeAll serde s.stream = s.sent.map .ok

/-- A write that reaches the stream finds nothing unfinished there, and is not given up after its
last byte. -/
def Untorn (serde : SerdeJson) (s : Sender) (write : DriveWrite × StreamPace) : Prop :=
  ∀ frame, writeFrame serde [] write.1.message = .ok frame →
    (write.2.takes write.1.limit ≠ 0 → s.unfinished = []) ∧
      (frame.length ≤ write.2.takes write.1.limit → write.2.flushed write.1.limit = true)

/-- At every point of a run. -/
def AlwaysWhole (serde : SerdeJson) (writes : List (DriveWrite × StreamPace)) : Prop :=
  ∀ m, m <+: writes → (after serde m).Whole serde

def AlwaysUntorn (serde : SerdeJson) (writes : List (DriveWrite × StreamPace)) : Prop :=
  Trace.Each (fun m => (after serde m).Untorn serde) writes

end Sender

/-! ### Decoding -/

/-- A message that is written and read back. -/
structure WireMessage.Sendable (serde : SerdeJson) (m : WireMessage) : Prop where
  valid : validateMessage m = .ok ()
  fits : m.toJson.bytes.length ≤ maxFrameSize
  decodes : serde.Decodes m

section

variable {serde : SerdeJson} {m : WireMessage} {sent : List WireMessage} {part rest : List UInt8}

lemma length_frame_pos (m : WireMessage) : 0 < m.frame.length := by
  rw [WireMessage.frame, List.length_append, Bytes.length_toBe]
  omega

lemma frame_ne_nil (m : WireMessage) : m.frame ≠ [] :=
  List.ne_nil_of_length_pos (length_frame_pos m)

lemma awaitsFrame_frame (h : m.Sendable serde) (rest : List UInt8) :
    awaitsFrame (m.frame ++ rest) = false := by
  have hsize : Bytes.ofBe (Bytes.toBe 4 m.toJson.bytes.length) = m.toJson.bytes.length :=
    Bytes.ofBe_toBe (lt_of_le_of_lt h.fits (by decide))
  rw [awaitsFrame, WireMessage.frame, List.append_assoc,
    Bytes.splitExact_append (Bytes.length_toBe 4 _)]
  simp only [hsize, decide_eq_false_iff_not, List.length_append]
  omega

lemma decodeFrames_frame (h : m.Sendable serde) (fuel : ℕ) (rest : List UInt8) :
    decodeFrames serde (fuel + 1) (m.frame ++ rest) = .ok m :: decodeFrames serde fuel rest := by
  have hpoll : pollFrame serde false (m.frame ++ rest) = some (.ok (some m), rest) := by
    rw [pollFrame, if_neg (by simp [awaitsFrame_frame h]),
      readFrame_message h.valid h.decodes h.fits]
  rw [decodeFrames, hpoll]

/-- The beginning of a frame is waited on. -/
lemma decodeFrames_part (h : m.Sendable serde) (hframe : m.frame = part ++ rest) (hrest : rest ≠ [])
    (fuel : ℕ) : decodeFrames serde fuel part = [] := by
  cases fuel with
  | zero => rfl
  | succ fuel =>
    rw [decodeFrames, pollFrame, if_pos ⟨rfl, awaitsFrame_part h.fits hframe hrest⟩]

/-- Complete frames are decoded, whatever follows. -/
lemma decodeFrames_append (h : ∀ m ∈ sent, m.Sendable serde) {fuel : ℕ}
    (hfuel : (sent.flatMap WireMessage.frame).length ≤ fuel) (part : List UInt8) :
    decodeFrames serde fuel (sent.flatMap WireMessage.frame ++ part) =
      sent.map .ok ++ decodeFrames serde (fuel - sent.length) part := by
  induction sent generalizing fuel with
  | nil => rfl
  | cons m sent ih =>
    have hpos := length_frame_pos m
    rw [List.flatMap_cons, List.length_append] at hfuel
    obtain ⟨fuel, rfl⟩ : ∃ n, fuel = n + 1 := ⟨fuel - 1, by omega⟩
    rw [List.flatMap_cons, List.append_assoc, decodeFrames_frame (h m List.mem_cons_self),
      ih (fun m' hm' => h m' (List.mem_cons_of_mem _ hm')) (by omega), List.length_cons,
      Nat.add_sub_add_right]
    rfl

lemma decodeAll_part (h : ∀ m ∈ sent, m.Sendable serde) (hm : m.Sendable serde)
    (hframe : m.frame = part ++ rest) (hrest : rest ≠ []) :
    decodeAll serde (sent.flatMap WireMessage.frame ++ part) = sent.map .ok := by
  rw [decodeAll, decodeFrames_append h (by rw [List.length_append]; omega),
    decodeFrames_part hm hframe hrest, List.append_nil]

lemma decodeAll_frames (h : ∀ m ∈ sent, m.Sendable serde) :
    decodeAll serde (sent.flatMap WireMessage.frame) = sent.map .ok := by
  have hempty (fuel : ℕ) : decodeFrames serde fuel [] = [] := by
    cases fuel <;> rfl
  have hdecode := decodeFrames_append h le_rfl []
  rwa [List.append_nil, hempty, List.append_nil] at hdecode

end

/-! ### One write -/

lemma writeFrame_append (serde : SerdeJson) (stream : List UInt8) (m : WireMessage) :
    writeFrame serde stream m = (writeFrame serde [] m).map (stream ++ ·) := by
  simp only [writeFrame, bind, Except.bind]
  rcases validateMessage m with error | ⟨⟩
  · rfl
  rcases invalidData (serde.toVec m) with error | payload
  · rfl
  simp only
  split_ifs with hlong
  · rfl
  · simp [pure, Except.pure, Except.map]

/-- Whoever writes, only a write in time is reported sent. -/
lemma DriveWrite.perform_eq_finished (serde : SerdeJson) (stream : List UInt8) (pace : StreamPace)
    (w : DriveWrite) :
    w.perform serde stream pace =
      perform.finished (timedWrite serde w.limit stream w.message pace) := by
  have hbounded (limit : ℕ) (packet : InputPacket) :
      perform.reported (sendBounded limit serde stream packet pace) =
        perform.finished (timedWrite serde limit stream (.input packet) pace) := by
    rw [sendBounded]
    rcases timedWrite serde limit stream (.input packet) pace with ⟨_ | _ | _, stream⟩ <;> rfl
  cases w with
  | input packet | release packet | motion packet => exact hbounded _ packet
  | stateSync state =>
    simp only [perform, sendStateSync, limit, message]
    rcases timedWrite serde 2000 stream (.stateSync state) pace with ⟨_ | _ | _, stream⟩ <;> rfl
  | releaseAll | ping => rfl

/-- A write that fails its checks does not reach the stream; another is whole and reported sent,
or cut and not. -/
lemma DriveWrite.perform_eq (serde : SerdeJson) (stream : List UInt8) (pace : StreamPace)
    (w : DriveWrite) :
    w.perform serde stream pace =
      match writeFrame serde [] w.message with
      | .error _ => (false, stream)
      | .ok frame =>
        if frame.length ≤ pace.takes w.limit ∧ pace.flushed w.limit = true then
          (true, stream ++ frame)
        else (false, stream ++ frame.take (pace.takes w.limit)) := by
  rw [perform_eq_finished, timedWrite, writeFrame_append]
  rcases writeFrame serde [] w.message with error | frame
  · rfl
  simp only [Except.map, List.length_append, Nat.add_le_add_iff_left, List.take_length_add_append]
  split_ifs <;> rfl

namespace Sender

variable {serde : SerdeJson} {s : Sender} {w : DriveWrite} {pace : StreamPace}
  {writes : List (DriveWrite × StreamPace)}

lemma step_eq (s : Sender) (w : DriveWrite) (pace : StreamPace) :
    (s.step serde (w, pace)).1 =
      match writeFrame serde [] w.message with
      | .error _ => s
      | .ok frame =>
        if frame.length ≤ pace.takes w.limit ∧ pace.flushed w.limit = true then
          ⟨s.stream ++ frame, s.sent ++ [w.message], []⟩
        else
          ⟨s.stream ++ frame.take (pace.takes w.limit), s.sent,
            if frame.take (pace.takes w.limit) = [] then s.unfinished
            else frame.take (pace.takes w.limit)⟩ := by
  simp only [step, DriveWrite.perform_eq]
  rcases writeFrame serde [] w.message with error | frame
  · simp
  · simp only
    split_ifs <;> simp_all

/-- What a stream holds was written as frames, the last perhaps not to its end. -/
structure Framed (serde : SerdeJson) (s : Sender) : Prop where
  sent : ∀ m ∈ s.sent, m.Sendable serde
  unfinished : s.unfinished = [] ∨
    ∃ (m : WireMessage) (rest : List UInt8), m.Sendable serde ∧ m.frame = s.unfinished ++ rest

/-- What a write that reaches the stream writes there. -/
lemma writeFrame_sendable {m : WireMessage} (henc : serde.Encodes m) (hdec : serde.Decodes m)
    {frame : List UInt8} (h : writeFrame serde [] m = .ok frame) :
    m.Sendable serde ∧ frame = m.frame := by
  obtain ⟨hvalid, hle, hframe⟩ := writeFrame_ok henc h
  exact ⟨⟨hvalid, hle, hdec⟩, hframe⟩

lemma Framed.step (h : s.Framed serde) (henc : serde.Encodes w.message)
    (hdec : serde.Decodes w.message) : (s.step serde (w, pace)).1.Framed serde := by
  rw [step_eq]
  rcases hwrite : writeFrame serde [] w.message with error | frame
  · exact h
  obtain ⟨hsendable, hframe⟩ := writeFrame_sendable henc hdec hwrite
  simp only
  split_ifs with hdone hput
  · refine ⟨fun m hm => ?_, Or.inl rfl⟩
    rcases List.mem_append.mp hm with hm | hm
    · exact h.sent m hm
    · rw [List.mem_singleton.mp hm]
      exact hsendable
  · exact ⟨h.sent, h.unfinished⟩
  · refine ⟨h.sent, Or.inr ⟨w.message, frame.drop (pace.takes w.limit), hsendable, ?_⟩⟩
    rw [← hframe, List.take_append_drop]

/-- What is decoded decides whether the last frame is complete. -/
lemma whole_iff (h : s.Framed serde) :
    s.Whole serde ↔
      s.stream = s.sent.flatMap WireMessage.frame ++ s.unfinished ∧
        ¬∃ m : WireMessage, m.Sendable serde ∧ m.frame = s.unfinished := by
  constructor
  · rintro ⟨hstream, -, hdecode⟩
    refine ⟨hstream, ?_⟩
    rintro ⟨m, hm, hframe⟩
    have hall : ∀ m' ∈ s.sent ++ [m], m'.Sendable serde := by
      intro m' hm'
      rcases List.mem_append.mp hm' with hm' | hm'
      · exact h.sent m' hm'
      · rw [List.mem_singleton.mp hm']
        exact hm
    have hmore := decodeAll_frames hall
    rw [List.flatMap_append, List.flatMap_singleton, hframe, ← hstream, hdecode] at hmore
    have hlength := congrArg List.length hmore
    rw [List.length_map, List.length_map, List.length_append, List.length_singleton] at hlength
    omega
  · rintro ⟨hstream, hpart⟩
    rcases h.unfinished with hnil | ⟨m, rest, hm, hframe⟩
    · refine ⟨hstream, ⟨.releaseAll, _, frame_ne_nil .releaseAll, by rw [hnil]; rfl⟩, ?_⟩
      rw [hstream, hnil, List.append_nil]
      exact decodeAll_frames h.sent
    · have hrest : rest ≠ [] := by
        rintro rfl
        rw [List.append_nil] at hframe
        exact hpart ⟨m, hm, hframe⟩
      refine ⟨hstream, ⟨m, rest, hrest, hframe⟩, ?_⟩
      rw [hstream]
      exact decodeAll_part h.sent hm hframe hrest

/-- A frame that is cut is no frame. -/
lemma not_frame_take {message : WireMessage} (h : message.Sendable serde) {n : ℕ}
    (hlt : n < message.frame.length) :
    ¬∃ m : WireMessage, m.Sendable serde ∧ m.frame = message.frame.take n := by
  rintro ⟨m, hm, hframe⟩
  have hsplit : message.frame = m.frame ++ message.frame.drop n := by
    rw [hframe, List.take_append_drop]
  have hrest : message.frame.drop n ≠ [] := by
    rw [Ne, List.drop_eq_nil_iff]
    omega
  have hwaits : awaitsFrame m.frame = true := awaitsFrame_part h.fits hsplit hrest
  have hdone := awaitsFrame_frame hm []
  rw [List.append_nil, hwaits] at hdone
  cases hdone

/-- A write keeps the stream whole exactly if it tears nothing. -/
lemma step_whole_iff (h : s.Framed serde) (hwhole : s.Whole serde)
    (henc : serde.Encodes w.message) (hdec : serde.Decodes w.message) :
    (s.step serde (w, pace)).1.Whole serde ↔ s.Untorn serde (w, pace) := by
  have hframed : (s.step serde (w, pace)).1.Framed serde := h.step henc hdec
  have hstream := ((whole_iff h).mp hwhole).1
  rw [whole_iff hframed]
  rw [step_eq] at hframed ⊢
  rw [Untorn]
  rcases hwrite : writeFrame serde [] w.message with error | frame
  · exact iff_of_true ((whole_iff h).mp hwhole) nofun
  obtain ⟨hsendable, rfl⟩ := writeFrame_sendable henc hdec hwrite
  have hpos := length_frame_pos w.message
  generalize pace.takes w.limit = n at hframed ⊢
  simp only [Except.ok.injEq, forall_eq'] at hframed ⊢
  split_ifs with hdone hput
  · -- the whole frame, behind what was unfinished
    simp only [List.append_nil, List.flatMap_append, List.flatMap_singleton, hstream,
      List.append_assoc, List.append_cancel_left_eq, List.append_left_eq_self]
    constructor
    · rintro ⟨hnil, -⟩
      exact ⟨fun _ => hnil, fun _ => hdone.2⟩
    · rintro ⟨hnil, -⟩
      exact ⟨hnil (by omega), fun ⟨m, _, hm⟩ => frame_ne_nil m hm⟩
  · -- nothing at all
    have hn : n = 0 := by
      rcases List.take_eq_nil_iff.mp hput with hn | hnil
      · exact hn
      · exact absurd hnil (frame_ne_nil _)
    subst hn
    rw [List.take_zero, List.append_nil]
    refine iff_of_true ((whole_iff h).mp hwhole) ⟨fun h => absurd rfl h, fun hle => ?_⟩
    omega
  · -- a part of the frame
    have hn : n ≠ 0 := by
      rintro rfl
      exact hput rfl
    simp only [hstream, List.append_assoc, List.append_cancel_left_eq, List.append_left_eq_self]
    constructor
    · rintro ⟨hnil, hpart⟩
      refine ⟨fun _ => hnil, fun hle => ?_⟩
      exact absurd ⟨w.message, hsendable, (List.take_of_length_le hle).symm⟩ hpart
    · rintro ⟨hnil, hflushed⟩
      refine ⟨hnil hn, not_frame_take hsendable ?_⟩
      by_contra hge
      exact hdone ⟨by omega, hflushed (by omega)⟩

/-! ### Runs -/

/-- **Torn streams.** In a run of writes the stream is whole at every point, exactly if no write
that reaches it finds an unfinished frame there or is given up after its last byte. -/
theorem whole_iff_untorn (henc : ∀ write ∈ writes, serde.Encodes write.1.message)
    (hdec : ∀ write ∈ writes, serde.Decodes write.1.message) :
    AlwaysWhole serde writes ↔ AlwaysUntorn serde writes := by
  have hnil : init.Framed serde := ⟨fun _ hm => absurd hm List.not_mem_nil, Or.inl rfl⟩
  have hframed : ∀ m, m <+: writes → (after serde m).Framed serde := by
    intro m hm
    refine Trace.invariant (I := fun _ (s : Sender) => s.Framed serde)
      (P := fun _ write => write ∈ writes) hnil ?_ fun k write hk => ?_
    · rintro k ⟨w, pace⟩ h hw
      exact h.step (henc _ hw) (hdec _ hw)
    · exact Trace.mem_of_snoc (hk.trans hm)
  symm
  refine Trace.each_iff (I := fun m => (after serde m).Whole serde) ?_ ?_
  · exact (whole_iff hnil).mpr ⟨rfl, fun ⟨m, _, hm⟩ => frame_ne_nil m hm⟩
  · rintro m ⟨w, pace⟩ hm - hwhole
    have hw := Trace.mem_of_snoc hm
    rw [after, Trace.final_snoc]
    exact step_whole_iff (hframed m (Trace.earlier hm)) (hwhole m (by rfl)) (henc _ hw) (hdec _ hw)

/-- A stream that takes so many bytes of each write. -/
def steady (n : ℕ) : StreamPace := ⟨fun _ => n, fun _ => true⟩

/-- The press of a key and its release, taken by streams of these paces. -/
def tap (press release : StreamPace) : List (DriveWrite × StreamPace) :=
  [(.input ⟨1, .key ⟨4, true, false⟩⟩, press), (.release ⟨2, .key ⟨4, false, false⟩⟩, release)]

/-- A JSON library that knows both texts. -/
def tapSerde : SerdeJson :=
  Receiver.knowingAll [.input ⟨1, .key ⟨4, true, false⟩⟩, .input ⟨2, .key ⟨4, false, false⟩⟩]

lemma tap_decodes (press release : StreamPace) :
    ∀ write ∈ tap press release, tapSerde.Decodes write.1.message := by
  intro write hw
  rcases List.mem_cons.mp hw with rfl | hw
  · rfl
  · obtain rfl := List.mem_singleton.mp hw
    rfl

theorem whole_iff_untorn_tap :
    AlwaysWhole tapSerde (tap (steady 200) (steady 200)) ↔
      AlwaysUntorn tapSerde (tap (steady 200) (steady 200)) :=
  whole_iff_untorn (fun _ _ => rfl) (tap_decodes _ _)

/-- Five bytes of a press and then its release, taken for the text of the press. -/
theorem cut_press_tears :
    ¬∀ (serde : SerdeJson) (writes : List (DriveWrite × StreamPace)),
      (∀ write ∈ writes, serde.Encodes write.1.message) →
      (∀ write ∈ writes, serde.Decodes write.1.message) → AlwaysWhole serde writes := by
  intro h
  have hwhole := h tapSerde (tap (steady 5) (steady 200)) (fun _ _ => rfl) (tap_decodes _ _) _
    List.prefix_rfl
  have hsent : (after tapSerde (tap (steady 5) (steady 200))).sent =
      [.input ⟨2, .key ⟨4, false, false⟩⟩] := by
    decide +kernel
  have hdecoded : (decodeAll tapSerde
      (after tapSerde (tap (steady 5) (steady 200))).stream).map Except.toBool = [false] := by
    decide +kernel
  rw [hwhole.2.2, hsent] at hdecoded
  cases hdecoded

end Sender

end TheKvm
