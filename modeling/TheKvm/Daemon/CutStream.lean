import TheKvm.Daemon.Receive
import TheKvm.Lib.Truncated
import TheKvm.Protocol.ControlFrame

/-!
A stream of frames that ends too early.

A reader takes an end inside the four bytes of a length for the end of the stream, as it takes one
between two frames. Everywhere else a cut is an error, behind all messages that arrived whole.
-/

namespace TheKvm

/-! ### A part of a frame -/

section

variable {content : List UInt8} {k : ℕ}

/-- A part of a length is no length. -/
lemma splitExact_take_short (bytes : List UInt8) (hk : k < 4) :
    Bytes.splitExact 4 (bytes.take k) = none := by
  rw [Bytes.splitExact, if_pos]
  rw [List.length_take]
  omega

/-- A part of a frame with a whole length has less than its payload. -/
lemma splitExact_take_long (hsize : content.length < 256 ^ 4) (hlong : 4 ≤ k)
    (hk : k < (Prefixed.frame content).length) :
    ∃ rest, Bytes.splitExact 4 ((Prefixed.frame content).take k) =
        some (Bytes.toBe 4 content.length, rest) ∧
      Bytes.ofBe (Bytes.toBe 4 content.length) = content.length ∧
      Bytes.splitExact content.length rest = none := by
  obtain ⟨j, rfl⟩ := Nat.exists_eq_add_of_le hlong
  have hlen := Prefixed.length_frame content
  have htake : (Prefixed.frame content).take (4 + j) =
      Bytes.toBe 4 content.length ++ content.take j := by
    have h4 : (Bytes.toBe 4 content.length).length = 4 := Bytes.length_toBe _ _
    rw [Prefixed.frame, List.take_append, h4, List.take_of_length_le (by omega),
      Nat.add_sub_cancel_left]
  refine ⟨content.take j, ?_, Bytes.ofBe_toBe hsize, ?_⟩
  · rw [htake, Bytes.splitExact_append (Bytes.length_toBe _ _)]
  · rw [Bytes.splitExact, if_pos]
    rw [List.length_take]
    omega

end

/-! ### Wire messages -/

section

variable {serde : SerdeJson} {messages : List WireMessage} {bytes : List UInt8} {n : ℕ}

lemma wire_reader (hdec : ∀ m ∈ messages, serde.Decodes m)
    (hvalid : ∀ m ∈ messages, validateMessage m = .ok () ∧
      m.toJson.bytes.length ≤ maxFrameSize) :
    Truncated.Reader WireMessage.frame (readFrame serde) 4 messages where
  whole m hm rest := readFrame_message (hvalid m hm).1 (hdec m hm) (hvalid m hm).2 rest
  nothing := rfl
  short m _ k hk := by rw [readFrame, splitExact_take_short _ hk]
  long m hm k hlong hk := by
    have hpos := length_json_pos m
    have hle := (hvalid m hm).2
    obtain ⟨rest, hheader, hsize, hpayload⟩ :=
      splitExact_take_long (lt_of_le_of_lt hle (by decide)) hlong hk
    rw [readFrame, WireMessage.frame, ← Prefixed.frame, hheader]
    simp only [hsize, hpayload]
    rw [if_neg (by omega)]
    exact ⟨_, rfl⟩

/-- **Which cuts of a frame stream are read right**: all but those inside the length of a frame. -/
theorem frames_cut_iff (henc : ∀ m ∈ messages, serde.Encodes m)
    (hdec : ∀ m ∈ messages, serde.Decodes m) (hwritten : writeFrames serde messages = .ok bytes)
    (hn : n ≤ bytes.length) :
    bytes = messages.flatMap WireMessage.frame ∧
      (Truncated.ReadRight WireMessage.frame (readFrame serde) messages n ↔
        ¬Truncated.InHeader WireMessage.frame 4 messages n) := by
  obtain ⟨hbytes, hvalid⟩ := writeFrames_ok henc hwritten
  refine ⟨hbytes, Truncated.readRight_iff (wire_reader hdec hvalid) (fun m _ => ?_) ?_⟩
  · rw [WireMessage.frame, List.length_append, Bytes.length_toBe]
    omega
  · rwa [← hbytes]

end

/-! ### Two pings -/

open Receiver (knowingAll)

/-- The frame stream of a sender that writes two messages. -/
def pings : List WireMessage := [.ping 1, .ping 2]

lemma pings_decode : ∀ m ∈ pings, (knowingAll pings).Decodes m := by
  intro m hm
  rcases List.mem_cons.mp hm with rfl | hm
  · rfl
  · obtain rfl := List.mem_singleton.mp hm
    rfl

/-- A cut inside the second payload gives the first ping, then an error. -/
theorem cut_payload_read_right :
    Truncated.ReadRight WireMessage.frame (readFrame (knowingAll pings)) pings 30 := by
  have hpart : Truncated.part WireMessage.frame pings 30 = 6 := by decide +kernel
  have hwritten : writeFrames (knowingAll pings) pings =
      .ok (pings.flatMap WireMessage.frame) := rfl
  have henc : ∀ m ∈ pings, (knowingAll pings).Encodes m := fun _ _ => rfl
  refine (frames_cut_iff henc pings_decode hwritten (by decide +kernel)).2.mpr ?_
  rw [← Truncated.part_inHeader_iff (by decide +kernel), hpart]
  decide

/-- A cut two bytes behind the first frame gives the first ping, then the end of the stream. -/
theorem cut_header_is_an_end :
    Truncated.reads (readFrame (knowingAll pings)) 2
        ((pings.flatMap WireMessage.frame).take 26) = [.ok (some (.ping 1)), .ok none] ∧
      ¬Truncated.Between WireMessage.frame pings 26 ∧
      ¬Truncated.ReadRight WireMessage.frame (readFrame (knowingAll pings)) pings 26 := by
  have hpart : Truncated.part WireMessage.frame pings 26 = 2 := by decide +kernel
  have hbetween : ¬Truncated.Between WireMessage.frame pings 26 := by
    rw [← Truncated.part_eq_zero_iff (by decide +kernel), hpart]
    decide
  have hreads : Truncated.reads (readFrame (knowingAll pings)) 2
      ((pings.flatMap WireMessage.frame).take 26) = [.ok (some (.ping 1)), .ok none] := by rfl
  refine ⟨hreads, hbetween, ?_⟩
  rintro ⟨last, hlast, hend, -⟩
  have hcomplete : Truncated.complete WireMessage.frame pings 26 = [.ping 1] := by rfl
  rw [hcomplete] at hlast
  have heq : [Except.ok (some (.ping 1)), .ok none] = [Except.ok (some (.ping 1)), last] :=
    hreads.symm.trans hlast
  injection heq with _ heq
  injection heq with heq
  exact hbetween (hend.mp heq.symm)

/-! ### Control messages -/

section

variable {α : Type} {serde : Serde α} {toJson : α → Json} {values : List α}
  {writer bytes : List UInt8} {n : ℕ}

/-- The values that were written, behind what was there before, and each within the limit. -/
lemma writeJsonFrames_ok (h : ∀ value ∈ values, serde.Handles toJson value)
    (hwritten : values.foldlM (writeJsonFrame serde) writer = .ok bytes) :
    bytes = writer ++ values.flatMap (fun value => Prefixed.frame (toJson value).bytes) ∧
      ∀ value ∈ values, (toJson value).bytes.length ≤ maxControlFrameSize := by
  induction values generalizing writer with
  | nil =>
    refine ⟨?_, fun value hvalue => absurd hvalue List.not_mem_nil⟩
    rw [← Except.ok.inj hwritten, List.flatMap_nil, List.append_nil]
  | cons value values ih =>
    rw [List.foldlM_cons] at hwritten
    obtain ⟨first, hfirst, hrest⟩ := bind_ok.mp hwritten
    rw [writeJsonFrame_eq (h value List.mem_cons_self)] at hfirst
    split_ifs at hfirst with hlong
    obtain rfl := Except.ok.inj hfirst
    obtain ⟨hbytes, hall⟩ := ih (fun v hv => h v (List.mem_cons_of_mem _ hv)) hrest
    refine ⟨by rw [hbytes, List.flatMap_cons, List.append_assoc], ?_⟩
    intro v hv
    rcases List.mem_cons.mp hv with rfl | hv
    · rw [Json.length_bytes]
      omega
    · exact hall v hv

lemma control_reader (h : ∀ value ∈ values, serde.Handles toJson value)
    (hle : ∀ value ∈ values, (toJson value).bytes.length ≤ maxControlFrameSize) :
    Truncated.Reader (fun value => Prefixed.frame (toJson value).bytes) (readJsonFrame serde) 4
      values where
  whole value hvalue rest := by
    have hpos := Json.size_pos (toJson value)
    rw [← Json.length_bytes] at hpos
    rw [readJsonFrame_frame hpos (hle value hvalue), (h value hvalue).decodes]
    rfl
  nothing := rfl
  short value _ k hk := by rw [readJsonFrame, splitExact_take_short _ hk]
  long value hvalue k hlong hk := by
    have hpos := Json.size_pos (toJson value)
    rw [← Json.length_bytes] at hpos
    obtain ⟨rest, hheader, hsize, hpayload⟩ :=
      splitExact_take_long (lt_of_le_of_lt (hle value hvalue) (by decide)) hlong hk
    rw [readJsonFrame, hheader]
    simp only [hsize, hpayload]
    rw [if_neg (by have := hle value hvalue; omega)]
    exact ⟨_, rfl⟩

/-- **Which cuts of a control stream are read right**: as of a frame stream, whatever the values
are and whatever the stream held before. -/
theorem control_frames_cut_iff (h : ∀ value ∈ values, serde.Handles toJson value)
    (hwritten : values.foldlM (writeJsonFrame serde) [] = .ok bytes) (hn : n ≤ bytes.length) :
    Truncated.ReadRight (fun value => Prefixed.frame (toJson value).bytes) (readJsonFrame serde)
        values n ↔
      ¬Truncated.InHeader (fun value => Prefixed.frame (toJson value).bytes) 4 values n := by
  obtain ⟨hbytes, hle⟩ := writeJsonFrames_ok h hwritten
  rw [List.nil_append] at hbytes
  refine Truncated.readRight_iff (control_reader h hle) (fun value _ => ?_) (hbytes ▸ hn)
  rw [Prefixed.length_frame]
  omega

end

end TheKvm
