import Mathlib.Logic.Function.Basic
import TheKvm.Lib.Framing
import TheKvm.Lib.Trace
import TheKvm.Protocol.Frame

/-!
The receiver's select loop and its two framed streams.

Every turn of the loop starts a new read on each stream, and the turn's winner drops the
reads of the others, with the bytes they took.
-/

namespace TheKvm

inductive StreamId
  | episode | motion
  deriving DecidableEq

/-- The motion lane is accepted lazily; a lane that ended or failed is not read again. -/
inductive StreamStatus
  | waiting | live | closed
  deriving DecidableEq

/-- A stream, and whether its end has arrived. -/
structure ReceiveStream extends Framing.Lane UInt8 WireMessage where
  finished : Bool
  status : StreamStatus

inductive ReceiveEvent
  /-- bytes arrive -/
  | arrive (id : StreamId) (n : ℕ)
  /-- the end of a stream arrives -/
  | finish (id : StreamId)
  /-- the motion lane is accepted -/
  | accept
  /-- the read of a stream is polled -/
  | poll (id : StreamId)
  /-- the read of a stream, or its accept, fails with the connection -/
  | fail (id : StreamId)
  /-- another arm of the loop completes -/
  | other

/-- A read of these bytes waits for more. -/
def awaitsFrame (bytes : List UInt8) : Bool :=
  match Bytes.splitExact 4 bytes with
  | none => true
  | some (header, rest) =>
    let size := Bytes.ofBe header
    decide (0 < size ∧ size ≤ maxFrameSize ∧ rest.length < size)

/-- `read_frame` as far as it gets, if it is done. -/
def pollFrame (serde : SerdeJson) (finished : Bool) (bytes : List UInt8) :
    Option (IoResult (Option WireMessage) × List UInt8) :=
  if finished = false ∧ awaitsFrame bytes = true then none else some (readFrame serde bytes)

namespace ReceiveStream

/-- What the read of a stream has, and what has arrived since. -/
def bytes (s : ReceiveStream) : List UInt8 := s.taken ++ s.buffered

def arrive (s : ReceiveStream) (n : ℕ) : ReceiveStream :=
  { s with toLane := s.toLane.arrive n }

/-- The end comes after the last byte. -/
def finish (s : ReceiveStream) : ReceiveStream :=
  if s.wire = [] then { s with finished := true } else s

def dropRead (s : ReceiveStream) : ReceiveStream := { s with toLane := s.toLane.giveUp }

/-- A read that is done: a message is handled, an end or an error closes the stream. -/
def complete (s : ReceiveStream) :
    IoResult (Option WireMessage) × List UInt8 → ReceiveStream
  | (.ok (some m), rest) => { s with toLane := s.toLane.finishRead (some m) rest }
  | (_, rest) => { s with toLane := s.toLane.finishRead none rest, status := .closed }

end ReceiveStream

/-- The streams of one session. -/
structure Receiver where
  streams : StreamId → ReceiveStream

namespace Receiver

/-- What is on the wire at the start of the loop. -/
def init (wire : StreamId → List UInt8) : Receiver where
  streams id :=
    { wire := wire id
      buffered := []
      taken := []
      handled := []
      finished := false
      status := if id = .episode then .live else .waiting }

/-- The end of the episode stream is the end of the loop. -/
def ended (r : Receiver) : Bool := (r.streams .episode).status == .closed

/-- Whether the loop reads a stream. -/
def reads (r : Receiver) (id : StreamId) : Bool := !r.ended && (r.streams id).status == .live

/-- Whether the loop waits for something of a stream. -/
def listens (r : Receiver) (id : StreamId) : Bool :=
  !r.ended && (r.streams id).status != .closed

def set (r : Receiver) (id : StreamId) (s : ReceiveStream) : Receiver :=
  ⟨Function.update r.streams id s⟩

/-- The reads under way are dropped. -/
def dropReads (r : Receiver) : Receiver := ⟨fun id => (r.streams id).dropRead⟩

/-- Whether an arm of the loop completes. -/
def completes (serde : SerdeJson) (r : Receiver) : ReceiveEvent → Bool
  | .arrive _ _ | .finish _ => false
  | .accept => !r.ended && (r.streams .motion).status == .waiting
  | .poll id => r.reads id &&
      (pollFrame serde (r.streams id).finished (r.streams id).bytes).isSome
  | .fail id => r.listens id
  | .other => !r.ended

def step (serde : SerdeJson) (r : Receiver) (event : ReceiveEvent) : Receiver × Unit :=
  (match event with
    | .arrive id n => r.set id ((r.streams id).arrive n)
    | .finish id => r.set id (r.streams id).finish
    | .accept =>
      if r.completes serde .accept then
        r.dropReads.set .motion { r.streams .motion with status := .live }
      else r
    | .poll id =>
      if r.reads id then
        match pollFrame serde (r.streams id).finished (r.streams id).bytes with
        | none => r.set id { r.streams id with toLane := (r.streams id).toLane.pend }
        | some result => r.dropReads.set id ((r.streams id).complete result)
      else r
    | .fail id =>
      if r.listens id then
        r.dropReads.set id { (r.streams id).dropRead with status := .closed }
      else r
    | .other => if r.ended then r else r.dropReads, ())

end Receiver

/-- The frames a sender writes to a stream, one after the other. -/
def writeFrames (serde : SerdeJson) (messages : List WireMessage) : IoResult (List UInt8) :=
  messages.foldlM (writeFrame serde) []

/-- The stream whose own arm an event is about. -/
def ReceiveEvent.own : ReceiveEvent → Option StreamId
  | .poll id | .fail id => some id
  | _ => none

namespace Receiver

/-- The session after some events. -/
def after (serde : SerdeJson) (wire : StreamId → List UInt8) (l : List ReceiveEvent) : Receiver :=
  Trace.final (step serde) (init wire) l

/-- No arm completes while the read of another has taken a part of a frame. -/
def Untorn (serde : SerdeJson) (wire : StreamId → List UInt8) (m : List ReceiveEvent)
    (event : ReceiveEvent) : Prop :=
  (after serde wire m).completes serde event = true →
    ∀ id, event.own ≠ some id → ((after serde wire m).streams id).taken = []

end Receiver

/-! ### Frames -/

def WireMessage.frame (m : WireMessage) : List UInt8 :=
  Bytes.toBe 4 m.toJson.bytes.length ++ m.toJson.bytes

section

variable {serde : SerdeJson} {m : WireMessage} {messages : List WireMessage}
  {writer bytes part rest : List UInt8}

lemma length_json_pos (m : WireMessage) : 0 < m.toJson.bytes.length := by
  rw [Json.length_bytes]
  exact Json.size_pos _

/-- What was written passed its checks and fits. -/
lemma writeFrame_ok (henc : serde.Encodes m) (h : writeFrame serde writer m = .ok bytes) :
    validateMessage m = .ok () ∧ m.toJson.bytes.length ≤ maxFrameSize ∧
      bytes = writer ++ m.frame := by
  have hvalid : validateMessage m = .ok () := by
    obtain ⟨⟨⟩, hvalid, -⟩ := bind_ok.mp h
    exact hvalid
  rw [writeFrame_eq hvalid henc] at h
  split_ifs at h with hlong
  refine ⟨hvalid, by omega, ?_⟩
  rw [← Except.ok.inj h, WireMessage.frame, List.append_assoc]

lemma writeFrames_ok (henc : ∀ m ∈ messages, serde.Encodes m)
    (h : writeFrames serde messages = .ok bytes) :
    bytes = messages.flatMap WireMessage.frame ∧
      ∀ m ∈ messages, validateMessage m = .ok () ∧ m.toJson.bytes.length ≤ maxFrameSize := by
  suffices hfrom : ∀ writer, messages.foldlM (writeFrame serde) writer = .ok bytes →
      bytes = writer ++ messages.flatMap WireMessage.frame ∧
        ∀ m ∈ messages, validateMessage m = .ok () ∧ m.toJson.bytes.length ≤ maxFrameSize from
    hfrom [] h
  clear h
  induction messages with
  | nil =>
    intro writer h
    exact ⟨by rw [← Except.ok.inj h]; simp, fun m hm => absurd hm List.not_mem_nil⟩
  | cons m messages ih =>
    intro writer h
    rw [List.foldlM_cons] at h
    obtain ⟨written, hm, hrest⟩ := bind_ok.mp h
    obtain ⟨hvalid, hle, rfl⟩ := writeFrame_ok (henc m List.mem_cons_self) hm
    obtain ⟨hbytes, hall⟩ := ih (fun m hm => henc m (List.mem_cons_of_mem _ hm)) _ hrest
    refine ⟨by rw [hbytes, List.flatMap_cons, List.append_assoc], ?_⟩
    intro m' hm'
    rcases List.mem_cons.mp hm' with rfl | hm'
    · exact ⟨hvalid, hle⟩
    · exact hall m' hm'

/-- A read waits inside a frame. -/
lemma awaitsFrame_part (hle : m.toJson.bytes.length ≤ maxFrameSize)
    (h : m.frame = bytes ++ part) (hpart : part ≠ []) : awaitsFrame bytes = true := by
  have hpos := length_json_pos m
  have hlen := congrArg List.length h
  have hmore := List.length_pos_of_ne_nil hpart
  rw [WireMessage.frame, List.length_append, List.length_append, Bytes.length_toBe] at hlen
  rcases Nat.lt_or_ge bytes.length 4 with hshort | hlong
  · rw [awaitsFrame, Bytes.splitExact, if_pos hshort]
  · have hheader : bytes.take 4 = Bytes.toBe 4 m.toJson.bytes.length := by
      rw [← List.take_append_of_le_length hlong, ← h, WireMessage.frame]
      exact List.take_left' (Bytes.length_toBe _ _)
    have hsize : Bytes.ofBe (bytes.take 4) = m.toJson.bytes.length := by
      rw [hheader]
      exact Bytes.ofBe_toBe (lt_of_le_of_lt hle (by decide))
    rw [awaitsFrame, Bytes.splitExact, if_neg (by omega)]
    simp only [hsize, decide_eq_true_eq, List.length_drop]
    omega

lemma readFrame_message (hvalid : validateMessage m = .ok ()) (hdec : serde.Decodes m)
    (hle : m.toJson.bytes.length ≤ maxFrameSize) (rest : List UInt8) :
    readFrame serde (m.frame ++ rest) = (.ok (some m), rest) := by
  rw [WireMessage.frame, readFrame_frame (length_json_pos m) hle, readPayload_eq hvalid hdec]
  rfl

end

/-! ### One event -/

/-- What a stream is to its reader while no read is torn. -/
structure ReceiveStream.Sound (written : List WireMessage) (s : ReceiveStream) : Prop where
  handled : s.handled <+: written
  finished : s.finished = true → s.wire = []
  inStep : s.status ≠ .closed → s.toLane.InStep WireMessage.frame written

namespace ReceiveStream

variable {serde : SerdeJson} {written : List WireMessage} {s : ReceiveStream}

lemma Sound.arrive (h : s.Sound written) (n : ℕ) : (s.arrive n).Sound written where
  handled := h.handled
  finished hfinished := by
    have hwire := h.finished hfinished
    simp only [ReceiveStream.arrive, Framing.Lane.arrive, hwire, List.drop_nil]
  inStep hlive := (h.inStep hlive).arrive n

lemma Sound.finish (h : s.Sound written) : s.finish.Sound written := by
  rw [ReceiveStream.finish]
  split_ifs with hwire
  · exact ⟨h.handled, fun _ => hwire, h.inStep⟩
  · exact h

lemma Sound.dropRead (h : s.Sound written) (htaken : s.taken = []) : s.dropRead.Sound written :=
  ⟨h.handled, h.finished, fun hlive => (h.inStep hlive).giveUp htaken⟩

lemma Sound.close (h : s.Sound written) :
    ({ s.dropRead with status := .closed } : ReceiveStream).Sound written :=
  ⟨h.handled, h.finished, fun hlive => absurd rfl hlive⟩

lemma Sound.pend (h : s.Sound written) :
    ({ s with toLane := s.toLane.pend } : ReceiveStream).Sound written :=
  ⟨h.handled, h.finished, fun hlive => (h.inStep hlive).pend⟩

/-- A read that is done found the next message, or the end. -/
lemma Sound.complete (h : s.Sound written) (hlive : s.status ≠ .closed)
    (hdec : ∀ m ∈ written, serde.Decodes m)
    (hvalid : ∀ m ∈ written, validateMessage m = .ok () ∧
      m.toJson.bytes.length ≤ maxFrameSize)
    {result : IoResult (Option WireMessage) × List UInt8}
    (hpoll : pollFrame serde s.finished s.bytes = some result) :
    (s.complete result).Sound written := by
  rw [pollFrame] at hpoll
  split_ifs at hpoll with hwait
  obtain rfl := Option.some.inj hpoll
  have hbytes : s.bytes = s.taken ++ s.buffered := rfl
  rcases (h.inStep hlive).cases with hend | ⟨m, hm, part, hpart, hframe, hwire⟩ |
    ⟨m, hm, rest, hframe, hnext⟩
  · have hnil : s.bytes = [] := by
      rw [Framing.Lane.unread, ← List.append_assoc] at hend
      exact (List.append_eq_nil_iff.mp hend).1
    rw [hnil]
    exact ⟨by simpa [ReceiveStream.complete, readFrame, Bytes.splitExact,
      Framing.Lane.finishRead] using h.handled, h.finished, fun h => absurd rfl h⟩
  · have hunfinished : s.finished = false := by
      by_contra hfinished
      exact hwire (h.finished (Bool.eq_true_of_not_eq_false hfinished))
    exact absurd ⟨hunfinished, awaitsFrame_part (hvalid m hm).2 hframe hpart⟩ hwait
  · rw [hbytes, hframe, readFrame_message (hvalid m hm).1 (hdec m hm) (hvalid m hm).2]
    exact ⟨hnext.inOrder, h.finished, fun _ => hnext⟩

end ReceiveStream

namespace Receiver

variable {serde : SerdeJson} {frames : StreamId → List WireMessage}
  {wire : StreamId → List UInt8} {r : Receiver} {id : StreamId} {s : ReceiveStream}
  {l : List ReceiveEvent} {event : ReceiveEvent}

/-- Every stream is. -/
def Sound (frames : StreamId → List WireMessage) (r : Receiver) : Prop :=
  ∀ id, (r.streams id).Sound (frames id)

lemma streams_set_self (r : Receiver) (id : StreamId) (s : ReceiveStream) :
    (r.set id s).streams id = s := Function.update_self _ _ _

lemma streams_set_of_ne {id' : StreamId} (h : id' ≠ id) (s : ReceiveStream) :
    (r.set id s).streams id' = r.streams id' := Function.update_of_ne h _ _

/-- A stream that is set leaves the others to be sound. -/
lemma sound_set (hothers : ∀ id', id' ≠ id → (r.streams id').Sound (frames id'))
    (hs : s.Sound (frames id)) : (r.set id s).Sound frames := by
  intro id'
  by_cases hid : id' = id
  · subst hid
    rw [streams_set_self]
    exact hs
  · rw [streams_set_of_ne hid]
    exact hothers id' hid

lemma Sound.set (h : r.Sound frames) (hs : s.Sound (frames id)) : (r.set id s).Sound frames :=
  sound_set (fun id' _ => h id') hs

/-- The other reads are dropped before they took anything, and the own one is done. -/
lemma Sound.set_dropReads (h : r.Sound frames) (hs : s.Sound (frames id))
    (htaken : ∀ id', id' ≠ id → (r.streams id').taken = []) :
    (r.dropReads.set id s).Sound frames :=
  sound_set (fun id' hid => (h id').dropRead (htaken id' hid)) hs

lemma reads_live (h : r.reads id = true) : (r.streams id).status ≠ .closed := by
  rw [reads, Bool.and_eq_true, beq_iff_eq] at h
  rw [h.2]
  exact nofun

/-- An event keeps the streams sound, unless it tears a read. -/
lemma Sound.step (h : r.Sound frames) (hdec : ∀ id, ∀ m ∈ frames id, serde.Decodes m)
    (hvalid : ∀ id, ∀ m ∈ frames id, validateMessage m = .ok () ∧
      m.toJson.bytes.length ≤ maxFrameSize)
    (huntorn : r.completes serde event = true →
      ∀ id, event.own ≠ some id → (r.streams id).taken = []) :
    (r.step serde event).1.Sound frames := by
  cases event with
  | arrive id n => exact h.set ((h id).arrive n)
  | finish id => exact h.set (h id).finish
  | accept =>
    simp only [Receiver.step]
    split_ifs with hcompletes
    · have htaken := huntorn hcompletes
      refine h.set_dropReads ?_ fun id _ => htaken id nofun
      have hwaiting : (r.streams .motion).status = .waiting := by
        rw [completes, Bool.and_eq_true, beq_iff_eq] at hcompletes
        exact hcompletes.2
      have hmotion := h .motion
      exact ⟨hmotion.handled, hmotion.finished, fun _ => hmotion.inStep (by rw [hwaiting]; nofun)⟩
    · exact h
  | poll id =>
    simp only [Receiver.step]
    split_ifs with hreads
    · rcases hpoll : pollFrame serde (r.streams id).finished (r.streams id).bytes with _ | result
      · exact h.set (h id).pend
      · have hcompletes : r.completes serde (.poll id) = true := by
          rw [completes, hreads, hpoll]
          rfl
        refine h.set_dropReads ((h id).complete (reads_live hreads) (hdec id) (hvalid id) hpoll) ?_
        intro id' hne
        exact huntorn hcompletes id' fun hown => hne (Option.some.inj hown).symm
    · exact h
  | fail id =>
    simp only [Receiver.step]
    split_ifs with hlistens
    · refine h.set_dropReads (h id).close fun id' hne => ?_
      exact huntorn hlistens id' fun hown => hne (Option.some.inj hown).symm
    · exact h
  | other =>
    simp only [Receiver.step]
    split_ifs with hover
    · exact h
    · intro id
      refine (h id).dropRead (huntorn ?_ id nofun)
      rw [completes, Bool.eq_false_of_not_eq_true hover]
      rfl

/-! ### Runs -/

lemma sound_init (hwire : ∀ id, wire id = (frames id).flatMap WireMessage.frame) :
    (init wire).Sound frames := by
  intro id
  refine ⟨List.nil_prefix, nofun, fun _ => ⟨frames id, rfl, ?_⟩⟩
  exact hwire id

/-- **Frames come out in order while no read is torn**. In a run in which no arm of the loop
completes while the read of another has taken a part of a frame, what is handled of a stream is
a prefix of what was written to it, and nothing else of it is gone while it is read. -/
theorem frames_in_order (henc : ∀ id, ∀ m ∈ frames id, serde.Encodes m)
    (hdec : ∀ id, ∀ m ∈ frames id, serde.Decodes m)
    (hwritten : ∀ id, writeFrames serde (frames id) = .ok (wire id))
    (h : Trace.Each (Untorn serde wire) l) (id : StreamId) :
    ((after serde wire l).streams id).handled <+: frames id ∧
      (((after serde wire l).streams id).status ≠ .closed →
        ((after serde wire l).streams id).InStep WireMessage.frame (frames id)) := by
  have hwire := fun id => writeFrames_ok (henc id) (hwritten id)
  have hsound : (after serde wire l).Sound frames := by
    refine Trace.invariant (I := fun _ (r : Receiver) => r.Sound frames)
      (sound_init fun id => (hwire id).1) ?_ h
    intro m event hm huntorn
    exact hm.step hdec (fun id => (hwire id).2) huntorn
  exact ⟨(hsound id).handled, (hsound id).inStep⟩

/-! ### A torn read -/

/-- A JSON library that knows the texts of some messages. -/
def knowingAll (messages : List WireMessage) : SerdeJson where
  toVec m := .ok m.toJson.bytes
  fromSlice bytes :=
    match messages.find? fun m => decide (m.toJson.bytes = bytes) with
    | some m => .ok m
    | none => .error "expected value"

/-- Two pings on the episode stream. -/
def twoPings : StreamId → List WireMessage
  | .episode => [.ping 1, .ping 2]
  | .motion => []

def twoPingsWire (id : StreamId) : List UInt8 := (twoPings id).flatMap WireMessage.frame

lemma twoPings_written (id : StreamId) :
    writeFrames (knowingAll [.ping 1, .ping 2]) (twoPings id) = .ok (twoPingsWire id) := by
  cases id
  · rfl
  · rfl

theorem frames_in_order_pings :
    ((after (knowingAll [.ping 1, .ping 2]) twoPingsWire
      [.arrive .episode 30, .poll .episode]).streams .episode).handled <+: [.ping 1, .ping 2] := by
  have henc : ∀ id, ∀ m ∈ twoPings id, (knowingAll [.ping 1, .ping 2]).Encodes m :=
    fun _ _ _ => rfl
  have hdec : ∀ id, ∀ m ∈ twoPings id, (knowingAll [.ping 1, .ping 2]).Decodes m := by
    intro id m hm
    cases id with
    | motion => cases hm
    | episode =>
      rcases List.mem_cons.mp hm with rfl | hm
      · rfl
      · obtain rfl := List.mem_singleton.mp hm
        rfl
  have huntorn : Trace.Each (Untorn (knowingAll [.ping 1, .ping 2]) twoPingsWire)
      [.arrive .episode 30, .poll .episode] := by
    rw [show [ReceiveEvent.arrive .episode 30, .poll .episode] =
      [] ++ [.arrive .episode 30] ++ [.poll .episode] from rfl, Trace.each_snoc, Trace.each_snoc]
    refine ⟨⟨Trace.each_nil, nofun⟩, fun _ id hid => ?_⟩
    cases id with
    | motion => rfl
    | episode => exact absurd rfl hid
  exact (frames_in_order henc hdec twoPings_written huntorn .episode).1

/-- The first ping is taken but for its last byte, and that byte is taken alone; the second ping
is handled. -/
theorem torn_ping_lost :
    ¬((after (knowingAll [.ping 1, .ping 2]) twoPingsWire
      [.arrive .episode 23, .poll .episode, .other, .arrive .episode 1, .poll .episode, .other,
        .arrive .episode 24, .poll .episode]).streams .episode).handled <+:
      [.ping 1, .ping 2] := by
  have hhandled : ((after (knowingAll [.ping 1, .ping 2]) twoPingsWire
      [.arrive .episode 23, .poll .episode, .other, .arrive .episode 1, .poll .episode, .other,
        .arrive .episode 24, .poll .episode]).streams .episode).handled = [.ping 2] := by
    decide +kernel
  rw [hhandled, List.cons_prefix_cons]
  rintro ⟨h, -⟩
  cases h

end Receiver

end TheKvm
