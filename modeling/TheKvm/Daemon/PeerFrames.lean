import Mathlib.Data.List.ReduceOption
import TheKvm.Daemon.Clipboard
import TheKvm.Daemon.Drive

/-!
The frames a peer sends on the stream that drives it.

A task reads them and passes them on to the drive loop. While the stream is parked and is looked
after, what is not a sign of life waits in a queue of its own, which holds 64; the loop goes
through that queue before it receives more. Pastes come whole or in chunks, under a revision each.
-/

namespace TheKvm.PeerFrames

/-! ### Frames of pastes -/

/-- Texts and images come in the same frames. -/
inductive ClipboardFrame (δ : Type)
  | whole (revision : UInt64) (payload : List Char) (header : δ)
  | start (revision totalBytes : UInt64) (chunks : UInt32) (header : δ)
  | chunk (revision : UInt64) (index : UInt32) (data : List Char)
  | finish (revision : UInt64)

/-- What the reader passes on. -/
inductive RemoteSignal
  | handoff (handoff : RemoteHandoff)
  | text (frame : ClipboardFrame Unit)
  | image (frame : ClipboardFrame ImageSize)
  | progress
  | closed

/-- What `drain_peer_responses` makes of a message: a refusal ends it. -/
def response : WireMessage → Option (Option RemoteSignal)
  | .handoffRequest screenId targetName x y dx dy screenGeometry =>
    some (some (.handoff ⟨screenId, targetName, x, y, dx, dy, screenGeometry⟩))
  | .clipboardText revision text => some (some (.text (.whole revision text.toList ())))
  | .clipboardStart revision totalBytes chunks =>
    some (some (.text (.start revision totalBytes chunks ())))
  | .clipboardChunk revision index data => some (some (.text (.chunk revision index data.toList)))
  | .clipboardEnd revision => some (some (.text (.finish revision)))
  | .clipboardImage revision width height pngBase64 =>
    some (some (.image (.whole revision pngBase64.toList ⟨width.toNat, height.toNat⟩)))
  | .clipboardImageStart revision totalBytes chunks width height =>
    some (some (.image (.start revision totalBytes chunks ⟨width.toNat, height.toNat⟩)))
  | .clipboardImageChunk revision index data =>
    some (some (.image (.chunk revision index data.toList)))
  | .clipboardImageEnd revision => some (some (.image (.finish revision)))
  | .pong _ => some (some .progress)
  | .reject _ => none
  | _ => some none

/-- What a message is passed on as. -/
def passed (message : WireMessage) : Option RemoteSignal := (response message).join

def ClipboardFrame.textMessage : ClipboardFrame Unit → WireMessage
  | .whole revision payload _ => .clipboardText revision (String.ofList payload)
  | .start revision totalBytes chunks _ => .clipboardStart revision totalBytes chunks
  | .chunk revision index data => .clipboardChunk revision index (String.ofList data)
  | .finish revision => .clipboardEnd revision

def ClipboardFrame.imageMessage : ClipboardFrame ImageSize → WireMessage
  | .whole revision payload size =>
    .clipboardImage revision (.ofNat size.width) (.ofNat size.height) (String.ofList payload)
  | .start revision totalBytes chunks size =>
    .clipboardImageStart revision totalBytes chunks (.ofNat size.width) (.ofNat size.height)
  | .chunk revision index data => .clipboardImageChunk revision index (String.ofList data)
  | .finish revision => .clipboardImageEnd revision

/-! ### The sender -/

inductive Paste
  | text (payload : List Char)
  | image (pngBase64 : List Char) (size : ImageSize)
  deriving DecidableEq

/-- The frames of one paste: itself, or its chunks between a start and an end. -/
def framesOf {δ : Type} (split : List Char → Option (List (List Char))) (revision : UInt64)
    (payload : List Char) (header : δ) : List (ClipboardFrame δ) :=
  if Text.utf8Len payload ≤ maxClipboardTextBytes then [.whole revision payload header]
  else
    let chunks := (split payload).getD []
    .start revision (.ofNat (Text.utf8Len payload)) (.ofNat chunks.length) header ::
      (chunks.mapIdx (fun index data => .chunk revision (.ofNat index) data) ++ [.finish revision])

/-- `send_clipboard_text_inner` and `send_clipboard_image_inner`. -/
def Paste.messages (revision : UInt64) : Paste → List WireMessage
  | .text payload =>
    (framesOf splitClipboardChunks revision payload ()).map ClipboardFrame.textMessage
  | .image pngBase64 size =>
    (framesOf splitBase64Chunks revision pngBase64 size).map ClipboardFrame.imageMessage

/-! ### The drive loop's end -/

/-- What the session and the loop keep of pastes. -/
structure Inbox where
  remoteClipboardRevision : UInt64
  clipboardAssembly : ClipboardAssembly
  imageAssembly : ImageAssembly

def ClipboardFrame.revision {δ : Type} : ClipboardFrame δ → UInt64
  | .whole revision _ _ => revision
  | .start revision _ _ _ => revision
  | .chunk revision _ _ => revision
  | .finish revision => revision

/-- `clipboard_frame_current`. -/
def clipboardFrameCurrent (enabled : Bool) (revision remote : UInt64) : Bool :=
  enabled && remote < revision

/-- One frame on an assembly, and the paste that is complete with it. -/
def ClipboardFrame.take {δ : Type} [Inhabited δ] (sane : δ → Bool) (maxBytes : ℕ)
    (a : Assembly δ) : ClipboardFrame δ → Assembly δ × Option (List Char × δ)
  | .whole _ payload header =>
    (a, if maxBytes < Text.utf8Len payload then none else some (payload, header))
  | .start revision totalBytes chunks header =>
    ((Assembly.feedStart sane revision.toNat totalBytes.toNat chunks header maxBytes).1, none)
  | .chunk revision index data => ((a.feedChunk revision.toNat index data).1, none)
  | .finish revision =>
    match a.feedEnd revision.toNat with
    | (a, .ready payload header) => (a, some (payload, header))
    | (a, _) => (a, none)

/-- `clipboard_max_bytes`. -/
def clipboardMaxBytes (clipboardMaxMb : UInt32) : ℕ :=
  (max 1 (min clipboardMaxMb maxClipboardMaxMb)).toNat * 1024 * 1024

/-- One frame on an assembly behind the revision that was applied last. -/
def feedFrame {δ : Type} [Inhabited δ] (sane : δ → Bool) (enabled : Bool) (maxBytes : ℕ)
    (s : UInt64 × Assembly δ) (frame : ClipboardFrame δ) :
    (UInt64 × Assembly δ) × Option (UInt64 × List Char × δ) :=
  if clipboardFrameCurrent enabled frame.revision s.1 then
    match frame.take sane maxBytes s.2 with
    | (a, none) => ((s.1, a), none)
    | (a, some paste) => ((frame.revision, a), some (frame.revision, paste))
  else (s, none)

/-- The clipboard arms of the loop, with the paste that one applies. -/
def Inbox.step (enabled : Bool) (maxBytes : ℕ) (b : Inbox) :
    RemoteSignal → Inbox × Option (UInt64 × Paste)
  | .text frame =>
    let ((remote, a), paste) := feedFrame (fun _ => true) enabled maxBytes
      (b.remoteClipboardRevision, b.clipboardAssembly) frame
    ({ b with remoteClipboardRevision := remote, clipboardAssembly := a },
      paste.map fun (revision, text, _) => (revision, .text text))
  | .image frame =>
    let ((remote, a), paste) := feedFrame ImageSize.sane enabled maxBytes
      (b.remoteClipboardRevision, b.imageAssembly) frame
    ({ b with remoteClipboardRevision := remote, imageAssembly := a },
      paste.map fun (revision, pngBase64, size) => (revision, .image pngBase64 size))
  | _ => (b, none)

/-! ### The stream -/

inductive Phase
  | driving | parked
  /-- a `Ping` is out, and its answer decides -/
  | awaiting
  /-- proved alive, and about to be resumed -/
  | taken
  deriving DecidableEq

structure TopologySession where
  stream : ℕ
  phase : Phase
  clipboardEnabled : Bool
  remoteClipboardRevision : UInt64
  lastProgress : Option Instant
  /-- The reader has not ended. -/
  reading : Bool
  signals : List RemoteSignal
  deferred : List RemoteSignal
  /-- The messages that the reader has read. -/
  read : List WireMessage
  /-- What the loop has handled, and what was dropped at the cap. -/
  past : List (RemoteSignal × Bool)

def RemoteSignal.carries : RemoteSignal → Bool
  | .progress => false
  | .closed => false
  | _ => true

def RemoteSignal.pastes : RemoteSignal → Bool
  | .text _ => true
  | .image _ => true
  | _ => false

/-- The frames among what was read. -/
def carriedBy (read : List WireMessage) : List RemoteSignal :=
  (read.filterMap passed).filter RemoteSignal.carries

def deferredCap : ℕ := 64

namespace TopologySession

/-- A message is read. -/
def arrive (s : TopologySession) (message : WireMessage) : TopologySession :=
  if s.reading = false then s
  else
    let s := { s with read := s.read ++ [message] }
    match response message with
    | none => { s with signals := s.signals ++ [.closed], reading := false }
    | some none => s
    | some (some signal) => { s with signals := s.signals ++ [signal] }

/-- The stream ends, or breaks. -/
def cut (s : TopologySession) : TopologySession :=
  if s.reading = false then s else { s with signals := s.signals ++ [.closed], reading := false }

def pushDeferredCapped (s : TopologySession) (signal : RemoteSignal) : TopologySession :=
  match s.deferred with
  | [] => { s with deferred := [signal] }
  | oldest :: rest =>
    if deferredCap ≤ s.deferred.length then
      { s with deferred := rest ++ [signal], past := s.past ++ [(oldest, false)] }
    else { s with deferred := s.deferred ++ [signal] }

/-- What is received next, where it is there: `some none` once the reader is gone. -/
def recv (s : TopologySession) : Option (Option RemoteSignal × TopologySession) :=
  match s.signals with
  | signal :: signals => some (some signal, { s with signals })
  | [] => if s.reading then none else some (none, s)

/-- The signals of `drain_parked_signals`; `none` for a stream that is closed. -/
def drainSignals (now : Instant) : List RemoteSignal → TopologySession → Option TopologySession
  | [], s => if s.reading then some s else none
  | .progress :: signals, s => drainSignals now signals { s with lastProgress := some now }
  | .closed :: _, _ => none
  | signal :: signals, s => drainSignals now signals (s.pushDeferredCapped signal)

/-- `drain_parked_signals`. -/
def drainParkedSignals (s : TopologySession) (now : Instant) : Option (TopologySession × Bool) :=
  let fresh := s.lastProgress.any fun when => elapsed now when < parkedLiveness
  let progress := s.signals.any fun signal => signal matches .progress
  (drainSignals now s.signals { s with signals := [] }).map fun s => (s, fresh || progress)

end TopologySession

/-! ### The loop -/

structure DriveEnd where
  held : Option TopologySession
  ended : List TopologySession
  streams : ℕ
  clipboardAssembly : ClipboardAssembly
  imageAssembly : ImageAssembly
  /-- The pastes that were applied, by stream and revision. -/
  applied : List (ℕ × UInt64 × Paste)

inductive Op
  /-- a dial that drives, or a stream that is opened ahead -/
  | opened (clipboardEnabled drives : Bool)
  | arrive (message : WireMessage)
  | cut
  /-- the signal arm of the loop -/
  | signal (now : Instant)
  | park
  /-- `take_parked_for`, whether it is for that target on a live association -/
  | take (usable : Bool) (now : Instant)
  /-- one signal while the answer is awaited -/
  | receive (now : Instant)
  /-- the answer is late, or the `Ping` did not go out -/
  | lapse
  /-- `resume_parked_session`, whether its frames go out -/
  | resume (now : Instant) (written : Bool)
  /-- the session is ended otherwise -/
  | finish

namespace DriveEnd

def start : DriveEnd := ⟨none, [], 0, .default, .default, []⟩

def sessions (w : DriveEnd) : List TopologySession := w.ended ++ w.held.toList

def finish (w : DriveEnd) (s : TopologySession) : DriveEnd :=
  { w with held := none, ended := w.ended ++ [s] }

/-- A signal that the loop handles. -/
def handle (maxBytes : ℕ) (w : DriveEnd) (s : TopologySession) (now : Instant) :
    Option RemoteSignal → DriveEnd
  | none | some .closed => w.finish s
  | some .progress => { w with held := some { s with lastProgress := some now } }
  | some (.handoff handoff) =>
    let s := { s with past := s.past ++ [(.handoff handoff, true)] }
    if s.phase = .driving then w.finish s else { w with held := some s }
  | some signal =>
    let (b, paste) := Inbox.step s.clipboardEnabled maxBytes
      ⟨s.remoteClipboardRevision, w.clipboardAssembly, w.imageAssembly⟩ signal
    { w with
      held := some { s with
        remoteClipboardRevision := b.remoteClipboardRevision
        past := s.past ++ [(signal, true)] }
      clipboardAssembly := b.clipboardAssembly
      imageAssembly := b.imageAssembly
      applied := w.applied ++ (paste.map fun p => (s.stream, p)).toList }

/-- The queue of the session, and then the channel. -/
def signal (maxBytes : ℕ) (w : DriveEnd) (s : TopologySession) (now : Instant) : DriveEnd :=
  match s.deferred with
  | signal :: deferred => w.handle maxBytes { s with deferred } now (some signal)
  | [] =>
    match s.recv with
    | none => w
    | some (signal, s) => w.handle maxBytes s now signal

/-- A step of the session that is held. -/
def move (maxBytes : ℕ) (w : DriveEnd) (s : TopologySession) : Op → DriveEnd
  | .opened .. => w
  | .arrive message => { w with held := some (s.arrive message) }
  | .cut => { w with held := some s.cut }
  | .signal now =>
    if s.phase = .driving ∨ s.phase = .parked then w.signal maxBytes s now else w
  | .park => if s.phase = .driving then { w with held := some { s with phase := .parked } } else w
  | .take usable now =>
    if s.phase ≠ .parked then w
    else if usable = false then w.finish s
    else
      match s.drainParkedSignals now with
      | none => w.finish s
      | some (s, fresh) =>
        { w with held := some { s with phase := if fresh then .taken else .awaiting } }
  | .receive now =>
    if s.phase ≠ .awaiting then w
    else
      match s.recv with
      | none => w
      | some (some .progress, s) =>
        { w with held := some { s with lastProgress := some now, phase := .taken } }
      | some (some .closed, s) => w.finish s
      | some (none, s) => w.finish s
      | some (some signal, s) => { w with held := some (s.pushDeferredCapped signal) }
  | .lapse => if s.phase = .awaiting then w.finish s else w
  | .resume now written =>
    if s.phase ≠ .taken then w
    else
      match s.drainParkedSignals now with
      | none => w.finish s
      | some (s, _) =>
        if written then { w with held := some { s with phase := .driving } } else w.finish s
  | .finish => w.finish s

def step (maxBytes : ℕ) (w : DriveEnd) (op : Op) : DriveEnd × Unit :=
  match w.held, op with
  | none, .opened clipboardEnabled drives =>
    ({ w with
        held := some ⟨w.streams, if drives then .driving else .parked, clipboardEnabled, 0, none,
          true, [], [], [], []⟩
        streams := w.streams + 1 }, ())
  | none, _ => (w, ())
  | some s, op => (w.move maxBytes s op, ())

abbrev after (maxBytes : ℕ) (l : List Op) : DriveEnd := Trace.final (step maxBytes) start l

end DriveEnd

/-! ### One paste -/

section

variable {δ : Type} [Inhabited δ] {sane : δ → Bool} {maxBytes : ℕ} {a : Assembly δ}
  {revision : UInt64} {payload : List Char} {header : δ}

/-- The call that a frame of a chunked paste makes. -/
def ClipboardFrame.call (maxBytes : ℕ) : ClipboardFrame δ → Option (AssemblyCall δ)
  | .whole .. => none
  | .start revision totalBytes chunks header =>
    some (.start revision.toNat totalBytes.toNat chunks header maxBytes)
  | .chunk revision index data => some (.chunk revision.toNat index data)
  | .finish revision => some (.finish revision.toNat)

/-- What a call hands out. -/
def handedOut : Feed δ → Option (List Char × δ)
  | .ready payload header => some (payload, header)
  | _ => none

lemma feedChunk_handedOut (a : Assembly δ) (revision : ℕ) (index : UInt32) (data : List Char) :
    handedOut (a.feedChunk revision index data).2 = none := by
  unfold Assembly.feedChunk
  split_ifs <;> rfl

lemma feedStart_handedOut (revision totalBytes : ℕ) (chunks : UInt32) (header : δ) :
    handedOut (Assembly.feedStart sane revision totalBytes chunks header maxBytes).2 = none := by
  unfold Assembly.feedStart
  split_ifs <;> rfl

lemma take_of_call {frame : ClipboardFrame δ} {call : AssemblyCall δ}
    (h : frame.call maxBytes = some call) :
    frame.take sane maxBytes a = ((a.feed sane call).1, handedOut (a.feed sane call).2) := by
  cases frame with
  | whole => cases h
  | start revision totalBytes chunks header =>
    cases h
    exact Prod.ext rfl (feedStart_handedOut ..).symm
  | chunk revision index data =>
    cases h
    exact Prod.ext rfl (feedChunk_handedOut ..).symm
  | finish revision =>
    cases h
    unfold ClipboardFrame.take Assembly.feed
    dsimp only
    generalize a.feedEnd revision.toNat = r
    obtain ⟨a', fed⟩ := r
    cases fed <;> rfl

/-- Frames that all make calls do what the calls do. -/
lemma outputs_take {frames : List (ClipboardFrame δ)} {calls : List (AssemblyCall δ)}
    (h : frames.map (ClipboardFrame.call maxBytes) = calls.map some) :
    Trace.outputs (fun a (frame : ClipboardFrame δ) => frame.take sane maxBytes a) a frames =
      (Trace.outputs (Assembly.feed sane) a calls).map handedOut := by
  induction frames generalizing a calls with
  | nil =>
    cases calls with
    | nil => rfl
    | cons call calls => cases h
  | cons frame frames ih =>
    cases calls with
    | nil => cases h
    | cons call calls =>
      rw [List.map_cons, List.map_cons] at h
      obtain ⟨hcall, hcalls⟩ := List.cons.inj h
      rw [Trace.outputs, Trace.outputs, List.map_cons, take_of_call hcall, ih hcalls]

def opens : AssemblyCall δ → Bool
  | .start .. => true
  | _ => false

/-- Without a start nothing is put up. -/
lemma outputs_refused {calls : List (AssemblyCall δ)} (h : ∀ call ∈ calls, opens call = false) :
    Trace.outputs (Assembly.feed sane) (Assembly.default : Assembly δ) calls =
      List.replicate calls.length .dropped := by
  induction calls with
  | nil => rfl
  | cons call calls ih =>
    have hfed : (Assembly.default : Assembly δ).feed sane call = (Assembly.default, .dropped) := by
      cases call with
      | start => exact absurd (h _ List.mem_cons_self) (by simp [opens])
      | chunk revision index data => exact Assembly.feedChunk_default ..
      | finish revision => exact Assembly.feedEnd_default ..
    rw [Trace.outputs, hfed, List.length_cons, List.replicate_succ,
      ih fun c hc => h c (List.mem_cons_of_mem _ hc)]

/-- A paste that the frames can tell: its size is a `u64`, and it splits into parts of it. -/
structure Splits (split : List Char → Option (List (List Char))) (payload : List Char) : Prop where
  size : Text.utf8Len payload < 2 ^ 64
  chunks : ∃ chunks, split payload = some chunks ∧ chunks.flatten = payload ∧
    ∀ chunk ∈ chunks, chunk ≠ []

lemma length_le_flatten {chunks : List (List Char)} (h : ∀ chunk ∈ chunks, chunk ≠ []) :
    chunks.length ≤ chunks.flatten.length := by
  induction chunks with
  | nil => exact Nat.zero_le _
  | cons chunk chunks ih =>
    have hpos := List.length_pos_of_ne_nil (h chunk List.mem_cons_self)
    have hrest := ih fun c hc => h c (List.mem_cons_of_mem _ hc)
    rw [List.length_cons, List.flatten_cons, List.length_append]
    omega

/-- The frames of one paste hand it out with the last of them, if it is within the cap. -/
lemma outputs_framesOf {split : List Char → Option (List (List Char))}
    (hsplits : ¬Text.utf8Len payload ≤ maxClipboardTextBytes → Splits split payload)
    (hsane : sane header = true) (hmax : maxBytes < 2 ^ 32)
    (a : Assembly δ) (revision : UInt64) :
    ∃ n, Trace.outputs (fun a (frame : ClipboardFrame δ) => frame.take sane maxBytes a) a
      (framesOf split revision payload header) = List.replicate n none ++
        [if maxBytes < Text.utf8Len payload then none else some (payload, header)] := by
  unfold framesOf
  split_ifs with hwhole hover hover
  · exact ⟨0, by simp [ClipboardFrame.take, Trace.outputs, hover]⟩
  · exact ⟨0, by simp [ClipboardFrame.take, Trace.outputs, hover]⟩
  all_goals
    obtain ⟨hfits, chunks, hsplit, hflat, hne⟩ := hsplits hwhole
    have hsize : (UInt64.ofNat (Text.utf8Len payload)).toNat = Text.utf8Len payload := by
      rw [UInt64.toNat_ofNat']
      exact Nat.mod_eq_of_lt hfits
    rw [hsplit, Option.getD_some]
    have hcalls : (ClipboardFrame.start revision (.ofNat (Text.utf8Len payload))
        (.ofNat chunks.length) header :: (chunks.mapIdx (fun index data =>
          ClipboardFrame.chunk revision (.ofNat index) data) ++ [.finish revision])).map
          (ClipboardFrame.call maxBytes) =
        (sentCalls revision.toNat payload header maxBytes chunks).map some := by
      unfold sentCalls chunkCalls
      rw [List.mapIdx_eq_zipIdx_map, List.mapIdx_eq_zipIdx_map]
      simp [ClipboardFrame.call, hsize, Function.comp_def]
    rw [outputs_take hcalls]
  · -- Over the cap the start is refused, and what follows is dropped.
    refine ⟨chunks.length + 1, ?_⟩
    have hfirst : a.feed sane (.start revision.toNat (Text.utf8Len payload) (.ofNat chunks.length)
        header maxBytes) = (Assembly.default, .dropped) := if_pos (Or.inr (Or.inl hover))
    unfold sentCalls
    rw [Trace.outputs, hfirst, outputs_refused]
    · simp [handedOut, chunkCalls, ← List.replicate_succ, ← List.replicate_succ']
    · intro call hcall
      rcases List.mem_append.mp hcall with hcall | hcall
      · obtain ⟨i, hi, rfl⟩ := List.mem_mapIdx.mp hcall
        rfl
      · rw [List.mem_singleton.mp hcall]
        rfl
  · refine ⟨chunks.length + 1, ?_⟩
    have hpos : 0 < Text.utf8Len payload := by
      unfold maxClipboardTextBytes at hwhole
      omega
    have hcount : chunks.length ≤ Text.utf8Len payload := by
      rw [← hflat]
      exact (length_le_flatten hne).trans (Text.length_le_utf8Len _)
    have hdvd : ¬2 ^ 32 ∣ chunks.length := by
      intro hdvd
      have hlen : chunks ≠ [] := by
        rintro rfl
        rw [← hflat] at hpos
        simp at hpos
      have := Nat.le_of_dvd (List.length_pos_of_ne_nil hlen) hdvd
      omega
    rw [(Assembly.sentCalls_arrive a revision.toNat hflat hpos (by omega) hsane).mpr hdvd]
    simp [arrival, handedOut]

omit [Inhabited δ] in
lemma revision_framesOf {split : List Char → Option (List (List Char))} {frame : ClipboardFrame δ}
    (h : frame ∈ framesOf split revision payload header) : frame.revision = revision := by
  unfold framesOf at h
  split_ifs at h
  · rw [List.mem_singleton.mp h]
    rfl
  · rcases List.mem_cons.mp h with rfl | h
    · rfl
    · rcases List.mem_append.mp h with h | h
      · obtain ⟨i, hi, rfl⟩ := List.mem_mapIdx.mp h
        rfl
      · rw [List.mem_singleton.mp h]
        rfl

/-- Frames of one revision pass, up to the one that hands something out. -/
lemma outputs_feedFrame {frames : List (ClipboardFrame δ)} {n : ℕ} {x : Option (List Char × δ)}
    {remote : UInt64} (hrevision : ∀ frame ∈ frames, frame.revision = revision)
    (hcurrent : remote < revision)
    (h : Trace.outputs (fun a (frame : ClipboardFrame δ) => frame.take sane maxBytes a) a frames =
      List.replicate n none ++ [x]) :
    Trace.outputs (feedFrame sane true maxBytes) (remote, a) frames =
        List.replicate n none ++ [x.map (revision, ·)] ∧
      (Trace.final (feedFrame sane true maxBytes) (remote, a) frames).1 ≤ revision := by
  induction frames generalizing a n with
  | nil => simp at h
  | cons frame frames ih =>
    have hpass : clipboardFrameCurrent true frame.revision remote = true := by
      rw [hrevision frame List.mem_cons_self]
      simpa [clipboardFrameCurrent] using hcurrent
    have hone : feedFrame sane true maxBytes (remote, a) frame =
        match frame.take sane maxBytes a with
        | (a, none) => ((remote, a), none)
        | (a, some paste) => ((revision, a), some (revision, paste)) := by
      unfold feedFrame
      rw [if_pos hpass, hrevision frame List.mem_cons_self]
    rw [Trace.outputs] at h
    rw [Trace.outputs, Trace.final_cons, hone]
    generalize frame.take sane maxBytes a = r at h
    obtain ⟨a', y⟩ := r
    cases n with
    | zero =>
      obtain ⟨rfl, hrest⟩ := List.cons.inj h
      have hnil : frames = [] := by
        rw [← List.length_eq_zero_iff, ← Trace.length_outputs, hrest, List.length_nil]
      subst hnil
      cases y with
      | none => exact ⟨rfl, UInt64.le_of_lt hcurrent⟩
      | some paste => exact ⟨rfl, UInt64.le_refl _⟩
    | succ n =>
      rw [List.replicate_succ, List.cons_append] at h
      obtain ⟨rfl, hrest⟩ := List.cons.inj h
      obtain ⟨houtputs, hfinal⟩ := ih (fun f hf => hrevision f (List.mem_cons_of_mem _ hf)) hrest
      rw [List.replicate_succ, List.cons_append]
      exact ⟨congrArg _ houtputs, hfinal⟩

end

/-! ### Pastes in a row -/

/-- The signals that a paste comes as. -/
def Paste.signals (revision : UInt64) : Paste → List RemoteSignal
  | .text payload => (framesOf splitClipboardChunks revision payload ()).map .text
  | .image pngBase64 size => (framesOf splitBase64Chunks revision pngBase64 size).map .image

def Paste.len : Paste → ℕ
  | .text payload => Text.utf8Len payload
  | .image pngBase64 _ => Text.utf8Len pngBase64

/-- A paste that a sender can have: its size is a `usize`, and an image is base64 with dimensions
that its frames pass the check with. -/
def Paste.Sendable : Paste → Prop
  | .text payload => Text.utf8Len payload < 2 ^ 64
  | .image pngBase64 size =>
    Text.utf8Len pngBase64 < 2 ^ 64 ∧ (∀ c ∈ pngBase64, c.toNat < 0x80) ∧ size.sane = true

/-- Pastes under rising revisions. -/
def InOrder (sent : List (UInt64 × Paste)) : Prop :=
  (∀ p ∈ sent, 0 < p.1 ∧ p.2.Sendable) ∧ sent.Pairwise fun p q => p.1 < q.1

def signalsOf (sent : List (UInt64 × Paste)) : List RemoteSignal :=
  sent.flatMap fun p => p.2.signals p.1

/-- The pastes within the cap of the loop. -/
def within (maxBytes : ℕ) (sent : List (UInt64 × Paste)) : List (UInt64 × Paste) :=
  sent.filter fun p => p.2.len ≤ maxBytes

section

variable {maxBytes : ℕ} {b : Inbox} {revision : UInt64} {paste : Paste}
  {sent : List (UInt64 × Paste)} {signals : List RemoteSignal}

variable (maxBytes) in
lemma outputs_texts (enabled : Bool) (b : Inbox) (frames : List (ClipboardFrame Unit)) :
    let run := feedFrame (fun _ => true) enabled maxBytes
    let at₀ := (b.remoteClipboardRevision, b.clipboardAssembly)
    Trace.outputs (Inbox.step enabled maxBytes) b (frames.map .text) =
        (Trace.outputs run at₀ frames).map
          (Option.map fun p => (p.1, Paste.text p.2.1)) ∧
      (Trace.final (Inbox.step enabled maxBytes) b (frames.map .text)).remoteClipboardRevision =
        (Trace.final run at₀ frames).1 := by
  induction frames generalizing b with
  | nil => exact ⟨rfl, rfl⟩
  | cons frame frames ih =>
    obtain ⟨houtputs, hfinal⟩ := ih (Inbox.step enabled maxBytes b (.text frame)).1
    refine ⟨?_, hfinal⟩
    rw [List.map_cons, Trace.outputs, houtputs]
    rfl

variable (maxBytes) in
lemma outputs_images (enabled : Bool) (b : Inbox) (frames : List (ClipboardFrame ImageSize)) :
    let run := feedFrame ImageSize.sane enabled maxBytes
    let at₀ := (b.remoteClipboardRevision, b.imageAssembly)
    Trace.outputs (Inbox.step enabled maxBytes) b (frames.map .image) =
        (Trace.outputs run at₀ frames).map
          (Option.map fun p => (p.1, Paste.image p.2.1 p.2.2)) ∧
      (Trace.final (Inbox.step enabled maxBytes) b (frames.map .image)).remoteClipboardRevision =
        (Trace.final run at₀ frames).1 := by
  induction frames generalizing b with
  | nil => exact ⟨rfl, rfl⟩
  | cons frame frames ih =>
    obtain ⟨houtputs, hfinal⟩ := ih (Inbox.step enabled maxBytes b (.image frame)).1
    refine ⟨?_, hfinal⟩
    rw [List.map_cons, Trace.outputs, houtputs]
    rfl

lemma splits_text {payload : List Char} (h : Text.utf8Len payload < 2 ^ 64)
    (hlong : ¬Text.utf8Len payload ≤ maxClipboardTextBytes) :
    Splits splitClipboardChunks payload := by
  obtain ⟨chunks, hchunks, hflat, hne⟩ :=
    Text.exists_textSlices (by decide : 4 ≤ clipboardChunkBytes) payload
  refine ⟨h, chunks, ?_, hflat, fun chunk hchunk => (hne chunk hchunk).1⟩
  exact (if_neg hlong).trans hchunks

lemma splits_base64 {payload : List Char} (h : Text.utf8Len payload < 2 ^ 64)
    (hascii : ∀ c ∈ payload, c.toNat < 0x80)
    (hlong : ¬Text.utf8Len payload ≤ maxClipboardTextBytes) :
    Splits splitBase64Chunks payload := by
  obtain ⟨chunks, hchunks, hflat, hne⟩ :=
    Text.exists_byteSlices (by decide : 0 < clipboardChunkBytes) hascii
  refine ⟨h, chunks, ?_, hflat, fun chunk hchunk => (hne chunk hchunk).1⟩
  exact (if_neg hlong).trans hchunks

/-- One paste is applied with the last of its frames, if it is within the cap. -/
lemma outputs_paste (hmax : maxBytes < 2 ^ 32) (hsend : paste.Sendable)
    (hcurrent : b.remoteClipboardRevision < revision) :
    let run := Inbox.step true maxBytes
    (∃ n, Trace.outputs run b (paste.signals revision) = List.replicate n none ++
        [if maxBytes < paste.len then none else some (revision, paste)]) ∧
      (Trace.final run b (paste.signals revision)).remoteClipboardRevision ≤ revision := by
  dsimp only
  cases paste with
  | text payload =>
    obtain ⟨n, hn⟩ : ∃ n, Trace.outputs (fun a (frame : ClipboardFrame Unit) =>
        frame.take (fun _ => true) maxBytes a) b.clipboardAssembly
        (framesOf splitClipboardChunks revision payload ()) = List.replicate n none ++
          [if maxBytes < Text.utf8Len payload then none else some (payload, ())] :=
      outputs_framesOf (splits_text hsend) rfl hmax b.clipboardAssembly revision
    obtain ⟨houtputs, hfinal⟩ :=
      outputs_feedFrame (fun _ hframe => revision_framesOf hframe) hcurrent hn
    obtain ⟨htexts, hremote⟩ := outputs_texts maxBytes true b
      (framesOf splitClipboardChunks revision payload ())
    refine ⟨⟨n, ?_⟩, ?_⟩
    · rw [Paste.signals, htexts, houtputs, Paste.len]
      split_ifs <;> simp
    · rw [Paste.signals, hremote]
      exact hfinal
  | image pngBase64 size =>
    obtain ⟨hsize, hascii, hsane⟩ := hsend
    obtain ⟨n, hn⟩ := outputs_framesOf (splits_base64 hsize hascii) hsane hmax b.imageAssembly
      revision
    obtain ⟨houtputs, hfinal⟩ :=
      outputs_feedFrame (fun _ hframe => revision_framesOf hframe) hcurrent hn
    obtain ⟨himages, hremote⟩ := outputs_images maxBytes true b
      (framesOf splitBase64Chunks revision pngBase64 size)
    refine ⟨⟨n, ?_⟩, ?_⟩
    · rw [Paste.signals, himages, houtputs, Paste.len]
      split_ifs <;> simp
    · rw [Paste.signals, hremote]
      exact hfinal

lemma signalsOf_cons (p : UInt64 × Paste) (sent : List (UInt64 × Paste)) :
    signalsOf (p :: sent) = p.2.signals p.1 ++ signalsOf sent := List.flatMap_cons

lemma reduceOption_last {α : Type} (n : ℕ) (x : Option α) :
    (List.replicate n none ++ [x]).reduceOption = x.toList := by
  rw [List.reduceOption_append, List.reduceOption_replicate_none, List.nil_append,
    List.reduceOption_singleton]

lemma within_cons (p : UInt64 × Paste) (sent : List (UInt64 × Paste)) :
    within maxBytes (p :: sent) =
      (if maxBytes < p.2.len then none else some p).toList ++ within maxBytes sent := by
  unfold within
  by_cases hover : maxBytes < p.2.len
  · rw [if_pos hover, List.filter_cons_of_neg (by simpa using hover)]
    rfl
  · rw [if_neg hover, List.filter_cons_of_pos (by simpa using hover)]
    rfl

/-- Of pastes in a row, those that have come whole are applied. -/
lemma outputs_prefix (hmax : maxBytes < 2 ^ 32) (hsent : InOrder sent)
    (hcurrent : ∀ p ∈ sent, b.remoteClipboardRevision < p.1) (h : signals <+: signalsOf sent) :
    ∃ done rest, sent = done ++ rest ∧ signalsOf done <+: signals ∧
      (∀ p, rest.head? = some p → ¬signalsOf (done ++ [p]) <+: signals) ∧
      (Trace.outputs (Inbox.step true maxBytes) b signals).reduceOption =
        within maxBytes done := by
  induction sent generalizing b signals with
  | nil =>
    rw [List.prefix_nil.mp h]
    exact ⟨[], [], rfl, List.prefix_rfl, by simp, rfl⟩
  | cons p sent ih =>
    obtain ⟨hsend, hrising⟩ := hsent
    obtain ⟨hfirst, hrising⟩ := List.pairwise_cons.mp hrising
    obtain ⟨⟨n, houtputs⟩, hremote⟩ := outputs_paste hmax (hsend p List.mem_cons_self).2
      (hcurrent p List.mem_cons_self)
    rw [signalsOf_cons] at h
    by_cases hwhole : p.2.signals p.1 <+: signals
    · obtain ⟨more, rfl⟩ := hwhole
      obtain ⟨done, rest, rfl, hdone, hnext, happlied⟩ :=
        ih ⟨fun q hq => hsend q (List.mem_cons_of_mem _ hq), hrising⟩
          (fun q hq => UInt64.lt_of_le_of_lt hremote (hfirst q hq))
          ((List.prefix_append_right_inj _).mp h)
      refine ⟨p :: done, rest, rfl, ?_, ?_, ?_⟩
      · rw [signalsOf_cons]
        exact (List.prefix_append_right_inj _).mpr hdone
      · intro q hq hmore
        rw [List.cons_append, signalsOf_cons] at hmore
        exact hnext q hq ((List.prefix_append_right_inj _).mp hmore)
      · rw [Trace.outputs_append, List.reduceOption_append, happlied, houtputs,
          reduceOption_last, within_cons]
    · -- The first paste has not come whole, so nothing of it is applied.
      refine ⟨[], p :: sent, rfl, List.nil_prefix, ?_, ?_⟩
      · intro q hq hmore
        obtain rfl := Option.some.inj hq
        rw [List.nil_append, signalsOf_cons] at hmore
        exact hwhole ((List.prefix_append _ _).trans hmore)
      · obtain ⟨more, hmore⟩ : signals <+: p.2.signals p.1 :=
          (List.prefix_or_prefix_of_prefix h (List.prefix_append _ _)).resolve_right hwhole
        have hpart : Trace.outputs (Inbox.step true maxBytes) b signals <+:
            List.replicate n none ++ [if maxBytes < p.2.len then none else some (p.1, p.2)] := by
          rw [← houtputs, ← hmore, Trace.outputs_append]
          exact List.prefix_append _ _
        rcases List.prefix_concat_iff.mp hpart with hall | hpart
        · exfalso
          have hlength : signals.length = (p.2.signals p.1).length := by
            rw [← Trace.length_outputs (Inbox.step true maxBytes) b signals, hall, ← houtputs,
              Trace.length_outputs]
          refine hwhole (hmore ▸ ?_)
          have hnil : more = [] := by
            rw [← hmore, List.length_append] at hlength
            exact List.length_eq_zero_iff.mp (by omega)
          rw [hnil, List.append_nil]
        · rw [(List.prefix_replicate_iff.mp hpart).2, List.reduceOption_replicate_none]
          rfl

/-! ### The frames on the wire -/

lemma passed_textMessage (frame : ClipboardFrame Unit) :
    passed frame.textMessage = some (.text frame) := by
  cases frame <;> simp [ClipboardFrame.textMessage, passed, response]

lemma passed_imageMessage {split : List Char → Option (List (List Char))} {payload : List Char}
    {size : ImageSize} (hsane : size.sane = true) {frame : ClipboardFrame ImageSize}
    (h : frame ∈ framesOf split revision payload size) :
    passed frame.imageMessage = some (.image frame) := by
  obtain ⟨width, height⟩ := size
  obtain ⟨hwidth, hheight⟩ : width ≤ 16384 ∧ height ≤ 16384 := by
    simp [ImageSize.sane] at hsane
    omega
  have hfit : (UInt32.ofNat width).toNat = width ∧ (UInt32.ofNat height).toNat = height := by
    rw [UInt32.toNat_ofNat', UInt32.toNat_ofNat']
    omega
  unfold framesOf at h
  split_ifs at h
  · rw [List.mem_singleton.mp h]
    simp [ClipboardFrame.imageMessage, passed, response, hfit]
  · rcases List.mem_cons.mp h with rfl | h
    · simp [ClipboardFrame.imageMessage, passed, response, hfit]
    · rcases List.mem_append.mp h with h | h
      · obtain ⟨i, hi, rfl⟩ := List.mem_mapIdx.mp h
        simp [ClipboardFrame.imageMessage, passed, response]
      · rw [List.mem_singleton.mp h]
        rfl

/-- What is sent for a paste is passed on as the frames of it. -/
lemma passed_messages (h : paste.Sendable) (revision : UInt64) :
    (paste.messages revision).filterMap passed = paste.signals revision := by
  cases paste with
  | text payload =>
    rw [Paste.messages, List.filterMap_map, Paste.signals, List.filterMap_eq_map_iff_forall_eq_some]
    exact fun frame _ => passed_textMessage frame
  | image pngBase64 size =>
    rw [Paste.messages, List.filterMap_map, Paste.signals, List.filterMap_eq_map_iff_forall_eq_some]
    exact fun frame hframe => passed_imageMessage h.2.2 hframe

/-! ### What a run of frames applies at most -/

variable (maxBytes) in
/-- A paste is applied where the clipboard is on, and is newer than what was applied last. -/
lemma step_cases (enabled : Bool) (b : Inbox) (signal : RemoteSignal) :
    match Inbox.step enabled maxBytes b signal with
    | (b', none) => b'.remoteClipboardRevision = b.remoteClipboardRevision
    | (b', some p) => enabled = true ∧ b.remoteClipboardRevision < p.1 ∧
        b'.remoteClipboardRevision = p.1 := by
  have hframe : ∀ {δ : Type} [Inhabited δ] (sane : δ → Bool) (s : UInt64 × Assembly δ)
      (frame : ClipboardFrame δ),
      match feedFrame sane enabled maxBytes s frame with
      | (s', none) => s'.1 = s.1
      | (s', some p) => enabled = true ∧ s.1 < p.1 ∧ s'.1 = p.1 := by
    intro δ _ sane s frame
    unfold feedFrame
    split_ifs with hcurrent
    · obtain ⟨henabled, hnewer⟩ : enabled = true ∧ s.1 < frame.revision := by
        simpa [clipboardFrameCurrent] using hcurrent
      generalize frame.take sane maxBytes s.2 = r
      obtain ⟨a, paste⟩ := r
      cases paste with
      | none => rfl
      | some paste => exact ⟨henabled, hnewer, rfl⟩
    · rfl
  cases signal with
  | text frame =>
    have h := hframe (fun _ => true) (b.remoteClipboardRevision, b.clipboardAssembly) frame
    unfold Inbox.step
    dsimp only
    generalize feedFrame _ _ _ _ frame = r at h ⊢
    obtain ⟨s', paste⟩ := r
    cases paste <;> exact h
  | image frame =>
    have h := hframe ImageSize.sane (b.remoteClipboardRevision, b.imageAssembly) frame
    unfold Inbox.step
    dsimp only
    generalize feedFrame _ _ _ _ frame = r at h ⊢
    obtain ⟨s', paste⟩ := r
    cases paste <;> exact h
  | handoff handoff => rfl
  | progress => rfl
  | closed => rfl

variable (maxBytes) in
/-- Revisions rise, so nothing is applied twice. -/
lemma outputs_rise (enabled : Bool) (b : Inbox) (signals : List RemoteSignal) :
    let applied := (Trace.outputs (Inbox.step enabled maxBytes) b signals).reduceOption
    (∀ p ∈ applied, enabled = true ∧ b.remoteClipboardRevision < p.1) ∧
      (applied.map Prod.fst).Pairwise (· < ·) := by
  induction signals generalizing b with
  | nil => exact ⟨by simp, List.Pairwise.nil⟩
  | cons signal signals ih =>
    have hone := step_cases maxBytes enabled b signal
    rw [Trace.outputs]
    generalize Inbox.step enabled maxBytes b signal = r at hone ⊢
    obtain ⟨b', paste⟩ := r
    obtain ⟨hnewer, hrise⟩ := ih b'
    cases paste with
    | none =>
      dsimp only at hone ⊢
      rw [List.reduceOption_cons_of_none]
      exact ⟨fun p hp => hone ▸ hnewer p hp, hrise⟩
    | some q =>
      obtain ⟨henabled, hafter, hremote⟩ := hone
      dsimp only
      rw [List.reduceOption_cons_of_some, List.map_cons, List.pairwise_cons]
      refine ⟨?_, ?_, hrise⟩
      · intro p hp
        rcases List.mem_cons.mp hp with rfl | hp
        · exact ⟨henabled, hafter⟩
        · exact ⟨henabled, UInt64.lt_trans hafter (hremote ▸ (hnewer p hp).2)⟩
      · intro r hr
        obtain ⟨p, hp, rfl⟩ := List.mem_map.mp hr
        exact hremote ▸ (hnewer p hp).2

/-- Frames of other kinds change nothing. -/
lemma outputs_pastes (enabled : Bool) (b : Inbox) (signals : List RemoteSignal) :
    (Trace.outputs (Inbox.step enabled maxBytes) b signals).reduceOption =
      (Trace.outputs (Inbox.step enabled maxBytes) b
        (signals.filter RemoteSignal.pastes)).reduceOption := by
  induction signals generalizing b with
  | nil => rfl
  | cons signal signals ih =>
    cases hpastes : signal.pastes with
    | true =>
      rw [List.filter_cons_of_pos hpastes, Trace.outputs, Trace.outputs]
      generalize Inbox.step enabled maxBytes b signal = r
      obtain ⟨b', paste⟩ := r
      cases paste with
      | none => rw [List.reduceOption_cons_of_none, List.reduceOption_cons_of_none, ih]
      | some p => rw [List.reduceOption_cons_of_some, List.reduceOption_cons_of_some, ih]
    | false =>
      have hone : Inbox.step enabled maxBytes b signal = (b, none) := by
        cases signal with
        | text => cases hpastes
        | image => cases hpastes
        | handoff | progress | closed => rfl
      rw [List.filter_cons_of_neg (by rw [hpastes]; exact Bool.false_ne_true), Trace.outputs,
        hone, List.reduceOption_cons_of_none, ih]

end

/-! ### The frames of a session -/

namespace TopologySession

variable {s t : TopologySession} {signal : RemoteSignal} {hand coming : List RemoteSignal}

/-- What the loop has handled. -/
def handled (s : TopologySession) : List RemoteSignal := (s.past.filter Prod.snd).map Prod.fst

/-- Every frame has one place: it is past, in hand, deferred or still coming. What was dropped
had a full queue behind it. -/
structure Accounts (s : TopologySession) (hand coming : List RemoteSignal) : Prop where
  order : carriedBy s.read = s.past.map Prod.fst ++ (hand ++ (s.deferred ++
    coming.filter RemoteSignal.carries))
  room : s.deferred.length ≤ deferredCap
  behind : ∀ i signal, s.past[i]? = some (signal, false) →
    i + deferredCap < (carriedBy s.read).length

/-- What decides the pastes of a session. -/
structure Like (s t : TopologySession) : Prop where
  stream : t.stream = s.stream
  clipboardEnabled : t.clipboardEnabled = s.clipboardEnabled
  remoteClipboardRevision : t.remoteClipboardRevision = s.remoteClipboardRevision
  handled : t.handled = s.handled

lemma Like.refl (s : TopologySession) : s.Like s := ⟨rfl, rfl, rfl, rfl⟩

lemma Like.trans {u : TopologySession} (h : s.Like t) (h' : t.Like u) : s.Like u :=
  ⟨h'.stream.trans h.stream, h'.clipboardEnabled.trans h.clipboardEnabled,
    h'.remoteClipboardRevision.trans h.remoteClipboardRevision, h'.handled.trans h.handled⟩

lemma carriedBy_snoc (read : List WireMessage) (message : WireMessage) :
    carriedBy (read ++ [message]) =
      carriedBy read ++ (passed message).toList.filter RemoteSignal.carries := by
  unfold carriedBy
  rw [List.filterMap_append, List.filter_append, List.filterMap_cons, List.filterMap_nil]
  cases passed message <;> rfl

/-- What a message adds. -/
lemma arrive_cases (s : TopologySession) (message : WireMessage) :
    s.arrive message = s ∨ ∃ more reading,
      s.arrive message =
        { s with read := s.read ++ [message], signals := s.signals ++ more, reading } ∧
      more.filter RemoteSignal.carries =
        (passed message).toList.filter RemoteSignal.carries := by
  unfold arrive
  split_ifs with hreading
  · exact Or.inl rfl
  · right
    dsimp only
    unfold passed
    rcases response message with _ | _ | signal
    · exact ⟨[.closed], false, rfl, rfl⟩
    · exact ⟨[], s.reading, by simp, rfl⟩
    · exact ⟨[signal], s.reading, rfl, rfl⟩

lemma Accounts.arrive (h : s.Accounts [] s.signals) (message : WireMessage) :
    (s.arrive message).Accounts [] (s.arrive message).signals ∧ s.Like (s.arrive message) := by
  rcases s.arrive_cases message with heq | ⟨more, reading, heq, hmore⟩
  · rw [heq]
    exact ⟨h, .refl s⟩
  · rw [heq]
    refine ⟨⟨?_, h.room, fun i signal hi => ?_⟩, rfl, rfl, rfl, rfl⟩
    · dsimp only
      rw [carriedBy_snoc, h.order, List.filter_append, hmore]
      simp only [List.nil_append, List.append_assoc]
    · refine (h.behind i signal hi).trans_le ?_
      dsimp only
      rw [carriedBy_snoc, List.length_append]
      exact Nat.le_add_right _ _

lemma Accounts.cut (h : s.Accounts [] s.signals) :
    s.cut.Accounts [] s.cut.signals ∧ s.Like s.cut := by
  unfold TopologySession.cut
  split_ifs
  · exact ⟨h, .refl s⟩
  · refine ⟨⟨?_, h.room, h.behind⟩, rfl, rfl, rfl, rfl⟩
    dsimp only
    rw [h.order, List.filter_append]
    simp [RemoteSignal.carries]

lemma handled_snoc (s : TopologySession) (signal : RemoteSignal) (done : Bool) :
    ((s.past ++ [(signal, done)]).filter Prod.snd).map Prod.fst =
      s.handled ++ if done then [signal] else [] := by
  unfold handled
  rw [List.filter_append, List.map_append]
  cases done <;> rfl

/-- A frame that is deferred leaves the oldest in a full queue behind. -/
lemma Accounts.pushDeferredCapped (h : s.Accounts [] (signal :: coming))
    (hcarries : signal.carries = true) :
    (s.pushDeferredCapped signal).Accounts [] coming ∧ s.Like (s.pushDeferredCapped signal) := by
  have horder := h.order
  rw [List.filter_cons_of_pos hcarries, List.nil_append] at horder
  unfold TopologySession.pushDeferredCapped
  cases hdeferred : s.deferred with
  | nil =>
    rw [hdeferred, List.nil_append] at horder
    refine ⟨⟨?_, Nat.le_of_ble_eq_true rfl, h.behind⟩, rfl, rfl, rfl, rfl⟩
    dsimp only
    rw [horder]
    rfl
  | cons oldest rest =>
    dsimp only
    rw [hdeferred] at horder
    split_ifs with hfull
    · refine ⟨⟨?_, ?_, fun i dropped hi => ?_⟩, rfl, rfl, rfl, ?_⟩
      · dsimp only
        rw [horder, List.map_append]
        simp
      · have := h.room
        rw [hdeferred] at this
        simpa using this
      · dsimp only at hi ⊢
        rcases Nat.lt_or_ge i s.past.length with hlt | hge
        · rw [List.getElem?_append_left hlt] at hi
          exact h.behind i dropped hi
        · have hi' : i < (s.past ++ [(oldest, false)]).length :=
            (List.getElem?_eq_some_iff.mp hi).1
          rw [List.length_append, List.length_singleton] at hi'
          rw [horder, List.length_append, List.length_map, List.length_append]
          rw [List.length_cons] at hfull ⊢
          rw [List.length_cons]
          omega
      · exact (s.handled_snoc oldest false).trans (List.append_nil _)
    · refine ⟨⟨?_, ?_, h.behind⟩, rfl, rfl, rfl, rfl⟩
      · dsimp only
        rw [horder]
        simp
      · dsimp only
        rw [List.length_append, List.length_singleton]
        omega

lemma pushDeferredCapped_signals (s : TopologySession) (signal : RemoteSignal) :
    (s.pushDeferredCapped signal).signals = s.signals := by
  unfold pushDeferredCapped
  split
  · rfl
  · split_ifs <;> rfl

/-- What `drain_parked_signals` leaves of the frames. -/
lemma Accounts.drainSignals {now : Instant} (h : s.Accounts [] coming)
    (hdrain : drainSignals now coming s = some t) :
    t.Accounts [] [] ∧ s.Like t ∧ t.signals = s.signals := by
  induction coming generalizing s with
  | nil =>
    unfold TopologySession.drainSignals at hdrain
    split_ifs at hdrain
    obtain rfl := Option.some.inj hdrain
    exact ⟨h, .refl s, rfl⟩
  | cons signal coming ih =>
    have hpush : signal.carries = true →
        TopologySession.drainSignals now coming (s.pushDeferredCapped signal) = some t →
        t.Accounts [] [] ∧ s.Like t ∧ t.signals = s.signals := by
      intro hcarries hdrain
      obtain ⟨hpushed, hlike⟩ := h.pushDeferredCapped hcarries
      obtain ⟨haccounts, hlike', hsignals⟩ := ih hpushed hdrain
      exact ⟨haccounts, hlike.trans hlike',
        hsignals.trans (s.pushDeferredCapped_signals signal)⟩
    cases signal with
    | progress =>
      obtain ⟨haccounts, hlike, hsignals⟩ :=
        ih (s := { s with lastProgress := some now }) ⟨h.order, h.room, h.behind⟩ hdrain
      exact ⟨haccounts, ⟨hlike.stream, hlike.clipboardEnabled, hlike.remoteClipboardRevision,
        hlike.handled⟩, hsignals⟩
    | closed => cases hdrain
    | handoff handoff => exact hpush rfl hdrain
    | text frame => exact hpush rfl hdrain
    | image frame => exact hpush rfl hdrain

lemma Accounts.drainParkedSignals {now : Instant} {fresh : Bool} (h : s.Accounts [] s.signals)
    (hdrain : s.drainParkedSignals now = some (t, fresh)) :
    t.Accounts [] t.signals ∧ s.Like t := by
  obtain ⟨t', hdrained, heq⟩ := Option.map_eq_some_iff.mp hdrain
  obtain ⟨rfl, -⟩ := Prod.mk.inj heq
  have hstart : ({ s with signals := [] } : TopologySession).Accounts [] s.signals :=
    ⟨h.order, h.room, h.behind⟩
  obtain ⟨haccounts, hlike, hsignals⟩ := hstart.drainSignals hdrained
  exact ⟨hsignals ▸ haccounts, hlike.stream, hlike.clipboardEnabled,
    hlike.remoteClipboardRevision, hlike.handled⟩

/-- What can be received. -/
lemma recv_cases {received : Option RemoteSignal} (h : s.recv = some (received, t)) :
    (∃ signal signals, s.signals = signal :: signals ∧ received = some signal ∧
      t = { s with signals }) ∨ s.signals = [] ∧ received = none ∧ t = s := by
  unfold recv at h
  split at h
  · obtain ⟨rfl, rfl⟩ := Prod.mk.inj (Option.some.inj h)
    exact Or.inl ⟨_, _, by assumption, rfl, rfl⟩
  · split_ifs at h
    obtain ⟨rfl, rfl⟩ := Prod.mk.inj (Option.some.inj h)
    exact Or.inr ⟨by assumption, rfl, rfl⟩

/-- What is received next is in hand. -/
lemma Accounts.recv {received : Option RemoteSignal} (h : s.Accounts [] s.signals)
    (hdeferred : s.deferred = []) (hrecv : s.recv = some (received, t)) :
    t.Accounts (received.toList.filter RemoteSignal.carries) t.signals ∧ s.Like t := by
  rcases recv_cases hrecv with ⟨signal, signals, hsignals, rfl, rfl⟩ | ⟨-, rfl, rfl⟩
  · refine ⟨⟨?_, h.room, h.behind⟩, rfl, rfl, rfl, rfl⟩
    dsimp only
    rw [h.order, hsignals, hdeferred, List.nil_append, List.nil_append, List.nil_append,
      ← List.filter_append]
    rfl
  · exact ⟨h, .refl t⟩

/-- What was deferred is in hand again. -/
lemma Accounts.pop {deferred : List RemoteSignal} (h : s.Accounts [] s.signals)
    (hdeferred : s.deferred = signal :: deferred) :
    ({ s with deferred } : TopologySession).Accounts
      ((some signal).toList.filter RemoteSignal.carries) s.signals := by
  have hcarries : signal.carries = true := by
    have hmem : signal ∈ carriedBy s.read := by
      rw [h.order, hdeferred]
      simp
    exact (List.mem_filter.mp hmem).2
  have hroom := h.room
  rw [hdeferred, List.length_cons] at hroom
  refine ⟨?_, Nat.le_of_succ_le hroom, h.behind⟩
  rw [Option.toList_some, List.filter_cons_of_pos hcarries]
  exact h.order.trans (by rw [hdeferred]; rfl)

end TopologySession

/-! ### The loop's step -/

namespace DriveEnd

variable {maxBytes : ℕ} {w : DriveEnd} {s t : TopologySession}
  {hand coming : List RemoteSignal}

/-- The pastes applied from a stream. -/
def appliedFrom (applied : List (ℕ × UInt64 × Paste)) (stream : ℕ) : List (UInt64 × Paste) :=
  (applied.filter fun p => p.1 = stream).map Prod.snd

/-- What was applied from a stream is what its handled frames hand out. -/
structure Traced (maxBytes : ℕ) (applied : List (ℕ × UInt64 × Paste)) (s : TopologySession)
    (b₀ b : Inbox) : Prop where
  fresh : b₀.remoteClipboardRevision = 0
  final : Trace.final (Inbox.step s.clipboardEnabled maxBytes) b₀ s.handled = b
  outputs : (Trace.outputs (Inbox.step s.clipboardEnabled maxBytes) b₀ s.handled).reduceOption =
    appliedFrom applied s.stream

def inbox (w : DriveEnd) (s : TopologySession) : Inbox :=
  ⟨s.remoteClipboardRevision, w.clipboardAssembly, w.imageAssembly⟩

/-- The session that is held. -/
structure Open (maxBytes : ℕ) (w : DriveEnd) (s : TopologySession)
    (hand coming : List RemoteSignal) : Prop where
  accounts : s.Accounts hand coming
  stream : s.stream < w.streams
  distinct : ∀ t ∈ w.ended, t.stream ≠ s.stream
  traced : ∃ b₀, Traced maxBytes w.applied s b₀ (w.inbox s)

/-- The sessions that have ended. -/
structure Settled (maxBytes : ℕ) (w : DriveEnd) : Prop where
  ended : ∀ s ∈ w.ended, s.Accounts [] s.signals ∧ s.stream < w.streams ∧
    ∃ b₀ b, Traced maxBytes w.applied s b₀ b
  applied : ∀ p ∈ w.applied, p.1 < w.streams

def Sound (maxBytes : ℕ) (w : DriveEnd) : Prop :=
  w.Settled maxBytes ∧ ∀ s ∈ w.held, w.Open maxBytes s [] s.signals

lemma Traced.like {applied : List (ℕ × UInt64 × Paste)} {b₀ b : Inbox}
    (h : Traced maxBytes applied s b₀ b) (hlike : s.Like t) :
    Traced maxBytes applied t b₀ b := by
  refine ⟨h.fresh, ?_, ?_⟩
  · rw [hlike.clipboardEnabled, hlike.handled]
    exact h.final
  · rw [hlike.clipboardEnabled, hlike.handled, hlike.stream]
    exact h.outputs

lemma Open.like (h : w.Open maxBytes s hand coming) {hand' coming' : List RemoteSignal}
    (haccounts : t.Accounts hand' coming') (hlike : s.Like t) :
    w.Open maxBytes t hand' coming' := by
  obtain ⟨b₀, htraced⟩ := h.traced
  refine ⟨haccounts, hlike.stream ▸ h.stream, hlike.stream ▸ h.distinct, b₀, ?_⟩
  have hinbox : w.inbox t = w.inbox s := by
    unfold inbox
    rw [hlike.remoteClipboardRevision]
  rw [hinbox]
  exact htraced.like hlike

lemma Settled.hold (h : w.Settled maxBytes) (hopen : w.Open maxBytes s [] s.signals) :
    Sound maxBytes { w with held := some s } := by
  refine ⟨⟨h.ended, h.applied⟩, ?_⟩
  intro t ht
  obtain rfl := Option.some.inj ht
  exact ⟨hopen.accounts, hopen.stream, hopen.distinct, hopen.traced⟩

/-- The phase and the signs of life change nothing of it. -/
lemma Settled.turn (h : w.Settled maxBytes) (hopen : w.Open maxBytes s [] s.signals)
    (phase : Phase) (lastProgress : Option Instant) :
    Sound maxBytes { w with held := some { s with phase, lastProgress } } :=
  h.hold (hopen.like ⟨hopen.accounts.order, hopen.accounts.room, hopen.accounts.behind⟩
    ⟨rfl, rfl, rfl, rfl⟩)

lemma Settled.finish (h : w.Settled maxBytes) (hopen : w.Open maxBytes s [] s.signals) :
    Sound maxBytes (w.finish s) := by
  refine ⟨⟨?_, h.applied⟩, ?_⟩
  · intro t ht
    rcases List.mem_append.mp ht with ht | ht
    · exact h.ended t ht
    · obtain rfl := List.mem_singleton.mp ht
      obtain ⟨b₀, htraced⟩ := hopen.traced
      exact ⟨hopen.accounts, hopen.stream, b₀, _, htraced⟩
  · rintro t ⟨⟩

lemma appliedFrom_append (applied more : List (ℕ × UInt64 × Paste)) (stream : ℕ) :
    appliedFrom (applied ++ more) stream =
      appliedFrom applied stream ++ appliedFrom more stream := by
  unfold appliedFrom
  rw [List.filter_append, List.map_append]

/-- A frame in hand is handled; what it completes is applied from its stream alone. -/
lemma Open.handled {signal : RemoteSignal} {b : Inbox} {paste : Option (UInt64 × Paste)}
    (hsettled : w.Settled maxBytes) (h : w.Open maxBytes s [signal] coming)
    (hstep : Inbox.step s.clipboardEnabled maxBytes (w.inbox s) signal = (b, paste)) :
    let w' : DriveEnd := { w with
      clipboardAssembly := b.clipboardAssembly
      imageAssembly := b.imageAssembly
      applied := w.applied ++ (paste.map fun p => (s.stream, p)).toList }
    w'.Settled maxBytes ∧ w'.Open maxBytes { s with
      remoteClipboardRevision := b.remoteClipboardRevision
      past := s.past ++ [(signal, true)] } [] coming := by
  have hother : ∀ stream, stream ≠ s.stream →
      appliedFrom (w.applied ++ (paste.map fun p => (s.stream, p)).toList) stream =
        appliedFrom w.applied stream := by
    intro stream hne
    rw [appliedFrom_append]
    cases paste with
    | none => simp [appliedFrom]
    | some p => simp [appliedFrom, hne.symm]
  have hown : appliedFrom (w.applied ++ (paste.map fun p => (s.stream, p)).toList) s.stream =
      appliedFrom w.applied s.stream ++ paste.toList := by
    rw [appliedFrom_append]
    cases paste <;> simp [appliedFrom]
  refine ⟨⟨?_, ?_⟩, ⟨?_, h.accounts.room, ?_⟩, h.stream, h.distinct, ?_⟩
  · intro t ht
    obtain ⟨haccounts, hstream, b₀, b₁, htraced⟩ := hsettled.ended t ht
    exact ⟨haccounts, hstream, b₀, b₁, htraced.fresh, htraced.final,
      htraced.outputs.trans (hother t.stream (h.distinct t ht)).symm⟩
  · intro p hp
    rcases List.mem_append.mp hp with hp | hp
    · exact hsettled.applied p hp
    · obtain ⟨q, -, rfl⟩ := Option.map_eq_some_iff.mp (Option.mem_toList.mp hp)
      exact h.stream
  · dsimp only
    rw [h.accounts.order, List.map_append]
    simp
  · intro i dropped hi
    dsimp only at hi
    rcases Nat.lt_or_ge i s.past.length with hlt | hge
    · rw [List.getElem?_append_left hlt] at hi
      exact h.accounts.behind i dropped hi
    · rw [List.getElem?_append_right hge] at hi
      have hmem := List.mem_of_getElem? hi
      simp at hmem
  · obtain ⟨b₀, htraced⟩ := h.traced
    have hhandled := (s.handled_snoc signal true)
    refine ⟨b₀, htraced.fresh, ?_, ?_⟩
    · dsimp only [TopologySession.handled]
      rw [hhandled, if_pos rfl, Trace.final_snoc, htraced.final, hstep]
      rfl
    · dsimp only [TopologySession.handled]
      rw [hhandled, if_pos rfl, Trace.outputs_snoc, htraced.final, hstep,
        List.reduceOption_append, htraced.outputs, hown, List.reduceOption_singleton]

/-- A signal of the session is handled. -/
lemma Settled.handle {now : Instant} {signal : Option RemoteSignal} (h : w.Settled maxBytes)
    (hopen : w.Open maxBytes s (signal.toList.filter RemoteSignal.carries) s.signals) :
    Sound maxBytes (w.handle maxBytes s now signal) := by
  have hpaste : ∀ frame : RemoteSignal, frame.carries = true → signal = some frame →
      Sound maxBytes
        (let (b, paste) := Inbox.step s.clipboardEnabled maxBytes (w.inbox s) frame
        { w with
          held := some { s with
            remoteClipboardRevision := b.remoteClipboardRevision
            past := s.past ++ [(frame, true)] }
          clipboardAssembly := b.clipboardAssembly
          imageAssembly := b.imageAssembly
          applied := w.applied ++ (paste.map fun p => (s.stream, p)).toList }) := by
    rintro frame hcarries rfl
    rw [Option.toList_some, List.filter_cons_of_pos hcarries, List.filter_nil] at hopen
    obtain ⟨hsettled, hopen⟩ := hopen.handled h rfl
    exact hsettled.hold hopen
  cases signal with
  | none => exact h.finish hopen
  | some signal =>
    cases signal with
    | closed => exact h.finish hopen
    | progress => exact h.turn hopen s.phase (some now)
    | handoff handoff =>
      obtain ⟨-, hopen⟩ := hopen.handled h (rfl : _ = (w.inbox s, none))
      rw [Option.map_none, Option.toList_none, List.append_nil] at hopen
      unfold DriveEnd.handle
      dsimp only
      split_ifs
      · exact h.finish hopen
      · exact h.hold hopen
    | text frame => exact hpaste _ rfl rfl
    | image frame => exact hpaste _ rfl rfl

lemma Settled.signal {now : Instant} (h : w.Settled maxBytes)
    (hopen : w.Open maxBytes s [] s.signals) (hheld : w.held = some s) :
    Sound maxBytes (w.signal maxBytes s now) := by
  unfold DriveEnd.signal
  split
  · rename_i deferred hdeferred
    exact h.handle (hopen.like (hopen.accounts.pop hdeferred) ⟨rfl, rfl, rfl, rfl⟩)
  · rename_i hdeferred
    split
    · refine ⟨h, fun t ht => ?_⟩
      obtain rfl := Option.some.inj (hheld.symm.trans ht)
      exact hopen
    · rename_i hrecv
      obtain ⟨haccounts, hlike⟩ := hopen.accounts.recv hdeferred hrecv
      exact h.handle (hopen.like haccounts hlike)

/-- What each move keeps. -/
lemma Settled.move (h : w.Settled maxBytes) (hopen : w.Open maxBytes s [] s.signals)
    (hheld : w.held = some s) (op : Op) : Sound maxBytes (w.move maxBytes s op) := by
  have hstay : Sound maxBytes w := by
    refine ⟨h, fun t ht => ?_⟩
    obtain rfl := Option.some.inj (hheld.symm.trans ht)
    exact hopen
  cases op with
  | opened clipboardEnabled drives => exact hstay
  | arrive message =>
    obtain ⟨haccounts, hlike⟩ := hopen.accounts.arrive message
    exact h.hold (hopen.like haccounts hlike)
  | cut =>
    obtain ⟨haccounts, hlike⟩ := hopen.accounts.cut
    exact h.hold (hopen.like haccounts hlike)
  | signal now =>
    unfold DriveEnd.move
    dsimp only
    split_ifs
    · exact h.signal hopen hheld
    · exact hstay
  | park =>
    unfold DriveEnd.move
    dsimp only
    split_ifs
    · exact h.turn hopen .parked s.lastProgress
    · exact hstay
  | take usable now =>
    unfold DriveEnd.move
    dsimp only
    split_ifs
    · exact hstay
    · exact h.finish hopen
    · split
      · exact h.finish hopen
      · rename_i t fresh hdrain
        obtain ⟨haccounts, hlike⟩ := hopen.accounts.drainParkedSignals hdrain
        exact h.turn (hopen.like haccounts hlike) _ t.lastProgress
  | receive now =>
    unfold DriveEnd.move
    dsimp only
    split_ifs
    · exact hstay
    · cases hrecv : s.recv with
      | none => exact hstay
      | some r =>
        obtain ⟨received, t⟩ := r
        rcases TopologySession.recv_cases hrecv with
          ⟨signal, signals, hsignals, rfl, rfl⟩ | ⟨-, rfl, rfl⟩
        · have hnext : s.Accounts [] (signal :: signals) := hsignals ▸ hopen.accounts
          have hpush : signal.carries = true → Sound maxBytes
              { w with held := some (({ s with signals } : TopologySession).pushDeferredCapped
                signal) } := by
            intro hcarries
            have hstart : ({ s with signals } : TopologySession).Accounts [] (signal :: signals) :=
              ⟨hnext.order, hnext.room, hnext.behind⟩
            obtain ⟨hpushed, hlike⟩ := hstart.pushDeferredCapped hcarries
            have hsame := TopologySession.pushDeferredCapped_signals { s with signals } signal
            exact h.hold (hopen.like (by rw [hsame]; exact hpushed) ⟨hlike.stream,
              hlike.clipboardEnabled, hlike.remoteClipboardRevision, hlike.handled⟩)
          cases signal with
          | progress =>
            exact h.turn (s := { s with signals }) (hopen.like ⟨hnext.order, hnext.room,
              hnext.behind⟩ ⟨rfl, rfl, rfl, rfl⟩) .taken (some now)
          | closed =>
            exact h.finish (hopen.like ⟨hnext.order, hnext.room, hnext.behind⟩
              ⟨rfl, rfl, rfl, rfl⟩)
          | handoff handoff => exact hpush rfl
          | text frame => exact hpush rfl
          | image frame => exact hpush rfl
        · exact h.finish hopen
  | lapse =>
    unfold DriveEnd.move
    dsimp only
    split_ifs
    · exact h.finish hopen
    · exact hstay
  | resume now written =>
    unfold DriveEnd.move
    dsimp only
    by_cases htaken : s.phase ≠ .taken
    · rw [if_pos htaken]
      exact hstay
    · rw [if_neg htaken]
      split
      · exact h.finish hopen
      · rename_i t fresh hdrain
        obtain ⟨haccounts, hlike⟩ := hopen.accounts.drainParkedSignals hdrain
        cases written
        · exact h.finish (hopen.like haccounts hlike)
        · exact h.turn (hopen.like haccounts hlike) .driving t.lastProgress
  | finish => exact h.finish hopen

/-- A new stream has nothing applied. -/
lemma Sound.step (h : w.Sound maxBytes) (op : Op) : Sound maxBytes (w.step maxBytes op).1 := by
  obtain ⟨hsettled, hopen⟩ := h
  cases hheld : w.held with
  | some s =>
    have heq : (w.step maxBytes op).1 = w.move maxBytes s op := by
      unfold DriveEnd.step
      rw [hheld]
    rw [heq]
    exact hsettled.move (hopen s hheld) hheld op
  | none =>
    by_cases hop : ∃ clipboardEnabled drives, op = .opened clipboardEnabled drives
    · obtain ⟨clipboardEnabled, drives, rfl⟩ := hop
      unfold DriveEnd.step
      rw [hheld]
      dsimp only
      refine ⟨⟨fun t ht => ?_, fun p hp => (hsettled.applied p hp).trans (Nat.lt_succ_self _)⟩,
        fun t ht => ?_⟩
      · obtain ⟨haccounts, hstream, htraced⟩ := hsettled.ended t ht
        exact ⟨haccounts, hstream.trans (Nat.lt_succ_self _), htraced⟩
      · obtain rfl := Option.some.inj ht
        refine ⟨⟨rfl, Nat.zero_le _, fun i signal hi => ?_⟩, Nat.lt_succ_self _,
          fun t ht => ((hsettled.ended t ht).2.1).ne, _, rfl, rfl, ?_⟩
        · rw [List.getElem?_nil] at hi
          cases hi
        · have hnone : w.applied.filter (fun p => p.1 = w.streams) = [] := by
            rw [List.filter_eq_nil_iff]
            intro p hp
            simpa using (hsettled.applied p hp).ne
          unfold appliedFrom
          rw [hnone]
          rfl
    · have heq : (w.step maxBytes op).1 = w := by
        unfold DriveEnd.step
        rw [hheld]
        cases op with
        | opened clipboardEnabled drives => exact absurd ⟨_, _, rfl⟩ hop
        | _ => rfl
      rw [heq]
      exact ⟨hsettled, hopen⟩

lemma sound_after (maxBytes : ℕ) (l : List Op) : Sound maxBytes (after maxBytes l) := by
  refine Trace.always (I := fun _ w => Sound maxBytes w) ?_ (fun _ op h => h.step op)
  exact ⟨⟨by simp [start], by simp [start]⟩, by simp [start]⟩

/-- Whether it is held or has ended, a session is accounted for and traced. -/
lemma Sound.session (h : w.Sound maxBytes) (hs : s ∈ w.sessions) :
    s.Accounts [] s.signals ∧ ∃ b₀ b, Traced maxBytes w.applied s b₀ b := by
  rcases List.mem_append.mp hs with hs | hs
  · obtain ⟨haccounts, -, htraced⟩ := h.1.ended s hs
    exact ⟨haccounts, htraced⟩
  · have hopen := h.2 s (Option.mem_toList.mp hs)
    obtain ⟨b₀, htraced⟩ := hopen.traced
    exact ⟨hopen.accounts, b₀, _, htraced⟩

end DriveEnd

/-! ### Pastes over a run -/

/-- The messages of pastes in a row. -/
def messagesOf (sent : List (UInt64 × Paste)) : List WireMessage :=
  sent.flatMap fun p => p.2.messages p.1

def carriesPaste (message : WireMessage) : Bool := (passed message).any RemoteSignal.pastes

lemma passed_messagesOf {sent : List (UInt64 × Paste)} (h : ∀ p ∈ sent, p.2.Sendable) :
    (messagesOf sent).filterMap passed = signalsOf sent := by
  induction sent with
  | nil => rfl
  | cons p sent ih =>
    unfold messagesOf at ih ⊢
    rw [List.flatMap_cons, List.filterMap_append, passed_messages (h p List.mem_cons_self),
      ih fun q hq => h q (List.mem_cons_of_mem _ hq), signalsOf_cons]

/-- The pastes among the frames are the frames of the pastes' messages. -/
lemma pastes_carriedBy (read : List WireMessage) :
    (carriedBy read).filter RemoteSignal.pastes =
      (read.filter carriesPaste).filterMap passed := by
  induction read with
  | nil => rfl
  | cons message read ih =>
    unfold carriedBy at ih ⊢
    cases hpassed : passed message with
    | none =>
      rw [List.filterMap_cons_none hpassed, ih, List.filter_cons_of_neg]
      simp [carriesPaste, hpassed]
    | some signal =>
      rw [List.filterMap_cons_some hpassed]
      cases hpastes : signal.pastes with
      | true =>
        have hcarries : signal.carries = true := by
          cases signal <;> first | rfl | cases hpastes
        rw [List.filter_cons_of_pos hcarries, List.filter_cons_of_pos hpastes, ih,
          List.filter_cons_of_pos (by simp [carriesPaste, hpassed, hpastes]),
          List.filterMap_cons_some hpassed]
      | false =>
        have hother : carriesPaste message = false := by
          rw [carriesPaste, hpassed]
          exact hpastes
        rw [List.filter_cons_of_neg (p := carriesPaste) (by rw [hother]; exact Bool.false_ne_true),
          ← ih, List.filter_cons]
        split_ifs
        · rw [List.filter_cons_of_neg (by rw [hpastes]; exact Bool.false_ne_true)]
        · rfl

lemma clipboardMaxBytes_lt (clipboardMaxMb : UInt32) :
    clipboardMaxBytes clipboardMaxMb < 2 ^ 32 := by
  have hmin : (min clipboardMaxMb maxClipboardMaxMb).toNat ≤ 16 := by
    show (if clipboardMaxMb ≤ maxClipboardMaxMb then clipboardMaxMb
      else maxClipboardMaxMb).toNat ≤ 16
    split_ifs with h
    · exact UInt32.le_iff_toNat_le.mp h
    · exact Nat.le_refl _
  unfold clipboardMaxBytes
  generalize min clipboardMaxMb maxClipboardMaxMb = m at hmin ⊢
  have hmax : (max 1 m).toNat ≤ 16 := by
    show (if 1 ≤ m then m else 1 : UInt32).toNat ≤ 16
    split_ifs
    · exact hmin
    · decide
  omega

namespace DriveEnd

/-- **Pastes arrive whole, in order and once.** Over every run of drives, parks, looks after the
parked stream and resumes, each frame that was read of a stream has one place, and what is dropped
had a full queue behind it. The revisions applied from a stream rise, and nothing is applied where
the clipboard is off. Where no frame was dropped and the messages are those of pastes in a row as
far as they were read, what was applied is the pastes within the cap among those whose frames were
all handled. -/
theorem pastes_arrive_once (clipboardMaxMb : UInt32) (l : List Op) {s : TopologySession}
    (hs : s ∈ (after (clipboardMaxBytes clipboardMaxMb) l).sessions) :
    let maxBytes := clipboardMaxBytes clipboardMaxMb
    let applied := appliedFrom (after maxBytes l).applied s.stream
    (carriedBy s.read =
        s.past.map Prod.fst ++ (s.deferred ++ s.signals.filter RemoteSignal.carries) ∧
      s.deferred.length ≤ deferredCap ∧
      ∀ i signal, s.past[i]? = some (signal, false) →
        i + deferredCap < (carriedBy s.read).length) ∧
    (applied.map Prod.fst).Pairwise (· < ·) ∧
    (s.clipboardEnabled = false → applied = []) ∧
    ∀ sent, InOrder sent → s.clipboardEnabled = true → (∀ p ∈ s.past, p.2 = true) →
      s.read.filter carriesPaste <+: messagesOf sent →
      let handled := (s.past.map Prod.fst).filter RemoteSignal.pastes
      ∃ done rest, sent = done ++ rest ∧ applied = within maxBytes done ∧
        signalsOf done <+: handled ∧
        ∀ p, rest.head? = some p → ¬signalsOf (done ++ [p]) <+: handled := by
  dsimp only
  obtain ⟨haccounts, b₀, b, htraced⟩ := (sound_after _ l).session hs
  obtain ⟨hnewer, hrise⟩ := outputs_rise (clipboardMaxBytes clipboardMaxMb) s.clipboardEnabled
    b₀ s.handled
  rw [htraced.outputs] at hnewer hrise
  refine ⟨⟨haccounts.order, haccounts.room, haccounts.behind⟩, hrise, ?_, ?_⟩
  · intro hoff
    rw [List.eq_nil_iff_forall_not_mem]
    intro p hp
    rw [(hnewer p hp).1] at hoff
    cases hoff
  · intro sent hsent henabled hkept hread
    have hhandled : s.handled = s.past.map Prod.fst := by
      unfold TopologySession.handled
      rw [List.filter_eq_self.mpr hkept]
    have hprefix : (s.past.map Prod.fst).filter RemoteSignal.pastes <+: signalsOf sent := by
      have hpast : s.past.map Prod.fst <+: carriedBy s.read := by
        rw [haccounts.order]
        exact List.prefix_append _ _
      refine (hpast.filter _).trans ?_
      rw [pastes_carriedBy, ← passed_messagesOf fun p hp => (hsent.1 p hp).2]
      exact hread.filterMap _
    obtain ⟨done, rest, hsplit, hdone, hnext, houtputs⟩ := outputs_prefix (b := b₀)
      (clipboardMaxBytes_lt clipboardMaxMb) hsent
      (fun p hp => htraced.fresh ▸ (hsent.1 p hp).1) hprefix
    refine ⟨done, rest, hsplit, ?_, hdone, hnext⟩
    rw [← houtputs, ← hhandled, ← outputs_pastes, ← htraced.outputs, henabled]

/-- A text that is read and handled is applied. -/
theorem pastes_arrive_once_text :
    let l : List Op := [.opened true true, .arrive (.clipboardText 1 "a"), .signal 0]
    ∃ done rest, [((1 : UInt64), Paste.text ['a'])] = done ++ rest ∧
      appliedFrom (after (clipboardMaxBytes 1) l).applied 0 = within (clipboardMaxBytes 1) done ∧
      signalsOf done <+: [.text (.whole 1 ['a'] ())] ∧
      ∀ p, rest.head? = some p → ¬signalsOf (done ++ [p]) <+: [.text (.whole 1 ['a'] ())] := by
  have h := pastes_arrive_once 1 [.opened true true, .arrive (.clipboardText 1 "a"), .signal 0]
    (s := ⟨0, .driving, true, 1, none, true, [], [], [.clipboardText 1 "a"],
      [(.text (.whole 1 ['a'] ()), true)]⟩) List.mem_cons_self
  refine h.2.2.2 [(1, .text ['a'])] ⟨?_, List.pairwise_singleton _ _⟩ rfl (by simp) ?_
  · intro p hp
    rw [List.mem_singleton.mp hp]
    exact ⟨by decide, (by decide : Text.utf8Len ['a'] < 2 ^ 64)⟩
  · exact List.prefix_rfl

end DriveEnd

end TheKvm.PeerFrames
