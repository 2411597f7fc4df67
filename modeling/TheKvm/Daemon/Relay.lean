import TheKvm.Lib.Lossy
import TheKvm.Lib.Trace
import TheKvm.Protocol.Control
import TheKvm.Protocol.Wire

/-!
The clipboard relay: one slot in the daemon, taken chunk by chunk by the logged-in UI.

Any session may put a new paste in the slot between two requests of the UI. The UI tells
pastes apart by their revisions only.
-/

namespace TheKvm

/-- A paste as a session received it; one over the cap was dropped before. -/
structure ReceivedPaste where
  revision : ℕ
  kind : ClipboardKind
  payload : List Char
  width : ℕ
  height : ℕ
  payload_le : Text.utf8Len payload ≤ maxClipboardUpdateBytes

/-- The latest paste, sliced for the UI. -/
structure RelayPaste where
  revision : ℕ
  kind : ClipboardKind
  chunks : List (List Char)
  totalBytes : ℕ
  width : ℕ
  height : ℕ

lemma isSome_textSlices (text : List Char) :
    (Text.slices (Text.textCut clipboardChunkBytes) text).isSome = true := by
  obtain ⟨chunks, hchunks, -⟩ := Text.exists_textSlices (by decide : 4 ≤ clipboardChunkBytes) text
  rw [hchunks]
  rfl

/-- Slice a relay payload into poll-sized pieces: char-boundary safe for text, plain slices for
base64. -/
def splitRelayPayload (payload : List Char) (isText : Bool) : List (List Char) :=
  if Text.utf8Len payload ≤ clipboardChunkBytes then [payload]
  else if isText = false then
    (Gather.chunks clipboardChunkBytes (Text.utf8 payload)).map Text.fromUtf8Lossy
  else (Text.slices (Text.textCut clipboardChunkBytes) payload).get (isSome_textSlices payload)

namespace ReceivedPaste

/-- The pieces the paste is taken in. -/
def chunks (p : ReceivedPaste) : List (List Char) :=
  splitRelayPayload p.payload (p.kind = .text)

/-- What `stash_inbound_clipboard` puts in the slot. -/
def stashed (p : ReceivedPaste) : RelayPaste :=
  { revision := p.revision
    kind := p.kind
    chunks := p.chunks
    totalBytes := Text.utf8Len p.payload
    width := p.width
    height := p.height }

end ReceivedPaste

/-- The empty update: nothing new. -/
def ClipboardUpdate.nothing (enabled : Bool) : ClipboardUpdate :=
  { revision := 0
    kind := .text
    totalBytes := 0
    totalChunks := 0
    index := 0
    data := []
    width := 0
    height := 0
    enabled := some enabled }

/-- Serve one UI take: the chunk at `nextIndex` when the slot holds a paste other than the one
last seen. -/
def pollInboundClipboard (slot : Option RelayPaste) (lastSeenRevision nextIndex : ℕ)
    (enabled : Bool) : ControlResponse :=
  .clipboardUpdate <|
    match slot with
    | none => .nothing enabled
    | some paste =>
      if paste.revision = 0 ∨ paste.revision = lastSeenRevision then .nothing enabled
      else
        match paste.chunks[nextIndex]? with
        | none => .nothing enabled
        | some data =>
          { revision := paste.revision
            kind := paste.kind
            totalBytes := paste.totalBytes
            totalChunks := paste.chunks.length % 2 ^ 32
            index := nextIndex
            data
            width := paste.width
            height := paste.height
            enabled := some enabled }

/-- A chunk walk: the update that began it and the chunks so far. -/
structure ChunkWalk where
  first : ClipboardUpdate
  chunks : List (List Char)

/-- The daemon's slot, and what the UI's take loop keeps between two requests. -/
structure ClipboardRelay where
  slot : Option RelayPaste
  lastSeenRevision : ℕ
  walk : Option ChunkWalk

inductive RelayEvent
  | stash (p : ReceivedPaste)
  | take

namespace ClipboardRelay

def init : ClipboardRelay := ⟨none, 0, none⟩

/-- One round-trip of the UI; `none` is an answer that is not an update. -/
def pollOnce (s : ClipboardRelay) (nextIndex : ℕ) : Option ClipboardUpdate :=
  match pollInboundClipboard s.slot s.lastSeenRevision nextIndex true with
  | .clipboardUpdate update => some update
  | _ => none

/-- With its last chunk a walk hands the paste to the relay thread. -/
def advance (s : ClipboardRelay) (w : ChunkWalk) :
    ClipboardRelay × Option (ClipboardKind × List Char) :=
  if w.chunks.length = w.first.totalChunks then
    ({ s with lastSeenRevision := w.first.revision, walk := none },
      some (w.first.kind, w.chunks.flatten))
  else ({ s with walk := some w }, none)

/-- `clipboard_take_loop` from one request to the next. -/
def take (s : ClipboardRelay) : ClipboardRelay × Option (ClipboardKind × List Char) :=
  match s.walk with
  | none =>
    match s.pollOnce 0 with
    | none => (s, none)
    | some first =>
      if first.revision = 0 ∨ first.revision ≤ s.lastSeenRevision ∨ first.totalChunks = 0 then
        (s, none)
      else s.advance ⟨first, [first.data]⟩
  | some w =>
    match s.pollOnce w.chunks.length with
    | none => ({ s with walk := none }, none)
    | some update =>
      if update.revision = w.first.revision ∧ update.index = w.chunks.length then
        s.advance { w with chunks := w.chunks ++ [update.data] }
      else ({ s with walk := none }, none)

def step (s : ClipboardRelay) :
    RelayEvent → ClipboardRelay × Option (ClipboardKind × List Char)
  | .stash p => ({ s with slot := some p.stashed }, none)
  | .take => s.take

end ClipboardRelay

/-! ### What the relay should do -/

/-- The pieces of the paste are not cut inside a character. -/
def ReceivedPaste.Whole (p : ReceivedPaste) : Prop :=
  p.kind = .text ∨ Text.utf8Len p.payload ≤ clipboardChunkBytes ∨
    Text.Aligned clipboardChunkBytes p.payload

namespace ClipboardRelay

/-- The state after a run. -/
def after (l : List RelayEvent) : ClipboardRelay := Trace.final step init l

/-- With nothing else stashed, the walk under way hands nothing out, and the next one hands out
`p`. -/
def Delivers (s : ClipboardRelay) (p : ReceivedPaste) : Prop :=
  ∃ k, (∀ j < k, (Trace.final step s (List.replicate j .take)).walk ≠ none) ∧
    (Trace.final step s (List.replicate k .take)).walk = none ∧
    Trace.outputs step s (List.replicate (k + p.chunks.length) .take) =
      List.replicate (k + p.chunks.length - 1) none ++ [some (p.kind, p.payload)]

/-- The paste's revision is above what the UI has seen, a walk under way is not misled by it, and
its pieces are whole. -/
def Fresh (m : List RelayEvent) : RelayEvent → Prop
  | .take => True
  | .stash p =>
    (after m).lastSeenRevision < p.revision ∧
      (∀ w, (after m).walk = some w →
        w.first.revision ≠ p.revision ∨ p.chunks.length < w.first.totalChunks) ∧
      p.Whole

end ClipboardRelay

/-! ### The pieces of a paste -/

namespace ReceivedPaste

variable {p : ReceivedPaste}

/-- An image in base64 is never cut inside a character. -/
theorem whole_of_ascii (h : ∀ c ∈ p.payload, c.toNat < 0x80) : p.Whole :=
  Or.inr (Or.inr (Text.Aligned.of_ascii h))

/-- Whole pieces make up the payload. -/
lemma flatten_chunks (h : p.Whole) : p.chunks.flatten = p.payload := by
  rw [chunks, splitRelayPayload]
  split_ifs with hsmall htext
  · exact List.flatten_singleton
  · rcases h with hkind | hle | haligned
    · rw [hkind] at htext
      simp at htext
    · exact absurd hle hsmall
    · exact haligned.flatten_chunks (by decide)
  · obtain ⟨chunks, hchunks, hflat, -⟩ :=
      Text.exists_textSlices (by decide : 4 ≤ clipboardChunkBytes) p.payload
    simp only [hchunks, Option.get_some]
    exact hflat

/-- There is a piece, and 32 bits count them. -/
lemma chunks_count (p : ReceivedPaste) : 0 < p.chunks.length ∧ p.chunks.length < 2 ^ 32 := by
  have hle := p.payload_le
  have hmax : maxClipboardUpdateBytes = 16777216 := rfl
  have hchunk : clipboardChunkBytes = 49152 := rfl
  rw [chunks, splitRelayPayload]
  split_ifs with hsmall htext
  · exact ⟨Nat.one_pos, by rw [List.length_singleton]; omega⟩
  · rw [List.length_map, Gather.length_chunks, Text.length_utf8, hchunk]
    omega
  · obtain ⟨chunks, hchunks, hflat, hall⟩ :=
      Text.exists_textSlices (by decide : 4 ≤ clipboardChunkBytes) p.payload
    simp only [hchunks, Option.get_some]
    have hcount : chunks.length ≤ Text.utf8Len chunks.flatten :=
      Text.length_le_utf8Len_flatten fun chunk hmem => (hall chunk hmem).1
    rw [hflat] at hcount
    refine ⟨List.length_pos_of_ne_nil ?_, by omega⟩
    rintro rfl
    rw [← hflat, List.flatten_nil, Text.utf8Len_nil] at hsmall
    omega

/-- The update for a piece. -/
def update (p : ReceivedPaste) (index : ℕ) (data : List Char) : ClipboardUpdate :=
  { revision := p.revision
    kind := p.kind
    totalBytes := Text.utf8Len p.payload
    totalChunks := p.chunks.length
    index
    data
    width := p.width
    height := p.height
    enabled := some true }

end ReceivedPaste

/-! ### One request -/

namespace ClipboardRelay

variable {s t : ClipboardRelay} {p : ReceivedPaste} {seen k : ℕ} {w : ChunkWalk}
  {data : List Char} {m l : List RelayEvent}

/-- `p` is in the slot, and the UI has `k` pieces of it. -/
def walking (p : ReceivedPaste) (seen k : ℕ) : ClipboardRelay :=
  { slot := some p.stashed
    lastSeenRevision := seen
    walk := if k = 0 then none else some ⟨p.update 0 (p.chunks.headD []), p.chunks.take k⟩ }

/-- `p` came into the slot under a walk that does not get through with it. -/
def misled (p : ReceivedPaste) (seen : ℕ) (w : ChunkWalk) : ClipboardRelay :=
  ⟨some p.stashed, seen, some w⟩

lemma pollOnce_stashed (hslot : s.slot = some p.stashed) (hseen : s.lastSeenRevision < p.revision)
    (hdata : p.chunks[k]? = some data) : s.pollOnce k = some (p.update k data) := by
  have hcount := p.chunks_count.2
  have hnew : ¬(p.revision = 0 ∨ p.revision = s.lastSeenRevision) := by omega
  unfold pollOnce pollInboundClipboard
  rw [hslot]
  simp only [ReceivedPaste.stashed, if_neg hnew, hdata, Nat.mod_eq_of_lt hcount,
    ReceivedPaste.update]

lemma pollOnce_beyond (hslot : s.slot = some p.stashed) (hk : p.chunks.length ≤ k) :
    s.pollOnce k = some (.nothing true) := by
  unfold pollOnce pollInboundClipboard
  rw [hslot]
  simp only [ReceivedPaste.stashed, List.getElem?_eq_none hk, ite_self]

/-- A paste is not taken twice. -/
lemma take_taken (p : ReceivedPaste) :
    (walking p p.revision 0).take = (walking p p.revision 0, none) := by
  have hpoll : (walking p p.revision 0).pollOnce 0 = some (.nothing true) := by
    unfold pollOnce pollInboundClipboard
    simp [walking, ReceivedPaste.stashed]
  have hidle : (walking p p.revision 0).walk = none := rfl
  unfold take
  rw [hidle]
  simp only [hpoll]
  exact if_pos (Or.inl rfl)

/-- The next piece is taken, and the last one hands the paste out. -/
lemma take_walking (hseen : seen < p.revision) (hk : k < p.chunks.length) :
    (walking p seen k).take =
      if k + 1 = p.chunks.length then
        (walking p p.revision 0, some (p.kind, p.chunks.flatten))
      else (walking p seen (k + 1), none) := by
  have hdata : p.chunks[k]? = some p.chunks[k] := List.getElem?_eq_getElem hk
  have hpoll : (walking p seen k).pollOnce k = some (p.update k p.chunks[k]) :=
    pollOnce_stashed rfl hseen hdata
  have hlen : (p.chunks.take k).length = k := List.length_take_of_le hk.le
  have hadvance : (walking p seen k).advance
      ⟨p.update 0 (p.chunks.headD []), p.chunks.take (k + 1)⟩ =
      if k + 1 = p.chunks.length then
        (walking p p.revision 0, some (p.kind, p.chunks.flatten))
      else (walking p seen (k + 1), none) := by
    rw [advance, List.length_take_of_le hk]
    by_cases hlast : k + 1 = p.chunks.length
    · have hcomplete : k + 1 = (p.update 0 (p.chunks.headD [])).totalChunks := hlast
      rw [if_pos hlast, if_pos hcomplete, hlast, List.take_length]
      rfl
    · have hopen : ¬k + 1 = (p.update 0 (p.chunks.headD [])).totalChunks := hlast
      rw [if_neg hlast, if_neg hopen]
      simp [walking]
  rw [List.take_succ_eq_append_getElem hk] at hadvance
  rw [← hadvance]
  unfold take
  rcases Nat.eq_zero_or_pos k with rfl | hpos
  · have hidle : (walking p seen 0).walk = none := rfl
    have hhead : p.chunks.headD [] = p.chunks[0] := by
      rw [List.headD_eq_head?_getD, List.head?_eq_getElem?, hdata, Option.getD_some]
    have hnew : ¬((p.update 0 p.chunks[0]).revision = 0 ∨
        (p.update 0 p.chunks[0]).revision ≤ (walking p seen 0).lastSeenRevision ∨
        (p.update 0 p.chunks[0]).totalChunks = 0) := by
      simp only [ReceivedPaste.update, walking]
      omega
    rw [hidle]
    simp only [hpoll]
    rw [if_neg hnew, hhead]
    rfl
  · have hwalk : (walking p seen k).walk =
        some ⟨p.update 0 (p.chunks.headD []), p.chunks.take k⟩ := if_neg (by omega)
    rw [hwalk]
    simp only [hlen, hpoll]
    exact if_pos ⟨rfl, rfl⟩

/-- The walk ends, or goes on with a piece of `p`. -/
lemma take_misled (hseen : seen < p.revision) (hbegun : 0 < w.chunks.length)
    (hother : w.first.revision ≠ p.revision ∨ p.chunks.length < w.first.totalChunks) :
    (misled p seen w).take = (walking p seen 0, none) ∨
      ∃ data, w.chunks.length < p.chunks.length ∧
        (misled p seen w).take = (misled p seen { w with chunks := w.chunks ++ [data] }, none) := by
  have hwalk : (misled p seen w).walk = some w := rfl
  unfold take
  rw [hwalk]
  simp only
  rcases Nat.lt_or_ge w.chunks.length p.chunks.length with hk | hk
  · have hpoll : (misled p seen w).pollOnce w.chunks.length =
        some (p.update w.chunks.length p.chunks[w.chunks.length]) :=
      pollOnce_stashed rfl hseen (List.getElem?_eq_getElem hk)
    rw [hpoll]
    simp only
    by_cases hsame : p.revision = w.first.revision
    · right
      refine ⟨p.chunks[w.chunks.length], hk, ?_⟩
      rw [if_pos ⟨hsame, rfl⟩, advance, if_neg]
      · rfl
      · rw [List.length_append, List.length_singleton]
        rcases hother with hother | hother
        · exact absurd hsame.symm hother
        · simp only
          omega
    · left
      exact if_neg fun h => hsame h.1
  · left
    rw [pollOnce_beyond rfl hk]
    refine if_neg ?_
    rintro ⟨-, hindex⟩
    have hzero : 0 = w.chunks.length := hindex
    omega

/-! ### Runs -/

/-- The states of a run whose pastes were fresh. -/
inductive Follows (m : List RelayEvent) : ClipboardRelay → Prop
  | empty : Follows m init
  | taken {p : ReceivedPaste} : Follows m (walking p p.revision 0)
  | walking {p : ReceivedPaste} {seen k : ℕ} (hp : .stash p ∈ m) (hwhole : p.Whole)
      (hseen : seen < p.revision) (hk : k < p.chunks.length) : Follows m (walking p seen k)
  | misled {p : ReceivedPaste} {seen : ℕ} {w : ChunkWalk} (hp : .stash p ∈ m)
      (hwhole : p.Whole) (hseen : seen < p.revision) (hbegun : 0 < w.chunks.length)
      (hother : w.first.revision ≠ p.revision ∨ p.chunks.length < w.first.totalChunks) :
      Follows m (misled p seen w)

lemma Follows.mono (h : Follows m s) (hm : m ⊆ l) : Follows l s := by
  cases h with
  | empty => exact .empty
  | taken => exact .taken
  | walking hp hwhole hseen hk => exact .walking (hm hp) hwhole hseen hk
  | misled hp hwhole hseen hbegun hother => exact .misled (hm hp) hwhole hseen hbegun hother

/-- A walk has a piece from its start on. -/
lemma Follows.begun (h : Follows m s) (hw : s.walk = some w) : 0 < w.chunks.length := by
  cases h with
  | empty => cases hw
  | taken => cases hw
  | walking _ _ _ hk =>
    simp only [ClipboardRelay.walking] at hw
    split_ifs at hw with hzero
    obtain rfl := Option.some.inj hw
    rw [List.length_take_of_le hk.le]
    omega
  | misled _ _ _ hbegun _ =>
    obtain rfl := Option.some.inj hw
    exact hbegun

/-- A fresh paste waits for the next walk, or for the one under way to end. -/
lemma stash_cases (hbegun : ∀ w, s.walk = some w → 0 < w.chunks.length) :
    (step s (.stash p)).1 = walking p s.lastSeenRevision 0 ∨
      ∃ w, s.walk = some w ∧ 0 < w.chunks.length ∧
        (step s (.stash p)).1 = misled p s.lastSeenRevision w := by
  rcases hw : s.walk with _ | w
  · left
    simp [step, walking, hw]
  · right
    refine ⟨w, rfl, hbegun w hw, ?_⟩
    simp [step, misled, hw]

lemma Follows.stash (h : Follows m (after m)) (hfresh : Fresh m (.stash p)) :
    Follows (m ++ [.stash p]) (step (after m) (.stash p)).1 := by
  obtain ⟨hseen, hwalk, hwhole⟩ := hfresh
  have hp : .stash p ∈ m ++ [RelayEvent.stash p] := by simp
  rcases stash_cases (p := p) (fun w => h.begun (w := w)) with hs | ⟨w, hw, hbegun, hs⟩
  · rw [hs]
    exact .walking hp hwhole hseen p.chunks_count.1
  · rw [hs]
    exact .misled hp hwhole hseen hbegun (hwalk w hw)

lemma Follows.take (h : Follows m s) : Follows m s.take.1 := by
  cases h with
  | empty => exact .empty
  | @taken p =>
    rw [take_taken]
    exact .taken
  | @walking p seen k hp hwhole hseen hk =>
    rw [take_walking hseen hk]
    split_ifs with hlast
    · exact .taken
    · exact .walking hp hwhole hseen (by omega)
  | @misled p seen w hp hwhole hseen hbegun hother =>
    rcases take_misled hseen hbegun hother with htake | ⟨data, -, htake⟩
    · rw [htake]
      exact .walking hp hwhole hseen p.chunks_count.1
    · rw [htake]
      refine .misled hp hwhole hseen ?_ hother
      rw [List.length_append, List.length_singleton]
      omega

lemma follows_after (h : Trace.Each Fresh l) : Follows l (after l) := by
  refine Trace.invariant (I := Follows) .empty ?_ h
  intro m event hm hfresh
  cases event with
  | stash p => exact Follows.stash hm hfresh
  | take => exact (hm.mono (List.subset_append_left _ _)).take

/-- What is handed out is the payload of the paste in the slot. -/
lemma Follows.handed {kind : ClipboardKind} {payload : List Char} (h : Follows m s)
    (htake : s.take.2 = some (kind, payload)) :
    ∃ p, .stash p ∈ m ∧ p.kind = kind ∧ p.payload = payload := by
  cases h with
  | empty => cases htake
  | @taken p =>
    rw [take_taken] at htake
    cases htake
  | @walking p seen k hp hwhole hseen hk =>
    rw [take_walking hseen hk] at htake
    split_ifs at htake with hlast
    obtain ⟨rfl, rfl⟩ := Prod.mk.inj (Option.some.inj htake)
    exact ⟨p, hp, rfl, (ReceivedPaste.flatten_chunks hwhole).symm⟩
  | @misled p seen w hp hwhole hseen hbegun hother =>
    rcases take_misled hseen hbegun hother with h | ⟨data, -, h⟩
    · rw [h] at htake
      cases htake
    · rw [h] at htake
      cases htake

/-! ### The walk after a paste -/

/-- The rest of a walk hands the paste out with its last piece. -/
lemma outputs_walking (hseen : seen < p.revision) {j : ℕ} (hk : k + j + 1 = p.chunks.length) :
    Trace.outputs step (walking p seen k) (List.replicate (j + 1) .take) =
      List.replicate j none ++ [some (p.kind, p.chunks.flatten)] := by
  induction j generalizing k with
  | zero =>
    have htake := take_walking (k := k) hseen (by omega)
    rw [if_pos (by omega)] at htake
    rw [List.replicate_one, Trace.outputs, step, htake]
    rfl
  | succ j ih =>
    have htake := take_walking (k := k) hseen (by omega)
    rw [if_neg (by omega)] at htake
    rw [List.replicate_succ, Trace.outputs, step, htake, ih (by omega), List.replicate_succ,
      List.cons_append]

lemma delivers_walking (hwhole : p.Whole) (hseen : seen < p.revision) :
    Delivers (walking p seen 0) p := by
  have hcount := p.chunks_count.1
  refine ⟨0, nofun, rfl, ?_⟩
  rw [Nat.zero_add, ← ReceivedPaste.flatten_chunks hwhole]
  obtain ⟨j, hj⟩ : ∃ j, p.chunks.length = j + 1 := ⟨p.chunks.length - 1, by omega⟩
  rw [hj, Nat.add_sub_cancel]
  exact outputs_walking hseen (by omega)

/-- A request that hands nothing out while a walk is under way may come first. -/
lemma Delivers.cons (h : Delivers t p) (hwalk : s.walk ≠ none) (htake : s.take = (t, none)) :
    Delivers s p := by
  have hcount := p.chunks_count.1
  have hstep : step s .take = (t, none) := htake
  obtain ⟨k, hbusy, hidle, houtputs⟩ := h
  refine ⟨k + 1, ?_, ?_, ?_⟩
  · intro j hj
    cases j with
    | zero => exact hwalk
    | succ j =>
      rw [List.replicate_succ, Trace.final_cons, hstep]
      exact hbusy j (by omega)
  · rw [List.replicate_succ, Trace.final_cons, hstep]
    exact hidle
  · have htakes : k + 1 + p.chunks.length = k + p.chunks.length + 1 := by omega
    have hrest : k + p.chunks.length + 1 - 1 = k + p.chunks.length - 1 + 1 := by omega
    rw [htakes, List.replicate_succ, Trace.outputs, hstep, houtputs, hrest, List.replicate_succ,
      List.cons_append]

lemma delivers_misled (hwhole : p.Whole) (hseen : seen < p.revision)
    (hbegun : 0 < w.chunks.length)
    (hother : w.first.revision ≠ p.revision ∨ p.chunks.length < w.first.totalChunks) :
    Delivers (misled p seen w) p := by
  induction hn : p.chunks.length - w.chunks.length generalizing w with
  | zero =>
    rcases take_misled hseen hbegun hother with htake | ⟨data, hlt, -⟩
    · exact (delivers_walking hwhole hseen).cons nofun htake
    · omega
  | succ n ih =>
    rcases take_misled hseen hbegun hother with htake | ⟨data, hlt, htake⟩
    · exact (delivers_walking hwhole hseen).cons nofun htake
    · have hlonger : (w.chunks ++ [data]).length = w.chunks.length + 1 := by
        rw [List.length_append, List.length_singleton]
      have hrest : Delivers (misled p seen { w with chunks := w.chunks ++ [data] }) p :=
        ih (by simp only [hlonger]; omega) hother (by simp only [hlonger]; omega)
      exact hrest.cons nofun htake

/-- **No relayed paste is lost or torn while revisions grow**. In a run whose pastes were fresh
when stashed, each paste is what the first walk begun after it hands out if no other is stashed
meanwhile, and whatever is handed out is one stashed paste. -/
theorem pastes_relayed (l : List RelayEvent) (h : Trace.Each Fresh l) :
    (∀ m p, m ++ [.stash p] <+: l → Delivers (after (m ++ [.stash p])) p) ∧
    ∀ kind payload, some (kind, payload) ∈ Trace.outputs step init l →
      ∃ p, .stash p ∈ l ∧ p.kind = kind ∧ p.payload = payload := by
  constructor
  · intro m p hm
    have hfresh := h m (.stash p) hm
    have hfollows := follows_after (h.earlier hm)
    obtain ⟨hseen, hwalk, hwhole⟩ := hfresh
    rw [after, Trace.final_snoc]
    rcases stash_cases (p := p) (fun w => hfollows.begun (w := w)) with hs | ⟨w, hw, hbegun, hs⟩
    · exact hs ▸ delivers_walking hwhole hseen
    · exact hs ▸ delivers_misled hwhole hseen hbegun (hwalk w hw)
  · induction l using List.reverseRecOn with
    | nil => exact nofun
    | append_singleton l event ih =>
      obtain ⟨hl, hevent⟩ := Trace.each_snoc.mp h
      intro kind payload hmem
      rw [Trace.outputs_snoc, List.mem_append, List.mem_singleton] at hmem
      rcases hmem with hmem | hmem
      · obtain ⟨p, hp, hkind, hpayload⟩ := ih hl kind payload hmem
        exact ⟨p, List.mem_append_left _ hp, hkind, hpayload⟩
      · cases event with
        | stash p => cases hmem
        | take =>
          obtain ⟨p, hp, hkind, hpayload⟩ := (follows_after hl).handed hmem.symm
          exact ⟨p, List.mem_append_left _ hp, hkind, hpayload⟩

/-! ### Two sessions -/

/-- A text of one letter. -/
def letterPaste (revision : ℕ) (letter : Char) (h : letter.utf8Size = 1) : ReceivedPaste :=
  ⟨revision, .text, [letter], 0, 0, by
    have hmax : maxClipboardUpdateBytes = 16777216 := rfl
    simp only [Text.utf8Len_cons, Text.utf8Len_nil, h]
    omega⟩

theorem pastes_relayed_first :
    Delivers (after [.stash (letterPaste 1 'a' rfl)]) (letterPaste 1 'a' rfl) := by
  have hfresh : Trace.Each Fresh [.stash (letterPaste 1 'a' rfl)] :=
    Trace.each_singleton.mpr ⟨Nat.zero_lt_one, nofun, Or.inl rfl⟩
  exact (pastes_relayed _ hfresh).1 [] _ (by rfl)

/-- The second session's first paste has the number of the first session's. -/
theorem second_session_unseen :
    ¬Delivers (after [.stash (letterPaste 1 'a' rfl), .take, .stash (letterPaste 1 'b' rfl)])
      (letterPaste 1 'b' rfl) := by
  rintro ⟨k, hbusy, -, houtputs⟩
  cases k with
  | zero =>
    have hcount : (letterPaste 1 'b' rfl).chunks.length = 1 := by decide
    rw [hcount] at houtputs
    have hseen : Trace.outputs step
        (after [.stash (letterPaste 1 'a' rfl), .take, .stash (letterPaste 1 'b' rfl)])
        (List.replicate (0 + 1) .take) = [none] := by decide
    rw [hseen] at houtputs
    cases houtputs
  | succ k => exact hbusy 0 (Nat.succ_pos k) (by decide)

end ClipboardRelay

end TheKvm
