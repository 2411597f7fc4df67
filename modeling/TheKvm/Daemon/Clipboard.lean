import TheKvm.Lib.Slice
import TheKvm.Lib.Trace
import TheKvm.Protocol.Control

/-!
Chunked pastes between two daemons: the sender's split and the receiver's assembly.

Texts and images are assembled alike; what an image's header adds is its size. Counters that
the source keeps in 32 bits wrap here as they do in a release build.
-/

namespace TheKvm

/-- Receiver-side assembly of one chunked paste, with what else its header said. -/
structure Assembly (δ : Type) where
  revision : ℕ
  totalBytes : ℕ
  expectedChunks : UInt32
  nextIndex : UInt32
  receivedBytes : ℕ
  buffer : List Char
  header : δ

/-- `Dropped`: nothing buffered. `Ready`: transfer complete, apply this. -/
inductive Feed (δ : Type)
  | dropped
  | pending
  | ready (payload : List Char) (header : δ)
  deriving DecidableEq

namespace Assembly

variable {δ : Type} [Inhabited δ]

/-- `Default::default`. -/
def default : Assembly δ := ⟨0, 0, 0, 0, 0, [], Inhabited.default⟩

/-- Open a chunked paste. Anything over the cap (or empty, or chunkless, or with a header that
is not sane) is refused before the first chunk arrives. -/
def feedStart (sane : δ → Bool) (revision totalBytes : ℕ) (chunks : UInt32) (header : δ)
    (maxBytes : ℕ) : Assembly δ × Feed δ :=
  if totalBytes = 0 ∨ maxBytes < totalBytes ∨ chunks = 0 ∨ sane header = false then
    (default, .dropped)
  else
    ({ revision
       totalBytes
       expectedChunks := chunks
       nextIndex := 0
       receivedBytes := 0
       buffer := []
       header }, .pending)

/-- Append one chunk. Anything out of order, over the declared total, or for another revision
aborts the whole transfer. -/
def feedChunk (a : Assembly δ) (revision : ℕ) (index : UInt32) (data : List Char) :
    Assembly δ × Feed δ :=
  if revision ≠ a.revision ∨ a.expectedChunks = 0 ∨ index ≠ a.nextIndex ∨
      a.totalBytes < a.receivedBytes + Text.utf8Len data then
    (default, .dropped)
  else
    ({ a with
        buffer := a.buffer ++ data
        receivedBytes := a.receivedBytes + Text.utf8Len data
        nextIndex := a.nextIndex + 1 }, .pending)

/-- Close a chunked paste. -/
def feedEnd (a : Assembly δ) (revision : ℕ) : Assembly δ × Feed δ :=
  if revision ≠ a.revision ∨ a.expectedChunks = 0 ∨ a.nextIndex ≠ a.expectedChunks ∨
      a.receivedBytes ≠ a.totalBytes then
    (default, .dropped)
  else (default, .ready a.buffer a.header)

end Assembly

/-- One call on an assembly. -/
inductive AssemblyCall (δ : Type)
  | start (revision totalBytes : ℕ) (chunks : UInt32) (header : δ) (maxBytes : ℕ)
  | chunk (revision : ℕ) (index : UInt32) (data : List Char)
  | finish (revision : ℕ)

def Assembly.feed {δ : Type} [Inhabited δ] (sane : δ → Bool) (a : Assembly δ) :
    AssemblyCall δ → Assembly δ × Feed δ
  | .start revision totalBytes chunks header maxBytes =>
    feedStart sane revision totalBytes chunks header maxBytes
  | .chunk revision index data => a.feedChunk revision index data
  | .finish revision => a.feedEnd revision

/-- Texts have nothing but their bytes. -/
abbrev ClipboardAssembly := Assembly Unit

/-- The decoded dimensions of an image. -/
structure ImageSize where
  width : ℕ
  height : ℕ
  deriving DecidableEq, Inhabited

/-- Sane dimensions (they size the UI-side decode). -/
def ImageSize.sane (s : ImageSize) : Bool :=
  s.width != 0 && s.height != 0 && decide (s.width ≤ 16384) && decide (s.height ≤ 16384)

abbrev ImageAssembly := Assembly ImageSize

def ClipboardAssembly.feed :
    ClipboardAssembly → AssemblyCall Unit → ClipboardAssembly × Feed Unit :=
  Assembly.feed fun _ => true

def ImageAssembly.feed :
    ImageAssembly → AssemblyCall ImageSize → ImageAssembly × Feed ImageSize :=
  Assembly.feed ImageSize.sane

/-! ### The sender -/

/-- Split pasted text into wire-sized chunks on UTF-8 char boundaries. -/
def splitClipboardChunks (text : List Char) : Option (List (List Char)) :=
  if Text.utf8Len text ≤ clipboardChunkBytes then some [text]
  else Text.slices (Text.textCut clipboardChunkBytes) text

/-- Split base64 into wire-sized chunks, at any byte. -/
def splitBase64Chunks (encoded : List Char) : Option (List (List Char)) :=
  if Text.utf8Len encoded ≤ clipboardChunkBytes then some [encoded]
  else Text.slices (Text.byteCut clipboardChunkBytes) encoded

/-- The chunks of one paste, numbered in 32 bits. -/
def chunkCalls {δ : Type} (revision : ℕ) (chunks : List (List Char)) : List (AssemblyCall δ) :=
  chunks.mapIdx fun index data => .chunk revision (UInt32.ofNat index) data

/-- Start, chunks and end of one paste, under one revision. -/
def sentCalls {δ : Type} (revision : ℕ) (payload : List Char) (header : δ) (maxBytes : ℕ)
    (chunks : List (List Char)) : List (AssemblyCall δ) :=
  .start revision (Text.utf8Len payload) (UInt32.ofNat chunks.length) header maxBytes ::
    (chunkCalls revision chunks ++ [.finish revision])

/-! ### What a transfer should be -/

variable {δ : Type}

/-- All but the last call put up a chunk, and the last hands the paste out. -/
def arrival (payload : List Char) (header : δ) (chunks : List (List Char)) : List (Feed δ) :=
  List.replicate (chunks.length + 1) .pending ++ [.ready payload header]

/-- The calls end in an acceptable start and exactly its chunks, and these make up the
payload. -/
def Transferred (sane : δ → Bool) (calls : List (AssemblyCall δ)) (revision : ℕ)
    (payload : List Char) (header : δ) : Prop :=
  ∃ (earlier : List (AssemblyCall δ)) (n : UInt32) (maxBytes : ℕ) (chunks : List (List Char)),
    calls = earlier ++
      .start revision (Text.utf8Len payload) n header maxBytes :: chunkCalls revision chunks ∧
    0 < Text.utf8Len payload ∧ Text.utf8Len payload ≤ maxBytes ∧ sane header = true ∧
    0 < n.toNat ∧ chunks.length = n.toNat ∧ chunks.flatten = payload

/-- The chunk calls since the last start. -/
def chunksSinceStart (calls : List (AssemblyCall δ)) : ℕ :=
  calls.foldl (fun n call =>
    match call with
    | .start .. => 0
    | .chunk .. => n + 1
    | .finish _ => n) 0

/-- The cap the last start was given. -/
def lastMaxBytes (calls : List (AssemblyCall δ)) : ℕ :=
  calls.foldl (fun n call =>
    match call with
    | .start _ _ _ _ maxBytes => maxBytes
    | .chunk .. | .finish _ => n) 0

/-! ### One call -/

lemma chunkCalls_snoc (revision : ℕ) (chunks : List (List Char)) (data : List Char) :
    (chunkCalls revision (chunks ++ [data]) : List (AssemblyCall δ)) =
      chunkCalls revision chunks ++ [.chunk revision (UInt32.ofNat chunks.length) data] := by
  rw [chunkCalls, List.mapIdx_concat]
  rfl

lemma chunksSinceStart_snoc_chunk (calls : List (AssemblyCall δ)) (revision : ℕ) (index : UInt32)
    (data : List Char) :
    chunksSinceStart (calls ++ [.chunk revision index data]) = chunksSinceStart calls + 1 := by
  simp [chunksSinceStart]

lemma chunksSinceStart_snoc_start (calls : List (AssemblyCall δ)) (revision totalBytes : ℕ)
    (n : UInt32) (header : δ) (maxBytes : ℕ) :
    chunksSinceStart (calls ++ [.start revision totalBytes n header maxBytes]) = 0 := by
  simp [chunksSinceStart]

lemma lastMaxBytes_snoc_chunk (calls : List (AssemblyCall δ)) (revision : ℕ) (index : UInt32)
    (data : List Char) :
    lastMaxBytes (calls ++ [.chunk revision index data]) = lastMaxBytes calls := by
  simp [lastMaxBytes]

lemma lastMaxBytes_snoc_start (calls : List (AssemblyCall δ)) (revision totalBytes : ℕ)
    (n : UInt32) (header : δ) (maxBytes : ℕ) :
    lastMaxBytes (calls ++ [.start revision totalBytes n header maxBytes]) = maxBytes := by
  simp [lastMaxBytes]

/-- After a start, the chunks since are the chunks of the transfer. -/
lemma chunksSinceStart_chunkCalls (earlier : List (AssemblyCall δ)) (revision totalBytes : ℕ)
    (n : UInt32) (header : δ) (maxBytes : ℕ) (chunks : List (List Char)) :
    chunksSinceStart (earlier ++
      .start revision totalBytes n header maxBytes :: chunkCalls revision chunks) =
      chunks.length := by
  induction chunks using List.reverseRecOn with
  | nil => exact chunksSinceStart_snoc_start _ _ _ _ _ _
  | append_singleton chunks data ih =>
    rw [chunkCalls_snoc, ← List.cons_append, ← List.append_assoc, chunksSinceStart_snoc_chunk, ih,
      List.length_append, List.length_singleton]

lemma lastMaxBytes_chunkCalls (earlier : List (AssemblyCall δ)) (revision totalBytes : ℕ)
    (n : UInt32) (header : δ) (maxBytes : ℕ) (chunks : List (List Char)) :
    lastMaxBytes (earlier ++
      .start revision totalBytes n header maxBytes :: chunkCalls revision chunks) = maxBytes := by
  induction chunks using List.reverseRecOn with
  | nil => exact lastMaxBytes_snoc_start _ _ _ _ _ _
  | append_singleton chunks data ih =>
    rw [chunkCalls_snoc, ← List.cons_append, ← List.append_assoc, lastMaxBytes_snoc_chunk, ih]

/-- The state with some chunks of a transfer in the buffer. -/
def Assembly.opened (revision totalBytes : ℕ) (n : UInt32) (header : δ)
    (chunks : List (List Char)) : Assembly δ :=
  ⟨revision, totalBytes, n, UInt32.ofNat chunks.length, Text.utf8Len chunks.flatten,
    chunks.flatten, header⟩

/-- No transfer, or a start the rules accept and the chunks since. -/
inductive Assembly.Holds [Inhabited δ] (sane : δ → Bool) :
    List (AssemblyCall δ) → Assembly δ → Prop
  | idle {calls : List (AssemblyCall δ)} : Holds sane calls Assembly.default
  | opened {calls earlier : List (AssemblyCall δ)} {revision totalBytes : ℕ} {n : UInt32}
      {header : δ} {maxBytes : ℕ} {chunks : List (List Char)}
      (hcalls : calls = earlier ++
        .start revision totalBytes n header maxBytes :: chunkCalls revision chunks)
      (hpos : 0 < totalBytes) (hmax : totalBytes ≤ maxBytes) (hn : n ≠ 0)
      (hsane : sane header = true) (hroom : Text.utf8Len chunks.flatten ≤ totalBytes) :
      Holds sane calls (Assembly.opened revision totalBytes n header chunks)

namespace Assembly

variable [Inhabited δ] {sane : δ → Bool} {a : Assembly δ} {calls : List (AssemblyCall δ)}
  {revision totalBytes maxBytes : ℕ} {n : UInt32} {header : δ} {chunks : List (List Char)}
  {data payload : List Char}

lemma feedStart_opens (hpos : 0 < totalBytes) (hmax : totalBytes ≤ maxBytes) (hn : n ≠ 0)
    (hsane : sane header = true) :
    feedStart sane revision totalBytes n header maxBytes =
      (opened revision totalBytes n header [], .pending) := by
  rw [feedStart, if_neg]
  · rfl
  · rintro (h | h | h | h)
    · omega
    · omega
    · exact hn h
    · rw [hsane] at h
      cases h

/-- The next chunk of an open transfer is taken if there is room for it. -/
lemma feedChunk_opened (hn : n ≠ 0)
    (hroom : Text.utf8Len (chunks ++ [data]).flatten ≤ totalBytes) :
    (opened revision totalBytes n header chunks).feedChunk revision (UInt32.ofNat chunks.length)
        data = (opened revision totalBytes n header (chunks ++ [data]), .pending) := by
  rw [List.flatten_append, List.flatten_singleton, Text.utf8Len_append] at hroom
  rw [feedChunk, if_neg]
  · simp [opened]
  · simp only [opened]
    rintro (h | h | h | h)
    · exact h rfl
    · exact hn h
    · exact h rfl
    · omega

/-- What a start can do. -/
lemma feedStart_cases (sane : δ → Bool) (revision totalBytes : ℕ) (n : UInt32) (header : δ)
    (maxBytes : ℕ) :
    feedStart sane revision totalBytes n header maxBytes = (default, .dropped) ∨
      0 < totalBytes ∧ totalBytes ≤ maxBytes ∧ n ≠ 0 ∧ sane header = true ∧
        feedStart sane revision totalBytes n header maxBytes =
          (opened revision totalBytes n header [], .pending) := by
  by_cases h : totalBytes = 0 ∨ maxBytes < totalBytes ∨ n = 0 ∨ sane header = false
  · exact Or.inl (if_pos h)
  · right
    simp only [not_or, Bool.not_eq_false] at h
    obtain ⟨hzero, hover, hn, hsane⟩ := h
    have hpos : 0 < totalBytes := by omega
    have hmax : totalBytes ≤ maxBytes := by omega
    exact ⟨hpos, hmax, hn, hsane, feedStart_opens hpos hmax hn hsane⟩

/-- What a chunk can do to an open transfer. -/
lemma feedChunk_cases (revision totalBytes : ℕ) (n : UInt32) (header : δ)
    (chunks : List (List Char)) (r : ℕ) (index : UInt32) (data : List Char) :
    (opened revision totalBytes n header chunks).feedChunk r index data = (default, .dropped) ∨
      r = revision ∧ index = UInt32.ofNat chunks.length ∧
        Text.utf8Len (chunks ++ [data]).flatten ≤ totalBytes := by
  rw [feedChunk]
  split_ifs with h
  · exact Or.inl rfl
  · right
    simp only [opened, not_or, not_not] at h
    obtain ⟨hrevision, -, hindex, hroom⟩ := h
    refine ⟨hrevision, hindex, ?_⟩
    rw [List.flatten_append, List.flatten_singleton, Text.utf8Len_append]
    omega

/-- What an end can do to an open transfer. -/
lemma feedEnd_opened (hn : n ≠ 0) (r : ℕ) :
    (opened revision totalBytes n header chunks).feedEnd r =
      if r = revision ∧ UInt32.ofNat chunks.length = n ∧
          Text.utf8Len chunks.flatten = totalBytes then
        (default, .ready chunks.flatten header)
      else (default, .dropped) := by
  by_cases h : r = revision ∧ UInt32.ofNat chunks.length = n ∧
      Text.utf8Len chunks.flatten = totalBytes
  · rw [if_pos h]
    obtain ⟨hr, hlast, hlen⟩ := h
    refine if_neg ?_
    rintro (h | h | h | h)
    · exact h hr
    · exact hn h
    · exact h hlast
    · exact h hlen
  · rw [if_neg h]
    refine if_pos ?_
    by_contra hgood
    simp only [not_or, not_not] at hgood
    exact h ⟨hgood.1, hgood.2.2⟩

/-- Without a transfer, chunks and ends are dropped. -/
lemma feedChunk_default (r : ℕ) (index : UInt32) (data : List Char) :
    (default : Assembly δ).feedChunk r index data = (default, .dropped) :=
  if_pos (Or.inr (Or.inl rfl))

lemma feedEnd_default (r : ℕ) : (default : Assembly δ).feedEnd r = (default, .dropped) :=
  if_pos (Or.inr (Or.inl rfl))

lemma Holds.feed (h : Holds sane calls a) (call : AssemblyCall δ) :
    Holds sane (calls ++ [call]) (a.feed sane call).1 := by
  cases call with
  | start revision totalBytes n header maxBytes =>
    rw [Assembly.feed]
    rcases feedStart_cases sane revision totalBytes n header maxBytes with hdrop | hopen
    · rw [hdrop]
      exact .idle
    · obtain ⟨hpos, hmax, hn, hsane, hopen⟩ := hopen
      rw [hopen]
      exact .opened rfl hpos hmax hn hsane (Nat.zero_le _)
  | chunk r index data =>
    rw [Assembly.feed]
    cases h with
    | idle =>
      rw [feedChunk_default]
      exact .idle
    | @opened earlier revision totalBytes n header maxBytes chunks hcalls hpos hmax hn hsane
        hroom =>
      rcases feedChunk_cases revision totalBytes n header chunks r index data with
        hdrop | ⟨rfl, rfl, hfits⟩
      · rw [hdrop]
        exact .idle
      · rw [feedChunk_opened hn hfits]
        have hmore : calls ++ [.chunk r (UInt32.ofNat chunks.length) data] = earlier ++
            .start r totalBytes n header maxBytes :: chunkCalls r (chunks ++ [data]) := by
          rw [hcalls, chunkCalls_snoc, List.append_assoc, List.cons_append]
        exact Holds.opened hmore hpos hmax hn hsane hfits
  | finish r =>
    rw [Assembly.feed]
    cases h with
    | idle =>
      rw [feedEnd_default]
      exact .idle
    | opened hcalls hpos hmax hn hsane hroom =>
      rw [feedEnd_opened hn]
      split_ifs
      · exact .idle
      · exact .idle

lemma holds_final (sane : δ → Bool) (calls : List (AssemblyCall δ)) :
    Holds sane calls (Trace.final (Assembly.feed sane) default calls) := by
  induction calls using List.reverseRecOn with
  | nil => exact Holds.idle
  | append_singleton calls call ih =>
    rw [Trace.final_snoc]
    exact ih.feed call

/-- The buffer stays within the cap of the last start. -/
lemma Holds.buffer_le (h : Holds sane calls a) : Text.utf8Len a.buffer ≤ lastMaxBytes calls := by
  cases h with
  | idle => exact Nat.zero_le _
  | opened hcalls _ hmax _ _ hroom =>
    rw [hcalls, lastMaxBytes_chunkCalls]
    exact hroom.trans hmax

/-- What is handed out came in as one transfer, up to the wrapping of its chunk numbers. -/
lemma Holds.feedEnd_ready (h : Holds sane calls a)
    (hready : (a.feedEnd revision).2 = .ready payload header) :
    ∃ earlier n maxBytes chunks, calls = earlier ++
        .start revision (Text.utf8Len payload) n header maxBytes :: chunkCalls revision chunks ∧
      0 < Text.utf8Len payload ∧ Text.utf8Len payload ≤ maxBytes ∧ sane header = true ∧ n ≠ 0 ∧
      UInt32.ofNat chunks.length = n ∧ chunks.flatten = payload := by
  cases h with
  | idle =>
    rw [feedEnd_default] at hready
    cases hready
  | opened hcalls hpos hmax hn hsane hroom =>
    rw [feedEnd_opened hn] at hready
    split_ifs at hready with hend
    obtain ⟨rfl, hlast, rfl⟩ := hend
    obtain ⟨rfl, rfl⟩ := Feed.ready.inj hready
    exact ⟨_, _, _, _, hcalls, hpos, hmax, hsane, hn, hlast, rfl⟩

/-- A paste handed out is one exact transfer, if its chunk numbers did not wrap. -/
theorem transferred_iff (h : Holds sane calls a)
    (hready : (a.feedEnd revision).2 = .ready payload header) :
    Transferred sane calls revision payload header ↔ chunksSinceStart calls < 2 ^ 32 := by
  constructor
  · rintro ⟨earlier, n, maxBytes, chunks, rfl, -, -, -, -, hlen, -⟩
    rw [chunksSinceStart_chunkCalls, hlen]
    exact n.toNat_lt
  · intro hfew
    obtain ⟨earlier, n, maxBytes, chunks, rfl, hpos, hmax, hsane, hn, hlast, hflat⟩ :=
      h.feedEnd_ready hready
    rw [chunksSinceStart_chunkCalls] at hfew
    have hlen : n.toNat = chunks.length := by
      rw [← hlast, UInt32.toNat_ofNat']
      exact Nat.mod_eq_of_lt hfew
    refine ⟨earlier, n, maxBytes, chunks, rfl, hpos, hmax, hsane, ?_, hlen.symm, hflat⟩
    rw [Nat.pos_iff_ne_zero]
    intro hzero
    exact hn (UInt32.toNat_inj.mp hzero)

/-! ### A whole transfer -/

/-- The chunks that fit are put up one after the other. -/
lemma feed_chunkCalls (hn : n ≠ 0) (hroom : Text.utf8Len chunks.flatten ≤ totalBytes) :
    Trace.final (Assembly.feed sane) (opened revision totalBytes n header [])
        (chunkCalls revision chunks) = opened revision totalBytes n header chunks ∧
      Trace.outputs (Assembly.feed sane) (opened revision totalBytes n header [])
        (chunkCalls revision chunks) = List.replicate chunks.length .pending := by
  induction chunks using List.reverseRecOn with
  | nil => exact ⟨rfl, rfl⟩
  | append_singleton chunks data ih =>
    have hroom' : Text.utf8Len chunks.flatten ≤ totalBytes := by
      rw [List.flatten_append, Text.utf8Len_append] at hroom
      omega
    obtain ⟨hfinal, houtputs⟩ := ih hroom'
    have hfeed : (opened revision totalBytes n header chunks).feed sane
        (.chunk revision (UInt32.ofNat chunks.length) data) =
        (opened revision totalBytes n header (chunks ++ [data]), .pending) :=
      feedChunk_opened hn hroom
    rw [chunkCalls_snoc, Trace.final_snoc, Trace.outputs_snoc, hfinal, houtputs, hfeed]
    refine ⟨rfl, ?_⟩
    rw [List.length_append, List.length_singleton, List.replicate_succ']

/-- What the sender sends arrives, unless the count in the header wraps to zero. -/
theorem sentCalls_arrive (a : Assembly δ) (revision : ℕ) (hflat : chunks.flatten = payload)
    (hpos : 0 < Text.utf8Len payload) (hmax : Text.utf8Len payload ≤ maxBytes)
    (hsane : sane header = true) :
    Trace.outputs (Assembly.feed sane) a (sentCalls revision payload header maxBytes chunks) =
        arrival payload header chunks ↔ ¬2 ^ 32 ∣ chunks.length := by
  have hzero : UInt32.ofNat chunks.length = 0 ↔ 2 ^ 32 ∣ chunks.length := by
    rw [← UInt32.toNat_inj, UInt32.toNat_ofNat', Nat.dvd_iff_mod_eq_zero]
    rfl
  rw [← hzero]
  by_cases hn : UInt32.ofNat chunks.length = 0
  · refine iff_of_false ?_ (not_not.mpr hn)
    intro h
    have hfirst := (List.cons.inj h).1
    rw [Assembly.feed, feedStart, if_pos (Or.inr (Or.inr (Or.inl hn)))] at hfirst
    cases hfirst
  · refine iff_of_true ?_ hn
    have hroom : Text.utf8Len chunks.flatten ≤ Text.utf8Len payload := by rw [hflat]
    obtain ⟨hfinal, houtputs⟩ :
      _ ∧ Trace.outputs (Assembly.feed sane) (opened revision (Text.utf8Len payload)
        (UInt32.ofNat chunks.length) header []) (chunkCalls revision chunks) = _ :=
      feed_chunkCalls hn hroom
    have hstart : a.feed sane (.start revision (Text.utf8Len payload)
        (UInt32.ofNat chunks.length) header maxBytes) =
        (opened revision (Text.utf8Len payload) (UInt32.ofNat chunks.length) header [],
          .pending) := feedStart_opens hpos hmax hn hsane
    have hend : ((opened revision (Text.utf8Len payload) (UInt32.ofNat chunks.length) header
        chunks).feed sane (.finish revision)).2 = .ready payload header := by
      rw [Assembly.feed, feedEnd_opened hn, if_pos ⟨rfl, rfl, by rw [hflat]⟩, hflat]
    rw [sentCalls, Trace.outputs, hstart, Trace.outputs_snoc, hfinal, houtputs, hend, arrival,
      List.replicate_succ, List.cons_append]

end Assembly

/-! ### Texts and images -/

/-- The text splits at its characters' boundaries. -/
lemma splitClipboardChunks_spec (text : List Char) :
    ∃ chunks, splitClipboardChunks text = some chunks ∧ chunks.flatten = text := by
  rw [splitClipboardChunks]
  split_ifs with hsmall
  · exact ⟨[text], rfl, List.flatten_singleton⟩
  · obtain ⟨chunks, hchunks, hflat, -⟩ :=
      Text.exists_textSlices (by decide : 4 ≤ clipboardChunkBytes) text
    exact ⟨chunks, hchunks, hflat⟩

/-- Base64 is ASCII, so any split point is safe. -/
lemma splitBase64Chunks_spec {encoded : List Char} (hascii : ∀ c ∈ encoded, c.toNat < 0x80) :
    ∃ chunks, splitBase64Chunks encoded = some chunks ∧ chunks.flatten = encoded := by
  rw [splitBase64Chunks]
  split_ifs with hsmall
  · exact ⟨[encoded], rfl, List.flatten_singleton⟩
  · obtain ⟨chunks, hchunks, hflat, -⟩ :=
      Text.exists_byteSlices (by decide : 0 < clipboardChunkBytes) hascii
    exact ⟨chunks, hchunks, hflat⟩

/-- **A chunked paste is exact as far as 32 bits count its chunks**. What the sender makes of a
text or an image arrives from any state exactly if the number of chunks in the header is not
zero modulo `2 ^ 32`; whatever calls are made, a paste handed out is one whole transfer exactly
if fewer than `2 ^ 32` chunks came since its start; and the buffer stays within the cap. -/
theorem clipboardTransfer_exact_iff (revision maxBytes : ℕ) :
    (∀ (a : ClipboardAssembly) (text : List Char),
      clipboardChunkBytes < Text.utf8Len text → Text.utf8Len text ≤ maxBytes →
      ∃ chunks, splitClipboardChunks text = some chunks ∧
        (Trace.outputs ClipboardAssembly.feed a (sentCalls revision text () maxBytes chunks) =
          arrival text () chunks ↔ ¬2 ^ 32 ∣ chunks.length)) ∧
    (∀ (a : ImageAssembly) (encoded : List Char) (size : ImageSize),
      clipboardChunkBytes < Text.utf8Len encoded → Text.utf8Len encoded ≤ maxBytes →
      (∀ c ∈ encoded, c.toNat < 0x80) → size.sane = true →
      ∃ chunks, splitBase64Chunks encoded = some chunks ∧
        (Trace.outputs ImageAssembly.feed a (sentCalls revision encoded size maxBytes chunks) =
          arrival encoded size chunks ↔ ¬2 ^ 32 ∣ chunks.length)) ∧
    (∀ (calls : List (AssemblyCall Unit)) (text : List Char),
      ((Trace.final ClipboardAssembly.feed .default calls).feedEnd revision).2 = .ready text () →
      (Transferred (fun _ => true) calls revision text () ↔ chunksSinceStart calls < 2 ^ 32)) ∧
    (∀ (calls : List (AssemblyCall ImageSize)) (encoded : List Char) (size : ImageSize),
      ((Trace.final ImageAssembly.feed .default calls).feedEnd revision).2 =
        .ready encoded size →
      (Transferred ImageSize.sane calls revision encoded size ↔
        chunksSinceStart calls < 2 ^ 32)) ∧
    (∀ calls, Text.utf8Len (Trace.final ClipboardAssembly.feed .default calls).buffer ≤
      lastMaxBytes calls) ∧
    (∀ calls, Text.utf8Len (Trace.final ImageAssembly.feed .default calls).buffer ≤
      lastMaxBytes calls) := by
  refine ⟨?_, ?_, ?_, ?_, ?_, ?_⟩
  · intro a text hlarge hmax
    obtain ⟨chunks, hchunks, hflat⟩ := splitClipboardChunks_spec text
    exact ⟨chunks, hchunks,
      a.sentCalls_arrive revision hflat (Nat.zero_lt_of_lt hlarge) hmax rfl⟩
  · intro a encoded size hlarge hmax hascii hsane
    obtain ⟨chunks, hchunks, hflat⟩ := splitBase64Chunks_spec hascii
    exact ⟨chunks, hchunks,
      a.sentCalls_arrive revision hflat (Nat.zero_lt_of_lt hlarge) hmax hsane⟩
  · intro calls text hready
    exact Assembly.transferred_iff (Assembly.holds_final _ calls) hready
  · intro calls encoded size hready
    exact Assembly.transferred_iff (Assembly.holds_final _ calls) hready
  · intro calls
    exact (Assembly.holds_final _ calls).buffer_le
  · intro calls
    exact (Assembly.holds_final _ calls).buffer_le

/-! ### Chunk numbers that wrap -/

/-- One chunk is announced; the empty ones before it are not seen in the numbers. -/
def wrappedCalls (empties : ℕ) : List (AssemblyCall Unit) :=
  .start 7 5 1 () 5 :: chunkCalls 7 (List.replicate empties [] ++ ["hello".toList])

lemma feedEnd_wrappedCalls {empties : ℕ} (hwrap : UInt32.ofNat (empties + 1) = 1) :
    ((Trace.final ClipboardAssembly.feed .default (wrappedCalls empties)).feedEnd 7).2 =
      .ready "hello".toList () := by
  have hflat : (List.replicate empties [] ++ ["hello".toList]).flatten = "hello".toList := by
    rw [List.flatten_append, List.flatten_replicate_nil, List.nil_append, List.flatten_singleton]
  have hlen : Text.utf8Len "hello".toList = 5 := by decide
  have hfinal : Trace.final ClipboardAssembly.feed
      (Assembly.opened 7 5 1 () []) (chunkCalls 7 (List.replicate empties [] ++ ["hello".toList]))
      = Assembly.opened 7 5 1 () (List.replicate empties [] ++ ["hello".toList]) := by
    refine (Assembly.feed_chunkCalls (by decide) ?_).1
    rw [hflat, hlen]
  have hstart : (ClipboardAssembly.feed .default (.start 7 5 1 () 5)).1 =
      Assembly.opened 7 5 1 () [] := by
    rfl
  rw [wrappedCalls, Trace.final_cons, hstart, hfinal, Assembly.feedEnd_opened (by decide), if_pos]
  · rw [hflat]
  · refine ⟨rfl, ?_, by rw [hflat, hlen]⟩
    rw [List.length_append, List.length_replicate, List.length_singleton, hwrap]

/-- A paste is handed out after `2 ^ 32 + 1` chunks where one was announced. -/
theorem wrapped_chunks_ready :
    ((Trace.final ClipboardAssembly.feed .default (wrappedCalls (2 ^ 32))).feedEnd 7).2 =
        .ready "hello".toList () ∧
      ¬Transferred (fun _ => true) (wrappedCalls (2 ^ 32)) 7 "hello".toList () := by
  obtain ⟨empties, hempties⟩ : ∃ empties, empties = 2 ^ 32 := ⟨_, rfl⟩
  rw [← hempties]
  refine ⟨feedEnd_wrappedCalls (by rw [hempties]; rfl), ?_⟩
  rintro ⟨earlier, n, maxBytes, chunks, hcalls, -, -, -, -, hlen, -⟩
  have hcount : chunksSinceStart (wrappedCalls empties) = empties + 1 := by
    refine (chunksSinceStart_chunkCalls [] 7 5 1 () 5 _).trans ?_
    rw [List.length_append, List.length_replicate, List.length_singleton]
  have hn := n.toNat_lt
  rw [hcalls, chunksSinceStart_chunkCalls, hlen] at hcount
  omega

end TheKvm
