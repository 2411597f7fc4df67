import Mathlib.Data.List.AList
import TheKvm.Lib.Bytes
import TheKvm.Lib.Gather
import TheKvm.Lib.Trace

/-!
Reliable messages over datagrams: cut into fragments and put together again.

A slot is open for each message some of whose fragments have arrived, and closed when the
last one has. What a slot holds is always a set of the fragments of its one message.
-/

namespace TheKvm

def reliableFragmentBytes : ℕ := 896

def maxReliableMessage : ℕ := 64 * 1024

def maxFragments : ℕ := 128

/-- A fragment body: the message, which fragment, of how many, and its bytes. -/
def fragmentBody (msgId : UInt64) (index count : ℕ) (chunk : List UInt8) : List UInt8 :=
  Bytes.toBe 8 msgId.toNat ++ Bytes.toBe 2 index ++ Bytes.toBe 2 count ++ chunk

/-- Split a reliable payload into fragments that fit a datagram. -/
def splitReliable (msgId : UInt64) (payload : List UInt8) : Except String (List (List UInt8)) :=
  if payload = [] ∨ maxReliableMessage < payload.length then
    .error "reliable payload size out of range"
  else
    let count := (payload.length + reliableFragmentBytes - 1) / reliableFragmentBytes
    if maxFragments < count then .error "reliable payload needs too many fragments"
    else
      .ok ((Gather.chunks reliableFragmentBytes payload).mapIdx fun index chunk =>
        fragmentBody msgId index count chunk)

/-- The fragments of one message on their way together. -/
structure Reassembly where
  total : ℕ
  chunks : List (Option (List UInt8))
  received : ℕ
  length_chunks : chunks.length = total
  received_eq : received = chunks.countP Option.isSome

namespace Reassembly

def new (count : ℕ) : Reassembly where
  total := count
  chunks := List.replicate count none
  received := 0
  length_chunks := List.length_replicate
  received_eq := by simp [List.countP_replicate]

/-- A fragment fills its slot, unless one did before. -/
def store (entry : Reassembly) (index : ℕ) (data : List UInt8) : Reassembly :=
  if h : entry.chunks[index]? = some none then
    { entry with
      chunks := entry.chunks.set index (some data)
      received := entry.received + 1
      length_chunks := by rw [List.length_set, entry.length_chunks]
      received_eq := by
        obtain ⟨hi, hnone⟩ := List.getElem?_eq_some_iff.mp h
        rw [List.countP_set hi, hnone, entry.received_eq]
        rfl }
  else entry

/-- The chunks in a row. -/
def concat : List (Option (List UInt8)) → Except String (List UInt8)
  | [] => .ok []
  | none :: _ => .error "missing fragment"
  | some chunk :: rest => (concat rest).map (chunk ++ ·)

end Reassembly

/-- The open assemblies of one sender. -/
structure ReliableReassembler where
  pending : AList fun _ : UInt64 => Reassembly

namespace ReliableReassembler

/-- `ReliableReassembler::default`. -/
def default : ReliableReassembler := ⟨∅⟩

/-- A message whose last fragment has arrived. -/
def assemble (entry : Reassembly) : Except String (Option (List UInt8)) :=
  match Reassembly.concat entry.chunks with
  | .error message => .error message
  | .ok out =>
    if maxReliableMessage < out.length then .error "reassembled message too large"
    else .ok (some out)

/-- Put a fragment to the assembly of its message. -/
def accept (r : ReliableReassembler) (msgId : UInt64) (index count : ℕ) (data : List UInt8) :
    ReliableReassembler × Except String (Option (List UInt8)) :=
  if 16 ≤ r.pending.keys.length ∧ msgId ∉ r.pending then
    (r, .error "too many concurrent assemblies")
  else
    let entry := (r.pending.lookup msgId).getD (.new count)
    if entry.total ≠ count then
      (⟨r.pending.insert msgId entry⟩, .error "fragment count mismatch")
    else
      let entry := entry.store index data
      if entry.received = entry.total then (⟨r.pending.erase msgId⟩, assemble entry)
      else (⟨r.pending.insert msgId entry⟩, .ok none)

/-- Feed one fragment body; the message comes back when its last fragment arrives. -/
def feed (r : ReliableReassembler) (body : List UInt8) :
    ReliableReassembler × Except String (Option (List UInt8)) :=
  if body.length < 12 then (r, .error "fragment too short")
  else
    let msgId := UInt64.ofNat (Bytes.ofBe (body.take 8))
    let index := Bytes.ofBe ((body.drop 8).take 2)
    let count := Bytes.ofBe ((body.drop 10).take 2)
    if count = 0 ∨ maxFragments < count ∨ count ≤ index then (r, .error "bad fragment header")
    else
      let data := body.drop 12
      if reliableFragmentBytes < data.length then (r, .error "fragment too large")
      else r.accept msgId index count data

end ReliableReassembler

/-! ### Headers -/

/-- The chunks of a payload. -/
def parts (bytes : List UInt8) : List (List UInt8) := Gather.chunks reliableFragmentBytes bytes

lemma flatten_parts (bytes : List UInt8) : (parts bytes).flatten = bytes :=
  Gather.flatten_chunks (by decide) bytes

/-- What splits is not empty and within the limit, and makes at most 74 fragments. -/
lemma splitReliable_ok {msgId : UInt64} {bytes : List UInt8} {bodies : List (List UInt8)} :
    splitReliable msgId bytes = .ok bodies ↔
      bytes ≠ [] ∧ bytes.length ≤ maxReliableMessage ∧
        bodies = (parts bytes).mapIdx fun index chunk =>
          fragmentBody msgId index (parts bytes).length chunk := by
  unfold splitReliable
  by_cases hsize : bytes = [] ∨ maxReliableMessage < bytes.length
  · rw [if_pos hsize]
    refine iff_of_false nofun ?_
    rintro ⟨hne, hle, -⟩
    rcases hsize with hnil | hgt
    · exact hne hnil
    · omega
  · rw [not_or, not_lt] at hsize
    have hcount : (bytes.length + reliableFragmentBytes - 1) / reliableFragmentBytes ≤
        maxFragments := by
      simp only [maxReliableMessage, reliableFragmentBytes, maxFragments] at *
      omega
    rw [if_neg (by rw [not_or, not_lt]; exact hsize)]
    simp only [if_neg (not_lt.mpr hcount), parts, Gather.length_chunks, Except.ok.injEq]
    exact ⟨fun h => ⟨hsize.1, hsize.2, h.symm⟩, fun h => h.2.2.symm⟩

lemma length_parts {bytes : List UInt8} (hne : bytes ≠ [])
    (hle : bytes.length ≤ maxReliableMessage) :
    0 < (parts bytes).length ∧ (parts bytes).length ≤ maxFragments := by
  have hpos := List.length_pos_of_ne_nil hne
  rw [parts, Gather.length_chunks]
  simp only [maxReliableMessage, reliableFragmentBytes, maxFragments] at *
  omega

/-- A fragment's header is read back. -/
lemma feed_fragmentBody (r : ReliableReassembler) (msgId : UInt64) {index count : ℕ}
    {chunk : List UInt8} (hindex : index < count) (hcount : count ≤ maxFragments)
    (hchunk : chunk.length ≤ reliableFragmentBytes) :
    r.feed (fragmentBody msgId index count chunk) = r.accept msgId index count chunk := by
  have hmax : maxFragments = 128 := rfl
  have hid : UInt64.ofNat (Bytes.ofBe (Bytes.toBe 8 msgId.toNat)) = msgId := by
    rw [Bytes.ofBe_toBe (lt_of_lt_of_le msgId.toNat_lt (by decide)), UInt64.ofNat_toNat]
  have hi : Bytes.ofBe (Bytes.toBe 2 index) = index := Bytes.ofBe_toBe (by omega)
  have hc : Bytes.ofBe (Bytes.toBe 2 count) = count := Bytes.ofBe_toBe (by omega)
  have hlength : (fragmentBody msgId index count chunk).length = 12 + chunk.length := by
    simp [fragmentBody]
    omega
  have htake : (fragmentBody msgId index count chunk).take 8 = Bytes.toBe 8 msgId.toNat := by
    rw [fragmentBody, List.append_assoc, List.append_assoc,
      List.take_left' (Bytes.length_toBe _ _)]
  have hdrop : (fragmentBody msgId index count chunk).drop 8 =
      Bytes.toBe 2 index ++ (Bytes.toBe 2 count ++ chunk) := by
    rw [fragmentBody, List.append_assoc, List.append_assoc,
      List.drop_left' (Bytes.length_toBe _ _)]
  have hdrop' : (fragmentBody msgId index count chunk).drop 10 = Bytes.toBe 2 count ++ chunk := by
    rw [show 10 = 8 + 2 from rfl, ← List.drop_drop, hdrop, List.drop_left' (Bytes.length_toBe _ _)]
  have hdrop'' : (fragmentBody msgId index count chunk).drop 12 = chunk := by
    rw [show 12 = 10 + 2 from rfl, ← List.drop_drop, hdrop',
      List.drop_left' (Bytes.length_toBe _ _)]
  unfold ReliableReassembler.feed
  rw [if_neg (by omega)]
  simp only [htake, hdrop, hdrop', hdrop'', List.take_left' (Bytes.length_toBe _ _), hid, hi, hc]
  rw [if_neg (by omega), if_neg (by omega)]

/-! ### Fragments of a set of messages -/

/-- Messages by their number, each one that can be split. -/
structure Messages where
  payload : UInt64 → Option (List UInt8)
  splits : ∀ {msgId bytes}, payload msgId = some bytes →
    ∃ bodies, splitReliable msgId bytes = .ok bodies

namespace Messages

variable {M : Messages} {msgId : UInt64} {bytes : List UInt8}

/-- The body is a fragment of the message of that number. -/
def Fragment (M : Messages) (msgId : UInt64) (body : List UInt8) : Prop :=
  ∃ bytes bodies, M.payload msgId = some bytes ∧ splitReliable msgId bytes = .ok bodies ∧
    body ∈ bodies

lemma ne_nil (h : M.payload msgId = some bytes) : bytes ≠ [] := by
  obtain ⟨bodies, hsplit⟩ := M.splits h
  exact (splitReliable_ok.mp hsplit).1

lemma length_le (h : M.payload msgId = some bytes) : bytes.length ≤ maxReliableMessage := by
  obtain ⟨bodies, hsplit⟩ := M.splits h
  exact (splitReliable_ok.mp hsplit).2.1

/-- The fragments of a message are its chunks under their numbers. -/
lemma fragment_iff {body : List UInt8} (h : M.payload msgId = some bytes) :
    M.Fragment msgId body ↔ ∃ index chunk, (parts bytes)[index]? = some chunk ∧
      body = fragmentBody msgId index (parts bytes).length chunk := by
  constructor
  · rintro ⟨bytes', bodies, hpayload, hsplit, hbody⟩
    obtain rfl := Option.some.inj (h.symm.trans hpayload)
    obtain ⟨-, -, rfl⟩ := splitReliable_ok.mp hsplit
    obtain ⟨index, hindex⟩ := List.mem_iff_getElem?.mp hbody
    rw [List.getElem?_mapIdx] at hindex
    obtain ⟨chunk, hchunk, rfl⟩ := Option.map_eq_some_iff.mp hindex
    exact ⟨index, chunk, hchunk, rfl⟩
  · rintro ⟨index, chunk, hchunk, rfl⟩
    refine ⟨bytes, _, h, splitReliable_ok.mpr ⟨ne_nil h, length_le h, rfl⟩, ?_⟩
    apply List.mem_of_getElem? (i := index)
    rw [List.getElem?_mapIdx, hchunk]
    rfl

/-- One message alone. -/
def single (msgId : UInt64) (bytes : List UInt8)
    (h : ∃ bodies, splitReliable msgId bytes = .ok bodies) : Messages where
  payload id := if id = msgId then some bytes else none
  splits {id b} hb := by
    split_ifs at hb with hid
    obtain rfl := Option.some.inj hb
    rwa [hid]

lemma single_fragment {id : UInt64} {fragment body : List UInt8}
    (h : splitReliable msgId bytes = .ok [fragment]) :
    (single msgId bytes ⟨_, h⟩).Fragment id body ↔ id = msgId ∧ body = fragment := by
  constructor
  · rintro ⟨b, bodies, hb, hsplit, hbody⟩
    simp only [single] at hb
    split_ifs at hb with hid
    subst hid
    obtain rfl := Option.some.inj hb
    obtain rfl := Except.ok.inj (h.symm.trans hsplit)
    exact ⟨rfl, List.mem_singleton.mp hbody⟩
  · rintro ⟨rfl, rfl⟩
    exact ⟨bytes, _, if_pos rfl, h, List.mem_singleton.mpr rfl⟩

end Messages

/-! ### What an assembly holds -/

/-- The entry holds the fragments `s` of a payload. -/
def Reassembly.Has (entry : Reassembly) (bytes : List UInt8) (s : Finset ℕ) : Prop :=
  entry.total = (parts bytes).length ∧ entry.chunks = Gather.select (parts bytes) s

namespace Reassembly

variable {entry : Reassembly} {bytes : List UInt8} {s : Finset ℕ} {index : ℕ}

lemma new_has (bytes : List UInt8) : (new (parts bytes).length).Has bytes ∅ :=
  ⟨rfl, Gather.select_empty.symm⟩

lemma store_has {chunk : List UInt8} (h : entry.Has bytes s)
    (hchunk : (parts bytes)[index]? = some chunk) :
    (entry.store index chunk).Has bytes (insert index s) := by
  obtain ⟨htotal, hchunks⟩ := h
  unfold store
  split_ifs with hslot
  · refine ⟨htotal, ?_⟩
    show entry.chunks.set index (some chunk) = _
    rw [hchunks, Gather.set_select hchunk]
  · rw [hchunks, Gather.getElem?_select, hchunk, Option.map_some, Option.some.injEq] at hslot
    have hmem : index ∈ s := by
      by_contra hmem
      exact hslot (if_neg hmem)
    rw [Finset.insert_eq_of_mem hmem]
    exact ⟨htotal, hchunks⟩

lemma received_eq_total (h : entry.Has bytes s) :
    entry.received = entry.total ↔ Finset.range (parts bytes).length ⊆ s := by
  rw [entry.received_eq, ← entry.length_chunks, List.countP_eq_length, h.2, Gather.all_select]

lemma concat_map_some (chunks : List (List UInt8)) :
    concat (chunks.map some) = .ok chunks.flatten := by
  induction chunks with
  | nil => rfl
  | cons chunk chunks ih =>
    rw [List.map_cons, concat, ih]
    rfl

/-- An assembly that has every fragment of a message is the message. -/
lemma assemble_has (h : entry.Has bytes s) (hfull : Finset.range (parts bytes).length ⊆ s)
    (hle : bytes.length ≤ maxReliableMessage) :
    ReliableReassembler.assemble entry = .ok (some bytes) := by
  rw [ReliableReassembler.assemble, h.2, Gather.select_full hfull, concat_map_some, flatten_parts]
  exact if_neg (by omega)

end Reassembly

/-! ### What the reassembler holds -/

namespace ReliableReassembler

/-- The assembly of each message holds `got` of its fragments, and there is one where that is
not nothing. -/
structure Shows (M : Messages) (r : ReliableReassembler) (got : UInt64 → Finset ℕ) : Prop where
  mem : ∀ msgId, msgId ∈ r.pending ↔ got msgId ≠ ∅
  has : ∀ {msgId entry}, r.pending.lookup msgId = some entry →
    ∃ bytes, M.payload msgId = some bytes ∧ entry.Has bytes (got msgId)

variable {M : Messages} {r : ReliableReassembler} {got : UInt64 → Finset ℕ} {msgId : UInt64}
  {bytes chunk : List UInt8} {index : ℕ}

lemma default_shows (M : Messages) : Shows M default fun _ => ∅ where
  mem msgId := by simp [default]
  has h := by simp [default] at h

/-- The assembly a fragment is put to. -/
lemma Shows.entry (h : Shows M r got) (hm : M.payload msgId = some bytes) :
    ((r.pending.lookup msgId).getD (.new (parts bytes).length)).Has bytes (got msgId) := by
  rcases hlookup : r.pending.lookup msgId with _ | entry
  · have hnone : got msgId = ∅ := by
      by_contra hgot
      exact AList.lookup_eq_none.mp hlookup ((h.mem msgId).mpr hgot)
    rw [hnone]
    exact Reassembly.new_has bytes
  · obtain ⟨bytes', hm', hhas⟩ := h.has hlookup
    obtain rfl := Option.some.inj (hm.symm.trans hm')
    exact hhas

/-- A slot that is written. -/
lemma Shows.insert (h : Shows M r got) (hm : M.payload msgId = some bytes) {entry : Reassembly}
    {s : Finset ℕ} (hs : s ≠ ∅) (hentry : entry.Has bytes s) :
    Shows M ⟨r.pending.insert msgId entry⟩ (Function.update got msgId s) where
  mem id := by
    rw [AList.mem_insert]
    by_cases hid : id = msgId
    · subst hid
      simpa using hs
    · rw [Function.update_of_ne hid, ← h.mem id]
      exact ⟨fun hor => hor.resolve_left hid, Or.inr⟩
  has {id e} he := by
    by_cases hid : id = msgId
    · subst hid
      rw [AList.lookup_insert] at he
      obtain rfl := Option.some.inj he
      rw [Function.update_self]
      exact ⟨bytes, hm, hentry⟩
    · rw [AList.lookup_insert_ne hid] at he
      rw [Function.update_of_ne hid]
      exact h.has he

/-- A slot that is closed. -/
lemma Shows.erase (h : Shows M r got) (msgId : UInt64) :
    Shows M ⟨r.pending.erase msgId⟩ (Function.update got msgId ∅) where
  mem id := by
    rw [AList.mem_erase]
    by_cases hid : id = msgId
    · subst hid
      simp
    · rw [Function.update_of_ne hid, ← h.mem id]
      exact ⟨And.right, fun hmem => ⟨hid, hmem⟩⟩
  has {id e} he := by
    by_cases hid : id = msgId
    · subst hid
      rw [AList.lookup_erase] at he
      cases he
    · rw [AList.lookup_erase_ne hid] at he
      rw [Function.update_of_ne hid]
      exact h.has he

/-- No slot is free for a further message. -/
def Full (r : ReliableReassembler) : Prop := 16 ≤ r.pending.keys.length

lemma feed_eq_accept (hm : M.payload msgId = some bytes)
    (hchunk : (parts bytes)[index]? = some chunk) :
    r.feed (fragmentBody msgId index (parts bytes).length chunk) =
      r.accept msgId index (parts bytes).length chunk :=
  feed_fragmentBody r msgId (List.getElem?_eq_some_iff.mp hchunk).1
    (length_parts (Messages.ne_nil hm) (Messages.length_le hm)).2
    (Gather.length_le_of_mem_chunks (List.mem_of_getElem? hchunk))

/-- A fragment of a new message finds no slot. -/
lemma feed_blocked (h : Shows M r got) (hm : M.payload msgId = some bytes)
    (hchunk : (parts bytes)[index]? = some chunk) (hfull : r.Full) (hnew : got msgId = ∅) :
    r.feed (fragmentBody msgId index (parts bytes).length chunk) =
      (r, .error "too many concurrent assemblies") := by
  rw [feed_eq_accept hm hchunk, accept]
  exact if_pos ⟨hfull, fun hmem => (h.mem msgId).mp hmem hnew⟩

/-- The last fragment of a message closes its slot and gives the message. -/
lemma feed_completes (h : Shows M r got) (hm : M.payload msgId = some bytes)
    (hchunk : (parts bytes)[index]? = some chunk) (hroom : ¬(r.Full ∧ got msgId = ∅))
    (hall : Finset.range (parts bytes).length ⊆ insert index (got msgId)) :
    ∃ r', r.feed (fragmentBody msgId index (parts bytes).length chunk) = (r', .ok (some bytes)) ∧
      Shows M r' (Function.update got msgId ∅) := by
  have hentry := h.entry hm
  have hstored := Reassembly.store_has hentry hchunk
  refine ⟨⟨r.pending.erase msgId⟩, ?_, h.erase msgId⟩
  rw [feed_eq_accept hm hchunk, accept, if_neg]
  · simp only [ne_eq, hentry.1, not_true_eq_false, if_false]
    rw [if_pos ((Reassembly.received_eq_total hstored).mpr hall),
      Reassembly.assemble_has hstored hall (Messages.length_le hm)]
  · rintro ⟨hfull, hmem⟩
    refine hroom ⟨hfull, ?_⟩
    by_contra hgot
    exact hmem ((h.mem msgId).mpr hgot)

/-- Any other fragment is kept. -/
lemma feed_pends (h : Shows M r got) (hm : M.payload msgId = some bytes)
    (hchunk : (parts bytes)[index]? = some chunk) (hroom : ¬(r.Full ∧ got msgId = ∅))
    (hopen : ¬Finset.range (parts bytes).length ⊆ insert index (got msgId)) :
    ∃ r', r.feed (fragmentBody msgId index (parts bytes).length chunk) = (r', .ok none) ∧
      Shows M r' (Function.update got msgId (insert index (got msgId))) := by
  have hentry := h.entry hm
  have hstored := Reassembly.store_has hentry hchunk
  refine ⟨_, ?_, h.insert hm (Finset.insert_ne_empty _ _) hstored⟩
  rw [feed_eq_accept hm hchunk, accept, if_neg]
  · simp only [ne_eq, hentry.1, not_true_eq_false, if_false]
    rw [if_neg fun heq => hopen ((Reassembly.received_eq_total hstored).mp heq)]
  · rintro ⟨hfull, hmem⟩
    refine hroom ⟨hfull, ?_⟩
    by_contra hgot
    exact hmem ((h.mem msgId).mpr hgot)

/-! ### Soundness -/

/-- Whatever arrives, the slots hold fragments of their messages, and what a fragment gives
is its message or nothing. -/
lemma feed_sound_step (h : Shows M r got) {body : List UInt8} (hbody : M.Fragment msgId body) :
    (∃ got', Shows M (r.feed body).1 got') ∧
      ∀ out, (r.feed body).2 = .ok (some out) → M.payload msgId = some out := by
  obtain ⟨bytes, -, hm, -, -⟩ := id hbody
  obtain ⟨index, chunk, hchunk, rfl⟩ := (Messages.fragment_iff hm).mp hbody
  by_cases hroom : r.Full ∧ got msgId = ∅
  · rw [feed_blocked h hm hchunk hroom.1 hroom.2]
    exact ⟨⟨got, h⟩, nofun⟩
  by_cases hall : Finset.range (parts bytes).length ⊆ insert index (got msgId)
  · obtain ⟨r', hfeed, hshows⟩ := feed_completes h hm hchunk hroom hall
    rw [hfeed]
    refine ⟨⟨_, hshows⟩, ?_⟩
    rintro out ⟨⟩
    exact hm
  · obtain ⟨r', hfeed, hshows⟩ := feed_pends h hm hchunk hroom hall
    rw [hfeed]
    exact ⟨⟨_, hshows⟩, nofun⟩

/-- Any run of fragments leaves slots that hold fragments of their messages. -/
lemma run_shows {bodies m : List (List UInt8)}
    (hbodies : ∀ body ∈ bodies, ∃ msgId, M.Fragment msgId body) (hpre : m <+: bodies) :
    ∃ got, Shows M (Trace.final feed default m) got := by
  refine Trace.invariant (I := fun _ r => ∃ got, Shows M r got)
    (P := fun _ body => ∃ msgId, M.Fragment msgId body) ⟨_, default_shows M⟩ ?_
    fun k body hk => hbodies body (Trace.mem_of_snoc (hk.trans hpre))
  rintro k body ⟨got, h⟩ ⟨msgId, hbody⟩
  exact (feed_sound_step h hbody).1

/-- **Sound reassembly.** From fragments of a set of messages, in whatever order, lost and
repeated, what a fragment gives is the payload that was split under its number. -/
theorem feed_sound (M : Messages) (bodies before : List (List UInt8)) {body out : List UInt8}
    (hbodies : ∀ body ∈ bodies, ∃ msgId, M.Fragment msgId body)
    (hpre : before ++ [body] <+: bodies) {msgId : UInt64}
    (hbody : M.Fragment msgId body)
    (hout : ((Trace.final feed default before).feed body).2 = .ok (some out)) :
    M.payload msgId = some out := by
  obtain ⟨got, hshows⟩ := run_shows hbodies (Trace.earlier hpre)
  exact (feed_sound_step hshows hbody).2 out hout

lemma short_splits : splitReliable 7 [1, 2] = .ok [fragmentBody 7 0 1 [1, 2]] := rfl

theorem feed_sound_short :
    (Messages.single 7 [1, 2] ⟨_, short_splits⟩).payload 7 = some [1, 2] :=
  feed_sound (.single 7 [1, 2] ⟨_, short_splits⟩) [fragmentBody 7 0 1 [1, 2]] []
    (fun _ hbody => ⟨7, (Messages.single_fragment short_splits).mpr
      ⟨rfl, List.mem_singleton.mp hbody⟩⟩)
    (List.prefix_refl _) ((Messages.single_fragment short_splits).mpr ⟨rfl, rfl⟩) rfl

end ReliableReassembler

end TheKvm
