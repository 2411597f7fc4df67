import TheKvm.Lib.Gather
import TheKvm.Lib.Trace
import TheKvm.Protocol.Control

/-!
Local copies the logged-in UI offers, chunk by chunk.

One slot holds the transfer that is under way. A chunk of any other generation takes the
slot, whether it is a newer copy or what is left of an older one.
-/

namespace TheKvm

structure LocalClipboardOffer where
  generation : ℕ
  kind : ClipboardKind
  payload : List Char
  width : ℕ
  height : ℕ
  deriving DecidableEq

/-- The request for one chunk of an offer. -/
structure OfferChunk where
  generation : ℕ
  kind : ClipboardKind
  totalChunks : ℕ
  index : ℕ
  data : List Char
  width : ℕ
  height : ℕ
  deriving DecidableEq

structure OfferAssembly where
  generation : ℕ
  kind : ClipboardKind
  totalChunks : ℕ
  chunks : List (Option (List Char))
  width : ℕ
  height : ℕ
  deriving DecidableEq

namespace OfferAssembly

/-- `OfferAssembly::default`. -/
def default : OfferAssembly := ⟨0, .text, 0, [], 0, 0⟩

/-- The header of a chunk, or its size, is refused. -/
def refusal (c : OfferChunk) : Option String :=
  if c.generation = 0 ∨ c.totalChunks = 0 ∨ 512 < c.totalChunks ∨ c.totalChunks ≤ c.index then
    some "clipboard offer is malformed"
  else if clipboardChunkBytes < Text.utf8Len c.data then
    some "clipboard offer chunk is too large"
  else none

/-- The transfer a chunk is put to: the one in the slot, or a new one in its place. -/
def claim (a : OfferAssembly) (c : OfferChunk) : OfferAssembly :=
  if a.generation ≠ c.generation ∨ a.totalChunks ≠ c.totalChunks then
    { generation := c.generation
      kind := c.kind
      totalChunks := c.totalChunks
      chunks := List.replicate c.totalChunks none
      width := c.width
      height := c.height }
  else a

/-- Push one chunk. A finished paste is handed out and the slot left empty. -/
def push (a : OfferAssembly) (c : OfferChunk) :
    OfferAssembly × Except String (Option LocalClipboardOffer) :=
  match refusal c with
  | some message => (a, .error message)
  | none =>
    let a := a.claim c
    if c.index < a.chunks.length then
      let chunks := a.chunks.set c.index (some c.data)
      if chunks.any Option.isNone then ({ a with chunks }, .ok none)
      else
        (default, .ok (some
          { generation := c.generation
            kind := a.kind
            payload := (chunks.map fun chunk => chunk.getD []).flatten
            width := a.width
            height := a.height }))
    else (a, .error "clipboard offer chunk does not match the transfer")

end OfferAssembly

/-- The slot, and the offer published last. -/
structure LocalOffers where
  assembly : OfferAssembly
  published : Option LocalClipboardOffer

namespace LocalOffers

def default : LocalOffers := ⟨.default, .none⟩

/-- Accept one chunk of an offered local copy; a finished one is published. -/
def submitLocalClipboardChunk (s : LocalOffers) (c : OfferChunk) :
    LocalOffers × ControlResponse :=
  match s.assembly.push c with
  | (assembly, .ok (some offer)) => (⟨assembly, some offer⟩, .applied false)
  | (assembly, .ok none) => (⟨assembly, s.published⟩, .applied false)
  | (assembly, .error message) => (⟨assembly, s.published⟩, .error message)

end LocalOffers

/-! ### Transfers -/

/-- The slices of one payload, as many and as large as an offer may have. -/
structure Transfer where
  kind : ClipboardKind
  width : ℕ
  height : ℕ
  slices : List (List Char)
  some_slice : 0 < slices.length
  few_slices : slices.length ≤ 512
  small_slices : ∀ slice ∈ slices, Text.utf8Len slice ≤ clipboardChunkBytes

namespace Transfer

/-- The copy a transfer is of. -/
def offer (t : Transfer) (generation : ℕ) : LocalClipboardOffer :=
  ⟨generation, t.kind, t.slices.flatten, t.width, t.height⟩

/-- The request for a slice. -/
def chunk (t : Transfer) (generation index : ℕ) (data : List Char) : OfferChunk :=
  ⟨generation, t.kind, t.slices.length, index, data, t.width, t.height⟩

/-- The slot while the slices `s` of a transfer have arrived. -/
def underWay (t : Transfer) (generation : ℕ) (s : Finset ℕ) : OfferAssembly :=
  ⟨generation, t.kind, t.slices.length, Gather.select t.slices s, t.width, t.height⟩

end Transfer

/-- The request carries a slice of its generation's transfer. -/
def OfferChunk.Carries (transfers : ℕ → Option Transfer) (c : OfferChunk) : Prop :=
  ∃ t data, transfers c.generation = some t ∧ 0 < c.generation ∧
    t.slices[c.index]? = some data ∧ c = t.chunk c.generation c.index data

/-- Nothing is under way, or some slices of a transfer have arrived and others not. -/
inductive OfferAssembly.Holds (transfers : ℕ → Option Transfer) : OfferAssembly → Prop
  | idle : Holds transfers default
  | underWay {t : Transfer} {generation : ℕ} {s : Finset ℕ} (ht : transfers generation = some t)
      (hgeneration : 0 < generation) (hopen : ¬Finset.range t.slices.length ⊆ s) :
      Holds transfers (t.underWay generation s)

/-- The chunk is the last one missing. -/
def OfferAssembly.Completes (a : OfferAssembly) (c : OfferChunk) : Prop :=
  ∀ i < c.totalChunks, i ≠ c.index →
    a.generation = c.generation ∧ ∃ data, a.chunks[i]? = some (some data)

/-! ### One chunk -/

namespace OfferAssembly

variable {transfers : ℕ → Option Transfer} {a : OfferAssembly} {t : Transfer}
  {generation index : ℕ} {data : List Char} {s : Finset ℕ}

lemma refusal_chunk (hgeneration : 0 < generation) (hdata : t.slices[index]? = some data) :
    refusal (t.chunk generation index data) = none := by
  have hindex := (List.getElem?_eq_some_iff.mp hdata).1
  have hfew := t.few_slices
  have hsmall := t.small_slices data (List.mem_of_getElem? hdata)
  rw [refusal, Transfer.chunk, if_neg (by simp only; omega), if_neg (by simp only; omega)]

lemma claim_underWay (t : Transfer) (generation index : ℕ) (data : List Char) (s : Finset ℕ) :
    (t.underWay generation s).claim (t.chunk generation index data) = t.underWay generation s := by
  simp [claim, Transfer.underWay, Transfer.chunk]

/-- A chunk of another generation takes the slot. -/
lemma claim_other (h : a.generation ≠ generation) :
    a.claim (t.chunk generation index data) = t.underWay generation ∅ := by
  have hne : a.generation ≠ (t.chunk generation index data).generation := h
  rw [claim, if_pos (Or.inl hne), Transfer.underWay, Gather.select_empty]
  rfl

/-- A chunk put to its transfer is stored, or completes it. -/
lemma push_of_claim (hgeneration : 0 < generation) (hdata : t.slices[index]? = some data)
    (hclaim : a.claim (t.chunk generation index data) = t.underWay generation s) :
    a.push (t.chunk generation index data) =
      if Finset.range t.slices.length ⊆ insert index s then
        (default, .ok (some (t.offer generation)))
      else (t.underWay generation (insert index s), .ok none) := by
  have hindex := (List.getElem?_eq_some_iff.mp hdata).1
  have hset : (Gather.select t.slices s).set index (some data) =
      Gather.select t.slices (insert index s) := Gather.set_select hdata
  have hany : (Gather.select t.slices (insert index s)).any Option.isNone = false ↔
      Finset.range t.slices.length ⊆ insert index s := by
    rw [← Gather.all_select, List.any_eq_false]
    simp [Option.isSome_iff_ne_none]
  unfold push
  rw [refusal_chunk hgeneration hdata]
  simp only [hclaim]
  simp only [Transfer.underWay, Transfer.chunk, Gather.length_select, hset]
  rw [if_pos hindex]
  split_ifs with hnone hall hall
  · rw [hany.mpr hall] at hnone
    cases hnone
  · rfl
  · simp [Gather.select_full hall, Transfer.offer, Function.comp_def]
  · exact absurd (hany.mp (Bool.not_eq_true _ ▸ hnone)) hall

/-- What a chunk finds of its own transfer. -/
lemma Holds.exists_claim (h : a.Holds transfers) (ht : transfers generation = some t)
    (hgeneration : 0 < generation) (index : ℕ) (data : List Char) :
    ∃ s, a.claim (t.chunk generation index data) = t.underWay generation s ∧
      (a.generation = generation → a = t.underWay generation s) ∧
      (a.generation ≠ generation → s = ∅) := by
  by_cases hsame : a.generation = generation
  · cases h with
    | idle =>
      have hzero : (0 : ℕ) = generation := hsame
      omega
    | @underWay t' generation' s ht' _ _ =>
      have hsame : generation' = generation := hsame
      subst hsame
      obtain rfl := Option.some.inj (ht.symm.trans ht')
      exact ⟨s, claim_underWay t generation' index data s, fun _ => rfl, fun h => absurd rfl h⟩
  · exact ⟨∅, claim_other hsame, fun h => absurd h hsame, fun _ => rfl⟩

/-- The slot after a chunk of a transfer. -/
lemma push_holds (h : a.Holds transfers) {c : OfferChunk} (hc : c.Carries transfers) :
    (a.push c).1.Holds transfers := by
  obtain ⟨t, data, ht, hgeneration, hdata, hc⟩ := hc
  obtain ⟨s, hclaim, -, -⟩ := h.exists_claim ht hgeneration c.index data
  have hpush := push_of_claim hgeneration hdata hclaim
  rw [← hc] at hpush
  rw [hpush]
  split_ifs with hall
  · exact .idle
  · exact .underWay ht hgeneration hall

/-- A refused chunk changes nothing. -/
lemma push_refused {c : OfferChunk} (h : refusal c ≠ none) :
    ∃ message, a.push c = (a, .error message) := by
  obtain ⟨message, hmessage⟩ := Option.ne_none_iff_exists'.mp h
  exact ⟨message, by rw [push, hmessage]⟩

/-- A chunk publishes exactly if it is the last one missing, and then its own copy. -/
lemma push_publishes_iff (h : a.Holds transfers) {c : OfferChunk}
    (ht : transfers c.generation = some t)
    (hc : c.Carries transfers) (o : LocalClipboardOffer) :
    (a.push c).2 = .ok (some o) ↔ a.Completes c ∧ o = t.offer c.generation := by
  obtain ⟨t', data, ht', hgeneration, hdata, hc⟩ := hc
  obtain rfl := Option.some.inj (ht.symm.trans ht')
  obtain ⟨s, hclaim, hsame, hother⟩ := h.exists_claim ht hgeneration c.index data
  have hcompletes : a.Completes c ↔ Finset.range t.slices.length ⊆ insert c.index s := by
    have htotal : c.totalChunks = t.slices.length := by rw [hc]; rfl
    rw [Completes, htotal]
    constructor
    · intro hall i hi
      have hi := Finset.mem_range.mp hi
      by_cases hne : i = c.index
      · exact hne ▸ Finset.mem_insert_self _ _
      · obtain ⟨hgen, d, hd⟩ := hall i hi hne
        rw [hsame hgen, Transfer.underWay, Gather.getElem?_select, List.getElem?_eq_getElem hi,
          Option.map_some, Option.some.injEq] at hd
        by_contra hmem
        rw [if_neg fun hs => hmem (Finset.mem_insert_of_mem hs)] at hd
        cases hd
    · intro hall i hi hne
      have hmem := (Finset.mem_insert.mp (hall (Finset.mem_range.mpr hi))).resolve_left hne
      have hgen : a.generation = c.generation := by
        by_contra hgen
        rw [hother hgen] at hmem
        exact Finset.notMem_empty i hmem
      refine ⟨hgen, t.slices[i], ?_⟩
      rw [hsame hgen, Transfer.underWay, Gather.getElem?_select, List.getElem?_eq_getElem hi,
        Option.map_some, if_pos hmem]
  have hpush := push_of_claim hgeneration hdata hclaim
  rw [← hc] at hpush
  rw [hcompletes, hpush]
  split_ifs with hall
  · simp only [Except.ok.injEq, Option.some.injEq, hall, true_and]
    exact eq_comm
  · simp [hall]

end OfferAssembly

/-! ### Runs of chunks -/

namespace LocalOffers

open OfferAssembly

/-- The daemon after the requests. -/
def after (calls : List OfferChunk) : LocalOffers :=
  Trace.final submitLocalClipboardChunk default calls

/-- The request that comes after `m` publishes the offer. -/
def Publishes (m : List OfferChunk) (c : OfferChunk) (o : LocalClipboardOffer) : Prop :=
  ((after m).assembly.push c).2 = .ok (some o)

/-- Every request is refused for its header or size, or carries a slice of the transfer of its
generation. -/
def Wellformed (transfers : ℕ → Option Transfer) (calls : List OfferChunk) : Prop :=
  ∀ c ∈ calls, refusal c ≠ none ∨ c.Carries transfers

/-- What the generations owe one another: an older chunk leaves a newer transfer as it is, a
published generation is not followed by an older one, and the newest is published once every
slice of it has been pushed. -/
structure RespectsGenerations (transfers : ℕ → Option Transfer) (calls : List OfferChunk) :
    Prop where
  keeps : ∀ m c, m ++ [c] <+: calls → refusal c = none →
    c.generation < (after m).assembly.generation →
      (after (m ++ [c])).assembly = (after m).assembly
  monotone : ∀ m c o last, m ++ [c] <+: calls → Publishes m c o →
    (after m).published = some last → last.generation ≤ o.generation
  complete : ∀ m generation t, m <+: calls → 0 < generation → transfers generation = some t →
    (∀ c ∈ m, refusal c = none → c.generation ≤ generation) →
      (∀ index data, t.slices[index]? = some data → t.chunk generation index data ∈ m) →
        ∃ k c o, k ++ [c] <+: m ∧ Publishes k c o ∧ o.generation = generation

/-- The chunk is of no older generation than the slot's, and does not complete one older than
the last published. -/
def Current (m : List OfferChunk) (c : OfferChunk) : Prop :=
  refusal c = none → (after m).assembly.generation ≤ c.generation ∧
    ((after m).assembly.Completes c →
      ∀ last, (after m).published = some last → last.generation ≤ c.generation)

variable {transfers : ℕ → Option Transfer} {calls m : List OfferChunk} {c : OfferChunk}
  {t : Transfer} {generation : ℕ}

lemma after_snoc_assembly (m : List OfferChunk) (c : OfferChunk) :
    (after (m ++ [c])).assembly = ((after m).assembly.push c).1 := by
  rw [after, Trace.final_snoc, submitLocalClipboardChunk, ← after]
  split <;> rename_i h <;> rw [h]

lemma Wellformed.of_prefix (h : Wellformed transfers calls) (hm : m <+: calls) :
    Wellformed transfers m := fun c hc => h c (hm.subset hc)

lemma Wellformed.carries (h : Wellformed transfers calls) (hm : m ++ [c] <+: calls)
    (hc : refusal c = none) : c.Carries transfers :=
  (h c (Trace.mem_of_snoc hm)).resolve_left (not_not.mpr hc)

lemma after_holds (h : Wellformed transfers m) : (after m).assembly.Holds transfers := by
  induction m using List.reverseRecOn with
  | nil => exact .idle
  | append_singleton m c ih =>
    have hm := ih (h.of_prefix (List.prefix_append _ _))
    rw [after_snoc_assembly]
    rcases h c (by simp) with hrefused | hcarries
    · obtain ⟨message, hpush⟩ := push_refused (a := (after m).assembly) hrefused
      rwa [hpush]
    · exact push_holds hm hcarries

/-- An older chunk that is not refused ends the newer transfer. -/
lemma le_of_keeps (hm : (after m).assembly.Holds transfers) (hc : c.Carries transfers)
    (hkeeps : c.generation < (after m).assembly.generation →
      (after (m ++ [c])).assembly = (after m).assembly) :
    (after m).assembly.generation ≤ c.generation := by
  by_contra hlt
  have hsame := hkeeps (not_le.mp hlt)
  obtain ⟨t, data, ht, hgeneration, hdata, hc⟩ := hc
  obtain ⟨s, hclaim, -, -⟩ := hm.exists_claim ht hgeneration c.index data
  have hpush := push_of_claim hgeneration hdata hclaim
  rw [← hc] at hpush
  rw [after_snoc_assembly, hpush] at hsame
  have hgen := congrArg OfferAssembly.generation hsame
  split_ifs at hgen
  · have : 0 = (after m).assembly.generation := hgen
    omega
  · have : c.generation = (after m).assembly.generation := hgen
    omega

/-- No slice of the transfer was pushed, or all that were are in the slot and others are not. -/
def Collects (t : Transfer) (generation : ℕ) (m : List OfferChunk) : Prop :=
  (∀ index data, t.slices[index]? = some data → t.chunk generation index data ∉ m) ∨
    ∃ s, (after m).assembly = t.underWay generation s ∧ ¬Finset.range t.slices.length ⊆ s ∧
      ∀ index data, t.slices[index]? = some data → t.chunk generation index data ∈ m → index ∈ s

/-- A refused chunk is none of the transfer's and leaves the slot. -/
lemma Collects.refused (h : Collects t generation m) (hgeneration : 0 < generation)
    (hrefused : refusal c ≠ none) : Collects t generation (m ++ [c]) := by
  have hmem (index : ℕ) (data : List Char) (hdata : t.slices[index]? = some data) :
      t.chunk generation index data ∈ m ++ [c] ↔ t.chunk generation index data ∈ m := by
    have hne : t.chunk generation index data ≠ c := by
      rintro rfl
      exact hrefused (refusal_chunk hgeneration hdata)
    simp [hne]
  obtain ⟨message, hpush⟩ := push_refused (a := (after m).assembly) hrefused
  rw [Collects, after_snoc_assembly, hpush]
  rcases h with hnone | ⟨s, hslot, hopen, hall⟩
  · refine Or.inl fun index data hdata hin => ?_
    exact hnone index data hdata ((hmem index data hdata).mp hin)
  · refine Or.inr ⟨s, hslot, hopen, fun index data hdata hin => ?_⟩
    exact hall index data hdata ((hmem index data hdata).mp hin)

/-- A current chunk of an older generation finds no slice of the newer. -/
lemma Collects.older (h : Collects t generation m) (hcurrent : Current m c)
    (hok : refusal c = none) (hlt : c.generation < generation) :
    Collects t generation (m ++ [c]) := by
  rcases h with hnone | ⟨s, hslot, -, -⟩
  · refine Or.inl fun index data hdata hin => ?_
    rcases List.mem_append.mp hin with hin | hin
    · exact hnone index data hdata hin
    · have hgen : generation = c.generation :=
        congrArg OfferChunk.generation (List.mem_singleton.mp hin)
      omega
  · have hle := (hcurrent hok).1
    rw [hslot] at hle
    have hle : generation ≤ c.generation := hle
    omega

/-- A slice of the transfer goes into the slot, or completes it. -/
lemma Collects.own (h : Collects t c.generation m) (hold : (after m).assembly.Holds transfers)
    (ht : transfers c.generation = some t) (hcarries : c.Carries transfers) :
    Publishes m c (t.offer c.generation) ∨ Collects t c.generation (m ++ [c]) := by
  obtain ⟨t', data, ht', hgeneration, hdata, hc⟩ := hcarries
  obtain rfl := Option.some.inj (ht.symm.trans ht')
  -- the slices pushed before are in the slot, if there are any
  obtain ⟨s, hclaim, hs⟩ : ∃ s, (after m).assembly.claim (t.chunk c.generation c.index data) =
        t.underWay c.generation s ∧
      ∀ index data, t.slices[index]? = some data → t.chunk c.generation index data ∈ m →
        index ∈ s := by
    rcases h with hnone | ⟨s, hslot, -, hall⟩
    · obtain ⟨s, hclaim, -, -⟩ := hold.exists_claim ht hgeneration c.index data
      exact ⟨s, hclaim, fun index data hdata hin => absurd hin (hnone index data hdata)⟩
    · exact ⟨s, by rw [hslot, claim_underWay], hall⟩
  have hpush := push_of_claim hgeneration hdata hclaim
  rw [← hc] at hpush
  by_cases hfull : Finset.range t.slices.length ⊆ insert c.index s
  · rw [if_pos hfull] at hpush
    exact Or.inl (by rw [Publishes, hpush])
  · rw [if_neg hfull] at hpush
    refine Or.inr (Or.inr ⟨insert c.index s, by rw [after_snoc_assembly, hpush], hfull, ?_⟩)
    intro index d hd hin
    rcases List.mem_append.mp hin with hin | hin
    · exact Finset.mem_insert_of_mem (hs index d hd hin)
    · have hindex : index = c.index := congrArg OfferChunk.index (List.mem_singleton.mp hin)
      exact hindex ▸ Finset.mem_insert_self _ _

/-- While every chunk is current, the newest generation is published, or its slices collect. -/
lemma newest_kept (hcalls : Wellformed transfers calls) (hcurrent : Trace.Each Current calls)
    (hm : m <+: calls) (hgeneration : 0 < generation) (ht : transfers generation = some t)
    (hnewest : ∀ c ∈ m, refusal c = none → c.generation ≤ generation) :
    (∃ k c o, k ++ [c] <+: m ∧ Publishes k c o ∧ o.generation = generation) ∨
      Collects t generation m := by
  induction m using List.reverseRecOn with
  | nil => exact Or.inr (Or.inl fun _ _ _ => List.not_mem_nil)
  | append_singleton m c ih =>
    have hbefore := Trace.earlier hm
    have ih := ih hbefore fun c hc => hnewest c (List.mem_append_left _ hc)
    rcases ih with ⟨k, c', o, hk, hpub⟩ | hcollects
    · exact Or.inl ⟨k, c', o, hk.trans (List.prefix_append _ _), hpub⟩
    by_cases hok : refusal c = none
    · have hcarries := hcalls.carries hm hok
      rcases (hnewest c (by simp) hok).lt_or_eq with hlt | rfl
      · exact Or.inr (hcollects.older (hcurrent m c hm) hok hlt)
      · have hold := after_holds (hcalls.of_prefix hbefore)
        exact (hcollects.own hold ht hcarries).imp_left fun hpub =>
          ⟨m, c, _, List.prefix_refl _, hpub, rfl⟩
    · exact Or.inr (hcollects.refused hgeneration hok)

/-- Two copies: one slice, then two. -/
def twoCopies : ℕ → Option Transfer
  | 1 => some ⟨.text, 0, 0, [['a']], by decide, by decide, by decide⟩
  | 2 => some ⟨.text, 0, 0, [['b'], ['c']], by decide, by decide, by decide⟩
  | _ => none

end LocalOffers

end TheKvm
