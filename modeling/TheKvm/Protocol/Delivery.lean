import Mathlib.Data.Finset.Card
import Mathlib.Data.Finset.Filter
import TheKvm.Protocol.Reliable

/-!
Delivery: which arrivals bring every message back once.

A message is done when its last fragment has arrived, and its slot is closed. A fragment that
arrives again after that opens a slot anew, as if the message were a further one, and the slot
stays or gives the message once more. So no fragment may come after its message is done; and
a message of one fragment needs a free slot too, though it would leave it at once.
-/

namespace TheKvm

open ReliableReassembler

/-! ### Numbered fragments -/

lemma toBe_two_inj {m n : ℕ} (hm : m < 65536) (hn : n < 65536)
    (h : Bytes.toBe 2 m = Bytes.toBe 2 n) : m = n := by
  rw [← Bytes.ofBe_toBe (w := 2) (n := m) (by omega), h, Bytes.ofBe_toBe (by omega)]

namespace Messages

variable (M : Messages)

/-- The fragment of that number of a message. -/
def nth (msgId : UInt64) (index : ℕ) : Option (List UInt8) :=
  (M.payload msgId).bind fun bytes => (parts bytes)[index]?.map
    (fragmentBody msgId index (parts bytes).length)

variable {M} {msgId id : UInt64} {index : ℕ} {body : List UInt8} {bytes : List UInt8}
  {m : List (List UInt8)}

lemma nth_eq_some : M.nth msgId index = some body ↔
    ∃ bytes chunk, M.payload msgId = some bytes ∧ (parts bytes)[index]? = some chunk ∧
      body = fragmentBody msgId index (parts bytes).length chunk := by
  rw [nth, Option.bind_eq_some_iff]
  constructor
  · rintro ⟨bytes, hm, hbody⟩
    obtain ⟨chunk, hchunk, rfl⟩ := Option.map_eq_some_iff.mp hbody
    exact ⟨bytes, chunk, hm, hchunk, rfl⟩
  · rintro ⟨bytes, chunk, hm, hchunk, rfl⟩
    exact ⟨bytes, hm, by rw [hchunk]; rfl⟩

lemma fragment_iff_nth : M.Fragment msgId body ↔ ∃ index, M.nth msgId index = some body := by
  constructor
  · intro h
    obtain ⟨bytes, -, hm, -, -⟩ := id h
    obtain ⟨index, chunk, hchunk, rfl⟩ := (fragment_iff hm).mp h
    exact ⟨index, nth_eq_some.mpr ⟨bytes, chunk, hm, hchunk, rfl⟩⟩
  · rintro ⟨index, h⟩
    obtain ⟨bytes, chunk, hm, hchunk, rfl⟩ := nth_eq_some.mp h
    exact (fragment_iff hm).mpr ⟨index, chunk, hchunk, rfl⟩

lemma lt_of_nth (h : M.nth msgId index = some body) : index < maxFragments := by
  obtain ⟨bytes, chunk, hm, hchunk, -⟩ := nth_eq_some.mp h
  exact lt_of_lt_of_le (List.getElem?_eq_some_iff.mp hchunk).1
    (length_parts (ne_nil hm) (length_le hm)).2

/-- A fragment names its message and its number. -/
lemma nth_inj {index' : ℕ} (h : M.nth msgId index = some body) (h' : M.nth id index' = some body) :
    id = msgId ∧ index' = index := by
  have hmax : maxFragments = 128 := rfl
  have hi := lt_of_nth h
  have hi' := lt_of_nth h'
  obtain ⟨bytes, chunk, -, -, rfl⟩ := nth_eq_some.mp h
  obtain ⟨bytes', chunk', -, -, heq⟩ := nth_eq_some.mp h'
  simp only [fragmentBody, List.append_assoc] at heq
  obtain ⟨hid, heq⟩ := List.append_inj heq (by rw [Bytes.length_toBe, Bytes.length_toBe])
  obtain ⟨hindex, -⟩ := List.append_inj heq (by rw [Bytes.length_toBe, Bytes.length_toBe])
  refine ⟨?_, toBe_two_inj (by omega) (by omega) hindex.symm⟩
  apply UInt64.toNat_inj.mp
  rw [← Bytes.ofBe_toBe (w := 8) (n := id.toNat) (lt_of_lt_of_le id.toNat_lt (by decide)), ← hid,
    Bytes.ofBe_toBe (lt_of_lt_of_le msgId.toNat_lt (by decide))]

/-! ### What has arrived -/

/-- Every fragment of the message is among the bodies. -/
def Complete (M : Messages) (m : List (List UInt8)) (msgId : UInt64) : Prop :=
  ∀ body, M.Fragment msgId body → body ∈ m

/-- Some fragments of the message are among the bodies, and not all. -/
def Outstanding (M : Messages) (m : List (List UInt8)) (msgId : UInt64) : Prop :=
  (∃ body ∈ m, M.Fragment msgId body) ∧ ¬M.Complete m msgId

open Classical in
/-- The numbers of the fragments among the bodies. -/
noncomputable def arrived (M : Messages) (m : List (List UInt8)) (msgId : UInt64) : Finset ℕ :=
  (Finset.range maxFragments).filter fun index => ∃ body ∈ m, M.nth msgId index = some body

lemma mem_arrived : index ∈ M.arrived m msgId ↔ ∃ body ∈ m, M.nth msgId index = some body := by
  rw [arrived, Finset.mem_filter]
  refine ⟨And.right, fun h => ⟨?_, h⟩⟩
  obtain ⟨body, -, hbody⟩ := h
  exact Finset.mem_range.mpr (lt_of_nth hbody)

/-- One more fragment has arrived. -/
lemma arrived_snoc (h : M.nth msgId index = some body) :
    M.arrived (m ++ [body]) =
      Function.update (M.arrived m) msgId (insert index (M.arrived m msgId)) := by
  funext id
  ext i
  rw [mem_arrived]
  by_cases hid : id = msgId
  · subst hid
    rw [Function.update_self, Finset.mem_insert, mem_arrived]
    constructor
    · rintro ⟨b, hb, hnth⟩
      rcases List.mem_append.mp hb with hb | hb
      · exact Or.inr ⟨b, hb, hnth⟩
      · obtain rfl := List.mem_singleton.mp hb
        exact Or.inl (nth_inj h hnth).2
    · rintro (rfl | ⟨b, hb, hnth⟩)
      · exact ⟨body, by simp, h⟩
      · exact ⟨b, List.mem_append_left _ hb, hnth⟩
  · rw [Function.update_of_ne hid, mem_arrived]
    constructor
    · rintro ⟨b, hb, hnth⟩
      rcases List.mem_append.mp hb with hb | hb
      · exact ⟨b, hb, hnth⟩
      · obtain rfl := List.mem_singleton.mp hb
        exact absurd (nth_inj h hnth).1 hid
    · rintro ⟨b, hb, hnth⟩
      exact ⟨b, List.mem_append_left _ hb, hnth⟩

lemma complete_iff (hm : M.payload msgId = some bytes) :
    M.Complete m msgId ↔ Finset.range (parts bytes).length ⊆ M.arrived m msgId := by
  constructor
  · intro h i hi
    have hi := List.getElem?_eq_getElem (Finset.mem_range.mp hi)
    have hnth := nth_eq_some.mpr ⟨bytes, _, hm, hi, rfl⟩
    exact mem_arrived.mpr ⟨_, h _ (fragment_iff_nth.mpr ⟨i, hnth⟩), hnth⟩
  · intro h body hbody
    obtain ⟨i, hnth⟩ := fragment_iff_nth.mp hbody
    obtain ⟨bytes', chunk, hm', hchunk, -⟩ := nth_eq_some.mp hnth
    obtain rfl := Option.some.inj (hm.symm.trans hm')
    obtain ⟨b, hb, hnth'⟩ :=
      mem_arrived.mp (h (Finset.mem_range.mpr (List.getElem?_eq_some_iff.mp hchunk).1))
    obtain rfl := Option.some.inj (hnth.symm.trans hnth')
    exact hb

lemma Complete.mono {k : List (List UInt8)} (h : M.Complete m msgId) (hk : m <+: k) :
    M.Complete k msgId := fun body hbody => hk.subset (h body hbody)

lemma not_complete_nil (hm : M.payload msgId = some bytes) : ¬M.Complete [] msgId := by
  rw [complete_iff hm]
  intro h
  have hmem := h (Finset.mem_range.mpr (length_parts (ne_nil hm) (length_le hm)).1)
  obtain ⟨body, hbody, -⟩ := mem_arrived.mp hmem
  cases hbody

/-- A fragment of one message does not complete another. -/
lemma complete_snoc_other (h : M.nth msgId index = some body) (hid : id ≠ msgId) :
    M.Complete (m ++ [body]) id ↔ M.Complete m id := by
  refine ⟨fun hc b hb => ?_, fun hc => hc.mono (List.prefix_append _ _)⟩
  rcases List.mem_append.mp (hc b hb) with hmem | hmem
  · exact hmem
  · obtain rfl := List.mem_singleton.mp hmem
    obtain ⟨i, hi⟩ := fragment_iff_nth.mp hb
    exact absurd (nth_inj h hi).1 hid

open Classical in
/-- The fragments an assembly should hold: none of a message that is done. -/
noncomputable def gotten (M : Messages) (m : List (List UInt8)) (msgId : UInt64) : Finset ℕ :=
  if M.Complete m msgId then ∅ else M.arrived m msgId

lemma gotten_of_not_complete (h : ¬M.Complete m msgId) : M.gotten m msgId = M.arrived m msgId :=
  if_neg h

lemma gotten_of_complete (h : M.Complete m msgId) : M.gotten m msgId = ∅ := if_pos h

lemma gotten_ne_empty : M.gotten m msgId ≠ ∅ ↔ M.Outstanding m msgId := by
  rw [gotten, Outstanding]
  split_ifs with hc
  · exact iff_of_false (fun h => h rfl) fun h => h.2 hc
  · rw [← Finset.nonempty_iff_ne_empty]
    constructor
    · rintro ⟨i, hi⟩
      obtain ⟨body, hbody, hnth⟩ := mem_arrived.mp hi
      exact ⟨⟨body, hbody, fragment_iff_nth.mpr ⟨i, hnth⟩⟩, hc⟩
    · rintro ⟨⟨body, hbody, hfragment⟩, -⟩
      obtain ⟨i, hnth⟩ := fragment_iff_nth.mp hfragment
      exact ⟨i, mem_arrived.mpr ⟨body, hbody, hnth⟩⟩

/-- A fragment changes nothing for the other messages. -/
lemma gotten_snoc_other (h : M.nth msgId index = some body) (hid : id ≠ msgId) :
    M.gotten (m ++ [body]) id = M.gotten m id := by
  by_cases hc : M.Complete m id
  · rw [gotten_of_complete hc, gotten_of_complete ((complete_snoc_other h hid).mpr hc)]
  · rw [gotten_of_not_complete hc,
      gotten_of_not_complete (mt (complete_snoc_other h hid).mp hc), arrived_snoc h,
      Function.update_of_ne hid]

lemma gotten_snoc_complete (h : M.nth msgId index = some body)
    (hc : M.Complete (m ++ [body]) msgId) :
    M.gotten (m ++ [body]) = Function.update (M.gotten m) msgId ∅ := by
  funext id
  by_cases hid : id = msgId
  · subst hid
    rw [Function.update_self, gotten_of_complete hc]
  · rw [Function.update_of_ne hid, gotten_snoc_other h hid]

lemma gotten_snoc_open (h : M.nth msgId index = some body)
    (hc : ¬M.Complete (m ++ [body]) msgId) :
    M.gotten (m ++ [body]) =
      Function.update (M.gotten m) msgId (insert index (M.gotten m msgId)) := by
  have hbefore : ¬M.Complete m msgId := fun hm => hc (hm.mono (List.prefix_append _ _))
  funext id
  by_cases hid : id = msgId
  · subst hid
    rw [Function.update_self, gotten_of_not_complete hc, gotten_of_not_complete hbefore,
      arrived_snoc h, Function.update_self]
  · rw [Function.update_of_ne hid, gotten_snoc_other h hid]

end Messages

/-! ### Deliveries -/

/-- Fragments of the messages, all of them at least once, and never more than 16 messages
some of whose fragments have arrived and others not. -/
structure Delivery (M : Messages) (bodies : List (List UInt8)) : Prop where
  fragments : ∀ body ∈ bodies, ∃ msgId, M.Fragment msgId body
  complete : ∀ msgId, M.Complete bodies msgId
  bounded : ∀ m, m <+: bodies → ∀ ids : Finset UInt64, (∀ id ∈ ids, M.Outstanding m id) →
    ids.card ≤ 16

/-- The fragment fed after `m` gives its message back. -/
def Returns (M : Messages) (m : List (List UInt8)) (body : List UInt8) (msgId : UInt64) : Prop :=
  M.Fragment msgId body ∧ ((Trace.final feed default m).feed body).2 = .ok (M.payload msgId)

/-- Every message comes back once, no call fails and nothing is left over. -/
structure DeliversOnce (M : Messages) (bodies : List (List UInt8)) : Prop where
  once : ∀ msgId, (M.payload msgId).isSome →
    ∃! m, ∃ body, m ++ [body] <+: bodies ∧ Returns M m body msgId
  noError : ∀ m body, m ++ [body] <+: bodies → ∀ message,
    ((Trace.final feed default m).feed body).2 ≠ .error message
  settled : ∀ msgId, msgId ∉ (Trace.final feed default bodies).pending

/-- The fragment comes before its message is done; and if it is all of its message, fewer than
16 others are on their way. -/
def Prompt (M : Messages) (m : List (List UInt8)) (body : List UInt8) : Prop :=
  ∀ msgId, M.Fragment msgId body → ¬M.Complete m msgId ∧
    ((∀ other, M.Fragment msgId other → other = body) →
      ∀ ids : Finset UInt64, (∀ id ∈ ids, M.Outstanding m id) → ids.card < 16)

section

variable {M : Messages} {bodies m : List (List UInt8)} {body : List UInt8} {msgId : UInt64}
  {index : ℕ} {r : ReliableReassembler}

lemma payload_isSome (h : M.nth msgId index = some body) :
    ∃ bytes, M.payload msgId = some bytes := by
  obtain ⟨bytes, -, hm, -, -⟩ := Messages.nth_eq_some.mp h
  exact ⟨bytes, hm⟩

/-- The messages in the slots. -/
lemma outstanding_of_keys {got : UInt64 → Finset ℕ} (h : Shows M r got)
    (hgot : got = M.gotten m) : ∀ id ∈ r.pending.keys.toFinset, M.Outstanding m id := by
  intro id hid
  rw [← Messages.gotten_ne_empty, ← hgot, ← h.mem id]
  exact AList.mem_keys.mpr (List.mem_toFinset.mp hid)

lemma card_keys (r : ReliableReassembler) :
    r.pending.keys.toFinset.card = r.pending.keys.length :=
  List.toFinset_card_of_nodup r.pending.keys_nodup

/-- A prompt fragment finds a slot. -/
lemma room_of_prompt (hd : Delivery M bodies) (hpre : m ++ [body] <+: bodies)
    (hshows : Shows M r (M.gotten m)) (hnth : M.nth msgId index = some body)
    (hprompt : Prompt M m body) : ¬(r.Full ∧ M.gotten m msgId = ∅) := by
  rintro ⟨hfull, hnew⟩
  have hfragment := Messages.fragment_iff_nth.mpr ⟨index, hnth⟩
  obtain ⟨hopen, hsingle⟩ := hprompt msgId hfragment
  have hkeys := outstanding_of_keys hshows rfl
  have hcard := card_keys r
  have hfull : 16 ≤ r.pending.keys.length := hfull
  by_cases honly : ∀ other, M.Fragment msgId other → other = body
  · have := hsingle honly _ hkeys
    omega
  -- with this fragment a 17th message is on its way
  rw [not_forall] at honly
  obtain ⟨other, honly⟩ := honly
  obtain ⟨hother, hne⟩ := Classical.not_imp.mp honly
  have hstarted : ¬M.Outstanding m msgId := fun h => Messages.gotten_ne_empty.mpr h hnew
  have hnotin : msgId ∉ r.pending.keys.toFinset := fun h => hstarted (hkeys _ h)
  have hbound := hd.bounded _ hpre (insert msgId r.pending.keys.toFinset) fun id hid => by
    rcases Finset.mem_insert.mp hid with rfl | hid
    · refine ⟨⟨body, by simp, hfragment⟩, fun hc => ?_⟩
      rcases List.mem_append.mp (hc other hother) with hmem | hmem
      · exact hstarted ⟨⟨other, hmem, hother⟩, hopen⟩
      · exact hne (List.mem_singleton.mp hmem)
    · have hidne : id ≠ msgId := fun h => hnotin (h ▸ hid)
      rw [← Messages.gotten_ne_empty, Messages.gotten_snoc_other hnth hidne,
        Messages.gotten_ne_empty]
      exact hkeys id hid
  rw [Finset.card_insert_of_notMem hnotin] at hbound
  omega

/-- A fragment that finds a slot is kept, or completes its message. -/
lemma feed_open (hshows : Shows M r (M.gotten m)) (hnth : M.nth msgId index = some body)
    (hopen : ¬M.Complete m msgId) (hroom : ¬(r.Full ∧ M.gotten m msgId = ∅)) :
    Shows M (r.feed body).1 (M.gotten (m ++ [body])) ∧
      (M.Complete (m ++ [body]) msgId → (r.feed body).2 = .ok (M.payload msgId)) ∧
      (¬M.Complete (m ++ [body]) msgId → (r.feed body).2 = .ok none) := by
  obtain ⟨bytes, chunk, hm, hchunk, rfl⟩ := Messages.nth_eq_some.mp hnth
  have hdone : M.Complete (m ++ [fragmentBody msgId index (parts bytes).length chunk]) msgId ↔
      Finset.range (parts bytes).length ⊆ insert index (M.gotten m msgId) := by
    rw [Messages.complete_iff hm, Messages.arrived_snoc hnth, Function.update_self,
      Messages.gotten_of_not_complete hopen]
  by_cases hc : M.Complete (m ++ [fragmentBody msgId index (parts bytes).length chunk]) msgId
  · obtain ⟨r', hfeed, hshows'⟩ := feed_completes hshows hm hchunk hroom (hdone.mp hc)
    rw [hfeed, Messages.gotten_snoc_complete hnth hc, hm]
    exact ⟨hshows', fun _ => rfl, fun hnot => absurd hc hnot⟩
  · obtain ⟨r', hfeed, hshows'⟩ := feed_pends hshows hm hchunk hroom (mt hdone.mpr hc)
    rw [hfeed, Messages.gotten_snoc_open hnth hc]
    exact ⟨hshows', fun hyes => absurd hyes hc, fun _ => rfl⟩

lemma gotten_nil (M : Messages) : M.gotten [] = fun _ => ∅ := by
  funext id
  by_contra h
  obtain ⟨⟨body, hbody, -⟩, -⟩ := Messages.gotten_ne_empty.mp h
  cases hbody

/-- While every fragment is prompt the slots hold what has arrived of the open messages. -/
lemma shows_of_prompt (hd : Delivery M bodies) (hpre : m <+: bodies)
    (hprompt : Trace.Each (Prompt M) m) : Shows M (Trace.final feed default m) (M.gotten m) := by
  refine Trace.invariant (I := fun m r => Shows M r (M.gotten m))
    (P := fun m body => m ++ [body] <+: bodies ∧ Prompt M m body) ?_ ?_
    fun k body hk => ⟨hk.trans hpre, hprompt k body hk⟩
  · rw [gotten_nil]
    exact default_shows M
  · rintro k body hshows ⟨hk, hbody⟩
    obtain ⟨msgId, hfragment⟩ := hd.fragments body (Trace.mem_of_snoc hk)
    obtain ⟨index, hnth⟩ := Messages.fragment_iff_nth.mp hfragment
    exact (feed_open hshows hnth (hbody msgId hfragment).1
      (room_of_prompt hd hk hshows hnth hbody)).1

/-- What a prompt fragment gives. -/
lemma feed_of_prompt (hd : Delivery M bodies) (hpre : m ++ [body] <+: bodies)
    (hm : Trace.Each (Prompt M) m) (hbody : Prompt M m body) (hfragment : M.Fragment msgId body) :
    (M.Complete (m ++ [body]) msgId →
      ((Trace.final feed default m).feed body).2 = .ok (M.payload msgId)) ∧
    (¬M.Complete (m ++ [body]) msgId →
      ((Trace.final feed default m).feed body).2 = .ok none) := by
  obtain ⟨index, hnth⟩ := Messages.fragment_iff_nth.mp hfragment
  have hshows := shows_of_prompt hd (Trace.earlier hpre) hm
  exact (feed_open hshows hnth (hbody msgId hfragment).1
    (room_of_prompt hd hpre hshows hnth hbody)).2

/-- The arrival that completes a message. -/
lemma exists_completing (hd : Delivery M bodies) (hpre : m <+: bodies)
    {bytes : List UInt8} (hm : M.payload msgId = some bytes) (hc : M.Complete m msgId) :
    ∃ k body, k ++ [body] <+: m ∧ M.Fragment msgId body ∧ ¬M.Complete k msgId ∧
      M.Complete (k ++ [body]) msgId := by
  have hnot : ¬Trace.Each (fun k body => ¬M.Complete (k ++ [body]) msgId) m := by
    intro hall
    rcases List.eq_nil_or_concat m with rfl | ⟨k, body, rfl⟩
    · exact Messages.not_complete_nil hm hc
    · exact hall k body (by rw [List.concat_eq_append]) (by rwa [List.concat_eq_append] at hc)
  obtain ⟨k, body, hk, hbefore, hdone⟩ := Trace.exists_first hnot
  have hdone := not_not.mp hdone
  have hopen : ¬M.Complete k msgId := by
    intro hk
    rcases List.eq_nil_or_concat k with rfl | ⟨j, c, rfl⟩
    · exact Messages.not_complete_nil hm hk
    · rw [List.concat_eq_append] at hk hbefore
      exact (Trace.each_snoc.mp hbefore).2 hk
  refine ⟨k, body, hk, ?_, hopen, hdone⟩
  obtain ⟨id, hid⟩ := hd.fragments body (Trace.mem_of_snoc (hk.trans hpre))
  obtain ⟨index, hnth⟩ := Messages.fragment_iff_nth.mp hid
  by_cases heq : msgId = id
  · rwa [heq]
  · exact absurd ((Messages.complete_snoc_other hnth heq).mp hdone) hopen

/-- Prompt fragments bring every message back once. -/
lemma deliversOnce_of_prompt (hd : Delivery M bodies) (hprompt : Trace.Each (Prompt M) bodies) :
    DeliversOnce M bodies where
  once := by
    intro msgId hsome
    obtain ⟨bytes, hm⟩ := Option.isSome_iff_exists.mp hsome
    obtain ⟨k, body, hk, hfragment, -, hdone⟩ :=
      exists_completing hd (List.prefix_refl _) hm (hd.complete msgId)
    have hreturns (m : List (List UInt8)) (b : List UInt8) (hpre : m ++ [b] <+: bodies)
        (hb : Returns M m b msgId) : M.Complete (m ++ [b]) msgId ∧ ¬M.Complete m msgId := by
      have hpr := hprompt m b hpre
      refine ⟨?_, (hpr msgId hb.1).1⟩
      by_contra hopen
      have hnone := (feed_of_prompt hd hpre
        (hprompt.earlier hpre) hpr hb.1).2 hopen
      rw [hb.2, hm] at hnone
      cases hnone
    have hreturn : Returns M k body msgId := ⟨hfragment, (feed_of_prompt hd hk
      (hprompt.earlier hk) (hprompt k body hk) hfragment).1
      hdone⟩
    refine ⟨k, ⟨body, hk, hreturn⟩, ?_⟩
    rintro m ⟨b, hpre, hb⟩
    rcases Trace.prefix_cases hpre hk with heq | hlt | hgt
    · exact heq
    · exact absurd ((hreturns m b hpre hb).1.mono hlt) (hreturns k body hk hreturn).2
    · exact absurd (hdone.mono hgt) (hreturns m b hpre hb).2
  noError := by
    intro m body hpre message herror
    obtain ⟨msgId, hfragment⟩ := hd.fragments body (Trace.mem_of_snoc hpre)
    have hfeed := feed_of_prompt hd hpre
      (hprompt.earlier hpre) (hprompt m body hpre) hfragment
    by_cases hc : M.Complete (m ++ [body]) msgId
    · rw [hfeed.1 hc] at herror
      cases herror
    · rw [hfeed.2 hc] at herror
      cases herror
  settled := by
    intro msgId hmem
    have hshows := shows_of_prompt hd (List.prefix_refl _) hprompt
    rw [hshows.mem, Messages.gotten_of_complete (hd.complete msgId)] at hmem
    exact hmem rfl

/-! ### Late fragments -/

/-- An open slot stays until its message is given back. -/
lemma feed_keeps {got : UInt64 → Finset ℕ} (h : Shows M r got) {id : UInt64}
    (hbody : M.Fragment id body) (hmem : msgId ∈ r.pending) :
    msgId ∈ (r.feed body).1.pending ∨
      (id = msgId ∧ (r.feed body).2 = .ok (M.payload msgId)) := by
  obtain ⟨index, hnth⟩ := Messages.fragment_iff_nth.mp hbody
  obtain ⟨bytes, chunk, hm, hchunk, rfl⟩ := Messages.nth_eq_some.mp hnth
  by_cases hroom : r.Full ∧ got id = ∅
  · rw [feed_blocked h hm hchunk hroom.1 hroom.2]
    exact Or.inl hmem
  rw [h.mem] at hmem
  by_cases hall : Finset.range (parts bytes).length ⊆ insert index (got id)
  · obtain ⟨r', hfeed, hshows⟩ := feed_completes h hm hchunk hroom hall
    rw [hfeed, hshows.mem]
    by_cases hid : msgId = id
    · subst hid
      exact Or.inr ⟨rfl, by rw [hm]⟩
    · rw [Function.update_of_ne hid]
      exact Or.inl hmem
  · obtain ⟨r', hfeed, hshows⟩ := feed_pends h hm hchunk hroom hall
    rw [hfeed, hshows.mem]
    by_cases hid : msgId = id
    · subst hid
      rw [Function.update_self]
      exact Or.inl (Finset.insert_ne_empty _ _)
    · rw [Function.update_of_ne hid]
      exact Or.inl hmem

/-- A slot open on the way is open at the end, or its message was given back in between. -/
lemma stays_open (hbodies : ∀ body ∈ bodies, ∃ msgId, M.Fragment msgId body)
    (hmem : msgId ∈ (Trace.final feed default m).pending) (k : List (List UInt8))
    (hpre : m ++ k <+: bodies) :
    msgId ∈ (Trace.final feed default (m ++ k)).pending ∨
      ∃ n body, m <+: n ∧ n ++ [body] <+: bodies ∧ Returns M n body msgId := by
  induction k using List.reverseRecOn with
  | nil => exact Or.inl (by rwa [List.append_nil])
  | append_singleton k body ih =>
    rw [← List.append_assoc] at hpre
    have hbefore := Trace.earlier hpre
    rcases ih hbefore with hopen | hreturned
    · obtain ⟨id, hfragment⟩ := hbodies body (Trace.mem_of_snoc hpre)
      obtain ⟨got, hshows⟩ := run_shows hbodies hbefore
      rcases feed_keeps hshows hfragment hopen with hstill | ⟨rfl, hout⟩
      · rw [← List.append_assoc, Trace.final_snoc]
        exact Or.inl hstill
      · exact Or.inr ⟨m ++ k, body, List.prefix_append _ _, hpre, hfragment, hout⟩
    · exact Or.inr hreturned

/-- A fragment of a message that is done leaves a slot open or gives the message once more. -/
lemma complete_of_deliversOnce (hd : Delivery M bodies) (honce : DeliversOnce M bodies)
    (hpre : m ++ [body] <+: bodies) (hprompt : Trace.Each (Prompt M) m)
    (hfragment : M.Fragment msgId body) : ¬M.Complete m msgId := by
  intro hc
  have hm := Trace.earlier hpre
  obtain ⟨index, hnth⟩ := Messages.fragment_iff_nth.mp hfragment
  obtain ⟨bytes, hpayload⟩ := payload_isSome hnth
  -- the message was given back when it was done
  obtain ⟨k, b, hk, hb, hopen, hdone⟩ := exists_completing hd hm hpayload hc
  have hfirst : Returns M k b msgId := ⟨hb, (feed_of_prompt hd (hk.trans hm)
    (hprompt.earlier hk) (hprompt k b hk) hb).1 hdone⟩
  have hunique : ∀ n c, n ++ [c] <+: bodies → Returns M n c msgId → n = k := fun n c hn hc =>
    (honce.once msgId (by rw [hpayload]; rfl)).unique ⟨c, hn, hc⟩ ⟨b, hk.trans hm, hfirst⟩
  have hlonger : ∀ n, m <+: n → n ≠ k := by
    rintro n hn rfl
    have hle := (hn.trans (List.prefix_append n [b])).length_le
    have hlt := hk.length_le
    have := hn.length_le
    rw [List.length_append] at hlt
    simp only [List.length_singleton] at hlt
    omega
  have hshows := shows_of_prompt hd hm hprompt
  have hnew : M.gotten m msgId = ∅ := Messages.gotten_of_complete hc
  obtain ⟨bytes', chunk, hpayload', hchunk, rfl⟩ := Messages.nth_eq_some.mp hnth
  obtain rfl := Option.some.inj (hpayload.symm.trans hpayload')
  by_cases hfull : (Trace.final feed default m).Full
  · refine honce.noError m _ hpre "too many concurrent assemblies" ?_
    rw [feed_blocked hshows hpayload hchunk hfull hnew]
  have hroom := fun h : _ ∧ M.gotten m msgId = ∅ => hfull h.1
  by_cases hall : Finset.range (parts bytes).length ⊆ insert index (M.gotten m msgId)
  · obtain ⟨r', hfeed, -⟩ := feed_completes hshows hpayload hchunk hroom hall
    refine hlonger m (List.prefix_refl _) (hunique m _ hpre ⟨hfragment, ?_⟩)
    rw [hfeed, hpayload]
  · obtain ⟨r', hfeed, hshows'⟩ := feed_pends hshows hpayload hchunk hroom hall
    obtain ⟨rest, hrest⟩ := hpre
    have hslot : msgId ∈ (Trace.final feed default
        (m ++ [fragmentBody msgId index (parts bytes).length chunk])).pending := by
      rw [Trace.final_snoc, hfeed, hshows'.mem, Function.update_self]
      exact Finset.insert_ne_empty _ _
    rcases stays_open hd.fragments hslot rest (by rw [hrest]) with hleft | ⟨n, c, hn, hnc, hreturn⟩
    · rw [hrest] at hleft
      exact honce.settled msgId hleft
    · exact hlonger n (Trace.earlier hn) (hunique n c hnc hreturn)

/-- **Delivery.** Of the arrivals that bring every fragment at least once, of at most 16 open
messages at a time, those bring every message back once, without an error and with nothing
left over, in which every fragment is prompt. -/
theorem deliversOnce_iff (hd : Delivery M bodies) :
    DeliversOnce M bodies ↔ Trace.Each (Prompt M) bodies := by
  refine ⟨fun honce => ?_, deliversOnce_of_prompt hd⟩
  by_contra hnot
  obtain ⟨m, body, hpre, hprompt, hbody⟩ := Trace.exists_first hnot
  apply hbody
  intro msgId hfragment
  have hopen := complete_of_deliversOnce hd honce hpre hprompt hfragment
  refine ⟨hopen, fun honly ids hids => ?_⟩
  by_contra hcard
  have hshows := shows_of_prompt hd (Trace.earlier hpre) hprompt
  obtain ⟨index, hnth⟩ := Messages.fragment_iff_nth.mp hfragment
  obtain ⟨bytes, chunk, hpayload, hchunk, rfl⟩ := Messages.nth_eq_some.mp hnth
  have hnew : M.gotten m msgId = ∅ := by
    by_contra hgot
    obtain ⟨⟨other, hmem, hother⟩, -⟩ := Messages.gotten_ne_empty.mp hgot
    exact hopen fun b hb => by rwa [honly b hb, ← honly other hother]
  have hfull : (Trace.final feed default m).Full := by
    have hsub : ids ⊆ (Trace.final feed default m).pending.keys.toFinset := by
      intro id hid
      rw [List.mem_toFinset, ← AList.mem_keys, hshows.mem, Messages.gotten_ne_empty]
      exact hids id hid
    have := Finset.card_le_card hsub
    rw [card_keys] at this
    exact (not_lt.mp hcard).trans this
  exact honce.noError m _ hpre "too many concurrent assemblies" (by
    rw [feed_blocked hshows hpayload hchunk hfull hnew])

/-- A short message alone, however often it arrives. -/
lemma single_delivery {bytes fragment : List UInt8}
    (h : splitReliable msgId bytes = .ok [fragment]) (hbodies : ∀ body ∈ bodies, body = fragment)
    (hne : bodies ≠ []) : Delivery (.single msgId bytes ⟨_, h⟩) bodies where
  fragments body hbody := ⟨msgId, (Messages.single_fragment h).mpr ⟨rfl, hbodies body hbody⟩⟩
  complete id body hbody := by
    obtain ⟨first, hfirst⟩ := List.exists_mem_of_ne_nil bodies hne
    rw [((Messages.single_fragment h).mp hbody).2, ← hbodies first hfirst]
    exact hfirst
  bounded m _ ids hids := by
    have hsub : ids ⊆ {msgId} := fun id hid => by
      obtain ⟨⟨body, -, hbody⟩, -⟩ := hids id hid
      exact Finset.mem_singleton.mpr ((Messages.single_fragment h).mp hbody).1
    exact (Finset.card_le_card hsub).trans (by rw [Finset.card_singleton]; omega)

theorem deliversOnce_short :
    DeliversOnce (.single 7 [1, 2] ⟨_, short_splits⟩) [fragmentBody 7 0 1 [1, 2]] := by
  refine (deliversOnce_iff (single_delivery short_splits (by simp) (by simp))).mpr ?_
  refine Trace.each_singleton.mpr fun msgId hfragment => ?_
  refine ⟨fun hc => ?_, fun _ ids hids => ?_⟩
  · cases hc _ hfragment
  · have hempty : ids = ∅ := Finset.eq_empty_of_forall_notMem fun id hid => by
      obtain ⟨⟨body, hbody, -⟩, -⟩ := hids id hid
      cases hbody
    rw [hempty, Finset.card_empty]
    omega

/-- A message of one fragment that arrives twice comes back twice. -/
theorem duplicate_delivers_twice :
    ¬∀ (M : Messages) (bodies : List (List UInt8)), Delivery M bodies → DeliversOnce M bodies := by
  intro h
  have honce := h _ [fragmentBody 7 0 1 [1, 2], fragmentBody 7 0 1 [1, 2]]
    (single_delivery short_splits (by simp) (by simp))
  have hfragment := (Messages.single_fragment short_splits).mpr ⟨rfl, rfl⟩
  have hfirst : Returns (.single 7 [1, 2] ⟨_, short_splits⟩) [] (fragmentBody 7 0 1 [1, 2]) 7 :=
    ⟨hfragment, rfl⟩
  have hagain : Returns (.single 7 [1, 2] ⟨_, short_splits⟩) [fragmentBody 7 0 1 [1, 2]]
      (fragmentBody 7 0 1 [1, 2]) 7 := ⟨hfragment, by decide +kernel⟩
  have htwice := (honce.once 7 rfl).unique ⟨_, ⟨[fragmentBody 7 0 1 [1, 2]], rfl⟩, hfirst⟩
    ⟨_, List.prefix_refl _, hagain⟩
  cases htwice

end

end TheKvm
