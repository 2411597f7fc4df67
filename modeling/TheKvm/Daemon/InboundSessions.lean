import TheKvm.Daemon.InboundLinks
import TheKvm.Lib.Keyed
import TheKvm.Lib.Trace

/-!
The inbound sessions behind the registry, and how each is told to drop.

A session watches a channel whose sender is its entry in the registry. A redial takes the entry's
place, and that closes the channel.
-/

namespace TheKvm

/-- Where the task of a session is. -/
inductive TaskPhase
  /-- Registered, and not guarded yet. -/
  | registering
  | serving
  /-- The receive loop is over. -/
  | leaving
  /-- The guard has dropped. -/
  | ended
  deriving DecidableEq

structure InboundSession where
  /-- The registration, and the channel whose sender it stored. -/
  id : ℕ
  link : LinkView
  /-- The value in the channel. -/
  dropTold : Bool
  phase : TaskPhase
  deriving DecidableEq

/-- The registry and all sessions that ever registered. -/
structure LinkHub where
  links : InboundLinks
  sessions : List InboundSession

namespace LinkHub

def empty : LinkHub := ⟨.empty, []⟩

/-- The sender of a channel lives in the registry. -/
def listed (h : LinkHub) (id : ℕ) : Bool := h.links.live.any fun entry => entry.id = id

/-- The entry stored under a peer. -/
def entryOf (h : LinkHub) (fingerprintHex : String) : Option LiveLink :=
  h.links.live.find? fun entry => entry.link.fingerprintHex = fingerprintHex

/-- The drop arm of the receive loop: the value is set, or the sender is gone. -/
def armReady (h : LinkHub) (s : InboundSession) : Bool := s.dropTold || !h.listed s.id

def modify (h : LinkHub) (id : ℕ) (f : InboundSession → InboundSession) : LinkHub :=
  { h with sessions := h.sessions.map fun s => if s.id = id then f s else s }

def session (h : LinkHub) (id : ℕ) : Option InboundSession := h.sessions.find? fun s => s.id = id

def registerInboundLink (h : LinkHub) (now : Instant) (link : LinkView) : LinkHub where
  links := h.links.registerInboundLink now link
  sessions := h.sessions ++ [⟨h.links.nextId, link, false, .registering⟩]

/-- `send` on the stored channel, which fails when its receiver is gone. -/
def dropInboundLink (h : LinkHub) (fingerprintHex : String) : LinkHub × Bool :=
  match h.entryOf fingerprintHex with
  | none => (h, false)
  | some entry =>
    if h.sessions.any fun s => s.id = entry.id ∧ s.phase ≠ .ended then
      (h.modify entry.id fun s => { s with dropTold := true }, true)
    else (h, false)

/-- `InboundLinkGuard` is dropped: at the end of the loop, or where the task fails. -/
def dropGuard (h : LinkHub) (id : ℕ) : LinkHub :=
  match h.session id with
  | none => h
  | some s =>
    if s.phase = .serving ∨ s.phase = .leaving then
      { h.modify id fun s => { s with phase := .ended } with
        links := h.links.removeInboundLink s.link.fingerprintHex id }
    else h

/-- The guard is made and the receive loop starts. -/
def serve (h : LinkHub) (id : ℕ) : LinkHub :=
  h.modify id fun s => if s.phase = .registering then { s with phase := .serving } else s

/-- A turn of the receive loop takes an arm: the drop arm, which breaks, or another. -/
def turn (h : LinkHub) (id : ℕ) (dropArm breaks : Bool) : LinkHub :=
  h.modify id fun s =>
    if s.phase = .serving ∧ (if dropArm then h.armReady s else breaks) then
      { s with phase := .leaving }
    else s

inductive Op
  | register (now : Instant) (link : LinkView)
  | serve (id : ℕ)
  | turn (id : ℕ) (dropArm breaks : Bool)
  | dropGuard (id : ℕ)
  | dropInboundLink (fingerprintHex : String)

def step (h : LinkHub) : Op → LinkHub × Bool
  | .register now link => (h.registerInboundLink now link, false)
  | .serve id => (h.serve id, false)
  | .turn id dropArm breaks => (h.turn id dropArm breaks, false)
  | .dropGuard id => (h.dropGuard id, false)
  | .dropInboundLink fingerprintHex => h.dropInboundLink fingerprintHex

abbrev after (ops : List Op) : LinkHub := Trace.final step empty ops

/-! ### Entries and their sessions -/

/-- Sessions are numbered as they register, a peer has one entry, and an entry is that of a
session that has not ended. -/
structure Inv (h : LinkHub) : Prop where
  ids : h.sessions.map (·.id) = List.range h.links.nextId
  keys : (h.links.live.map (·.link.fingerprintHex)).Nodup
  hosts : ∀ entry ∈ h.links.live, ∃ s ∈ h.sessions, s.id = entry.id ∧ s.link = entry.link ∧
    s.phase ≠ .ended

variable {h : LinkHub} {s t : InboundSession} {entry entry' : LiveLink} {id : ℕ}

lemma listed_iff : h.listed id = true ↔ ∃ entry ∈ h.links.live, entry.id = id := by
  simp [listed]

lemma Inv.lt (hi : h.Inv) (hs : s ∈ h.sessions) : s.id < h.links.nextId := by
  have hmem : s.id ∈ h.sessions.map (·.id) := List.mem_map_of_mem hs
  rw [hi.ids] at hmem
  exact List.mem_range.mp hmem

/-- A registration has one session. -/
lemma Inv.unique (hi : h.Inv) (hs : s ∈ h.sessions) (ht : t ∈ h.sessions) (heq : s.id = t.id) :
    s = t := by
  have hnodup : (h.sessions.map (·.id)).Nodup := by
    rw [hi.ids]
    exact List.nodup_range
  exact Keyed.unique hnodup hs ht heq

lemma Inv.entryOf_iff (hi : h.Inv) {fingerprintHex : String} :
    h.entryOf fingerprintHex = some entry ↔
      entry ∈ h.links.live ∧ entry.link.fingerprintHex = fingerprintHex :=
  Keyed.find?_iff hi.keys

/-- The entry of a listed session is stored under its peer. -/
lemma Inv.entryOf_of_listed (hi : h.Inv) (hs : s ∈ h.sessions) (hlisted : h.listed s.id = true) :
    h.entryOf s.link.fingerprintHex = some ⟨s.id, s.link⟩ := by
  obtain ⟨⟨eid, elink⟩, he, rfl⟩ := listed_iff.mp hlisted
  obtain ⟨t, ht, hid, hlink, -⟩ := hi.hosts _ he
  obtain rfl := hi.unique ht hs hid
  exact hi.entryOf_iff.mpr ⟨hlink ▸ he, rfl⟩

/-- A session that ended is not listed. -/
lemma Inv.not_listed_of_ended (hi : h.Inv) (hs : s ∈ h.sessions) (hended : s.phase = .ended) :
    h.listed s.id = false := by
  rcases hlisted : h.listed s.id with _ | _
  · rfl
  · obtain ⟨entry, he, hid⟩ := listed_iff.mp hlisted
    obtain ⟨t, ht, htid, -, hlive⟩ := hi.hosts entry he
    obtain rfl := hi.unique ht hs (htid.trans hid)
    exact absurd hended hlive

/-! ### One step -/

lemma inv_empty : empty.Inv where
  ids := rfl
  keys := List.nodup_nil
  hosts := by simp [empty, InboundLinks.empty]

@[simp] lemma noteInboundSeen_live (l : InboundLinks) (now : Instant) (link : LinkView) :
    (l.noteInboundSeen now link).live = l.live := by
  unfold InboundLinks.noteInboundSeen
  dsimp only
  split_ifs <;> rfl

@[simp] lemma noteInboundSeen_nextId (l : InboundLinks) (now : Instant) (link : LinkView) :
    (l.noteInboundSeen now link).nextId = l.nextId := by
  unfold InboundLinks.noteInboundSeen
  dsimp only
  split_ifs <;> rfl

lemma mem_register_live {l : InboundLinks} {now : Instant} {link : LinkView} :
    entry ∈ (l.registerInboundLink now link).live ↔
      (entry ∈ l.live ∧ entry.link.fingerprintHex ≠ link.fingerprintHex) ∨
        entry = ⟨l.nextId, link⟩ := by
  simp [InboundLinks.registerInboundLink, List.mem_filter]

lemma Inv.register (hi : h.Inv) (now : Instant) (link : LinkView) :
    (h.registerInboundLink now link).Inv where
  ids := by
    simp only [registerInboundLink, InboundLinks.registerInboundLink, noteInboundSeen_nextId,
      List.map_append, List.map_cons, List.map_nil, hi.ids, List.range_succ]
  keys := by
    have hlive : (h.registerInboundLink now link).links.live =
        h.links.live.filter (·.link.fingerprintHex ≠ link.fingerprintHex) ++
          [⟨h.links.nextId, link⟩] := by
      simp [registerInboundLink, InboundLinks.registerInboundLink]
    rw [hlive]
    exact Keyed.nodup_replace hi.keys (⟨h.links.nextId, link⟩ : LiveLink)
  hosts := by
    intro entry he
    rcases mem_register_live.mp he with ⟨hold, -⟩ | rfl
    · obtain ⟨s, hs, rest⟩ := hi.hosts entry hold
      exact ⟨s, List.mem_append_left _ hs, rest⟩
    · exact ⟨_, List.mem_append_right _ List.mem_cons_self, rfl, rfl, fun h => by cases h⟩

/-- A change of one session that keeps its number and its peer. -/
lemma Inv.modify (hi : h.Inv) (id : ℕ) {f : InboundSession → InboundSession}
    (hid : ∀ s, (f s).id = s.id) (hlink : ∀ s, (f s).link = s.link)
    (hlive : ∀ s, s.phase ≠ .ended → (f s).phase ≠ .ended) : (h.modify id f).Inv where
  ids := by
    refine Eq.trans ?_ hi.ids
    rw [LinkHub.modify, List.map_map]
    refine List.map_congr_left fun s _ => ?_
    simp only [Function.comp_apply]
    split_ifs
    · exact hid s
    · rfl
  keys := hi.keys
  hosts := by
    intro entry he
    obtain ⟨s, hs, hsid, hslink, hphase⟩ := hi.hosts entry he
    refine ⟨_, List.mem_map_of_mem hs, ?_⟩
    split_ifs
    · exact ⟨(hid s).trans hsid, (hlink s).trans hslink, hlive s hphase⟩
    · exact ⟨hsid, hslink, hphase⟩

lemma Inv.dropGuard (hi : h.Inv) (id : ℕ) : (h.dropGuard id).Inv := by
  unfold LinkHub.dropGuard
  rcases hs : h.session id with _ | s
  · exact hi
  simp only
  split_ifs with hphase
  swap
  · exact hi
  have hmem : s ∈ h.sessions := List.mem_of_find?_eq_some hs
  have hid : s.id = id := by simpa using List.find?_some hs
  refine ⟨?_, Keyed.nodup_filter hi.keys _, fun entry he => ?_⟩
  · refine Eq.trans ?_ hi.ids
    rw [LinkHub.modify, List.map_map]
    refine List.map_congr_left fun t _ => ?_
    simp only [Function.comp_apply]
    split_ifs <;> rfl
  · obtain ⟨hold, hkept⟩ := List.mem_filter.mp he
    obtain ⟨t, ht, htid, htlink, hlive⟩ := hi.hosts entry hold
    refine ⟨_, List.mem_map_of_mem ht, ?_⟩
    split_ifs with heq
    · -- The entry of the session that ends was removed.
      obtain rfl := hi.unique ht hmem (heq.trans hid.symm)
      exact absurd hkept (by simp [← htid, ← htlink, hid])
    · exact ⟨htid, htlink, hlive⟩

lemma Inv.dropInboundLink (hi : h.Inv) (fingerprintHex : String) :
    (h.dropInboundLink fingerprintHex).1.Inv := by
  unfold LinkHub.dropInboundLink
  split
  · exact hi
  · split_ifs
    · exact hi.modify _ (fun _ => rfl) (fun _ => rfl) fun _ hlive => hlive
    · exact hi

/-- Every step keeps the registry and the sessions together. -/
lemma Inv.step (hi : h.Inv) (op : Op) : (h.step op).1.Inv := by
  cases op with
  | register now link => exact hi.register now link
  | serve id =>
    refine hi.modify id (fun s => ?_) (fun s => ?_) fun s hlive => ?_
    all_goals split_ifs
    · rfl
    · rfl
    · rfl
    · rfl
    · exact fun hended => by cases hended
    · exact hlive
  | turn id dropArm breaks =>
    refine hi.modify id (fun s => ?_) (fun s => ?_) fun s hlive => ?_
    all_goals split_ifs
    all_goals first | rfl | exact hlive | exact fun hended => by cases hended
  | dropGuard id => exact hi.dropGuard id
  | dropInboundLink fingerprintHex => exact hi.dropInboundLink fingerprintHex

/-! ### What stays -/

/-- A session of before in a state after: it is the same registration, what it was told stays
told, and when it has ended it stays so. -/
structure Succeeds (s t : InboundSession) : Prop where
  id : t.id = s.id
  link : t.link = s.link
  told : s.dropTold = true → t.dropTold = true
  ended : s.phase = .ended → t.phase = .ended

lemma Succeeds.refl (s : InboundSession) : Succeeds s s :=
  ⟨rfl, rfl, fun htold => htold, fun hended => hended⟩

lemma Succeeds.trans {u : InboundSession} (hst : Succeeds s t) (htu : Succeeds t u) :
    Succeeds s u :=
  ⟨htu.id.trans hst.id, htu.link.trans hst.link, fun htold => htu.told (hst.told htold),
    fun hended => htu.ended (hst.ended hended)⟩

/-- What may come of a hub: sessions register and go on, and a sender comes to the registry only
as its session registers. -/
structure Evolves (h h' : LinkHub) : Prop where
  nextId : h.links.nextId ≤ h'.links.nextId
  sessions : ∀ t ∈ h'.sessions, (∃ s ∈ h.sessions, Succeeds s t) ∨ h.links.nextId ≤ t.id
  listed : ∀ id, h'.listed id = true → id < h.links.nextId → h.listed id = true

lemma Evolves.refl (h : LinkHub) : Evolves h h :=
  ⟨le_rfl, fun t ht => Or.inl ⟨t, ht, Succeeds.refl t⟩, fun _ hlisted _ => hlisted⟩

lemma Evolves.trans {h' h'' : LinkHub} (h₁ : Evolves h h') (h₂ : Evolves h' h'') :
    Evolves h h'' where
  nextId := h₁.nextId.trans h₂.nextId
  sessions := by
    intro u hu
    rcases h₂.sessions u hu with ⟨t, ht, htu⟩ | hnew
    · rcases h₁.sessions t ht with ⟨s, hs, hst⟩ | hnew
      · exact Or.inl ⟨s, hs, hst.trans htu⟩
      · exact Or.inr (htu.id ▸ hnew)
    · exact Or.inr (h₁.nextId.trans hnew)
  listed := fun id hlisted hid =>
    h₁.listed id (h₂.listed id hlisted (lt_of_lt_of_le hid h₁.nextId)) hid

lemma evolves_register (h : LinkHub) (now : Instant) (link : LinkView) :
    Evolves h (h.registerInboundLink now link) where
  nextId := by
    show h.links.nextId ≤ (h.links.noteInboundSeen now link).nextId + 1
    rw [noteInboundSeen_nextId]
    exact Nat.le_succ _
  sessions := by
    intro t ht
    rcases List.mem_append.mp ht with hold | hnew
    · exact Or.inl ⟨t, hold, Succeeds.refl t⟩
    · obtain rfl := List.mem_singleton.mp hnew
      exact Or.inr le_rfl
  listed := by
    intro id hlisted hid
    obtain ⟨entry, he, rfl⟩ := listed_iff.mp hlisted
    rcases mem_register_live.mp he with ⟨hold, -⟩ | rfl
    · exact listed_iff.mpr ⟨entry, hold, rfl⟩
    · exact absurd hid (lt_irrefl _)

/-- A change of one session, and no more than removals from the registry. -/
lemma evolves_modify (h : LinkHub) (id : ℕ) (links : InboundLinks)
    {f : InboundSession → InboundSession} (hf : ∀ s, Succeeds s (f s))
    (hnext : links.nextId = h.links.nextId) (hlive : links.live ⊆ h.links.live) :
    Evolves h { h.modify id f with links } where
  nextId := hnext.ge
  sessions := by
    intro t ht
    obtain ⟨s, hs, rfl⟩ := List.mem_map.mp ht
    refine Or.inl ⟨s, hs, ?_⟩
    split_ifs
    · exact hf s
    · exact Succeeds.refl s
  listed := by
    intro id hlisted _
    obtain ⟨entry, he, rfl⟩ := listed_iff.mp hlisted
    exact listed_iff.mpr ⟨entry, hlive he, rfl⟩

@[simp] lemma dropInboundLink_links (h : LinkHub) (fingerprintHex : String) :
    (h.dropInboundLink fingerprintHex).1.links = h.links := by
  unfold LinkHub.dropInboundLink
  split
  · rfl
  · split_ifs <;> rfl

@[simp] lemma dropGuard_nextId (h : LinkHub) (id : ℕ) :
    (h.dropGuard id).links.nextId = h.links.nextId := by
  unfold LinkHub.dropGuard
  split
  · rfl
  · split_ifs <;> rfl

lemma evolves_dropInboundLink (h : LinkHub) (fingerprintHex : String) :
    Evolves h (h.dropInboundLink fingerprintHex).1 := by
  unfold LinkHub.dropInboundLink
  split
  · exact Evolves.refl h
  · split_ifs
    · exact evolves_modify h _ _ (f := fun s => { s with dropTold := true })
        (fun s => ⟨rfl, rfl, fun _ => rfl, fun hended => hended⟩) rfl (List.Subset.refl _)
    · exact Evolves.refl h

/-- **What one step can do to the hub.** -/
lemma evolves_step (h : LinkHub) (op : Op) : Evolves h (h.step op).1 := by
  cases op with
  | register now link => exact evolves_register h now link
  | serve id =>
    refine evolves_modify h id _ (fun s => ?_) rfl (List.Subset.refl _)
    split_ifs with hphase
    · exact ⟨rfl, rfl, fun htold => htold, fun hended => by rw [hended] at hphase; cases hphase⟩
    · exact Succeeds.refl s
  | turn id dropArm breaks =>
    refine evolves_modify h id _ (fun s => ?_) rfl (List.Subset.refl _)
    by_cases hphase : s.phase = .serving ∧ (if dropArm then h.armReady s else breaks) = true
    · rw [if_pos hphase]
      exact ⟨rfl, rfl, fun htold => htold, fun hended => by rw [hended] at hphase; cases hphase.1⟩
    · rw [if_neg hphase]
      exact Succeeds.refl s
  | dropGuard id =>
    show Evolves h (h.dropGuard id)
    unfold LinkHub.dropGuard
    split
    · exact Evolves.refl h
    · split_ifs
      · exact evolves_modify h id (h.links.removeInboundLink _ id)
          (f := fun s => { s with phase := .ended })
          (fun s => ⟨rfl, rfl, fun htold => htold, fun _ => rfl⟩) rfl
          fun entry he => List.mem_of_mem_filter he
      · exact Evolves.refl h
  | dropInboundLink fingerprintHex => exact evolves_dropInboundLink h fingerprintHex

/-- The session that registered as `id`, if any, has its drop arm ready. -/
def ReadyAt (h : LinkHub) (id : ℕ) : Prop := ∀ s ∈ h.sessions, s.id = id → h.armReady s = true

lemma armReady_iff : h.armReady s = true ↔ s.dropTold = true ∨ h.listed s.id = false := by
  simp [armReady]

/-- **A drop arm that is ready stays so.** -/
lemma ReadyAt.evolves {h' : LinkHub} (hready : h.ReadyAt id) (hid : id < h.links.nextId)
    (he : Evolves h h') : h'.ReadyAt id := by
  rintro t ht rfl
  rcases he.sessions t ht with ⟨s, hs, hsucc⟩ | hnew
  · rw [armReady_iff]
    rcases armReady_iff.mp (hready s hs hsucc.id.symm) with htold | hgone
    · exact Or.inl (hsucc.told htold)
    · right
      rcases hlisted : h'.listed t.id with _ | _
      · rfl
      · rw [← hsucc.id, he.listed t.id hlisted hid] at hgone
        cases hgone
  · exact absurd hid (not_lt.mpr hnew)

/-- A hang-up leaves every session of its peer with its drop arm ready, whatever it answers. -/
lemma Inv.readyAt_of_dropped (hi : h.Inv) (hs : s ∈ h.sessions) :
    (h.dropInboundLink s.link.fingerprintHex).1.ReadyAt s.id := by
  have hself : ∀ entry, h.entryOf s.link.fingerprintHex = some entry → s.id ≠ entry.id →
      h.listed s.id = false := by
    intro entry hentry hne
    rcases hlisted : h.listed s.id with _ | _
    · rfl
    · -- Its own entry would be the one that was found.
      rw [hi.entryOf_of_listed hs hlisted] at hentry
      exact absurd (congrArg LiveLink.id (Option.some.inj hentry)) hne
  unfold LinkHub.dropInboundLink
  rcases hentry : h.entryOf s.link.fingerprintHex with _ | entry
  · intro t ht htid
    obtain rfl := hi.unique ht hs htid
    refine armReady_iff.mpr (Or.inr ?_)
    rcases hlisted : h.listed t.id with _ | _
    · rfl
    · rw [hi.entryOf_of_listed hs hlisted] at hentry
      cases hentry
  simp only
  obtain ⟨hmem, -⟩ := hi.entryOf_iff.mp hentry
  obtain ⟨host, hhost, hid, -, hlive⟩ := hi.hosts entry hmem
  have hreceiver : (h.sessions.any fun s => decide (s.id = entry.id ∧ s.phase ≠ .ended)) = true :=
    List.any_eq_true.mpr ⟨host, hhost, decide_eq_true ⟨hid, hlive⟩⟩
  rw [if_pos hreceiver]
  intro t ht htid
  obtain ⟨t', ht', rfl⟩ := List.mem_map.mp ht
  rw [armReady_iff]
  by_cases hfound : t'.id = entry.id
  · left
    rw [if_pos hfound]
  · right
    rw [if_neg hfound] at htid ⊢
    obtain rfl := hi.unique ht' hs htid
    exact hself entry hentry hfound

/-! ### Every run -/

lemma inv_after (ops : List Op) : (after ops).Inv :=
  Trace.always (I := fun _ (h : LinkHub) => h.Inv) inv_empty fun _ op hi => hi.step op

lemma after_snoc (ops : List Op) (op : Op) : after (ops ++ [op]) = ((after ops).step op).1 :=
  Trace.final_snoc step empty ops op

lemma evolves_later {m ops : List Op} (hm : m <+: ops) : Evolves (after m) (after ops) := by
  obtain ⟨rest, rfl⟩ := hm
  induction rest using List.reverseRecOn with
  | nil =>
    rw [List.append_nil]
    exact Evolves.refl _
  | append_singleton rest op ih =>
    rw [← List.append_assoc, after_snoc]
    exact ih.trans (evolves_step _ op)

/-- **Every live session can be hung up.** In every run of the registry and its sessions, a
session that has not ended is the entry stored under its peer or has its drop arm ready; once
`dropInboundLink` answered `true` for a peer, every session of that peer that had registered by
then has its drop arm ready, and keeps it; and no session that ended is listed. -/
theorem live_sessions_reachable (ops : List Op) :
    (∀ s ∈ (after ops).sessions, s.phase ≠ .ended →
      (after ops).entryOf s.link.fingerprintHex = some ⟨s.id, s.link⟩ ∨
        (after ops).armReady s = true) ∧
    (∀ m fingerprintHex, m ++ [.dropInboundLink fingerprintHex] <+: ops →
      ((after m).step (.dropInboundLink fingerprintHex)).2 = true →
        ∀ s ∈ (after ops).sessions, s.link.fingerprintHex = fingerprintHex →
          s.id ∈ (after m).sessions.map (·.id) → (after ops).armReady s = true) ∧
    ∀ s ∈ (after ops).sessions, s.phase = .ended → (after ops).listed s.id = false := by
  have hi := inv_after ops
  refine ⟨fun s hs hlive => ?_, fun m fingerprintHex hm _ s hs hpeer hid => ?_,
    fun s hs hended => hi.not_listed_of_ended hs hended⟩
  · rcases hlisted : (after ops).listed s.id with _ | _
    · exact Or.inr (armReady_iff.mpr (Or.inr hlisted))
    · exact Or.inl (hi.entryOf_of_listed hs hlisted)
  · obtain ⟨s₁, hs₁, hid₁⟩ := List.mem_map.mp hid
    have hi₁ := inv_after m
    have hlt : s.id < (after m).links.nextId := hid₁ ▸ hi₁.lt hs₁
    rcases (evolves_later (Trace.earlier hm)).sessions s hs with ⟨s₀, hs₀, hsucc⟩ | hnew
    · have hpeer₀ : s₀.link.fingerprintHex = fingerprintHex := hsucc.link ▸ hpeer
      have hready := hi₁.readyAt_of_dropped hs₀
      rw [hpeer₀, ← hsucc.id] at hready
      have hready' : (after (m ++ [.dropInboundLink fingerprintHex])).ReadyAt s.id := by
        rw [after_snoc]
        exact hready
      refine hready'.evolves ?_ (evolves_later hm) s hs rfl
      rw [after_snoc]
      exact lt_of_lt_of_le hlt (evolves_step _ _).nextId
    · exact absurd hlt (not_lt.mpr hnew)

end LinkHub

end TheKvm
