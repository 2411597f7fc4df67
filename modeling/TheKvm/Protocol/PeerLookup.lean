import TheKvm.Protocol.PeerBook

/-!
What a book pins after a run of calls.

The last decision on a fingerprint stands, in whatever spelling it came.
-/

namespace TheKvm

/-! ### What a run should do -/

/-- What a call that succeeds says of a fingerprint: it is pinned, or it is not. -/
def BookCall.decides (f : String) : BookCall → Option Bool
  | .pin _ fingerprintHex | .pinWithAddress _ fingerprintHex _ =>
    if identity fingerprintHex = identity f then some true else none
  | .unpin fingerprintHex => if identity fingerprintHex = identity f then some false else none
  | .loadOrCreate => none

/-- What the last successful call that was about a fingerprint said of it. -/
def lastDecision (f : String) (calls : List (BookEvent × BookResult Unit)) : Option Bool :=
  calls.foldl (fun last call =>
    match call.2 with
    | .ok () => (call.1.call.decides f).or last
    | .error _ => last) none

namespace PeerBook

/-- The book after some calls. -/
def after (serde : SerdePeers) (b : PeerBook) (l : List BookEvent) : PeerBook :=
  Trace.final (step serde) b l

/-- The calls and what came of them. -/
def history (serde : SerdePeers) (b : PeerBook) (l : List BookEvent) :
    List (BookEvent × BookResult Unit) := l.zip (Trace.outputs (step serde) b l)

/-- What is pinned is what the last decision on it said, or else what was pinned at the start. -/
def LooksUp (serde : SerdePeers) (b : PeerBook) (l : List BookEvent) : Prop :=
  ∀ f, isPinned (b.after serde l).peers f =
    (lastDecision f (b.history serde l)).getD (isPinned b.peers f)

/-- The list is valid, so it passes the checks, and there is a list to load. -/
def Kept (serde : SerdePeers) (b : PeerBook) : Prop :=
  ValidPeers b.peers ∧ (∀ kind, normalizeAndValidatePeers b.peers kind = .ok b.peers) ∧
    ∃ peers, loadOrCreate serde .works b.file = .ok peers

/-- A call that adds or removes a peer is saved, and none unpins a fingerprint in a spelling that
only `is_pinned` knows. -/
def Decisive (b : PeerBook) (event : BookEvent) : Prop :=
  match event.call with
  | .loadOrCreate => True
  | .pin _ fingerprintHex | .pinWithAddress _ fingerprintHex _ =>
    event.call.refused b.peers = true ∨
      isPinned b.peers (Text.toAsciiLowercase fingerprintHex) = true ∨ event.disk.saves = true
  | .unpin fingerprintHex =>
    if event.call.next b.peers = b.peers then isPinned b.peers fingerprintHex = false
    else event.disk.saves = true

end PeerBook

/-! ### Lookups after one call -/

section

variable {serde : SerdePeers} {disk : Disk} {b : PeerBook} {peers : List Peer}
  {name fingerprintHex : String} {address : Option String}

/-- A pin that goes ahead names the fingerprint as it is looked up. -/
lemma identity_of_pin
    (hgo : BookCall.refused.refusedPin peers name fingerprintHex address = false) :
    identity fingerprintHex = Text.toAsciiLowercase fingerprintHex := by
  have hdigits := validatePeerFields_hexdigits (refusedPin_eq_false hgo).1
  rw [identity, (Text.hexdigits_toAsciiLowercase hdigits).2]

/-- An unpin that finds a peer does, too. -/
lemma identity_of_mem (hvalid : ValidPeers peers)
    (hmem : Text.toAsciiLowercase fingerprintHex ∈ peers.map Peer.fingerprintHex) :
    identity fingerprintHex = Text.toAsciiLowercase fingerprintHex := by
  obtain ⟨peer, hpeer, hfp⟩ := List.mem_map.mp hmem
  have hdigits : (Text.toAsciiLowercase fingerprintHex).toList.all Text.isAsciiHexdigit = true := by
    rw [← hfp]
    exact validatePeerFields_hexdigits ((hvalid.each peer hpeer).accepted .invalidInput)
  rw [identity, (Text.hexdigits_toAsciiLowercase hdigits).2]

/-- Both spellings of a pin are looked up alike. -/
lemma identity_toAsciiLowercase
    (hgo : BookCall.refused.refusedPin peers name fingerprintHex address = false) :
    identity (Text.toAsciiLowercase fingerprintHex) = identity fingerprintHex := by
  have hnew := valid_of_accepted (refusedPin_eq_false hgo).1
  rw [identity_of_pin hgo, identity_hexdigits hnew.fingerprint]

lemma isPinned_congr {f g : String} (h : identity f = identity g) :
    isPinned peers f = isPinned peers g := by
  rw [Bool.eq_iff_iff, isPinned_iff, isPinned_iff, h]

lemma isPinned_nextPin
    (hgo : BookCall.refused.refusedPin peers name fingerprintHex address = false) (f : String) :
    isPinned (BookCall.next.nextPin peers name fingerprintHex address) f = true ↔
      identity fingerprintHex = identity f ∨ isPinned peers f = true := by
  have hnew := valid_of_accepted (refusedPin_eq_false hgo).1
  have hpinned : isPinned peers (Text.toAsciiLowercase fingerprintHex) = true ↔ _ :=
    isPinned_hexdigits hnew.fingerprint
  rw [identity_of_pin hgo, isPinned_iff, isPinned_iff, BookCall.next.nextPin]
  split_ifs with hknown
  · rw [map_updatePeer]
    refine ⟨Or.inr, ?_⟩
    rintro (heq | h)
    · exact heq ▸ hpinned.mp hknown
    · exact h
  · rw [List.map_append, List.mem_append, List.map_singleton, List.mem_singleton, or_comm]
    exact or_congr_left eq_comm

lemma isPinned_nextUnpin (f : String) :
    isPinned ((BookCall.unpin fingerprintHex).next peers) f = true ↔
      isPinned peers f = true ∧ identity f ≠ Text.toAsciiLowercase fingerprintHex := by
  rw [isPinned_iff, isPinned_iff, BookCall.next, List.mem_map, List.mem_map]
  simp only [List.mem_filter, bne_iff_ne]
  constructor
  · rintro ⟨peer, ⟨hpeer, hne⟩, hfp⟩
    exact ⟨⟨peer, hpeer, hfp⟩, hfp ▸ hne⟩
  · rintro ⟨⟨peer, hpeer, hfp⟩, hne⟩
    exact ⟨peer, ⟨hpeer, hfp ▸ hne⟩, hfp⟩

/-- An unpin that changes the list finds a peer. -/
lemma mem_of_nextUnpin_ne (h : (BookCall.unpin fingerprintHex).next peers ≠ peers) :
    Text.toAsciiLowercase fingerprintHex ∈ peers.map Peer.fingerprintHex := by
  by_contra hmem
  refine h (List.filter_eq_self.mpr fun peer hpeer => ?_)
  rw [bne_iff_ne]
  intro heq
  exact hmem (heq ▸ List.mem_map_of_mem hpeer)

/-- What a call leaves pinned is what it says it does. -/
def PeerBook.Obeys (serde : SerdePeers) (b : PeerBook) (event : BookEvent) : Prop :=
  ∀ f, isPinned (b.step serde event).1.peers f =
    match (b.step serde event).2 with
    | .ok () => (event.call.decides f).getD (isPinned b.peers f)
    | .error _ => isPinned b.peers f

/-- A pin obeys if it is turned down, known or saved. -/
lemma PeerBook.obeys_pin {event : BookEvent} (name fingerprintHex : String)
    (address : Option String) (hvalid : ValidPeers b.peers)
    (hserde : serde.Keeps (event.call.next b.peers)) (hload : event.call ≠ .loadOrCreate)
    (hrefused : event.call.refused b.peers =
      BookCall.refused.refusedPin b.peers name fingerprintHex address)
    (hnext : event.call.next b.peers =
      BookCall.next.nextPin b.peers name fingerprintHex address)
    (hdecides : ∀ f, event.call.decides f =
      if identity fingerprintHex = identity f then some true else none) :
    b.Obeys serde event ↔ event.call.refused b.peers = true ∨
      isPinned b.peers (Text.toAsciiLowercase fingerprintHex) = true ∨
        event.disk.saves = true := by
  unfold PeerBook.Obeys
  rcases PeerBook.step_outcomes hvalid hserde hload with ⟨href, e, hstep⟩ | ⟨hgo, houtcome⟩
  · rw [hstep]
    exact iff_of_true (fun _ => rfl) (Or.inl href)
  · have hpin := hrefused ▸ hgo
    have hlookup := isPinned_nextPin hpin
    rw [← hnext] at hlookup
    have hself : isPinned (event.call.next b.peers) (Text.toAsciiLowercase fingerprintHex) =
        true := by
      rw [hlookup]
      exact Or.inl (identity_toAsciiLowercase hpin).symm
    have hpinned : ∀ f, isPinned (event.call.next b.peers) f =
        (event.call.decides f).getD (isPinned b.peers f) := by
      intro f
      rw [Bool.eq_iff_iff, hlookup, hdecides]
      split_ifs with h
      · exact iff_of_true (Or.inl h) rfl
      · exact or_iff_right h
    rw [or_iff_right (by rw [hgo]; exact Bool.false_ne_true)]
    rcases houtcome with ⟨hsame, hstep⟩ | ⟨-, ⟨hok, file, hstep, -⟩ | ⟨hfail, e, hstep⟩⟩
    · rw [hsame] at hpinned hself
      rw [hstep]
      exact iff_of_true hpinned (Or.inl hself)
    · rw [hstep]
      exact iff_of_true hpinned (Or.inr hok)
    · rw [hstep, hfail, or_iff_left Bool.false_ne_true]
      constructor
      · intro h
        exact (h _).symm.trans hself
      · intro hknown f
        rw [Bool.eq_iff_iff, hlookup]
        refine or_iff_right_of_imp fun heq => ?_
        rw [← isPinned_congr ((identity_toAsciiLowercase hpin).trans heq)]
        exact hknown

/-- An unpin obeys if it finds its peer and is saved, or has none to find. -/
lemma PeerBook.obeys_unpin (hvalid : ValidPeers b.peers)
    (hserde : serde.Keeps ((BookCall.unpin fingerprintHex).next b.peers)) :
    b.Obeys serde ⟨.unpin fingerprintHex, disk⟩ ↔
      if (BookCall.unpin fingerprintHex).next b.peers = b.peers then
        isPinned b.peers fingerprintHex = false
      else disk.saves = true := by
  unfold PeerBook.Obeys
  have hserde : serde.Keeps ((⟨.unpin fingerprintHex, disk⟩ : BookEvent).call.next b.peers) :=
    hserde
  rcases PeerBook.step_outcomes hvalid hserde nofun with ⟨href, -⟩ |
    ⟨-, ⟨hsame, hstep⟩ | ⟨hnew, hsave⟩⟩
  · cases href
  · rw [hstep, if_pos hsame]
    constructor
    · intro h
      have hself := h fingerprintHex
      simp only [BookCall.decides, if_pos] at hself
      exact hself
    · intro h f
      simp only [BookCall.decides]
      split_ifs with heq
      · rw [← isPinned_congr heq, h]
        rfl
      · rfl
  · have hmem := mem_of_nextUnpin_ne hnew
    have hid := identity_of_mem hvalid hmem
    rw [if_neg hnew]
    rcases hsave with ⟨hok, file, hstep, -⟩ | ⟨hfail, e, hstep⟩
    · rw [hstep]
      refine iff_of_true (fun f => ?_) hok
      simp only [BookCall.decides]
      rw [Bool.eq_iff_iff, isPinned_nextUnpin, hid]
      split_ifs with heq
      · exact iff_of_false (fun h => h.2 heq.symm) Bool.false_ne_true
      · exact and_iff_left fun h => heq h.symm
    · have hfail : disk.saves = false := hfail
      rw [hstep, hfail]
      refine iff_of_false (fun h => ?_) Bool.false_ne_true
      have hgone := h fingerprintHex
      have hpinned : isPinned b.peers fingerprintHex = true := by
        rw [isPinned_iff, hid]
        exact hmem
      exact ((isPinned_nextUnpin fingerprintHex).mp (hgone.trans hpinned)).2 hid

/-- The file has the same peers as the list, under whatever names. -/
def PeerBook.Mirrors (serde : SerdePeers) (b : PeerBook) : Prop :=
  ∃ peers, loadOrCreate serde .works b.file = .ok peers ∧
    ∀ f, isPinned peers f = isPinned b.peers f

lemma PeerBook.obeys_iff_decisive {event : BookEvent} (hvalid : ValidPeers b.peers)
    (hserde : serde.Keeps (event.call.next b.peers)) (hfile : b.Mirrors serde) :
    b.Obeys serde event ↔ b.Decisive event := by
  obtain ⟨call, disk⟩ := event
  cases call with
  | loadOrCreate =>
    refine iff_of_true ?_ trivial
    intro f
    obtain ⟨listed, hlisted, hsame⟩ := hfile
    rcases b.load_cases serde ⟨_, disk⟩ rfl with ⟨e, hstep⟩ | ⟨peers, hloaded, hstep⟩
    · rw [hstep]
    · obtain rfl := Except.ok.inj (hlisted.symm.trans (loadOrCreate_ok hloaded).2)
      rw [hstep]
      exact hsame f
  | pin name fingerprintHex =>
    exact PeerBook.obeys_pin name fingerprintHex none hvalid hserde nofun rfl rfl fun _ => rfl
  | pinWithAddress name fingerprintHex address =>
    exact PeerBook.obeys_pin name fingerprintHex address hvalid hserde nofun rfl rfl fun _ => rfl
  | unpin fingerprintHex => exact PeerBook.obeys_unpin hvalid hserde

/-! ### Runs -/

lemma PeerBook.Kept.step {event : BookEvent} (h : b.Kept serde)
    (hserde : serde.Keeps (event.call.next b.peers)) : (b.step serde event).1.Kept serde := by
  obtain ⟨hvalid, -, hfile⟩ := h
  suffices hnext : ValidPeers (b.step serde event).1.peers ∧
      ∃ peers, loadOrCreate serde .works (b.step serde event).1.file = .ok peers from
    ⟨hnext.1, hnext.1.normalize, hnext.2⟩
  by_cases hload : event.call = .loadOrCreate
  · rcases b.load_cases serde event hload with ⟨e, hstep⟩ | ⟨peers, hloaded, hstep⟩
    · rw [hstep]
      exact ⟨hvalid, hfile⟩
    · rw [hstep]
      exact ⟨(loadOrCreate_ok hloaded).1, hfile⟩
  · rcases PeerBook.step_outcomes hvalid hserde hload with ⟨-, e, hstep⟩ |
      ⟨hgo, ⟨-, hstep⟩ | ⟨-, ⟨-, file, hstep, hread⟩ | ⟨-, e, hstep⟩⟩⟩
    · rw [hstep]
      exact ⟨hvalid, hfile⟩
    · rw [hstep]
      exact ⟨hvalid, hfile⟩
    · rw [hstep]
      exact ⟨hvalid.next hgo, _, hread⟩
    · rw [hstep]
      exact ⟨hvalid.next hgo, hfile⟩

lemma PeerBook.Mirrors.step {event : BookEvent} (h : b.Mirrors serde)
    (hvalid : ValidPeers b.peers) (hserde : serde.Keeps (event.call.next b.peers))
    (hobeys : b.Obeys serde event) : (b.step serde event).1.Mirrors serde := by
  have hmirrors := h
  obtain ⟨listed, hlisted, hsame⟩ := h
  by_cases hload : event.call = .loadOrCreate
  · rcases b.load_cases serde event hload with ⟨e, hstep⟩ | ⟨peers, hloaded, hstep⟩
    · rw [hstep]
      exact hmirrors
    · rw [hstep]
      exact ⟨peers, (loadOrCreate_ok hloaded).2, fun _ => rfl⟩
  · unfold PeerBook.Obeys at hobeys
    rcases PeerBook.step_outcomes hvalid hserde hload with ⟨-, e, hstep⟩ |
      ⟨-, ⟨-, hstep⟩ | ⟨-, ⟨-, file, hstep, hread⟩ | ⟨-, e, hstep⟩⟩⟩
    · rw [hstep]
      exact hmirrors
    · rw [hstep]
      exact hmirrors
    · rw [hstep]
      exact ⟨_, hread, fun _ => rfl⟩
    · rw [hstep] at hobeys ⊢
      exact ⟨listed, hlisted, fun f => (hsame f).trans (hobeys f).symm⟩

lemma PeerBook.history_snoc (serde : SerdePeers) (b : PeerBook) (m : List BookEvent)
    (event : BookEvent) :
    b.history serde (m ++ [event]) =
      b.history serde m ++ [(event, ((b.after serde m).step serde event).2)] := by
  rw [history, history, Trace.outputs_snoc, List.zip_append (Trace.length_outputs _ _ _).symm]
  rfl

/-- One more call goes on from what was pinned before. -/
lemma PeerBook.looksUp_snoc {m : List BookEvent} {event : BookEvent} (h : b.LooksUp serde m) :
    b.LooksUp serde (m ++ [event]) ↔ (b.after serde m).Obeys serde event := by
  refine forall_congr' fun f => ?_
  rw [history_snoc, lastDecision, List.foldl_append, ← lastDecision, after, Trace.final_snoc,
    ← after, h f]
  cases hresult : ((b.after serde m).step serde event).2 with
  | error e => simp only [List.foldl_cons, List.foldl_nil]
  | ok u =>
    simp only [List.foldl_cons, List.foldl_nil]
    cases event.call.decides f with
    | none => exact Iff.rfl
    | some pinned => exact Iff.rfl

/-- **What the book pins**. In every run from a book that was loaded, the list stays valid, passes
the checks as it is, and can be loaded again; and it pins what was last decided, all along,
exactly if every call that adds or removes a peer is saved and no unpin is given a pinned
fingerprint in a spelling it does not find. -/
theorem PeerBook.lookups_iff_decisive {l : List BookEvent}
    (hloaded : loadOrCreate serde disk b.file = .ok b.peers)
    (hserde : ∀ m event, m ++ [event] <+: l →
      serde.Keeps (event.call.next (b.after serde m).peers)) :
    (∀ m, m <+: l → (b.after serde m).Kept serde) ∧
      (Trace.Each (fun m event => (b.after serde m).Decisive event) l ↔
        ∀ m, m <+: l → b.LooksUp serde m) := by
  obtain ⟨hvalid, hfile⟩ := loadOrCreate_ok hloaded
  have hkept : ∀ m, m <+: l → (b.after serde m).Kept serde := by
    intro m hm
    refine Trace.invariant (I := fun _ (b : PeerBook) => b.Kept serde)
      ⟨hvalid, hvalid.normalize, _, hfile⟩ (fun _ _ h hkeeps => h.step hkeeps)
      (fun k event hk => hserde k event (hk.trans hm))
  refine ⟨hkept, Trace.each_iff (fun f => rfl) fun m event hm hdecisive hlooks => ?_⟩
  have hbefore : m <+: l := Trace.earlier hm
  have hmirrors : ∀ k, k <+: m → (b.after serde k).Mirrors serde := by
    intro k hk
    induction k using List.reverseRecOn with
    | nil => exact ⟨_, hfile, fun _ => rfl⟩
    | append_singleton k e ih =>
      have hpre : k <+: m := Trace.earlier hk
      have hkeeps := hserde k e (hk.trans hbefore)
      have hvalid := (hkept k (hpre.trans hbefore)).1
      rw [after, Trace.final_snoc]
      exact (ih hpre).step hvalid hkeeps
        ((obeys_iff_decisive hvalid hkeeps (ih hpre)).mpr (hdecisive k e hk))
  rw [looksUp_snoc (hlooks m (by rfl))]
  exact obeys_iff_decisive (hkept m hbefore).1 (hserde m event hm) (hmirrors m (by rfl))

end

/-! ### One peer -/

lemma officePeer_isPinned : isPinned [officePeer] officeFingerprint = true :=
  (isPinned_hexdigits officeFingerprint_hexdigits).mpr List.mem_cons_self

/-- With a space in front the fingerprint is looked up, and no peer has it. -/
lemma spaced_officeFingerprint :
    identity (" " ++ officeFingerprint) = identity officeFingerprint ∧
      Text.toAsciiLowercase (" " ++ officeFingerprint) ≠ officeFingerprint := by
  have hchars : (" " ++ officeFingerprint).toList = ' ' :: officeFingerprint.toList := by
    rw [String.toList_append]
    rfl
  constructor
  · rw [identity, identity, Text.trim, hchars, List.dropWhile_cons_of_pos rfl, Text.trim]
  · intro h
    have hspace : ' ' ∈ officeFingerprint.toList := by
      rw [← h, Text.toAsciiLowercase, hchars, String.toList_ofList]
      exact List.mem_cons_self
    have hdigit := officeFingerprint_hexdigits ' ' hspace
    cases hdigit

/-- So an unpin of it succeeds, and nothing is done. -/
lemma PeerBook.spaced_unpin (file : Option (List UInt8)) :
    PeerBook.step officeSerde ⟨[officePeer], file⟩
      ⟨.unpin (" " ++ officeFingerprint), .works⟩ = (⟨[officePeer], file⟩, .ok ()) := by
  have hnext : (BookCall.unpin (" " ++ officeFingerprint)).next [officePeer] = [officePeer] := by
    by_contra hne
    have hmem := mem_of_nextUnpin_ne hne
    rw [List.map_singleton, List.mem_singleton] at hmem
    exact spaced_officeFingerprint.2 hmem
  rcases PeerBook.step_cases officeSerde ⟨[officePeer], file⟩
    ⟨.unpin (" " ++ officeFingerprint), .works⟩ nofun with ⟨hrefused, -⟩ | ⟨-, hstep⟩
  · cases hrefused
  · rw [hstep, if_pos hnext]

theorem PeerBook.lookups_pin :
    (PeerBook.empty.after officeSerde [⟨pinOffice, .works⟩]).Kept officeSerde ∧
      PeerBook.empty.LooksUp officeSerde [⟨pinOffice, .works⟩] := by
  obtain ⟨hkept, hlookups⟩ := PeerBook.lookups_iff_decisive (l := [⟨pinOffice, .works⟩])
    empty_loaded (Trace.each_singleton.mpr keeps_pinOffice)
  refine ⟨hkept _ (List.prefix_refl _), hlookups.mp ?_ _ (List.prefix_refl _)⟩
  exact Trace.each_singleton.mpr (Or.inr (Or.inr rfl))

/-- A pin that could not be saved leaves the peer pinned, and so does an unpin that succeeds. -/
theorem PeerBook.lookups_astray :
    loadOrCreate officeSerde .works PeerBook.empty.file = .ok PeerBook.empty.peers ∧
      ¬PeerBook.empty.LooksUp officeSerde [⟨pinOffice, .full⟩] ∧
      ¬PeerBook.empty.LooksUp officeSerde
        [⟨pinOffice, .works⟩, ⟨.unpin (" " ++ officeFingerprint), .works⟩] := by
  have hfirst : PeerBook.empty.LooksUp officeSerde [] := fun _ => rfl
  refine ⟨empty_loaded, fun h => ?_, fun h => ?_⟩
  · have hobeys : PeerBook.empty.Obeys officeSerde ⟨pinOffice, .full⟩ :=
      (looksUp_snoc (m := []) hfirst).mp h
    rcases PeerBook.pinOffice_step .full with ⟨hok, -⟩ | ⟨-, e, hstep⟩
    · cases hok
    · have hlookup := hobeys officeFingerprint
      rw [hstep, officePeer_isPinned] at hlookup
      cases hlookup
  · have hpin : PeerBook.empty.Obeys officeSerde ⟨pinOffice, .works⟩ ↔ _ :=
      obeys_iff_decisive empty_valid keeps_pinOffice
        ⟨_, empty_loaded, fun _ => rfl⟩
    have hone : PeerBook.empty.LooksUp officeSerde [⟨pinOffice, .works⟩] :=
      (looksUp_snoc (m := []) hfirst).mpr (hpin.mpr (Or.inr (Or.inr rfl)))
    have hobeys : (PeerBook.empty.after officeSerde [⟨pinOffice, .works⟩]).Obeys officeSerde
        ⟨.unpin (" " ++ officeFingerprint), .works⟩ := (looksUp_snoc (m := [_]) hone).mp h
    rcases PeerBook.pinOffice_step .works with ⟨-, file, hstep⟩ | ⟨hfail, -⟩
    · have hlookup := hobeys officeFingerprint
      rw [after, Trace.final_cons, Trace.final_nil, hstep, spaced_unpin, officePeer_isPinned,
        BookCall.decides, if_pos spaced_officeFingerprint.1] at hlookup
      cases hlookup
    · cases hfail

end TheKvm
