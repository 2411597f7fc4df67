import Mathlib.Data.String.Basic
import TheKvm.Lib.Text
import TheKvm.Protocol.Datagram

/-!
Packets of the UDP motion path, under a key that both ends of a link derive.

The hash and the cipher are parameters. A packet names neither its sender nor its direction.
-/

namespace TheKvm

/-- `b"THEKVMU1"`. -/
def udpMagic : List UInt8 := [84, 72, 69, 75, 86, 77, 85, 49]

def udpVersion : UInt8 := 1
def kindReliable : UInt8 := 0
def kindMotion : UInt8 := 1
def kindAck : UInt8 := 2

def nonceLen : ℕ := 12
def headerLen : ℕ := 8 + nonceLen
def tagLen : ℕ := 16

/-- `nonce_bytes`. -/
abbrev Nonce := { nonce : List UInt8 // nonce.length = nonceLen }

def Nonce.fill (byte : UInt8) : Nonce := ⟨List.replicate nonceLen byte, List.length_replicate⟩

/-! ### Keys -/

/-- `normalize`: trimmed, in ASCII lower case. -/
def normalizeFingerprint (value : String) : String := Text.toAsciiLowercase (Text.trim value)

/-- The two fingerprints of a link, in order. -/
def orderFingerprints (localHex peerHex : String) : String × String :=
  let localHex := normalizeFingerprint localHex
  let peerHex := normalizeFingerprint peerHex
  if localHex ≤ peerHex then (localHex, peerHex) else (peerHex, localHex)

/-- What is hashed to the key of a link: `b"thekvm-udp-v1"`, the fingerprints, the epoch. -/
def udpKeyMaterial (localHex peerHex : String) (linkId : UInt64) : List UInt8 :=
  let (first, second) := orderFingerprints localHex peerHex
  Text.utf8 "thekvm-udp-v1".toList ++ Text.utf8 first.toList ++ [0] ++ Text.utf8 second.toList ++
    [0] ++ Bytes.ofUInt64 linkId

/-- `fingerprint_hex` of an identity. -/
structure Fingerprint where
  hex : String
  length : hex.toList.length = 64
  digits : ∀ c ∈ hex.toList, Text.isLowerHexdigit c = true
  deriving DecidableEq

variable {Key : Type}

def deriveUdpKey (sha256 : List UInt8 → Key) (localHex peerHex : String) (linkId : UInt64) : Key :=
  sha256 (udpKeyMaterial localHex peerHex linkId)

/-! ### Packets -/

/-- `ChaCha20Poly1305`, without associated data. -/
structure Aead (Key : Type) where
  encrypt : Key → List UInt8 → List UInt8 → List UInt8
  decrypt : Key → List UInt8 → List UInt8 → Option (List UInt8)

/-- What was encrypted is decrypted under its key and nonce, and carries a tag. -/
structure Aead.Lawful (aead : Aead Key) : Prop where
  decrypt_encrypt : ∀ key nonce plaintext,
    aead.decrypt key nonce (aead.encrypt key nonce plaintext) = some plaintext
  length_encrypt : ∀ key nonce plaintext,
    (aead.encrypt key nonce plaintext).length = plaintext.length + tagLen

/-- What was encrypted under a key is not authentic under another. -/
def Aead.KeyBound (aead : Aead Key) : Prop :=
  ∀ key key' nonce plaintext, key' ≠ key →
    aead.decrypt key' nonce (aead.encrypt key nonce plaintext) = none

/-- One packet, under the nonce drawn for it. -/
def encodePacket (aead : Aead Key) (nonce : List UInt8) (key : Key) (kind : UInt8) (seq : UInt64)
    (body : List UInt8) : List UInt8 :=
  udpMagic ++ nonce ++
    aead.encrypt key nonce ([udpVersion, kind] ++ Bytes.ofUInt64 seq ++ body)

/-- The first key that decrypts decides. -/
def decodeWith (aead : Aead Key) (nonce ciphertext : List UInt8) :
    ℕ → List Key → Except String (ℕ × UInt8 × UInt64 × List UInt8)
  | _, [] => .error "decrypt failed for all keys"
  | index, key :: keys =>
    match aead.decrypt key nonce ciphertext with
    | none => decodeWith aead nonce ciphertext (index + 1) keys
    | some buffer =>
      if buffer.length < 10 then .error "plaintext too short"
      else if buffer.head? ≠ some udpVersion then .error "unsupported udp version"
      else
        let kind := buffer.getD 1 0
        if kind ≠ kindReliable ∧ kind ≠ kindMotion ∧ kind ≠ kindAck then
          .error "unknown packet kind"
        else .ok (index, kind, Bytes.readU64 (Bytes.slice buffer 2 10), buffer.drop 10)

def decodePacket (aead : Aead Key) (keys : List Key) (datagram : List UInt8) :
    Except String (ℕ × UInt8 × UInt64 × List UInt8) :=
  if datagram.length < headerLen + 1 + 1 + 8 + tagLen then .error "datagram too short"
  else if datagram.take 8 ≠ udpMagic then .error "bad magic"
  else decodeWith aead (Bytes.slice datagram 8 headerLen) (datagram.drop headerLen) 0 keys

/-- `expect("mouse motion always fits the datagram codec")` is the error. -/
def encodeMotionPacket (aead : Aead Key) (nonce : List UInt8) (key : Key) (seq : UInt64)
    (dx dy : Int32) : IoResult (List UInt8) :=
  (encodeInputDatagram ⟨seq, .mouseMove dx dy⟩).map (encodePacket aead nonce key kindMotion seq)

def decodeMotionPacket (aead : Aead Key) (keys : List Key) (datagram : List UInt8) :
    Except String (ℕ × UInt64 × Int32 × Int32) :=
  match decodePacket aead keys datagram with
  | .error error => .error error
  | .ok (index, kind, seq, body) =>
    if kind ≠ kindMotion then .error "not a motion packet"
    else match decodeInputDatagram body with
    | .error error => .error error.message
    | .ok input =>
      match input.event with
      | .mouseMove dx dy =>
        if input.sequence ≠ seq then .error "motion sequence mismatch"
        else .ok (index, seq, dx, dy)
      | _ => .error "motion packet carries non-motion event"

/-! ### One key for both directions -/

lemma udpKeyMaterial_comm (a b : String) (linkId : UInt64) :
    udpKeyMaterial a b linkId = udpKeyMaterial b a linkId := by
  have horder : orderFingerprints a b = orderFingerprints b a := by
    simp only [orderFingerprints]
    rcases le_total (normalizeFingerprint a) (normalizeFingerprint b) with h | h
    · by_cases h' : normalizeFingerprint b ≤ normalizeFingerprint a
      · rw [if_pos h, if_pos h', le_antisymm h h']
      · rw [if_pos h, if_neg h']
    · by_cases h' : normalizeFingerprint a ≤ normalizeFingerprint b
      · rw [if_pos h, if_pos h', le_antisymm h h']
      · rw [if_neg h', if_pos h]
  rw [udpKeyMaterial, udpKeyMaterial, horder]

/-- Either side derives the key of the link. -/
lemma deriveUdpKey_comm (sha256 : List UInt8 → Key) (a b : String) (linkId : UInt64) :
    deriveUdpKey sha256 a b linkId = deriveUdpKey sha256 b a linkId :=
  congrArg sha256 (udpKeyMaterial_comm a b linkId)

namespace Fingerprint

lemma hex_injective : Function.Injective hex := by
  rintro ⟨a, _, _⟩ ⟨b, _, _⟩ h
  obtain rfl : a = b := h
  rfl

lemma normalizeFingerprint_hex (a : Fingerprint) : normalizeFingerprint a.hex = a.hex := by
  rw [normalizeFingerprint, Text.trim_hexdigits a.digits, Text.toAsciiLowercase_eq_self a.digits]

lemma length_utf8 (a : Fingerprint) : (Text.utf8 a.hex.toList).length = 64 := by
  have hascii : ∀ c ∈ a.hex.toList, c.toNat < 0x80 := by
    intro c hc
    have hdigit := a.digits c hc
    simp only [Text.isLowerHexdigit, Bool.or_eq_true, Bool.and_eq_true, decide_eq_true_eq] at hdigit
    omega
  rw [Text.length_utf8, Text.utf8Len_ascii hascii, a.length]

lemma utf8_injective : Function.Injective fun a : Fingerprint => Text.utf8 a.hex.toList :=
  fun _ _ h => hex_injective (String.toList_inj.mp (Text.utf8_injective h))

/-- The key material of a link names its two ends in one of the two orders. -/
lemma udpKeyMaterial_eq (a b : Fingerprint) (linkId : UInt64) :
    ∃ first second : Fingerprint, (first = a ∧ second = b ∨ first = b ∧ second = a) ∧
      udpKeyMaterial a.hex b.hex linkId =
        Text.utf8 "thekvm-udp-v1".toList ++ Text.utf8 first.hex.toList ++ [0] ++
          Text.utf8 second.hex.toList ++ [0] ++ Bytes.ofUInt64 linkId := by
  rw [udpKeyMaterial, orderFingerprints]
  simp only [normalizeFingerprint_hex]
  split_ifs
  · exact ⟨a, b, Or.inl ⟨rfl, rfl⟩, rfl⟩
  · exact ⟨b, a, Or.inr ⟨rfl, rfl⟩, rfl⟩

/-- It is the key material of no other link. -/
lemma udpKeyMaterial_inj {a b c d : Fingerprint} {linkId linkId' : UInt64}
    (h : udpKeyMaterial a.hex b.hex linkId = udpKeyMaterial c.hex d.hex linkId') :
    linkId = linkId' ∧ (a = c ∧ b = d ∨ a = d ∧ b = c) := by
  obtain ⟨x, y, hxy, hab⟩ := udpKeyMaterial_eq a b linkId
  obtain ⟨z, w, hzw, hcd⟩ := udpKeyMaterial_eq c d linkId'
  rw [hab, hcd] at h
  obtain ⟨h, hlink⟩ := List.append_inj' h (by simp)
  obtain ⟨h, -⟩ := List.append_inj' h rfl
  obtain ⟨h, hsecond⟩ := List.append_inj' h (by rw [length_utf8, length_utf8])
  obtain ⟨h, -⟩ := List.append_inj' h rfl
  obtain ⟨-, hfirst⟩ := List.append_inj' h (by rw [length_utf8, length_utf8])
  obtain rfl := utf8_injective hfirst
  obtain rfl := utf8_injective hsecond
  refine ⟨?_, ?_⟩
  · rw [← Bytes.readU64_ofUInt64 linkId, hlink, Bytes.readU64_ofUInt64]
  · rcases hxy with ⟨rfl, rfl⟩ | ⟨rfl, rfl⟩
    · rcases hzw with ⟨rfl, rfl⟩ | ⟨rfl, rfl⟩
      · exact Or.inl ⟨rfl, rfl⟩
      · exact Or.inr ⟨rfl, rfl⟩
    · rcases hzw with ⟨rfl, rfl⟩ | ⟨rfl, rfl⟩
      · exact Or.inr ⟨rfl, rfl⟩
      · exact Or.inl ⟨rfl, rfl⟩

end Fingerprint

variable {aead : Aead Key} {keys : List Key} {key : Key} {nonce datagram : List UInt8}

/-! ### What is authentic -/

/-- The key that decrypts would do alone. -/
lemma decodeWith_single {ciphertext : List UInt8} {index : ℕ}
    {result : ℕ × UInt8 × UInt64 × List UInt8}
    (h : decodeWith aead nonce ciphertext index keys = .ok result) :
    index ≤ result.1 ∧ ∃ key, keys[result.1 - index]? = some key ∧
      decodeWith aead nonce ciphertext 0 [key] = .ok (0, result.2) := by
  induction keys generalizing index with
  | nil => cases h
  | cons first keys ih =>
    rw [decodeWith] at h
    rcases hdecrypt : aead.decrypt first nonce ciphertext with _ | buffer
    · rw [hdecrypt] at h
      obtain ⟨hle, key, hget, hsingle⟩ := ih h
      refine ⟨by omega, key, ?_, hsingle⟩
      rw [show result.1 - index = (result.1 - (index + 1)) + 1 by omega, List.getElem?_cons_succ]
      exact hget
    · rw [hdecrypt] at h
      simp only at h
      split_ifs at h with hshort hversion hkind
      obtain rfl := Except.ok.inj h
      refine ⟨le_rfl, first, by simp, ?_⟩
      rw [decodeWith, hdecrypt]
      simp only
      rw [if_neg hshort, if_neg hversion, if_neg hkind]

lemma decodeMotionPacket_single {index : ℕ} {seq : UInt64} {dx dy : Int32}
    (h : decodeMotionPacket aead keys datagram = .ok (index, seq, dx, dy)) :
    ∃ key, keys[index]? = some key ∧
      decodeMotionPacket aead [key] datagram = .ok (0, seq, dx, dy) := by
  rw [decodeMotionPacket, decodePacket] at h
  split_ifs at h with hshort hmagic
  rcases hdecode : decodeWith aead (Bytes.slice datagram 8 headerLen) (datagram.drop headerLen) 0
    keys with error | ⟨index', kind, seq', body⟩
  · rw [hdecode] at h
    cases h
  obtain ⟨-, key, hget, hsingle⟩ := decodeWith_single hdecode
  rw [hdecode] at h
  simp only at h
  split_ifs at h with hkind
  rcases hbody : decodeInputDatagram body with error | ⟨sequence, event⟩
  · rw [hbody] at h
    cases h
  rw [hbody] at h
  cases event with
  | mouseMove dx' dy' =>
    simp only at h
    split_ifs at h with hsequence
    obtain ⟨rfl, rfl, rfl, rfl⟩ : index' = index ∧ seq' = seq ∧ dx' = dx ∧ dy' = dy := by
      simpa using h
    refine ⟨key, hget, ?_⟩
    rw [decodeMotionPacket, decodePacket, if_neg hshort, if_neg hmagic, hsingle]
    simp only
    rw [if_neg hkind, hbody]
    simp only
    rw [if_neg hsequence]
  | _ => cases h

/-- What is read under a key bears the magic and is authentic under the key. -/
lemma decodeMotionPacket_authentic {result : ℕ × UInt64 × Int32 × Int32}
    (h : decodeMotionPacket aead [key] datagram = .ok result) :
    datagram.take 8 = udpMagic ∧ ∃ plaintext,
      aead.decrypt key (Bytes.slice datagram 8 headerLen) (datagram.drop headerLen) =
        some plaintext := by
  rw [decodeMotionPacket, decodePacket] at h
  split_ifs at h with hshort hmagic
  refine ⟨by simpa using hmagic, ?_⟩
  rcases hdecrypt : aead.decrypt key (Bytes.slice datagram 8 headerLen) (datagram.drop headerLen)
    with _ | plaintext
  · rw [decodeWith, hdecrypt] at h
    cases h
  · exact ⟨plaintext, rfl⟩

/-! ### Round trip -/

/-- A packet is not authentic under a ring without its key. -/
lemma decodeWith_foreign (hbound : aead.KeyBound) (plaintext : List UInt8) (h : key ∉ keys)
    (index : ℕ) :
    decodeWith aead nonce (aead.encrypt key nonce plaintext) index keys =
      .error "decrypt failed for all keys" := by
  induction keys generalizing index with
  | nil => rfl
  | cons first keys ih =>
    have hfirst : first ≠ key := fun heq => h (heq ▸ List.mem_cons_self)
    rw [decodeWith, hbound key first nonce _ hfirst]
    exact ih (fun hmem => h (List.mem_cons_of_mem _ hmem)) _

/-- The envelope comes off whatever the keys are. -/
lemma decodePacket_encode (hlawful : aead.Lawful) (hnonce : nonce.length = nonceLen) (kind : UInt8)
    (seq : UInt64) (body : List UInt8) :
    decodePacket aead keys (encodePacket aead nonce key kind seq body) =
      decodeWith aead nonce
        (aead.encrypt key nonce ([udpVersion, kind] ++ Bytes.ofUInt64 seq ++ body)) 0 keys := by
  have hlength :=
    hlawful.length_encrypt key nonce ([udpVersion, kind] ++ Bytes.ofUInt64 seq ++ body)
  rw [List.length_append, List.length_append, Bytes.length_ofUInt64] at hlength
  generalize hcipher : aead.encrypt key nonce
    ([udpVersion, kind] ++ Bytes.ofUInt64 seq ++ body) = ciphertext at hlength
  have hslice : Bytes.slice (udpMagic ++ nonce ++ ciphertext) 8 headerLen = nonce :=
    Bytes.slice_field rfl (by rw [hnonce, headerLen])
  have hdrop : (udpMagic ++ nonce ++ ciphertext).drop headerLen = ciphertext :=
    List.drop_left' (by rw [List.length_append, hnonce]; rfl)
  have htake : (udpMagic ++ nonce ++ ciphertext).take 8 = udpMagic := by
    rw [List.append_assoc]
    exact List.take_left' rfl
  rw [decodePacket, encodePacket, hcipher, hslice, hdrop, htake, if_neg, if_neg (by simp)]
  have hmagic : udpMagic.length = 8 := rfl
  rw [List.length_append, List.length_append, hnonce, hlength, hmagic, headerLen]
  simp only [nonceLen, tagLen, List.length_cons, List.length_nil]
  omega

/-- Who has not the key of a motion packet does not read it. -/
lemma decodeMotionPacket_foreign (hlawful : aead.Lawful) (hbound : aead.KeyBound)
    (hnonce : nonce.length = nonceLen) {seq : UInt64} {dx dy : Int32} (h : key ∉ keys)
    (hencode : encodeMotionPacket aead nonce key seq dx dy = .ok datagram) :
    decodeMotionPacket aead keys datagram = .error "decrypt failed for all keys" := by
  obtain rfl := Except.ok.inj hencode
  rw [decodeMotionPacket, decodePacket_encode hlawful hnonce, decodeWith_foreign hbound _ h]

variable [DecidableEq Key]

/-- The keys before the packet's own one fail. -/
lemma decodeWith_encrypt (hlawful : aead.Lawful) (kind : UInt8) (seq : UInt64) (body : List UInt8)
    (hbound : ∀ k ∈ keys, k ≠ key → ∀ plaintext,
      aead.decrypt k nonce (aead.encrypt key nonce plaintext) = none) (h : key ∈ keys)
    (hkind : kind = kindReliable ∨ kind = kindMotion ∨ kind = kindAck) (index : ℕ) :
    decodeWith aead nonce
      (aead.encrypt key nonce ([udpVersion, kind] ++ Bytes.ofUInt64 seq ++ body)) index keys =
        .ok (index + keys.idxOf key, kind, seq, body) := by
  induction keys generalizing index with
  | nil => exact absurd h List.not_mem_nil
  | cons first keys ih =>
    by_cases hfirst : first = key
    · subst hfirst
      have hseq : Bytes.slice ([udpVersion, kind] ++ Bytes.ofUInt64 seq ++ body) 2 10 =
          Bytes.ofUInt64 seq := Bytes.slice_field rfl (by simp)
      have hbody : ([udpVersion, kind] ++ Bytes.ofUInt64 seq ++ body).drop 10 = body :=
        List.drop_left' (by simp)
      rw [decodeWith, hlawful.decrypt_encrypt]
      simp only [hseq, hbody, Bytes.readU64_ofUInt64, List.idxOf_cons_self, Nat.add_zero]
      rw [if_neg (by simp), if_neg (by simp), if_neg]
      · rfl
      · have hget : ([udpVersion, kind] ++ Bytes.ofUInt64 seq ++ body).getD 1 0 = kind := rfl
        rw [hget]
        tauto
    · have hmem : key ∈ keys := (List.mem_cons.mp h).resolve_left fun heq => hfirst heq.symm
      rw [decodeWith, hbound first List.mem_cons_self hfirst, List.idxOf_cons_ne _ hfirst]
      simp only
      rw [ih (fun k hk => hbound k (List.mem_cons_of_mem _ hk)) hmem]
      congr 2
      omega

/-- Who has the key of a motion packet reads it. -/
lemma decodeMotionPacket_encode (hlawful : aead.Lawful)
    (hbound : ∀ k ∈ keys, k ≠ key → ∀ plaintext,
      aead.decrypt k nonce (aead.encrypt key nonce plaintext) = none)
    (hnonce : nonce.length = nonceLen) {seq : UInt64} {dx dy : Int32} (h : key ∈ keys)
    (hencode : encodeMotionPacket aead nonce key seq dx dy = .ok datagram) :
    decodeMotionPacket aead keys datagram = .ok (keys.idxOf key, seq, dx, dy) := by
  obtain ⟨body, hbody, rfl⟩ : ∃ body, encodeInputDatagram ⟨seq, .mouseMove dx dy⟩ = .ok body ∧
      datagram = encodePacket aead nonce key kindMotion seq body :=
    ⟨_, rfl, (Except.ok.inj hencode).symm⟩
  rw [decodeMotionPacket, decodePacket_encode hlawful hnonce,
    decodeWith_encrypt hlawful kindMotion seq body hbound h (Or.inr (Or.inl rfl)), Nat.zero_add]
  simp only [decodeInputDatagram_encode hbody]
  rw [if_neg (by simp), if_neg (by simp)]

/-- Under its own key a motion packet reads as what was sent. -/
lemma decodeMotionPacket_own (hlawful : aead.Lawful) (hnonce : nonce.length = nonceLen)
    {seq : UInt64} {dx dy : Int32}
    (hencode : encodeMotionPacket aead nonce key seq dx dy = .ok datagram) :
    decodeMotionPacket aead [key] datagram = .ok (0, seq, dx, dy) := by
  have hbound : ∀ k ∈ [key], k ≠ key → ∀ plaintext,
      aead.decrypt k nonce (aead.encrypt key nonce plaintext) = none :=
    fun k hk hne => absurd (List.mem_singleton.mp hk) hne
  rw [decodeMotionPacket_encode hlawful hbound hnonce List.mem_cons_self hencode,
    List.idxOf_cons_self]

/-! ### A cipher to try -/

/-- It hides nothing; its tag is the key, over and over. -/
def Aead.clear : Aead UInt8 where
  encrypt key _ plaintext := plaintext ++ List.replicate tagLen key
  decrypt key _ ciphertext :=
    if ciphertext.drop (ciphertext.length - tagLen) = List.replicate tagLen key then
      some (ciphertext.take (ciphertext.length - tagLen))
    else none

namespace Aead

lemma length_sub_tag (key : UInt8) (plaintext : List UInt8) :
    (plaintext ++ List.replicate tagLen key).length - tagLen = plaintext.length := by
  rw [List.length_append, List.length_replicate, Nat.add_sub_cancel]

lemma clear_lawful : clear.Lawful where
  decrypt_encrypt key nonce plaintext := by
    simp only [clear]
    rw [length_sub_tag, List.drop_left, List.take_left, if_pos rfl]
  length_encrypt key nonce plaintext := by
    rw [clear, List.length_append, List.length_replicate]

lemma clear_keyBound : clear.KeyBound := by
  intro key key' nonce plaintext hne
  simp only [clear]
  rw [length_sub_tag, List.drop_left, if_neg]
  intro heq
  exact hne (List.replicate_right_inj (by decide) |>.mp heq).symm

end Aead

end TheKvm
