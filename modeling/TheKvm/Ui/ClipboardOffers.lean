import TheKvm.Daemon.ControlServer
import TheKvm.Lib.Lossy

/-!
Local copies as the UI offers them to the daemon, and what goes through the control protocol.

A copy is cut by its bytes, and a frame is bounded by the bytes of its JSON. Between the two are
the escapes.
-/

namespace TheKvm.Control

def offerChunkBytes : ℕ := 48 * 1024

/-- The loop of `split_offer_payload` over a text; it stops where a cut is at the start. -/
def offerSlices (cs : List Char) : List (List Char) :=
  if cs = [] then []
  else
    match _h : Text.splitAt cs (Text.textCut offerChunkBytes cs) with
    | some (c :: slice, rest) => (c :: slice) :: offerSlices rest
    | _ => []
termination_by cs.length
decreasing_by
  rw [(Text.splitAt_eq_some.mp _h).1]
  simp only [List.cons_append, List.length_cons, List.length_append]
  omega

def splitOfferPayload (payload : List Char) (text : Bool) : List (List Char) :=
  if Text.utf8Len payload ≤ offerChunkBytes then [payload]
  else if text = false then
    (Gather.chunks offerChunkBytes (Text.utf8 payload)).map Text.fromUtf8Lossy
  else offerSlices payload

/-- The characters of base64: letters, digits, `+`, `/` and `=`. -/
def isBase64 (c : Char) : Bool :=
  (0x41 ≤ c.toNat && c.toNat ≤ 0x5a) || (0x61 ≤ c.toNat && c.toNat ≤ 0x7a) ||
    (0x30 ≤ c.toNat && c.toNat ≤ 0x39) || c.toNat = 0x2b || c.toNat = 0x2f || c.toNat = 0x3d

/-- What a user copies: a text, or an image as its PNG in base64. -/
inductive LocalCopy
  | text (text : List Char)
  | image (pngBase64 : List Char) (width height : UInt32)
      (base64 : ∀ c ∈ pngBase64, isBase64 c = true)

namespace LocalCopy

def payload : LocalCopy → List Char
  | .text copied => copied
  | .image pngBase64 _ _ _ => pngBase64

def kind : LocalCopy → ClipboardKind
  | .text _ => .text
  | .image .. => .imagePng

def width : LocalCopy → UInt32
  | .text _ => 0
  | .image _ width _ _ => width

def height : LocalCopy → UInt32
  | .text _ => 0
  | .image _ _ height _ => height

/-- The request for one chunk of a copy. -/
def offer (copy : LocalCopy) (generation : UInt64) (totalChunks index : ℕ) (data : List Char) :
    ClipboardOffer where
  generation := generation
  kind := copy.kind
  totalChunks := .ofNat totalChunks
  index := .ofNat index
  data := String.ofList data
  width := copy.width
  height := copy.height

/-- The requests of `offer_local_clipboard`, in the order they are sent. -/
def offers (copy : LocalCopy) (generation : UInt64) : List ClipboardOffer :=
  let chunks := splitOfferPayload copy.payload (copy.kind = .text)
  chunks.mapIdx (copy.offer generation chunks.length)

/-- The text of a copy has room in frames: cut into longest pieces, each with its escapes. The
text of an image needs none. -/
def HasRoom (generation : UInt64) : LocalCopy → Prop
  | .text copied =>
    ∀ pieces, Text.Pieces offerChunkBytes copied pieces → ∀ index piece,
      pieces[index]? = some piece →
        104 + Json.decimalLen generation.toNat + Json.decimalLen (pieces.length % 2 ^ 32 : ℕ) +
          Json.decimalLen (index % 2 ^ 32 : ℕ) + Json.escapedLen (String.ofList piece) ≤
            maxControlFrameSize
  | .image .. => True

end LocalCopy

/-! ### The pieces of a copy -/

lemma offerSlices_pieces (cs : List Char) : Text.Pieces offerChunkBytes cs (offerSlices cs) := by
  induction hn : cs.length using Nat.strong_induction_on generalizing cs with
  | _ n ih =>
    by_cases hnil : cs = []
    · rw [hnil, offerSlices, if_pos rfl]
      exact .nil
    obtain ⟨hboundary, hpos, hle⟩ := Text.textCut_spec (by decide : 4 ≤ offerChunkBytes) hnil
    obtain ⟨slice, rest, rfl, hlen⟩ := Text.isCharBoundary_iff.mp hboundary
    have hne : slice ≠ [] := by
      rintro rfl
      rw [← hlen, Text.utf8Len_nil] at hpos
      omega
    have hshort : rest.length < n := by
      have := List.length_pos_of_ne_nil hne
      rw [List.length_append] at hn
      omega
    have hslices : offerSlices (slice ++ rest) = slice :: offerSlices rest := by
      obtain ⟨c, tail, rfl⟩ := List.exists_cons_of_ne_nil hne
      rw [offerSlices, if_neg (by simp)]
      split
      · rename_i h
        rw [Text.splitAt_eq_some.mpr ⟨rfl, hlen⟩] at h
        simp only [Option.some.injEq, Prod.mk.injEq, List.cons.injEq] at h
        obtain ⟨⟨rfl, rfl⟩, rfl⟩ := h
        rfl
      · rename_i h
        exact absurd (Text.splitAt_eq_some.mpr ⟨rfl, hlen⟩) (h _ _ _)
    rw [hslices]
    exact .cons hne (by omega) (Text.lt_of_textCut hlen) (ih _ hshort rest rfl)

/-- A text that is not empty is offered in its longest pieces. -/
lemma splitOfferPayload_pieces {text : List Char} (h : text ≠ []) :
    Text.Pieces offerChunkBytes text (splitOfferPayload text true) := by
  rw [splitOfferPayload]
  by_cases hsmall : Text.utf8Len text ≤ offerChunkBytes
  · rw [if_pos hsmall]
    exact .single h hsmall
  · rw [if_neg hsmall, if_neg (by decide)]
    exact offerSlices_pieces text

lemma plain_of_isBase64 {c : Char} (h : isBase64 c = true) : Json.plain c = true := by
  simp only [isBase64, Bool.or_eq_true, Bool.and_eq_true, decide_eq_true_eq] at h
  have hquote : c ≠ '"' := by
    rintro rfl
    revert h
    decide
  have hslash : c ≠ '\\' := by
    rintro rfl
    revert h
    decide
  simp only [Json.plain, Bool.and_eq_true, decide_eq_true_eq, bne_iff_ne]
  exact ⟨⟨by omega, hquote⟩, hslash⟩

lemma splitOfferPayload_image (payload : List Char) :
    splitOfferPayload payload false =
      if Text.utf8Len payload ≤ offerChunkBytes then [payload]
      else (Gather.chunks offerChunkBytes (Text.utf8 payload)).map Text.fromUtf8Lossy := by
  rw [splitOfferPayload, if_pos rfl]

lemma isBase64_imagePiece {payload piece : List Char} (h : ∀ c ∈ payload, isBase64 c = true)
    (hpiece : piece ∈ splitOfferPayload payload false) : ∀ c ∈ piece, isBase64 c = true := by
  have hascii : ∀ c ∈ payload, c.toNat < 0x80 := by
    intro c hc
    have hplain := plain_of_isBase64 (h c hc)
    simp only [Json.plain, Bool.and_eq_true, decide_eq_true_eq] at hplain
    omega
  rw [splitOfferPayload_image] at hpiece
  split_ifs at hpiece
  · rwa [List.mem_singleton.mp hpiece]
  · intro c hc
    have hmem := List.mem_flatten.mpr ⟨piece, hpiece, hc⟩
    rw [(Text.Aligned.of_ascii hascii).flatten_chunks (by decide)] at hmem
    exact h c hmem

/-- A piece of an image is as long escaped as it is. -/
lemma escapedLen_imagePiece {payload piece : List Char} (h : ∀ c ∈ payload, isBase64 c = true)
    (hpiece : piece ∈ splitOfferPayload payload false) :
    Json.escapedLen (String.ofList piece) ≤ offerChunkBytes := by
  have hplain : (String.ofList piece).toList.all Json.plain := by
    rw [String.toList_ofList, List.all_eq_true]
    exact fun c hc => plain_of_isBase64 (isBase64_imagePiece h hpiece c hc)
  rw [Json.escapedLen_plain hplain, String.toList_ofList]
  rw [splitOfferPayload_image] at hpiece
  split_ifs at hpiece with hsmall
  · rw [List.mem_singleton.mp hpiece]
    exact (Text.length_le_utf8Len payload).trans hsmall
  · obtain ⟨bytes, hbytes, rfl⟩ := List.mem_map.mp hpiece
    exact (Text.length_fromUtf8Lossy_le bytes).trans (Gather.length_le_of_mem_chunks hbytes)

/-! ### What goes through -/

lemma size_clipboardOffer (offer : ClipboardOffer) :
    (Request.clipboardOffer offer).toJson.size = 19 + offer.textLen := by
  simp [Request.toJson, ClipboardOffer.size_toJson]
  omega

/-- The text of an offer of a copied text. -/
lemma textLen_offer_text (copied : List Char) (generation : UInt64) (totalChunks index : ℕ)
    (data : List Char) :
    19 + ((LocalCopy.text copied).offer generation totalChunks index data).textLen =
      104 + Json.decimalLen generation.toNat + Json.decimalLen (totalChunks % 2 ^ 32 : ℕ) +
        Json.decimalLen (index % 2 ^ 32 : ℕ) + Json.escapedLen (String.ofList data) := by
  have hkind : (kindJson .text).size = 6 := by decide
  have hzero : Json.decimalLen 0 = 1 := by decide
  simp only [ClipboardOffer.textLen, LocalCopy.offer, LocalCopy.kind, LocalCopy.width,
    LocalCopy.height, hkind, UInt32.toNat_ofNat']
  change 19 + (77 + _ + 6 + _ + _ + _ + Json.decimalLen 0 + Json.decimalLen 0) = _
  rw [hzero]
  omega

lemma textLen_offer_le (copy : LocalCopy) (generation : UInt64) (totalChunks index : ℕ)
    (data : List Char) :
    19 + (copy.offer generation totalChunks index data).textLen ≤
      166 + Json.escapedLen (String.ofList data) := by
  have hkind : (kindJson copy.kind).size ≤ 10 := by
    cases copy.kind <;> decide
  have := decimalLen_uint64_le generation
  have := decimalLen_uint32_le (.ofNat totalChunks)
  have := decimalLen_uint32_le (.ofNat index)
  have := decimalLen_uint32_le copy.width
  have := decimalLen_uint32_le copy.height
  simp only [ClipboardOffer.textLen, LocalCopy.offer]
  omega

lemma LocalCopy.fits_text (copied : List Char) (generation : UInt64) :
    (∀ offer ∈ (LocalCopy.text copied).offers generation,
      (Request.clipboardOffer offer).toJson.size ≤ maxControlFrameSize) ↔
        ∀ index piece, (splitOfferPayload copied true)[index]? = some piece →
          104 + Json.decimalLen generation.toNat +
            Json.decimalLen ((splitOfferPayload copied true).length % 2 ^ 32 : ℕ) +
            Json.decimalLen (index % 2 ^ 32 : ℕ) + Json.escapedLen (String.ofList piece) ≤
              maxControlFrameSize := by
  constructor
  · intro h index piece hpiece
    obtain ⟨hindex, rfl⟩ := List.getElem?_eq_some_iff.mp hpiece
    have hfits := h _ (List.mem_mapIdx.mpr ⟨index, hindex, rfl⟩)
    rwa [size_clipboardOffer, textLen_offer_text] at hfits
  · intro h offer hoffer
    obtain ⟨index, hindex, rfl⟩ := List.mem_mapIdx.mp hoffer
    rw [size_clipboardOffer, textLen_offer_text]
    exact h index _ (List.getElem?_eq_getElem hindex)

/-- A copy's offers fit exactly if the pieces of its text do. -/
lemma LocalCopy.fits_iff (copy : LocalCopy) (generation : UInt64) :
    (∀ offer ∈ copy.offers generation,
      (Request.clipboardOffer offer).toJson.size ≤ maxControlFrameSize) ↔
        copy.HasRoom generation := by
  cases copy with
  | image pngBase64 width height base64 =>
    refine iff_of_true (fun offer hoffer => ?_) trivial
    obtain ⟨index, hindex, rfl⟩ := List.mem_mapIdx.mp hoffer
    have hpiece := escapedLen_imagePiece base64 (List.getElem_mem hindex)
    rw [size_clipboardOffer]
    refine (textLen_offer_le ..).trans ?_
    exact (Nat.add_le_add_left hpiece 166).trans (by decide)
  | text copied =>
    rw [fits_text, HasRoom]
    by_cases hempty : copied = []
    · subst hempty
      have hnone : splitOfferPayload [] true = [[]] := by decide
      rw [hnone]
      refine iff_of_true ?_ fun pieces hcut index piece hpiece => ?_
      · rintro (_ | index) piece hpiece
        · obtain rfl := Option.some.inj hpiece
          rw [← textLen_offer_text []]
          refine (textLen_offer_le ..).trans ?_
          decide
        · cases hpiece
      · obtain rfl := hcut.unique .nil
        cases hpiece
    · have hpieces := splitOfferPayload_pieces hempty
      constructor
      · intro h pieces hcut
        rwa [hcut.unique hpieces]
      · intro h
        exact h _ hpieces

/-- **Control messages and their frames**. A daemon's response goes through a control frame
exactly if what was asked for has room with its escapes, and the offers of a local copy exactly
if its pieces have. -/
theorem messages_fit_iff (windows : Bool) {s : ServerState} (hvalid : s.Valid) (a : Answers)
    (connection : Connection) (request : Request) (copy : LocalCopy) (generation : UInt64)
    {responses : Serde Response} {requests : Serde Request}
    (hresponses : ∀ response ∈ respond windows s a connection request,
      responses.Handles Response.toJson response)
    (hrequests : ∀ offer ∈ copy.offers generation,
      requests.Handles Request.toJson (.clipboardOffer offer)) :
    ((∀ response ∈ respond windows s a connection request, GoesThrough responses response) ↔
      (connection = .fresh → HasRoom s a request)) ∧
    ((∀ offer ∈ copy.offers generation, GoesThrough requests (.clipboardOffer offer)) ↔
      copy.HasRoom generation) := by
  constructor
  · have hfits : (∀ response ∈ respond windows s a connection request,
        GoesThrough responses response) ↔
        ∀ response ∈ respond windows s a connection request, Fits response :=
      forall₂_congr fun response h => goesThrough_iff (hresponses response h)
    rw [hfits]
    by_cases hfresh : connection = .fresh
    · rw [hfresh, respond]
      simp [fits_answer_iff windows hvalid]
    · refine iff_of_true (fun response h => ?_) fun h => absurd h hfresh
      rw [respond_leased hfresh h]
      exact fits_applied false
  · rw [← copy.fits_iff generation]
    exact forall₂_congr fun offer h => goesThrough_iff (hrequests offer h)

/-! ### A desk -/

def deskConfig (layout : Layout) (autoConnectAddress : Option String) : Config where
  deviceName := "desk"
  listenPort := 42110
  mode := .bidirectional
  transport := .udp
  edgeMode := .double
  layout := layout
  allowLockScreenControl := false
  autoConnectAddress := autoConnectAddress
  clipboardEnabled := true
  clipboardMaxMb := 2
  reverseScroll := false
  autoDiscover := true
  doubleEdgeStyle := .mirror

/-- A daemon with no peers. -/
def desk (config : Config) (relay : Option RelayPaste) : ServerState where
  config := config
  peers := []
  fingerprint := ""
  pairingCode := "000000"
  activeSessions := 0
  uptimeSeconds := 0
  pendingPairings := []
  pendingLinks := []
  sessions := []
  peerEndedLinks := []
  recentInbound := []
  relay := relay
  offers := .default
  leases := []

/-- Whatever is asked of the daemon's other parts works. -/
def works : Answers where
  pair := .error "connect"
  decided := true
  foreignEpoch := false
  unpin := .ok true
  pin := .ok ()
  dropped := true
  notified := .ok ()
  identity := .ok ([], [])
  saved := .ok ()
  wakes := []
  touched := true

lemma validate_deskConfig {layout : Layout} {autoConnectAddress : Option String}
    (hlayout : layout.validate = .ok ())
    (haddress : ∀ address ∈ autoConnectAddress, (Text.trim address).isEmpty = false) :
    (deskConfig layout autoConnectAddress).validate = .ok () := by
  have hname : (Text.trim "desk").isEmpty = false ∧ Text.len (Text.trim "desk") = 4 ∧
      (Text.trim "desk").toList.any Text.isControl = false := by decide +kernel
  have hany : autoConnectAddress.any (fun address => (Text.trim address).isEmpty) = false := by
    cases autoConnectAddress with
    | none => rfl
    | some address => exact haddress address rfl
  obtain ⟨hempty, hlen, hcontrol⟩ := hname
  simp only [Config.validate, deskConfig, hempty, hlen, hcontrol, hany, hlayout, maxDeviceNameBytes,
    maxClipboardMaxMb]
  rfl

lemma desk_valid {config : Config} {relay : Option RelayPaste} (h : config.validate = .ok ())
    (hrelay : ∀ paste ∈ relay, ∃ received : ReceivedPaste, paste = received.stashed) :
    (desk config relay).Valid where
  config := h
  peers := ⟨Nat.zero_le _, nofun, List.nodup_nil⟩
  relay := hrelay
  leases := nofun

theorem desk_messages_fit :
    ((∀ response ∈ respond false (desk (deskConfig ⟨[], none⟩ none) none) works .fresh .getConfig,
        GoesThrough (.knowing Response.toJson (.config (deskConfig ⟨[], none⟩ none))) response) ↔
      (Connection.fresh = .fresh →
        HasRoom (desk (deskConfig ⟨[], none⟩ none) none) works .getConfig)) ∧
    ((∀ offer ∈ (LocalCopy.text ['h', 'i']).offers 1,
        GoesThrough (.knowing Request.toJson
          (.clipboardOffer ((LocalCopy.text ['h', 'i']).offer 1 1 0 ['h', 'i'])))
          (.clipboardOffer offer)) ↔
      (LocalCopy.text ['h', 'i']).HasRoom 1) := by
  have hvalid : (desk (deskConfig ⟨[], none⟩ none) none).Valid :=
    desk_valid (validate_deskConfig rfl (by simp)) (by simp)
  refine messages_fit_iff false hvalid works .fresh .getConfig (.text ['h', 'i']) 1 ?_ ?_
  · intro response h
    obtain rfl := Option.some.inj h
    exact Serde.knowing_handles ..
  · intro offer hoffer
    have hoffers : (LocalCopy.text ['h', 'i']).offers 1 =
        [(LocalCopy.text ['h', 'i']).offer 1 1 0 ['h', 'i']] := by decide
    rw [hoffers] at hoffer
    rw [List.mem_singleton.mp hoffer]
    exact Serde.knowing_handles ..

/-- A response that does not get through. -/
def Stuck (s : ServerState) (request : Request) : Prop :=
  ∃ response, respond false s works .fresh request = some response ∧
    ¬GoesThrough (.knowing Response.toJson response) response

lemma stuck_of_not_hasRoom {s : ServerState} (hvalid : s.Valid) {request : Request}
    (h : ¬HasRoom s works request) : Stuck s request := by
  refine ⟨_, rfl, fun hthrough => h ?_⟩
  rw [goesThrough_iff (Serde.knowing_handles ..)] at hthrough
  exact (fits_answer_iff false hvalid request).mp hthrough

/-- `n` letters. -/
def letters (n : ℕ) : String := String.ofList (List.replicate n 'a')

/-- A string that is not blank at its ends. -/
structure Solid (value : String) : Prop where
  trim : Text.trim value = value
  nonempty : value.isEmpty = false

lemma letters_spec {n : ℕ} (hpos : 0 < n) :
    Solid (letters n) ∧ Json.escapedLen (letters n) = n := by
  have hall : ∀ c ∈ (letters n).toList, c = 'a' := by
    intro c hc
    rw [letters, String.toList_ofList] at hc
    exact (List.mem_replicate.mp hc).2
  refine ⟨⟨Text.trim_eq_self fun c hc => by rw [hall c hc]; decide, ?_⟩, ?_⟩
  · rw [← Bool.not_eq_true, String.isEmpty_iff]
    intro hempty
    have hlist := congrArg String.toList hempty
    rw [letters, String.toList_ofList, String.toList_empty, List.replicate_eq_nil_iff] at hlist
    omega
  · have hplain : (letters n).toList.all Json.plain := by
      rw [List.all_eq_true]
      exact fun c hc => by rw [hall c hc]; decide
    rw [Json.escapedLen_plain hplain, letters, String.toList_ofList, List.length_replicate]

/-- An update that replaces nothing. -/
def noUpdate : ConfigUpdate :=
  ⟨none, none, none, none, none, none, false, none, none, none, none, none, none, none⟩

def namedLayout (name : String) : Layout :=
  ⟨[⟨⟨1⟩, name, 0, 0, 1920, 1080, none⟩], some ⟨1⟩⟩

/-- The settings of a user who names the one screen, and who sets an address. -/
def nameScreen (name : String) : ConfigUpdate := { noUpdate with layout := some (namedLayout name) }

def setAddress (address : String) : ConfigUpdate :=
  { noUpdate with autoConnectAddress := some address }

lemma validate_namedLayout {name : String} (h : Text.trim name ≠ "") :
    (namedLayout name).validate = .ok () := by
  simp [Layout.validate, namedLayout, Layout.validateScreens, h]

lemma textLen_namedLayout (name : String) :
    (namedLayout name).textLen = 111 + Json.escapedLen name := by
  have hzero : Json.decimalLen 0 = 1 := by decide
  have hone : Json.decimalLen 1 = 1 := by decide
  have hwidth : Json.decimalLen 1920 = 4 := by decide
  have hheight : Json.decimalLen 1080 = 4 := by decide
  simp [Layout.textLen, namedLayout, Screen.textLen, Json.listed, optionalLen, Json.option,
    ScreenId.toJson, hzero, hone, hwidth, hheight, Json.size]
  omega

lemma textLen_deskConfig (layout : Layout) (address : String) :
    (deskConfig layout (some address)).textLen =
      293 + layout.textLen + Json.escapedLen address := by
  have hport : Json.decimalLen 42110 = 5 := by decide
  have hmax : Json.decimalLen 2 = 1 := by decide
  simp [Config.textLen, deskConfig, optionalLen, Json.option, Mode.toJson,
    TransportProtocol.toJson, EdgeMode.toJson, DoubleEdgeStyle.toJson, hport, hmax, Json.size]
  omega

lemma size_nameScreen (name : String) :
    (Request.setConfig (nameScreen name)).toJson.size = 425 + Json.escapedLen name := by
  simp [Request.toJson, ConfigUpdate.toJson, nameScreen, noUpdate, Json.option,
    Layout.size_toJson, textLen_namedLayout, Json.size]
  omega

lemma size_setAddress (address : String) :
    (Request.setConfig (setAddress address)).toJson.size = 316 + Json.escapedLen address := by
  simp [Request.toJson, ConfigUpdate.toJson, setAddress, noUpdate, Json.option, Json.size]
  omega

/-- An update that is accepted is in place. -/
lemma setConfig_accepted {update : ConfigUpdate} {current updated : Config}
    (hrefusal : update.refusal current = none) (happlied : update.applied current = updated)
    (hvalidate : updated.validate = .ok ()) :
    setConfig false current (.ok ()) update = (updated, .applied false) := by
  unfold setConfig
  rw [hrefusal, happlied]
  simp only [save_cases, hvalidate]
  rfl

variable {name address : String} {layout : Layout}

lemma Solid.validate_namedLayout (h : Solid name) : (namedLayout name).validate = .ok () := by
  apply Control.validate_namedLayout
  rw [h.trim]
  rintro rfl
  exact absurd h.nonempty (by decide)

lemma setConfig_nameScreen (h : Solid name) :
    setConfig false (deskConfig ⟨[], none⟩ none) (.ok ()) (nameScreen name) =
      (deskConfig (namedLayout name) none, .applied false) := by
  have hrefusal : (nameScreen name).refusal (deskConfig ⟨[], none⟩ none) = none := by
    simp [ConfigUpdate.refusal, nameScreen, noUpdate, h.validate_namedLayout]
  exact setConfig_accepted hrefusal rfl (validate_deskConfig h.validate_namedLayout (by simp))

lemma setConfig_setAddress (hlayout : layout.validate = .ok ()) (h : Solid address) :
    setConfig false (deskConfig layout none) (.ok ()) (setAddress address) =
      (deskConfig layout (some address), .applied false) := by
  have hrefusal : (setAddress address).refusal (deskConfig layout none) = none := by
    simp [ConfigUpdate.refusal, setAddress, noUpdate, h.trim, h.nonempty]
  have happlied : (setAddress address).applied (deskConfig layout none) =
      deskConfig layout (some address) := by
    simp [ConfigUpdate.applied, setAddress, noUpdate, h.trim, deskConfig]
  refine setConfig_accepted hrefusal happlied (validate_deskConfig hlayout fun value hvalue => ?_)
  obtain rfl := Option.some.inj hvalue
  rw [h.trim, h.nonempty]

/-! ### What is stuck -/

/-- `n` quotes, in one piece. -/
def quotes (n : ℕ) : List Char := List.replicate n '"'

lemma utf8Len_quotes (n : ℕ) : Text.utf8Len (quotes n) = n := by
  have h := (escapedLen_quotes n).1
  rwa [Text.len_eq, String.toList_ofList] at h

def quotedPaste (n : ℕ) (h : n ≤ offerChunkBytes) : ReceivedPaste where
  revision := 1
  kind := .text
  payload := quotes n
  width := 0
  height := 0
  payload_le := by
    rw [utf8Len_quotes]
    exact h.trans (by decide)

lemma chunks_quotedPaste {n : ℕ} (h : n ≤ offerChunkBytes) :
    (quotedPaste n h).stashed.chunks = [quotes n] := by
  change splitRelayPayload (quotes n) _ = _
  rw [splitRelayPayload, if_pos]
  rw [utf8Len_quotes]
  exact h

/-- The daemon with a paste of quotes for the UI, and the settings of a user with long names. -/
def pastedDesk : ServerState :=
  desk (deskConfig ⟨[], none⟩ none) (some (quotedPaste 49152 le_rfl).stashed)

def namedDesk : ServerState :=
  pastedDesk.after false works (.setConfig (nameScreen (letters 40000)))

def addressedDesk : ServerState :=
  namedDesk.after false works (.setConfig (setAddress (letters 40000)))

lemma pastedDesk_valid : pastedDesk.Valid :=
  desk_valid (validate_deskConfig rfl (by simp)) fun _ hpaste =>
    ⟨_, (Option.some.inj hpaste).symm⟩

/-- Settings that are taken over. -/
lemma after_setConfig {config updated : Config} {relay : Option RelayPaste}
    {update : ConfigUpdate}
    (h : setConfig false config (.ok ()) update = (updated, .applied false)) :
    (desk config relay).after false works (.setConfig update) = desk updated relay ∧
      respond false (desk config relay) works .fresh (.setConfig update) =
        some (.applied false) := by
  constructor
  · change { desk config relay with config := (setConfig false config (.ok ()) update).1 } = _
    rw [h]
    rfl
  · change some (setConfig false config (.ok ()) update).2 = _
    rw [h]

lemma namedDesk_eq :
    namedDesk = desk (deskConfig (namedLayout (letters 40000)) none)
      (some (quotedPaste 49152 le_rfl).stashed) :=
  (after_setConfig (setConfig_nameScreen (letters_spec (by decide)).1)).1

lemma addressedDesk_eq :
    addressedDesk = desk (deskConfig (namedLayout (letters 40000)) (some (letters 40000)))
      (some (quotedPaste 49152 le_rfl).stashed) := by
  have hletters := (letters_spec (n := 40000) (by decide)).1
  rw [addressedDesk, namedDesk_eq]
  exact (after_setConfig (setConfig_setAddress hletters.validate_namedLayout hletters)).1

lemma hasRoom_getConfig (config : Config) (relay : Option RelayPaste) :
    HasRoom (desk config relay) works .getConfig ↔ 11 + config.textLen ≤ maxControlFrameSize :=
  Iff.rfl

lemma quotes_no_room {n : ℕ} (hle : n ≤ offerChunkBytes) (hgt : maxControlFrameSize < n * 2) :
    ¬(LocalCopy.text (quotes n)).HasRoom 1 := by
  intro h
  have hne : quotes n ≠ [] := by
    rw [quotes, Ne, List.replicate_eq_nil_iff]
    omega
  have hpiece := h [quotes n] (.single hne (by rwa [utf8Len_quotes])) 0 (quotes n) rfl
  rw [quotes, (escapedLen_quotes n).2] at hpiece
  omega

lemma pasted_no_room {n : ℕ} (hle : n ≤ offerChunkBytes) (hgt : maxControlFrameSize < n * 2)
    (config : Config) :
    ¬HasRoom (desk config (some (quotedPaste n hle).stashed)) works (.clipboardPoll 0 0 0) := by
  intro h
  have hfound : ((desk config (some (quotedPaste n hle).stashed)).relay ::
      if (0 : UInt32) = 0 then [] else works.wakes).findSome?
        (newer (0 : UInt64).toNat (0 : UInt32).toNat) =
      some ((quotedPaste n hle).stashed, quotes n) := by
    have hchunks := chunks_quotedPaste hle
    have hrevision : (quotedPaste n hle).stashed.revision = 1 := rfl
    generalize (quotedPaste n hle).stashed = paste at hchunks hrevision
    simp [desk, newer, hchunks, hrevision]
  have hpiece := h _ _ hfound
  rw [pieceLen, quotes, (escapedLen_quotes n).2] at hpiece
  omega

/-- A copy and a paste of 48 KiB of quotes stay where they are, and two settings that are taken
over one after the other cannot be read back. -/
theorem quotes_and_names_stuck :
    (¬∀ offer ∈ (LocalCopy.text (quotes 49152)).offers 1,
      GoesThrough (.knowing Request.toJson (.clipboardOffer offer)) (.clipboardOffer offer)) ∧
    (pastedDesk.Valid ∧ Stuck pastedDesk (.clipboardPoll 0 0 0)) ∧
    (GoesThrough (.knowing Request.toJson (.setConfig (nameScreen (letters 40000))))
        (.setConfig (nameScreen (letters 40000))) ∧
      respond false pastedDesk works .fresh (.setConfig (nameScreen (letters 40000))) =
        some (.applied false)) ∧
    (GoesThrough (.knowing Request.toJson (.setConfig (setAddress (letters 40000))))
        (.setConfig (setAddress (letters 40000))) ∧
      respond false namedDesk works .fresh (.setConfig (setAddress (letters 40000))) =
        some (.applied false)) ∧
    addressedDesk.Valid ∧ Stuck addressedDesk .getConfig := by
  have hletters := letters_spec (n := 40000) (by decide)
  have hquotes : maxControlFrameSize < 49152 * 2 := by decide
  have haddressed : addressedDesk.Valid := (pastedDesk_valid.after false _).after false _
  refine ⟨fun h => ?_, ⟨pastedDesk_valid, ?_⟩, ⟨?_, ?_⟩, ⟨?_, ?_⟩, haddressed, ?_⟩
  · refine quotes_no_room le_rfl hquotes ((LocalCopy.fits_iff _ 1).mp fun offer hoffer => ?_)
    exact (goesThrough_iff (Serde.knowing_handles ..)).mp (h offer hoffer)
  · exact stuck_of_not_hasRoom pastedDesk_valid (pasted_no_room le_rfl hquotes _)
  · rw [goesThrough_iff (Serde.knowing_handles ..), size_nameScreen, hletters.2]
    decide
  · exact (after_setConfig (setConfig_nameScreen hletters.1)).2
  · rw [goesThrough_iff (Serde.knowing_handles ..), size_setAddress, hletters.2]
    decide
  · rw [namedDesk_eq]
    exact (after_setConfig (setConfig_setAddress hletters.1.validate_namedLayout hletters.1)).2
  · refine stuck_of_not_hasRoom haddressed ?_
    rw [addressedDesk_eq, hasRoom_getConfig, textLen_deskConfig, textLen_namedLayout, hletters.2]
    decide

end TheKvm.Control
