import TheKvm.Lib.Trace
import Mathlib.Algebra.Order.Group.Nat

/-!
The clipboard agent and the notices of its own writes.

The operating system reports that the clipboard changed, not by whom. A paste from the peer
makes the handle ignore the next notices, so that the agent does not offer it back; what the
user copied must still be offered.
-/

namespace TheKvm.SystemClipboard

/-! ### The handle -/

/-- RGBA pixels with their size. -/
structure Image where
  width : ℕ
  height : ℕ
  rgba : List UInt8
  deriving DecidableEq

/-- What a clipboard holds, one flavor at a time. -/
inductive Content
  | text (t : String)
  | image (i : Image)
  | other
  deriving DecidableEq

def Content.getText : Content → Option String
  | .text t => some t
  | _ => none

def Content.getImage : Content → Option Image
  | .image i => some i
  | _ => none

/-- `SystemClipboard`, without the operating system's side. -/
structure Handle where
  lastText : Option String
  lastImageHash : Option (ℕ × ℕ × UInt64)
  ignoreOwnerEvents : UInt8
  deriving DecidableEq

/-- `absorb_own_owner_event`. -/
def Handle.absorbOwnOwnerEvent (s : Handle) (ownershipChanged : Bool) : Handle × Bool :=
  if ownershipChanged ∧ 0 < s.ignoreOwnerEvents then
    ({ s with ignoreOwnerEvents := s.ignoreOwnerEvents - 1 }, true)
  else (s, false)

/-- `poll_user_text`, of a clipboard that holds `content`. -/
def Handle.pollUserText (s : Handle) (content : Content) (ownershipChanged : Bool) :
    Handle × Option String :=
  let (s, absorbed) := s.absorbOwnOwnerEvent ownershipChanged
  match content.getText with
  | none => (s, none)
  | some text =>
    if absorbed then ({ s with lastText := some text, lastImageHash := none }, none)
    else if s.lastText = some text ∧ ownershipChanged = false then (s, none)
    else ({ s with lastText := some text, lastImageHash := none }, some text)

/-- The product of two sizes as `usize` saturates it. -/
def saturatingMul (a b : ℕ) : ℕ := min (a * b) (2 ^ 64 - 1)

section

-- `DefaultHasher`, of the pixels
variable (hash : List UInt8 → UInt64)

/-- `image_fingerprint`. -/
def imageFingerprint (image : Image) : ℕ × ℕ × UInt64 :=
  (image.width, image.height, hash image.rgba)

/-- `poll_user_image`. -/
def Handle.pollUserImage (s : Handle) (content : Content) (ownershipChanged : Bool) :
    Handle × Option Image :=
  let (s, absorbed) := s.absorbOwnOwnerEvent ownershipChanged
  match content.getImage with
  | none => (s, none)
  | some image =>
    let fingerprint := imageFingerprint hash image
    if absorbed then ({ s with lastImageHash := some fingerprint, lastText := none }, none)
    else if s.lastImageHash = some fingerprint ∧ ownershipChanged = false then (s, none)
    else ({ s with lastImageHash := some fingerprint, lastText := none }, some image)

/-- `set_text`; `written` is what the system's write came to. -/
def Handle.setText (s : Handle) (text : String) (written : Bool) : Handle :=
  if written then { s with lastText := some text, lastImageHash := none, ignoreOwnerEvents := 2 }
  else s

/-- The pixels of an image fit its size. -/
def Image.fits (image : Image) : Bool :=
  image.rgba.length = saturatingMul (saturatingMul image.width image.height) 4

/-- `set_image_data`, which remembers the image before it writes it. -/
def Handle.setImageData (s : Handle) (image : Image) : Handle :=
  if image.fits then
    { s with
      lastImageHash := some (imageFingerprint hash image), lastText := none,
      ignoreOwnerEvents := 2 }
  else s

/-! ### The agent loop -/

/-- Where the loop stands: before the wait, or before a poll with the notice it got. -/
inductive Phase
  | wait
  | text (notice : Bool)
  | image (notice : Bool)
  deriving DecidableEq

/-- The agent, the clipboard and the notices under way, with who wrote the clipboard, whether
it was offered since, and whether a paste was ever offered back. -/
structure Agent where
  handle : Handle
  phase : Phase
  content : Content
  byUser : Bool
  offered : Bool
  notices : ℕ
  echoed : Bool
  deriving DecidableEq

/-- `arrived` notices come as one, `imageDue` is the timer of the image poll. -/
inductive Op
  | userCopy (content : Content)
  | pasteText (text : String) (written : Bool)
  | pasteImage (image : Image) (written : Bool)
  | waitNotice (arrived : ℕ)
  | pollText (imageDue : Bool)
  | pollImage
  deriving DecidableEq

/-- What a poll put out is offered to the peer. -/
def Agent.offer (w : Agent) : Option Content → Agent
  | some _ => { w with offered := true, echoed := w.echoed || !w.byUser }
  | none => w

/-- The clipboard is written, which raises a notice. -/
def Agent.write (w : Agent) (content : Content) (byUser : Bool) : Agent :=
  { w with content, byUser, offered := false, notices := w.notices + 1 }

/-- A step of the agent, of the peer or of the user. The loop applies pastes before it waits. -/
def Agent.step (w : Agent) (op : Op) : Agent × Option Content :=
  match op, w.phase with
  | .userCopy content, _ => (w.write content true, none)
  | .pasteText text written, .wait =>
    let w := { w with handle := w.handle.setText text written }
    (if written then w.write (.text text) false else w, none)
  | .pasteImage image written, .wait =>
    let w := { w with handle := w.handle.setImageData hash image }
    (if image.fits && written then w.write (.image image) false else w, none)
  | .waitNotice arrived, .wait =>
    ({ w with phase := .text (decide (0 < min arrived w.notices)), notices := w.notices - arrived },
      none)
  | .pollText imageDue, .text notice =>
    let (handle, text) := w.handle.pollUserText w.content notice
    let phase := if notice || imageDue then .image notice else .wait
    ({ w with handle, phase }.offer (text.map .text), text.map .text)
  | .pollImage, .image notice =>
    let (handle, image) := w.handle.pollUserImage hash w.content notice
    ({ w with handle, phase := .wait }.offer (image.map .image), image.map .image)
  | _, _ => (w, none)

/-- Nothing the user copied waits to be offered. -/
def start (content : Content) : Agent :=
  ⟨⟨none, none, 0⟩, .wait, content, true, true, 0, false⟩

/-- The agent behind the steps of a run. -/
abbrev after (content : Content) (ops : List Op) : Agent :=
  Trace.final (Agent.step hash) (start content) ops

/-! ### What is asked of a run -/

/-- The user's copy was not offered yet. -/
def Agent.Owed (w : Agent) : Prop := w.byUser = true ∧ w.offered = false ∧ w.content ≠ .other

/-- No paste was offered back; and while the user's last copy is owed, a notice is under way or
at hand for the poll that offers it. With no notice left and the loop waiting, it was
offered. -/
structure Agent.Honest (w : Agent) : Prop where
  noEcho : w.echoed = false
  coming : w.Owed → 0 < w.notices ∨ w.phase = .text true ∨
    w.phase = .image true ∧ w.content.getImage.isSome

/-- A poll finds a paste on the clipboard and has a notice with none left to ignore, or no
notice and no memory of the paste. -/
def Echoes (w : Agent) : Op → Prop
  | .pollText _ => ∃ notice t, w.phase = .text notice ∧ w.byUser = false ∧
      w.content.getText = some t ∧
      if notice then w.handle.ignoreOwnerEvents = 0 else w.handle.lastText ≠ some t
  | .pollImage => ∃ notice i, w.phase = .image notice ∧ w.byUser = false ∧
      w.content.getImage = some i ∧
      if notice then w.handle.ignoreOwnerEvents = 0
      else w.handle.lastImageHash ≠ some (imageFingerprint hash i)
  | _ => False

/-- A poll ignores the last notice there is while the user's copy on the clipboard is owed. -/
def Swallows (w : Agent) : Op → Prop
  | .pollText _ => w.phase = .text true ∧ w.content.getText.isSome ∧ w.Owed ∧
      0 < w.handle.ignoreOwnerEvents ∧ w.notices = 0
  | .pollImage => w.phase = .image true ∧ w.content.getImage.isSome ∧ w.Owed ∧
      0 < w.handle.ignoreOwnerEvents ∧ w.notices = 0
  | _ => False

end

/-! ### Polls -/

variable {hash : List UInt8 → UInt64} {s : Handle} {w : Agent} {notice due : Bool}

lemma pollUserText_text {content : Content} {t : String} (h : content.getText = some t) :
    (s.pollUserText content notice).2 =
      (if notice = true ∧ 0 < s.ignoreOwnerEvents then none
      else if s.lastText = some t ∧ notice = false then none else some t) ∧
      (s.pollUserText content notice).1.lastText = some t := by
  unfold Handle.pollUserText Handle.absorbOwnOwnerEvent
  rw [h]
  by_cases habsorbed : notice = true ∧ 0 < s.ignoreOwnerEvents
  · rw [if_pos habsorbed, if_pos habsorbed]
    exact ⟨rfl, rfl⟩
  · rw [if_neg habsorbed, if_neg habsorbed]
    simp only [Bool.false_eq_true, if_false]
    by_cases hsame : s.lastText = some t ∧ notice = false
    · rw [if_pos hsame, if_pos hsame]
      exact ⟨rfl, hsame.1⟩
    · rw [if_neg hsame, if_neg hsame]
      exact ⟨rfl, rfl⟩

lemma pollUserText_other {content : Content} (h : content.getText = none) :
    (s.pollUserText content notice).2 = none ∧
      (s.pollUserText content notice).1.lastText = s.lastText ∧
      (s.pollUserText content notice).1.lastImageHash = s.lastImageHash := by
  unfold Handle.pollUserText Handle.absorbOwnOwnerEvent
  split_ifs <;> simp [h]

lemma pollUserImage_image {content : Content} {i : Image} (h : content.getImage = some i) :
    (s.pollUserImage hash content notice).2 =
      (if notice = true ∧ 0 < s.ignoreOwnerEvents then none
      else if s.lastImageHash = some (imageFingerprint hash i) ∧ notice = false then none
      else some i) ∧
      (s.pollUserImage hash content notice).1.lastImageHash =
        some (imageFingerprint hash i) := by
  unfold Handle.pollUserImage Handle.absorbOwnOwnerEvent
  rw [h]
  by_cases habsorbed : notice = true ∧ 0 < s.ignoreOwnerEvents
  · rw [if_pos habsorbed, if_pos habsorbed]
    exact ⟨rfl, rfl⟩
  · rw [if_neg habsorbed, if_neg habsorbed]
    simp only [Bool.false_eq_true, if_false]
    by_cases hsame : s.lastImageHash = some (imageFingerprint hash i) ∧ notice = false
    · rw [if_pos hsame, if_pos hsame]
      exact ⟨rfl, hsame.1⟩
    · rw [if_neg hsame, if_neg hsame]
      exact ⟨rfl, rfl⟩

lemma pollUserImage_other {content : Content} (h : content.getImage = none) :
    (s.pollUserImage hash content notice).2 = none ∧
      (s.pollUserImage hash content notice).1.lastText = s.lastText ∧
      (s.pollUserImage hash content notice).1.lastImageHash = s.lastImageHash := by
  unfold Handle.pollUserImage Handle.absorbOwnOwnerEvent
  split_ifs <;> simp [h]

lemma step_pollText (h : w.phase = .text notice) :
    (w.step hash (.pollText due)).1 =
      { w with
        handle := (w.handle.pollUserText w.content notice).1
        phase := if notice || due then .image notice else .wait }.offer
        ((w.handle.pollUserText w.content notice).2.map .text) := by
  simp only [Agent.step, h]

lemma step_pollImage (h : w.phase = .image notice) :
    (w.step hash .pollImage).1 =
      { w with
        handle := (w.handle.pollUserImage hash w.content notice).1
        phase := .wait }.offer
        ((w.handle.pollUserImage hash w.content notice).2.map .image) := by
  simp only [Agent.step, h]

lemma not_pos_iff {n : UInt8} : ¬0 < n ↔ n = 0 := by simp

/-- An offer is honest of what the user wrote, and settles what was owed. -/
lemma honest_offer {content : Content} {handle : Handle} {phase : Phase}
    (hecho : w.echoed = false) :
    ({ w with handle, phase }.offer (some content)).Honest ↔ w.byUser = true := by
  refine ⟨fun h => ?_, fun huser => ⟨by simp [Agent.offer, hecho, huser], fun h => by cases h.2.1⟩⟩
  have hnone := h.noEcho
  simpa [Agent.offer, hecho] using hnone

/-- What a poll that puts nothing out leaves behind: the copy owed needs a notice yet. -/
lemma honest_silent {handle : Handle} {phase : Phase} (hecho : w.echoed = false) :
    ({ w with handle, phase }.offer none).Honest ↔
      (w.Owed → 0 < w.notices ∨ phase = .text true ∨
        phase = .image true ∧ w.content.getImage.isSome) :=
  ⟨fun h => h.coming, fun h => ⟨hecho, h⟩⟩

/-- A poll that finds its flavor on the clipboard goes on honestly exactly if it offers no paste
and ignores no last notice of a copy. -/
lemma honest_poll {content : Content} {handle : Handle} {phase : Phase} {same : Prop}
    [Decidable same] (hecho : w.echoed = false)
    (hidle : notice = false → w.Owed → 0 < w.notices)
    (hphase : ¬(phase = .text true ∨ phase = .image true ∧ w.content.getImage.isSome)) :
    ({ w with handle, phase }.offer (if notice = true ∧ 0 < w.handle.ignoreOwnerEvents then none
        else if same ∧ notice = false then none else some content)).Honest ↔
      ¬(w.byUser = false ∧ if notice then w.handle.ignoreOwnerEvents = 0 else ¬same) ∧
        ¬(notice = true ∧ w.Owed ∧ 0 < w.handle.ignoreOwnerEvents ∧ w.notices = 0) := by
  cases notice with
  | true =>
    by_cases hpos : 0 < w.handle.ignoreOwnerEvents
    · have hzero : w.handle.ignoreOwnerEvents ≠ 0 := fun h => not_pos_iff.mpr h hpos
      rw [if_pos ⟨rfl, hpos⟩, honest_silent hecho]
      simp only [iff_false_intro hphase, or_false, hzero, hpos, Nat.pos_iff_ne_zero]
      tauto
    · rw [if_neg fun h => hpos h.2, if_neg (fun h => by cases h.2), honest_offer hecho]
      simp [not_pos_iff.mp hpos]
  | false =>
    rw [if_neg (fun h => by cases h.1)]
    by_cases hsame : same
    · rw [if_pos ⟨hsame, rfl⟩, honest_silent hecho]
      simp only [iff_false_intro hphase, or_false]
      simpa [hsame] using hidle rfl
    · rw [if_neg fun h => hsame h.1, honest_offer hecho]
      simp [hsame]

/-- A poll that does not find its flavor leaves a copy for the poll behind it. -/
lemma honest_pollText (hw : w.Honest) (hphase : w.phase = .text notice) :
    (w.step hash (.pollText due)).1.Honest ↔
      ¬Echoes hash w (.pollText due) ∧ ¬Swallows w (.pollText due) := by
  rw [step_pollText hphase]
  have hcoming := hw.coming
  simp only [Echoes, Swallows, hphase, Phase.text.injEq, reduceCtorEq, false_and, or_false]
    at hcoming ⊢
  rcases htext : w.content.getText with _ | t
  · rw [(pollUserText_other htext).1, Option.map_none, honest_silent hw.noEcho]
    refine iff_of_true (fun howed => ?_) (by simp)
    refine (hcoming howed).imp id fun hnotice => Or.inr ⟨by simp [hnotice], ?_⟩
    cases hcontent : w.content with
    | text t => simp [hcontent, Content.getText] at htext
    | image i => rfl
    | other => exact absurd hcontent howed.2.2
  · have himage : w.content.getImage = none := by
      cases hcontent : w.content <;> simp_all [Content.getText, Content.getImage]
    have hpoll := @honest_poll w notice (.text t) (w.handle.pollUserText w.content notice).1
      (if notice || due then .image notice else .wait) (w.handle.lastText = some t) _ hw.noEcho
      (by rintro rfl howed; simpa using hcoming howed) (by split_ifs <;> simp [himage])
    rw [(pollUserText_text htext).1, apply_ite (Option.map Content.text), Option.map_none,
      apply_ite (Option.map Content.text), Option.map_none, Option.map_some, hpoll]
    simp

lemma honest_pollImage (hw : w.Honest) (hphase : w.phase = .image notice) :
    (w.step hash .pollImage).1.Honest ↔ ¬Echoes hash w .pollImage ∧ ¬Swallows w .pollImage := by
  rw [step_pollImage hphase]
  have hcoming := hw.coming
  simp only [Echoes, Swallows, hphase, Phase.image.injEq, reduceCtorEq, false_or] at hcoming ⊢
  rcases himage : w.content.getImage with _ | i
  · rw [(pollUserImage_other himage).1, Option.map_none, honest_silent hw.noEcho]
    simp only [himage, Option.isSome_none, Bool.false_eq_true, and_false, or_false] at hcoming ⊢
    simpa using hcoming
  · have hpoll := @honest_poll w notice (.image i) (w.handle.pollUserImage hash w.content notice).1
      .wait (w.handle.lastImageHash = some (imageFingerprint hash i)) _ hw.noEcho
      (by rintro rfl howed; simpa using hcoming howed) (by simp)
    rw [(pollUserImage_image himage).1, apply_ite (Option.map Content.image), Option.map_none,
      apply_ite (Option.map Content.image), Option.map_none, Option.map_some, hpoll]
    simp

/-! ### Writes and notices -/

lemma honest_userCopy (hw : w.Honest) (content : Content) :
    (w.step hash (.userCopy content)).1.Honest :=
  ⟨hw.noEcho, fun _ => Or.inl (Nat.succ_pos w.notices)⟩

lemma honest_pasteText (hw : w.Honest) (hphase : w.phase = .wait) (t : String) (written : Bool) :
    (w.step hash (.pasteText t written)).1.Honest := by
  have hcoming := hw.coming
  simp only [Agent.step, hphase] at hcoming ⊢
  split_ifs
  · exact ⟨hw.noEcho, fun howed => by cases howed.1⟩
  · exact ⟨hw.noEcho, hcoming⟩

lemma honest_pasteImage (hw : w.Honest) (hphase : w.phase = .wait) (i : Image) (written : Bool) :
    (w.step hash (.pasteImage i written)).1.Honest := by
  have hcoming := hw.coming
  simp only [Agent.step, hphase] at hcoming ⊢
  split_ifs
  · exact ⟨hw.noEcho, fun howed => by cases howed.1⟩
  · exact ⟨hw.noEcho, hcoming⟩

/-- The wait hands on a notice that is taken from those under way. -/
lemma honest_waitNotice (hw : w.Honest) (hphase : w.phase = .wait) (arrived : ℕ) :
    (w.step hash (.waitNotice arrived)).1.Honest := by
  have hcoming := hw.coming
  simp only [hphase, reduceCtorEq, false_and, or_false] at hcoming
  simp only [Agent.step, hphase]
  refine ⟨hw.noEcho, fun howed => ?_⟩
  have hpos : 0 < w.notices := hcoming howed
  rcases Nat.eq_zero_or_pos arrived with rfl | harrived
  · exact Or.inl hpos
  · exact Or.inr (Or.inl (by rw [decide_eq_true (lt_min harrived hpos)]))

/-- A step goes on honestly exactly if it neither echoes nor swallows. -/
lemma honest_step (hw : w.Honest) (op : Op) :
    (w.step hash op).1.Honest ↔ ¬Echoes hash w op ∧ ¬Swallows w op := by
  cases op with
  | userCopy content => exact iff_of_true (honest_userCopy hw content) ⟨id, id⟩
  | pasteText t written =>
    refine iff_of_true ?_ ⟨id, id⟩
    cases hphase : w.phase with
    | wait => exact honest_pasteText hw hphase t written
    | _ => simpa only [Agent.step, hphase] using hw
  | pasteImage i written =>
    refine iff_of_true ?_ ⟨id, id⟩
    cases hphase : w.phase with
    | wait => exact honest_pasteImage hw hphase i written
    | _ => simpa only [Agent.step, hphase] using hw
  | waitNotice arrived =>
    refine iff_of_true ?_ ⟨id, id⟩
    cases hphase : w.phase with
    | wait => exact honest_waitNotice hw hphase arrived
    | _ => simpa only [Agent.step, hphase] using hw
  | pollText due =>
    cases hphase : w.phase with
    | text notice => exact honest_pollText hw hphase
    | _ =>
      refine iff_of_true ?_ (by simp [Echoes, Swallows, hphase])
      simpa only [Agent.step, hphase] using hw
  | pollImage =>
    cases hphase : w.phase with
    | image notice => exact honest_pollImage hw hphase
    | _ =>
      refine iff_of_true ?_ (by simp [Echoes, Swallows, hphase])
      simpa only [Agent.step, hphase] using hw

/-- With no notice under way and the loop waiting, the user's last copy was offered. -/
lemma Agent.Honest.at_rest (hw : w.Honest) (hnotices : w.notices = 0) (hphase : w.phase = .wait) :
    ¬w.Owed := fun howed => by
  rcases hw.coming howed with h | h | ⟨h, -⟩
  · exact absurd h (by rw [hnotices]; exact lt_irrefl 0)
  · cases hphase.symm.trans h
  · cases hphase.symm.trans h

/-! ### Runs -/

/-- **Pastes are not echoed and copies not swallowed.** Along a run no paste is offered back and
every copy owed has its notice coming, exactly if no poll finds a paste it cannot tell from a
copy and none ignores the last notice of a copy. -/
theorem honest_iff (hash : List UInt8 → UInt64) (content : Content) (ops : List Op) :
    (∀ m, m <+: ops → (after hash content m).Honest) ↔
      Trace.Each (fun before op => ¬Echoes hash (after hash content before) op ∧
        ¬Swallows (after hash content before) op) ops := by
  have hstart : (after hash content []).Honest := ⟨rfl, fun howed => by cases howed.2.1⟩
  refine (Trace.each_iff hstart fun m op _ _ hm => ?_).symm
  rw [after, Trace.final_snoc]
  exact honest_step (hm m (by rfl)) op

/-- The handle remembers the paste on the clipboard. -/
def Remembers (hash : List UInt8 → UInt64) (w : Agent) : Prop :=
  w.byUser = false →
    (∀ t, w.content.getText = some t → w.handle.lastText = some t) ∧
      ∀ i, w.content.getImage = some i → w.handle.lastImageHash = some (imageFingerprint hash i)

lemma remembers_offer (h : Remembers hash w) (out : Option Content) :
    Remembers hash (w.offer out) := by
  rcases out with _ | content <;> exact h

lemma Remembers.pollText (h : Remembers hash w) (hphase : w.phase = .text notice) :
    Remembers hash (w.step hash (.pollText due)).1 := by
  rw [step_pollText hphase]
  refine remembers_offer (fun huser => ?_) _
  rcases htext : w.content.getText with _ | t
  · obtain ⟨-, hlast, himage⟩ := @pollUserText_other w.handle notice w.content htext
    exact ⟨fun t ht => (by cases ht), fun i hi => himage.trans ((h huser).2 i hi)⟩
  · obtain ⟨-, hlast⟩ := @pollUserText_text w.handle notice w.content t htext
    refine ⟨fun t' ht' => hlast.trans ht', fun i hi => ?_⟩
    cases hcontent : w.content <;> simp_all [Content.getText, Content.getImage]

lemma Remembers.pollImage (h : Remembers hash w) (hphase : w.phase = .image notice) :
    Remembers hash (w.step hash .pollImage).1 := by
  rw [step_pollImage hphase]
  refine remembers_offer (fun huser => ?_) _
  rcases himage : w.content.getImage with _ | i
  · obtain ⟨-, hlast, hhash⟩ := @pollUserImage_other hash w.handle notice w.content himage
    exact ⟨fun t ht => hlast.trans ((h huser).1 t ht), fun i hi => by cases hi⟩
  · obtain ⟨-, hhash⟩ := @pollUserImage_image hash w.handle notice w.content i himage
    refine ⟨fun t ht => ?_, fun i' hi' => ?_⟩
    · cases hcontent : w.content <;> simp_all [Content.getText, Content.getImage]
    · obtain rfl := Option.some.inj hi'
      exact hhash

lemma Remembers.step (h : Remembers hash w) {op : Op} (hop : ∀ i, op ≠ .pasteImage i false) :
    Remembers hash (w.step hash op).1 := by
  cases op with
  | userCopy content => exact fun huser => by cases huser
  | pasteText t written =>
    cases hphase : w.phase with
    | wait =>
      simp only [Agent.step, hphase]
      cases written with
      | true => exact fun _ => ⟨fun t' ht' => ht', fun i hi => by cases hi⟩
      | false => exact h
    | _ => simpa only [Agent.step, hphase] using h
  | pasteImage i written =>
    cases hphase : w.phase with
    | wait =>
      simp only [Agent.step, hphase, Handle.setImageData]
      cases written with
      | true =>
        rcases hfits : i.fits with _ | _
        · exact h
        · refine fun _ => ⟨fun t ht => (by cases ht), fun i' hi' => ?_⟩
          obtain rfl := Option.some.inj hi'
          rfl
      | false => exact absurd rfl (hop i)
    | _ => simpa only [Agent.step, hphase] using h
  | waitNotice arrived =>
    cases hphase : w.phase with
    | wait =>
      simp only [Agent.step, hphase]
      exact h
    | _ => simpa only [Agent.step, hphase] using h
  | pollText due =>
    cases hphase : w.phase with
    | text notice => exact h.pollText hphase
    | _ => simpa only [Agent.step, hphase] using h
  | pollImage =>
    cases hphase : w.phase with
    | image notice => exact h.pollImage hphase
    | _ => simpa only [Agent.step, hphase] using h

/-- Only a failed write of an image makes the handle forget a paste. -/
theorem remembers_of_written {content : Content} {ops : List Op}
    (h : ∀ i, .pasteImage i false ∉ ops) : Remembers hash (after hash content ops) := by
  refine Trace.invariant (I := fun _ w => Remembers hash w) (fun huser => by cases huser)
    (fun m op hm hop => hm.step hop) (P := fun _ op => ∀ i, op ≠ .pasteImage i false) ?_
  exact fun m op hm i hop => h i (hop ▸ Trace.mem_of_snoc hm)

/-- Two pastes in one turn of the loop, of which each raises its notice. -/
def pastedTwice : List Op :=
  [.pasteText "a" true, .pasteText "b" true, .waitNotice 1, .pollText false, .pollImage,
    .waitNotice 1, .pollText false]

/-- A copy before the notice of a paste, and one notice for both. -/
def copiedOver : List Op :=
  [.pasteText "a" true, .userCopy (.text "b"), .waitNotice 2, .pollText false, .pollImage]

theorem pastes_echoed_and_copies_swallowed :
    (after (fun _ => 0) .other pastedTwice).echoed = true ∧
      (after (fun _ => 0) .other copiedOver).Owed ∧
      (after (fun _ => 0) .other copiedOver).notices = 0 ∧
      (after (fun _ => 0) .other copiedOver).phase = .wait := by
  refine ⟨by decide, ⟨?_, ?_, ?_⟩, ?_, ?_⟩ <;> decide

end TheKvm.SystemClipboard
