import TheKvm.Lib.Replace
import TheKvm.Lib.Trace

/-!
The identity of a computer on disk: a certificate and its private key, in a file each.

Several programs load the identity, and create it where a file is missing or a new one is asked
for. Each is a sequence of calls to the system, any of which may fail, and may be killed between
them.
-/

namespace TheKvm.IdentityStore

open Replace

/-- A certificate, and the key that it was made with. -/
structure Identity where
  certDer : List UInt8
  keyDer : List UInt8
  deriving DecidableEq

inductive StateFile
  | cert
  | key
  deriving DecidableEq

/-- What the system gives: the mode of a new file, and the data protection of Windows. -/
structure Platform where
  windows : Bool
  umask : Mode
  protect : List UInt8 → List UInt8
  unprotect : List UInt8 → Option (List UInt8)

/-- `MAGIC`: "THEKVM-DPAPI" and a zero. -/
def magic : List UInt8 :=
  [0x54, 0x48, 0x45, 0x4b, 0x56, 0x4d, 0x2d, 0x44, 0x50, 0x41, 0x50, 0x49, 0x00]

/-- `stored_key_bytes`. -/
def Platform.storedKeyBytes (p : Platform) (keyDer : List UInt8) : List UInt8 :=
  if p.windows then magic ++ p.protect keyDer else keyDer

/-- The key in a stored one; a key from before the data protection is stored as it is. -/
def Platform.keyOf (p : Platform) (stored : List UInt8) : Option (List UInt8) :=
  if p.windows && magic.isPrefixOf stored then p.unprotect (stored.drop magic.length)
  else some stored

def Platform.certWrite (made : Identity) : Write StateFile := ⟨.cert, made.certDer, false⟩

def Platform.keyWrite (p : Platform) (made : Identity) : Write StateFile :=
  ⟨.key, p.storedKeyBytes made.keyDer, !p.windows⟩

/-- Where `load_or_create` or `rotate` is: before the call that it names. -/
inductive Task
  | checkCert
  | checkKey
  | readCert
  | readKey (certDer : List UInt8)
  /-- `harden_private_key`: the mode is read, and then set -/
  | stat (identity : Identity)
  | harden (identity : Identity) (mode : Mode)
  /-- a key from before the data protection is stored anew -/
  | protect (identity : Identity)
  | migrate (identity : Identity) (stage : Stage)
  /-- `create_and_store`, whether by `rotate` -/
  | generate (rotated : Bool)
  | storeCert (rotated : Bool) (made : Identity) (stage : Stage)
  | protectKey (rotated : Bool) (made : Identity)
  | storeKey (rotated : Bool) (made : Identity) (stage : Stage)
  deriving DecidableEq

/-- What a task returned. -/
inductive Event
  | loaded (identity : Identity)
  | created (rotated : Bool) (made : Identity)
  deriving DecidableEq

structure Store where
  dir : Dir StateFile
  tasks : ℕ → Option Task
  next : ℕ
  /-- What was generated. -/
  made : List Identity
  events : List Event
  /-- The modes of the key file that the installer, or a daemon that starts, has read. -/
  seen : List Mode

inductive Op
  | load
  | rotate
  /-- a task's next call to the system -/
  | call (task : ℕ) (outcome : Outcome)
  /-- `generate_material` -/
  | generated (task : ℕ) (made : Identity)
  | kill (task : ℕ)
  /-- group access is added to the key file: its mode is read, and then set -/
  | read
  | grant (mode : ℕ)

namespace Store

def start (dir : Dir StateFile) : Store := ⟨dir, fun _ => none, 0, [], [], []⟩

def setTask (w : Store) (task : ℕ) (next : Option Task) : Store :=
  { w with tasks := Function.update w.tasks task next }

/-- A task ends, with an error. -/
def fail (w : Store) (task : ℕ) : Store := w.setTask task none

def ret (w : Store) (task : ℕ) (event : Event) : Store :=
  { w.setTask task none with events := w.events ++ [event] }

def setMode (w : Store) (file : File) (mode : Mode) : Store :=
  { w with dir := w.dir.setFile .key (some { file with mode }) }

/-- `atomic_write` within a task. -/
def write (w : Store) (p : Platform) (task : ℕ) (write : Write StateFile) (stage : Stage)
    (outcome : Outcome) (going : Stage → Task) (done : Store → Store) : Store :=
  let (dir, progress) := write.step p.umask w.dir task stage outcome
  let w := { w with dir }
  match progress with
  | .going stage => w.setTask task (some (going stage))
  | .done => done w
  | .failed => w.fail task

/-- The next call of a task. -/
def advance (p : Platform) (w : Store) (i : ℕ) (outcome : Outcome) : Task → Store
  | .checkCert =>
    match outcome, w.dir.files .cert with
    | .ok _, some _ => w.setTask i (some .checkKey)
    | _, _ => w.setTask i (some (.generate false))
  | .checkKey =>
    match outcome, w.dir.files .key with
    | .ok _, some _ => w.setTask i (some .readCert)
    | _, _ => w.setTask i (some (.generate false))
  | .readCert =>
    match outcome, w.dir.files .cert with
    | .ok _, some file => w.setTask i (some (.readKey file.bytes))
    | _, _ => w.fail i
  | .readKey certDer =>
    match outcome, w.dir.files .key with
    | .ok _, some file =>
      if p.windows then
        if magic.isPrefixOf file.bytes then
          match p.unprotect (file.bytes.drop magic.length) with
          | some keyDer => w.ret i (.loaded ⟨certDer, keyDer⟩)
          | none => w.fail i
        else w.setTask i (some (.protect ⟨certDer, file.bytes⟩))
      else w.setTask i (some (.stat ⟨certDer, file.bytes⟩))
    | _, _ => w.fail i
  | .stat identity =>
    match outcome, w.dir.files .key with
    | .ok _, some file =>
      let hardened := ownerOnly ||| (file.mode &&& 0o040)
      if hardened = file.mode then w.ret i (.loaded identity)
      else w.setTask i (some (.harden identity hardened))
    | _, _ => w.fail i
  | .harden identity mode =>
    match outcome, w.dir.files .key with
    | .ok _, some file => (w.setMode file mode).ret i (.loaded identity)
    | _, _ => w.fail i
  | .protect identity =>
    match outcome with
    | .ok _ => w.setTask i (some (.migrate identity .opening))
    | .failed _ => w.fail i
  | .migrate identity stage =>
    w.write p i (p.keyWrite identity) stage outcome (.migrate identity)
      fun w => w.ret i (.loaded identity)
  | .generate rotated =>
    match outcome with
    | .ok _ => w.setTask i (some (.generate rotated))
    | .failed _ => w.fail i
  | .storeCert rotated made stage =>
    w.write p i (Platform.certWrite made) stage outcome (.storeCert rotated made)
      fun w => w.setTask i (some (.protectKey rotated made))
  | .protectKey rotated made =>
    match outcome with
    | .ok _ => w.setTask i (some (.storeKey rotated made .opening))
    | .failed _ => w.fail i
  | .storeKey rotated made stage =>
    w.write p i (p.keyWrite made) stage outcome (.storeKey rotated made)
      fun w => w.ret i (.created rotated made)

def begin (w : Store) (task : Task) : Store :=
  { w.setTask w.next (some task) with next := w.next + 1 }

def step (p : Platform) (w : Store) (op : Op) : Store × Unit :=
  match op with
  | .load => (w.begin .checkCert, ())
  | .rotate => (w.begin (.generate true), ())
  | .call i outcome =>
    match w.tasks i with
    | some task => (w.advance p i outcome task, ())
    | none => (w, ())
  | .generated i made =>
    match w.tasks i with
    | some (.generate rotated) =>
      ({ w.setTask i (some (.storeCert rotated made .opening)) with made := w.made ++ [made] }, ())
    | _ => (w, ())
  | .kill i => (w.fail i, ())
  | .read =>
    match w.dir.files .key with
    | some file => ({ w with seen := w.seen ++ [file.mode] }, ())
    | none => (w, ())
  | .grant n =>
    match w.seen[n]?, w.dir.files .key with
    | some mode, some file => (w.setMode file (mode ||| 0o040), ())
    | _, _ => (w, ())

abbrev after (p : Platform) (dir : Dir StateFile) (l : List Op) : Store :=
  Trace.final (step p) (start dir) l

end Store

/-! ### Where the bytes come from -/

/-- A mode gives nothing to others, and no more than reading to the group. -/
def Closed (mode : Mode) : Prop := mode &&& 0o137 = 0

instance (mode : Mode) : Decidable (Closed mode) := inferInstanceAs (Decidable (_ = _))

/-- The certificate was there at the start, or was generated. -/
def KnownCert (dir : Dir StateFile) (made : List Identity) (certDer : List UInt8) : Prop :=
  (∃ file, dir.files .cert = some file ∧ file.bytes = certDer) ∨ ∃ m ∈ made, m.certDer = certDer

def KnownKey (p : Platform) (dir : Dir StateFile) (made : List Identity) (keyDer : List UInt8) :
    Prop :=
  (∃ file, dir.files .key = some file ∧ p.keyOf file.bytes = some keyDer) ∨
    ∃ m ∈ made, m.keyDer = keyDer

/-- The bytes of the key file: those of the start, or a key that is known, stored whole. -/
def KnownFile (p : Platform) (dir : Dir StateFile) (made : List Identity) (bytes : List UInt8) :
    Prop :=
  (∃ file, dir.files .key = some file ∧ file.bytes = bytes) ∨
    ∃ keyDer, KnownKey p dir made keyDer ∧ bytes = p.storedKeyBytes keyDer

/-- A temporary file: a part of a certificate, or its owner's alone unless it is empty. -/
def Public (p : Platform) (made : List Identity) (file : File) : Prop :=
  (∃ m ∈ made, file.bytes <+: m.certDer) ∨
    (p.windows = false → file.bytes = [] ∨ file.mode = ownerOnly)

/-- What a task carries is known. -/
def Task.Knows (p : Platform) (dir : Dir StateFile) (made : List Identity) : Task → Prop
  | .readKey certDer => KnownCert dir made certDer
  | .harden identity mode =>
    KnownCert dir made identity.certDer ∧ KnownKey p dir made identity.keyDer ∧ Closed mode
  | .stat identity | .protect identity | .migrate identity _ =>
    KnownCert dir made identity.certDer ∧ KnownKey p dir made identity.keyDer
  | .storeCert _ identity _ | .protectKey _ identity | .storeKey _ identity _ => identity ∈ made
  | .checkCert | .checkKey | .readCert | .generate _ => True

/-- The temporary file of a task is as far as the task is. -/
def Task.At (p : Platform) (d : Dir StateFile) (i : ℕ) : Task → Prop
  | .migrate identity stage => (p.keyWrite identity).At d i stage
  | .storeCert _ made stage => (Platform.certWrite made).At d i stage
  | .storeKey _ made stage => (p.keyWrite made).At d i stage
  | _ => d.temporaries i = none

def Event.Knows (p : Platform) (dir : Dir StateFile) (made : List Identity) : Event → Prop
  | .loaded identity =>
    KnownCert dir made identity.certDer ∧ KnownKey p dir made identity.keyDer
  | .created _ identity => identity ∈ made

/-- What holds of the store over every run that starts with `dir`. -/
structure Sound (p : Platform) (dir : Dir StateFile) (w : Store) : Prop where
  task : ∀ i t, w.tasks i = some t → i < w.next ∧ t.Knows p dir w.made ∧ t.At p w.dir i
  fresh : ∀ i, w.next ≤ i → w.dir.temporaries i = none
  cert : ∀ file, w.dir.files .cert = some file → KnownCert dir w.made file.bytes
  key : ∀ file, w.dir.files .key = some file → KnownFile p dir w.made file.bytes
  temporary : ∀ i file, w.dir.temporaries i = some file → Public p w.made file
  event : ∀ e ∈ w.events, e.Knows p dir w.made
  closed : p.windows = false → (∀ file, dir.files .key = some file → Closed file.mode) →
    (∀ file, w.dir.files .key = some file → Closed file.mode) ∧ ∀ mode ∈ w.seen, Closed mode

section

variable {p : Platform} {dir d d' : Dir StateFile} {made : List Identity} {w : Store} {i : ℕ}
  {t : Task} {file : File} {mode : Mode}

lemma closed_hardened (mode : Mode) : Closed (ownerOnly ||| (mode &&& 0o040)) := by
  unfold Closed
  rw [BitVec.and_or_distrib_right, BitVec.and_assoc]
  simp [ownerOnly]

lemma Closed.grant (h : Closed mode) : Closed (mode ||| 0o040) := by
  unfold Closed at h ⊢
  rw [BitVec.and_or_distrib_right, h]
  rfl

lemma closed_ownerOnly : Closed ownerOnly := by decide

lemma KnownCert.mono {certDer : List UInt8} (h : KnownCert dir made certDer) (m : Identity) :
    KnownCert dir (made ++ [m]) certDer :=
  h.imp id fun ⟨k, hk, heq⟩ => ⟨k, List.mem_append_left _ hk, heq⟩

lemma KnownKey.mono {keyDer : List UInt8} (h : KnownKey p dir made keyDer) (m : Identity) :
    KnownKey p dir (made ++ [m]) keyDer :=
  h.imp id fun ⟨k, hk, heq⟩ => ⟨k, List.mem_append_left _ hk, heq⟩

lemma Task.Knows.mono (h : t.Knows p dir made) (m : Identity) : t.Knows p dir (made ++ [m]) := by
  cases t with
  | readKey certDer => exact KnownCert.mono h m
  | harden identity mode => exact ⟨h.1.mono m, h.2.1.mono m, h.2.2⟩
  | stat identity => exact ⟨h.1.mono m, h.2.mono m⟩
  | protect identity => exact ⟨h.1.mono m, h.2.mono m⟩
  | migrate identity stage => exact ⟨h.1.mono m, h.2.mono m⟩
  | storeCert rotated identity stage => exact List.mem_append_left _ h
  | protectKey rotated identity => exact List.mem_append_left _ h
  | storeKey rotated identity stage => exact List.mem_append_left _ h
  | checkCert => trivial
  | checkKey => trivial
  | readCert => trivial
  | generate rotated => trivial

/-- More was generated. -/
lemma Sound.generated (h : Sound p dir w) (m : Identity) :
    Sound p dir { w with made := w.made ++ [m] } where
  task j t ht := by
    obtain ⟨hlt, hknows, hat⟩ := h.task j t ht
    exact ⟨hlt, hknows.mono m, hat⟩
  fresh := h.fresh
  cert file hfile := (h.cert file hfile).mono m
  key file hfile :=
    (h.key file hfile).imp id fun ⟨keyDer, hknown, heq⟩ => ⟨keyDer, hknown.mono m, heq⟩
  temporary j file hfile := (h.temporary j file hfile).imp
    (fun ⟨k, hk, hpart⟩ => ⟨k, List.mem_append_left _ hk, hpart⟩) id
  event e he := by
    have hknows := h.event e he
    cases e with
    | loaded identity => exact ⟨hknows.1.mono m, hknows.2.mono m⟩
    | created rotated identity => exact List.mem_append_left _ hknows
  closed := h.closed

lemma Sound.fail (h : Sound p dir w) (i : ℕ) : Sound p dir (w.fail i) where
  task j t ht := by
    refine h.task j t ?_
    rcases eq_or_ne j i with rfl | hne
    · dsimp only [Store.fail, Store.setTask] at ht
      rw [Function.update_self] at ht
      cases ht
    · exact (Function.update_of_ne hne ..).symm.trans ht
  fresh := h.fresh
  cert := h.cert
  key := h.key
  temporary := h.temporary
  event := h.event
  closed := h.closed

/-- A task goes on to what it knows. -/
lemma Sound.setTask (h : Sound p dir (w.fail i)) (hi : i < w.next)
    (hknows : t.Knows p dir w.made) (hat : t.At p w.dir i) :
    Sound p dir (w.setTask i (some t)) where
  task j u hu := by
    rcases eq_or_ne j i with rfl | hne
    · dsimp only [Store.setTask] at hu
      rw [Function.update_self] at hu
      obtain rfl := Option.some.inj hu
      exact ⟨hi, hknows, hat⟩
    · have hother : (w.fail i).tasks j = some u :=
        (Function.update_of_ne hne ..).trans ((Function.update_of_ne hne ..).symm.trans hu)
      exact h.task j u hother
  fresh := h.fresh
  cert := h.cert
  key := h.key
  temporary := h.temporary
  event := h.event
  closed := h.closed

lemma Sound.ret {e : Event} (h : Sound p dir (w.fail i)) (he : e.Knows p dir w.made) :
    Sound p dir (w.ret i e) where
  task := h.task
  fresh := h.fresh
  cert := h.cert
  key := h.key
  temporary := h.temporary
  event e' he' := by
    rcases List.mem_append.mp he' with he' | he'
    · exact h.event e' he'
    · rw [List.mem_singleton.mp he']
      exact he
  closed := h.closed

lemma Sound.setMode (h : Sound p dir w) (hfile : w.dir.files .key = some file)
    (hmode : p.windows = false → (∀ file, dir.files .key = some file → Closed file.mode) →
      Closed mode) : Sound p dir (w.setMode file mode) where
  task := h.task
  fresh := h.fresh
  cert := h.cert
  key f hf := by
    obtain rfl := Option.some.inj hf
    exact h.key file hfile
  temporary := h.temporary
  event := h.event
  closed hunix hstart := by
    refine ⟨fun f hf => ?_, (h.closed hunix hstart).2⟩
    obtain rfl := Option.some.inj hf
    exact hmode hunix hstart

/-- What tasks write: a certificate that was generated, or a known key. -/
def Storable (p : Platform) (dir : Dir StateFile) (made : List Identity)
    (wr : Write StateFile) : Prop :=
  (∃ m ∈ made, wr = Platform.certWrite m) ∨
    ∃ m : Identity, KnownKey p dir made m.keyDer ∧ wr = p.keyWrite m

lemma Task.At.congr (h : t.At p d i) (hsame : d'.temporaries i = d.temporaries i) :
    t.At p d' i := by
  cases t with
  | migrate identity stage => exact Write.At.congr h hsame
  | storeCert rotated made stage => exact Write.At.congr h hsame
  | storeKey rotated made stage => exact Write.At.congr h hsame
  | _ => exact hsame.trans h

lemma Storable.shows {wr : Write StateFile} (h : Storable p dir made wr)
    (hshows : wr.Shows file) : Public p made file := by
  rcases h with ⟨m, hm, rfl⟩ | ⟨m, hknown, rfl⟩
  · exact Or.inl ⟨m, hm, hshows.1⟩
  · refine Or.inr fun hunix => hshows.2 ?_
    rw [Platform.keyWrite, hunix]
    rfl

/-- The files after a call of a write. -/
lemma Sound.files {wr : Write StateFile} {stage : Stage} (outcome : Outcome) (h : Sound p dir w)
    (hat : wr.At w.dir i stage) (hwr : Storable p dir w.made wr) :
    let d' := (wr.step p.umask w.dir i stage outcome).1
    (∀ file, d'.files .cert = some file → KnownCert dir w.made file.bytes) ∧
    (∀ file, d'.files .key = some file → KnownFile p dir w.made file.bytes) ∧
    (p.windows = false → (∀ file, dir.files .key = some file → Closed file.mode) →
      ∀ file, d'.files .key = some file → Closed file.mode) := by
  dsimp only
  have hbecomes := hat.becomes p.umask outcome
  dsimp only at hbecomes
  cases hprogress : (wr.step p.umask w.dir i stage outcome).2 with
  | going stage' =>
    rw [hprogress] at hbecomes
    rw [hbecomes.2]
    exact ⟨h.cert, h.key, fun hunix hstart => (h.closed hunix hstart).1⟩
  | failed =>
    rw [hprogress] at hbecomes
    rw [show (wr.step p.umask w.dir i stage outcome).1.files = w.dir.files from hbecomes]
    exact ⟨h.cert, h.key, fun hunix hstart => (h.closed hunix hstart).1⟩
  | done =>
    rw [hprogress] at hbecomes
    obtain ⟨-, mode, hmode, hfiles⟩ := hbecomes
    rw [hfiles]
    rcases hwr with ⟨m, hm, rfl⟩ | ⟨m, hknown, rfl⟩
    · refine ⟨fun file hfile => ?_, h.key, fun hunix hstart => (h.closed hunix hstart).1⟩
      obtain rfl := Option.some.inj hfile
      exact Or.inr ⟨m, hm, rfl⟩
    · refine ⟨h.cert, fun file hfile => ?_, fun hunix hstart file hfile => ?_⟩
      · obtain rfl := Option.some.inj hfile
        exact Or.inr ⟨m.keyDer, hknown, rfl⟩
      · obtain rfl := Option.some.inj hfile
        have hrestricted : (p.keyWrite m).restricted = true := by
          rw [Platform.keyWrite, hunix]
          rfl
        rw [show mode = ownerOnly from hmode hrestricted]
        exact closed_ownerOnly

/-- A call of a write, without the task that makes it. -/
lemma Sound.writeDir {wr : Write StateFile} {stage : Stage} (outcome : Outcome)
    (h : Sound p dir w) (hi : i < w.next) (hat : wr.At w.dir i stage)
    (hwr : Storable p dir w.made wr) :
    Sound p dir
      (({ w with dir := (wr.step p.umask w.dir i stage outcome).1 } : Store).fail i) := by
  obtain ⟨hcert, hkey, hclosed⟩ := h.files outcome hat hwr
  refine ⟨fun j u hu => ?_, fun j hj => ?_, hcert, hkey, fun j file hfile => ?_, h.event,
    fun hunix hstart => ⟨hclosed hunix hstart, (h.closed hunix hstart).2⟩⟩
  · rcases eq_or_ne j i with rfl | hne
    · dsimp only [Store.fail, Store.setTask] at hu
      rw [Function.update_self] at hu
      cases hu
    · obtain ⟨hlt, hknows, hat'⟩ := h.task j u ((Function.update_of_ne hne ..).symm.trans hu)
      exact ⟨hlt, hknows, hat'.congr (step_temporaries_of_ne hne)⟩
  · have hne : j ≠ i := (hi.trans_le hj).ne'
    exact (step_temporaries_of_ne hne).trans (h.fresh j hj)
  · rcases eq_or_ne j i with rfl | hne
    · exact hwr.shows (hat.step_shows hfile)
    · exact h.temporary j file ((step_temporaries_of_ne hne).symm.trans hfile)

/-- A call of a write by its task. -/
lemma Sound.write {wr : Write StateFile} {stage : Stage} (outcome : Outcome)
    {going : Stage → Task} {done : Store → Store} (h : Sound p dir w) (hi : i < w.next)
    (hat : wr.At w.dir i stage) (hwr : Storable p dir w.made wr)
    (hgoing : ∀ d' stage', wr.At d' i stage' →
      (going stage').Knows p dir w.made ∧ (going stage').At p d' i)
    (hdone : ∀ d', d'.temporaries i = none →
      Sound p dir (({ w with dir := d' } : Store).fail i) →
      Sound p dir (done { w with dir := d' })) :
    Sound p dir (w.write p i wr stage outcome going done) := by
  have hbecomes := hat.becomes p.umask outcome
  have hdir := h.writeDir outcome hi hat hwr
  unfold Store.write
  dsimp only at hbecomes ⊢
  generalize wr.step p.umask w.dir i stage outcome = r at hbecomes hdir ⊢
  obtain ⟨d', progress⟩ := r
  cases progress with
  | going stage' =>
    obtain ⟨hknows, hat'⟩ := hgoing d' stage' hbecomes.1
    exact hdir.setTask hi hknows hat'
  | done => exact hdone d' hbecomes.1 hdir
  | failed => exact hdir

/-- What the data protection takes it gives back. -/
def Platform.Unprotects (p : Platform) : Prop :=
  p.windows = true → ∀ keyDer, p.unprotect (p.protect keyDer) = some keyDer

lemma keyOf_storedKeyBytes (hround : p.Unprotects) (keyDer : List UInt8) :
    p.keyOf (p.storedKeyBytes keyDer) = some keyDer := by
  unfold Platform.keyOf Platform.storedKeyBytes
  cases hwindows : p.windows with
  | false => rfl
  | true =>
    have hmagic : magic.isPrefixOf (magic ++ p.protect keyDer) = true :=
      List.isPrefixOf_iff_prefix.mpr (List.prefix_append _ _)
    rw [if_pos rfl, if_pos (by rw [hmagic]; rfl), List.drop_left]
    exact hround hwindows keyDer

lemma KnownFile.keyOf (hround : p.Unprotects) {bytes keyDer : List UInt8}
    (h : KnownFile p dir made bytes) (hkey : p.keyOf bytes = some keyDer) :
    KnownKey p dir made keyDer := by
  rcases h with ⟨file, hfile, rfl⟩ | ⟨k, hknown, rfl⟩
  · exact Or.inl ⟨file, hfile, hkey⟩
  · rw [keyOf_storedKeyBytes hround] at hkey
    obtain rfl := Option.some.inj hkey
    exact hknown

/-- Every call of a task keeps what holds of the store. -/
lemma Sound.advance (hround : p.Unprotects) (h : Sound p dir w) (ht : w.tasks i = some t)
    (outcome : Outcome) : Sound p dir (w.advance p i outcome t) := by
  obtain ⟨hi, hknows, hat⟩ := h.task i t ht
  have hfail := h.fail i
  cases t with
  | checkCert =>
    unfold Store.advance
    dsimp only
    split
    · exact hfail.setTask hi trivial hat
    · exact hfail.setTask hi trivial hat
  | checkKey =>
    unfold Store.advance
    dsimp only
    split
    · exact hfail.setTask hi trivial hat
    · exact hfail.setTask hi trivial hat
  | readCert =>
    unfold Store.advance
    dsimp only
    split
    · exact hfail.setTask hi (h.cert _ (by assumption)) hat
    · exact hfail
  | readKey certDer =>
    unfold Store.advance
    dsimp only
    split
    · rename_i file hfile
      have hkey := h.key file hfile
      split_ifs with hwindows hmagic
      · split
        · rename_i keyDer hunprotect
          refine hfail.ret ⟨hknows, hkey.keyOf hround ?_⟩
          unfold Platform.keyOf
          rw [if_pos (by rw [hwindows, hmagic]; rfl)]
          exact hunprotect
        · exact hfail
      · refine hfail.setTask hi ⟨hknows, hkey.keyOf hround ?_⟩ hat
        unfold Platform.keyOf
        rw [if_neg (by rw [hwindows, Bool.true_and]; exact hmagic)]
      · refine hfail.setTask hi ⟨hknows, hkey.keyOf hround ?_⟩ hat
        unfold Platform.keyOf
        rw [if_neg]
        rw [Bool.and_eq_true]
        exact fun hboth => hwindows hboth.1
    · exact hfail
  | stat identity =>
    unfold Store.advance
    dsimp only
    split
    · split_ifs
      · exact hfail.ret hknows
      · exact hfail.setTask hi ⟨hknows.1, hknows.2, closed_hardened _⟩ hat
    · exact hfail
  | harden identity mode =>
    unfold Store.advance
    dsimp only
    split
    · rename_i file hfile
      have hset := h.setMode hfile (fun _ _ => hknows.2.2)
      exact (hset.fail i).ret ⟨hknows.1, hknows.2.1⟩
    · exact hfail
  | protect identity =>
    unfold Store.advance
    cases outcome with
    | ok count => exact hfail.setTask hi hknows hat
    | failed removed => exact hfail
  | migrate identity stage =>
    unfold Store.advance
    dsimp only
    refine h.write outcome hi hat (Or.inr ⟨identity, hknows.2, rfl⟩) ?_ ?_
    · exact fun d' stage' hat' => ⟨hknows, hat'⟩
    · exact fun d' _ hdir => hdir.ret hknows
  | generate rotated =>
    unfold Store.advance
    cases outcome with
    | ok count => exact hfail.setTask hi trivial hat
    | failed removed => exact hfail
  | storeCert rotated identity stage =>
    unfold Store.advance
    dsimp only
    refine h.write outcome hi hat (Or.inl ⟨identity, hknows, rfl⟩) ?_ ?_
    · exact fun d' stage' hat' => ⟨hknows, hat'⟩
    · exact fun d' htemporary hdir => hdir.setTask hi hknows htemporary
  | protectKey rotated identity =>
    unfold Store.advance
    cases outcome with
    | ok count => exact hfail.setTask hi hknows hat
    | failed removed => exact hfail
  | storeKey rotated identity stage =>
    unfold Store.advance
    dsimp only
    refine h.write outcome hi hat (Or.inr ⟨identity, Or.inr ⟨identity, hknows, rfl⟩, rfl⟩) ?_ ?_
    · exact fun d' stage' hat' => ⟨hknows, hat'⟩
    · exact fun d' _ hdir => hdir.ret hknows

lemma Sound.begin (h : Sound p dir w) (hknows : t.Knows p dir w.made)
    (hat : w.dir.temporaries w.next = none → t.At p w.dir w.next) :
    Sound p dir (w.begin t) where
  task j u hu := by
    rcases eq_or_ne j w.next with rfl | hne
    · dsimp only [Store.begin, Store.setTask] at hu
      rw [Function.update_self] at hu
      obtain rfl := Option.some.inj hu
      exact ⟨Nat.lt_succ_self _, hknows, hat (h.fresh _ (Nat.le_refl _))⟩
    · obtain ⟨hlt, hknows', hat'⟩ := h.task j u ((Function.update_of_ne hne ..).symm.trans hu)
      exact ⟨hlt.trans (Nat.lt_succ_self _), hknows', hat'⟩
  fresh j hj := h.fresh j ((Nat.le_succ _).trans hj)
  cert := h.cert
  key := h.key
  temporary := h.temporary
  event := h.event
  closed := h.closed

lemma Sound.step (hround : p.Unprotects) (h : Sound p dir w) (op : Op) :
    Sound p dir (w.step p op).1 := by
  cases op with
  | load => exact h.begin trivial id
  | rotate => exact h.begin trivial id
  | call j outcome =>
    unfold Store.step
    dsimp only
    cases ht : w.tasks j with
    | none => exact h
    | some t => exact h.advance hround ht outcome
  | generated j m =>
    unfold Store.step
    dsimp only
    split
    · rename_i rotated ht
      obtain ⟨hi, -, hat⟩ := h.task j _ ht
      have hgenerated := (h.generated m).fail j
      exact hgenerated.setTask hi (List.mem_append_right _ List.mem_cons_self) hat
    · exact h
  | kill j => exact h.fail j
  | read =>
    unfold Store.step
    dsimp only
    split
    · rename_i file hfile
      refine ⟨h.task, h.fresh, h.cert, h.key, h.temporary, h.event, fun hunix hstart => ?_⟩
      obtain ⟨hkey, hseen⟩ := h.closed hunix hstart
      refine ⟨hkey, fun mode hmode => ?_⟩
      rcases List.mem_append.mp hmode with hmode | hmode
      · exact hseen mode hmode
      · rw [List.mem_singleton.mp hmode]
        exact hkey file hfile
    · exact h
  | grant n =>
    unfold Store.step
    dsimp only
    split
    · rename_i mode file hmode hfile
      refine h.setMode hfile fun hunix hstart => ?_
      exact ((h.closed hunix hstart).2 mode (List.mem_of_getElem? hmode)).grant
    · exact h

lemma sound_after (hround : p.Unprotects) (hdir : ∀ i, dir.temporaries i = none) (l : List Op) :
    Sound p dir (Store.after p dir l) := by
  refine Trace.always (I := fun _ w => Sound p dir w) ?_ (fun _ op h => h.step hround op)
  exact {
    task := fun i t ht => by cases ht
    fresh := fun i _ => hdir i
    cert := fun file hfile => Or.inl ⟨file, hfile, rfl⟩
    key := fun file hfile => Or.inl ⟨file, hfile, rfl⟩
    temporary := fun i file hfile => by
      rw [show (Store.start dir).dir.temporaries i = none from hdir i] at hfile
      cases hfile
    event := fun e he => by cases he
    closed := fun _ hstart => ⟨hstart, fun mode hmode => by cases hmode⟩ }

end

/-! ### One task at a time -/

/-- What stands in the files is a register: what is loaded was there or was created last, and
loading creates only where there is nothing. -/
def Follows : Option Identity → List Event → Prop
  | _, [] => True
  | current, .loaded identity :: events => current = some identity ∧ Follows current events
  | current, .created rotated identity :: events =>
    (rotated = false → current = none) ∧ Follows (some identity) events

/-- What is there after the events. -/
def latest (current : Option Identity) (events : List Event) : Option Identity :=
  events.foldl (fun current event =>
    match event with
    | .loaded _ => current
    | .created _ identity => some identity) current

def bytesOf (d : Dir StateFile) (name : StateFile) : Option (List UInt8) :=
  (d.files name).map File.bytes

/-- The files hold an identity, or one is missing. -/
def Holds (p : Platform) (d : Dir StateFile) : Option Identity → Prop
  | some identity => bytesOf d .cert = some identity.certDer ∧
      (bytesOf d .key).bind p.keyOf = some identity.keyDer
  | none => bytesOf d .cert = none ∨ bytesOf d .key = none

/-- The certificate of the task is stored, and its key is not. -/
def Task.Between : Task → Prop
  | .protectKey .. | .storeKey .. => True
  | _ => False

instance : DecidablePred Task.Between
  | .protectKey .. | .storeKey .. => isTrue trivial
  | .checkCert | .checkKey | .readCert | .readKey _ | .stat _ | .harden .. | .protect _
  | .migrate .. | .generate _ | .storeCert .. => isFalse id

/-- A task begins when no other is under way, one that is between its two files leaves off only
where there was no key, and a file is not taken to be missing where it is not. -/
def Undisturbed (w : Store) : Op → Prop
  | .load | .rotate => ∀ i < w.next, w.tasks i = none
  | .kill i => ∀ t ∈ w.tasks i, t.Between → bytesOf w.dir .key = none
  | .call i (.failed _) => ∀ t ∈ w.tasks i,
      (t.Between ∨ t = .checkKey → bytesOf w.dir .key = none) ∧
      (t = .checkCert → bytesOf w.dir .cert = none)
  | _ => True

instance (w : Store) : DecidablePred (Undisturbed w)
  | .load | .rotate => inferInstanceAs (Decidable (∀ i < w.next, w.tasks i = none))
  | .kill i => inferInstanceAs (Decidable (∀ t ∈ w.tasks i, t.Between → _))
  | .call i (.failed _) => inferInstanceAs (Decidable (∀ t ∈ w.tasks i,
      (t.Between ∨ t = .checkKey → _) ∧ (t = .checkCert → _)))
  | .call _ (.ok _) | .generated .. | .read | .grant _ => isTrue trivial

/-- How a task stands to what is in the files. -/
def Task.Stands (p : Platform) (d : Dir StateFile) (current : Option Identity) : Task → Prop
  | .checkCert => Holds p d current
  | .checkKey => Holds p d current ∧ bytesOf d .cert ≠ none
  | .readCert => Holds p d current ∧ current ≠ none
  | .readKey certDer => Holds p d current ∧ current.map Identity.certDer = some certDer
  | .stat identity | .harden identity _ | .protect identity | .migrate identity _ =>
    Holds p d current ∧ current = some identity
  | .generate rotated | .storeCert rotated _ _ =>
    Holds p d current ∧ (rotated = false → current = none)
  | .protectKey rotated made | .storeKey rotated made _ =>
    bytesOf d .cert = some made.certDer ∧ (rotated = false → current = none) ∧
      (current ≠ none → bytesOf d .key ≠ none)

/-- What holds of the store over undisturbed runs. -/
structure Serial (p : Platform) (first : Option Identity) (w : Store) : Prop where
  follows : Follows first w.events
  one : ∀ i j, w.tasks i ≠ none → w.tasks j ≠ none → i = j
  stands : ∀ i t, w.tasks i = some t → t.Stands p w.dir (latest first w.events)
  rest : (∀ i, w.tasks i = none) → Holds p w.dir (latest first w.events)

section

variable {p : Platform} {dir d d' : Dir StateFile} {first current : Option Identity} {w : Store}
  {i : ℕ} {t : Task} {event : Event} {events : List Event} {identity : Identity}

lemma latest_snoc : latest current (events ++ [event]) = latest (latest current events) [event] :=
  List.foldl_append

lemma follows_snoc :
    Follows current (events ++ [event]) ↔
      Follows current events ∧ Follows (latest current events) [event] := by
  induction events generalizing current with
  | nil => exact (iff_of_eq (true_and _)).symm
  | cons e events ih =>
    cases e with
    | loaded identity => exact (and_congr_right fun _ => ih).trans and_assoc.symm
    | created rotated identity => exact (and_congr_right fun _ => ih).trans and_assoc.symm

lemma Holds.congr (h : Holds p d current) (hsame : ∀ name, bytesOf d' name = bytesOf d name) :
    Holds p d' current := by
  cases current <;> simpa only [Holds, hsame] using h

lemma Task.Stands.congr (h : t.Stands p d current)
    (hsame : ∀ name, bytesOf d' name = bytesOf d name) : t.Stands p d' current := by
  cases t with
  | checkCert => exact Holds.congr h hsame
  | checkKey => exact ⟨h.1.congr hsame, hsame .cert ▸ h.2⟩
  | readCert => exact ⟨h.1.congr hsame, h.2⟩
  | readKey certDer => exact ⟨h.1.congr hsame, h.2⟩
  | stat identity => exact ⟨h.1.congr hsame, h.2⟩
  | harden identity mode => exact ⟨h.1.congr hsame, h.2⟩
  | protect identity => exact ⟨h.1.congr hsame, h.2⟩
  | migrate identity stage => exact ⟨h.1.congr hsame, h.2⟩
  | generate rotated => exact ⟨h.1.congr hsame, h.2⟩
  | storeCert rotated made stage => exact ⟨h.1.congr hsame, h.2⟩
  | protectKey rotated made => exact ⟨(hsame .cert).trans h.1, h.2.1, hsame .key ▸ h.2.2⟩
  | storeKey rotated made stage => exact ⟨(hsame .cert).trans h.1, h.2.1, hsame .key ▸ h.2.2⟩

/-- Where a file is missing there is no identity. -/
lemma Holds.eq_none (h : Holds p d current)
    (hmissing : bytesOf d .cert = none ∨ bytesOf d .key = none) : current = none := by
  cases current with
  | none => rfl
  | some identity =>
    obtain ⟨hcert, hkey⟩ := h
    rcases hmissing with hmissing | hmissing
    · rw [hmissing] at hcert
      cases hcert
    · rw [hmissing] at hkey
      cases hkey

lemma Holds.isSome (h : Holds p d current) (hcert : bytesOf d .cert ≠ none)
    (hkey : bytesOf d .key ≠ none) : current ≠ none := by
  rintro rfl
  rcases h with h | h
  · exact hcert h
  · exact hkey h

/-- The task that is under way goes on. -/
lemma Serial.goto (hfollows : Follows first w.events) (honly : ∀ j, j ≠ i → w.tasks j = none)
    (hstands : t.Stands p w.dir (latest first w.events)) :
    Serial p first (w.setTask i (some t)) where
  follows := hfollows
  one j k hj hk := by
    have hi : ∀ j, (w.setTask i (some t)).tasks j ≠ none → j = i := by
      intro j hj
      by_contra hne
      exact hj ((Function.update_of_ne hne ..).trans (honly j hne))
    rw [hi j hj, hi k hk]
  stands j u hu := by
    rcases eq_or_ne j i with rfl | hne
    · dsimp only [Store.setTask] at hu
      rw [Function.update_self] at hu
      obtain rfl := Option.some.inj hu
      exact hstands
    · have hnone := (Function.update_of_ne hne (some t) w.tasks).trans (honly j hne)
      exact absurd (hnone.symm.trans hu) (by simp)
  rest hnone := by
    have hi := hnone i
    dsimp only [Store.setTask] at hi
    rw [Function.update_self] at hi
    cases hi

lemma tasks_fail (honly : ∀ j, j ≠ i → w.tasks j = none) (j : ℕ) : (w.fail i).tasks j = none := by
  rcases eq_or_ne j i with rfl | hne
  · exact Function.update_self ..
  · exact (Function.update_of_ne hne ..).trans (honly j hne)

/-- It leaves off. -/
lemma Serial.gone (hfollows : Follows first w.events) (honly : ∀ j, j ≠ i → w.tasks j = none)
    (hholds : Holds p w.dir (latest first w.events)) : Serial p first (w.fail i) where
  follows := hfollows
  one j k hj := absurd (tasks_fail honly j) hj
  stands j u hu := by
    rw [tasks_fail honly j] at hu
    cases hu
  rest _ := hholds

/-- It returns an identity. -/
lemma Serial.returned (hfollows : Follows first w.events)
    (honly : ∀ j, j ≠ i → w.tasks j = none) (he : Follows (latest first w.events) [event])
    (hholds : Holds p w.dir (latest (latest first w.events) [event])) :
    Serial p first (w.ret i event) where
  follows := follows_snoc.mpr ⟨hfollows, he⟩
  one j k hj := absurd (tasks_fail honly j) hj
  stands j u hu := by
    have hnone : (w.ret i event).tasks j = none := tasks_fail honly j
    rw [hnone] at hu
    cases hu
  rest _ := by
    have hlatest : latest first (w.ret i event).events =
        latest (latest first w.events) [event] := latest_snoc
    rw [hlatest]
    exact hholds

/-- It makes a call of a write. -/
lemma Serial.write {wr : Write StateFile} {stage : Stage} (outcome : Outcome)
    {going : Stage → Task} {done : Store → Store} (hfollows : Follows first w.events)
    (honly : ∀ j, j ≠ i → w.tasks j = none) (hat : wr.At w.dir i stage)
    (hgoing : ∀ stage', (going stage').Stands p w.dir (latest first w.events))
    (hdone : ∀ d' mode, d'.files = Function.update w.dir.files wr.name (some ⟨wr.bytes, mode⟩) →
      Serial p first (done { w with dir := d' }))
    (hfailed : ∀ removed, outcome = .failed removed →
      Holds p w.dir (latest first w.events)) :
    Serial p first (w.write p i wr stage outcome going done) := by
  have hbecomes := hat.becomes p.umask outcome
  have herror := @step_failed _ _ wr w.dir i stage p.umask outcome
  unfold Store.write
  dsimp only at hbecomes ⊢
  generalize wr.step p.umask w.dir i stage outcome = r at hbecomes herror ⊢
  obtain ⟨d', progress⟩ := r
  cases progress with
  | going stage' =>
    have hsame : ∀ name, bytesOf d' name = bytesOf w.dir name := fun name => by
      unfold bytesOf
      rw [hbecomes.2]
    exact Serial.goto hfollows honly ((hgoing stage').congr hsame)
  | done =>
    obtain ⟨-, mode, -, hfiles⟩ := hbecomes
    exact hdone d' mode hfiles
  | failed =>
    have hsame : ∀ name, bytesOf d' name = bytesOf w.dir name := fun name => by
      unfold bytesOf
      rw [show d'.files = w.dir.files from hbecomes]
    obtain ⟨removed, houtcome⟩ := herror rfl
    exact Serial.gone hfollows honly ((hfailed removed houtcome).congr hsame)

lemma bytesOf_setMode {file : File} {mode : Mode} (hfile : w.dir.files .key = some file)
    (name : StateFile) : bytesOf (w.setMode file mode).dir name = bytesOf w.dir name := by
  cases name with
  | cert => rfl
  | key =>
    unfold bytesOf
    rw [hfile]
    rfl

/-- The next call of the task that is under way. -/
lemma Serial.advance (hround : p.Unprotects) (hsound : Sound p dir w) (h : Serial p first w)
    (ht : w.tasks i = some t) {outcome : Outcome} (hop : Undisturbed w (.call i outcome)) :
    Serial p first (w.advance p i outcome t) := by
  have hfollows := h.follows
  have honly : ∀ j, j ≠ i → w.tasks j = none := by
    intro j hne
    by_contra hj
    exact hne (h.one j i hj (by rw [ht]; simp))
  have hstands := h.stands i t ht
  have hat := (hsound.task i t ht).2.2
  cases t with
  | checkCert =>
    have hmissing : bytesOf w.dir .cert = none →
        Serial p first (w.setTask i (some (.generate false))) := fun hcert =>
      Serial.goto hfollows honly ⟨hstands, fun _ => hstands.eq_none (Or.inl hcert)⟩
    cases outcome with
    | failed removed => exact hmissing ((hop _ ht).2 rfl)
    | ok count =>
      unfold Store.advance
      dsimp only
      cases hfile : w.dir.files .cert with
      | none => exact hmissing (by rw [bytesOf, hfile]; rfl)
      | some file =>
        exact Serial.goto hfollows honly ⟨hstands, by rw [bytesOf, hfile]; simp⟩
  | checkKey =>
    obtain ⟨hholds, hcert⟩ := hstands
    have hmissing : bytesOf w.dir .key = none →
        Serial p first (w.setTask i (some (.generate false))) := fun hkey =>
      Serial.goto hfollows honly ⟨hholds, fun _ => hholds.eq_none (Or.inr hkey)⟩
    cases outcome with
    | failed removed => exact hmissing ((hop _ ht).1 (Or.inr rfl))
    | ok count =>
      unfold Store.advance
      dsimp only
      cases hfile : w.dir.files .key with
      | none => exact hmissing (by rw [bytesOf, hfile]; rfl)
      | some file =>
        exact Serial.goto hfollows honly
          ⟨hholds, hholds.isSome hcert (by rw [bytesOf, hfile]; simp)⟩
  | readCert =>
    obtain ⟨hholds, hcurrent⟩ := hstands
    obtain ⟨identity, hidentity⟩ := Option.ne_none_iff_exists'.mp hcurrent
    cases outcome with
    | failed removed => exact Serial.gone hfollows honly hholds
    | ok count =>
      unfold Store.advance
      dsimp only
      cases hfile : w.dir.files .cert with
      | none => exact Serial.gone hfollows honly hholds
      | some file =>
        refine Serial.goto hfollows honly ⟨hholds, ?_⟩
        rw [hidentity] at hholds ⊢
        have hcert := hholds.1
        rw [bytesOf, hfile, Option.map_some] at hcert
        exact hcert.symm
  | readKey certDer =>
    obtain ⟨hholds, hcert⟩ := hstands
    obtain ⟨⟨certDer', keyDer⟩, hidentity, rfl⟩ := Option.map_eq_some_iff.mp hcert
    cases outcome with
    | failed removed => exact Serial.gone hfollows honly hholds
    | ok count =>
      unfold Store.advance
      dsimp only
      cases hfile : w.dir.files .key with
      | none => exact Serial.gone hfollows honly hholds
      | some file =>
        have hkey : p.keyOf file.bytes = some keyDer := by
          have hkey := hholds
          rw [hidentity] at hkey
          have hkey := hkey.2
          rwa [bytesOf, hfile, Option.map_some, Option.bind_some] at hkey
        unfold Platform.keyOf at hkey
        dsimp only
        split_ifs with hwindows hmagic
        · rw [if_pos (by rw [hwindows, hmagic]; rfl)] at hkey
          rw [hkey]
          exact Serial.returned hfollows honly ⟨hidentity, trivial⟩ hholds
        · rw [if_neg (by rw [hwindows, Bool.true_and]; exact hmagic)] at hkey
          obtain rfl := Option.some.inj hkey
          exact Serial.goto hfollows honly ⟨hholds, hidentity⟩
        · rw [if_neg (by rw [Bool.and_eq_true]; exact fun hboth => hwindows hboth.1)] at hkey
          obtain rfl := Option.some.inj hkey
          exact Serial.goto hfollows honly ⟨hholds, hidentity⟩
  | stat identity =>
    obtain ⟨hholds, hidentity⟩ := hstands
    cases outcome with
    | failed removed => exact Serial.gone hfollows honly hholds
    | ok count =>
      unfold Store.advance
      dsimp only
      cases hfile : w.dir.files .key with
      | none => exact Serial.gone hfollows honly hholds
      | some file =>
        dsimp only
        split_ifs
        · exact Serial.returned hfollows honly ⟨hidentity, trivial⟩ hholds
        · exact Serial.goto hfollows honly ⟨hholds, hidentity⟩
  | harden identity mode =>
    obtain ⟨hholds, hidentity⟩ := hstands
    cases outcome with
    | failed removed => exact Serial.gone hfollows honly hholds
    | ok count =>
      unfold Store.advance
      dsimp only
      cases hfile : w.dir.files .key with
      | none => exact Serial.gone hfollows honly hholds
      | some file =>
        exact Serial.returned (w := w.setMode file mode) hfollows honly ⟨hidentity, trivial⟩
          (hholds.congr (bytesOf_setMode hfile))
  | protect identity =>
    obtain ⟨hholds, hidentity⟩ := hstands
    cases outcome with
    | ok count => exact Serial.goto hfollows honly ⟨hholds, hidentity⟩
    | failed removed => exact Serial.gone hfollows honly hholds
  | migrate identity stage =>
    obtain ⟨hholds, hidentity⟩ := hstands
    unfold Store.advance
    dsimp only
    refine Serial.write outcome hfollows honly hat (fun _ => ⟨hholds, hidentity⟩) ?_
      (fun _ _ => hholds)
    intro d' mode hfiles
    refine Serial.returned (w := { w with dir := d' }) hfollows honly ⟨hidentity, trivial⟩ ?_
    have hcert : bytesOf w.dir .cert = some identity.certDer := by
      rw [hidentity] at hholds
      exact hholds.1
    rw [show latest (latest first w.events) [.loaded identity] = some identity from hidentity]
    refine ⟨?_, ?_⟩
    · rw [bytesOf, hfiles]
      exact hcert
    · rw [bytesOf, hfiles]
      exact keyOf_storedKeyBytes hround identity.keyDer
  | generate rotated =>
    cases outcome with
    | ok count => exact Serial.goto hfollows honly hstands
    | failed removed => exact Serial.gone hfollows honly hstands.1
  | storeCert rotated made stage =>
    obtain ⟨hholds, hrotated⟩ := hstands
    unfold Store.advance
    dsimp only
    refine Serial.write outcome hfollows honly hat (fun _ => ⟨hholds, hrotated⟩) ?_
      (fun _ _ => hholds)
    intro d' mode hfiles
    refine Serial.goto (w := { w with dir := d' }) hfollows honly ⟨?_, hrotated, ?_⟩
    · rw [bytesOf, hfiles]
      rfl
    · intro hcurrent hkey
      rw [bytesOf, hfiles] at hkey
      exact hcurrent (hholds.eq_none (Or.inr hkey))
  | protectKey rotated made =>
    obtain ⟨hcert, hrotated, hkey⟩ := hstands
    cases outcome with
    | ok count => exact Serial.goto hfollows honly ⟨hcert, hrotated, hkey⟩
    | failed removed =>
      have hmissing := (hop _ ht).1 (Or.inl trivial)
      refine Serial.gone hfollows honly ?_
      rw [show latest first w.events = none from by_contra fun hne => hkey hne hmissing]
      exact Or.inr hmissing
  | storeKey rotated made stage =>
    obtain ⟨hcert, hrotated, hkey⟩ := hstands
    unfold Store.advance
    dsimp only
    refine Serial.write outcome hfollows honly hat (fun _ => ⟨hcert, hrotated, hkey⟩) ?_ ?_
    · intro d' mode hfiles
      refine Serial.returned (w := { w with dir := d' }) hfollows honly ⟨hrotated, trivial⟩ ?_
      refine ⟨?_, ?_⟩
      · rw [bytesOf, hfiles]
        exact hcert
      · rw [bytesOf, hfiles]
        exact keyOf_storedKeyBytes hround made.keyDer
    · rintro removed rfl
      have hmissing := (hop _ ht).1 (Or.inl trivial)
      rw [show latest first w.events = none from by_contra fun hne => hkey hne hmissing]
      exact Or.inr hmissing

/-- A task that leaves off leaves what was there. -/
lemma Task.Stands.holds (h : t.Stands p d current)
    (hleave : t.Between → bytesOf d .key = none) : Holds p d current := by
  have hbetween : current = none ∨ bytesOf d .key ≠ none → t.Between → Holds p d current := by
    rintro (rfl | hkey) hbetween
    · exact Or.inr (hleave hbetween)
    · exact absurd (hleave hbetween) hkey
  cases t with
  | checkCert => exact h
  | protectKey rotated made =>
    exact hbetween ((em (current = none)).imp id h.2.2) trivial
  | storeKey rotated made stage =>
    exact hbetween ((em (current = none)).imp id h.2.2) trivial
  | _ => exact h.1

lemma Serial.begin (hsound : Sound p dir w) (h : Serial p first w)
    (halone : ∀ i < w.next, w.tasks i = none)
    (ht : Holds p w.dir (latest first w.events) → t.Stands p w.dir (latest first w.events)) :
    Serial p first (w.begin t) := by
  have hnone : ∀ i, w.tasks i = none := by
    intro i
    by_contra hne
    obtain ⟨u, hu⟩ := Option.ne_none_iff_exists'.mp hne
    exact hne (halone i (hsound.task i u hu).1)
  obtain ⟨hfollows, hone, hstands, hrest⟩ :=
    Serial.goto (i := w.next) h.follows (fun j _ => hnone j) (ht (h.rest hnone))
  exact ⟨hfollows, hone, hstands, hrest⟩

/-- Files with the same bytes stand the same way. -/
lemma Serial.congr {d : Dir StateFile} (h : Serial p first w)
    (hsame : ∀ name, bytesOf d name = bytesOf w.dir name) :
    Serial p first { w with dir := d } where
  follows := h.follows
  one := h.one
  stands i t ht := (h.stands i t ht).congr hsame
  rest hnone := (h.rest hnone).congr hsame

/-- Undisturbed steps keep to the register. -/
lemma Serial.step (hround : p.Unprotects) (hsound : Sound p dir w) (h : Serial p first w)
    {op : Op} (hop : Undisturbed w op) : Serial p first (w.step p op).1 := by
  cases op with
  | load => exact h.begin hsound hop id
  | rotate => exact h.begin hsound hop fun hholds => ⟨hholds, nofun⟩
  | call i outcome =>
    unfold Store.step
    dsimp only
    cases ht : w.tasks i with
    | none => exact h
    | some t => exact h.advance hround hsound ht hop
  | generated i made =>
    unfold Store.step
    dsimp only
    split
    · rename_i rotated ht
      have honly : ∀ j, j ≠ i → w.tasks j = none := by
        intro j hne
        by_contra hj
        exact hne (h.one j i hj (by rw [ht]; simp))
      have hstands : (Task.storeCert rotated made .opening).Stands p w.dir
          (latest first w.events) := h.stands i (.generate rotated) ht
      obtain ⟨hfollows, hone, hstands, hrest⟩ := Serial.goto h.follows honly hstands
      exact ⟨hfollows, hone, hstands, hrest⟩
    · exact h
  | kill i =>
    unfold Store.step
    dsimp only
    cases ht : w.tasks i with
    | none =>
      have hsame : w.fail i = w := by
        unfold Store.fail Store.setTask
        rw [← ht, Function.update_eq_self]
      rw [hsame]
      exact h
    | some t =>
      have honly : ∀ j, j ≠ i → w.tasks j = none := by
        intro j hne
        by_contra hj
        exact hne (h.one j i hj (by rw [ht]; simp))
      exact Serial.gone h.follows honly ((h.stands i t ht).holds (hop t ht))
  | read =>
    unfold Store.step
    dsimp only
    split
    · exact ⟨h.follows, h.one, h.stands, h.rest⟩
    · exact h
  | grant n =>
    unfold Store.step
    dsimp only
    split
    · rename_i mode file hmode hfile
      exact h.congr (bytesOf_setMode hfile)
    · exact h

end

namespace Store

/-- **The identity is whole, its owner's, and a register.** However loads and rotations interleave
and wherever they fail or are killed: what stands in a file, and what a task returns, was there at
the start or was generated, as a whole; a key is never open to others, neither in its file, if it
was not at the start, nor in what a task leaves behind. And where tasks come one at a time, none
leaves off between its two files over an old key, and no file is mistaken for missing, every load
returns the identity of the start or the one that was created last, nothing but a rotation creates
where there is one, and what is at rest in the files is that identity. -/
theorem identity_register {p : Platform} (hround : p.Unprotects) {dir : Dir StateFile}
    (hdir : ∀ i, dir.temporaries i = none) {first : Option Identity} (hfirst : Holds p dir first)
    (l : List Op) :
    let w := after p dir l
    (∀ file, w.dir.files .cert = some file → KnownCert dir w.made file.bytes) ∧
    (∀ file, w.dir.files .key = some file → KnownFile p dir w.made file.bytes) ∧
    (∀ event ∈ w.events, event.Knows p dir w.made) ∧
    (∀ i file, w.dir.temporaries i = some file → Public p w.made file) ∧
    (p.windows = false → (∀ file, dir.files .key = some file → Closed file.mode) →
      ∀ file, w.dir.files .key = some file → Closed file.mode) ∧
    (Trace.Each (fun m => Undisturbed (after p dir m)) l →
      Follows first w.events ∧
      ((∀ i, w.tasks i = none) → Holds p w.dir (latest first w.events))) := by
  have hsound := sound_after hround hdir
  have hw := hsound l
  refine ⟨hw.cert, hw.key, hw.event, hw.temporary,
    fun hunix hstart => (hw.closed hunix hstart).1, fun hop => ?_⟩
  have hserial : Serial p first (after p dir l) := by
    refine Trace.invariant (I := fun _ w => Serial p first w) ?_ (fun m op h hop => ?_) hop
    · refine ⟨trivial, fun i j hi => absurd rfl hi, fun i t ht => ?_, fun _ => hfirst⟩
      cases ht
    · exact h.step hround (hsound m) hop
  exact ⟨hserial.follows, hserial.rest⟩

/-- A system without data protection, on an empty directory. -/
def unix : Platform := ⟨false, 0o644, id, some⟩

def empty : Dir StateFile := ⟨fun _ => none, fun _ => none⟩

/-- The calls of a task that all succeed. -/
def calls (i n : ℕ) : List Op := List.replicate n (.call i (.ok 8))

/-- The identity is created at first, and loaded then. -/
theorem identity_register_first :
    let l := [.load] ++ calls 0 1 ++ [.generated 0 ⟨[1], [2]⟩] ++ calls 0 10 ++ [.load] ++ calls 1 5
    let w := after unix empty l
    w.events = [.created false ⟨[1], [2]⟩, .loaded ⟨[1], [2]⟩] ∧ Follows none w.events := by
  have hfirst : Holds unix empty none := Or.inl rfl
  exact ⟨by decide, ((identity_register (p := unix) nofun (fun _ => rfl) hfirst _).2.2.2.2.2
    (by decide)).1⟩

/-- A rotation that is killed between its two files leaves a pair that was never made. -/
example :
    let l := [.load] ++ calls 0 1 ++ [.generated 0 ⟨[1], [2]⟩] ++ calls 0 10 ++
      [.rotate, .generated 1 ⟨[3], [4]⟩] ++ calls 1 4 ++ [.kill 1, .load] ++ calls 2 5
    (after unix empty l).events = [.created false ⟨[1], [2]⟩, .loaded ⟨[3], [2]⟩] := by
  decide

end Store

end TheKvm.IdentityStore
