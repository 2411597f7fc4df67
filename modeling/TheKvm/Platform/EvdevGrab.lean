import Mathlib.Data.List.Nodup
import Mathlib.Logic.Function.Basic
import TheKvm.Lib.Text
import TheKvm.Lib.Trace
import TheKvm.Platform.Evdev

/-!
The exclusive grabs of the evdev capture.

The kernel gives the events of a device to the one client that has grabbed it. While a drive asks
for it, the capture grabs the devices it has open and those that are plugged in meanwhile. Other
programs grab devices as well, and devices come and go. The nodes that this program injects
through are listened to and never grabbed.
-/

namespace TheKvm.EvdevGrab

open Evdev (Kind)

/-! ### The kernel -/

/-- A device as its node in `/dev/input` shows it. -/
structure Node where
  path : String
  name : String
  keyBits : ℕ → Bool
  relBits : ℕ → Bool
  absBits : ℕ → Bool

inductive Holder
  | capture | other
  deriving DecidableEq

/-- The devices that are plugged in, each under a number of its own, and who has grabbed which. -/
structure Kernel where
  nodes : List (ℕ × Node)
  next : ℕ
  grab : ℕ → Option Holder

namespace Kernel

def empty : Kernel := ⟨[], 0, fun _ => none⟩

def plugged (k : Kernel) (file : ℕ) : Bool := k.nodes.any fun e => e.1 = file

def setGrab (k : Kernel) (file : ℕ) (holder : Option Holder) : Kernel :=
  { k with grab := Function.update k.grab file holder }

/-- `EVIOCGRAB` of this program, and whether it succeeds. A device that is gone, that has been
grabbed, or that is not this program's to release fails it. -/
def eviocgrab (k : Kernel) (file : ℕ) (value : Bool) : Kernel × Bool :=
  let before := if value then none else some Holder.capture
  let behind := if value then some Holder.capture else none
  if k.plugged file && k.grab file = before then (k.setGrab file behind, true) else (k, false)

def plug (k : Kernel) (node : Node) : Kernel :=
  if k.nodes.any fun e => e.2.path = node.path then k
  else { k with nodes := k.nodes ++ [(k.next, node)], next := k.next + 1 }

def unplug (k : Kernel) (file : ℕ) : Kernel :=
  { k.setGrab file none with nodes := k.nodes.filter fun e => e.1 ≠ file }

/-- Another program grabs a device, or lets go of it. -/
def seize (k : Kernel) (file : ℕ) : Kernel :=
  if k.plugged file && k.grab file = none then k.setGrab file (some .other) else k

def yield (k : Kernel) (file : ℕ) : Kernel :=
  if k.grab file = some .other then k.setGrab file none else k

end Kernel

/-! ### The devices -/

structure Device where
  path : String
  /-- The number of the device that the descriptor was opened on. -/
  file : ℕ
  kind : Kind
  grabbed : Bool

/-- `EVIOCGNAME` says that the device is one that this program injects through. -/
def isOwn (name : String) : Bool := Text.contains (Text.toAsciiLowercase name) "thekvm"

def classify (name : String) (keyBits relBits absBits : ℕ → Bool) : Option Kind :=
  let lower := Text.toAsciiLowercase name
  if isOwn name then
    if Text.contains lower "absmouse" || Text.contains lower "touchscreen" then none
    else some ⟨false, false, false, true⟩
  else
    let hasRelXy := relBits Evdev.relX.toNat || relBits Evdev.relY.toNat
    let isTouchpad := !hasRelXy && absBits Evdev.absX.toNat && absBits Evdev.absY.toNat &&
      keyBits Evdev.btnToolFinger.toNat
    let isMouse := hasRelXy || isTouchpad || [0x110, 0x111, 0x112, 0x113, 0x114].any keyBits
    let isKeyboard :=
      [1, 14, 15, 28, 30, 42, 54, 57, 103, 105, 106, 108, 113, 114, 115].any keyBits
    if !isKeyboard && !isMouse then none else some ⟨isKeyboard, isMouse, isTouchpad, false⟩

/-- `Device::open`, where the node may be opened. -/
def openDevice (opens : Bool) (e : ℕ × Node) : Option Device :=
  if opens = false then none
  else
    (classify e.2.name e.2.keyBits e.2.relBits e.2.absBits).map fun kind =>
      ⟨e.2.path, e.1, kind, false⟩

/-- `Drop` of a device. -/
def dropDevice (k : Kernel) (d : Device) : Kernel :=
  if d.grabbed then (k.eviocgrab d.file false).1 else k

/-! ### The capture -/

structure EvdevCapture where
  devices : List Device
  exclusive : Bool
  lastReload : Instant
  /-- There was no device, and the thread sleeps before it looks again. -/
  resting : Bool

/-- One device of `set_devices_exclusive`, and whether it counts as grabbed. -/
def setDevice (exclusive : Bool) (k : Kernel) (d : Device) : Kernel × Device × Bool :=
  if d.kind.isOwnInjector || d.grabbed = exclusive then (k, d, d.grabbed)
  else
    match k.eviocgrab d.file exclusive with
    | (k, false) => (k, if exclusive then d else { d with grabbed := false }, false)
    | (k, true) => (k, { d with grabbed := exclusive }, exclusive)

def setDevices (exclusive : Bool) (k : Kernel) : List Device → Kernel × List Device × Bool
  | [] => (k, [], false)
  | d :: devices =>
    let (k, d, grabbed) := setDevice exclusive k d
    let (k, devices, grabbedAny) := setDevices exclusive k devices
    (k, d :: devices, grabbed || grabbedAny)

/-- `set_devices_exclusive`. -/
def setDevicesExclusive (exclusive : Bool) (k : Kernel) (c : EvdevCapture) :
    Kernel × EvdevCapture :=
  let (k, devices, grabbedAny) := setDevices exclusive k c.devices
  (k, { c with devices, exclusive := exclusive && grabbedAny })

def isEvent (path : String) : Bool := "event".toList.isPrefixOf path.toList

/-- The nodes of `/dev/input`, in order. -/
def eventPaths (k : Kernel) : List String :=
  ((k.nodes.map fun e => e.2.path).filter isEvent).mergeSort

/-- A node that is not open yet is opened. -/
def addPath (opens : String → Bool) (k : Kernel) (devices : List Device) (path : String) :
    List Device :=
  if devices.any fun d => d.path = path then devices
  else
    devices ++ ((k.nodes.find? fun e => e.2.path = path).bind (openDevice (opens path))).toList

/-- The devices with those that the directory adds. -/
def listed (opens : String → Bool) (k : Kernel) (devices : List Device) : List Device :=
  (eventPaths k).foldl (addPath opens k) devices

/-- `reload`, where the directory can be read. -/
def reload (opens : String → Bool) (k : Kernel) (c : EvdevCapture) : Kernel × EvdevCapture :=
  let c := { c with devices := listed opens k c.devices }
  if c.exclusive then setDevicesExclusive true k c else (k, c)

/-- How reading a device ends. -/
inductive ReadEnd
  | drained | gone | failed
  deriving DecidableEq

/-- What `poll` finds of a device, and what is read of it. -/
structure Found where
  nval : Bool
  hup : Bool
  readable : Bool
  /-- The `SYN_REPORT`s. -/
  reports : ℕ
  read : ReadEnd

inductive Poll
  | failed
  /-- nothing within 8 ms, or an interruption -/
  | quiet
  | ready (found : ℕ → Found)

/-- An iteration of the loop of `next_event`. -/
structure Turn where
  now : Instant
  /-- The flag that the drive sets. -/
  desired : Bool
  stop : Bool
  /-- The directory can be read. -/
  listed : Bool
  opens : String → Bool
  /-- A decoded event waits. -/
  waiting : Bool
  poll : Poll

inductive Outcome
  | event | again | stopped | failed
  deriving DecidableEq

/-- The devices are read one after the other, up to one that fails: those that are gone, and what
came through the nodes of this program while the input was exclusive. -/
def readDevices (exclusive : Bool) (found : ℕ → Found) :
    List (Device × ℕ) → Option (List ℕ) × ℕ
  | [] => (some [], 0)
  | (d, index) :: devices =>
    let f := found index
    if f.nval then
      let (gone, diverted) := readDevices exclusive found devices
      (gone.map (index :: ·), diverted)
    else if !f.readable && !f.hup then readDevices exclusive found devices
    else
      let own := if d.kind.isOwnInjector && exclusive then f.reports else 0
      match f.read with
      | .failed => (none, own)
      | read =>
        let (gone, diverted) := readDevices exclusive found devices
        (if read = .gone || f.hup then gone.map (index :: ·) else gone, own + diverted)

/-- `remove_devices`. -/
def removeDevices (gone : List ℕ) (k : Kernel) (c : EvdevCapture) : Kernel × EvdevCapture :=
  let removed := (c.devices.zipIdx.filter fun e => e.2 ∈ gone).map (·.1)
  let retained := (c.devices.zipIdx.filter fun e => e.2 ∉ gone).map (·.1)
  (removed.foldl dropDevice k, { c with devices := retained })

/-! ### Runs -/

structure World where
  kernel : Kernel
  capture : Option EvdevCapture
  /-- `EVDEV_INBOUND_DIVERTED`. -/
  diverted : ℕ

/-- The directory is due to be read again. -/
def Turn.due (t : Turn) (c : EvdevCapture) : Bool :=
  Duration.fromMillis 1000 ≤ elapsed t.now c.lastReload

/-- The top of an iteration: the directory, and then the flag. -/
def Turn.top (t : Turn) (k : Kernel) (c : EvdevCapture) : Kernel × EvdevCapture :=
  let (k, c) :=
    if t.due c then
      let (k, c) := reload t.opens k c
      (k, { c with lastReload := t.now })
    else (k, c)
  if t.desired ≠ c.exclusive then setDevicesExclusive t.desired k c else (k, c)

/-- The rest of an iteration. -/
def Turn.rest (t : Turn) (w : World) (c : EvdevCapture) : World × Outcome :=
  if t.stop then (w, .stopped)
  else if t.waiting then (w, .event)
  else if c.devices.isEmpty then ({ w with capture := some { c with resting := true } }, .again)
  else
    match t.poll with
    | .failed => (w, .failed)
    | .quiet => (w, .again)
    | .ready found =>
      match readDevices c.exclusive found c.devices.zipIdx with
      | (none, diverted) => ({ w with diverted := w.diverted + diverted }, .failed)
      | (some gone, diverted) =>
        let (kernel, c) := removeDevices gone w.kernel c
        (⟨kernel, some c, w.diverted + diverted⟩, .again)

/-- An iteration, or the sleep's end. -/
def Turn.run (t : Turn) (w : World) (c : EvdevCapture) : World × Outcome :=
  if c.resting then
    if t.listed = false then (w, .failed)
    else
      let (kernel, c) := reload t.opens w.kernel c
      ({ w with kernel, capture := some { c with resting := false } }, .again)
  else if t.due c && t.listed = false then (w, .failed)
  else
    let (kernel, c) := t.top w.kernel c
    t.rest { w with kernel, capture := some c } c

inductive Op
  | plug (node : Node)
  | unplug (file : ℕ)
  | seize (file : ℕ)
  | yield (file : ℕ)
  /-- `EvdevCapture::new` -/
  | create (now : Instant) (listed : Bool) (opens : String → Bool)
  | turn (t : Turn)
  /-- `set_exclusive` -/
  | setExclusive (exclusive : Bool)
  /-- The thread lets go of the capture, as it does once `next_event` has failed. -/
  | drop

def World.create (w : World) (now : Instant) (listed : Bool) (opens : String → Bool) : World :=
  if listed = false then w
  else
    let (kernel, c) := reload opens w.kernel ⟨[], false, now, false⟩
    if c.devices.any fun d => !d.kind.isOwnInjector then { w with kernel, capture := some c }
    else { w with kernel := c.devices.foldl dropDevice kernel }

def step (w : World) : Op → World × Outcome
  | .plug node => ({ w with kernel := w.kernel.plug node }, .again)
  | .unplug file => ({ w with kernel := w.kernel.unplug file }, .again)
  | .seize file => ({ w with kernel := w.kernel.seize file }, .again)
  | .yield file => ({ w with kernel := w.kernel.yield file }, .again)
  | .create now listed opens =>
    match w.capture with
    | some _ => (w, .again)
    | none => (w.create now listed opens, .again)
  | .turn t =>
    match w.capture with
    | none => (w, .again)
    | some c => t.run w c
  | .setExclusive exclusive =>
    match w.capture with
    | none => (w, .again)
    | some c =>
      let (kernel, c) := setDevicesExclusive exclusive w.kernel c
      ({ w with kernel, capture := some c }, .again)
  | .drop =>
    match w.capture with
    | none => (w, .again)
    | some c => ({ w with kernel := c.devices.foldl dropDevice w.kernel, capture := none }, .again)

abbrev after (l : List Op) : World := Trace.final step ⟨.empty, none, 0⟩ l

def World.devices (w : World) : List Device := (w.capture.map EvdevCapture.devices).getD []

/-! ### What a run keeps -/

/-- The flag of a device is what the kernel says. -/
def Honest (k : Kernel) (d : Device) : Prop :=
  k.plugged d.file = true → (k.grab d.file = some .capture ↔ d.grabbed = true)

/-- The descriptors are of different devices, at the places where they were opened, and every
grab of this program is known. -/
structure Sound (k : Kernel) (devices : List Device) : Prop where
  fresh : ∀ e ∈ k.nodes, e.1 < k.next
  numbers : (k.nodes.map Prod.fst).Nodup
  paths : (k.nodes.map fun e => e.2.path).Nodup
  opened : ∀ d ∈ devices, d.file < k.next
  files : (devices.map Device.file).Nodup
  places : ∀ d ∈ devices, ∀ e ∈ k.nodes, e.1 = d.file → e.2.path = d.path
  own : ∀ d ∈ devices, d.kind.isOwnInjector = true → d.grabbed = false
  honest : ∀ d ∈ devices, Honest k d
  known : ∀ file, k.grab file = some .capture →
    k.plugged file = true ∧ ∃ d ∈ devices, d.file = file
  named : ∀ d ∈ devices, ∀ e ∈ k.nodes, e.1 = d.file → d.kind.isOwnInjector = isOwn e.2.name

/-- An iteration gets to the flag. -/
def Turn.Reaches (t : Turn) (c : EvdevCapture) : Prop :=
  c.resting = false ∧ (t.due c = true → t.listed = true)

/-- The step asks for exclusive input. -/
def Op.asks : Op → Bool
  | .turn t => t.desired
  | .setExclusive exclusive => exclusive
  | _ => false

section

variable {k k' : Kernel} {d d' : Device} {devices devices' : List Device} {exclusive : Bool}
  {opens : String → Bool} {file : ℕ} {c : EvdevCapture} {w : World} {path : String}

namespace Kernel

lemma plugged_iff : k.plugged file = true ↔ ∃ e ∈ k.nodes, e.1 = file := by
  simp [plugged]

@[simp] lemma plugged_setGrab (holder : Option Holder) :
    (k.setGrab file holder).plugged = k.plugged := rfl

@[simp] lemma grab_setGrab_self (holder : Option Holder) :
    (k.setGrab file holder).grab file = holder := Function.update_self ..

lemma grab_setGrab_of_ne {g : ℕ} (h : g ≠ file) (holder : Option Holder) :
    (k.setGrab file holder).grab g = k.grab g := Function.update_of_ne h ..

/-- The kernel but for the grab of one device. -/
structure SameBut (k k' : Kernel) (files : List ℕ) : Prop where
  nodes : k'.nodes = k.nodes
  next : k'.next = k.next
  grab : ∀ g, g ∉ files → k'.grab g = k.grab g

lemma SameBut.refl (k : Kernel) (files : List ℕ) : SameBut k k files := ⟨rfl, rfl, fun _ _ => rfl⟩

lemma SameBut.plugged {files : List ℕ} (h : SameBut k k' files) : k'.plugged = k.plugged := by
  funext file
  rw [Kernel.plugged, Kernel.plugged, h.nodes]

lemma SameBut.trans {k'' : Kernel} {files : List ℕ} (h : SameBut k k' [file])
    (h' : SameBut k' k'' files) : SameBut k k'' (file :: files) where
  nodes := h'.nodes.trans h.nodes
  next := h'.next.trans h.next
  grab g hg := by
    rw [List.mem_cons, not_or] at hg
    rw [h'.grab g hg.2, h.grab g (by simpa using hg.1)]

lemma sameBut_setGrab (k : Kernel) (file : ℕ) (holder : Option Holder) :
    SameBut k (k.setGrab file holder) [file] :=
  ⟨rfl, rfl, fun _ hg => grab_setGrab_of_ne (by simpa using hg) holder⟩

/-- The ioctl succeeds on a device that is there and free, or this program's to release. -/
lemma eviocgrab_true (k : Kernel) (file : ℕ) :
    k.plugged file = true ∧ k.grab file = none ∧
        k.eviocgrab file true = (k.setGrab file (some .capture), true) ∨
      ¬(k.plugged file = true ∧ k.grab file = none) ∧ k.eviocgrab file true = (k, false) := by
  by_cases h : k.plugged file = true ∧ k.grab file = none
  · exact Or.inl ⟨h.1, h.2, by simp [eviocgrab, h]⟩
  · exact Or.inr ⟨h, by simp [eviocgrab, h]⟩

lemma eviocgrab_false (k : Kernel) (file : ℕ) :
    k.plugged file = true ∧ k.grab file = some .capture ∧
        k.eviocgrab file false = (k.setGrab file none, true) ∨
      ¬(k.plugged file = true ∧ k.grab file = some .capture) ∧
        k.eviocgrab file false = (k, false) := by
  by_cases h : k.plugged file = true ∧ k.grab file = some .capture
  · exact Or.inl ⟨h.1, h.2, by simp [eviocgrab, h]⟩
  · exact Or.inr ⟨h, by simp [eviocgrab, h]⟩

end Kernel

/-! ### The ioctls -/

lemma Honest.of_sameBut {files : List ℕ} (h : Honest k d) (hsame : Kernel.SameBut k k' files)
    (hfile : d.file ∉ files) : Honest k' d := by
  unfold Honest
  rw [hsame.plugged, hsame.grab _ hfile]
  exact h

/-- A device once the ioctls have been made. -/
structure Settled (exclusive : Bool) (k' : Kernel) (d d' : Device) : Prop where
  same : d' = { d with grabbed := d'.grabbed }
  honest : Honest k' d'
  own : d.kind.isOwnInjector = true → d'.grabbed = d.grabbed
  released : d.kind.isOwnInjector = false → exclusive = false → d'.grabbed = false
  taken : d.kind.isOwnInjector = false → exclusive = true → k'.plugged d.file = true →
    k'.grab d.file ≠ none
  kept : exclusive = true → d.grabbed = true → d'.grabbed = true

lemma Settled.of_sameBut {k'' : Kernel} {files : List ℕ} (h : Settled exclusive k' d d')
    (hsame : Kernel.SameBut k' k'' files) (hfile : d.file ∉ files) :
    Settled exclusive k'' d d' where
  same := h.same
  honest := h.honest.of_sameBut hsame (by rw [h.same]; exact hfile)
  own := h.own
  released := h.released
  taken := by
    rw [hsame.plugged, hsame.grab _ hfile]
    exact h.taken
  kept := h.kept

/-- What the ioctl of one device comes to. -/
structure SetOne (exclusive : Bool) (k : Kernel) (d : Device) (r : Kernel × Device × Bool) :
    Prop where
  sameBut : Kernel.SameBut k r.1 [d.file]
  settled : Settled exclusive r.1 d r.2.1
  counts : r.2.2 = r.2.1.grabbed
  known : r.1.grab d.file = some .capture →
    k.grab d.file = some .capture ∨ k.plugged d.file = true

lemma setOne_setDevice (exclusive : Bool) (h : Honest k d) :
    SetOne exclusive k d (setDevice exclusive k d) := by
  unfold setDevice
  by_cases hskip : (d.kind.isOwnInjector || d.grabbed = exclusive) = true
  · rw [if_pos hskip]
    rw [Bool.or_eq_true, decide_eq_true_eq] at hskip
    refine ⟨.refl k _, ⟨rfl, h, fun _ => rfl, fun hown hoff => ?_, fun hown hon hplugged => ?_,
      fun _ h => h⟩, rfl, Or.inl⟩
    · rw [hskip.resolve_left (by simp [hown]), hoff]
    · have hgrabbed : d.grabbed = true := by rw [hskip.resolve_left (by simp [hown]), hon]
      simp [(h hplugged).mpr hgrabbed]
  · rw [if_neg hskip]
    rw [Bool.or_eq_true, decide_eq_true_eq, not_or, Bool.not_eq_true] at hskip
    obtain ⟨hown, hne⟩ := hskip
    cases exclusive with
    | true =>
      have hoff : d.grabbed = false := by simpa using hne
      rcases k.eviocgrab_true d.file with ⟨hplugged, hfree, heq⟩ | ⟨hnot, heq⟩
      · rw [heq]
        exact ⟨k.sameBut_setGrab _ _, ⟨rfl, fun _ => by simp, by simp [hown], by simp, by simp,
          by simp⟩, rfl, fun _ => Or.inr hplugged⟩
      · rw [heq]
        exact ⟨.refl k _, ⟨rfl, h, fun _ => rfl, by simp,
          fun _ _ hplugged hfree => hnot ⟨hplugged, hfree⟩, by simp⟩, hoff.symm, Or.inl⟩
    | false =>
      have hon : d.grabbed = true := by simpa using hne
      rcases k.eviocgrab_false d.file with ⟨hplugged, hmine, heq⟩ | ⟨hnot, heq⟩
      · rw [heq]
        exact ⟨k.sameBut_setGrab _ _, ⟨rfl, fun _ => by simp, by simp [hown], by simp, by simp,
          by simp⟩, rfl, fun _ => Or.inr hplugged⟩
      · rw [heq]
        refine ⟨.refl k _, ⟨rfl, fun hplugged => ?_, by simp [hown], by simp, by simp, by simp⟩,
          rfl, Or.inl⟩
        exact absurd ⟨hplugged, (h hplugged).mpr hon⟩ hnot

/-- What the ioctls of all devices come to. -/
structure SetAll (exclusive : Bool) (k : Kernel) (devices : List Device)
    (r : Kernel × List Device × Bool) : Prop where
  sameBut : Kernel.SameBut k r.1 (devices.map Device.file)
  files : r.2.1.map Device.file = devices.map Device.file
  back : ∀ d' ∈ r.2.1, ∃ d ∈ devices, Settled exclusive r.1 d d'
  forth : ∀ d ∈ devices, ∃ d' ∈ r.2.1, Settled exclusive r.1 d d'
  counts : r.2.2 = r.2.1.any Device.grabbed
  known : ∀ file, r.1.grab file = some .capture →
    k.grab file = some .capture ∨ k.plugged file = true ∧ file ∈ devices.map Device.file

lemma setAll_setDevices (exclusive : Bool) (hfiles : (devices.map Device.file).Nodup)
    (hhonest : ∀ d ∈ devices, Honest k d) :
    SetAll exclusive k devices (setDevices exclusive k devices) := by
  induction devices generalizing k with
  | nil => exact ⟨.refl k _, rfl, by simp [setDevices], by simp, rfl, fun _ => Or.inl⟩
  | cons d devices ih =>
    rw [List.map_cons, List.nodup_cons] at hfiles
    have hone := setOne_setDevice exclusive (hhonest d List.mem_cons_self)
    unfold setDevices
    generalize setDevice exclusive k d = first at hone
    obtain ⟨k₁, d₁, grabbed⟩ := first
    have hall := ih (k := k₁) hfiles.2 fun d' hd' => by
      refine (hhonest d' (List.mem_cons_of_mem _ hd')).of_sameBut hone.sameBut fun h => hfiles.1 ?_
      exact List.mem_singleton.mp h ▸ List.mem_map_of_mem hd'
    dsimp only
    generalize setDevices exclusive k₁ devices = rest at hall
    obtain ⟨k₂, devices₂, grabbedAny⟩ := rest
    have hhead : Settled exclusive k₂ d d₁ := hone.settled.of_sameBut hall.sameBut hfiles.1
    refine ⟨hone.sameBut.trans hall.sameBut, ?_, ?_, ?_, ?_, fun file hfile => ?_⟩
    · have hfile : d₁.file = d.file := by rw [hhead.same]
      have hrest := hall.files
      dsimp only at hrest ⊢
      rw [List.map_cons, List.map_cons, hfile, hrest]
    · intro d' hd'
      rcases List.mem_cons.mp hd' with rfl | hd'
      · exact ⟨d, List.mem_cons_self, hhead⟩
      · obtain ⟨d₀, hd₀, h⟩ := hall.back d' hd'
        exact ⟨d₀, List.mem_cons_of_mem _ hd₀, h⟩
    · intro d₀ hd₀
      rcases List.mem_cons.mp hd₀ with rfl | hd₀
      · exact ⟨d₁, List.mem_cons_self, hhead⟩
      · obtain ⟨d', hd', h⟩ := hall.forth d₀ hd₀
        exact ⟨d', List.mem_cons_of_mem _ hd', h⟩
    · have hcounts := hone.counts
      have hrest := hall.counts
      dsimp only at hcounts hrest ⊢
      rw [hcounts, hrest, List.any_cons]
    · by_cases hhere : file = d.file
      · have hplugged : k₁.plugged = k.plugged := hone.sameBut.plugged
        rcases hall.known file hfile with h | ⟨-, hmem⟩
        · rw [hhere] at h ⊢
          refine (hone.known h).imp_right fun h => ⟨h, ?_⟩
          simp
        · exact absurd (hhere ▸ hmem) hfiles.1
      · rcases hall.known file hfile with h | ⟨hplugged, hmem⟩
        · left
          rwa [← hone.sameBut.grab file (by simpa using hhere)]
        · right
          rw [← hone.sameBut.plugged]
          exact ⟨hplugged, List.mem_cons_of_mem _ hmem⟩

/-- Every device that may be grabbed has been, by this program or another. -/
def Taken (k : Kernel) (devices : List Device) : Prop :=
  ∀ d ∈ devices, d.kind.isOwnInjector = false → k.plugged d.file = true → k.grab d.file ≠ none

/-- Without exclusive input no device is flagged. -/
def Idle (c : EvdevCapture) : Prop := c.exclusive = false → ∀ d ∈ c.devices, d.grabbed = false

lemma Sound.setDevices (h : Sound k devices) (exclusive : Bool) :
    Sound (setDevices exclusive k devices).1 (setDevices exclusive k devices).2.1 := by
  have hall := setAll_setDevices exclusive h.files h.honest
  generalize EvdevGrab.setDevices exclusive k devices = r at hall
  have hnodes := hall.sameBut.nodes
  refine ⟨?_, ?_, ?_, fun d' hd' => ?_, ?_, fun d' hd' => ?_, fun d' hd' => ?_, fun d' hd' => ?_,
    fun file hfile => ?_, fun d' hd' => ?_⟩
  · rw [hnodes, hall.sameBut.next]
    exact h.fresh
  · rw [hnodes]
    exact h.numbers
  · rw [hnodes]
    exact h.paths
  · obtain ⟨d, hd, hset⟩ := hall.back d' hd'
    rw [hall.sameBut.next, hset.same]
    exact h.opened d hd
  · rw [hall.files]
    exact h.files
  · obtain ⟨d, hd, hset⟩ := hall.back d' hd'
    rw [hnodes, hset.same]
    exact h.places d hd
  · obtain ⟨d, hd, hset⟩ := hall.back d' hd'
    intro hown
    have hown : d.kind.isOwnInjector = true := by rwa [hset.same] at hown
    rw [hset.own hown]
    exact h.own d hd hown
  · obtain ⟨d, hd, hset⟩ := hall.back d' hd'
    exact hset.honest
  · rw [hall.sameBut.plugged]
    have hback : k.plugged file = true ∧ ∃ d ∈ devices, d.file = file := by
      rcases hall.known file hfile with hbefore | ⟨hplugged, hmem⟩
      · exact h.known file hbefore
      · exact ⟨hplugged, List.mem_map.mp hmem⟩
    obtain ⟨hplugged, d, hd, hdfile⟩ := hback
    obtain ⟨d', hd', hset⟩ := hall.forth d hd
    exact ⟨hplugged, d', hd', by rw [hset.same]; exact hdfile⟩
  · obtain ⟨d, hd, hset⟩ := hall.back d' hd'
    rw [hnodes, hset.same]
    exact h.named d hd

/-- What `set_devices_exclusive` keeps, and what it brings about. -/
structure Sets (exclusive : Bool) (k : Kernel) (c : EvdevCapture) (r : Kernel × EvdevCapture) :
    Prop where
  sound : Sound r.1 r.2.devices
  idle : Idle r.2
  resting : r.2.resting = c.resting
  nodes : r.1.nodes = k.nodes
  forth : ∀ d ∈ c.devices, ∃ d' ∈ r.2.devices, Settled exclusive r.1 d d'
  taken : exclusive = true → Taken r.1 r.2.devices
  released : exclusive = false → r.2.exclusive = false
  lastReload : r.2.lastReload = c.lastReload

lemma sets_setDevicesExclusive (h : Sound k c.devices) (exclusive : Bool) :
    Sets exclusive k c (setDevicesExclusive exclusive k c) := by
  have hall := setAll_setDevices exclusive h.files h.honest
  have hsound := h.setDevices exclusive
  unfold setDevicesExclusive
  generalize EvdevGrab.setDevices exclusive k c.devices = r at hall hsound
  refine ⟨hsound, fun hoff d' hd' => ?_, rfl, hall.sameBut.nodes, hall.forth,
    fun hon d' hd' => ?_, fun hoff => ?_, rfl⟩
  · obtain ⟨d, hd, hset⟩ := hall.back d' hd'
    rcases Bool.and_eq_false_iff.mp hoff with hoff | hany
    · cases hown : d.kind.isOwnInjector with
      | true => rw [hset.own hown, h.own d hd hown]
      | false => exact hset.released hown hoff
    · rw [hall.counts] at hany
      simpa using List.any_eq_false.mp hany d' hd'
  · obtain ⟨d, hd, hset⟩ := hall.back d' hd'
    rw [hset.same]
    exact fun hown hplugged => hset.taken hown hon hplugged
  · simp [hoff]

/-! ### The directory -/

lemma classify_own {name : String} {keyBits relBits absBits : ℕ → Bool} {kind : Kind}
    (h : classify name keyBits relBits absBits = some kind) : kind.isOwnInjector = isOwn name := by
  unfold classify at h
  dsimp only at h
  split_ifs at h with hown
  all_goals
    cases h
    simp [hown]

lemma openDevice_some {e : ℕ × Node} {may : Bool} (h : openDevice may e = some d) :
    d.path = e.2.path ∧ d.file = e.1 ∧ d.grabbed = false ∧
      d.kind.isOwnInjector = isOwn e.2.name := by
  unfold openDevice at h
  split_ifs at h
  obtain ⟨kind, hkind, rfl⟩ := Option.map_eq_some_iff.mp h
  exact ⟨rfl, rfl, rfl, classify_own hkind⟩

/-- A node at which nothing is open yet. -/
lemma addPath_cases (opens : String → Bool) (k : Kernel) (devices : List Device)
    (path : String) :
    addPath opens k devices path = devices ∨
      ∃ e ∈ k.nodes, e.2.path = path ∧ (∀ d ∈ devices, d.path ≠ path) ∧
        ∃ d, openDevice (opens path) e = some d ∧
          addPath opens k devices path = devices ++ [d] := by
  unfold addPath
  split_ifs with hlisted
  · exact Or.inl rfl
  · simp only [List.any_eq_true, decide_eq_true_eq, not_exists, not_and] at hlisted
    cases hfind : k.nodes.find? fun e => e.2.path = path with
    | none => simp
    | some e =>
      cases hopen : openDevice (opens path) e with
      | none => simp [hopen]
      | some d =>
        refine Or.inr ⟨e, List.mem_of_find?_eq_some hfind, ?_, hlisted, d, hopen, ?_⟩
        · simpa using List.find?_some hfind
        · simp [hopen]

lemma Sound.addPath (h : Sound k devices) (opens : String → Bool) (path : String) :
    Sound k (addPath opens k devices path) := by
  rcases addPath_cases opens k devices path with heq | ⟨e, he, hpath, hfree, d, hopen, heq⟩
  · rw [heq]
    exact h
  · obtain ⟨hdpath, hdfile, hoff, hown⟩ := openDevice_some hopen
    rw [heq]
    -- No descriptor is open on the device, or it would be listed at the path.
    have hnew : ∀ d' ∈ devices, d'.file ≠ e.1 := fun d' hd' hfile =>
      hfree d' hd' (by rw [← h.places d' hd' e he hfile.symm, hpath])
    have honly : ∀ e' ∈ k.nodes, e'.1 = e.1 → e' = e := fun e' he' hnumber =>
      List.inj_on_of_nodup_map h.numbers he' he hnumber
    refine ⟨h.fresh, h.numbers, h.paths, fun d' hd' => ?_, ?_, fun d' hd' e' he' hfile => ?_,
      fun d' hd' hown => ?_, fun d' hd' => ?_, fun file hfile => ?_,
      fun d' hd' e' he' hfile => ?_⟩
    · rcases List.mem_append.mp hd' with hd' | hd'
      · exact h.opened d' hd'
      · rw [List.mem_singleton.mp hd', hdfile]
        exact h.fresh e he
    · rw [List.map_append, List.nodup_append]
      refine ⟨h.files, by simp, fun a ha b hb => ?_⟩
      obtain ⟨d', hd', rfl⟩ := List.mem_map.mp ha
      rw [List.map_singleton, List.mem_singleton] at hb
      rw [hb, hdfile]
      exact hnew d' hd'
    · rcases List.mem_append.mp hd' with hd' | hd'
      · exact h.places d' hd' e' he' hfile
      · rw [List.mem_singleton.mp hd'] at hfile ⊢
        rw [honly e' he' (by rw [hfile, hdfile]), hdpath]
    · rcases List.mem_append.mp hd' with hd' | hd'
      · exact h.own d' hd' hown
      · rw [List.mem_singleton.mp hd']
        exact hoff
    · rcases List.mem_append.mp hd' with hd' | hd'
      · exact h.honest d' hd'
      · rw [List.mem_singleton.mp hd']
        intro _
        rw [hoff, hdfile]
        refine iff_of_false (fun hgrab => ?_) (by simp)
        obtain ⟨-, d₀, hd₀, hfile⟩ := h.known _ hgrab
        exact hnew d₀ hd₀ hfile
    · obtain ⟨hplugged, d', hd', hdfile'⟩ := h.known file hfile
      exact ⟨hplugged, d', List.mem_append_left _ hd', hdfile'⟩
    · rcases List.mem_append.mp hd' with hd' | hd'
      · exact h.named d' hd' e' he' hfile
      · rw [List.mem_singleton.mp hd'] at hfile ⊢
        rw [honly e' he' (by rw [hfile, hdfile]), hown]

lemma sound_listed (h : Sound k devices) (opens : String → Bool) :
    Sound k (listed opens k devices) := by
  unfold listed
  generalize eventPaths k = paths
  induction paths generalizing devices with
  | nil => exact h
  | cons path paths ih => exact ih (h.addPath opens path)

lemma subset_addPath (opens : String → Bool) (k : Kernel) (devices : List Device)
    (path : String) : devices ⊆ addPath opens k devices path := by
  rcases addPath_cases opens k devices path with heq | ⟨e, -, -, -, d, -, heq⟩
  · rw [heq]
    exact List.Subset.refl _
  · rw [heq]
    exact List.subset_append_left _ _

lemma subset_foldl (opens : String → Bool) (k : Kernel) (devices : List Device)
    (paths : List String) : devices ⊆ paths.foldl (addPath opens k) devices := by
  induction paths generalizing devices with
  | nil => exact List.Subset.refl _
  | cons path paths ih => exact fun d hd => ih _ (subset_addPath opens k devices path hd)

/-- What the directory adds is not flagged. -/
lemma listed_cases (hd : d ∈ listed opens k devices) :
    d ∈ devices ∨ ∃ e ∈ k.nodes, openDevice (opens e.2.path) e = some d := by
  unfold listed at hd
  generalize eventPaths k = paths at hd
  induction paths generalizing devices with
  | nil => exact Or.inl hd
  | cons path paths ih =>
    rcases ih hd with hd | hd
    · rcases addPath_cases opens k devices path with heq | ⟨e, he, rfl, -, d', hopen, heq⟩
      · rw [heq] at hd
        exact Or.inl hd
      · rw [heq] at hd
        refine (List.mem_append.mp hd).imp_right fun hd => ⟨e, he, ?_⟩
        rw [List.mem_singleton.mp hd]
        exact hopen
    · exact Or.inr hd

/-- A node that can be opened has a device at its path. -/
lemma listed_covers (h : Sound k devices) {e : ℕ × Node} (he : e ∈ k.nodes)
    (hevent : isEvent e.2.path = true)
    (hopen : (openDevice (opens e.2.path) e).isSome = true) :
    ∃ d ∈ listed opens k devices, d.path = e.2.path := by
  have hpath : e.2.path ∈ eventPaths k := by
    unfold eventPaths
    rw [List.mem_mergeSort, List.mem_filter]
    exact ⟨List.mem_map_of_mem he, hevent⟩
  unfold listed
  generalize eventPaths k = paths at hpath
  induction paths generalizing devices with
  | nil => cases hpath
  | cons path paths ih =>
    rcases List.mem_cons.mp hpath with rfl | hpath
    · have hhere : ∃ d ∈ addPath opens k devices e.2.path, d.path = e.2.path := by
        unfold addPath
        split_ifs with hlisted
        · simpa using hlisted
        · have hfind : (k.nodes.find? fun e' => e'.2.path = e.2.path) = some e := by
            cases hfind : k.nodes.find? fun e' => e'.2.path = e.2.path with
            | none => simpa using List.find?_eq_none.mp hfind e he
            | some e' =>
              have hsame : e'.2.path = e.2.path := by simpa using List.find?_some hfind
              rw [List.inj_on_of_nodup_map h.paths (List.mem_of_find?_eq_some hfind) he hsame]
          obtain ⟨d, hd⟩ := Option.isSome_iff_exists.mp hopen
          refine ⟨d, ?_, (openDevice_some hd).1⟩
          simp [hfind, hd]
      obtain ⟨d, hd, hdpath⟩ := hhere
      exact ⟨d, subset_foldl opens k _ paths hd, hdpath⟩
    · exact ih (h.addPath opens path) hpath

lemma idle_listed (h : Idle c) : Idle { c with devices := listed opens k c.devices } := by
  intro hoff d hd
  rcases listed_cases hd with hd | ⟨e, -, hopen⟩
  · exact h hoff d hd
  · exact (openDevice_some hopen).2.2.1

/-- What `reload` keeps, and what it brings about. -/
structure Reloads (opens : String → Bool) (k : Kernel) (c : EvdevCapture)
    (r : Kernel × EvdevCapture) : Prop where
  sound : Sound r.1 r.2.devices
  idle : Idle r.2
  nodes : r.1.nodes = k.nodes
  forth : ∀ d ∈ listed opens k c.devices, ∃ d' ∈ r.2.devices,
    d' = { d with grabbed := d'.grabbed } ∧ (d.grabbed = true → d'.grabbed = true)
  taken : c.exclusive = true → Taken r.1 r.2.devices
  quiet : c.exclusive = false → r.2.exclusive = false

lemma reloads_reload (h : Sound k c.devices) (hidle : Idle c) (opens : String → Bool) :
    Reloads opens k c (reload opens k c) := by
  have hlisted := sound_listed h opens
  unfold reload
  dsimp only
  split_ifs with hon
  · have hsets := sets_setDevicesExclusive (c := { c with devices := listed opens k c.devices })
      hlisted true
    refine ⟨hsets.sound, hsets.idle, hsets.nodes, fun d hd => ?_, fun _ => hsets.taken rfl,
      fun hoff => absurd hon (by simp [hoff])⟩
    obtain ⟨d', hd', hset⟩ := hsets.forth d hd
    exact ⟨d', hd', hset.same, hset.kept rfl⟩
  · exact ⟨hlisted, idle_listed hidle, rfl, fun d hd => ⟨d, hd, rfl, fun h => h⟩,
      fun h => absurd h hon, fun h => h⟩

/-! ### Devices that go -/

/-- What the drops of devices come to. -/
structure Drops (k : Kernel) (gone : List Device) (k' : Kernel) : Prop where
  sameBut : Kernel.SameBut k k' (gone.map Device.file)
  freed : ∀ d ∈ gone, k'.grab d.file ≠ some .capture
  known : ∀ file, k'.grab file = some .capture → k.grab file = some .capture

lemma drops_dropDevice (hhonest : Honest k d)
    (hknown : k.grab d.file = some .capture → k.plugged d.file = true) :
    Drops k [d] (dropDevice k d) := by
  unfold dropDevice
  split_ifs with hon
  · rcases k.eviocgrab_false d.file with ⟨-, hmine, heq⟩ | ⟨hnot, heq⟩
    · rw [heq]
      refine ⟨k.sameBut_setGrab _ _, by simp, fun file hfile => ?_⟩
      by_cases hhere : file = d.file
      · rw [hhere]
        exact hmine
      · rwa [Kernel.grab_setGrab_of_ne hhere] at hfile
    · rw [heq]
      refine ⟨.refl k _, fun d' hd' hgrab => ?_, fun _ h => h⟩
      rw [List.mem_singleton.mp hd'] at hgrab
      exact hnot ⟨hknown hgrab, hgrab⟩
  · refine ⟨.refl k _, fun d' hd' hgrab => ?_, fun _ h => h⟩
    rw [List.mem_singleton.mp hd'] at hgrab
    exact hon ((hhonest (hknown hgrab)).mp hgrab)

lemma drops_foldl (hfiles : (devices.map Device.file).Nodup) (hhonest : ∀ d ∈ devices, Honest k d)
    (hknown : ∀ file, k.grab file = some .capture → k.plugged file = true) :
    Drops k devices (devices.foldl dropDevice k) := by
  induction devices generalizing k with
  | nil => exact ⟨.refl k _, by simp, fun _ h => h⟩
  | cons d devices ih =>
    rw [List.map_cons, List.nodup_cons] at hfiles
    have hone := drops_dropDevice (hhonest d List.mem_cons_self) (hknown d.file)
    have hall := ih (k := dropDevice k d) hfiles.2 (fun d' hd' => by
        refine (hhonest d' (List.mem_cons_of_mem _ hd')).of_sameBut hone.sameBut fun h =>
          hfiles.1 ?_
        rw [List.map_singleton, List.mem_singleton] at h
        exact h ▸ List.mem_map_of_mem hd')
      (fun file hfile => by rw [hone.sameBut.plugged]; exact hknown file (hone.known file hfile))
    rw [List.foldl_cons]
    refine ⟨?_, fun d' hd' => ?_, fun file hfile => hone.known file (hall.known file hfile)⟩
    · rw [List.map_cons]
      exact hone.sameBut.trans hall.sameBut
    · rcases List.mem_cons.mp hd' with rfl | hd'
      · rw [hall.sameBut.grab _ hfiles.1]
        exact hone.freed d' (by simp)
      · exact hall.freed d' hd'

/-- Some devices go and the others stay. -/
lemma Sound.drop {gone stay : List Device} (h : Sound k devices) (hgone : gone.Sublist devices)
    (hstay : stay.Sublist devices) (hall : ∀ d ∈ devices, d ∈ gone ∨ d ∈ stay)
    (happart : ∀ d ∈ stay, d.file ∉ gone.map Device.file) :
    Sound (gone.foldl dropDevice k) stay := by
  have hdrops := drops_foldl (h.files.sublist (hgone.map _))
    (fun d hd => h.honest d (hgone.subset hd)) fun file hfile => (h.known file hfile).1
  generalize gone.foldl dropDevice k = k' at hdrops
  have hsub := hstay.subset
  refine ⟨?_, ?_, ?_, fun d hd => ?_, h.files.sublist (hstay.map _), fun d hd => ?_,
    fun d hd => h.own d (hsub hd), fun d hd => ?_, fun file hfile => ?_, fun d hd => ?_⟩
  · rw [hdrops.sameBut.nodes, hdrops.sameBut.next]
    exact h.fresh
  · rw [hdrops.sameBut.nodes]
    exact h.numbers
  · rw [hdrops.sameBut.nodes]
    exact h.paths
  · rw [hdrops.sameBut.next]
    exact h.opened d (hsub hd)
  · rw [hdrops.sameBut.nodes]
    exact h.places d (hsub hd)
  · exact (h.honest d (hsub hd)).of_sameBut hdrops.sameBut (happart d hd)
  · obtain ⟨hplugged, d, hd, rfl⟩ := h.known file (hdrops.known file hfile)
    rw [hdrops.sameBut.plugged]
    rcases hall d hd with hd | hd
    · exact absurd hfile (hdrops.freed d hd)
    · exact ⟨hplugged, d, hd, rfl⟩
  · rw [hdrops.sameBut.nodes]
    exact h.named d (hsub hd)

lemma Sound.removeDevices (h : Sound k c.devices) (gone : List ℕ) :
    Sound (removeDevices gone k c).1 (removeDevices gone k c).2.devices := by
  have hsub (test : Device × ℕ → Bool) :
      ((c.devices.zipIdx.filter test).map (·.1)).Sublist c.devices := by
    have hmap : c.devices.zipIdx.map Prod.fst = c.devices := by simp
    conv_rhs => rw [← hmap]
    exact List.filter_sublist.map _
  unfold EvdevGrab.removeDevices
  refine h.drop (hsub _) (hsub _) (fun d hd => ?_) (fun d hd hmem => ?_)
  · obtain ⟨i, hi, rfl⟩ := List.getElem_of_mem hd
    have hmem : (c.devices[i], i) ∈ c.devices.zipIdx := by
      simp [List.mem_zipIdx_iff_getElem?]
    by_cases hgone : i ∈ gone
    · exact Or.inl (List.mem_map.mpr ⟨_, List.mem_filter.mpr ⟨hmem, by simpa using hgone⟩, rfl⟩)
    · exact Or.inr (List.mem_map.mpr ⟨_, List.mem_filter.mpr ⟨hmem, by simpa using hgone⟩, rfl⟩)
  · obtain ⟨d', hd', hfile⟩ := List.mem_map.mp hmem
    obtain ⟨⟨a, i⟩, hi, rfl⟩ := List.mem_map.mp hd
    obtain ⟨⟨b, j⟩, hj, rfl⟩ := List.mem_map.mp hd'
    rw [List.mem_filter, List.mem_zipIdx_iff_getElem?] at hi hj
    have hij : i = j := by
      have hlen : i < (c.devices.map Device.file).length := by
        simpa using (List.getElem?_eq_some_iff.mp hi.1).1
      refine (List.getElem?_inj hlen h.files).mp ?_
      rw [List.getElem?_map, List.getElem?_map, hi.1, hj.1, Option.map_some, Option.map_some]
      exact congrArg some hfile.symm
    have hin : j ∈ gone := by simpa using hj.2
    have hout : i ∉ gone := by simpa using hi.2
    exact hout (hij ▸ hin)

/-! ### Other programs -/

lemma Sound.setGrab {holder : Option Holder} (h : Sound k devices)
    (hbefore : k.grab file ≠ some .capture) (hbehind : holder ≠ some .capture) :
    Sound (k.setGrab file holder) devices := by
  refine ⟨h.fresh, h.numbers, h.paths, h.opened, h.files, h.places, h.own, fun d hd => ?_,
    fun g hg => ?_, h.named⟩
  · by_cases hfile : d.file = file
    · intro hplugged
      have hhonest := h.honest d hd hplugged
      rw [hfile] at hhonest ⊢
      rw [Kernel.grab_setGrab_self]
      exact iff_of_false hbehind fun hon => hbefore (hhonest.mpr hon)
    · exact (h.honest d hd).of_sameBut (k.sameBut_setGrab file holder) (by simpa using hfile)
  · by_cases hfile : g = file
    · rw [hfile, Kernel.grab_setGrab_self] at hg
      exact absurd hg hbehind
    · rw [Kernel.grab_setGrab_of_ne hfile] at hg
      exact h.known g hg

lemma Sound.seize (h : Sound k devices) (file : ℕ) : Sound (k.seize file) devices := by
  unfold Kernel.seize
  split_ifs with hfree
  · rw [Bool.and_eq_true, decide_eq_true_eq] at hfree
    exact h.setGrab (by rw [hfree.2]; decide) (by decide)
  · exact h

lemma Sound.yield (h : Sound k devices) (file : ℕ) : Sound (k.yield file) devices := by
  unfold Kernel.yield
  split_ifs with hother
  · exact h.setGrab (by rw [hother]; decide) (by decide)
  · exact h

lemma Sound.plug (h : Sound k devices) (node : Node) : Sound (k.plug node) devices := by
  unfold Kernel.plug
  split_ifs with htaken
  · exact h
  · simp only [List.any_eq_true, decide_eq_true_eq, not_exists, not_and] at htaken
    have hnew : ∀ d ∈ devices, k.next ≠ d.file := fun d hd => (h.opened d hd).ne'
    refine ⟨fun e he => ?_, ?_, ?_, fun d hd => Nat.lt_succ_of_lt (h.opened d hd), h.files,
      fun d hd e he hfile => ?_, h.own, fun d hd hplugged => ?_, fun file hfile => ?_,
      fun d hd e he hfile => ?_⟩
    · rcases List.mem_append.mp he with he | he
      · exact Nat.lt_succ_of_lt (h.fresh e he)
      · rw [List.mem_singleton.mp he]
        exact Nat.lt_succ_self _
    · rw [List.map_append, List.nodup_append]
      refine ⟨h.numbers, by simp, fun a ha b hb => ?_⟩
      obtain ⟨e, he, rfl⟩ := List.mem_map.mp ha
      rw [List.map_singleton, List.mem_singleton] at hb
      rw [hb]
      exact (h.fresh e he).ne
    · rw [List.map_append, List.nodup_append]
      refine ⟨h.paths, by simp, fun a ha b hb => ?_⟩
      obtain ⟨e, he, rfl⟩ := List.mem_map.mp ha
      rw [List.map_singleton, List.mem_singleton] at hb
      rw [hb]
      exact htaken e he
    · rcases List.mem_append.mp he with he | he
      · exact h.places d hd e he hfile
      · rw [List.mem_singleton.mp he] at hfile
        exact absurd hfile (hnew d hd)
    · refine h.honest d hd ?_
      rw [Kernel.plugged_iff] at hplugged ⊢
      obtain ⟨e, he, hfile⟩ := hplugged
      rcases List.mem_append.mp he with he | he
      · exact ⟨e, he, hfile⟩
      · rw [List.mem_singleton.mp he] at hfile
        exact absurd hfile (hnew d hd)
    · obtain ⟨hplugged, hd⟩ := h.known file hfile
      refine ⟨?_, hd⟩
      rw [Kernel.plugged_iff] at hplugged ⊢
      obtain ⟨e, he, hfile⟩ := hplugged
      exact ⟨e, List.mem_append_left _ he, hfile⟩
    · rcases List.mem_append.mp he with he | he
      · exact h.named d hd e he hfile
      · rw [List.mem_singleton.mp he] at hfile
        exact absurd hfile (hnew d hd)

lemma plugged_unplug {g : ℕ} :
    (k.unplug file).plugged g = true ↔ k.plugged g = true ∧ g ≠ file := by
  rw [Kernel.plugged_iff, Kernel.plugged_iff]
  unfold Kernel.unplug
  simp only [List.mem_filter, decide_eq_true_eq]
  constructor
  · rintro ⟨e, ⟨he, hne⟩, rfl⟩
    exact ⟨⟨e, he, rfl⟩, hne⟩
  · rintro ⟨⟨e, he, rfl⟩, hne⟩
    exact ⟨e, ⟨he, hne⟩, rfl⟩

lemma Sound.unplug (h : Sound k devices) (file : ℕ) : Sound (k.unplug file) devices := by
  have hsub : (k.unplug file).nodes.Sublist k.nodes := List.filter_sublist
  refine ⟨fun e he => h.fresh e (hsub.subset he), h.numbers.sublist (hsub.map _),
    h.paths.sublist (hsub.map _), h.opened, h.files,
    fun d hd e he => h.places d hd e (hsub.subset he), h.own, fun d hd hplugged => ?_,
    fun g hg => ?_, fun d hd e he => h.named d hd e (hsub.subset he)⟩
  · obtain ⟨hbefore, hne⟩ := plugged_unplug.mp hplugged
    have hgrab : (k.unplug file).grab d.file = k.grab d.file := Kernel.grab_setGrab_of_ne hne none
    rw [hgrab]
    exact h.honest d hd hbefore
  · have hne : g ≠ file := by
      rintro rfl
      have hnone : (k.unplug g).grab g = none := Kernel.grab_setGrab_self none
      rw [hnone] at hg
      cases hg
    have hgrab : (k.unplug file).grab g = k.grab g := Kernel.grab_setGrab_of_ne hne none
    rw [hgrab] at hg
    obtain ⟨hplugged, hd⟩ := h.known g hg
    exact ⟨plugged_unplug.mpr ⟨hplugged, hne⟩, hd⟩

/-! ### Iterations -/

/-- What the top of an iteration keeps, and what it brings about. -/
structure Tops (t : Turn) (k : Kernel) (c : EvdevCapture) (r : Kernel × EvdevCapture) : Prop where
  sound : Sound r.1 r.2.devices
  idle : Idle r.2
  nodes : r.1.nodes = k.nodes
  forth : ∀ d ∈ (if t.due c then listed t.opens k c.devices else c.devices), ∃ d' ∈ r.2.devices,
    d' = { d with grabbed := d'.grabbed } ∧
      (t.desired = true → d.grabbed = true → d'.grabbed = true)
  taken : t.desired = true → t.due c = true ∨ c.exclusive = false → Taken r.1 r.2.devices
  quiet : t.desired = false → r.2.exclusive = false

lemma tops_top (h : Sound k c.devices) (hidle : Idle c) (t : Turn) : Tops t k c (t.top k c) := by
  -- What the directory leaves, before the flag is looked at.
  obtain ⟨r, hr, hsound, hidle', hnodes, hforth, htaken⟩ : ∃ r : Kernel × EvdevCapture,
      t.top k c = (if t.desired ≠ r.2.exclusive then setDevicesExclusive t.desired r.1 r.2 else r) ∧
      Sound r.1 r.2.devices ∧ Idle r.2 ∧ r.1.nodes = k.nodes ∧
      (∀ d ∈ (if t.due c then listed t.opens k c.devices else c.devices), ∃ d' ∈ r.2.devices,
        d' = { d with grabbed := d'.grabbed } ∧ (d.grabbed = true → d'.grabbed = true)) ∧
      (t.due c = true ∨ c.exclusive = false → r.2.exclusive = true → Taken r.1 r.2.devices) := by
    unfold Turn.top
    by_cases hdue : t.due c = true
    · have hreload := reloads_reload h hidle t.opens
      rw [if_pos hdue, if_pos hdue]
      refine ⟨((reload t.opens k c).1, { (reload t.opens k c).2 with lastReload := t.now }), rfl,
        hreload.sound, hreload.idle, hreload.nodes, hreload.forth, fun _ hon => ?_⟩
      refine hreload.taken ?_
      by_contra hoff
      rw [Bool.not_eq_true] at hoff
      rw [hreload.quiet hoff] at hon
      cases hon
    · rw [if_neg hdue, if_neg hdue]
      refine ⟨(k, c), rfl, h, hidle, rfl, fun d hd => ⟨d, hd, rfl, fun h => h⟩, fun hor hon => ?_⟩
      rw [hor.resolve_left hdue] at hon
      cases hon
  rw [hr]
  by_cases hset : t.desired ≠ r.2.exclusive
  · rw [if_pos hset]
    have hsets := sets_setDevicesExclusive hsound t.desired
    refine ⟨hsets.sound, hsets.idle, hsets.nodes.trans hnodes, fun d hd => ?_,
      fun hon _ => hsets.taken hon, hsets.released⟩
    obtain ⟨d₁, hd₁, hsame, hkept⟩ := hforth d hd
    obtain ⟨d₂, hd₂, hsettled⟩ := hsets.forth d₁ hd₁
    refine ⟨d₂, hd₂, ?_, fun hon hgrabbed => hsettled.kept hon (hkept hgrabbed)⟩
    rw [hsettled.same, hsame]
  · rw [if_neg hset]
    rw [not_not] at hset
    refine ⟨hsound, hidle', hnodes, fun d hd => ?_, fun hon hor => htaken hor (hset ▸ hon),
      fun hoff => hset ▸ hoff⟩
    obtain ⟨d₁, hd₁, hsame, hkept⟩ := hforth d hd
    exact ⟨d₁, hd₁, hsame, fun _ => hkept⟩

/-- What every run keeps. -/
structure World.Kept (w : World) : Prop where
  sound : Sound w.kernel w.devices
  idle : ∀ c ∈ w.capture, Idle c

/-- The input is not exclusive, and nothing has asked that it be. -/
def World.Quiet (w : World) : Prop := ∀ c ∈ w.capture, c.exclusive = false

lemma World.Kept.capture (h : w.Kept) (hc : w.capture = some c) :
    Sound w.kernel c.devices ∧ Idle c := by
  have hsound := h.sound
  unfold World.devices at hsound
  rw [hc] at hsound
  exact ⟨hsound, h.idle c hc⟩

lemma World.kept_mk {diverted : ℕ} (h : Sound k c.devices) (hidle : Idle c) :
    World.Kept ⟨k, some c, diverted⟩ :=
  ⟨h, fun _ hc => Option.some.inj hc ▸ hidle⟩

lemma World.quiet_mk {diverted : ℕ} (h : c.exclusive = false) : World.Quiet ⟨k, some c, diverted⟩ :=
  fun _ hc => Option.some.inj hc ▸ h

lemma kept_rest (h : Sound k c.devices) (hidle : Idle c) (t : Turn) (diverted : ℕ) :
    (t.rest ⟨k, some c, diverted⟩ c).1.Kept ∧
      (c.exclusive = false → (t.rest ⟨k, some c, diverted⟩ c).1.Quiet) := by
  have hsame : World.Kept ⟨k, some c, diverted⟩ ∧
      (c.exclusive = false → World.Quiet ⟨k, some c, diverted⟩) :=
    ⟨World.kept_mk h hidle, World.quiet_mk⟩
  unfold Turn.rest
  split_ifs
  · exact hsame
  · exact hsame
  · exact ⟨World.kept_mk h hidle, fun hoff => World.quiet_mk hoff⟩
  · cases t.poll with
    | failed => exact hsame
    | quiet => exact hsame
    | ready found =>
      dsimp only
      generalize readDevices c.exclusive found c.devices.zipIdx = read
      obtain ⟨_ | gone, reports⟩ := read
      · exact ⟨World.kept_mk h hidle, World.quiet_mk⟩
      · refine ⟨World.kept_mk (h.removeDevices gone) fun hoff d hd => ?_, fun hoff => ?_⟩
        · obtain ⟨e, he, rfl⟩ := List.mem_map.mp hd
          refine hidle hoff e.1 ?_
          exact List.fst_mem_of_mem_zipIdx (List.mem_filter.mp he).1
        · exact World.quiet_mk hoff

lemma kept_run (h : w.Kept) (hc : w.capture = some c) (t : Turn) :
    (t.run w c).1.Kept ∧ (t.desired = false → t.Reaches c ∨ w.Quiet → (t.run w c).1.Quiet) := by
  obtain ⟨hsound, hidle⟩ := h.capture hc
  have hreload := reloads_reload hsound hidle t.opens
  unfold Turn.run
  by_cases hrest : c.resting = true
  · rw [if_pos hrest]
    have hquiet : t.Reaches c ∨ w.Quiet → w.Quiet := by
      rintro (hreaches | hquiet)
      · rw [hreaches.1] at hrest
        cases hrest
      · exact hquiet
    split_ifs
    · exact ⟨h, fun _ => hquiet⟩
    · refine ⟨World.kept_mk hreload.sound hreload.idle, fun _ hor => World.quiet_mk ?_⟩
      exact hreload.quiet (hquiet hor c hc)
  · rw [if_neg hrest]
    split_ifs with hfails
    · rw [Bool.and_eq_true, decide_eq_true_eq] at hfails
      refine ⟨h, fun _ hor => hor.resolve_left fun hreaches => ?_⟩
      rw [hreaches.2 hfails.1] at hfails
      exact absurd hfails.2 (by decide)
    · have htops := tops_top hsound hidle t
      obtain ⟨hkept, hquiet⟩ := kept_rest htops.sound htops.idle t w.diverted
      exact ⟨hkept, fun hoff _ => hquiet (htops.quiet hoff)⟩

/-- What one step keeps. -/
lemma kept_step (h : w.Kept) (op : Op) :
    (step w op).1.Kept ∧ (op.asks = false → w.Quiet → (step w op).1.Quiet) := by
  cases op with
  | plug node => exact ⟨⟨h.sound.plug node, h.idle⟩, fun _ hquiet => hquiet⟩
  | unplug file => exact ⟨⟨h.sound.unplug file, h.idle⟩, fun _ hquiet => hquiet⟩
  | seize file => exact ⟨⟨h.sound.seize file, h.idle⟩, fun _ hquiet => hquiet⟩
  | yield file => exact ⟨⟨h.sound.yield file, h.idle⟩, fun _ hquiet => hquiet⟩
  | create now listed opens =>
    unfold step
    cases hc : w.capture with
    | some c => exact ⟨h, fun _ hquiet => hquiet⟩
    | none =>
      have hempty : Sound w.kernel [] := by
        have hsound := h.sound
        unfold World.devices at hsound
        rwa [hc] at hsound
      have hreload := reloads_reload (c := ⟨[], false, now, false⟩) hempty
        (fun _ _ hd => absurd hd List.not_mem_nil) opens
      have hquiet := hreload.quiet rfl
      dsimp only [World.create]
      split_ifs
      · exact ⟨h, fun _ hquiet => hquiet⟩
      · exact ⟨World.kept_mk hreload.sound hreload.idle, fun _ _ => World.quiet_mk hquiet⟩
      · refine ⟨⟨?_, fun c hc' => ?_⟩, fun _ _ c hc' => ?_⟩
        · have hdropped := hreload.sound.drop (List.Sublist.refl _) (List.nil_sublist _)
            (fun d hd => Or.inl hd) fun d hd => absurd hd List.not_mem_nil
          unfold World.devices
          rw [hc]
          exact hdropped
        · rw [hc] at hc'
          cases hc'
        · rw [hc] at hc'
          cases hc'
  | turn t =>
    unfold step
    cases hc : w.capture with
    | none => exact ⟨h, fun _ hquiet => hquiet⟩
    | some c =>
      obtain ⟨hkept, hquiet⟩ := kept_run h hc t
      exact ⟨hkept, fun hoff hbefore => hquiet hoff (Or.inr hbefore)⟩
  | setExclusive exclusive =>
    unfold step
    cases hc : w.capture with
    | none => exact ⟨h, fun _ hquiet => hquiet⟩
    | some c =>
      have hsets := sets_setDevicesExclusive (h.capture hc).1 exclusive
      exact ⟨World.kept_mk hsets.sound hsets.idle,
        fun hoff _ => World.quiet_mk (hsets.released hoff)⟩
  | drop =>
    unfold step
    cases hc : w.capture with
    | none => exact ⟨h, fun _ hquiet => hquiet⟩
    | some c =>
      have hdropped := (h.capture hc).1.drop (List.Sublist.refl _) (List.nil_sublist _)
        (fun d hd => Or.inl hd) fun d hd => absurd hd List.not_mem_nil
      exact ⟨⟨hdropped, fun _ hc => absurd hc (Option.not_mem_none _)⟩,
        fun _ _ _ hc => absurd hc (Option.not_mem_none _)⟩

lemma kept_after (l : List Op) : (after l).Kept := by
  refine Trace.always (I := fun _ w => World.Kept w) ?_ fun _ op h => (kept_step h op).1
  refine ⟨⟨by simp [Kernel.empty], by simp [Kernel.empty], by simp [Kernel.empty],
    fun _ hd => absurd hd List.not_mem_nil, List.nodup_nil, fun _ hd => absurd hd List.not_mem_nil,
    fun _ hd => absurd hd List.not_mem_nil, fun _ hd => absurd hd List.not_mem_nil,
    fun _ h => (by cases h), fun _ hd => absurd hd List.not_mem_nil⟩, fun _ hc => (by cases hc)⟩

lemma quiet_run (h : w.Kept) (hquiet : w.Quiet) {n : List Op} (hn : ∀ op ∈ n, op.asks = false) :
    (Trace.final step w n).Quiet := by
  induction n generalizing w with
  | nil => exact hquiet
  | cons op n ih =>
    obtain ⟨hkept, hstep⟩ := kept_step h op
    exact ih hkept (hstep (hn op List.mem_cons_self) hquiet) fun o ho =>
      hn o (List.mem_cons_of_mem _ ho)

/-- Without exclusive input nothing is grabbed. -/
lemma World.Kept.free (h : w.Kept) (hquiet : w.Quiet) : w.kernel.grab file ≠ some .capture := by
  intro hgrab
  obtain ⟨hplugged, d, hd, rfl⟩ := h.sound.known file hgrab
  have hon := (h.sound.honest d hd hplugged).mp hgrab
  unfold World.devices at hd
  cases hc : w.capture with
  | none =>
    rw [hc] at hd
    cases hd
  | some c =>
    rw [hc] at hd
    rw [h.idle c hc (hquiet c hc) d hd] at hon
    cases hon

end

/-- **Grabs follow the flag.** In every run, however devices come and go and other programs grab
them, the devices that this program has grabbed in the kernel are those flagged so, and never one
that it injects through. Once an iteration has seen the flag cleared, nothing is grabbed until it
is asked for again. An iteration that sees the flag set keeps what is grabbed, opens every node it
may when the directory is due, and then, or when nothing was grabbed before, leaves no device of
the capture to the local system: each is grabbed, by this program or another. -/
theorem grabs_follow (l : List Op) :
    let w := after l
    (∀ file, w.kernel.grab file = some .capture ↔
        w.kernel.plugged file = true ∧ ∃ d ∈ w.devices, d.file = file ∧ d.grabbed = true) ∧
      (∀ e ∈ w.kernel.nodes, isOwn e.2.name = true → w.kernel.grab e.1 ≠ some .capture) ∧
      (∀ (t : Turn) (n : List Op), (∀ c ∈ w.capture, t.Reaches c) → t.desired = false →
        (∀ op ∈ n, op.asks = false) →
        ∀ file, (after (l ++ .turn t :: n)).kernel.grab file ≠ some .capture) ∧
      ∀ c ∈ w.capture, ∀ t : Turn, t.desired = true →
        let r := t.top w.kernel c
        (∀ file, w.kernel.grab file = some .capture → r.1.grab file = some .capture) ∧
          (t.due c = true ∨ c.exclusive = false → Taken r.1 r.2.devices) ∧
          (t.due c = true → ∀ e ∈ w.kernel.nodes, isEvent e.2.path = true →
            (openDevice (t.opens e.2.path) e).isSome = true →
              ∃ d ∈ r.2.devices, d.path = e.2.path ∧
                (d.file = e.1 ∨ w.kernel.plugged d.file = false)) := by
  intro w
  have h : w.Kept := kept_after l
  refine ⟨fun file => ⟨fun hgrab => ?_, ?_⟩, fun e he hown hgrab => ?_,
    fun t n hreaches hoff hn file => ?_, fun c hc t hon => ⟨fun file hgrab => ?_, ?_, ?_⟩⟩
  · obtain ⟨hplugged, d, hd, rfl⟩ := h.sound.known file hgrab
    exact ⟨hplugged, d, hd, rfl, (h.sound.honest d hd hplugged).mp hgrab⟩
  · rintro ⟨hplugged, d, hd, rfl, hon⟩
    exact (h.sound.honest d hd hplugged).mpr hon
  · obtain ⟨hplugged, d, hd, hfile⟩ := h.sound.known e.1 hgrab
    have hon : d.grabbed = true := (h.sound.honest d hd (hfile ▸ hplugged)).mp (hfile ▸ hgrab)
    rw [h.sound.own d hd ((h.sound.named d hd e he hfile.symm).trans hown)] at hon
    cases hon
  · have hkept := kept_after (l ++ .turn t :: n)
    refine hkept.free ?_
    unfold after
    rw [Trace.final_append, Trace.final_cons]
    refine quiet_run (kept_step h _).1 ?_ hn
    unfold step
    cases hc : w.capture with
    | none => exact fun c hc' => by rw [hc] at hc'; cases hc'
    | some c => exact (kept_run h hc t).2 hoff (Or.inl (hreaches c hc))
  · obtain ⟨hsound, hidle⟩ := h.capture hc
    have htops := tops_top hsound hidle t
    obtain ⟨hplugged, d, hd, rfl⟩ := hsound.known file hgrab
    have hlisted : d ∈ (if t.due c then listed t.opens w.kernel c.devices else c.devices) := by
      split_ifs
      · exact subset_foldl t.opens w.kernel c.devices _ hd
      · exact hd
    obtain ⟨d', hd', hsame, hkept⟩ := htops.forth d hlisted
    have hfile : d'.file = d.file := by rw [hsame]
    have hplugged' : (t.top w.kernel c).1.plugged d'.file = true := by
      unfold Kernel.plugged
      rw [htops.nodes, hfile]
      exact hplugged
    rw [← hfile]
    exact (htops.sound.honest d' hd' hplugged').mpr
      (hkept hon ((hsound.honest d hd hplugged).mp hgrab))
  · obtain ⟨hsound, hidle⟩ := h.capture hc
    exact (tops_top hsound hidle t).taken hon
  · intro hdue e he hevent hopen
    obtain ⟨hsound, hidle⟩ := h.capture hc
    have htops := tops_top hsound hidle t
    obtain ⟨d, hd, hpath⟩ := listed_covers hsound he hevent hopen
    have hforth := htops.forth
    rw [if_pos hdue] at hforth
    obtain ⟨d', hd', hsame, -⟩ := hforth d hd
    refine ⟨d', hd', by rw [hsame]; exact hpath, ?_⟩
    rw [or_iff_not_imp_right, Bool.not_eq_false]
    intro hplugged
    obtain ⟨e', he', hfile⟩ := Kernel.plugged_iff.mp hplugged
    have hplace := htops.sound.places d' hd' e' (by rw [htops.nodes]; exact he') hfile
    rw [← hfile, List.inj_on_of_nodup_map h.sound.paths he' he (by rw [hplace, hsame]; exact hpath)]

end TheKvm.EvdevGrab
