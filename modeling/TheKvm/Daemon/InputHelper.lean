import Mathlib.Logic.Function.Iterate
import TheKvm.Daemon.HelperPipe
import TheKvm.Daemon.PageZoom

/-!
The loop of an input helper, which reads the messages of the service and carries them out.

An end of the stream where a length is read is the end of the bridge. Every other failure of a read
is taken to pass: the bytes that the read had are gone, and the next read starts where it failed.
-/

namespace TheKvm

open HelperPipe

/-! ### The stream -/

inductive ReadError
  | unexpectedEof | invalidData | other
  deriving DecidableEq

/-- What the socket gives next. An interrupted read is tried again, and is nothing here. -/
inductive ReadEvent
  | byte (b : Stamped)
  | eof
  | error
  deriving DecidableEq

def ReadEvent.bytes : ReadEvent → List Stamped
  | .byte b => [b]
  | _ => []

/-- `read_exact` of some bytes from a place on, and where it ends. -/
def readExact (events : ℕ → ReadEvent) : ℕ → ℕ → Except ReadError (List Stamped) × ℕ
  | 0, pos => (.ok [], pos)
  | n + 1, pos =>
    match events pos with
    | .byte b =>
      let (result, pos) := readExact events n (pos + 1)
      (result.map (b :: ·), pos)
    | .eof => (.error .unexpectedEof, pos + 1)
    | .error => (.error .other, pos + 1)

/-- `read_ipc_frame_optional`; a frame keeps its length before the payload. -/
def readIpcFrameOptional (events : ℕ → ReadEvent) (pos : ℕ) :
    Except ReadError (Option (List Stamped)) × ℕ :=
  match readExact events 4 pos with
  | (.error .unexpectedEof, pos) => (.ok none, pos)
  | (.error error, pos) => (.error error, pos)
  | (.ok length, pos) =>
    let size := Bytes.ofBe (length.map Prod.fst)
    if maxIpcFrame < size then (.error .invalidData, pos)
    else
      match readExact events size pos with
      | (.error error, pos) => (.error error, pos)
      | (.ok payload, pos) => (.ok (some (length ++ payload)), pos)

/-! ### The bridge -/

/-- The bytes among the first events. -/
def arrived (events : ℕ → ReadEvent) (n : ℕ) : List Stamped :=
  (List.range n).flatMap fun i => (events i).bytes

/-- The frames of the first messages. -/
def framesBefore (messages : ℕ → HelperMessage) (k : ℕ) : List Stamped :=
  (List.range k).flatMap fun i => ipcFrame i (messages i)

/-- What the service writes, and what the stream gives of it: its bytes in their order, with reads
that fail anywhere in between. -/
structure HelperBridge where
  messages : ℕ → HelperMessage
  events : ℕ → ReadEvent
  fits : ∀ k, Fits (messages k)
  carries : ∀ n, ∃ k, arrived events n <+: framesBefore messages k

namespace HelperBridge

variable (b : HelperBridge)

/-- The bytes so far are those of whole frames. -/
def Boundary (n : ℕ) : Prop := ∃ k, arrived b.events n = framesBefore b.messages k

/-- From here on every read fails. -/
def Dead (n : ℕ) : Prop := ∀ m, n ≤ m → (b.events m).bytes = []

/-- A read fails between two frames, or no byte comes behind it. -/
def Clean : Prop := ∀ n, (b.events n).bytes = [] → b.Boundary n ∨ b.Dead n

end HelperBridge

/-! ### The loop -/

def consecutiveFailureBound : ℕ := 50

/-- How `run_helper` returns. -/
inductive HelperExit
  | bridgeEnded
  | releaseFailed (error : String)
  | injectorDead
  deriving DecidableEq

/-- The injector of a helper and what it handed on, the frames whose messages were carried out, and
where the stream is. -/
structure InputHelper (σ ω : Type*) where
  injector : σ
  inputs : List ω
  consecutiveFailures : ℕ
  executed : List (List Stamped)
  pos : ℕ
  exit : Option HelperExit

namespace InputHelper

section

variable {σ ω : Type*} (inj : ReceiverInjector σ ω) (s : InputHelper σ ω)

/-- `release_all`, and what the helper returns if it fails and if it does not. -/
def releaseAll (done : Option HelperExit) : InputHelper σ ω :=
  let released := inj.releaseAll s.injector
  { s with
    injector := released.injector
    inputs := s.inputs ++ released.inputs
    exit :=
      match released.result with
      | .ok () => done
      | .error error => some (.releaseFailed error) }

/-- An event on the desktop that owns the input. -/
def inject (event : InputEvent) : InputHelper σ ω :=
  let sent := inj.send s.injector event
  let s := { s with injector := sent.injector, inputs := s.inputs ++ sent.inputs }
  match sent.result with
  | .ok () => { s with consecutiveFailures := 0 }
  | .error _ =>
    { s with
      consecutiveFailures := s.consecutiveFailures + 1
      exit :=
        if consecutiveFailureBound ≤ s.consecutiveFailures + 1 then some .injectorDead else none }

/-- A message at the injector; `ownsInput` is what `current_desktop_is_input` says at it. Replies
and the cursor are left out. -/
def execute (ownsInput : Option Bool) : HelperMessage → InputHelper σ ω
  | .input event =>
    match ownsInput with
    | some true => s.inject inj event
    | _ => s.releaseAll inj none
  | .releaseAll => s.releaseAll inj none
  | .takeReceipts => { s with consecutiveFailures := 0 }
  | _ => s

end

/-- What a helper runs with: its injector, the reader of its messages, what it is told of its
desktop at each message, and its bridge. -/
structure Setting (σ ω : Type*) where
  inj : ReceiverInjector σ ω
  fromSlice : List UInt8 → Option HelperMessage
  ownsInput : ℕ → Option Bool
  bridge : HelperBridge

variable {σ ω : Type*} (w : Setting σ ω)

/-- A turn of the loop of `run_helper`. -/
def turn (s : InputHelper σ ω) : InputHelper σ ω :=
  if s.exit.isSome then s
  else
    match readIpcFrameOptional w.bridge.events s.pos with
    | (.ok (some frame), pos) =>
      match decode w.fromSlice frame with
      | some message =>
        { s with pos, executed := s.executed ++ [frame] }.execute w.inj
          (w.ownsInput s.executed.length) message
      | none => { s with pos }
    | (.ok none, pos) => { s with pos }.releaseAll w.inj (some .bridgeEnded)
    | (.error _, pos) => { s with pos }

def start (injector : σ) : InputHelper σ ω := ⟨injector, [], 0, [], 0, none⟩

/-- The helper behind some turns. -/
abbrev after (injector : σ) (n : ℕ) : InputHelper σ ω := (turn w)^[n] (start injector)

/-- The helper carried out only messages whose frames were written whole, and reads on at a frame
or where nothing is left to read. -/
structure Follows (b : HelperBridge) (s : InputHelper σ ω) : Prop where
  executed : ∀ read ∈ s.executed, ∃ k, read = ipcFrame k (b.messages k)
  resumes : s.exit = none → b.Boundary s.pos ∨ b.Dead s.pos

/-- The helper finds the bridge ended, lets go of everything and returns. -/
def Leaves (s : InputHelper σ ω) : Prop :=
  ∃ pos, turn w s = { s with pos }.releaseAll w.inj (some .bridgeEnded)

/-- The helper carries out a message, and returns from that. -/
def Stops (s : InputHelper σ ω) : Prop :=
  (turn w s).exit.isSome ∧ ∃ read, (turn w s).executed = s.executed ++ [read]

/-- A helper returns. -/
def Returns (injector : σ) : Prop :=
  ∃ n, (after w injector n).exit = none ∧
    (Leaves w (after w injector n) ∨ Stops w (after w injector n))

/-- Of the reads that only fail one sees the end of the stream. -/
def Ending (injector : σ) : Prop :=
  ∀ n, (after w injector n).exit = none → w.bridge.Dead (after w injector n).pos →
    ∃ m, (after w injector n).pos ≤ m ∧ w.bridge.events m = .eof

end InputHelper

/-! ### Reads -/

section

variable {events : ℕ → ReadEvent} {messages : ℕ → HelperMessage} {n k pos : ℕ}
  {x : List Stamped}

lemma arrived_succ : arrived events (n + 1) = arrived events n ++ (events n).bytes := by
  rw [arrived, List.range_succ, List.flatMap_append, List.flatMap_singleton, arrived]

lemma framesBefore_succ :
    framesBefore messages (k + 1) = framesBefore messages k ++ ipcFrame k (messages k) := by
  rw [framesBefore, List.range_succ, List.flatMap_append, List.flatMap_singleton, framesBefore]

lemma framesBefore_mono (messages : ℕ → HelperMessage) {m : ℕ} (h : k ≤ m) :
    framesBefore messages k <+: framesBefore messages m := by
  induction h with
  | refl => exact List.prefix_refl _
  | step _ ih =>
    rw [framesBefore_succ]
    exact ih.trans (List.prefix_append _ _)

lemma arrived_eq_of_fails (h : (events n).bytes = []) :
    arrived events (n + 1) = arrived events n := by
  rw [arrived_succ, h, List.append_nil]

/-- A read takes its bytes, or it ends at a failure. -/
lemma readExact_cases (events : ℕ → ReadEvent) (n pos : ℕ) :
    (∃ bytes, readExact events n pos = (.ok bytes, pos + n) ∧ bytes.length = n ∧
      arrived events (pos + n) = arrived events pos ++ bytes) ∨
    ∃ q error, readExact events n pos = (.error error, q + 1) ∧ pos ≤ q ∧
      (events q).bytes = [] ∧ (error = .unexpectedEof ↔ events q = .eof) := by
  induction n generalizing pos with
  | zero => exact Or.inl ⟨[], rfl, rfl, (List.append_nil _).symm⟩
  | succ n ih =>
    rcases hevent : events pos with b | _ | _
    · have hone : arrived events (pos + 1) = arrived events pos ++ [b] := by
        rw [arrived_succ, hevent]
        rfl
      rw [readExact, hevent]
      rcases ih (pos + 1) with ⟨bytes, hread, hlength, harrived⟩ | ⟨q, error, hread, hle, hq⟩
      · left
        refine ⟨b :: bytes, ?_, by rw [List.length_cons, hlength], ?_⟩
        · simp only [hread, Except.map, Nat.add_assoc, Nat.add_comm 1 n]
        · rw [Nat.add_comm n 1, ← Nat.add_assoc, harrived, hone, List.append_assoc]
          rfl
      · right
        refine ⟨q, error, ?_, by omega, hq⟩
        simp only [hread, Except.map]
    · right
      refine ⟨pos, .unexpectedEof, by rw [readExact, hevent], le_refl _, by rw [hevent]; rfl, ?_⟩
      exact iff_of_true rfl hevent
    · right
      refine ⟨pos, .other, by rw [readExact, hevent], le_refl _, by rw [hevent]; rfl, ?_⟩
      rw [hevent]
      simp

/-- A frame is read, or a length beyond the limit, or the read ends at a failure. -/
lemma readIpcFrameOptional_cases (events : ℕ → ReadEvent) (pos : ℕ) :
    (∃ header payload, readIpcFrameOptional events pos =
        (.ok (some (header ++ payload)), pos + 4 + payload.length) ∧ header.length = 4 ∧
      payload.length = Bytes.ofBe (header.map Prod.fst) ∧
      arrived events (pos + 4) = arrived events pos ++ header ∧
      arrived events (pos + 4 + payload.length) = arrived events pos ++ (header ++ payload)) ∨
    (∃ header, readIpcFrameOptional events pos = (.error .invalidData, pos + 4) ∧
      header.length = 4 ∧ maxIpcFrame < Bytes.ofBe (header.map Prod.fst) ∧
      arrived events (pos + 4) = arrived events pos ++ header) ∨
    ∃ q, pos ≤ q ∧ (events q).bytes = [] ∧
      ((readIpcFrameOptional events pos = (.ok none, q + 1) ∧ events q = .eof) ∨
        ∃ error, readIpcFrameOptional events pos = (.error error, q + 1)) := by
  unfold readIpcFrameOptional
  rcases readExact_cases events 4 pos with
    ⟨header, hread, hlength, harrived⟩ | ⟨q, error, hread, hle, hfails, heof⟩
  · rw [hread]
    dsimp only
    split_ifs with hlimit
    · exact Or.inr (Or.inl ⟨header, rfl, hlength, hlimit, harrived⟩)
    · rcases readExact_cases events (Bytes.ofBe (header.map Prod.fst)) (pos + 4) with
        ⟨payload, hread, hsize, harrived'⟩ | ⟨q, error, hread, hle, hfails, -⟩
      · left
        refine ⟨header, payload, ?_, hlength, hsize, harrived, ?_⟩
        · rw [hread, hsize]
        · rw [hsize, harrived', harrived, List.append_assoc]
      · exact Or.inr (Or.inr ⟨q, by omega, hfails, Or.inr ⟨error, by rw [hread]⟩⟩)
  · right
    right
    refine ⟨q, hle, hfails, ?_⟩
    rw [hread]
    cases error with
    | unexpectedEof => exact Or.inl ⟨rfl, heof.mp rfl⟩
    | invalidData => exact Or.inr ⟨_, rfl⟩
    | other => exact Or.inr ⟨_, rfl⟩

/-- Behind whole frames the bytes are those of the next one, as far as they go. -/
lemma next_frame {m : ℕ} (h : framesBefore messages k ++ x <+: framesBefore messages m)
    (hx : x ≠ []) : x <+: ipcFrame k (messages k) ∨ ipcFrame k (messages k) <+: x := by
  rcases Nat.lt_or_ge k m with hlt | hge
  · have hnext := framesBefore_mono messages hlt
    rw [Nat.succ_eq_add_one, framesBefore_succ] at hnext
    exact (List.prefix_or_prefix_of_prefix h hnext).imp (List.prefix_append_right_inj _).mp
      (List.prefix_append_right_inj _).mp
  · have hle := (h.trans (framesBefore_mono messages hge)).length_le
    have hpos := List.length_pos_iff.mpr hx
    rw [List.length_append] at hle
    omega

end
namespace HelperBridge

variable {b : HelperBridge} {n m k pos : ℕ} {header payload : List Stamped}

lemma Dead.arrived (h : b.Dead n) (hle : n ≤ m) : arrived b.events m = arrived b.events n := by
  induction hle with
  | refl => rfl
  | step hle ih => rw [arrived_eq_of_fails (h _ hle), ih]

lemma Boundary.next (h : b.Boundary n) (hfails : (b.events n).bytes = []) : b.Boundary (n + 1) := by
  obtain ⟨k, hk⟩ := h
  exact ⟨k, (arrived_eq_of_fails hfails).trans hk⟩

lemma Dead.next (h : b.Dead n) : b.Dead (n + 1) := fun m hm => h m (Nat.le_of_succ_le hm)

lemma four_le_length (k : ℕ) (message : HelperMessage) : 4 ≤ (ipcFrame k message).length := by
  rw [ipcFrame, List.length_map, Prefixed.length_frame]
  omega

/-- The length that is read at a boundary is that of the next frame. -/
lemma length_read (hk : arrived b.events pos = framesBefore b.messages k)
    (hheader : header.length = 4) (h : arrived b.events n = arrived b.events pos ++ header) :
    Bytes.ofBe (header.map Prod.fst) + 4 = (ipcFrame k (b.messages k)).length ∧
      Bytes.ofBe (header.map Prod.fst) ≤ maxIpcFrame := by
  obtain ⟨m, hm⟩ := b.carries n
  rw [h, hk] at hm
  have hlong := four_le_length k (b.messages k)
  have hprefix : header <+: ipcFrame k (b.messages k) := by
    rcases next_frame hm (List.length_pos_iff.mp (by omega)) with hpart | hwhole
    · exact hpart
    · rw [hwhole.eq_of_length_le (by omega)]
  obtain ⟨part, hpart⟩ := hprefix
  have hframe : Prefixed.IsFrame Prod.fst maxIpcFrame (ipcFrame k (b.messages k)) :=
    isFrame_ipcFrame (b.fits k)
  rw [← hpart] at hframe
  have hsize := hframe.size maxIpcFrame_lt hheader.ge
  rw [List.take_of_length_le hheader.le, hpart] at hsize
  exact hsize

/-- A frame that is read at a boundary was written whole. -/
lemma frame_read (hk : arrived b.events pos = framesBefore b.messages k)
    (hheader : header.length = 4) (hpayload : payload.length = Bytes.ofBe (header.map Prod.fst))
    (hn : arrived b.events n = arrived b.events pos ++ header)
    (h : arrived b.events m = arrived b.events pos ++ (header ++ payload)) :
    header ++ payload = ipcFrame k (b.messages k) ∧
      arrived b.events m = framesBefore b.messages (k + 1) := by
  have hsize := (length_read hk hheader hn).1
  have hlength : (header ++ payload).length = (ipcFrame k (b.messages k)).length := by
    rw [List.length_append]
    omega
  obtain ⟨l, hl⟩ := b.carries m
  rw [h, hk] at hl
  have hframe : header ++ payload = ipcFrame k (b.messages k) := by
    have hne : header ++ payload ≠ [] :=
      List.length_pos_iff.mp (by rw [List.length_append]; omega)
    rcases next_frame hl hne with hpart | hwhole
    · exact hpart.eq_of_length hlength
    · exact (hwhole.eq_of_length hlength.symm).symm
  exact ⟨hframe, by rw [h, hframe, hk, framesBefore_succ]⟩

end HelperBridge

/-! ### Turns -/

namespace InputHelper

open HelperBridge

variable {σ ω : Type*} {w : Setting σ ω} {s : InputHelper σ ω} {injector : σ}

lemma execute_reads (inj : ReceiverInjector σ ω) (s : InputHelper σ ω) (ownsInput : Option Bool)
    (message : HelperMessage) : (s.execute inj ownsInput message).executed = s.executed ∧
      (s.execute inj ownsInput message).pos = s.pos := by
  cases message with
  | input event =>
    unfold execute
    dsimp only
    split
    · unfold inject
      dsimp only
      split <;> exact ⟨rfl, rfl⟩
    · exact ⟨rfl, rfl⟩
  | _ => exact ⟨rfl, rfl⟩

/-- What a turn comes to. -/
inductive Turned (w : Setting σ ω) (s : InputHelper σ ω) : Prop where
  | carries (header payload : List Stamped) (hheader : header.length = 4)
    (hpayload : payload.length = Bytes.ofBe (header.map Prod.fst))
    (hlength : arrived w.bridge.events (s.pos + 4) = arrived w.bridge.events s.pos ++ header)
    (harrived : arrived w.bridge.events (s.pos + 4 + payload.length) =
      arrived w.bridge.events s.pos ++ (header ++ payload))
    (hpos : (turn w s).pos = s.pos + 4 + payload.length)
    (hturn : (turn w s).executed = s.executed ++ [header ++ payload] ∨
      (turn w s).executed = s.executed ∧ (turn w s).exit = none)
  | oversized (header : List Stamped) (hheader : header.length = 4)
    (hlimit : maxIpcFrame < Bytes.ofBe (header.map Prod.fst))
    (harrived : arrived w.bridge.events (s.pos + 4) = arrived w.bridge.events s.pos ++ header)
    (hturn : turn w s = { s with pos := s.pos + 4 })
  | ends (q : ℕ) (hle : s.pos ≤ q) (heof : w.bridge.events q = .eof)
    (hturn : turn w s = { s with pos := q + 1 }.releaseAll w.inj (some .bridgeEnded))
  | fails (q : ℕ) (hle : s.pos ≤ q) (hfails : (w.bridge.events q).bytes = [])
    (hturn : turn w s = { s with pos := q + 1 })

lemma turned (h : s.exit = none) : Turned w s := by
  have hrunning : ¬s.exit.isSome := by rw [h]; simp
  have hturn : turn w s = _ := if_neg hrunning
  rcases readIpcFrameOptional_cases w.bridge.events s.pos with
    ⟨header, payload, hread, hheader, hpayload, hlength, harrived⟩ |
    ⟨header, hread, hheader, hlimit, harrived⟩ | ⟨q, hle, hfails, ⟨hread, heof⟩ | ⟨error, hread⟩⟩
  · rw [hread] at hturn
    dsimp only at hturn
    rcases hdecode : decode w.fromSlice (header ++ payload) with _ | message
    · rw [hdecode] at hturn
      exact .carries header payload hheader hpayload hlength harrived (by rw [hturn])
        (Or.inr ⟨by rw [hturn], by rw [hturn]; exact h⟩)
    · rw [hdecode] at hturn
      refine .carries header payload hheader hpayload hlength harrived ?_ (Or.inl ?_)
      · rw [hturn, (execute_reads _ _ _ _).2]
      · rw [hturn, (execute_reads _ _ _ _).1]
  · rw [hread] at hturn
    exact .oversized header hheader hlimit harrived hturn
  · rw [hread] at hturn
    exact .ends q hle heof hturn
  · rw [hread] at hturn
    exact .fails q hle hfails hturn

lemma turn_of_exit (h : s.exit.isSome) : turn w s = s := if_pos h

/-- A turn gets on in the stream. -/
lemma pos_lt_turn (h : s.exit = none) : s.pos < (turn w s).pos := by
  cases turned (w := w) h with
  | carries header payload hheader hpayload hlength harrived hpos hturn => omega
  | oversized header hheader hlimit harrived hturn =>
    rw [hturn]
    exact Nat.lt_add_of_pos_right (by omega)
  | ends q hle heof hturn =>
    rw [hturn]
    exact Nat.lt_succ_of_le hle
  | fails q hle hfails hturn =>
    rw [hturn]
    exact Nat.lt_succ_of_le hle

/-- A helper that returns finds the bridge ended or is stopped by a message. -/
lemma exit_turn (h : s.exit = none) (hexit : (turn w s).exit ≠ none) : Leaves w s ∨ Stops w s := by
  cases turned (w := w) h with
  | carries header payload hheader hpayload hlength harrived hpos hturn =>
    rcases hturn with hturn | ⟨-, hnone⟩
    · exact Or.inr ⟨Option.isSome_iff_ne_none.mpr hexit, _, hturn⟩
    · exact absurd hnone hexit
  | oversized header hheader hlimit harrived hturn =>
    rw [hturn] at hexit
    exact absurd h hexit
  | ends q hle heof hturn => exact Or.inl ⟨q + 1, hturn⟩
  | fails q hle hfails hturn =>
    rw [hturn] at hexit
    exact absurd h hexit

lemma Leaves.exit (h : Leaves w s) : (turn w s).exit.isSome := by
  obtain ⟨pos, hturn⟩ := h
  rw [hturn]
  unfold InputHelper.releaseAll
  dsimp only
  split <;> rfl

/-- Where a read fails between two frames or for good, a turn follows the bridge. -/
lemma Follows.turn (h : Follows w.bridge s) (hclean : w.bridge.Clean) :
    Follows w.bridge (turn w s) := by
  by_cases hexit : s.exit = none
  · have hbehind : ∀ q, (w.bridge.events q).bytes = [] →
        w.bridge.Boundary (q + 1) ∨ w.bridge.Dead (q + 1) := fun q hfails =>
      (hclean q hfails).imp (·.next hfails) (·.next)
    have hboundary : ∀ n x, arrived w.bridge.events n = arrived w.bridge.events s.pos ++ x →
        s.pos ≤ n → x ≠ [] → w.bridge.Boundary s.pos := by
      intro n x harrived hle hx
      rcases h.resumes hexit with hboundary | hdead
      · exact hboundary
      · rw [hdead.arrived hle, List.self_eq_append_right] at harrived
        exact absurd harrived hx
    cases turned (w := w) hexit with
    | carries header payload hheader hpayload hlength harrived hpos hturn =>
      obtain ⟨k, hk⟩ := hboundary _ _ hlength (by omega) (List.length_pos_iff.mp (by omega))
      obtain ⟨hframe, hbefore⟩ := frame_read hk hheader hpayload hlength harrived
      refine ⟨fun read hread => ?_, fun _ => Or.inl ⟨k + 1, by rw [hpos, hbefore]⟩⟩
      rcases hturn with hturn | ⟨hturn, -⟩
      · rw [hturn] at hread
        rcases List.mem_append.mp hread with hold | hnew
        · exact h.executed read hold
        · exact ⟨k, (List.mem_singleton.mp hnew).trans hframe⟩
      · exact h.executed read (hturn ▸ hread)
    | oversized header hheader hlimit harrived hturn =>
      obtain ⟨k, hk⟩ := hboundary _ _ harrived (by omega) (List.length_pos_iff.mp (by omega))
      exact absurd (length_read hk hheader harrived).2 (not_le.mpr hlimit)
    | ends q hle heof hturn =>
      rw [hturn]
      exact ⟨h.executed, fun _ => hbehind q (by rw [heof]; rfl)⟩
    | fails q hle hfails hturn =>
      rw [hturn]
      exact ⟨h.executed, fun _ => hbehind q hfails⟩
  · rwa [turn_of_exit (Option.isSome_iff_ne_none.mpr hexit)]

/-! ### Runs of the loop -/

variable {n m : ℕ}

lemma after_succ (w : Setting σ ω) (injector : σ) (n : ℕ) :
    after w injector (n + 1) = turn w (after w injector n) :=
  Function.iterate_succ_apply' _ _ _

lemma follows_after (w : Setting σ ω) (injector : σ) (hclean : w.bridge.Clean) (n : ℕ) :
    Follows w.bridge (after w injector n) := by
  induction n with
  | zero =>
    refine ⟨fun read hread => ?_, fun _ => Or.inl ⟨0, rfl⟩⟩
    cases hread
  | succ n ih =>
    rw [after_succ]
    exact ih.turn hclean

lemma exit_mono (h : (after w injector n).exit.isSome) (hle : n ≤ m) :
    (after w injector m).exit.isSome := by
  induction hle with
  | refl => exact h
  | step _ ih =>
    rw [after_succ, turn_of_exit ih]
    exact ih

/-- Where every read fails, a turn finds the end of the stream, or goes on. -/
lemma turn_dead (h : s.exit = none) (hdead : w.bridge.Dead s.pos) :
    (w.bridge.events s.pos = .eof ∧ Leaves w s) ∨
      (w.bridge.events s.pos ≠ .eof ∧ turn w s = { s with pos := s.pos + 1 }) := by
  have hrunning : ¬s.exit.isSome := by rw [h]; simp
  have hfails := hdead s.pos (le_refl _)
  rcases hevent : w.bridge.events s.pos with byte | _ | _
  · rw [hevent] at hfails
    cases hfails
  · refine Or.inl ⟨rfl, s.pos + 1, ?_⟩
    rw [turn, if_neg hrunning, readIpcFrameOptional, readExact, hevent]
  · refine Or.inr ⟨by simp, ?_⟩
    rw [turn, if_neg hrunning, readIpcFrameOptional, readExact, hevent]

/-- Reads that fail for good and see no end of the stream keep the helper going. -/
lemma after_dead (h : (after w injector n).exit = none)
    (hdead : w.bridge.Dead (after w injector n).pos)
    (hnone : ∀ q, (after w injector n).pos ≤ q → w.bridge.events q ≠ .eof) (k : ℕ) :
    after w injector (n + k) =
      { after w injector n with pos := (after w injector n).pos + k } := by
  induction k with
  | zero => rfl
  | succ k ih =>
    rw [← Nat.add_assoc, after_succ, ih]
    have hdead' : w.bridge.Dead ((after w injector n).pos + k) :=
      fun m hm => hdead m ((Nat.le_add_right _ k).trans hm)
    rcases turn_dead (w := w)
        (s := { after w injector n with pos := (after w injector n).pos + k }) h hdead' with
      ⟨heof, -⟩ | ⟨-, hturn⟩
    · exact absurd heof (hnone _ (Nat.le_add_right _ k))
    · exact hturn

/-- From reads that fail for good to the first end of the stream the helper goes on, and leaves. -/
lemma leaves_of_eof {q : ℕ} (hrunning : ∀ n, (after w injector n).exit = none)
    (hdead : w.bridge.Dead (after w injector n).pos) (heof : w.bridge.events q = .eof)
    (hle : (after w injector n).pos ≤ q) : ∃ m, Leaves w (after w injector m) := by
  by_contra hnever
  have hnone : ∀ d n, w.bridge.Dead (after w injector n).pos →
      (after w injector n).pos + d = q → False := by
    intro d
    induction d with
    | zero =>
      intro n hdead hq
      rcases turn_dead (hrunning n) hdead with ⟨-, hleaves⟩ | ⟨hother, -⟩
      · exact hnever ⟨n, hleaves⟩
      · exact hother ((congrArg w.bridge.events hq).trans heof)
    | succ d ih =>
      intro n hdead hq
      rcases turn_dead (hrunning n) hdead with ⟨-, hleaves⟩ | ⟨-, hturn⟩
      · exact hnever ⟨n, hleaves⟩
      · have hpos : (after w injector (n + 1)).pos = (after w injector n).pos + 1 := by
          rw [after_succ, hturn]
        refine ih (n + 1) ?_ (by omega)
        rw [hpos]
        exact hdead.next
  exact hnone (q - (after w injector n).pos) n hdead (by omega)

lemma le_pos_after (h : ∀ n, (after w injector n).exit = none) (n : ℕ) :
    n ≤ (after w injector n).pos := by
  induction n with
  | zero => exact Nat.zero_le _
  | succ n ih =>
    have hlt := pos_lt_turn (w := w) (h n)
    rw [after_succ]
    omega

/-- Where the reads fail for good the helper returns if one of them sees the end of the stream, and
otherwise never. -/
lemma returns_iff {N : ℕ} (hdead : w.bridge.Dead N) : Returns w injector ↔ Ending w injector := by
  constructor
  · rintro ⟨n, hrunning, hreturns⟩ m hm hdead
    have hexit : (after w injector (n + 1)).exit.isSome := by
      rw [after_succ]
      exact hreturns.elim Leaves.exit And.left
    have hle : m ≤ n := by
      by_contra hlt
      have hgone := exit_mono hexit (Nat.succ_le_of_lt (not_le.mp hlt))
      rw [hm] at hgone
      cases hgone
    by_contra hnone
    have hnone : ∀ q, (after w injector m).pos ≤ q → w.bridge.events q ≠ .eof :=
      fun q hq heof => hnone ⟨q, hq, heof⟩
    obtain ⟨k, rfl⟩ := Nat.exists_eq_add_of_le hle
    rw [Nat.add_assoc, after_dead hm hdead hnone] at hexit
    dsimp only at hexit
    rw [hm] at hexit
    cases hexit
  · intro hending
    by_contra hnever
    have hrunning : ∀ n, (after w injector n).exit = none := by
      intro n
      induction n with
      | zero => rfl
      | succ n ih =>
        by_contra hexit
        rw [after_succ] at hexit
        exact hnever ⟨n, ih, exit_turn ih hexit⟩
    have hdead' : w.bridge.Dead (after w injector N).pos :=
      fun m hm => hdead m ((le_pos_after hrunning N).trans hm)
    obtain ⟨q, hle, heof⟩ := hending N (hrunning N) hdead'
    obtain ⟨m, hleaves⟩ := leaves_of_eof hrunning hdead' heof hle
    exact hnever ⟨m, hrunning m, Or.inl hleaves⟩

/-- A helper whose reads fail only between two frames or for good follows its bridge, and a helper
whose reads fail for good returns exactly if one of them sees the end of the stream. -/
theorem run_helper_follows (w : Setting σ ω) (injector : σ) :
    (w.bridge.Clean → ∀ n, Follows w.bridge (after w injector n)) ∧
      ∀ N, w.bridge.Dead N → (Returns w injector ↔ Ending w injector) :=
  ⟨follows_after w injector, fun _ => returns_iff⟩

/-! ### One message -/

section

variable {message : HelperMessage} {failure : ReadEvent}

/-- The bytes, and behind them the failure. -/
def scriptOf (bytes : List Stamped) (failure : ReadEvent) (n : ℕ) : ReadEvent :=
  (bytes[n]?).elim failure .byte

lemma scriptOf_cases (bytes : List Stamped) (failure : ReadEvent) (n : ℕ) :
    (∃ byte, scriptOf bytes failure n = .byte byte) ∨
      bytes.length ≤ n ∧ scriptOf bytes failure n = failure := by
  unfold scriptOf
  rcases hget : bytes[n]? with _ | byte
  · exact Or.inr ⟨List.getElem?_eq_none_iff.mp hget, rfl⟩
  · exact Or.inl ⟨byte, rfl⟩

lemma arrived_scriptOf (bytes : List Stamped) (hfails : failure.bytes = []) (n : ℕ) :
    arrived (scriptOf bytes failure) n = bytes.take n := by
  induction n with
  | zero => rfl
  | succ n ih =>
    rw [arrived_succ, ih, List.take_add_one, scriptOf]
    rcases bytes[n]? with _ | byte
    · exact congrArg _ hfails
    · rfl

/-- A bridge that carries one message and then fails in one way for good. -/
def oneMessage (message : HelperMessage) (failure : ReadEvent) (hfits : Fits message)
    (hfails : failure.bytes = []) : HelperBridge where
  messages _ := message
  events := scriptOf (ipcFrame 0 message) failure
  fits _ := hfits
  carries n := ⟨1, by
    rw [arrived_scriptOf _ hfails, framesBefore_succ]
    exact List.take_prefix _ _⟩

variable (hfits : Fits message) (hfails : failure.bytes = []) {n : ℕ}

lemma oneMessage_fails (h : ((oneMessage message failure hfits hfails).events n).bytes = []) :
    (ipcFrame 0 message).length ≤ n ∧
      (oneMessage message failure hfits hfails).events n = failure := by
  rcases scriptOf_cases (ipcFrame 0 message) failure n with ⟨byte, hbyte⟩ | hbehind
  · change (scriptOf (ipcFrame 0 message) failure n).bytes = [] at h
    rw [hbyte] at h
    cases h
  · exact hbehind

lemma clean_oneMessage : (oneMessage message failure hfits hfails).Clean := by
  intro n hn
  refine Or.inl ⟨1, ?_⟩
  change arrived (scriptOf (ipcFrame 0 message) failure) n = framesBefore (fun _ => message) 1
  rw [arrived_scriptOf _ hfails, framesBefore_succ,
    List.take_of_length_le (oneMessage_fails hfits hfails hn).1]
  rfl

lemma dead_oneMessage :
    (oneMessage message failure hfits hfails).Dead (ipcFrame 0 message).length := by
  intro n hn
  have hget : (ipcFrame 0 message)[n]? = none := List.getElem?_eq_none_iff.mpr hn
  change (scriptOf (ipcFrame 0 message) failure n).bytes = []
  rw [scriptOf, hget]
  exact hfails

end

/-- The press of a key. -/
def keyPress : HelperMessage := .input (.key ⟨4, true, false⟩)

/-- A helper of one key press, behind which every read fails. -/
def keyHelper (failure : ReadEvent) (hfails : failure.bytes = []) :
    Setting Win32Injector Win32.Input :=
  ⟨win32Injector, knowing [keyPress], fun _ => some true,
    oneMessage keyPress failure (fits_input _) hfails⟩

/-- The service ends. -/
def endedBridge : Setting Win32Injector Win32.Input := keyHelper .eof rfl

/-- The connection is reset. -/
def resetBridge : Setting Win32Injector Win32.Input := keyHelper .error rfl

theorem ended_bridge_test :
    (∀ n, Follows endedBridge.bridge (after endedBridge .create n)) ∧
      Returns endedBridge .create :=
  ⟨(run_helper_follows endedBridge .create).1 (clean_oneMessage _ rfl),
    ((run_helper_follows endedBridge .create).2 _ (dead_oneMessage _ rfl)).mpr fun _ _ hdead =>
      ⟨_, le_refl _, (oneMessage_fails _ rfl (hdead _ (le_refl _))).2⟩⟩

/-- The helper keeps the key down and reads on for good. -/
theorem reset_bridge_never_returns :
    ¬∀ (w : Setting Win32Injector Win32.Input) (injector : Win32Injector),
      (∀ n, Follows w.bridge (after w injector n)) ∧
        ∀ N, w.bridge.Dead N → Returns w injector := by
  intro h
  have hdead : resetBridge.bridge.Dead (ipcFrame 0 keyPress).length := dead_oneMessage _ rfl
  have hreturns := (h resetBridge .create).2 _ hdead
  have hrunning : (after resetBridge .create 1).exit = none := by decide +kernel
  have hpos : (after resetBridge .create 1).pos = (ipcFrame 0 keyPress).length := by
    decide +kernel
  obtain ⟨m, hm, heof⟩ := (returns_iff hdead).mp hreturns 1 hrunning (hpos ▸ hdead)
  have herror := (oneMessage_fails (fits_input _) rfl (hdead m (hpos ▸ hm))).2
  exact absurd (herror.symm.trans heof) (by decide)

end InputHelper

end TheKvm
