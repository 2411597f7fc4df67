import TheKvm.Daemon.HelperPipe
import TheKvm.Lib.Trace

/-!
Requests to the input helpers, and the replies they are answered from.

A call writes its request to every helper and then reads one frame from each stream, waiting for
a bounded time. Replies carry no number of their request.
-/

namespace TheKvm

open Framing (Lane)
open HelperPipe

/-- The requests that helpers answer. -/
inductive HelperRequest
  | warpCursor (x y : UInt32)
  | primaryDims
  | takeReceipts
  deriving DecidableEq

structure InjectionReceipts where
  ok : UInt64
  failed : UInt64
  skipped : UInt64
  answered : UInt64
  lastError : String
  absolute : UInt64
  relative : UInt64
  versions : List String
  absoluteDetail : String
  deriving DecidableEq

inductive HelperOutcome
  | warp (result : Except String Unit)
  | dims (dims : Option (UInt32 × UInt32 × UInt32 × UInt32 × UInt32))
  | receipts (receipts : InjectionReceipts)

namespace HelperRequest

/-- What a helper may answer. -/
def Answers : HelperRequest → HelperMessage → Bool
  | .warpCursor _ _, .warpDone _ _ => true
  | .primaryDims, .primaryDims _ _ _ _ _ => true
  | .takeReceipts, .inputReceipt _ => true
  | _, _ => false

/-- `collect_warp_acks` of what each stream came to. -/
def collectWarpAcks (x y : UInt32) (replies : List (Option HelperMessage)) : Except String Unit :=
  let placed := replies.any fun reply =>
    match reply with
    | some (.warpDone ok _) => ok
    | _ => false
  let answered := replies.any fun reply =>
    match reply with
    | some (.warpDone _ _) => true
    | _ => false
  let details := replies.map fun reply =>
    match reply with
    | some (.warpDone _ detail) => detail
    | _ => "no acknowledgement (legacy helper?)"
  if placed || !answered then .ok ()
  else
    .error ("no Windows helper placed the entry warp at (" ++ toString x ++ ", " ++ toString y ++
      "): " ++ "; ".intercalate details)

/-- The dims of a reply that is sane. -/
def saneDims : Option HelperMessage → Option (UInt32 × UInt32 × UInt32 × UInt32 × UInt32)
  | some (.primaryDims physWidth physHeight logicalWidth logicalHeight dpi) =>
    if 2 ≤ physWidth ∧ 2 ≤ physHeight ∧ 2 ≤ logicalWidth ∧ 2 ≤ logicalHeight then
      some (physWidth, physHeight, logicalWidth, logicalHeight, dpi)
    else none
  | _ => none

/-- One reply summed up. -/
def addReceipt (receipts : InjectionReceipts) : Option HelperMessage → InjectionReceipts
  | some (.inputReceipt receipt) =>
    { ok := receipts.ok + receipt.ok
      failed := receipts.failed + receipt.failed
      skipped := receipts.skipped + receipt.skipped
      answered := receipts.answered + 1
      lastError := if receipt.lastError.isEmpty then receipts.lastError else receipt.lastError
      absolute := receipts.absolute + receipt.absolute
      relative := receipts.relative + receipt.relative
      versions :=
        if receipt.version.isEmpty || receipts.versions.contains receipt.version then
          receipts.versions
        else receipts.versions ++ [receipt.version]
      absoluteDetail :=
        if receipt.absoluteDetail.isEmpty then receipts.absoluteDetail
        else receipt.absoluteDetail }
  | _ => receipts

/-- What a call reports of what each stream came to. -/
def outcome (request : HelperRequest) (replies : List (Option HelperMessage)) : HelperOutcome :=
  match request with
  | .warpCursor x y => .warp (collectWarpAcks x y replies)
  | .primaryDims => .dims (replies.findSome? saneDims)
  | .takeReceipts => .receipts (replies.foldl addReceipt ⟨0, 0, 0, 0, "", 0, 0, [], ""⟩)

/-- What a call reports when no helper is left to ask. -/
def gone : HelperRequest → HelperOutcome
  | .warpCursor _ _ =>
    .warp (.error "warp cursor in Windows helper: all Windows helpers are gone")
  | request => request.outcome []

end HelperRequest

/-- The stream of one helper, and the requests that helper has still to come to. -/
structure HelperStream where
  id : ℕ
  lane : PipeLane
  inbox : List (ℕ × HelperRequest)

/-- A call that is reading: where it is, and what the streams before came to. -/
structure Collecting where
  request : HelperRequest
  cur : ℕ
  answers : List (ℕ × Option (List Stamped))

/-- A call that is over. -/
structure HelperReport where
  number : ℕ
  request : HelperRequest
  answers : List (ℕ × Option (List Stamped))
  outcome : HelperOutcome

/-- The streams, the calls so far, and what the helpers produced: who, to which call, and what. -/
structure HelperProxy where
  streams : List HelperStream
  calls : ℕ
  collecting : Option Collecting
  produced : List (ℕ × ℕ × HelperMessage)
  reports : List HelperReport

namespace HelperProxy

/-- A call finds some helpers gone; a helper answers the oldest request it has, or passes it
over; bytes of a helper arrive; and the call reads, or gives up, at the stream it is at. -/
inductive Op
  | call (request : HelperRequest) (gone : ℕ → Bool)
  | reply (i : ℕ) (message : Option HelperMessage)
  | arrive (i : ℕ) (n : ℕ)
  | read
  | giveUp

variable (fromSlice : List UInt8 → Option HelperMessage)

def init (helpers : ℕ) : HelperProxy :=
  ⟨(List.range helpers).map fun id => ⟨id, ⟨[], [], [], []⟩, []⟩, 0, none, [], []⟩

/-- What a call reports. -/
def report (number : ℕ) (request : HelperRequest) (answers : List (ℕ × Option (List Stamped))) :
    HelperReport :=
  ⟨number, request, answers,
    if answers = [] then request.gone
    else request.outcome (answers.map fun answer => answer.2.bind (decode fromSlice))⟩

def call (s : HelperProxy) (request : HelperRequest) (gone : ℕ → Bool) : HelperProxy :=
  if s.collecting.isSome then s
  else
    let streams := (s.streams.filter fun stream => !gone stream.id).map fun stream =>
      { stream with
        lane := { stream.lane with handled := [] }
        inbox := stream.inbox ++ [(s.calls + 1, request)] }
    if streams = [] then
      { s with
        streams := []
        calls := s.calls + 1
        reports := s.reports ++ [report fromSlice (s.calls + 1) request []] }
    else
      { s with
        streams := streams
        calls := s.calls + 1
        collecting := some ⟨request, 0, []⟩ }

/-- A reply over the limit is not written. -/
def reply (s : HelperProxy) (i : ℕ) (message : Option HelperMessage) : HelperProxy :=
  match s.streams[i]? with
  | none => s
  | some stream =>
    match stream.inbox, message with
    | [], _ => s
    | _ :: inbox, none => { s with streams := s.streams.set i { stream with inbox } }
    | (number, request) :: inbox, some message =>
      if request.Answers message = true ∧ Fits message then
        { s with
          streams := s.streams.set i
            { stream with lane := stream.lane.send (ipcFrame number message), inbox }
          produced := s.produced ++ [(stream.id, number, message)] }
      else { s with streams := s.streams.set i { stream with inbox } }

def arrive (s : HelperProxy) (i n : ℕ) : HelperProxy :=
  match s.streams[i]? with
  | none => s
  | some stream =>
    { s with streams := s.streams.set i { stream with lane := stream.lane.arrive n } }

/-- The stream a call is at has come to something; the call goes on with the next, or is over. -/
def record (s : HelperProxy) (c : Collecting) (stream : HelperStream)
    (answer : Option (List Stamped)) : HelperProxy :=
  let answers := c.answers ++ [(stream.id, answer)]
  if c.cur + 1 < s.streams.length then
    { s with collecting := some { c with cur := c.cur + 1, answers } }
  else
    { s with
      collecting := none
      reports := s.reports ++ [report fromSlice s.calls c.request answers] }

def read (s : HelperProxy) : HelperProxy :=
  match s.collecting with
  | none => s
  | some c =>
    match s.streams[c.cur]? with
    | none => s
    | some stream =>
      let read := { stream with lane := Prefixed.read Prod.fst maxIpcFrame stream.lane }
      let s' := { s with streams := s.streams.set c.cur read }
      match HelperPipe.find stream.lane with
      | .more => s'
      | .invalid _ => s'.record fromSlice c stream none
      | .whole read _ => s'.record fromSlice c stream (some read)

def giveUp (s : HelperProxy) : HelperProxy :=
  match s.collecting with
  | none => s
  | some c =>
    match s.streams[c.cur]? with
    | none => s
    | some stream =>
      let left := { stream with lane := stream.lane.giveUp }
      let s' := { s with streams := s.streams.set c.cur left }
      s'.record fromSlice c stream none

def step (s : HelperProxy) : Op → HelperProxy
  | .call request gone => s.call fromSlice request gone
  | .reply i message => s.reply i message
  | .arrive i n => s.arrive i n
  | .read => s.read fromSlice
  | .giveUp => s.giveUp fromSlice

/-- The proxy behind the steps of a run. -/
abbrev after (helpers : ℕ) (ops : List Op) : HelperProxy :=
  Trace.final (fun s op => (step fromSlice s op, ())) (init helpers) ops

/-! ### Replies to their requests -/

/-- The bytes are the frame of a reply that this helper produced to this call. -/
def IsReply (s : HelperProxy) (id number : ℕ) (read : List Stamped) : Prop :=
  ∃ message, (id, number, message) ∈ s.produced ∧ read = ipcFrame number message

/-- A read that finds something finds a reply to its own call, whole. -/
def ReadsOwn (s : HelperProxy) : Op → Prop
  | .read => ∀ c stream, s.collecting = some c → s.streams[c.cur]? = some stream →
      HelperPipe.find stream.lane = .more ∨
        ∃ read rest, HelperPipe.find stream.lane = .whole read rest ∧
          s.IsReply stream.id s.calls read
  | _ => True

/-- What a call reports is computed from replies that the helpers produced to it, at most one of
each helper it asked. -/
def FromOwn (s : HelperProxy) (report : HelperReport) : Prop :=
  (∀ id read, (id, some read) ∈ report.answers → s.IsReply id report.number read) ∧
    ∃ replies : List (ℕ × Option HelperMessage),
      replies.map (·.1) = report.answers.map (·.1) ∧
      (∀ id message, (id, some message) ∈ replies → (id, report.number, message) ∈ s.produced) ∧
        report.outcome =
          if replies = [] then report.request.gone
          else report.request.outcome (replies.map (·.2))

/-- A call finds nothing unread on any stream, and a helper answers no call after the next. -/
def Timely (s : HelperProxy) : Op → Prop
  | .call _ _ => s.collecting = none → ∀ stream ∈ s.streams, stream.lane.unread = []
  | .reply i message => message.isSome = true →
      ∀ entry ∈ (s.streams[i]?).bind (·.inbox.head?), entry.1 = s.calls
  | _ => True

/-! ### A stream in time -/

/-- What is unread on the stream are replies to the call of the number. -/
def Current (s : HelperProxy) (stream : HelperStream) : Prop :=
  ∃ written, (∀ f ∈ written, ∃ message, Fits message ∧
      (stream.id, s.calls, message) ∈ s.produced ∧ f = ipcFrame s.calls message) ∧
    stream.lane.InStep id written

/-- In a call, the streams that are still to be read are current; and what was read so far, and
what the calls before reported, are replies to their calls. -/
structure InTime (s : HelperProxy) : Prop where
  streams : ∀ c, s.collecting = some c → ∀ i stream, c.cur ≤ i → s.streams[i]? = some stream →
    s.Current stream
  answers : ∀ c, s.collecting = some c → ∀ id read, (id, some read) ∈ c.answers →
    s.IsReply id s.calls read
  reports : ∀ report ∈ s.reports, ∀ id read, (id, some read) ∈ report.answers →
    s.IsReply id report.number read

/-- Every report is made of its answers. -/
def Made (s : HelperProxy) : Prop :=
  ∀ r ∈ s.reports, r = report fromSlice r.number r.request r.answers

variable {fromSlice} {s : HelperProxy} {stream : HelperStream}

lemma IsReply.mono {s' : HelperProxy} {id number : ℕ} {read : List Stamped}
    (h : s.IsReply id number read) (hproduced : s.produced ⊆ s'.produced) :
    s'.IsReply id number read := by
  obtain ⟨message, hmem, hread⟩ := h
  exact ⟨message, hproduced hmem, hread⟩

/-- What a current stream's read comes to. -/
lemma Current.find (h : s.Current stream) : HelperPipe.find stream.lane = .more ∨
    ∃ read rest, HelperPipe.find stream.lane = .whole read rest ∧
      s.IsReply stream.id s.calls read := by
  obtain ⟨written, hwritten, hlane⟩ := h
  have hframes : ∀ f ∈ written, Prefixed.IsFrame Prod.fst maxIpcFrame f := by
    intro f hf
    obtain ⟨message, hfits, -, rfl⟩ := hwritten f hf
    exact isFrame_ipcFrame hfits
  rcases Prefixed.find_of_inStep maxIpcFrame_lt hframes hlane with hmore | ⟨f, hf, rest, hfound, -⟩
  · exact Or.inl hmore
  · obtain ⟨message, -, hmem, heq⟩ := hwritten f hf
    exact Or.inr ⟨f, rest, hfound, message, hmem, heq⟩

/-- A current stream stays so when its lane stays in step. -/
lemma Current.of_lane {s' : HelperProxy} {stream' : HelperStream} (h : s.Current stream)
    (hid : stream'.id = stream.id) (hcalls : s'.calls = s.calls)
    (hproduced : s.produced ⊆ s'.produced)
    (hlane : ∀ written, (∀ f ∈ written, Prefixed.IsFrame Prod.fst maxIpcFrame f) →
      stream.lane.InStep id written → stream'.lane.InStep id written) : s'.Current stream' := by
  obtain ⟨written, hwritten, hstep⟩ := h
  refine ⟨written, fun f hf => ?_, hlane written (fun f hf => ?_) hstep⟩
  · obtain ⟨message, hfits, hmem, heq⟩ := hwritten f hf
    rw [hid, hcalls]
    exact ⟨message, hfits, hproduced hmem, heq⟩
  · obtain ⟨message, hfits, -, rfl⟩ := hwritten f hf
    exact isFrame_ipcFrame hfits

/-- With a reply more, too. -/
lemma Current.reply (h : s.Current stream) {message : HelperMessage} (hfits : Fits message)
    {s' : HelperProxy} {stream' : HelperStream} (hcalls : s'.calls = s.calls)
    (hid : stream'.id = stream.id)
    (hproduced : s'.produced = s.produced ++ [(stream.id, s.calls, message)])
    (hlane : stream'.lane = stream.lane.send (ipcFrame s.calls message)) :
    s'.Current stream' := by
  obtain ⟨written, hwritten, hstep⟩ := h
  refine ⟨written ++ [ipcFrame s.calls message], fun f hf => ?_, ?_⟩
  · rw [hid, hcalls, hproduced]
    rcases List.mem_append.mp hf with hold | hnew
    · obtain ⟨message', hfits', hmem, heq⟩ := hwritten f hold
      exact ⟨message', hfits', List.mem_append_left _ hmem, heq⟩
    · exact ⟨message, hfits, List.mem_append_right _ (List.mem_singleton_self _),
        List.mem_singleton.mp hnew⟩
  · rw [hlane]
    exact hstep.send _

/-! ### One step -/

lemma inTime_init (helpers : ℕ) : InTime (init helpers) where
  streams := fun _ h => by cases h
  answers := fun _ h => by cases h
  reports := fun _ h => by cases h

/-- One stream changes, and is current if it was. -/
lemma InTime.set (h : s.InTime) {s' : HelperProxy} {i : ℕ} {stream' : HelperStream}
    (hget : s.streams[i]? = some stream) (hstreams : s'.streams = s.streams.set i stream')
    (hcalls : s'.calls = s.calls) (hcollecting : s'.collecting = s.collecting)
    (hreports : s'.reports = s.reports) (hproduced : s.produced ⊆ s'.produced)
    (hcurrent : s.Current stream → s'.Current stream') : s'.InTime where
  streams := by
    intro c hc j other hle hother
    rw [hcollecting] at hc
    rw [hstreams, List.getElem?_set] at hother
    split_ifs at hother with hij hlt
    · obtain rfl := Option.some.inj hother
      exact hcurrent (h.streams c hc i stream (hij ▸ hle) hget)
    · exact (h.streams c hc j other hle hother).of_lane rfl hcalls hproduced fun _ _ hstep => hstep
  answers := by
    intro c hc id read hmem
    rw [hcollecting] at hc
    rw [hcalls]
    exact (h.answers c hc id read hmem).mono hproduced
  reports := by
    intro report hreport id read hmem
    rw [hreports] at hreport
    exact (h.reports report hreport id read hmem).mono hproduced

lemma InTime.call (h : s.InTime) {request : HelperRequest} {gone : ℕ → Bool}
    (hclean : s.Timely (.call request gone)) : (s.call fromSlice request gone).InTime := by
  unfold HelperProxy.call
  split_ifs with hbusy
  · exact h
  · have hidle : s.collecting = none := by simpa using hbusy
    dsimp only
    split_ifs
    · refine ⟨fun c hc => ?_, fun c hc => ?_, fun report hreport id read hmem => ?_⟩
      · rw [hidle] at hc
        cases hc
      · rw [hidle] at hc
        cases hc
      · rcases List.mem_append.mp hreport with hold | hnew
        · exact h.reports report hold id read hmem
        · obtain rfl := List.mem_singleton.mp hnew
          cases hmem
    · refine ⟨fun c hc i other _ hother => ?_, fun c hc id read hmem => ?_, h.reports⟩
      · obtain ⟨stream, hstream, rfl⟩ := List.mem_map.mp (List.mem_of_getElem? hother)
        have hunread := hclean hidle stream (List.mem_of_mem_filter hstream)
        exact ⟨[], fun _ hf => (by cases hf), [], rfl, hunread⟩
      · obtain rfl := Option.some.inj hc
        cases hmem

lemma InTime.reply (h : s.InTime) {i : ℕ} {message : Option HelperMessage}
    (hlate : s.Timely (.reply i message)) : (s.reply i message).InTime := by
  unfold HelperProxy.reply
  split
  · exact h
  · rename_i stream hget
    split
    · exact h
    · exact h.set hget rfl rfl rfl rfl (List.Subset.refl _) fun hcurrent =>
        hcurrent.of_lane rfl rfl (List.Subset.refl _) fun _ _ hstep => hstep
    · rename_i number request rest message hinbox
      have hnumber : number = s.calls :=
        hlate rfl (number, request) (by rw [hget]; exact congrArg List.head? hinbox)
      split_ifs with hfits
      · refine h.set hget rfl rfl rfl rfl (List.subset_append_left _ _) fun hcurrent => ?_
        exact hcurrent.reply hfits.2 rfl rfl (by rw [hnumber]) (by rw [hnumber])
      · exact h.set hget rfl rfl rfl rfl (List.Subset.refl _) fun hcurrent =>
          hcurrent.of_lane rfl rfl (List.Subset.refl _) fun _ _ hstep => hstep

lemma InTime.arrive (h : s.InTime) (i n : ℕ) : (s.arrive i n).InTime := by
  unfold HelperProxy.arrive
  split
  · exact h
  · rename_i stream hget
    exact h.set hget rfl rfl rfl rfl (List.Subset.refl _) fun hcurrent =>
      hcurrent.of_lane rfl rfl (List.Subset.refl _) fun _ _ hstep => hstep.arrive n

/-- The stream a call is at has come to a reply to it, or to nothing. -/
lemma InTime.record (h : s.InTime) {c : Collecting} (hc : s.collecting = some c)
    {stream' : HelperStream} {answer : Option (List Stamped)}
    (hanswer : ∀ read, answer = some read → s.IsReply stream.id s.calls read) :
    (record fromSlice { s with streams := s.streams.set c.cur stream' } c stream
      answer).InTime := by
  have hanswers : ∀ id read, (id, some read) ∈ c.answers ++ [(stream.id, answer)] →
      s.IsReply id s.calls read := by
    intro id read hmem
    rcases List.mem_append.mp hmem with hold | hnew
    · exact h.answers c hc id read hold
    · obtain ⟨rfl, hread⟩ := Prod.mk.inj (List.mem_singleton.mp hnew)
      exact hanswer read hread.symm
  unfold HelperProxy.record
  dsimp only
  split_ifs
  · refine ⟨fun c' hc' i other hle hother => ?_, fun c' hc' => ?_, h.reports⟩
    · obtain rfl := Option.some.inj hc'
      have hne : c.cur ≠ i := Nat.ne_of_lt hle
      rw [List.getElem?_set_ne hne] at hother
      exact h.streams c hc i other ((Nat.le_succ _).trans hle) hother
    · obtain rfl := Option.some.inj hc'
      exact hanswers
  · refine ⟨(fun _ h => by cases h), (fun _ h => by cases h), fun r hr id read hmem => ?_⟩
    rcases List.mem_append.mp hr with hold | hnew
    · exact h.reports r hold id read hmem
    · obtain rfl := List.mem_singleton.mp hnew
      exact hanswers id read hmem

lemma InTime.read (h : s.InTime) : (s.read fromSlice).InTime := by
  unfold HelperProxy.read
  split
  · exact h
  · rename_i c hc
    split
    · exact h
    · rename_i stream hget
      have hcurrent := h.streams c hc c.cur stream le_rfl hget
      dsimp only
      rcases hcurrent.find with hmore | ⟨read, rest, hwhole, hreply⟩
      · rw [hmore]
        exact h.set hget rfl rfl rfl rfl (List.Subset.refl _) fun _ =>
          hcurrent.of_lane rfl rfl (List.Subset.refl _) fun _ hframes hstep =>
            Prefixed.inStep_read maxIpcFrame_lt hframes hstep
      · rw [hwhole]
        exact h.record hc fun _ heq => Option.some.inj heq ▸ hreply

lemma InTime.giveUp (h : s.InTime) : (s.giveUp fromSlice).InTime := by
  unfold HelperProxy.giveUp
  split
  · exact h
  · rename_i c hc
    split
    · exact h
    · exact h.record hc fun _ heq => by cases heq

lemma InTime.step (h : s.InTime) {op : Op} (hop : s.Timely op) : (step fromSlice s op).InTime := by
  cases op with
  | call request gone => exact h.call hop
  | reply i message => exact h.reply hop
  | arrive i n => exact h.arrive i n
  | read => exact h.read
  | giveUp => exact h.giveUp

/-- Reports are made by `report` only. -/
lemma made_step (h : Made fromSlice s) (op : Op) : Made fromSlice (step fromSlice s op) := by
  have hgrown {number : ℕ} {request : HelperRequest} {answers : List (ℕ × Option (List Stamped))} :
      ∀ r ∈ s.reports ++ [report fromSlice number request answers],
        r = report fromSlice r.number r.request r.answers := by
    intro r hr
    rcases List.mem_append.mp hr with hold | hnew
    · exact h r hold
    · rw [List.mem_singleton.mp hnew]
      rfl
  have hrecord (streams : List HelperStream) (c : Collecting) (stream : HelperStream)
      (answer : Option (List Stamped)) :
      Made fromSlice (record fromSlice { s with streams := streams } c stream answer) := by
    unfold record
    dsimp only
    split_ifs
    · exact h
    · exact hgrown
  cases op with
  | call request gone =>
    change Made fromSlice (s.call fromSlice request gone)
    unfold HelperProxy.call
    split_ifs
    · exact h
    · dsimp only
      split_ifs
      · exact hgrown
      · exact h
  | reply i message =>
    change Made fromSlice (s.reply i message)
    unfold HelperProxy.reply
    split
    · exact h
    · split
      · exact h
      · exact h
      · split_ifs
        · exact h
        · exact h
  | arrive i n =>
    change Made fromSlice (s.arrive i n)
    unfold HelperProxy.arrive
    split
    · exact h
    · exact h
  | read =>
    change Made fromSlice (s.read fromSlice)
    unfold HelperProxy.read
    split
    · exact h
    · split
      · exact h
      · dsimp only
        split
        · exact h
        · exact hrecord _ _ _ _
        · exact hrecord _ _ _ _
  | giveUp =>
    change Made fromSlice (s.giveUp fromSlice)
    unfold HelperProxy.giveUp
    split
    · exact h
    · split
      · exact h
      · exact hrecord _ _ _ _

/-! ### Runs -/

variable {helpers : ℕ} {ops : List Op}

lemma inTime_after (h : Trace.Each (fun m op => (after fromSlice helpers m).Timely op) ops) :
    (after fromSlice helpers ops).InTime :=
  Trace.invariant (I := fun _ s => InTime s)
    (P := fun m op => (after fromSlice helpers m).Timely op) (inTime_init helpers)
    (fun _ _ hm hop => hm.step hop) h

lemma made_after : Made fromSlice (after fromSlice helpers ops) :=
  Trace.always (I := fun _ s => Made fromSlice s) (fun _ h => by cases h)
    fun _ op hm => made_step hm op

lemma InTime.readsOwn (h : s.InTime) (op : Op) : s.ReadsOwn op := by
  cases op with
  | read => exact fun c stream hc hget => (h.streams c hc c.cur stream le_rfl hget).find
  | _ => trivial

lemma InTime.fromOwn (h : s.InTime) (hmade : Made fromSlice s)
    (hreads : ∀ produced ∈ s.produced, fromSlice produced.2.2.toJson.bytes = some produced.2.2)
    {r : HelperReport} (hr : r ∈ s.reports) : s.FromOwn r := by
  refine ⟨h.reports r hr, r.answers.map fun answer => (answer.1, answer.2.bind (decode fromSlice)),
    by rw [List.map_map]; rfl, ?_, ?_⟩
  · intro id message hmem
    obtain ⟨⟨_, answer⟩, hanswer, heq⟩ := List.mem_map.mp hmem
    obtain ⟨rfl, hbind⟩ := Prod.mk.inj heq
    obtain ⟨read, rfl, hdecode⟩ := Option.bind_eq_some_iff.mp hbind
    obtain ⟨produced, hproduced, rfl⟩ := h.reports r hr _ read hanswer
    rw [decode_ipcFrame (hreads _ hproduced)] at hdecode
    obtain rfl := Option.some.inj hdecode
    exact hproduced
  · rw [congrArg HelperReport.outcome (hmade r hr), report]
    simp only [List.map_eq_nil_iff, List.map_map]
    rfl

/-- **What a call reports comes from replies to it, in every run in which no call finds something
unread and no helper answers a call after the next one.** -/
theorem fromOwn_of_timely (fromSlice : List UInt8 → Option HelperMessage) (helpers : ℕ)
    (ops : List Op) (hreads : ∀ produced ∈ (after fromSlice helpers ops).produced,
      fromSlice produced.2.2.toJson.bytes = some produced.2.2)
    (h : Trace.Each (fun m op => (after fromSlice helpers m).Timely op) ops) :
    Trace.Each (fun m op => (after fromSlice helpers m).ReadsOwn op) ops ∧
      ∀ r ∈ (after fromSlice helpers ops).reports, (after fromSlice helpers ops).FromOwn r :=
  ⟨fun _ op hm => (inTime_after (h.earlier hm)).readsOwn op,
    fun _ hr => (inTime_after h).fromOwn made_after hreads hr⟩

instance (s : HelperProxy) (op : Op) : Decidable (s.Timely op) :=
  match op with
  | .call _ _ => inferInstanceAs (Decidable (_ → _))
  | .reply _ _ => inferInstanceAs (Decidable (_ → _))
  | .arrive _ _ => isTrue trivial
  | .read => isTrue trivial
  | .giveUp => isTrue trivial

def warped : HelperMessage := .warpDone true "warped"

/-- Two helpers are asked for a warp; one answers in two pieces, the other not at all. -/
def promptReply : List Op :=
  [.call (.warpCursor 1 1) (fun _ => false), .reply 0 (some warped), .arrive 0 9, .read,
    .arrive 0 100, .read, .giveUp, .reply 1 none, .call .takeReceipts fun _ => false]

theorem prompt_reply_reported :
    (Trace.Each (fun m op => (after (knowing [warped]) 2 m).ReadsOwn op) promptReply ∧
      ∀ r ∈ (after (knowing [warped]) 2 promptReply).reports,
        (after (knowing [warped]) 2 promptReply).FromOwn r) ∧
      (after (knowing [warped]) 2 promptReply).reports.map (·.answers) =
        [[(0, some (ipcFrame 1 warped)), (1, none)]] :=
  ⟨fromOwn_of_timely _ 2 promptReply (by decide +kernel) (by decide +kernel), by decide +kernel⟩

/-- A warp is given up, and its reply arrives before the next warp. -/
def lateReply : List Op :=
  [.call (.warpCursor 1 1) (fun _ => false), .giveUp, .reply 0 (some warped), .arrive 0 100,
    .call (.warpCursor 2 2) (fun _ => false), .read]

/-- The next warp is reported from it. -/
theorem late_reply_reported :
    ¬∀ (fromSlice : List UInt8 → Option HelperMessage) (helpers : ℕ) (ops : List Op),
      (∀ produced ∈ (after fromSlice helpers ops).produced,
        fromSlice produced.2.2.toJson.bytes = some produced.2.2) →
      ∀ r ∈ (after fromSlice helpers ops).reports, (after fromSlice helpers ops).FromOwn r := by
  intro h
  have hown := h (knowing [warped]) 1 lateReply (by decide +kernel)
  have hproduced : (after (knowing [warped]) 1 lateReply).produced = [(0, 1, warped)] := by
    decide +kernel
  have hnumber : (after (knowing [warped]) 1 lateReply).reports[1]?.map (·.number) = some 2 := by
    decide +kernel
  have hanswers : (after (knowing [warped]) 1 lateReply).reports[1]?.map (·.answers) =
      some [(0, some (ipcFrame 1 warped))] := by decide +kernel
  obtain ⟨r, hr, hnumber⟩ := Option.map_eq_some_iff.mp hnumber
  rw [hr] at hanswers
  have hread : r.answers = [(0, some (ipcFrame 1 warped))] := Option.some.inj hanswers
  obtain ⟨message, hin, -⟩ := (hown r (List.mem_of_getElem? hr)).1 0 _
    (by rw [hread]; exact List.mem_cons_self)
  rw [hproduced, hnumber] at hin
  exact absurd (Prod.mk.inj (Prod.mk.inj (List.mem_singleton.mp hin)).2).1 (by decide)

end HelperProxy

end TheKvm
