import TheKvm.Lib.Prefixed
import TheKvm.Protocol.Frame

/-!
The pipes between the Windows service and its helpers: messages as JSON behind their length.

Every byte on a pipe carries the number of the message it was written for. What a read finds and
decodes does not depend on the numbers; they say where it is from.
-/

namespace TheKvm

structure InputReceipt where
  ok : UInt64
  failed : UInt64
  skipped : UInt64
  lastError : String
  absolute : UInt64
  relative : UInt64
  version : String
  absoluteDetail : String
  deriving DecidableEq

inductive HelperMessage
  | input (event : InputEvent)
  | releaseAll
  | warpCursor (x y : UInt32)
  | setTargetSize (width height : UInt32)
  | setExclusive (enabled : Bool)
  | takePrimaryDims
  | primaryDims (physWidth physHeight logicalWidth logicalHeight dpi : UInt32)
  | warpDone (placed : Bool) (detail : String)
  | takeReceipts
  | inputReceipt (receipt : InputReceipt)
  deriving DecidableEq

def HelperMessage.toJson : HelperMessage → Json
  | .input event => .tagged "Input" event.toJson
  | .releaseAll => .str "ReleaseAll"
  | .warpCursor x y => .tagged "WarpCursor" (.obj [("x", .nat x.toNat), ("y", .nat y.toNat)])
  | .setTargetSize width height =>
    .tagged "SetTargetSize" (.obj [("width", .nat width.toNat), ("height", .nat height.toNat)])
  | .setExclusive enabled => .tagged "SetExclusive" (.bool enabled)
  | .takePrimaryDims => .str "TakePrimaryDims"
  | .primaryDims physWidth physHeight logicalWidth logicalHeight dpi =>
    .tagged "PrimaryDims" (.obj [("phys_width", .nat physWidth.toNat),
      ("phys_height", .nat physHeight.toNat), ("logical_width", .nat logicalWidth.toNat),
      ("logical_height", .nat logicalHeight.toNat), ("dpi", .nat dpi.toNat)])
  | .warpDone placed detail =>
    .tagged "WarpDone" (.obj [("placed", .bool placed), ("detail", .str detail)])
  | .takeReceipts => .str "TakeReceipts"
  | .inputReceipt receipt =>
    .tagged "InputReceipt" (.obj [("ok", .nat receipt.ok.toNat),
      ("failed", .nat receipt.failed.toNat), ("skipped", .nat receipt.skipped.toNat),
      ("last_error", .str receipt.lastError), ("absolute", .nat receipt.absolute.toNat),
      ("relative", .nat receipt.relative.toNat), ("version", .str receipt.version),
      ("absolute_detail", .str receipt.absoluteDetail)])

namespace HelperPipe

open Framing (Lane)

def maxIpcFrame : ℕ := 64 * 1024

/-- A byte, and the number of the message it was written for. -/
abbrev Stamped := UInt8 × ℕ

abbrev PipeLane := Lane Stamped (List Stamped)

/-- The frame of a message, all of it stamped. -/
def ipcFrame (number : ℕ) (message : HelperMessage) : List Stamped :=
  (Prefixed.frame message.toJson.bytes).map (·, number)

/-- `write_ipc_frame` of a message within the limit. -/
def Fits (message : HelperMessage) : Prop := message.toJson.bytes.length ≤ maxIpcFrame

instance (message : HelperMessage) : Decidable (Fits message) := inferInstanceAs (Decidable (_ ≤ _))

/-- What a read finds: `read_ipc_frame` and `read_ipc_frame_optional`. -/
def find (lane : PipeLane) : Prefixed.Found Stamped :=
  Prefixed.find Prod.fst maxIpcFrame (Prefixed.available lane)

/-- `serde_json::from_slice` of a frame that was read. -/
def decode (fromSlice : List UInt8 → Option HelperMessage) (read : List Stamped) :
    Option HelperMessage :=
  fromSlice (Prefixed.payload Prod.fst read)

/-- A reader that knows these messages. -/
def knowing (messages : List HelperMessage) (bytes : List UInt8) : Option HelperMessage :=
  messages.find? fun message => message.toJson.bytes = bytes

lemma maxIpcFrame_lt : maxIpcFrame < 256 ^ 4 := by decide

variable {number : ℕ} {message : HelperMessage} {fromSlice : List UInt8 → Option HelperMessage}

lemma map_ipcFrame : (ipcFrame number message).map Prod.fst =
    Prefixed.frame message.toJson.bytes := by
  rw [ipcFrame, List.map_map]
  exact List.map_id _

lemma isFrame_ipcFrame (h : Fits message) :
    Prefixed.IsFrame Prod.fst maxIpcFrame (ipcFrame number message) :=
  ⟨_, map_ipcFrame, h⟩

lemma decode_ipcFrame (h : fromSlice message.toJson.bytes = some message) :
    decode fromSlice (ipcFrame number message) = some message := by
  rw [decode, Prefixed.payload_of_map map_ipcFrame, h]

lemma fits_input (event : InputEvent) : Fits (.input event) := by
  have hsize := event.size_le
  unfold Fits
  rw [Json.length_bytes, HelperMessage.toJson, Json.size_tagged]
  have htag : Json.escapedLen "Input" = 5 := by decide
  rw [htag, maxIpcFrame]
  omega

lemma fits_setExclusive (enabled : Bool) : Fits (.setExclusive enabled) := by
  cases enabled <;> decide

end HelperPipe

end TheKvm
