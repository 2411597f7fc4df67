import TheKvm.Lib.Text

/-!
The clipboard's control messages, between the daemon and the logged-in UI, and the check of a
fingerprint in a request.

Payloads are their characters, and lengths are counted in UTF-8.
-/

namespace TheKvm

/-- Text travels as UTF-8, images PNG-encoded and base64-wrapped. -/
inductive ClipboardKind
  | text | imagePng
  deriving DecidableEq

/-- One chunk of a relayed peer paste; revision 0 means there is nothing new. -/
structure ClipboardUpdate where
  revision : ℕ
  kind : ClipboardKind
  totalBytes : ℕ
  totalChunks : ℕ
  index : ℕ
  data : List Char
  width : ℕ
  height : ℕ
  enabled : Option Bool
  deriving DecidableEq

/-- The responses to clipboard requests. -/
inductive ControlResponse
  | applied (restartRequired : Bool)
  | error (message : String)
  | clipboardUpdate (update : ClipboardUpdate)
  deriving DecidableEq

def isFingerprint (value : String) : Bool :=
  value.utf8ByteSize = 64 && value.toList.all Text.isAsciiHexdigit

/-- `CLIPBOARD_CHUNK_BYTES`: chunks stay inside the 64 KiB framing. -/
def clipboardChunkBytes : ℕ := 48 * 1024

lemma isFingerprint_iff {value : String} :
    isFingerprint value = true ↔
      Text.len value = 64 ∧ ∀ c ∈ value.toList, Text.isAsciiHexdigit c = true := by
  simp only [isFingerprint, Bool.and_eq_true, decide_eq_true_eq, List.all_eq_true,
    Text.utf8ByteSize_eq_len]

lemma isFingerprint_toAsciiLowercase {value : String} (h : isFingerprint value = true) :
    isFingerprint (Text.toAsciiLowercase value) = true := by
  obtain ⟨hlen, hdigits⟩ := isFingerprint_iff.mp h
  rw [isFingerprint_iff, Text.toAsciiLowercase, Text.len_eq, String.toList_ofList,
    Text.utf8Len_map_toLower, ← Text.len_eq]
  refine ⟨hlen, fun c hc => ?_⟩
  obtain ⟨d, hd, rfl⟩ := List.mem_map.mp hc
  exact Text.isAsciiHexdigit_toLower (hdigits d hd)

end TheKvm
