import TheKvm.Lib.JsonPretty
import TheKvm.Protocol.Config

/-!
The file of a configuration.

A loaded configuration speaks UDP, and one from before the entry style has both edges open. A file
that was saved names the entry style, so only the transport may change on the way.
-/

namespace TheKvm.Config

/-- `serde_json::to_vec_pretty`. -/
def fileText (config : Config) : List Char := Json.pretty 0 config.toJson

/-- What `load` makes of an old file. -/
def migrated (raw : List Char) (config : Config) : Config :=
  let config := { config with transport := .udp }
  if Json.quoted "double_edge_style" <:+: raw then config
  else { config with edgeMode := .double, doubleEdgeStyle := .mirror }

/-- `load`; `fromStr` is `serde_json::from_str`, and the file is what `read_to_string` gives. -/
def load (fromStr : List Char → Except String Config) (file : Except String (List Char)) :
    Except String Config := do
  let raw ← file
  let config := migrated raw (← fromStr raw)
  config.validate
  return config

/-- `save`; a replacement of the file happens completely or not at all, and `replaced` tells. -/
def save (config : Config) (replaced : Except String Unit) (file : Except String (List Char)) :
    Except String (List Char) × Except String Unit :=
  match config.validate, replaced with
  | .error error, _ => (file, .error error)
  | .ok (), .error error => (file, .error error)
  | .ok (), .ok () => (.ok config.fileText, .ok ())

variable {config : Config} {fromStr : List Char → Except String Config}

/-- Every saved file names the entry style. -/
lemma quoted_isInfix_fileText (config : Config) :
    Json.quoted "double_edge_style" <:+: config.fileText :=
  Json.quoted_isInfix_pretty (v := config.doubleEdgeStyle.toJson) (by simp)

lemma validate_transport (transport : TransportProtocol) :
    { config with transport }.validate = config.validate := rfl

/-- What is saved is loaded, over UDP. -/
lemma load_fileText (hserde : fromStr config.fileText = .ok config)
    (hvalid : config.validate = .ok ()) :
    load fromStr (.ok config.fileText) = .ok { config with transport := .udp } := by
  have hmigrated : migrated config.fileText config = { config with transport := .udp } :=
    if_pos (quoted_isInfix_fileText config)
  simp only [load, hserde, bind, Except.bind, hmigrated, validate_transport, hvalid]
  rfl

/-- A loaded configuration passes its checks and speaks UDP. -/
lemma load_ok {file : Except String (List Char)} (h : load fromStr file = .ok config) :
    config.validate = .ok () ∧ config.transport = .udp := by
  rcases file with error | raw
  · cases h
  rcases hparsed : fromStr raw with error | parsed
  · simp [load, hparsed, bind, Except.bind] at h
  rcases hvalid : (migrated raw parsed).validate with error | ⟨⟨⟩⟩
  · simp [load, hparsed, hvalid, bind, Except.bind] at h
  · simp only [load, hparsed, hvalid, bind, Except.bind] at h
    obtain rfl := Except.ok.inj h
    refine ⟨hvalid, ?_⟩
    rw [migrated]
    split_ifs <;> rfl

end TheKvm.Config
