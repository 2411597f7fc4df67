import Mathlib.Data.List.Sort
import Mathlib.Logic.Function.Basic
import TheKvm.Lib.SearchPath
import TheKvm.Lib.Text

/-!
The weights of the text recognition, and where they are found.

A model is made of files in roles. Each role has a file if the install config names one, or if a
search directory holds one of the options of the role. A recogniser reads with the dictionary of
its own family.
-/

namespace TheKvm.Models

open SearchPath

/-! ### Files -/

/-- What a path starts with is a drive, a root or `.`. -/
inductive Component
  | start (text : String)
  | parentDir
  | normal (name : String)
  deriving DecidableEq

/-- A path is its components: so `Path` compares. -/
structure PathBuf where
  components : List Component
  deriving DecidableEq

namespace PathBuf

def join (p : PathBuf) (name : String) : PathBuf := ⟨p.components ++ [.normal name]⟩

def fileName (p : PathBuf) : Option String :=
  match p.components.getLast? with
  | some (.normal name) => some name
  | _ => none

@[simp] lemma fileName_join (p : PathBuf) (name : String) : (p.join name).fileName = some name := by
  simp [fileName, join]

end PathBuf

/-- The files there are. A path that ends in `..` or in a root is none. -/
structure Disk where
  isFile : PathBuf → Bool
  named : ∀ p, isFile p = true → p.fileName.isSome = true

namespace Disk

def empty : Disk := ⟨fun _ => false, fun _ h => by cases h⟩

/-- There is no file without a name. -/
def create (disk : Disk) (p : PathBuf) : Disk where
  isFile q := disk.isFile q || (decide (q = p) && p.fileName.isSome)
  named q h := by
    rcases (Bool.or_eq_true _ _).mp h with h | h
    · exact disk.named q h
    · obtain ⟨hq, hname⟩ := (Bool.and_eq_true _ _).mp h
      rwa [of_decide_eq_true hq]

def remove (disk : Disk) (p : PathBuf) : Disk where
  isFile q := disk.isFile q && decide (q ≠ p)
  named q h := disk.named q ((Bool.and_eq_true _ _).mp h).1

end Disk

/-! ### Models -/

/-- `recog` is the role `Rec`. -/
inductive Role
  | det | recog | cls | dict
  deriving DecidableEq

def Role.asStr : Role → String
  | det => "det"
  | recog => "rec"
  | cls => "cls"
  | dict => "dict"

structure RoleOption where
  filename : String
  url : String
  sha256 : String
  deriving DecidableEq

structure ModelSpec where
  id : String
  binaries : List String
  roles : List (Role × List RoleOption)
  deriving DecidableEq

/-- `base` is `SNAPTEXT_MODEL_BASE`. -/
def ms (base : Option String) (path : String) : String :=
  match base with
  | some base =>
    if (Text.trim base).isEmpty then
      "https://www.modelscope.cn/models/RapidAI/RapidOCR/resolve/v3.5.0" ++ "/" ++ path
    else base ++ "/" ++ path
  | none => "https://www.modelscope.cn/models/RapidAI/RapidOCR/resolve/v3.5.0" ++ "/" ++ path

def opt (filename url : String) : RoleOption := ⟨filename, url, ""⟩

/-- A model of the PP-OCR line: the options of the fifth version come first. -/
def ppocr (id : String) (det recog cls dict : List RoleOption) : ModelSpec :=
  ⟨id, [], [(.det, det), (.recog, recog), (.cls, cls), (.dict, dict)]⟩

def ppocrv5Mobile (base : Option String) : ModelSpec :=
  ppocr "ppocrv5-mobile"
    [opt "ch_PP-OCRv5_mobile_det.onnx" (ms base "onnx/PP-OCRv5/det/ch_PP-OCRv5_mobile_det.onnx"),
      opt "ch_PP-OCRv4_det_infer.onnx" (ms base "onnx/PP-OCRv4/det/ch_PP-OCRv4_det_infer.onnx")]
    [opt "ch_PP-OCRv5_rec_mobile_infer.onnx"
        (ms base "onnx/PP-OCRv5/rec/ch_PP-OCRv5_rec_mobile_infer.onnx"),
      opt "ch_PP-OCRv4_rec_infer.onnx" (ms base "onnx/PP-OCRv4/rec/ch_PP-OCRv4_rec_infer.onnx")]
    [opt "ch_ppocr_mobile_v2.0_cls_infer.onnx"
        (ms base "onnx/PP-OCRv4/cls/ch_ppocr_mobile_v2.0_cls_infer.onnx")]
    [opt "ppocrv5_dict.txt"
        (ms base "paddle/PP-OCRv5/rec/ch_PP-OCRv5_rec_mobile_infer/ppocrv5_dict.txt"),
      opt "ppocr_keys_v1.txt"
        (ms base "paddle/PP-OCRv4/rec/ch_PP-OCRv4_rec_infer/ppocr_keys_v1.txt")]

def ppocrv6Server (base : Option String) : ModelSpec :=
  ppocr "ppocrv6-server"
    [opt "ch_PP-OCRv5_server_det.onnx" (ms base "onnx/PP-OCRv5/det/ch_PP-OCRv5_server_det.onnx"),
      opt "ch_PP-OCRv4_det_server_infer.onnx"
        (ms base "onnx/PP-OCRv4/det/ch_PP-OCRv4_det_server_infer.onnx")]
    [opt "ch_PP-OCRv5_rec_server_infer.onnx"
        (ms base "onnx/PP-OCRv5/rec/ch_PP-OCRv5_rec_server_infer.onnx"),
      opt "ch_PP-OCRv4_rec_server_infer.onnx"
        (ms base "onnx/PP-OCRv4/rec/ch_PP-OCRv4_rec_server_infer.onnx")]
    [opt "ch_ppocr_mobile_v2.0_cls_infer.onnx"
        (ms base "onnx/PP-OCRv4/cls/ch_ppocr_mobile_v2.0_cls_infer.onnx")]
    [opt "ppocrv5_dict.txt"
        (ms base "paddle/PP-OCRv5/rec/ch_PP-OCRv5_rec_server_infer/ppocrv5_dict.txt"),
      opt "ppocr_keys_v1.txt"
        (ms base "paddle/PP-OCRv4/rec/ch_PP-OCRv4_rec_infer/ppocr_keys_v1.txt")]

def spec (base : Option String) : String → Option ModelSpec
  | "tesseract-fast" => some ⟨"tesseract-fast", ["tesseract"], []⟩
  | "tesseract-best" => some ⟨"tesseract-best", ["tesseract"], []⟩
  | "ppocrv5-mobile" => some (ppocrv5Mobile base)
  | "ppocrv6-server" => some (ppocrv6Server base)
  | "docling-doc" => some ⟨"docling-doc", ["docling"], []⟩
  | "paddleocr-vl-0.9b" => some ⟨"paddleocr-vl-0.9b", [], [(.recog, [opt "model_q8.gguf"
      "https://huggingface.co/PaddlePaddle/PaddleOCR-VL-0.9B/resolve/main/model_q8.gguf"])]⟩
  | "paddleocr-vl-1.7b" => some ⟨"paddleocr-vl-1.7b", [], [(.recog, [opt "model_q4km.gguf"
      "https://huggingface.co/PaddlePaddle/PaddleOCR-VL-1.7B/resolve/main/model_Q4_K_M.gguf"])]⟩
  | _ => none

/-! ### Resolution -/

/-- `models.json`: per model a path for some of its roles. -/
abbrev InstallConfig := String → Option (String → Option PathBuf)

structure Resolved where
  id : String
  present : Bool
  foundPaths : Role → Option PathBuf
  missingRoles : List Role
  binaries : List (String × Option PathBuf)

/-- A file name of the fourth version. -/
def isV4 (name : String) : Bool := Text.contains name "PP-OCRv4" || Text.contains name "v4"

def recIsV4 (found : Role → Option PathBuf) : Option Bool :=
  (found .recog).bind fun p => p.fileName.map isV4

def isKeys (o : RoleOption) : Bool := Text.contains o.filename "keys_v1"

/-- What the dictionaries are sorted by: false comes first. -/
def dictKey (recIsV4 : Option Bool) (o : RoleOption) : Bool :=
  match recIsV4 with
  | some true => !isKeys o
  | some false => isKeys o
  | none => false

def orderedOptions (recIsV4 : Option Bool) (role : Role) (opts : List RoleOption) :
    List RoleOption :=
  if role = .dict then opts.insertionSort fun a b => dictKey recIsV4 a ≤ dictKey recIsV4 b
  else opts

/-- The directory holds the option. -/
def held (disk : Disk) (d : PathBuf) (o : RoleOption) : Bool := disk.isFile (d.join o.filename)

/-- The directories in their order, and in each the options in theirs. -/
def scan (disk : Disk) (dirs : List PathBuf) (opts : List RoleOption) : Option PathBuf :=
  (search (held disk) dirs opts).map fun hit => hit.1.join hit.2.filename

def takeNamed (disk : Disk) (entry : String → Option PathBuf) (found : Role → Option PathBuf)
    (role : Role) : Role → Option PathBuf :=
  match entry role.asStr with
  | some p => if disk.isFile p then Function.update found role (some p) else found
  | none => found

def configPaths (disk : Disk) (entry : Option (String → Option PathBuf)) (roles : List Role) :
    Role → Option PathBuf :=
  match entry with
  | none => fun _ => none
  | some entry => roles.foldl (takeNamed disk entry) fun _ => none

def resolveRole (disk : Disk) (dirs : List PathBuf) (found : Role → Option PathBuf)
    (r : Role × List RoleOption) : Role → Option PathBuf :=
  if (found r.1).isSome then found
  else
    match scan disk dirs (orderedOptions (recIsV4 found) r.1 r.2) with
    | some p => Function.update found r.1 (some p)
    | none => found

/-- The recogniser comes first. -/
def orderedRoles (roles : List (Role × List RoleOption)) : List (Role × List RoleOption) :=
  let key (r : Role × List RoleOption) : ℕ := if r.1 = .recog then 0 else 1
  roles.insertionSort fun a b => key a ≤ key b

def resolvedPaths (disk : Disk) (dirs : List PathBuf) (entry : Option (String → Option PathBuf))
    (s : ModelSpec) : Role → Option PathBuf :=
  (orderedRoles s.roles).foldl (resolveRole disk dirs)
    (configPaths disk entry (s.roles.map Prod.fst))

/-- `onPath` is `probe_binary`. -/
def resolveIn (disk : Disk) (onPath : String → Option PathBuf) (config : InstallConfig)
    (dirs : List PathBuf) (s : ModelSpec) (useConfig : Bool) : Resolved :=
  let found := resolvedPaths disk dirs (if useConfig then config s.id else none) s
  let missing := (s.roles.map Prod.fst).filter fun role => (found role).isNone
  let binaries := s.binaries.map fun b => (b, onPath b)
  { id := s.id
    present := missing.isEmpty && binaries.all fun b => b.2.isSome
    foundPaths := found
    missingRoles := missing
    binaries }

end TheKvm.Models
