import TheKvm.Snaptext.Resolve

/-!
The download of a model, and what is resolved behind it.

Each role without a file gets its first option, in the first search directory. A download goes
through a partial file, which is renamed; then the config is written again.
-/

namespace TheKvm.Models

open SearchPath

/-! ### Downloads -/

/-- `file_stem`: the name up to its last dot, if that is not the first character. -/
def fileStem (name : String) : String :=
  match name.toList.reverse.dropWhile (· ≠ '.') with
  | _ :: c :: stem => String.ofList (c :: stem).reverse
  | _ => name

def PathBuf.withExtension (p : PathBuf) (ext : String) : PathBuf :=
  match p.components.getLast? with
  | some (.normal name) => ⟨p.components.dropLast ++ [.normal (fileStem name ++ "." ++ ext)]⟩
  | _ => p

inductive ModelError
  | unknown (id : String)
  | download (url error : String)
  | checksum (dest : PathBuf)
  | io (error : String)

/-- What the network and the file system answer. -/
structure Answers where
  createDir : Except String Unit
  get : String → Except String Unit
  create : PathBuf → Except String Unit
  copy : PathBuf → Except String Unit
  read : PathBuf → Except String (List UInt8)
  sha256 : List UInt8 → String
  rename : PathBuf → Except String Unit

/-- The checksum of a download, if it is to have one; a file that has another is removed. -/
def Answers.check (a : Answers) (disk : Disk) (part dest : PathBuf) (sha256 : String) :
    Disk × Except ModelError Unit :=
  if (Text.trim sha256).isEmpty then (disk, .ok ())
  else
    match a.read part with
    | .error e => (disk, .error (.io e))
    | .ok bytes =>
      if Text.toAsciiLowercase (a.sha256 bytes) ≠ Text.toAsciiLowercase sha256 then
        (disk.remove part, .error (.checksum dest))
      else (disk, .ok ())

def downloadFile (a : Answers) (disk : Disk) (url : String) (dest : PathBuf) (sha256 : String) :
    Disk × Except ModelError Unit :=
  let part := dest.withExtension "part"
  match a.get url with
  | .error e => (disk, .error (.download url e))
  | .ok () =>
    match a.create part with
    | .error e => (disk, .error (.io e))
    | .ok () =>
      match a.copy part with
      | .error e => (disk.create part, .error (.io e))
      | .ok () =>
        match a.check (disk.create part) part dest sha256 with
        | (disk, .error e) => (disk, .error e)
        | (disk, .ok ()) =>
          match a.rename part with
          | .error e => (disk, .error (.io e))
          | .ok () => ((disk.remove part).create dest, .ok ())

/-- The download of the roles that have no file. -/
def ensureRoles (a : Answers) (id : String) (dir : PathBuf) (found : Role → Option PathBuf)
    (disk : Disk) : List (Role × List RoleOption) → Disk × Except ModelError Unit
  | [] => (disk, .ok ())
  | (role, opts) :: rest =>
    if (found role).isSome then ensureRoles a id dir found disk rest
    else
      match opts with
      | [] => (disk, .error (.unknown id))
      | primary :: _ =>
        let dest := dir.join primary.filename
        if disk.isFile dest then ensureRoles a id dir found disk rest
        else
          match downloadFile a disk primary.url dest primary.sha256 with
          | (disk, .error e) => (disk, .error e)
          | (disk, .ok ()) => ensureRoles a id dir found disk rest

/-! ### The machine -/

/-- Where a machine keeps models. -/
structure Places where
  cacheRoot : PathBuf
  exeDir : Option PathBuf
  deviceRoots : List PathBuf

/-- The directory that is written to comes first. -/
def Places.searchDirs (places : Places) (id : String) : List PathBuf :=
  places.cacheRoot.join id ::
    ((places.exeDir.map fun d => (d.join "models").join id).toList ++
      [(⟨[.normal "models"]⟩ : PathBuf).join id] ++ places.deviceRoots)

structure ModelStore where
  disk : Disk
  config : InstallConfig

def allIds : List String :=
  ["tesseract-fast", "tesseract-best", "ppocrv5-mobile", "ppocrv6-server", "docling-doc",
    "paddleocr-vl-0.9b", "paddleocr-vl-1.7b"]

/-- What comes of the write of `models.json`; what is cut short is read as no config. -/
inductive Saved
  | written | kept | cut
  deriving DecidableEq

section

variable (base : Option String) (places : Places) (onPath : String → Option PathBuf)

def resolve (m : ModelStore) (s : ModelSpec) : Resolved :=
  resolveIn m.disk onPath m.config (places.searchDirs s.id) s true

/-- The paths of the models that are present, by the names of the roles. -/
def probed (m : ModelStore) : InstallConfig := fun id =>
  if id ∈ allIds then
    (spec base id).bind fun s =>
      let r := resolve places onPath m s
      if r.present then
        some fun name =>
          ([Role.det, .recog, .cls, .dict].find? fun role => role.asStr = name).bind r.foundPaths
      else none
  else none

def probeAndSaveConfig (saved : Saved) (m : ModelStore) : ModelStore :=
  match saved with
  | .written => { m with config := probed base places onPath m }
  | .kept => m
  | .cut => { m with config := fun _ => none }

def ensure (a : Answers) (saved : Saved) (m : ModelStore) (id : String) :
    ModelStore × Except ModelError PathBuf :=
  match spec base id with
  | none => (m, .error (.unknown id))
  | some s =>
    let dir := places.cacheRoot.join id
    match a.createDir with
    | .error e => (m, .error (.io e))
    | .ok () =>
      match ensureRoles a id dir (resolve places onPath m s).foundPaths m.disk s.roles with
      | (disk, .error e) => ({ m with disk }, .error e)
      | (disk, .ok ()) => (probeAndSaveConfig base places onPath saved { m with disk }, .ok dir)

end

/-! ### What a download leaves -/

/-- The name of a partial file. -/
def isPartial (name : String) : Bool := Text.endsWith name ".part"

def PathBuf.isPartial (p : PathBuf) : Bool := p.fileName.any Models.isPartial

lemma PathBuf.withExtension_join (p : PathBuf) (name ext : String) :
    (p.join name).withExtension ext = p.join (fileStem name ++ "." ++ ext) := by
  simp [withExtension, join]

lemma isPartial_part (p : PathBuf) (name : String) :
    ((p.join name).withExtension "part").isPartial = true := by
  rw [PathBuf.withExtension_join, PathBuf.isPartial, PathBuf.fileName_join, Option.any_some,
    isPartial, Text.endsWith, List.isSuffixOf_iff_suffix, String.append_assoc,
    String.toList_append]
  exact List.suffix_append _ _

/-- Every file is still there that is no partial one. -/
def Grown (disk disk' : Disk) : Prop :=
  ∀ p, disk.isFile p = true → p.isPartial = false → disk'.isFile p = true

variable {a : Answers} {disk disk' disk'' : Disk} {dir : PathBuf} {id url name sha256 : String}

lemma Grown.refl (disk : Disk) : Grown disk disk := fun _ h _ => h

lemma Grown.trans (h : Grown disk disk') (h' : Grown disk' disk'') : Grown disk disk'' :=
  fun p hp hpartial => h' p (h p hp hpartial) hpartial

lemma check_ok {part dest : PathBuf} (h : a.check disk part dest sha256 = (disk', .ok ())) :
    disk' = disk := by
  unfold Answers.check at h
  split_ifs at h
  · exact (Prod.mk.inj h).1.symm
  · split at h
    · cases (Prod.mk.inj h).2
    · split_ifs at h
      · cases (Prod.mk.inj h).2
      · exact (Prod.mk.inj h).1.symm

/-- A download renames its partial file. -/
lemma downloadFile_ok {dest : PathBuf} (h : downloadFile a disk url dest sha256 = (disk', .ok ())) :
    disk' = ((disk.create (dest.withExtension "part")).remove
      (dest.withExtension "part")).create dest := by
  unfold downloadFile at h
  dsimp only at h
  split at h
  · cases (Prod.mk.inj h).2
  split at h
  · cases (Prod.mk.inj h).2
  split at h
  · cases (Prod.mk.inj h).2
  split at h
  · cases (Prod.mk.inj h).2
  next hcheck =>
    split at h
    · cases (Prod.mk.inj h).2
    · rw [← (Prod.mk.inj h).1, check_ok hcheck]

lemma grown_download (h : downloadFile a disk url (dir.join name) sha256 = (disk', .ok ())) :
    Grown disk disk' ∧ disk'.isFile (dir.join name) = true := by
  rw [downloadFile_ok h]
  constructor
  · intro p hp hpartial
    have hne : p ≠ (dir.join name).withExtension "part" := by
      rintro rfl
      rw [isPartial_part] at hpartial
      cases hpartial
    simp [Disk.create, Disk.remove, hp, hne]
  · simp [Disk.create]

/-- Behind the downloads every role had a file, or it has its first option. -/
lemma ensureRoles_ok {found : Role → Option PathBuf} {roles : List (Role × List RoleOption)}
    (hnames : ∀ r ∈ roles, ∀ o ∈ r.2, isPartial o.filename = false)
    (h : ensureRoles a id dir found disk roles = (disk', .ok ())) :
    Grown disk disk' ∧ ∀ r ∈ roles, (found r.1).isSome = true ∨
      ∃ primary ∈ r.2.head?, disk'.isFile (dir.join primary.filename) = true := by
  induction roles generalizing disk with
  | nil =>
    obtain rfl := (Prod.mk.inj h).1
    exact ⟨Grown.refl _, by simp⟩
  | cons r roles ih =>
    obtain ⟨role, opts⟩ := r
    have hrest := fun r hr => hnames r (List.mem_cons_of_mem _ hr)
    unfold ensureRoles at h
    split_ifs at h with hfound
    · obtain ⟨hgrown, hroles⟩ := ih hrest h
      exact ⟨hgrown, List.forall_mem_cons.mpr ⟨Or.inl hfound, hroles⟩⟩
    · cases opts with
      | nil => cases (Prod.mk.inj h).2
      | cons primary opts =>
        have hpartial : (dir.join primary.filename).isPartial = false := by
          rw [PathBuf.isPartial, PathBuf.fileName_join]
          exact hnames _ List.mem_cons_self primary List.mem_cons_self
        dsimp only at h
        split_ifs at h with hfile
        · obtain ⟨hgrown, hroles⟩ := ih hrest h
          exact ⟨hgrown, List.forall_mem_cons.mpr
            ⟨Or.inr ⟨primary, rfl, hgrown _ hfile hpartial⟩, hroles⟩⟩
        · split at h
          · cases (Prod.mk.inj h).2
          next hdownload =>
            obtain ⟨hfirst, hdest⟩ := grown_download hdownload
            obtain ⟨hgrown, hroles⟩ := ih hrest h
            exact ⟨hfirst.trans hgrown, List.forall_mem_cons.mpr
              ⟨Or.inr ⟨primary, rfl, hgrown _ hdest hpartial⟩, hroles⟩⟩

/-! ### Downloads that succeed -/

/-- Nothing fails on the way of a download. -/
structure Answers.Fine (a : Answers) : Prop where
  createDir : a.createDir = .ok ()
  get : ∀ url, a.get url = .ok ()
  create : ∀ p, a.create p = .ok ()
  copy : ∀ p, a.copy p = .ok ()
  rename : ∀ p, a.rename p = .ok ()

lemma Answers.Fine.downloadFile (ha : a.Fine) (disk : Disk) (url : String) (dest : PathBuf) :
    (downloadFile a disk url dest "").2 = .ok () := by
  have hcheck (disk : Disk) (part : PathBuf) : a.check disk part dest "" = (disk, .ok ()) :=
    if_pos rfl
  simp [Models.downloadFile, ha.get, ha.create, ha.copy, ha.rename, hcheck]

lemma Answers.Fine.ensureRoles (ha : a.Fine) {found : Role → Option PathBuf}
    {roles : List (Role × List RoleOption)}
    (hroles : ∀ r ∈ roles, r.2 ≠ [] ∧ ∀ o ∈ r.2, o.sha256 = "") (disk : Disk) :
    (ensureRoles a id dir found disk roles).2 = .ok () := by
  induction roles generalizing disk with
  | nil => rfl
  | cons r roles ih =>
    obtain ⟨role, opts⟩ := r
    obtain ⟨⟨hne, hsha⟩, hrest⟩ := List.forall_mem_cons.mp hroles
    unfold Models.ensureRoles
    split_ifs
    · exact ih hrest disk
    · cases opts with
      | nil => exact absurd rfl hne
      | cons primary opts =>
        dsimp only
        split_ifs
        · exact ih hrest disk
        · have hdownload := ha.downloadFile disk primary.url (dir.join primary.filename)
          rw [← hsha primary List.mem_cons_self] at hdownload
          split
          next herror =>
            rw [herror] at hdownload
            cases hdownload
          next disk' _ => exact ih hrest disk'

/-- What every model of the table meets. -/
structure ModelSpec.Sound (s : ModelSpec) (id : String) : Prop where
  id_eq : s.id = id
  listed : id ∈ allIds
  options : ∀ r ∈ s.roles, r.2 ≠ [] ∧ ∀ o ∈ r.2, o.sha256 = "" ∧ isPartial o.filename = false

/-- No option of a model is a partial file. -/
lemma ModelSpec.Sound.whole {s : ModelSpec} (h : s.Sound id) :
    ∀ r ∈ s.roles, ∀ o ∈ r.2, isPartial o.filename = false :=
  fun r hr o ho => ((h.options r hr).2 o ho).2

theorem spec_sound {base : Option String} {s : ModelSpec} (hs : spec base id = some s) :
    s.Sound id := by
  have hnames : ∀ name ∈ ["ch_PP-OCRv5_mobile_det.onnx", "ch_PP-OCRv4_det_infer.onnx",
      "ch_PP-OCRv5_rec_mobile_infer.onnx", "ch_PP-OCRv4_rec_infer.onnx",
      "ch_ppocr_mobile_v2.0_cls_infer.onnx", "ppocrv5_dict.txt", "ppocr_keys_v1.txt",
      "ch_PP-OCRv5_server_det.onnx", "ch_PP-OCRv4_det_server_infer.onnx",
      "ch_PP-OCRv5_rec_server_infer.onnx", "ch_PP-OCRv4_rec_server_infer.onnx",
      "model_q8.gguf", "model_q4km.gguf"], isPartial name = false := by decide +kernel
  simp only [List.forall_mem_cons] at hnames
  unfold spec at hs
  split at hs
  case h_8 => cases hs
  all_goals
    obtain rfl := Option.some.inj hs
    refine ⟨rfl, by simp [allIds], ?_⟩
    simp [ppocrv5Mobile, ppocrv6Server, ppocr, opt, hnames]

/-! ### What is resolved behind a download -/

/-- The config names no partial file for the model. -/
def NamesNoPartial (entry : Option (String → Option PathBuf)) : Prop :=
  ∀ f, entry = some f → ∀ name p, f name = some p → p.isPartial = false

variable {base : Option String} {places : Places} {onPath : String → Option PathBuf}
variable {dirs : List PathBuf} {entry : Option (String → Option PathBuf)}
variable {m m' : ModelStore} {s : ModelSpec} {saved : Saved}

lemma ensure_ok (hs : spec base id = some s) {out : PathBuf}
    (h : ensure base places onPath a saved m id = (m', .ok out)) : ∃ disk',
      ensureRoles a id (places.cacheRoot.join id) (resolve places onPath m s).foundPaths m.disk
          s.roles = (disk', .ok ()) ∧
        m' = probeAndSaveConfig base places onPath saved { m with disk := disk' } := by
  unfold ensure at h
  rw [hs] at h
  dsimp only at h
  split at h
  · cases (Prod.mk.inj h).2
  split at h
  · cases (Prod.mk.inj h).2
  next disk' hroles => exact ⟨disk', hroles, (Prod.mk.inj h).1.symm⟩

lemma ensure_fine (ha : a.Fine) (hs : spec base id = some s) :
    (ensure base places onPath a saved m id).2 = .ok (places.cacheRoot.join id) := by
  have hroles : (ensureRoles a id (places.cacheRoot.join id)
      (resolve places onPath m s).foundPaths m.disk s.roles).2 = .ok () := by
    refine ha.ensureRoles (fun r hr => ?_) m.disk
    obtain ⟨hne, hopts⟩ := (spec_sound hs).options r hr
    exact ⟨hne, fun o ho => (hopts o ho).1⟩
  unfold ensure
  rw [hs, ha.createDir]
  dsimp only
  split
  next herror =>
    rw [herror] at hroles
    cases hroles
  · rfl

lemma named_grown {role : Role} {p : PathBuf} (hgrown : Grown disk disk')
    (hentry : NamesNoPartial entry) (h : named disk entry role = some p) :
    named disk' entry role = some p := by
  obtain ⟨hname, hfile⟩ := Option.filter_eq_some_iff.mp h
  obtain ⟨f, hf, hp⟩ := Option.bind_eq_some_iff.mp hname
  exact Option.filter_eq_some_iff.mpr ⟨hname, hgrown p hfile (hentry f hf _ p hp)⟩

/-- A role that has a file keeps one. -/
lemma HasFile.grown {r : Role × List RoleOption} (hgrown : Grown disk disk')
    (hentry : NamesNoPartial entry) (hnames : ∀ o ∈ r.2, isPartial o.filename = false)
    (h : HasFile disk dirs entry r) : HasFile disk' dirs entry r := by
  rcases h with h | ⟨d, hd, o, ho, hheld⟩
  · obtain ⟨p, hp⟩ := Option.isSome_iff_exists.mp h
    exact Or.inl (by rw [named_grown hgrown hentry hp]; rfl)
  · refine Or.inr ⟨d, hd, o, ho, hgrown _ hheld ?_⟩
    rw [PathBuf.isPartial, PathBuf.fileName_join]
    exact hnames o ho

/-- What was resolved is written to the config and resolved again. -/
lemma resolved_saved (hs : spec base id = some s) (hnodup : (s.roles.map Prod.fst).Nodup)
    (hsaved : saved ≠ .cut) (hpresent : (resolve places onPath m s).present = true)
    {r : Role × List RoleOption} (hr : r ∈ s.roles) :
    (resolve places onPath (probeAndSaveConfig base places onPath saved m) s).foundPaths r.1 =
      (resolve places onPath m s).foundPaths r.1 := by
  cases saved with
  | kept => rfl
  | cut => exact absurd rfl hsaved
  | written =>
    have hfile := ((present_iff hnodup onPath m.config true).mp hpresent).1 r hr
    obtain ⟨p, hp⟩ := Option.isSome_iff_exists.mp ((isSome_resolvedPaths hnodup hr).mpr hfile)
    have hfound : (resolve places onPath m s).foundPaths r.1 = some p := hp
    rw [hfound]
    refine resolvedPaths_of_named hr (Option.filter_eq_some_iff.mpr ⟨?_, isFile_of_resolved hr hp⟩)
    have hconfig : probed base places onPath m s.id = some fun name =>
        ([Role.det, .recog, .cls, .dict].find? fun role => role.asStr = name).bind
          (resolve places onPath m s).foundPaths := by
      unfold probed
      rw [(spec_sound hs).id_eq, if_pos (spec_sound hs).listed, hs, Option.bind_some]
      exact if_pos hpresent
    have hrole : ([Role.det, .recog, .cls, .dict].find? fun role => role.asStr = r.1.asStr) =
        some r.1 := by
      cases r.1 <;> decide
    change (probed base places onPath m s.id).bind _ = some p
    rw [hconfig, Option.bind_some]
    dsimp only
    rw [hrole, Option.bind_some, hfound]

/-- Before the download no recogniser and no dictionary is named by the config or in a
directory. -/
structure Bare (disk : Disk) (dirs : List PathBuf) (entry : Option (String → Option PathBuf))
    (s : ModelSpec) : Prop where
  unnamed : ∀ f, entry = some f → f Role.recog.asStr = none ∧ f Role.dict.asStr = none
  recog : ∀ d ∈ dirs, ∀ o ∈ s.options .recog, disk.isFile (d.join o.filename) = false
  dict : ∀ d ∈ dirs, ∀ o ∈ s.options .dict, disk.isFile (d.join o.filename) = false

/-- Nor does the config name a file for the two behind the download. -/
lemma Bare.unnamed_file (h : Bare disk dirs entry s) (disk' : Disk) :
    named disk' entry .recog = none ∧ named disk' entry .dict = none := by
  unfold named
  cases hentry : entry with
  | none => exact ⟨rfl, rfl⟩
  | some f =>
    obtain ⟨hrecog, hdict⟩ := h.unnamed f hentry
    simp [hrecog, hdict]

namespace Tiers

variable (t : Tiers s)

include t in
/-- Every role has a file behind the download. -/
lemma hasFile_ensured (hs : spec base id = some s) (hentry : NamesNoPartial (m.config s.id))
    (h : ensureRoles a id (places.cacheRoot.join id) (resolve places onPath m s).foundPaths m.disk
      s.roles = (disk', .ok ())) (r : Role × List RoleOption) (hr : r ∈ s.roles) :
    HasFile disk' (places.searchDirs s.id) (m.config s.id) r := by
  have hsound := spec_sound hs
  obtain ⟨hgrown, hroles⟩ := ensureRoles_ok hsound.whole h
  rcases hroles r hr with hfound | ⟨primary, hprimary, hfile⟩
  · exact ((isSome_resolvedPaths t.nodup hr).mp hfound).grown hgrown hentry (hsound.whole r hr)
  · refine Or.inr ⟨places.cacheRoot.join id, ?_, primary, List.mem_of_head? hprimary, hfile⟩
    rw [hsound.id_eq]
    exact List.mem_cons_self

/-- A download from nothing puts a pair in the first directory. -/
lemma paired_ensured (hs : spec base id = some s)
    (hbare : Bare m.disk (places.searchDirs s.id) (m.config s.id) s)
    (h : ensureRoles a id (places.cacheRoot.join id) (resolve places onPath m s).foundPaths m.disk
      s.roles = (disk', .ok ())) :
    Paired disk' (places.searchDirs s.id) (m.config s.id) t.recogs t.dicts := by
  have hsound := spec_sound hs
  have hroles := (ensureRoles_ok hsound.whole h).2
  have hmissing := hbare.unnamed_file m.disk
  have hrecog := (hroles _ t.mem_recogs).resolve_left (not_found t.nodup t.mem_recogs hmissing.1
    fun d hd o ho => hbare.recog d hd o (t.options_recog ▸ ho))
  have hdict := (hroles _ t.mem_dicts).resolve_left (not_found t.nodup t.mem_dicts hmissing.2
    fun d hd o ho => hbare.dict d hd o (t.options_dict ▸ ho))
  obtain ⟨primary, hprimary, hrecog⟩ := hrecog
  obtain rfl : t.recog5 = primary := Option.some.inj hprimary
  obtain ⟨primary, hprimary, hdict⟩ := hdict
  obtain rfl : t.dict5 = primary := Option.some.inj hprimary
  have hunnamed := hbare.unnamed_file disk'
  rw [hsound.id_eq] at hunnamed ⊢
  exact t.paired_of_first hunnamed hrecog hdict

end Tiers

/-- The download comes to its end, and behind it the model is present. The recogniser and the
dictionary belong together if the dictionary of its family comes first, as it does behind a
download from nothing. -/
structure Ensured (base : Option String) (places : Places) (onPath : String → Option PathBuf)
    (a : Answers) (saved : Saved) (m : ModelStore) (id : String) (s : ModelSpec) : Prop where
  ok : (ensure base places onPath a saved m id).2 = .ok (places.cacheRoot.join id)
  present : (resolve places onPath (ensure base places onPath a saved m id).1 s).present = true
  family : Paired (ensure base places onPath a saved m id).1.disk (places.searchDirs id)
    (m.config id) (s.options .recog) (s.options .dict) →
      (resolve places onPath (ensure base places onPath a saved m id).1 s).OneFamily
  bare : Bare m.disk (places.searchDirs id) (m.config id) s →
    (resolve places onPath (ensure base places onPath a saved m id).1 s).OneFamily

lemma disk_saved : (probeAndSaveConfig base places onPath saved m).disk = m.disk := by
  cases saved <;> rfl

namespace Tiers

variable (t : Tiers s)

include t

/-- A model stays present, and its files the same, when the config is written. -/
lemma present_saved (hs : spec base id = some s) (hsaved : saved ≠ .cut)
    (hpresent : (resolve places onPath m s).present = true) :
    (resolve places onPath (probeAndSaveConfig base places onPath saved m) s).present = true := by
  have hfiles := ((present_iff t.nodup onPath m.config true).mp hpresent).1
  refine (present_iff t.nodup onPath _ true).mpr ⟨fun r hr => ?_, by simp [t.binaries]⟩
  rw [← isSome_resolvedPaths t.nodup hr]
  have hsame := resolved_saved hs t.nodup hsaved hpresent hr
  change ((resolve places onPath (probeAndSaveConfig base places onPath saved m) s).foundPaths
    r.1).isSome = true
  rw [hsame]
  exact (isSome_resolvedPaths t.nodup hr).mpr (hfiles r hr)

lemma oneFamily_saved (hs : spec base id = some s) (hsaved : saved ≠ .cut)
    (hpresent : (resolve places onPath m s).present = true)
    (h : (resolve places onPath m s).OneFamily) :
    (resolve places onPath (probeAndSaveConfig base places onPath saved m) s).OneFamily := by
  obtain ⟨p, q, hp, hq, hbelong⟩ := h
  refine ⟨p, q, ?_, ?_, hbelong⟩
  · exact (resolved_saved hs t.nodup hsaved hpresent t.mem_recogs).trans hp
  · exact (resolved_saved hs t.nodup hsaved hpresent t.mem_dicts).trans hq

theorem ensured (hs : spec base id = some s) (ha : a.Fine) (hsaved : saved ≠ .cut)
    (hentry : NamesNoPartial (m.config id)) : Ensured base places onPath a saved m id s := by
  obtain rfl := (spec_sound hs).id_eq
  have hok : (ensure base places onPath a saved m s.id).2 = .ok (places.cacheRoot.join s.id) :=
    ensure_fine ha hs
  obtain ⟨disk', hroles, hstore⟩ : ∃ disk',
      ensureRoles a s.id (places.cacheRoot.join s.id) (resolve places onPath m s).foundPaths m.disk
          s.roles = (disk', .ok ()) ∧
        (ensure base places onPath a saved m s.id).1 =
          probeAndSaveConfig base places onPath saved { m with disk := disk' } :=
    ensure_ok hs (Prod.ext rfl hok)
  have hpresent : (resolve places onPath { m with disk := disk' } s).present = true :=
    (present_iff t.nodup onPath m.config true).mpr
      ⟨t.hasFile_ensured hs hentry hroles, by simp [t.binaries]⟩
  have hdisk : (ensure base places onPath a saved m s.id).1.disk = disk' := by
    rw [hstore, disk_saved]
  -- the config that is written names the files that are found without it
  have hfamily : Paired disk' (places.searchDirs s.id) (m.config s.id) (s.options .recog)
      (s.options .dict) →
        (resolve places onPath (ensure base places onPath a saved m s.id).1 s).OneFamily := by
    intro hpaired
    rw [hstore]
    exact t.oneFamily_saved hs hsaved hpresent ((t.oneFamily_iff hpresent).mpr hpaired)
  refine ⟨hok, ?_, ?_, fun hbare => hfamily ?_⟩
  · rw [hstore]
    exact t.present_saved hs hsaved hpresent
  · rw [hdisk]
    exact hfamily
  · rw [t.options_recog, t.options_dict]
    exact t.paired_ensured hs hbare hroles

end Tiers

/-- What a resolution promises: the model is present exactly if every role has a file, so it is if
the directories hold a pair and the other roles have their files; and what is present belongs
together if the dictionary of the recogniser's family comes first. -/
structure ResolvedWell (disk : Disk) (onPath : String → Option PathBuf) (config : InstallConfig)
    (dirs : List PathBuf) (s : ModelSpec) (useConfig : Bool) : Prop where
  present : (resolveIn disk onPath config dirs s useConfig).present = true ↔
    ∀ r ∈ s.roles, HasFile disk dirs (if useConfig then config s.id else none) r
  pair : PairIn disk dirs s → (∀ r ∈ s.roles, r.1 = .det ∨ r.1 = .cls →
      HasFile disk dirs (if useConfig then config s.id else none) r) →
    (resolveIn disk onPath config dirs s useConfig).present = true
  family : (resolveIn disk onPath config dirs s useConfig).present = true →
    Paired disk dirs (if useConfig then config s.id else none) (s.options .recog)
      (s.options .dict) →
    (resolveIn disk onPath config dirs s useConfig).OneFamily

/-- **Weights**. A model with a recogniser and a dictionary is resolved as promised from every set
of files, directories and config, and so it is behind every download that succeeds. -/
theorem weights_resolved {base : Option String} {id : String} {s : ModelSpec}
    (hs : spec base id = some s) (hdict : s.hasRole .dict) :
    (∀ disk onPath config dirs useConfig,
      ResolvedWell disk onPath config dirs s useConfig) ∧
    ∀ places onPath a saved m, a.Fine → saved ≠ .cut → NamesNoPartial (m.config id) →
      Ensured base places onPath a saved m id s := by
  obtain ⟨t⟩ := tiers_of_spec hs hdict
  refine ⟨fun disk onPath config dirs useConfig => ⟨?_, t.present_of_pairIn, ?_⟩, ?_⟩
  · rw [present_iff t.nodup, t.binaries]
    simp
  · exact fun hpresent hpaired => (t.oneFamily_iff hpresent).mpr hpaired
  · exact fun places onPath a saved m ha hsaved hentry => t.ensured hs ha hsaved hentry

/-! ### Some machines -/

/-- The files of one directory. -/
def Disk.ofDir (dir : PathBuf) (names : List String) : Disk :=
  names.foldl (fun disk name => disk.create (dir.join name)) .empty

def modelDir : PathBuf := ⟨[.start "/", .normal "models"]⟩

/-- Every download succeeds. -/
def allFine : Answers :=
  ⟨.ok (), fun _ => .ok (), fun _ => .ok (), fun _ => .ok (), fun _ => .ok [], fun _ => "",
    fun _ => .ok ()⟩

theorem weights_test :
    let names := ["ch_PP-OCRv4_det_infer.onnx", "ch_PP-OCRv4_rec_infer.onnx",
      "ch_ppocr_mobile_v2.0_cls_infer.onnx", "ppocr_keys_v1.txt"]
    ResolvedWell (.ofDir modelDir names) (fun _ => none) (fun _ => none) [modelDir]
        (ppocrv5Mobile none) false ∧
      Ensured none ⟨modelDir, none, []⟩ (fun _ => none) allFine .written
        ⟨.empty, fun _ => none⟩ "ppocrv5-mobile" (ppocrv5Mobile none) := by
  intro names
  have hs : spec none "ppocrv5-mobile" = some (ppocrv5Mobile none) := rfl
  have hdict : (ppocrv5Mobile none).hasRole .dict := List.mem_of_getLast? rfl
  exact ⟨(weights_resolved hs hdict).1 _ _ _ _ _,
    (weights_resolved hs hdict).2 _ _ _ _ _
      ⟨rfl, fun _ => rfl, fun _ => rfl, fun _ => rfl, fun _ => rfl⟩ (by decide)
      (fun _ h => by cases h)⟩

/-- A pair alone is no model; and a model that is present may be mixed. -/
theorem lone_pair_and_mixed_pair :
    let lone : Disk := .ofDir modelDir ["ch_PP-OCRv5_rec_mobile_infer.onnx", "ppocrv5_dict.txt"]
    let mixed : Disk := .ofDir modelDir ["ch_PP-OCRv4_det_infer.onnx",
      "ch_PP-OCRv4_rec_infer.onnx", "ch_ppocr_mobile_v2.0_cls_infer.onnx", "ppocrv5_dict.txt"]
    let resolved (disk : Disk) : Resolved :=
      resolveIn disk (fun _ => none) (fun _ => none) [modelDir] (ppocrv5Mobile none) false
    PairIn lone [modelDir] (ppocrv5Mobile none) ∧ (resolved lone).present = false ∧
      (resolved mixed).present = true ∧ ¬(resolved mixed).OneFamily := by
  decide +kernel

end TheKvm.Models
