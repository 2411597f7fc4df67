import TheKvm.Snaptext.Models

/-!
What a resolution finds, and whether the recogniser and the dictionary are of one family.

A role has its file from the config or else from the first directory that holds one of its
options. The preference for the dictionary of the family only decides within that directory.
-/

namespace TheKvm.Models

open SearchPath

/-! ### Families -/

inductive Family
  | v4 | v5
  deriving DecidableEq

def Family.ofName (name : String) : Family := if isV4 name then v4 else v5

def Family.dict : Family → String
  | v4 => "ppocr_keys_v1.txt"
  | v5 => "ppocrv5_dict.txt"

def PathBuf.family (p : PathBuf) : Option Family := p.fileName.map Family.ofName

/-- The dictionary is that of the recogniser's family. -/
def Belong (recog dict : PathBuf) : Prop :=
  ∃ family, recog.family = some family ∧ dict.fileName = some family.dict

instance (recog dict : PathBuf) : Decidable (Belong recog dict) :=
  decidable_of_iff (recog.family.any fun family => dict.fileName = some family.dict) (by
    simp [Belong, Option.any_eq_true])

/-- The models that recognise with a dictionary: two recognisers and two dictionaries, of the fifth
version and of the fourth. -/
structure Tiers (s : ModelSpec) where
  det : List RoleOption
  cls : List RoleOption
  recog5 : RoleOption
  recog4 : RoleOption
  dict5 : RoleOption
  dict4 : RoleOption
  binaries : s.binaries = []
  roles : s.roles =
    [(.det, det), (.recog, [recog5, recog4]), (.cls, cls), (.dict, [dict5, dict4])]
  recog5_name : isV4 recog5.filename = false
  recog4_name : isV4 recog4.filename = true
  dict5_name : dict5.filename = Family.v5.dict
  dict4_name : dict4.filename = Family.v4.dict

def ModelSpec.hasRole (s : ModelSpec) (role : Role) : Prop := role ∈ s.roles.map Prod.fst

/-- A model with a dictionary has both tiers. -/
theorem tiers_of_spec {base : Option String} {id : String} {s : ModelSpec}
    (hs : spec base id = some s) (hdict : s.hasRole .dict) : Nonempty (Tiers s) := by
  unfold spec at hs
  split at hs
  case h_3 =>
    obtain rfl := Option.some.inj hs
    exact ⟨⟨_, _, _, _, _, _, rfl, rfl,
      (by decide +kernel : isV4 "ch_PP-OCRv5_rec_mobile_infer.onnx" = false),
      (by decide +kernel : isV4 "ch_PP-OCRv4_rec_infer.onnx" = true), rfl, rfl⟩⟩
  case h_4 =>
    obtain rfl := Option.some.inj hs
    exact ⟨⟨_, _, _, _, _, _, rfl, rfl,
      (by decide +kernel : isV4 "ch_PP-OCRv5_rec_server_infer.onnx" = false),
      (by decide +kernel : isV4 "ch_PP-OCRv4_rec_server_infer.onnx" = true), rfl, rfl⟩⟩
  case h_8 => cases hs
  all_goals
    obtain rfl := Option.some.inj hs
    simp [ModelSpec.hasRole] at hdict

def ModelSpec.options (s : ModelSpec) (role : Role) : List RoleOption :=
  ((s.roles.find? fun r => r.1 = role).map Prod.snd).getD []

/-- The recogniser and the dictionary that were found belong together. -/
def Resolved.OneFamily (r : Resolved) : Prop :=
  ∃ recog dict, r.foundPaths .recog = some recog ∧ r.foundPaths .dict = some dict ∧
    Belong recog dict

instance (r : Resolved) : Decidable r.OneFamily :=
  decidable_of_iff ((r.foundPaths .recog).any fun recog =>
    (r.foundPaths .dict).any fun dict => Belong recog dict) (by
      simp only [Resolved.OneFamily, Option.any_eq_true, decide_eq_true_iff]
      grind)

/-- The directories hold a recogniser and a dictionary that belong together. -/
def PairIn (disk : Disk) (dirs : List PathBuf) (s : ModelSpec) : Prop :=
  ∃ d ∈ dirs, ∃ o ∈ s.options .recog, ∃ d' ∈ dirs, ∃ o' ∈ s.options .dict,
    disk.isFile (d.join o.filename) = true ∧ disk.isFile (d'.join o'.filename) = true ∧
      Belong (d.join o.filename) (d'.join o'.filename)

instance (disk : Disk) (dirs : List PathBuf) (s : ModelSpec) : Decidable (PairIn disk dirs s) :=
  inferInstanceAs (Decidable (∃ _ ∈ _, _))

/-! ### What the config names -/

/-- The path that the config names for a role, if it is a file. -/
def named (disk : Disk) (entry : Option (String → Option PathBuf)) (role : Role) :
    Option PathBuf :=
  (entry.bind fun entry => entry role.asStr).filter disk.isFile

variable {disk : Disk} {dirs : List PathBuf} {entry : Option (String → Option PathBuf)}
variable {role : Role} {p : PathBuf}

lemma isFile_of_named (h : named disk entry role = some p) : disk.isFile p = true :=
  (Option.filter_eq_some_iff.mp h).2

lemma takeNamed_apply (entry : String → Option PathBuf) (found : Role → Option PathBuf)
    (r : Role) : takeNamed disk entry found r role =
      if role = r then (named disk (some entry) role).or (found role) else found role := by
  unfold takeNamed named
  by_cases hr : role = r
  · subst hr
    cases hentry : entry role.asStr with
    | none => simp [hentry]
    | some p => cases hfile : disk.isFile p <;> simp [hentry, hfile, Option.filter]
  · cases entry r.asStr with
    | none => simp [hr]
    | some p => cases hfile : disk.isFile p <;> simp [hr, hfile]

lemma foldl_takeNamed (entry : String → Option PathBuf) (roles : List Role)
    (found : Role → Option PathBuf) : roles.foldl (takeNamed disk entry) found role =
      if role ∈ roles then (named disk (some entry) role).or (found role) else found role := by
  induction roles generalizing found with
  | nil => simp
  | cons r roles ih =>
    rw [List.foldl_cons, ih, takeNamed_apply]
    by_cases hr : role = r
    · simp [hr, ← Option.or_assoc]
    · simp [hr]

lemma configPaths_apply {roles : List Role} (h : role ∈ roles) :
    configPaths disk entry roles role = named disk entry role := by
  cases entry with
  | none => rfl
  | some entry => rw [configPaths, foldl_takeNamed, if_pos h, Option.or_none]

/-! ### What a resolution finds -/

lemma resolveRole_eq (found : Role → Option PathBuf) (r : Role × List RoleOption) :
    resolveRole disk dirs found r = Function.update found r.1
      ((found r.1).or (scan disk dirs (orderedOptions (recIsV4 found) r.1 r.2))) := by
  unfold resolveRole
  cases hfound : found r.1 with
  | some p =>
    rw [Option.isSome_some, if_pos rfl, Option.some_or, ← hfound, Function.update_eq_self]
  | none =>
    rw [Option.isSome_none, if_neg Bool.false_ne_true, Option.none_or]
    cases scan disk dirs (orderedOptions (recIsV4 found) r.1 r.2) with
    | some p => rfl
    | none => exact (Function.update_eq_self_iff.mpr hfound.symm).symm

lemma perm_orderedOptions (v4 : Option Bool) (opts : List RoleOption) :
    (orderedOptions v4 role opts).Perm opts := by
  unfold orderedOptions
  split_ifs
  · exact List.perm_insertionSort _ _
  · exact List.Perm.refl _

lemma isSome_scan {opts : List RoleOption} : (scan disk dirs opts).isSome = true ↔
    ∃ d ∈ dirs, ∃ o ∈ opts, held disk d o = true := by
  rw [scan, Option.isSome_map, search_isSome_iff]

/-- The role has a file: the config names it, or a directory holds one of its options. -/
def HasFile (disk : Disk) (dirs : List PathBuf) (entry : Option (String → Option PathBuf))
    (r : Role × List RoleOption) : Prop :=
  (named disk entry r.1).isSome = true ∨ ∃ d ∈ dirs, ∃ o ∈ r.2, held disk d o = true

lemma isSome_foldl_resolveRole (roles : List (Role × List RoleOption))
    (found : Role → Option PathBuf) :
    ((roles.foldl (resolveRole disk dirs) found) role).isSome = true ↔
      (found role).isSome = true ∨
        ∃ r ∈ roles, r.1 = role ∧ ∃ d ∈ dirs, ∃ o ∈ r.2, held disk d o = true := by
  induction roles generalizing found with
  | nil => simp
  | cons r roles ih =>
    rw [List.foldl_cons, ih, resolveRole_eq]
    have hscan : (scan disk dirs (orderedOptions (recIsV4 found) r.1 r.2)).isSome = true ↔
        ∃ d ∈ dirs, ∃ o ∈ r.2, held disk d o = true := by
      rw [isSome_scan]
      simp only [(perm_orderedOptions (recIsV4 found) r.2).mem_iff]
    by_cases hr : r.1 = role
    · subst hr
      rw [Function.update_self, Option.isSome_or, Bool.or_eq_true, hscan, List.exists_mem_cons_iff,
        or_assoc]
      simp
    · rw [Function.update_of_ne (Ne.symm hr), List.exists_mem_cons_iff]
      simp [hr]

lemma isSome_resolvedPaths {s : ModelSpec} (hs : (s.roles.map Prod.fst).Nodup)
    {r : Role × List RoleOption} (hr : r ∈ s.roles) :
    (resolvedPaths disk dirs entry s r.1).isSome = true ↔ HasFile disk dirs entry r := by
  rw [resolvedPaths, isSome_foldl_resolveRole, configPaths_apply (List.mem_map_of_mem hr), HasFile]
  refine or_congr_right ⟨?_, fun h => ⟨r, (List.mem_insertionSort _).mpr hr, rfl, h⟩⟩
  rintro ⟨r', hr', hrole, h⟩
  obtain rfl := List.inj_on_of_nodup_map hs ((List.mem_insertionSort _).mp hr') hr hrole
  exact h

lemma not_found {s : ModelSpec} (hs : (s.roles.map Prod.fst).Nodup)
    {r : Role × List RoleOption} (hr : r ∈ s.roles) (hname : named disk entry r.1 = none)
    (hdirs : ∀ d ∈ dirs, ∀ o ∈ r.2, disk.isFile (d.join o.filename) = false) :
    ¬(resolvedPaths disk dirs entry s r.1).isSome = true := by
  rw [isSome_resolvedPaths hs hr, HasFile, hname]
  rintro (hnamed | ⟨d, hd, o, ho, hheld⟩)
  · cases hnamed
  · rw [held, hdirs d hd o ho] at hheld
    cases hheld

lemma isFile_of_scan {opts : List RoleOption} (h : scan disk dirs opts = some p) :
    disk.isFile p = true := by
  obtain ⟨hit, hsearch, rfl⟩ := Option.map_eq_some_iff.mp h
  exact (mem_of_search hsearch).2.2

/-- What was found before is kept. -/
lemma foldl_resolveRole_of_isSome (roles : List (Role × List RoleOption))
    {found : Role → Option PathBuf} (h : (found role).isSome = true) :
    (roles.foldl (resolveRole disk dirs) found) role = found role := by
  induction roles generalizing found with
  | nil => rfl
  | cons r roles ih =>
    have hkept : resolveRole disk dirs found r role = found role := by
      rw [resolveRole_eq]
      by_cases hr : role = r.1
      · subst hr
        rw [Function.update_self, Option.or_of_isSome h]
      · rw [Function.update_of_ne hr]
    rw [List.foldl_cons, ih (hkept ▸ h), hkept]

lemma resolvedPaths_of_named {s : ModelSpec} {r : Role × List RoleOption} (hr : r ∈ s.roles)
    (h : named disk entry r.1 = some p) : resolvedPaths disk dirs entry s r.1 = some p := by
  have hconfig : configPaths disk entry (s.roles.map Prod.fst) r.1 = some p := by
    rw [configPaths_apply (List.mem_map_of_mem hr), h]
  rw [resolvedPaths, foldl_resolveRole_of_isSome _ (by rw [hconfig]; rfl), hconfig]

lemma isFile_of_foldl (roles : List (Role × List RoleOption)) {found : Role → Option PathBuf}
    (hfound : ∀ q, found role = some q → disk.isFile q = true)
    (h : (roles.foldl (resolveRole disk dirs) found) role = some p) : disk.isFile p = true := by
  induction roles generalizing found with
  | nil => exact hfound p h
  | cons r roles ih =>
    refine ih (fun q hq => ?_) h
    rw [resolveRole_eq] at hq
    by_cases hr : role = r.1
    · rw [hr, Function.update_self, Option.or_eq_some_iff] at hq
      rcases hq with hq | ⟨-, hq⟩
      · exact hfound q (hr ▸ hq)
      · exact isFile_of_scan hq
    · rw [Function.update_of_ne hr] at hq
      exact hfound q hq

/-- What is found is a file. -/
lemma isFile_of_resolved {s : ModelSpec} {r : Role × List RoleOption} (hr : r ∈ s.roles)
    (h : resolvedPaths disk dirs entry s r.1 = some p) : disk.isFile p = true := by
  refine isFile_of_foldl _ (fun q hq => ?_) h
  rw [configPaths_apply (List.mem_map_of_mem hr)] at hq
  exact isFile_of_named hq

/-- **Presence**. A model is present exactly if every role has a file and every binary is on the
PATH. -/
theorem present_iff {s : ModelSpec} (hs : (s.roles.map Prod.fst).Nodup)
    (onPath : String → Option PathBuf) (config : InstallConfig) (useConfig : Bool) :
    (resolveIn disk onPath config dirs s useConfig).present = true ↔
      (∀ r ∈ s.roles, HasFile disk dirs (if useConfig then config s.id else none) r) ∧
        ∀ b ∈ s.binaries, (onPath b).isSome = true := by
  rw [resolveIn, Bool.and_eq_true, List.isEmpty_iff, List.filter_eq_nil_iff]
  simp only [List.forall_mem_map, List.all_eq_true]
  refine and_congr_left fun _ => forall₂_congr fun r hr => ?_
  rw [← isSome_resolvedPaths hs hr, Option.isNone_iff_eq_none]
  exact Option.ne_none_iff_isSome

/-! ### The recogniser and its dictionary -/

/-- The family of the recogniser: of the one that the config names, or else of the one that is
first in the first directory that holds one. -/
def recogFamily (disk : Disk) (dirs : List PathBuf) (entry : Option (String → Option PathBuf))
    (recogs : List RoleOption) : Option Family :=
  match named disk entry .recog with
  | some p => p.family
  | none => (search (held disk) dirs recogs).map fun hit => Family.ofName hit.2.filename

/-- The dictionary of the recogniser's family comes first: the config names it, or it names none
and the first directory that holds a dictionary holds this one. -/
def Paired (disk : Disk) (dirs : List PathBuf) (entry : Option (String → Option PathBuf))
    (recogs dicts : List RoleOption) : Prop :=
  ∀ family, recogFamily disk dirs entry recogs = some family →
    match named disk entry .dict with
    | some p => p.fileName = some family.dict
    | none => ∀ d, holder (held disk) dirs dicts = some d → disk.isFile (d.join family.dict) = true

lemma decide_ofName (name : String) : decide (Family.ofName name = .v4) = isV4 name := by
  unfold Family.ofName
  cases isV4 name <;> rfl

lemma recIsV4_eq (found : Role → Option PathBuf) :
    recIsV4 found =
      ((found .recog).bind PathBuf.family).map fun family => decide (family = .v4) := by
  unfold recIsV4
  cases found .recog with
  | none => rfl
  | some p =>
    rw [Option.bind_some, Option.bind_some, PathBuf.family, Option.map_map]
    exact congrArg (fun f => p.fileName.map f) (funext fun name => (decide_ofName name).symm)

namespace Tiers

variable {s : ModelSpec} (t : Tiers s)

include t in
lemma nodup : (s.roles.map Prod.fst).Nodup := by
  rw [t.roles]
  change [Role.det, .recog, .cls, .dict].Nodup
  decide

def recogs : List RoleOption := [t.recog5, t.recog4]

def dicts : List RoleOption := [t.dict5, t.dict4]

lemma options_recog : s.options .recog = t.recogs := by
  rw [ModelSpec.options, t.roles]
  rfl

lemma options_dict : s.options .dict = t.dicts := by
  rw [ModelSpec.options, t.roles]
  rfl

lemma mem_recogs : (Role.recog, t.recogs) ∈ s.roles := by
  rw [t.roles]
  simp [recogs]

lemma mem_dicts : (Role.dict, t.dicts) ∈ s.roles := by
  rw [t.roles]
  simp [dicts]

lemma orderedRoles_eq : orderedRoles s.roles =
    [(.recog, t.recogs), (.det, t.det), (.cls, t.cls), (.dict, t.dicts)] := by
  rw [t.roles]
  rfl

lemma resolved_recog : resolvedPaths disk dirs entry s .recog =
    (named disk entry .recog).or (scan disk dirs t.recogs) := by
  have hconfig : configPaths disk entry (s.roles.map Prod.fst) .recog = named disk entry .recog :=
    configPaths_apply (List.mem_map_of_mem t.mem_recogs)
  rw [resolvedPaths, t.orderedRoles_eq]
  simp only [List.foldl_cons, List.foldl_nil, resolveRole_eq]
  simp [Function.update, hconfig, orderedOptions]

/-- The dictionary is looked for behind the recogniser. -/
lemma resolved_dict : resolvedPaths disk dirs entry s .dict =
    (named disk entry .dict).or (scan disk dirs
      (orderedOptions (recIsV4 (resolvedPaths disk dirs entry s)) .dict t.dicts)) := by
  have hconfig : configPaths disk entry (s.roles.map Prod.fst) .dict = named disk entry .dict :=
    configPaths_apply (List.mem_map_of_mem t.mem_dicts)
  have hv4 (found : Role → Option PathBuf) (p : Option PathBuf) :
      recIsV4 (Function.update found .dict p) = recIsV4 found := by simp [recIsV4]
  rw [resolvedPaths, t.orderedRoles_eq]
  simp only [List.foldl_cons, List.foldl_nil]
  generalize hfound : resolveRole disk dirs _ (Role.cls, t.cls) = found
  have hdict : found .dict = named disk entry .dict := by
    rw [← hfound, ← hconfig]
    simp [resolveRole_eq, Function.update]
  rw [resolveRole_eq, Function.update_self, hv4, hdict]

/-- The dictionary of a family. -/
def dictOf : Family → RoleOption
  | .v4 => t.dict4
  | .v5 => t.dict5

lemma dictOf_name (family : Family) : (t.dictOf family).filename = family.dict := by
  cases family with
  | v4 => exact t.dict4_name
  | v5 => exact t.dict5_name

/-- The dictionary of the recogniser's family is looked for first. -/
lemma orderedOptions_dict (family : Family) : ∃ rest,
    orderedOptions (some (decide (family = .v4))) .dict t.dicts = t.dictOf family :: rest := by
  have hkeys4 : isKeys t.dict4 = true := by
    rw [isKeys, t.dict4_name]
    decide +kernel
  have hkeys5 : isKeys t.dict5 = false := by
    rw [isKeys, t.dict5_name]
    decide +kernel
  cases family with
  | v4 => exact ⟨[t.dict5], by simp [orderedOptions, dicts, dictKey, hkeys4, hkeys5, dictOf]⟩
  | v5 => exact ⟨[t.dict4], by simp [orderedOptions, dicts, dictKey, hkeys4, hkeys5, dictOf]⟩

lemma family_resolved : (resolvedPaths disk dirs entry s .recog).bind PathBuf.family =
    recogFamily disk dirs entry t.recogs := by
  rw [t.resolved_recog, recogFamily]
  cases named disk entry .recog with
  | some p => rfl
  | none =>
    rw [Option.none_or, scan]
    cases search (held disk) dirs t.recogs with
    | none => rfl
    | some hit => simp [PathBuf.family]

include t in
/-- A recogniser that was found has a family. -/
lemma family_of_found (h : resolvedPaths disk dirs entry s .recog = some p) :
    ∃ family, p.family = some family := by
  have hname : p.fileName.isSome = true := by
    rw [t.resolved_recog, Option.or_eq_some_iff] at h
    rcases h with h | ⟨-, h⟩
    · exact disk.named p (isFile_of_named h)
    · obtain ⟨hit, -, rfl⟩ := Option.map_eq_some_iff.mp h
      rw [PathBuf.fileName_join]
      rfl
  obtain ⟨name, hname⟩ := Option.isSome_iff_exists.mp hname
  exact ⟨Family.ofName name, by rw [PathBuf.family, hname]; rfl⟩

/-- **Families**. The two files that are chosen belong together exactly if the dictionary of the
recogniser's family comes first. -/
theorem belong_iff {q : PathBuf} (hrecog : resolvedPaths disk dirs entry s .recog = some p)
    (hdict : resolvedPaths disk dirs entry s .dict = some q) :
    Belong p q ↔ Paired disk dirs entry t.recogs t.dicts := by
  obtain ⟨family, hp⟩ := t.family_of_found hrecog
  have hfamily : recogFamily disk dirs entry t.recogs = some family := by
    rw [← t.family_resolved, hrecog]
    exact hp
  have hbelong : Belong p q ↔ q.fileName = some family.dict := by
    rw [Belong, hp]
    simp
  rw [hbelong, Paired, hfamily]
  simp only [Option.some.injEq, forall_eq']
  rw [t.resolved_dict, recIsV4_eq, hrecog, Option.bind_some, hp, Option.map_some] at hdict
  cases hnamed : named disk entry .dict with
  | some r =>
    rw [hnamed, Option.some_or] at hdict
    obtain rfl := Option.some.inj hdict
    rfl
  | none =>
    rw [hnamed, Option.none_or, scan] at hdict
    obtain ⟨⟨d, o⟩, hsearch, rfl⟩ := Option.map_eq_some_iff.mp hdict
    have hholder : holder (held disk) dirs t.dicts = some d := by
      have hperm : (orderedOptions (some (decide (family = .v4))) .dict t.dicts).Perm t.dicts :=
        perm_orderedOptions _ _
      rw [← holder_perm hperm]
      exact (search_eq_some hsearch).1
    simp only [hholder, Option.some.injEq, forall_eq', PathBuf.fileName_join]
    constructor
    · intro hname
      rw [← hname]
      exact (mem_of_search hsearch).2.2
    · intro hfile
      obtain ⟨rest, hrest⟩ := t.orderedOptions_dict family
      rw [hrest] at hsearch
      have hheld : held disk d (t.dictOf family) = true := by
        rw [held, t.dictOf_name]
        exact hfile
      rw [search_of_preferred hsearch hheld, t.dictOf_name]

include t in
/-- The model is present if the directories hold a pair and the other roles have their files. -/
lemma present_of_pairIn {onPath : String → Option PathBuf} {config : InstallConfig}
    {useConfig : Bool} (hpair : PairIn disk dirs s)
    (hrest : ∀ r ∈ s.roles, r.1 = .det ∨ r.1 = .cls →
      HasFile disk dirs (if useConfig then config s.id else none) r) :
    (resolveIn disk onPath config dirs s useConfig).present = true := by
  obtain ⟨d, hd, o, ho, d', hd', o', ho', hfile, hfile', -⟩ := hpair
  rw [t.options_recog] at ho
  rw [t.options_dict] at ho'
  rw [present_iff t.nodup, t.binaries]
  refine ⟨fun r hr => ?_, by simp⟩
  by_cases hother : r.1 = .det ∨ r.1 = .cls
  · exact hrest r hr hother
  · rw [t.roles] at hr
    simp only [List.mem_cons, List.not_mem_nil, or_false] at hr
    rcases hr with rfl | rfl | rfl | rfl
    · exact absurd (Or.inl rfl) hother
    · exact Or.inr ⟨d, hd, o, ho, hfile⟩
    · exact absurd (Or.inr rfl) hother
    · exact Or.inr ⟨d', hd', o', ho', hfile'⟩

include t in
/-- A model that is present is of one family exactly if the dictionary of the recogniser's family
comes first. -/
theorem oneFamily_iff {onPath : String → Option PathBuf} {config : InstallConfig}
    {useConfig : Bool}
    (h : (resolveIn disk onPath config dirs s useConfig).present = true) :
    (resolveIn disk onPath config dirs s useConfig).OneFamily ↔
      Paired disk dirs (if useConfig then config s.id else none) (s.options .recog)
        (s.options .dict) := by
  have hfiles := ((present_iff t.nodup onPath config useConfig).mp h).1
  obtain ⟨p, hp⟩ := Option.isSome_iff_exists.mp
    ((isSome_resolvedPaths t.nodup t.mem_recogs).mpr (hfiles _ t.mem_recogs))
  obtain ⟨q, hq⟩ := Option.isSome_iff_exists.mp
    ((isSome_resolvedPaths t.nodup t.mem_dicts).mpr (hfiles _ t.mem_dicts))
  rw [t.options_recog, t.options_dict, ← t.belong_iff hp hq]
  constructor
  · rintro ⟨p', q', hp', hq', hbelong⟩
    obtain rfl := Option.some.inj (hp.symm.trans hp')
    obtain rfl := Option.some.inj (hq.symm.trans hq')
    exact hbelong
  · exact fun hbelong => ⟨p, q, hp, hq, hbelong⟩

/-- The first directory holds the first recogniser and the first dictionary. -/
lemma paired_of_first {dir : PathBuf} {rest : List PathBuf}
    (hentry : named disk entry .recog = none ∧ named disk entry .dict = none)
    (hrecog : disk.isFile (dir.join t.recog5.filename) = true)
    (hdict : disk.isFile (dir.join t.dict5.filename) = true) :
    Paired disk (dir :: rest) entry t.recogs t.dicts := by
  have hsearch : search (held disk) (dir :: rest) t.recogs = some (dir, t.recog5) := by
    rw [search, List.findSome?_cons, recogs, List.find?_cons, held, hrecog]
    rfl
  have hholder : holder (held disk) (dir :: rest) t.dicts = some dir := by
    rw [holder, List.find?_cons, dicts, List.any_cons, held, hdict]
    rfl
  intro family hfamily
  rw [recogFamily, hentry.1, hsearch] at hfamily
  obtain rfl : Family.ofName t.recog5.filename = family := Option.some.inj hfamily
  rw [hentry.2]
  intro d hd
  obtain rfl := Option.some.inj (hholder.symm.trans hd)
  rw [Family.ofName, t.recog5_name, if_neg Bool.false_ne_true, ← t.dict5_name]
  exact hdict

end Tiers

end TheKvm.Models
