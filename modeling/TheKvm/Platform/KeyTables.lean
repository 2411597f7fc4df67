import TheKvm.Platform.Injector
import TheKvm.Platform.WinHooks

/-!
The keys that the captures report beside the keys that the injectors have a code for.

All keys of a Windows capture have a code on every platform. Three keys of the Linux captures have
none in the uinput injector, which is on the same platform, and fifteen have none on Windows.
-/

namespace TheKvm

/-- What an evdev, X11 or Wayland capture reports, all through one table. -/
def CapturedOnLinux (usage : HidUsage) : Prop := ∃ code, hidFromEvdev code = some usage

/-- `consumer_to_hid`. -/
def consumerToHid (usage : UInt16) : Option HidUsage :=
  match usage.toNat with
  | 0xe2 => some 0x7f
  | 0xe9 => some 0x80
  | 0xea => some 0x81
  | _ => none

/-- What a Windows capture reports, from its keyboard hook or the consumer page. -/
def CapturedOnWindows (usage : HidUsage) : Prop :=
  (∃ info : WinHooks.KeyInfo, info.usage = some usage) ∨ ∃ code, consumerToHid code = some usage

namespace KeyTables

/-- The Yen key, and the two keys of Korean keyboards. -/
def noEvdevCode : List HidUsage := [0x89, 0x90, 0x91]

def noScanCode : List HidUsage :=
  [0x66, 0x67, 0x75, 0x76, 0x78, 0x79, 0x7a, 0x7b, 0x7c, 0x7d, 0x7e, 0x85, 0x89, 0x90, 0x91]

/-- What holds of the first codes of a table holds of all its usages. -/
lemma forall_of_range {table : UInt16 → Option HidUsage} {n : ℕ} {P : HidUsage → Bool}
    (hlt : ∀ code usage, table code = some usage → code.toNat < n)
    (hall : ((List.range n).all fun i => (table (.ofNat i)).all P) = true)
    {code : UInt16} {usage : HidUsage} (h : table code = some usage) : P usage = true := by
  have hmem := List.all_eq_true.mp hall code.toNat (List.mem_range.mpr (hlt code usage h))
  rw [UInt16.ofNat_toNat, h] at hmem
  exact hmem

/-! ### Linux -/

lemma capturedOnLinux_of_mem {usages : List HidUsage}
    (h : (usages.all fun usage =>
      (List.range 195).any fun i => decide (hidFromEvdev (.ofNat i) = some usage)) = true)
    {usage : HidUsage} (hmem : usage ∈ usages) : CapturedOnLinux usage := by
  obtain ⟨i, -, hi⟩ := List.any_eq_true.mp (List.all_eq_true.mp h usage hmem)
  exact ⟨_, of_decide_eq_true hi⟩

/-- Of the keys of a Linux capture those are missing in a table that are found missing there. -/
lemma missing_iff (codes : HidUsage → Bool) (missing : List HidUsage)
    (hall : ((List.range 195).all fun i =>
      (hidFromEvdev (.ofNat i)).all fun usage =>
        decide (codes usage = false ↔ usage ∈ missing)) = true)
    (hmissing : (missing.all fun usage =>
      (List.range 195).any fun i => decide (hidFromEvdev (.ofNat i) = some usage)) = true)
    (usage : HidUsage) : CapturedOnLinux usage ∧ codes usage = false ↔ usage ∈ missing := by
  have hiff (h : CapturedOnLinux usage) : codes usage = false ↔ usage ∈ missing := by
    obtain ⟨code, hcode⟩ := h
    exact of_decide_eq_true (forall_of_range
      (P := fun usage => decide (codes usage = false ↔ usage ∈ missing))
      (fun _ _ => lt_of_hidFromEvdev) hall hcode)
  refine ⟨fun h => (hiff h.1).mp h.2, fun h => ?_⟩
  have hcaptured := capturedOnLinux_of_mem hmissing h
  exact ⟨hcaptured, (hiff hcaptured).mpr h⟩

theorem noEvdevCode_iff (usage : HidUsage) :
    CapturedOnLinux usage ∧ (Evdev.hidToEvdev usage).isSome = false ↔ usage ∈ noEvdevCode :=
  missing_iff (fun usage => (Evdev.hidToEvdev usage).isSome) noEvdevCode (by decide +kernel)
    (by decide +kernel) usage

theorem noScanCode_iff (usage : HidUsage) :
    CapturedOnLinux usage ∧ (Win32.keyCode usage).isSome = false ↔ usage ∈ noScanCode :=
  missing_iff (fun usage => (Win32.keyCode usage).isSome) noScanCode (by decide +kernel)
    (by decide +kernel) usage

/-! ### Windows -/

lemma lt_of_hidFromScanCode {extended : Bool} {code : UInt16} {usage : HidUsage}
    (h : WinHooks.hidFromScanCode code extended = some usage) : code.toNat < 128 := by
  unfold WinHooks.hidFromScanCode at h
  split_ifs at h
  · split at h <;> first | omega | cases h
  · simp only [UInt16.le_iff_toNat_le, UInt16.reduceToNat] at *
    omega
  · split at h <;> first | omega | cases h

lemma lt_of_hidFromVk {code : UInt16} {usage : HidUsage}
    (h : WinHooks.hidFromVk code = some usage) : code.toNat < 256 := by
  unfold WinHooks.hidFromVk at h
  split_ifs at h
  all_goals first
    | (simp only [UInt16.le_iff_toNat_le, UInt16.reduceToNat] at *; omega)
    | skip
  split at h <;> first | omega | cases h

lemma lt_of_consumerToHid {code : UInt16} {usage : HidUsage}
    (h : consumerToHid code = some usage) : code.toNat < 256 := by
  unfold consumerToHid at h
  split at h <;> first | omega | cases h

/-- Every key of a Windows capture has a code in both injectors. -/
theorem codes_of_windows {usage : HidUsage} (h : CapturedOnWindows usage) :
    (Evdev.hidToEvdev usage).isSome = true ∧ (Win32.keyCode usage).isSome = true := by
  let P : HidUsage → Bool := fun usage =>
    (Evdev.hidToEvdev usage).isSome && (Win32.keyCode usage).isSome
  have hscan (extended : Bool) : ∀ code usage,
      WinHooks.hidFromScanCode code extended = some usage → P usage = true :=
    fun _ _ => forall_of_range (P := P) (n := 128) (fun _ _ => lt_of_hidFromScanCode) (by
      cases extended <;> decide +kernel)
  have hvk : ∀ code usage, WinHooks.hidFromVk code = some usage → P usage = true :=
    fun _ _ => forall_of_range (P := P) (fun _ _ => lt_of_hidFromVk) (by decide +kernel)
  have hconsumer : ∀ code usage, consumerToHid code = some usage → P usage = true :=
    fun _ _ => forall_of_range (P := P) (fun _ _ => lt_of_consumerToHid) (by decide +kernel)
  rw [← Bool.and_eq_true]
  obtain ⟨info, hinfo⟩ | ⟨code, hcode⟩ := h
  · rw [WinHooks.KeyInfo.usage, Option.or_eq_some_iff] at hinfo
    obtain hinfo | ⟨-, hinfo⟩ := hinfo
    · exact hscan _ _ _ hinfo
    · exact hvk _ _ hinfo
  · exact hconsumer _ _ hcode

end KeyTables

end TheKvm
