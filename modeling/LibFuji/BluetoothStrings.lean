/-
The strings that are read over Bluetooth (`get_characteristic_as_string` in `bluetooth.c`).

The terminator is stored at the number of bytes that the runtime has copied.  For a value that fills
the buffer, that is behind its end.

`strings_safe_iff`: `get_characteristic_as_string`, and all calls of `fill_props`, leave terminated
strings and write to no other memory, just if every value that is read is shorter than its buffer
(and a buffer for which none is read was terminated before).
-/
import LibFuji.Bluetooth

namespace Fuji

open Interaction

/-! ### Steps -/

/-- The steps of reading strings. -/
inductive StringStep
  /-- the value of a characteristic -/
  | value (uuid : String) (value : List UInt8)
  /-- a write behind the end of a buffer -/
  | behind (i : ℕ)
  /-- a string that is handed on -/
  | property (text : List UInt8)
  deriving DecidableEq

/-- The step that an operation is. -/
def stringStepOf : Event BtOp BtOp.Ret → Option StringStep
  | ⟨.cachedValue chr _, value⟩ => some (.value chr.uuid value)
  | ⟨.storeBehind i, _⟩ => some (.behind i)
  | ⟨.setSessionProperty _ text, _⟩ => some (.property text)
  | _ => none

/-- The steps of a history. -/
def stringSteps (h : BtHistory) : List StringStep := h.filterMap stringStepOf

/-- Nothing is written behind a buffer, and what is handed on is terminated. -/
structure Safe (steps : List StringStep) : Prop where
  within : ∀ i, .behind i ∉ steps
  terminated : ∀ text, .property text ∈ steps → 0 ∈ text

/-- The values of a characteristic that have been read. -/
def valuesOf (uuid : String) (steps : List StringStep) : List (List UInt8) :=
  steps.filterMap fun
    | .value u value => if u = uuid then some value else none
    | _ => none

/-- The values of a characteristic are shorter than its buffer; without one, the buffer is
terminated. -/
structure ReadFits {max : ℕ} (uuid : String) (buf : Vector UInt8 max) (steps : List StringStep) :
    Prop where
  kept : valuesOf uuid steps = [] → 0 ∈ buf.toList
  shorter : ∀ value ∈ valuesOf uuid steps, value.length < max

section Steps

variable {L L' : List StringStep} {uuid : String} {max : ℕ} {buf : Vector UInt8 max}

theorem stringSteps_append {h h' : BtHistory} :
    stringSteps (h ++ h') = stringSteps h ++ stringSteps h' := List.filterMap_append

theorem safe_nil : Safe [] := ⟨by simp, by simp⟩

theorem safe_append : Safe (L ++ L') ↔ Safe L ∧ Safe L' := by
  constructor
  · rintro ⟨hwithin, hterm⟩
    exact ⟨⟨fun i hi => hwithin i (List.mem_append_left _ hi),
        fun text htext => hterm text (List.mem_append_left _ htext)⟩,
      ⟨fun i hi => hwithin i (List.mem_append_right _ hi),
        fun text htext => hterm text (List.mem_append_right _ htext)⟩⟩
  · rintro ⟨hsafe, hsafe'⟩
    exact ⟨fun i hi => (List.mem_append.mp hi).elim (hsafe.within i) (hsafe'.within i),
      fun text htext => (List.mem_append.mp htext).elim (hsafe.terminated text)
        (hsafe'.terminated text)⟩

theorem valuesOf_append : valuesOf uuid (L ++ L') = valuesOf uuid L ++ valuesOf uuid L' :=
  List.filterMap_append

/-- A condition on one characteristic is one on the part in which it is read. -/
theorem readFits_congr (hvalues : valuesOf uuid L = valuesOf uuid L') :
    ReadFits uuid buf L ↔ ReadFits uuid buf L' := by
  constructor
  · rintro ⟨hkept, hshorter⟩
    rw [hvalues] at hkept hshorter
    exact ⟨hkept, hshorter⟩
  · rintro ⟨hkept, hshorter⟩
    rw [← hvalues] at hkept hshorter
    exact ⟨hkept, hshorter⟩

end Steps

/-! ### One string -/

section String

variable {max : ℕ} {svcuuid chruuid : String} {buf : Vector UInt8 max} {s s' : BtPriv}
  {h : BtHistory} {out : BtRc × Vector UInt8 max}

/-- What the attempt to read a string does. -/
inductive StringRead {max : ℕ} (uuid : String) (buf : Vector UInt8 max) :
    List StringStep → BtRc × Vector UInt8 max → Prop
  | missed {rc : BtRc} (hrc : rc ≠ .ok) : StringRead uuid buf [] (rc, buf)
  | short {value : List UInt8} (hshort : min value.length max < max) :
      StringRead uuid buf [.value uuid value]
        (.ok, (copyCached buf value).set (min value.length max) 0)
  | long {value : List UInt8} (hlong : ¬ min value.length max < max) :
      StringRead uuid buf [.value uuid value, .behind (min value.length max)]
        (.ok, copyCached buf value)

theorem getCharacteristicAsString_read
    (hrun : Exec (getCharacteristicAsString svcuuid chruuid buf) s h out s') :
    s' = s ∧ StringRead chruuid buf (stringSteps h) out := by
  obtain ⟨service, h₁, rfl, hrun₁⟩ := exec_call_bind.mp hrun
  cases service with
  | none =>
    obtain ⟨rfl, rfl, rfl⟩ := hrun₁.eq_of_ret rfl
    exact ⟨rfl, .missed (by simp)⟩
  | some service =>
    obtain ⟨chr, h₂, rfl, hrun₂⟩ := exec_call_bind.mp hrun₁
    cases chr with
    | none =>
      obtain ⟨_, h₃, rfl, hret⟩ := exec_call_bind.mp hrun₂
      obtain ⟨rfl, rfl, rfl⟩ := hret.eq_of_ret rfl
      exact ⟨rfl, .missed (by simp)⟩
    | some chr =>
      have hend {r : BtRc × Vector UInt8 max} {h : BtHistory} (hrun : Exec (do
          askBt (.unrefCharacteristic chr)
          askBt (.unrefService service)
          return r : BtM (BtRc × Vector UInt8 max)) s h out s') :
          s' = s ∧ stringSteps h = [] ∧ out = r := by
        obtain ⟨_, h₁, rfl, hrun₁⟩ := exec_call_bind.mp hrun
        obtain ⟨_, h₂, rfl, hret⟩ := exec_call_bind.mp hrun₁
        obtain ⟨rfl, rfl, rfl⟩ := hret.eq_of_ret rfl
        exact ⟨rfl, rfl, rfl⟩
      obtain ⟨rc, h₃, rfl, hrun₃⟩ := exec_call_bind.mp hrun₂
      by_cases hrc : (rc : BtRc) = .ok
      · rw [if_pos hrc] at hrun₃
        obtain ⟨h₄, buf', s₁, h₅, rfl, hread, hrun₄⟩ := exec_of_bind hrun₃
        obtain ⟨value, h₆, rfl, hrun₅⟩ := exec_call_bind.mp hread
        by_cases hshort : min (List.length value) max < max
        · rw [dif_pos hshort] at hrun₅
          obtain ⟨rfl, rfl, rfl⟩ := hrun₅.eq_of_ret rfl
          obtain ⟨rfl, hnone, rfl⟩ := hend hrun₄
          refine ⟨rfl, ?_⟩
          change StringRead chruuid buf (stringSteps ([⟨.cachedValue ⟨chr, chruuid⟩ max, value⟩] ++ h₅)) _
          rw [stringSteps_append, hnone, hrc]
          exact .short hshort
        · rw [dif_neg hshort] at hrun₅
          obtain ⟨u, h₇, rfl, hret⟩ := exec_call_bind.mp hrun₅
          obtain ⟨rfl, rfl, rfl⟩ := hret.eq_of_ret rfl
          obtain ⟨rfl, hnone, rfl⟩ := hend hrun₄
          refine ⟨rfl, ?_⟩
          change StringRead chruuid buf (stringSteps ([⟨.cachedValue ⟨chr, chruuid⟩ max, value⟩,
            ⟨.storeBehind (min value.length max), u⟩] ++ h₅)) _
          rw [stringSteps_append, hnone, hrc]
          exact .long hshort
      · rw [if_neg hrc] at hrun₃
        obtain ⟨rfl, hnone, rfl⟩ := hend hrun₃
        refine ⟨rfl, ?_⟩
        change StringRead chruuid buf (stringSteps h₃) _
        rw [hnone]
        exact .missed hrc

/-- What is read is terminated. -/
theorem StringRead.iff {uuid : String} {steps : List StringStep}
    (hread : StringRead uuid buf steps out) :
    Safe steps ∧ 0 ∈ out.2.toList ↔ ReadFits uuid buf steps := by
  cases hread with
  | missed hrc =>
    exact ⟨fun hboth => ⟨fun _ => hboth.2, by simp [valuesOf]⟩,
      fun hfits => ⟨safe_nil, hfits.kept rfl⟩⟩
  | @short value hshort =>
    have hvalues : valuesOf uuid [.value uuid value] = [value] := by simp [valuesOf]
    refine iff_of_true ⟨⟨by simp, by simp⟩, ?_⟩ ⟨by simp [hvalues], ?_⟩
    · rw [Vector.mem_toList_iff]
      exact Vector.mem_set hshort
    · rw [hvalues, List.forall_mem_singleton]
      omega
  | @long value hlong =>
    refine iff_of_false (fun hboth => hboth.1.within (min value.length max) (by simp)) fun hfits => ?_
    have hshorter := hfits.shorter value (by simp [valuesOf])
    omega

/-- No other characteristic is read. -/
theorem StringRead.valuesOf_ne {uuid : String} {steps : List StringStep}
    (hread : StringRead uuid buf steps out) (uuid' : String) (hne : uuid ≠ uuid') :
    valuesOf uuid' steps = [] := by
  cases hread <;> simp [valuesOf, hne]

end String

/-! ### All strings -/

/-- The strings of the module are terminated, and were written to no other memory. -/
structure StringsSafe (steps : List StringStep) (s : BtPriv) : Prop where
  safe : Safe steps
  name : 0 ∈ s.deviceNameBuf.toList
  ssid : 0 ∈ s.wifiSsid.toList
  password : 0 ∈ s.wifiPassword.toList

/-- The values for the strings of the module, and for its firmware, are shorter than their
buffers. -/
structure StringsFit (s : BtPriv) (steps : List StringStep) : Prop where
  name : ReadFits deviceName s.deviceNameBuf steps
  fwVer : ReadFits chrFirmwareRevision (.replicate 64 0 : Vector UInt8 64) steps
  ssid : ReadFits chrUnknown1Ssid s.wifiSsid steps
  password : ReadFits chrUnknown1Password s.wifiPassword steps

/-- The step of handing a string on, if it has been read. -/
def handedOn {max : ℕ} (r : BtRc × Vector UInt8 max) : List StringStep :=
  if r.1 = .ok then [.property r.2.toList] else []

section Props

variable {s s' : BtPriv} {h : BtHistory} {rc : BtRc}

theorem setSessionProperty_steps {max : ℕ} {prop : SessionProperty} {r : BtRc × Vector UInt8 max}
    {u : Unit} (hrun : Exec (setSessionProperty prop r) s h u s') :
    s' = s ∧ stringSteps h = handedOn r := by
  by_cases hrc : r.1 = .ok
  · rw [setSessionProperty, if_pos hrc] at hrun
    rcases hrun with _ | ⟨u, hret⟩
    cases hret
    rw [handedOn, if_pos hrc]
    exact ⟨rfl, rfl⟩
  · rw [setSessionProperty, if_neg hrc] at hrun
    obtain ⟨rfl, -, rfl⟩ := hrun.eq_of_ret rfl
    rw [handedOn, if_neg hrc]
    exact ⟨rfl, rfl⟩

/-- `fill_props` attempts to read four strings; a password that is not asked for is missed. -/
theorem fillProps_reads (hrun : Exec fillProps s h rc s') :
    ∃ L₁ name L₂ fwVer L₃ ssid L₄ password,
      stringSteps h = L₁ ++ (handedOn name ++ (L₂ ++ (handedOn fwVer ++ (L₃ ++ L₄)))) ∧
      StringRead deviceName s.deviceNameBuf L₁ name ∧
      StringRead chrFirmwareRevision (.replicate 64 0 : Vector UInt8 64) L₂ fwVer ∧
      StringRead chrUnknown1Ssid s.wifiSsid L₃ ssid ∧
      StringRead chrUnknown1Password s.wifiPassword L₄ password ∧
      s'.deviceNameBuf = name.2 ∧ s'.wifiSsid = ssid.2 ∧ s'.wifiPassword = password.2 := by
  obtain ⟨h₁, name, s₁, _, rfl, hname, hrun₁⟩ := exec_of_bind (exec_get_bind.mp hrun)
  obtain ⟨rfl, hread₁⟩ := getCharacteristicAsString_read hname
  obtain ⟨h₂, _, s₂, _, rfl, hset, hrun₂⟩ := exec_of_bind (exec_modify_bind.mp hrun₁)
  obtain ⟨rfl, hsteps₁⟩ := setSessionProperty_steps hset
  obtain ⟨h₃, fwVer, s₃, _, rfl, hfwVer, hrun₃⟩ := exec_of_bind hrun₂
  obtain ⟨rfl, hread₂⟩ := getCharacteristicAsString_read hfwVer
  obtain ⟨h₄, _, s₄, _, rfl, hset', hrun₄⟩ := exec_of_bind hrun₃
  obtain ⟨rfl, hsteps₂⟩ := setSessionProperty_steps hset'
  obtain ⟨h₅, ssid, s₅, h₆, rfl, hssid, hrun₅⟩ := exec_of_bind hrun₄
  obtain ⟨rfl, hread₃⟩ := getCharacteristicAsString_read hssid
  have hrun₆ := exec_modify_bind.mp hrun₅
  simp only [stringSteps_append, hsteps₁, hsteps₂]
  by_cases hrc : ssid.1 ≠ .ok
  · rw [if_pos hrc] at hrun₆
    obtain ⟨rfl, rfl, rfl⟩ := hrun₆.eq_of_ret rfl
    exact ⟨_, name, _, fwVer, _, ssid, [], (ssid.1, s₁.wifiPassword), rfl, hread₁, hread₂, hread₃,
      .missed hrc, rfl, rfl, rfl⟩
  · rw [if_neg hrc] at hrun₆
    obtain ⟨h₇, password, s₆, _, rfl, hpassword, hrun₇⟩ := exec_of_bind hrun₆
    obtain ⟨rfl, hread₄⟩ := getCharacteristicAsString_read hpassword
    obtain ⟨rfl, rfl, rfl⟩ := (exec_modify_bind.mp hrun₇).eq_of_ret rfl
    rw [List.append_nil]
    exact ⟨_, name, _, fwVer, _, ssid, _, password, rfl, hread₁, hread₂, hread₃, hread₄, rfl, rfl,
      rfl⟩

theorem safe_handedOn {max : ℕ} {r : BtRc × Vector UInt8 max} (hr : 0 ∈ r.2.toList) :
    Safe (handedOn r) := by
  rw [handedOn]
  split_ifs
  · exact ⟨by simp, by simpa using hr⟩
  · exact safe_nil

theorem valuesOf_handedOn {max : ℕ} {r : BtRc × Vector UInt8 max} {uuid : String} :
    valuesOf uuid (handedOn r) = [] := by
  rw [handedOn]
  split_ifs <;> rfl

/-- A buffer of zeros stays terminated, as long as nothing is written behind it. -/
theorem StringRead.terminated {uuid : String} {steps : List StringStep}
    {out : BtRc × Vector UInt8 64}
    (hread : StringRead uuid (.replicate 64 0 : Vector UInt8 64) steps out) (hsafe : Safe steps) :
    0 ∈ out.2.toList := by
  cases hread with
  | missed hrc => simp
  | short hshort =>
    rw [Vector.mem_toList_iff]
    exact Vector.mem_set hshort
  | @long value hlong => exact absurd (by simp) (hsafe.within (min value.length 64))

/-- All strings of the module are terminated just if their values are shorter than the buffers. -/
theorem fillProps_safe_iff (hrun : Exec fillProps s h rc s') :
    StringsSafe (stringSteps h) s' ↔ StringsFit s (stringSteps h) := by
  obtain ⟨L₁, name, L₂, fwVer, L₃, ssid, L₄, password, hsteps, hread₁, hread₂, hread₃, hread₄, hname,
    hssid, hpassword⟩ := fillProps_reads hrun
  -- what is read of a characteristic is read in its own part
  have hvalues (uuid : String) : valuesOf uuid (stringSteps h) = valuesOf uuid L₁ ++
      (valuesOf uuid L₂ ++ (valuesOf uuid L₃ ++ valuesOf uuid L₄)) := by
    simp [hsteps, valuesOf_append, valuesOf_handedOn]
  have hvalues₁ : valuesOf deviceName (stringSteps h) = valuesOf deviceName L₁ := by
    rw [hvalues, hread₂.valuesOf_ne deviceName (by decide), hread₃.valuesOf_ne deviceName (by decide),
      hread₄.valuesOf_ne deviceName (by decide)]
    simp
  have hvalues₂ : valuesOf chrFirmwareRevision (stringSteps h) = valuesOf chrFirmwareRevision L₂ := by
    rw [hvalues, hread₁.valuesOf_ne chrFirmwareRevision (by decide),
      hread₃.valuesOf_ne chrFirmwareRevision (by decide),
      hread₄.valuesOf_ne chrFirmwareRevision (by decide)]
    simp
  have hvalues₃ : valuesOf chrUnknown1Ssid (stringSteps h) = valuesOf chrUnknown1Ssid L₃ := by
    rw [hvalues, hread₁.valuesOf_ne chrUnknown1Ssid (by decide),
      hread₂.valuesOf_ne chrUnknown1Ssid (by decide), hread₄.valuesOf_ne chrUnknown1Ssid (by decide)]
    simp
  have hvalues₄ : valuesOf chrUnknown1Password (stringSteps h)
      = valuesOf chrUnknown1Password L₄ := by
    rw [hvalues, hread₁.valuesOf_ne chrUnknown1Password (by decide),
      hread₂.valuesOf_ne chrUnknown1Password (by decide),
      hread₃.valuesOf_ne chrUnknown1Password (by decide)]
    simp
  have hsafe : Safe (stringSteps h) ↔ Safe L₁ ∧ Safe (handedOn name) ∧ Safe L₂ ∧
      Safe (handedOn fwVer) ∧ Safe L₃ ∧ Safe L₄ := by
    simp only [hsteps, safe_append]
  constructor
  · rintro ⟨hall, hterm₁, hterm₃, hterm₄⟩
    rw [hname] at hterm₁
    rw [hssid] at hterm₃
    rw [hpassword] at hterm₄
    obtain ⟨hsafe₁, -, hsafe₂, -, hsafe₃, hsafe₄⟩ := hsafe.mp hall
    exact ⟨(readFits_congr hvalues₁).mpr (hread₁.iff.mp ⟨hsafe₁, hterm₁⟩),
      (readFits_congr hvalues₂).mpr (hread₂.iff.mp ⟨hsafe₂, hread₂.terminated hsafe₂⟩),
      (readFits_congr hvalues₃).mpr (hread₃.iff.mp ⟨hsafe₃, hterm₃⟩),
      (readFits_congr hvalues₄).mpr (hread₄.iff.mp ⟨hsafe₄, hterm₄⟩)⟩
  · rintro ⟨hfit₁, hfit₂, hfit₃, hfit₄⟩
    obtain ⟨hsafe₁, hterm₁⟩ := hread₁.iff.mpr ((readFits_congr hvalues₁).mp hfit₁)
    obtain ⟨hsafe₂, hterm₂⟩ := hread₂.iff.mpr ((readFits_congr hvalues₂).mp hfit₂)
    obtain ⟨hsafe₃, hterm₃⟩ := hread₃.iff.mpr ((readFits_congr hvalues₃).mp hfit₃)
    obtain ⟨hsafe₄, hterm₄⟩ := hread₄.iff.mpr ((readFits_congr hvalues₄).mp hfit₄)
    refine ⟨hsafe.mpr ⟨hsafe₁, safe_handedOn hterm₁, hsafe₂, safe_handedOn hterm₂, hsafe₃, hsafe₄⟩,
      ?_, ?_, ?_⟩
    · rwa [hname]
    · rwa [hssid]
    · rwa [hpassword]

end Props

/-- **Strings are terminated and stay within their buffers** just if the values that are read are
shorter than the buffers. -/
theorem strings_safe_iff (s s' : BtPriv) (h : BtHistory) :
    (∀ (max : ℕ) (svcuuid chruuid : String) (buf : Vector UInt8 max) (out : BtRc × Vector UInt8 max),
      Exec (getCharacteristicAsString svcuuid chruuid buf) s h out s' →
        (Safe (stringSteps h) ∧ 0 ∈ out.2.toList ↔ ReadFits chruuid buf (stringSteps h))) ∧
    ∀ rc, Exec fillProps s h rc s' →
      (StringsSafe (stringSteps h) s' ↔ StringsFit s (stringSteps h)) :=
  ⟨fun _ _ _ _ _ hrun => (getCharacteristicAsString_read hrun).2.iff,
    fun _ hrun => fillProps_safe_iff hrun⟩

/-- Values of 63 bytes are read as strings. -/
theorem strings_safe_short : ∃ h rc s', Exec fillProps btInit h rc s' ∧
    valuesOf chrUnknown1Ssid (stringSteps h) = [.replicate 63 65] ∧
      StringsSafe (stringSteps h) s' := by
  let value : List UInt8 := .replicate 63 65
  have htrace : ((fillProps btInit).trace (answering value)).map (fun r =>
      [deviceName, chrFirmwareRevision, chrUnknown1Ssid, chrUnknown1Password].map fun uuid =>
        valuesOf uuid (stringSteps r.1)) = some [[value], [value], [value], [value]] := by
    decide +kernel
  obtain ⟨⟨h, rc, s'⟩, hsome, heq⟩ := Option.map_eq_some_iff.mp htrace
  have hrun : Exec fillProps btInit h rc s' := (Prog.runs_of_trace hsome).1
  simp only [List.map_cons, List.map_nil, List.cons.injEq, and_true] at heq
  obtain ⟨hname, hfwVer, hssid, hpassword⟩ := heq
  have hfits {uuid : String} {buf : Vector UInt8 64}
      (hvalues : valuesOf uuid (stringSteps h) = [value]) :
      ReadFits uuid buf (stringSteps h) := ⟨by simp [hvalues], by simp [hvalues, value]⟩
  refine ⟨h, rc, s', hrun, hssid, ((strings_safe_iff btInit s' h).2 rc hrun).mpr ?_⟩
  exact ⟨hfits hname, hfits hfwVer, hfits hssid, hfits hpassword⟩

/-- A value of 64 bytes is terminated behind the buffer. -/
theorem strings_not_safe : ¬ ∀ (max : ℕ) (svcuuid chruuid : String) (buf : Vector UInt8 max)
    (s s' : BtPriv) (h : BtHistory) (out : BtRc × Vector UInt8 max),
    0 ∈ buf.toList → Exec (getCharacteristicAsString svcuuid chruuid buf) s h out s' →
      Safe (stringSteps h) ∧ 0 ∈ out.2.toList := by
  intro hall
  have htrace : ((getCharacteristicAsString notXSvc chrUnknown1Ssid btInit.wifiSsid
      btInit).trace (answering (.replicate 64 65))).map (fun r => decide (.behind 64 ∈ stringSteps r.1))
        = some true := by
    decide +kernel
  obtain ⟨⟨h, out, s'⟩, hsome, hbehind⟩ := Option.map_eq_some_iff.mp htrace
  have hsafe := hall 64 notXSvc chrUnknown1Ssid btInit.wifiSsid btInit s' h out
    (by simp [btInit]) (Prog.runs_of_trace hsome).1
  exact hsafe.1.within 64 (of_decide_eq_true hbehind)

end Fuji
