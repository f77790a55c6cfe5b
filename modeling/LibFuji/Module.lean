/-
The module of the frontend (`module.c`): its state, and switches between screens.

The frontend calls `on_switch_screen` with the screen of the last switch that succeeded
(`SwitchRun`).  `switchRun_paired`: over any sequence of calls in which no step behind an
accepted InitiateOpenCapture fails, and liveview is left with an accepted
TerminateOpenCapture, the two commands are paired.  The result of `fuji_end_liveview` is
ignored, and an error of `fuji_config_liveview` leaves the capture open, so that without the
condition they are not (`switchRun_not_paired`).
-/
import LibFuji.Liveview

namespace Fuji

open Interaction

/-! ### The code -/

/-- The part of `struct ModulePriv` that is used here. -/
structure ModulePriv where
  r : Option PtpRuntime
  /-- is there a Bluetooth device? -/
  dev : Bool
  currentJob : Int

/-- Programs of the module. -/
abbrev ModM : Type → Type := StateT ModulePriv (Prog Op Op.Ret)

/-- A program on the runtime of the module; without one a NULL pointer is dereferenced. -/
def withRuntime {α : Type} (m : PtpM α) : ModM α := fun mod =>
  match mod.r with
  | some r => (m r).bind fun out => .ret (out.1, { mod with r := some out.2 })
  | none => .hang

/-- `on_switch_screen`. -/
def onSwitchScreen (oldScreen newScreen : Screen) : ModM Rc := do
  let mod ← get
  if mod.r.isSome = true then
    if newScreen = .liveview ∧ oldScreen = .liveview then return .ok
    else if newScreen = .liveview then
      let rc ← withRuntime fujiConfigLiveview
      if rc ≠ .ok then return rc else return .ok
    else if oldScreen = .liveview then
      let _ ← withRuntime fujiEndLiveview
      let _ ← withRuntime fujiConfigImageGallery
      return .ok
    else return .ok
  else return .ok

/-! ### Runs -/

/-- A sequence of switches, from a screen on, all of which meet a condition on the module, the
two screens and the history of the call. -/
inductive SwitchRun (C : ModulePriv → Screen → Screen → History → Prop) (mod : ModulePriv)
    (screen : Screen) : History → ModulePriv → Screen → Prop
  | nil : SwitchRun C mod screen [] mod screen
  | switch {h h' : History} {mod₁ mod₂ : ModulePriv} {oldScreen newScreen : Screen} {rc : Rc}
      (hrun : SwitchRun C mod screen h mod₁ oldScreen)
      (hcall : Exec (onSwitchScreen oldScreen newScreen) mod₁ h' rc mod₂)
      (hcond : C mod₁ oldScreen newScreen h') :
      SwitchRun C mod screen (h ++ h') mod₂ (if rc = .ok then newScreen else oldScreen)

/-- The camera as the module sees it. -/
def ModulePriv.captures (mod : ModulePriv) (opened : Option UInt32) : CaptureState :=
  ⟨(mod.r.map (·.transaction)).getD 0, opened⟩

/-- Captures are paired: InitiateOpenCapture is sent only while none is open, and
TerminateOpenCapture with the id of the one that is. -/
def Paired (mod : ModulePriv) (h : History) : Prop := ((mod.captures none).run h).isSome = true

/-- No step behind an accepted InitiateOpenCapture fails, and liveview is left with an accepted
TerminateOpenCapture. -/
structure SwitchCond (mod : ModulePriv) (oldScreen newScreen : Screen) (h : History) : Prop where
  entered : newScreen = .liveview → Uninterrupted h
  left : oldScreen = .liveview → newScreen ≠ .liveview → ∀ r, mod.r = some r →
    r.remoteVersion ≠ -1 → ∃ e ∈ h, Terminates e

/-! ### What holds between switches -/

theorem exec_withRuntime {α : Type} {m : PtpM α} {mod mod' : ModulePriv} {h : History} {a : α} :
    Exec (withRuntime m) mod h a mod' ↔
      ∃ r r', mod.r = some r ∧ Exec m r h a r' ∧ mod' = { mod with r := some r' } := by
  cases hr : mod.r with
  | none =>
    have hnull : withRuntime m mod = .hang := by simp [withRuntime, hr]
    refine iff_of_false (fun hrun => ?_) ?_
    · rw [Exec, hnull] at hrun
      cases hrun
    · rintro ⟨r, r', hsome, -⟩
      cases hsome
  | some r =>
    have hbind : withRuntime m mod
        = (m r).bind fun out => .ret (out.1, { mod with r := some out.2 }) := by
      simp [withRuntime, hr]
    constructor
    · intro hrun
      rw [Exec, hbind] at hrun
      obtain ⟨h₁, ⟨a', r'⟩, h₂, rfl, hm, hret⟩ := Prog.Runs.of_bind hrun
      cases hret
      exact ⟨r, r', rfl, by rwa [List.append_nil], rfl⟩
    · rintro ⟨_, r', ⟨⟩, hm, rfl⟩
      rw [Exec, hbind, ← List.append_nil h]
      exact Prog.Runs.bind hm (.ret _)

/-- The capture that is open on a screen. -/
def ModulePriv.opened (mod : ModulePriv) (screen : Screen) : Option UInt32 :=
  if screen = .liveview then
    mod.r.bind fun r => if r.remoteVersion ≠ -1 then some r.openCaptureTransId else none
  else none

/-- What a switch can do. -/
theorem onSwitchScreen_cases {oldScreen newScreen : Screen} {mod mod' : ModulePriv} {h : History}
    {rc : Rc} (hcall : Exec (onSwitchScreen oldScreen newScreen) mod h rc mod') :
    (newScreen = .liveview ∧ oldScreen ≠ .liveview ∧ ∃ r r', mod.r = some r ∧
      Exec fujiConfigLiveview r h rc r' ∧ mod' = { mod with r := some r' }) ∨
    (oldScreen = .liveview ∧ newScreen ≠ .liveview ∧ rc = .ok ∧ ∃ r h₁ rc₁ r₁ h₂ rc₂ r₂,
      mod.r = some r ∧ h = h₁ ++ h₂ ∧ Exec fujiEndLiveview r h₁ rc₁ r₁ ∧
        Exec fujiConfigImageGallery r₁ h₂ rc₂ r₂ ∧ mod' = { mod with r := some r₂ }) ∨
    ((mod.r = none ∨ (oldScreen = .liveview ↔ newScreen = .liveview)) ∧
      h = [] ∧ rc = .ok ∧ mod' = mod) := by
  have hcall₁ := exec_get_bind.mp hcall
  by_cases hsome : mod.r.isSome = true
  · rw [if_pos hsome] at hcall₁
    by_cases hboth : newScreen = .liveview ∧ oldScreen = .liveview
    · rw [if_pos hboth] at hcall₁
      cases hcall₁
      exact .inr (.inr ⟨.inr (iff_of_true hboth.2 hboth.1), rfl, rfl, rfl⟩)
    rw [if_neg hboth] at hcall₁
    by_cases hnew : newScreen = .liveview
    · have hold : oldScreen ≠ .liveview := fun hold => hboth ⟨hnew, hold⟩
      rw [if_pos hnew] at hcall₁
      obtain ⟨h₁, rc₁, mod₁, h₂, rfl, hlive, hcall₂⟩ := exec_of_bind hcall₁
      obtain ⟨r, r', hr, hrun, rfl⟩ := exec_withRuntime.mp hlive
      -- both branches return what fuji_config_liveview has
      have hret : rc = rc₁ ∧ h₂ = [] ∧ mod' = { mod with r := some r' } := by
        by_cases hrc : rc₁ ≠ .ok
        · rw [if_pos hrc] at hcall₂
          cases hcall₂
          exact ⟨rfl, rfl, rfl⟩
        · rw [if_neg hrc] at hcall₂
          cases hcall₂
          exact ⟨(not_not.mp hrc).symm, rfl, rfl⟩
      obtain ⟨rfl, rfl, rfl⟩ := hret
      exact .inl ⟨hnew, hold, r, r', hr, by rwa [List.append_nil], rfl⟩
    rw [if_neg hnew] at hcall₁
    by_cases hold : oldScreen = .liveview
    · rw [if_pos hold] at hcall₁
      obtain ⟨h₁, rc₁, mod₁, h', rfl, hend, hcall₂⟩ := exec_of_bind hcall₁
      obtain ⟨h₂, rc₂, mod₂, h₃, rfl, hgallery, hret⟩ := exec_of_bind hcall₂
      cases hret
      obtain ⟨r, r₁, hr, hrun, rfl⟩ := exec_withRuntime.mp hend
      obtain ⟨_, r₂, ⟨⟩, hrun', rfl⟩ := exec_withRuntime.mp hgallery
      rw [List.append_nil]
      exact .inr (.inl ⟨hold, hnew, rfl, r, h₁, rc₁, r₁, h₂, rc₂, r₂, hr, rfl, hrun, hrun', rfl⟩)
    · rw [if_neg hold] at hcall₁
      cases hcall₁
      exact .inr (.inr ⟨.inr (iff_of_false hold hnew), rfl, rfl, rfl⟩)
  · rw [if_neg hsome] at hcall₁
    cases hcall₁
    exact .inr (.inr ⟨.inl (by simpa using hsome), rfl, rfl, rfl⟩)

/-- A switch takes the camera from the one screen to the other. -/
theorem onSwitchScreen_captures {oldScreen newScreen : Screen} {mod mod' : ModulePriv}
    {h : History} {rc : Rc} (hcall : Exec (onSwitchScreen oldScreen newScreen) mod h rc mod')
    (hcond : SwitchCond mod oldScreen newScreen h) :
    (mod.captures (mod.opened oldScreen)).run h
      = some (mod'.captures (mod'.opened (if rc = .ok then newScreen else oldScreen))) := by
  rcases onSwitchScreen_cases hcall with ⟨hnew, hold, r, r', hr, hrun, rfl⟩ |
    ⟨hold, hnew, rfl, r, h₁, rc₁, r₁, h₂, rc₂, r₂, hr, rfl, hrun, hrun', rfl⟩ | ⟨hsame, rfl, rfl, rfl⟩
  -- liveview is entered
  · obtain ⟨hversion, hcaptures⟩ := fujiConfigLiveview_captures hrun (hcond.entered hnew)
    have hstart : mod.captures (mod.opened oldScreen) = r.captures none := by
      simp [ModulePriv.captures, ModulePriv.opened, PtpRuntime.captures, hr, hold]
    rw [hstart, hcaptures, ← hversion]
    by_cases hrc : rc = .ok
    · simp [ModulePriv.captures, ModulePriv.opened, PtpRuntime.captures, hrc, hnew]
    · simp [ModulePriv.captures, ModulePriv.opened, PtpRuntime.captures, hrc, hold]
  -- liveview is left, whatever the two calls return
  · have hkeep := fujiConfigImageGallery_keepsCapture r₁ h₂ rc₂ r₂ hrun'
    have hterm : r.remoteVersion ≠ -1 → ∃ e ∈ h₁, Terminates e := by
      intro hversion
      obtain ⟨e, he, hterm⟩ := hcond.left hold hnew r hr hversion
      rcases List.mem_append.mp he with hended | hlater
      · exact ⟨e, hended, hterm⟩
      · exact absurd hterm (not_terminates_of_noCapture (hkeep.noCapture e hlater))
    obtain ⟨-, hcaptures⟩ := fujiEndLiveview_captures hrun hterm
    have hstart : mod.captures (mod.opened oldScreen)
        = r.captures (if r.remoteVersion ≠ -1 then some r.openCaptureTransId else none) := by
      simp [ModulePriv.captures, ModulePriv.opened, PtpRuntime.captures, hr, hold]
    rw [hstart, CaptureState.run_append, hcaptures, Option.bind_some, PtpRuntime.captures, hkeep.run]
    simp [ModulePriv.captures, ModulePriv.opened, hnew]
  -- nothing is asked for
  · have hopened : mod'.opened newScreen = mod'.opened oldScreen := by
      rcases hsame with hr | hiff
      · simp [ModulePriv.opened, hr]
      · simp only [ModulePriv.opened, hiff]
    rw [if_pos rfl, hopened, CaptureState.run_nil]

theorem switchRun_captures {mod mod' : ModulePriv} {screen screen' : Screen} {h : History}
    (hstart : screen ≠ .liveview) (hrun : SwitchRun SwitchCond mod screen h mod' screen') :
    (mod.captures none).run h = some (mod'.captures (mod'.opened screen')) := by
  induction hrun with
  | nil => rw [ModulePriv.opened, if_neg hstart, CaptureState.run_nil]
  | switch _ hcall hcond ih =>
    rw [CaptureState.run_append, ih, Option.bind_some]
    exact onSwitchScreen_captures hcall hcond

/-- **Captures are paired** over every sequence of switches whose calls meet the condition. -/
theorem switchRun_paired {mod mod' : ModulePriv} {screen screen' : Screen} {h : History}
    (hstart : screen ≠ .liveview) (hrun : SwitchRun SwitchCond mod screen h mod' screen') :
    Paired mod h := by
  rw [Paired, switchRun_captures hstart hrun]
  rfl

/-! ### Two runs -/

/-- A runtime that is connected to a camera with remote mode. -/
def remoteRuntime : PtpRuntime :=
  { fujiPtpNew with
    transport := .wirelessComm, remoteVersion := 0x20006, remoteImageViewVersion := -1 }

/-- The module with that runtime. -/
def remoteModule : ModulePriv := ⟨some remoteRuntime, false, 0⟩

/-- A poll without events. -/
def quietPoll : History :=
  [⟨.mutexLock, ()⟩, ⟨.ptp (.getPropValue dpcEventsList), ⟨.checkCode, [], ()⟩⟩, ⟨.mutexUnlock, ()⟩]

/-- A poll whose connection is gone. -/
def failedPoll : History :=
  [⟨.mutexLock, ()⟩, ⟨.ptp (.getPropValue dpcEventsList), ⟨.ioErr, [], ()⟩⟩, ⟨.mutexUnlock, ()⟩]

section Runs

variable {s s' : PtpRuntime} {h : History} {rc : Rc}

theorem quietPoll_run (s : PtpRuntime) : Exec fujiGetEvents s quietPoll .ok (s.answered []) :=
  exec_bind (@exec_ask s .mutexLock ()) <|
    exec_bind (exec_transact (c := .getPropValue dpcEventsList) ⟨.checkCode, [], ()⟩) <|
    exec_ite_pos rfl <| exec_bind (@exec_ask (s.answered []) .mutexUnlock ()) (exec_pure _)

theorem failedPoll_run (s : PtpRuntime) : Exec fujiGetEvents s failedPoll .ioErr (s.answered []) :=
  exec_bind (@exec_ask s .mutexLock ()) <|
    exec_bind (exec_transact (c := .getPropValue dpcEventsList) ⟨.ioErr, [], ()⟩) <|
    exec_ite_neg (by simp) <| exec_ite_pos (by simp) <|
    exec_bind (@exec_ask (s.answered []) .mutexUnlock ()) (exec_pure _)

/-- An accepted InitiateOpenCapture. -/
def acceptedCapture : Event Op Op.Ret := ⟨.ptp (.initOpenCapture 0 0), ⟨.ok, [], ()⟩⟩

/-- What follows the capture decides about liveview on a camera that enters it the first time. -/
theorem fujiConfigLiveview_run (htransport : s.transport ≠ .xappWirelessComm)
    (hversion : s.remoteVersion ≠ -1) (hsockets : s.openedLiveviewSockets = false)
    (hfollow : Exec followCapture
      ({ s with openCaptureTransId := s.transaction }.answered []) h rc s') :
    Exec fujiConfigLiveview s (acceptedCapture :: h) rc s' := by
  have hopen : Exec openCapture s (acceptedCapture :: h) rc s' :=
    exec_bind (exec_modify _) <|
      exec_andThen (exec_transactRc (c := .initOpenCapture 0 0) ⟨.ok, [], ()⟩) hfollow
  exact exec_bind exec_get <| exec_andThen (exec_ite_neg htransport (exec_pure _)) <|
    exec_bind exec_get <| exec_ite_pos hversion <|
    exec_andThen (exec_ite_neg (by simp [hsockets]) (exec_pure _)) hopen

/-- Liveview is entered from the dashboard. -/
theorem onSwitchScreen_enter {mod : ModulePriv} (hr : mod.r = some s)
    (hrun : Exec fujiConfigLiveview s h rc s') :
    Exec (onSwitchScreen .dashboard .liveview) mod h rc { mod with r := some s' } := by
  have hlive := exec_withRuntime.mpr ⟨s, s', hr, hrun, rfl⟩
  have hret : Exec (if rc ≠ .ok then pure rc else pure .ok : ModM Rc) { mod with r := some s' } []
      rc { mod with r := some s' } := by
    by_cases hrc : rc = .ok
    · subst hrc
      exact exec_ite_neg (by simp) (exec_pure _)
    · exact exec_ite_pos hrc (exec_pure _)
  have hcall : Exec (onSwitchScreen .dashboard .liveview) mod _ rc { mod with r := some s' } :=
    exec_bind exec_get <| exec_ite_pos (by rw [hr]; rfl) <| exec_ite_neg (by simp) <|
      exec_ite_pos rfl <| exec_bind hlive hret
  simpa using hcall

/-- The camera and its sockets may answer as they should. -/
theorem followCapture_run (hsockets : s.openedLiveviewSockets = false) :
    ∃ h s', Exec followCapture s h .ok s' ∧ ∀ e ∈ h, ¬ Refused e := by
  have hrun : Exec followCapture s _ .ok _ :=
    exec_andThen (quietPoll_run _) <| exec_bind (@exec_ask _ (.usleep 50000) ()) <|
      exec_bind exec_get <| exec_ite_pos hsockets <|
      exec_andThen (@exec_ask _ (.connectEvents s.ipAddress fujiEventIpPort) Rc.ok) <|
      exec_andThen (@exec_ask _ (.connectVideo s.ipAddress fujiLiveviewIpPort) Rc.ok) <|
      exec_bind (exec_modify _) (exec_pure _)
  exact ⟨_, _, hrun, by simp [quietPoll, Refused]⟩

end Runs

/-- Liveview is entered, with both sockets connected. -/
theorem switchRun_paired_enter : ∃ h mod', h ≠ [] ∧
    SwitchRun SwitchCond remoteModule .dashboard h mod' .liveview ∧ Paired remoteModule h := by
  obtain ⟨h, s', hfollow, hok⟩ := @followCapture_run
    ({ remoteRuntime with openCaptureTransId := remoteRuntime.transaction }.answered []) rfl
  have hcall := @onSwitchScreen_enter _ _ _ _ remoteModule rfl
    (fujiConfigLiveview_run (by decide) (by decide) rfl hfollow)
  have hcond : SwitchCond remoteModule .dashboard .liveview (acceptedCapture :: h) := by
    refine ⟨fun _ h₁ e h₂ heq _ e' he' => ?_, fun hold => absurd hold (by simp)⟩
    have hmem : e' ∈ acceptedCapture :: h := by
      rw [heq]
      simp [he']
    rcases List.mem_cons.mp hmem with rfl | hmem'
    · exact id
    · exact hok e' hmem'
  have hrun := SwitchRun.switch .nil hcall hcond
  exact ⟨_, _, by simp, hrun, switchRun_paired (by simp) hrun⟩

/-- The poll behind the capture fails, and liveview is tried again. -/
theorem switchRun_not_paired : ¬ ∀ (mod mod' : ModulePriv) (screen screen' : Screen) (h : History),
    screen ≠ .liveview → SwitchRun (fun _ _ _ _ => True) mod screen h mod' screen' →
      Paired mod h := by
  intro hall
  let s₁ := ({ remoteRuntime with openCaptureTransId := 0 }.answered []).answered []
  have hfirst : Exec (onSwitchScreen .dashboard .liveview) remoteModule _ .ioErr
      { remoteModule with r := some s₁ } :=
    onSwitchScreen_enter rfl (fujiConfigLiveview_run (by decide) (by decide) rfl
      (exec_andThen_fail (by simp) (failedPoll_run _)))
  have hagain := @onSwitchScreen_enter _ _ _ _ { remoteModule with r := some s₁ } rfl
    (fujiConfigLiveview_run (s := s₁) (by decide) (by decide) rfl
      (exec_andThen_fail (by simp) (failedPoll_run _)))
  have hrun := SwitchRun.switch (C := fun _ _ _ _ => True)
    (.switch .nil hfirst trivial) hagain trivial
  have hpaired := hall _ _ _ _ _ (by simp) hrun
  rw [Paired] at hpaired
  exact absurd hpaired (by decide)

end Fuji
