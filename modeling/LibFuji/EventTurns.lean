/-
The turns of a poll (`fuji_get_events` in `fuji.c`).

* `wp_fujiGetEvents_fails` — which answers make a poll fail;
* `exec_eventLoop_iff`, `exec_fujiGetEvents_iff` — a run of its loop is a run of turns, each with
  a history of its own.
-/
import LibFuji.Events

namespace Fuji

open Interaction

/-! ### Answers that make a poll fail -/

/-- An answer that makes a poll fail. -/
def FailsPoll : Event Op Op.Ret → Prop
  | ⟨.ptp (.getPropValue code), r⟩ =>
    let r : Resp (.getPropValue code) := r
    r.rc ≠ .ok ∧ r.rc ≠ .checkCode
  | ⟨.ptp (.getObjectInfo handle), r⟩ =>
    let r : Resp (.getObjectInfo handle) := r
    r.rc ≠ .ok ∧ r.rc ≠ .checkCode
  | ⟨.ptp (.getObjectHandles id format inRoot), r⟩ =>
    let r : Resp (.getObjectHandles id format inRoot) := r
    r.rc ≠ .ok
  | _ => False

section Spared

variable {h t : History} {e : Event Op Op.Ret} {B : Event Op Op.Ret → Prop}

/-- No answer of the kind `B` so far. -/
def Spared (B : Event Op Op.Ret → Prop) (h : History) : Prop := ∀ e ∈ h, ¬ B e

theorem Spared.append (hh : Spared B h) (ht : Spared B t) : Spared B (h ++ t) :=
  fun e he => (List.mem_append.mp he).elim (hh e) (ht e)

theorem Spared.snoc (hh : Spared B h) (he : ¬ B e) : Spared B (h ++ [e]) :=
  hh.append (by simpa [Spared] using he)

theorem not_spared (he : B e) : ¬ Spared B (h ++ [e] ++ t) :=
  fun hs => hs e (by simp) he

theorem not_spared_last (he : B e) : ¬ Spared B (h ++ [e]) :=
  fun hs => hs e (by simp) he

end Spared

/-! ### The poll -/

section Poll

variable {h : History} {s s' : PtpRuntime} {rc : Rc}

/-- The operations that no answer makes fail. -/
def Op.Harmless (op : Op) : Prop := ∀ r : op.Ret, ¬ FailsPoll ⟨op, r⟩

theorem spared_of_harmless {t : History} (ht : ∀ e ∈ t, e.1.Harmless) : Spared FailsPoll t :=
  fun e he => ht e he e.2

theorem harmless_outOfBounds (of : ℕ) : (Op.outOfBounds of).Harmless := fun _ => id

/-- A good result says that no answer has made the poll fail. -/
abbrev TellsPoll (h : History) (rc : Rc) (_s : PtpRuntime) : Prop :=
  rc = .ok ↔ Spared FailsPoll h

theorem wp_appQueueFileForDownload_fails (hh : Spared FailsPoll h) (objectId : Int) :
    wp (appQueueFileForDownload objectId) TellsPoll h s := by
  rw [appQueueFileForDownload, wp_bind, wp_transact]
  intro r
  let e : Event Op Op.Ret := ⟨.ptp (.getObjectInfo objectId), r⟩
  rw [wp_bind, wp_modify, wp_ite]
  refine ⟨fun hcode => iff_of_true rfl (hh.snoc (e := e) fun hf => hf.2 hcode), fun hcode => ?_⟩
  rw [wp_ite]
  refine ⟨fun hne => iff_of_false hne (not_spared_last ⟨hne, hcode⟩), fun hok => ?_⟩
  rw [wp_bind, wp_get, wp_bind, wp_modify, wp_bind, wp_ask]
  exact fun _ => iff_of_true rfl ((hh.snoc (e := e) fun hf => hok hf.1).snoc id)

theorem wp_queueFreeSDRAMImages_fails (hh : Spared FailsPoll h) (a : List UInt32) (i n : ℕ) :
    wp (queueFreeSDRAMImages a i n) TellsPoll h s := by
  induction n generalizing h s with
  | zero => exact iff_of_true rfl hh
  | succ n ih =>
    have hhandle : Issues Op.Harmless (handleAt a i) := issues_handleAt fun _ => id
    rw [queueFreeSDRAMImages, wp_bind]
    refine hhandle.wp fun t handle s₁ ht => ?_
    rw [wp_bind]
    refine wp_mono (fun h₁ rc s₂ htells => ?_)
      (wp_appQueueFileForDownload_fails (hh.append (spared_of_harmless ht)) _)
    rw [wp_ite]
    exact ⟨fun _ => htells, fun hrc => ih (htells.mp (not_not.mp hrc))⟩

theorem wp_onEvent_fails (hh : Spared FailsPoll h) (i : ℕ) (code : UInt16) (value : UInt32) :
    wp (onEvent i code value) TellsPoll h s := by
  by_cases ht : FujiEvent.Triggers s.transport ⟨code, value⟩
  · rw [wp_congr (onEvent_triggered (e := ⟨code, value⟩) ht i), reaction, wp_ite]
    refine ⟨fun _ => ?_, fun _ => ?_⟩
    · have hset (name : String) (info : StorageInfo) :
          (Op.setStorageInfo name info).Harmless := fun _ => id
      have hupdate : Issues Op.Harmless appUpdateStorageInfo := issues_appUpdateStorageInfo hset
      rw [onMultipleTransfer, wp_bind]
      exact hupdate.wp fun t _ s₁ ht =>
        wp_appQueueFileForDownload_fails (hh.append (spared_of_harmless ht)) 1
    · rw [onFreeSDRAMImages, wp_bind, wp_transact]
      intro r
      let e : Event Op Op.Ret := ⟨.ptp (.getObjectHandles (-1) 0 0), r⟩
      rw [wp_ite]
      refine ⟨fun hne => iff_of_false hne (not_spared_last (e := e) hne), fun hok => ?_⟩
      have hgranted : Spared FailsPoll (h ++ [e]) := hh.snoc hok
      exact wp_queueFreeSDRAMImages_fails hgranted _ i _
  · rw [wp_of_ret (onEvent_quiet (e := ⟨code, value⟩) ht i)]
    exact iff_of_true rfl hh

theorem wp_eventLoop_fails (hh : Spared FailsPoll h) (n i : ℕ) :
    wp (eventLoop n i) TellsPoll h s := by
  induction n generalizing i h s with
  | zero => exact iff_of_true rfl hh
  | succ n ih =>
    rw [eventLoop, wp_bind]
    refine (issues_readU16 harmless_outOfBounds 0).wp fun t₁ length s₁ ht₁ => ?_
    have hh₁ := hh.append (spared_of_harmless ht₁)
    rw [wp_ite]
    refine ⟨fun _ => ?_, fun _ => iff_of_true rfl hh₁⟩
    rw [wp_bind]
    refine (issues_readU16 harmless_outOfBounds _).wp fun t₂ code s₂ ht₂ => ?_
    rw [wp_bind]
    refine (issues_readU32 harmless_outOfBounds _).wp fun t₃ value s₃ ht₃ => ?_
    have hh₃ := (hh₁.append (spared_of_harmless ht₂)).append (spared_of_harmless ht₃)
    rw [wp_bind]
    refine wp_mono (fun h₁ rc s₄ htells => ?_) (wp_onEvent_fails hh₃ i code value)
    rw [wp_ite]
    exact ⟨fun _ => htells, fun hrc => ih (htells.mp (not_not.mp hrc)) (i + 1)⟩

/-- **A poll fails just with an answer that makes it fail.** -/
theorem wp_fujiGetEvents_fails (hh : Spared FailsPoll h) :
    wp fujiGetEvents TellsPoll h s := by
  rw [fujiGetEvents, wp_bind, wp_ptpMutexLock]
  intro a
  rw [wp_bind, wp_transact]
  intro r
  let e : Event Op Op.Ret := ⟨.ptp (.getPropValue dpcEventsList), r⟩
  have hlocked : Spared FailsPoll (h ++ [⟨.mutexLock, a⟩]) := hh.snoc id
  rw [wp_ite]
  refine ⟨fun hcode => ?_, fun hcode => ?_⟩
  · rw [wp_bind, wp_ptpMutexUnlock]
    exact fun u => iff_of_true rfl ((hlocked.snoc (e := e) fun hf => hf.2 hcode).snoc id)
  rw [wp_ite]
  refine ⟨fun hne => ?_, fun hok => ?_⟩
  · rw [wp_bind, wp_ptpMutexUnlock]
    exact fun u => iff_of_false hne (not_spared ⟨hne, hcode⟩)
  have hpolled := hlocked.snoc (e := e) fun hf => hok hf.1
  rw [wp_bind]
  refine (issues_readU16 harmless_outOfBounds 0).wp fun t₁ _ s₁ ht₁ => ?_
  rw [wp_bind]
  refine (issues_logLoop harmless_outOfBounds 65536 0).wp fun t₂ _ s₂ ht₂ => ?_
  have hlogged := (hpolled.append (spared_of_harmless ht₁)).append (spared_of_harmless ht₂)
  rw [wp_bind]
  refine wp_mono (fun h₁ rc s₃ htells => ?_) (wp_eventLoop_fails hlogged 65536 0)
  rw [wp_bind, wp_ptpMutexUnlock]
  refine fun u => htells.trans ⟨fun hs => hs.snoc id, fun hs e he => hs e ?_⟩
  exact List.mem_append_left _ he

theorem fujiGetEvents_ok_iff (hrun : Exec fujiGetEvents s h rc s') :
    rc = .ok ↔ Spared FailsPoll h :=
  wp_iff.mp (wp_fujiGetEvents_fails (h := []) (s := s) (by simp [Spared])) h rc s' hrun

end Poll

/-! ### Turns -/

section Turns

variable {n i : ℕ} {h : History} {hs : List History} {rc : Rc} {s s' : PtpRuntime}

/-- One turn of the loop of `fuji_get_events`; without a result where the list has ended. -/
def eventTurn (i : ℕ) : PtpM (Option Rc) := do
  let length ← readU16 0
  if i < length.toNat then
    let code ← readU16 (2 + 6 * i)
    let value ← readU32 (4 + 6 * i)
    let rc ← onEvent i code value
    return some rc
  else return none

/-- A run of the loop from the index `i` on, `n` times more at most, with the histories of its
turns: the first of them is that of the index `i`. -/
inductive Turns : ℕ → ℕ → PtpRuntime → List History → Rc → PtpRuntime → Prop
  | fuel (i : ℕ) (s : PtpRuntime) : Turns 0 i s [] .ok s
  | last {n i : ℕ} {s s' : PtpRuntime} {h : History} (hturn : Exec (eventTurn i) s h none s') :
      Turns (n + 1) i s [h] .ok s'
  | fail {n i : ℕ} {s s' : PtpRuntime} {h : History} {rc : Rc}
      (hturn : Exec (eventTurn i) s h (some rc) s') (hrc : rc ≠ .ok) : Turns (n + 1) i s [h] rc s'
  | next {n i : ℕ} {s s₁ s' : PtpRuntime} {h : History} {hs : List History} {rc : Rc}
      (hturn : Exec (eventTurn i) s h (some .ok) s₁) (hrest : Turns n (i + 1) s₁ hs rc s') :
      Turns (n + 1) i s (h :: hs) rc s'

/-- What the loop does behind a turn. -/
def afterTurn (n i : ℕ) : Option Rc → PtpM Rc
  | none => return .ok
  | some rc => if rc ≠ .ok then return rc else eventLoop n (i + 1)

theorem eventLoop_succ (n i : ℕ) : eventLoop (n + 1) i = eventTurn i >>= afterTurn n i := by
  have hite {α β : Type} (c : Prop) [Decidable c] (m m' : PtpM α) (f : α → PtpM β) :
      (if c then m else m') >>= f = if c then m >>= f else m' >>= f := by
    by_cases hc : c <;> simp [hc]
  rw [eventLoop, eventTurn]
  simp only [bind_assoc, hite, pure_bind, afterTurn]

/-- **A run of the loop is a run of its turns.** -/
theorem exec_eventLoop_iff :
    Exec (eventLoop n i) s h rc s' ↔ ∃ hs, h = hs.flatten ∧ Turns n i s hs rc s' := by
  induction n generalizing i s h with
  | zero =>
    constructor
    · intro hrun
      cases hrun
      exact ⟨[], rfl, .fuel i _⟩
    · rintro ⟨_, rfl, ⟨⟩⟩
      exact exec_pure _
  | succ n ih =>
    rw [eventLoop_succ]
    constructor
    · intro hrun
      obtain ⟨h₁, o, s₁, h₂, rfl, hturn, hafter⟩ := exec_of_bind hrun
      cases o with
      | none =>
        cases hafter
        exact ⟨[h₁], by simp, .last hturn⟩
      | some rc₁ =>
        rw [afterTurn] at hafter
        by_cases hrc : rc₁ = .ok
        · rw [if_neg (not_not.mpr hrc)] at hafter
          obtain ⟨hs, rfl, hturns⟩ := ih.mp hafter
          exact ⟨h₁ :: hs, rfl, .next (hrc ▸ hturn) hturns⟩
        · rw [if_pos hrc] at hafter
          cases hafter
          exact ⟨[h₁], by simp, .fail hturn hrc⟩
    · rintro ⟨hs, rfl, hturns⟩
      cases hturns with
      | last hturn => exact exec_bind hturn (exec_pure _)
      | fail hturn hrc => exact exec_bind hturn (exec_ite_pos hrc (exec_pure _))
      | next hturn hrest =>
        refine exec_bind hturn ?_
        rw [afterTurn, if_neg (by simp)]
        exact ih.mpr ⟨_, rfl, hrest⟩

/-- A finished poll, with the histories of the turns of its loop; there are none where the camera
does not send its events. -/
inductive PollTurns (s : PtpRuntime) : History → List History → Rc → PtpRuntime → Prop
  | unread {a u : Unit} {r : Resp (.getPropValue dpcEventsList)} (hr : r.rc ≠ .ok) :
      PollTurns s [⟨.mutexLock, a⟩, ⟨.ptp (.getPropValue dpcEventsList), r⟩, ⟨.mutexUnlock, u⟩] []
        (if r.rc = .checkCode then .ok else r.rc) (s.answered r.payload)
  | read {a u : Unit} {r : Resp (.getPropValue dpcEventsList)} {length : UInt16} {h₁ h₂ : History}
      {hs : List History} {s₁ s₂ s' : PtpRuntime} {rc : Rc} (hr : r.rc = .ok)
      (hlength : Exec (readU16 0) (s.answered r.payload) h₁ length s₁)
      (hlog : Exec (logLoop 65536 0) s₁ h₂ () s₂) (hturns : Turns 65536 0 s₂ hs rc s') :
      PollTurns s (⟨.mutexLock, a⟩ :: ⟨.ptp (.getPropValue dpcEventsList), r⟩ ::
        (h₁ ++ (h₂ ++ (hs.flatten ++ [⟨.mutexUnlock, u⟩])))) hs rc s'

/-- **A finished poll is one with turns.** -/
theorem exec_fujiGetEvents_iff :
    Exec fujiGetEvents s h rc s' ↔ ∃ hs, PollTurns s h hs rc s' := by
  constructor
  · intro hrun
    obtain ⟨a, h₁, rfl, hlocked⟩ := exec_ask_bind.mp hrun
    obtain ⟨r, h₂, rfl, hpolled⟩ := exec_transact_bind.mp hlocked
    by_cases hcode : r.rc = .checkCode
    · rw [if_pos hcode] at hpolled
      obtain ⟨u, h₃, rfl, hend⟩ := exec_ask_bind.mp hpolled
      cases hend
      have hunread := PollTurns.unread (s := s) (a := a) (u := u) (r := r) (by simp [hcode])
      rw [if_pos hcode] at hunread
      exact ⟨[], hunread⟩
    rw [if_neg hcode] at hpolled
    by_cases hr : r.rc = .ok
    · rw [if_neg (not_not.mpr hr)] at hpolled
      obtain ⟨h₃, length, s₁, h₄, rfl, hlength, hrest⟩ := exec_of_bind hpolled
      obtain ⟨h₅, ⟨⟩, s₂, h₆, rfl, hlog, hwalk⟩ := exec_of_bind hrest
      obtain ⟨h₇, rc₁, s₃, h₈, rfl, hloop, hunlock⟩ := exec_of_bind hwalk
      obtain ⟨u, h₉, rfl, hend⟩ := exec_ask_bind.mp hunlock
      cases hend
      obtain ⟨hs, rfl, hturns⟩ := exec_eventLoop_iff.mp hloop
      exact ⟨hs, .read hr hlength hlog hturns⟩
    · rw [if_pos hr] at hpolled
      obtain ⟨u, h₃, rfl, hend⟩ := exec_ask_bind.mp hpolled
      cases hend
      have hunread := PollTurns.unread (s := s) (a := a) (u := u) (r := r) hr
      rw [if_neg hcode] at hunread
      exact ⟨[], hunread⟩
  · rintro ⟨hs, hpoll⟩
    have hunlock (u : Unit) (rc : Rc) (s₁ : PtpRuntime) :
        Exec (do ptpMutexUnlock; return rc : PtpM Rc) s₁ [⟨.mutexUnlock, u⟩] rc s₁ :=
      exec_ask_bind.mpr ⟨u, _, rfl, exec_pure rc⟩
    cases hpoll with
    | @unread a u r hr =>
      refine exec_ask_bind.mpr ⟨a, _, rfl, exec_transact_bind.mpr ⟨r, _, rfl, ?_⟩⟩
      by_cases hcode : r.rc = .checkCode
      · rw [if_pos hcode, if_pos hcode]
        exact hunlock u .ok _
      · rw [if_neg hcode, if_neg hcode, if_pos hr]
        exact hunlock u r.rc _
    | @read a u r length h₁ h₂ _ s₁ s₂ _ _ hr hlength hlog hturns =>
      refine exec_ask_bind.mpr ⟨a, _, rfl, exec_transact_bind.mpr ⟨r, _, rfl, ?_⟩⟩
      rw [if_neg (by simp [hr]), if_neg (not_not.mpr hr)]
      exact exec_bind hlength <| exec_bind hlog <|
        exec_bind (exec_eventLoop_iff.mpr ⟨hs, rfl, hturns⟩) (hunlock u rc _)

end Turns

end Fuji
