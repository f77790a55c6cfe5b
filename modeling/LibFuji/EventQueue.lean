/-
The images that a poll queues (`fuji_get_events` in `fuji.c`).

For an event that says that images wait in the camera, `fuji_get_events` asks for their handles
and queues, as often as there are handles, the handle at the index of the *event*.  In the
history of a poll, `handled` finds for each such event the handles that the camera has returned
and those that have been queued.

`fujiGetEvents_queuesEach_iff` says when they are the same, and when all of them have been read
from inside the array: the index of the event has to lie inside of it, and all its handles have
to be equal.
-/
import LibFuji.EventTurns

namespace Fuji

open ByteCodec Interaction

/-! ### What is queued -/

/-- An `int` made of a handle. -/
def handleInt (handle : UInt32) : Int := toCInt handle.toNat

/-- The handles that the camera returns. -/
def arrayOf : Event Op Op.Ret → Option (List UInt32)
  | ⟨.ptp (.getObjectHandles id format inRoot), r⟩ =>
    let r : Resp (.getObjectHandles id format inRoot) := r
    if r.rc = .ok then some r.out else none
  | _ => none

/-- The arrays of handles that the camera returns in a history. -/
def arrays (h : History) : List (List UInt32) := h.filterMap arrayOf

/-- One event more in front of a history of which it is known what is queued before the next
array, and the arrays with what is queued for each.  `app_queue_file_for_download` begins by asking
for the information about its object; in front of the object 1, which is not from an array, the
storage is announced. -/
def queueStep (e : Event Op Op.Ret) (acc : List Int × List (List UInt32 × List Int)) :
    List Int × List (List UInt32 × List Int) :=
  match e with
  | ⟨.ptp (.getObjectInfo handle), _⟩ => (handle :: acc.1, acc.2)
  | ⟨.ptp (.getObjectHandles id format inRoot), r⟩ =>
    match arrayOf ⟨.ptp (.getObjectHandles id format inRoot), r⟩ with
    | some a => ([], (a, acc.1) :: acc.2)
    | none => ([], acc.2)
  | ⟨.setStorageInfo _ _, _⟩ => ([], acc.2)
  | _ => acc

/-- The arrays that the camera returns, each with the objects that are queued for it. -/
def handled (h : History) : List (List UInt32 × List Int) := (h.foldr queueStep ([], [])).2

/-- No handle is read from behind an array. -/
def ReadsInside (h : History) : Prop := ∀ e ∈ h, ∀ i, e.1 ≠ .outOfArray i

/-- What a poll owes to the images that wait in the camera. -/
structure QueuesEach (h : History) (rc : Rc) : Prop where
  inside : ReadsInside h
  queued : rc = .ok → ∀ p ∈ handled h, p.2 = p.1.map handleInt

/-- There is no turn, or the index lies inside the array. -/
def InRange (i : ℕ) (a : List UInt32) : Prop := (toCInt a.length).toNat = 0 ∨ i < a.length

/-- All handles of the array are the one at the index `i`. -/
def AllAt (i : ℕ) (a : List UInt32) : Prop :=
  a.length < 2 ^ 31 ∧ ∀ handle ∈ a, a[i]? = some handle

/-- Operations that neither return nor queue handles. -/
def Op.Aloof : Op → Prop
  | .ptp (.getPropValue _) => True
  | .mutexLock => True
  | .mutexUnlock => True
  | .outOfBounds _ => True
  | .addFileMetadata _ _ => True
  | _ => False

section Histories

variable {h t : History} {e : Event Op Op.Ret} {acc : List Int × List (List UInt32 × List Int)}

theorem Op.Aloof.queueStep_eq (he : e.1.Aloof) : queueStep e acc = acc := by
  obtain ⟨op, r⟩ := e
  cases op with
  | ptp c => cases c <;> first | rfl | exact he.elim
  | _ => first | rfl | exact he.elim

theorem Op.Aloof.arrayOf_eq (he : e.1.Aloof) : arrayOf e = none := by
  obtain ⟨op, r⟩ := e
  cases op with
  | ptp c => cases c <;> first | rfl | exact he.elim
  | _ => rfl

theorem Op.Aloof.ne_outOfArray (he : e.1.Aloof) (i : ℕ) : e.1 ≠ .outOfArray i := by
  rintro heq
  rw [heq] at he
  exact he

theorem foldr_queueStep_aloof (hh : ∀ e ∈ h, e.1.Aloof) : h.foldr queueStep acc = acc := by
  induction h with
  | nil => rfl
  | cons e h ih =>
    obtain ⟨he, hrest⟩ := List.forall_mem_cons.mp hh
    rw [List.foldr_cons, ih hrest, he.queueStep_eq]

theorem readsInside_append : ReadsInside (h ++ t) ↔ ReadsInside h ∧ ReadsInside t :=
  List.forall_mem_append

theorem readsInside_aloof (hh : ∀ e ∈ h, e.1.Aloof) : ReadsInside h :=
  fun e he => (hh e he).ne_outOfArray

theorem arrays_append : arrays (h ++ t) = arrays h ++ arrays t := List.filterMap_append

theorem arrays_aloof (hh : ∀ e ∈ h, e.1.Aloof) : arrays h = [] :=
  List.filterMap_eq_nil_iff.mpr fun e he => (hh e he).arrayOf_eq

end Histories

/-! ### One event -/

section Event

variable {a : List UInt32} {i n : ℕ} {h t : History} {rc : Rc} {s s' : PtpRuntime}

/-- Queueing an object begins with the question for its information. -/
theorem appQueueFileForDownload_starts {objectId : Int}
    (hrun : Exec (appQueueFileForDownload objectId) s h rc s') :
    ∃ r t, h = ⟨.ptp (.getObjectInfo objectId), r⟩ :: t ∧ ∀ e ∈ t, e.1.Aloof := by
  obtain ⟨r, t, rfl, hrest⟩ := exec_transact_bind.mp hrun
  refine ⟨r, t, rfl, ?_⟩
  rw [exec_modify_bind] at hrest
  by_cases hcode : r.rc = .checkCode
  · rw [if_pos hcode] at hrest
    cases hrest
    simp
  rw [if_neg hcode] at hrest
  by_cases hr : r.rc = .ok
  · rw [if_neg (not_not.mpr hr), exec_get_bind, exec_modify_bind] at hrest
    obtain ⟨u, t', rfl, hend⟩ := exec_ask_bind.mp hrest
    cases hend
    simp [Op.Aloof]
  · rw [if_pos hr] at hrest
    cases hrest
    simp

/-- Inside the array every turn queues the same handle. -/
theorem queueFreeSDRAMImages_inside {handle : UInt32} (hget : a[i]? = some handle)
    (hrun : Exec (queueFreeSDRAMImages a i n) s t rc s') :
    ReadsInside t ∧ arrays t = [] ∧
      (rc = .ok → ∀ acc, t.foldr queueStep acc
        = (List.replicate n (handleInt handle) ++ acc.1, acc.2)) := by
  induction n generalizing t s with
  | zero =>
    cases hrun
    exact ⟨by simp [ReadsInside], rfl, fun _ _ => rfl⟩
  | succ n ih =>
    have hhandle : handleAt a i s = .ret (handle, s) := by
      rw [handleAt, hget]
      rfl
    rw [queueFreeSDRAMImages, Exec, bind_of_ret hhandle] at hrun
    obtain ⟨h₁, rc₁, s₁, h₂, rfl, hqueue, hrest⟩ := exec_of_bind hrun
    obtain ⟨r, t', rfl, ht'⟩ := appQueueFileForDownload_starts hqueue
    have hfirst : ReadsInside (⟨.ptp (.getObjectInfo (handleInt handle)), r⟩ :: t') ∧
        arrays (⟨.ptp (.getObjectInfo (handleInt handle)), r⟩ :: t') = [] :=
      ⟨List.forall_mem_cons.mpr ⟨by simp, fun e he => (ht' e he).ne_outOfArray⟩,
        (List.filterMap_cons_none rfl).trans (arrays_aloof ht')⟩
    by_cases hrc : rc₁ = .ok
    · rw [if_neg (not_not.mpr hrc)] at hrest
      obtain ⟨hinside, harrays, hqueued⟩ := ih hrest
      refine ⟨readsInside_append.mpr ⟨hfirst.1, hinside⟩, ?_, fun hok acc => ?_⟩
      · rw [arrays_append, harrays, List.append_nil]
        exact hfirst.2
      · rw [List.foldr_append, hqueued hok, List.foldr_cons, foldr_queueStep_aloof ht']
        rfl
    · rw [if_pos hrc] at hrest
      cases hrest
      rw [List.append_nil]
      exact ⟨hfirst.1, hfirst.2, fun hok => absurd hok hrc⟩

/-- Outside of it the first turn already reads behind the array. -/
theorem queueFreeSDRAMImages_outside (hget : a.length ≤ i)
    (hrun : Exec (queueFreeSDRAMImages a i (n + 1)) s t rc s') : ∃ e ∈ t, e.1 = .outOfArray i := by
  rw [queueFreeSDRAMImages, handleAt, List.getElem?_eq_none hget] at hrun
  obtain ⟨r, h₁, rfl, -⟩ := exec_ask_bind.mp hrun
  exact ⟨⟨.outOfArray i, r⟩, List.mem_cons_self .., rfl⟩

/-- What is queued for an array by the event at the index `i`. -/
def queueOf (i : ℕ) (a : List UInt32) : List UInt32 × List Int :=
  (a, List.replicate (toCInt a.length).toNat (handleInt (a.getD i 0)))

/-- What the event at the index `i` queues. -/
structure QueuesAt (i : ℕ) (h : History) (rc : Rc) : Prop where
  inside_iff : ReadsInside h ↔ ∀ a ∈ arrays h, InRange i a
  queued : ReadsInside h → rc = .ok →
    ∀ l, h.foldr queueStep ([], l) = ([], (arrays h).map (queueOf i) ++ l)

theorem queuesAt_aloof (hh : ∀ e ∈ h, e.1.Aloof) (rc : Rc) : QueuesAt i h rc where
  inside_iff := by
    rw [arrays_aloof hh]
    exact iff_of_true (readsInside_aloof hh) (by simp)
  queued _ _ l := by
    rw [foldr_queueStep_aloof hh, arrays_aloof hh]
    rfl

theorem QueuesAt.aloof_append (hq : QueuesAt i h rc) (ht : ∀ e ∈ t, e.1.Aloof) :
    QueuesAt i (t ++ h) rc where
  inside_iff := by
    rw [readsInside_append, and_iff_right (readsInside_aloof ht), hq.inside_iff, arrays_append,
      arrays_aloof ht, List.nil_append]
  queued hinside hok l := by
    rw [List.foldr_append, foldr_queueStep_aloof ht, hq.queued (readsInside_append.mp hinside).2 hok,
      arrays_append, arrays_aloof ht, List.nil_append]

theorem onMultipleTransfer_queues (hrun : Exec onMultipleTransfer s h rc s') : QueuesAt i h rc := by
  obtain ⟨h₁, ⟨⟩, s₁, h₂, rfl, hupdate, hqueue⟩ := exec_of_bind hrun
  obtain ⟨r, t, rfl, ht⟩ := appQueueFileForDownload_starts hqueue
  obtain ⟨name, info, u, rfl⟩ : ∃ name info u, h₁ = [⟨.setStorageInfo name info, u⟩] := by
    rw [appUpdateStorageInfo, exec_get_bind] at hupdate
    split_ifs at hupdate with hstate
    · rcases hupdate with _ | ⟨u, ⟨⟩⟩
      exact ⟨_, _, (), rfl⟩
    · rcases hupdate with _ | ⟨u, ⟨⟩⟩
      exact ⟨_, _, (), rfl⟩
  have harrays : arrays ([⟨.setStorageInfo name info, u⟩] ++ ⟨.ptp (.getObjectInfo 1), r⟩ :: t) = [] :=
    (List.filterMap_cons_none rfl).trans ((List.filterMap_cons_none rfl).trans (arrays_aloof ht))
  refine ⟨?_, fun _ _ l => ?_⟩
  · rw [harrays]
    refine iff_of_true (readsInside_append.mpr ⟨by simp [ReadsInside], ?_⟩) (by simp)
    exact List.forall_mem_cons.mpr ⟨by simp, readsInside_aloof ht⟩
  · rw [harrays, List.singleton_append, List.foldr_cons, List.foldr_cons,
      foldr_queueStep_aloof ht]
    rfl

theorem onFreeSDRAMImages_queues (hrun : Exec (onFreeSDRAMImages i) s h rc s') :
    QueuesAt i h rc := by
  obtain ⟨r, t, rfl, hrest⟩ := exec_transact_bind.mp hrun
  by_cases hr : r.rc = .ok
  · rw [if_neg (not_not.mpr hr)] at hrest
    have harray : arrayOf ⟨.ptp (.getObjectHandles (-1) 0 0), r⟩ = some r.out := if_pos hr
    have hloop : Exec (queueFreeSDRAMImages r.out i (toCInt (List.length r.out)).toNat) _ t rc s' :=
      hrest
    have harrays : arrays (⟨.ptp (.getObjectHandles (-1) 0 0), r⟩ :: t) = r.out :: arrays t :=
      List.filterMap_cons_some harray
    have hinside : ReadsInside (⟨.ptp (.getObjectHandles (-1) 0 0), r⟩ :: t) ↔ ReadsInside t := by
      rw [ReadsInside, List.forall_mem_cons, and_iff_right (by simp)]
      rfl
    rcases Nat.lt_or_ge i (List.length r.out) with hi | hi
    · have hget : r.out[i]? = some r.out[i] := List.getElem?_eq_getElem hi
      obtain ⟨hread, hnone, hqueued⟩ := queueFreeSDRAMImages_inside hget hloop
      refine ⟨iff_of_true (hinside.mpr hread) ?_, fun _ hok l => ?_⟩
      · rw [harrays, hnone]
        exact List.forall_mem_singleton.mpr (.inr hi)
      · rw [List.foldr_cons, hqueued hok, harrays, hnone, queueStep, harray, List.map_singleton,
          queueOf, List.getD_eq_getElem?_getD, hget]
        simp
    · rcases hn : (toCInt (List.length r.out)).toNat with _ | n
      -- no turn at all
      · rw [hn] at hloop
        cases hloop
        refine ⟨iff_of_true (hinside.mpr (by simp [ReadsInside])) ?_, fun _ _ l => ?_⟩
        · rw [harrays]
          exact List.forall_mem_singleton.mpr (.inl hn)
        · rw [List.foldr_cons, harrays, queueStep, List.foldr_nil, harray, List.map_cons, queueOf, hn]
          rfl
      · rw [hn] at hloop
        obtain ⟨e, he, heq⟩ := queueFreeSDRAMImages_outside hi hloop
        have hnot : ¬ ReadsInside t := fun hread => hread e he i heq
        refine ⟨iff_of_false (fun hread => hnot (hinside.mp hread)) fun hall => ?_,
          fun hread => absurd (hinside.mp hread) hnot⟩
        rcases hall r.out (by simp [harrays]) with hzero | hlt
        · omega
        · omega
  · rw [if_pos hr] at hrest
    cases hrest
    have harrays : arrays [⟨.ptp (.getObjectHandles (-1) 0 0), r⟩] = [] :=
      List.filterMap_cons_none (if_neg hr)
    refine ⟨?_, fun _ hok => absurd hok hr⟩
    rw [harrays]
    exact iff_of_true (by simp [ReadsInside]) (by simp)

theorem onEvent_queues {code : UInt16} {value : UInt32}
    (hrun : Exec (onEvent i code value) s h rc s') : QueuesAt i h rc := by
  rw [Exec] at hrun
  by_cases ht : FujiEvent.Triggers s.transport ⟨code, value⟩
  · rw [onEvent_triggered (e := ⟨code, value⟩) ht, reaction] at hrun
    split_ifs at hrun with hstate
    · exact onMultipleTransfer_queues hrun
    · exact onFreeSDRAMImages_queues hrun
  · rw [onEvent_quiet (e := ⟨code, value⟩) ht] at hrun
    cases hrun
    exact queuesAt_aloof (by simp) .ok

/-- **What a turn queues.** -/
theorem eventTurn_queues {o : Option Rc} (hrun : Exec (eventTurn i) s h o s') :
    QueuesAt i h (o.getD .ok) := by
  have hA (of : ℕ) : Op.Aloof (.outOfBounds of) := trivial
  obtain ⟨h₁, length, s₁, h₂, rfl, hlength, hrest⟩ := exec_of_bind hrun
  have ht₁ := issues_readU16 hA 0 s h₁ hlength.reaches
  refine QueuesAt.aloof_append ?_ ht₁
  split_ifs at hrest with hi
  · obtain ⟨h₃, code, s₂, h₄, rfl, hcode, hrest⟩ := exec_of_bind hrest
    refine QueuesAt.aloof_append ?_ (issues_readU16 hA _ s₁ h₃ hcode.reaches)
    obtain ⟨h₅, value, s₃, h₆, rfl, hvalue, hrest⟩ := exec_of_bind hrest
    refine QueuesAt.aloof_append ?_ (issues_readU32 hA _ s₂ h₅ hvalue.reaches)
    obtain ⟨h₇, rc₁, s₄, h₈, rfl, hevent, hend⟩ := exec_of_bind hrest
    cases hend
    rw [List.append_nil]
    exact onEvent_queues hevent
  · cases hrest
    exact queuesAt_aloof (by simp) .ok

end Event

/-! ### The whole poll -/

section Poll

variable {n i : ℕ} {h : History} {hs : List History} {rc : Rc} {s s' : PtpRuntime}

/-- What the turns of a walk from the index `i` on queue. -/
def queueOfTurns (i : ℕ) (hs : List History) : List (List UInt32 × List Int) :=
  (hs.zipIdx i).flatMap fun turn => (arrays turn.1).map (queueOf turn.2)

theorem Turns.queues (hturns : Turns n i s hs rc s') :
    (ReadsInside hs.flatten ↔ ∀ turn ∈ hs.zipIdx i, ∀ a ∈ arrays turn.1, InRange turn.2 a) ∧
      (ReadsInside hs.flatten → rc = .ok →
        ∀ l, hs.flatten.foldr queueStep ([], l) = ([], queueOfTurns i hs ++ l)) := by
  have hone {i : ℕ} {h : History} {rc : Rc} (hq : QueuesAt i h rc) :
      (ReadsInside [h].flatten ↔ ∀ turn ∈ [h].zipIdx i, ∀ a ∈ arrays turn.1, InRange turn.2 a) ∧
        (ReadsInside [h].flatten → rc = .ok →
          ∀ l, [h].flatten.foldr queueStep ([], l) = ([], queueOfTurns i [h] ++ l)) := by
    rw [List.flatten_singleton]
    refine ⟨hq.inside_iff.trans ?_, fun hinside hok l => ?_⟩
    · simp
    · rw [hq.queued hinside hok, queueOfTurns, List.zipIdx_singleton, List.flatMap_singleton]
  induction hturns with
  | fuel i s => exact ⟨iff_of_true (by simp [ReadsInside]) (by simp), fun _ _ l => rfl⟩
  | last hturn => exact hone (eventTurn_queues hturn)
  | fail hturn hrc => exact hone (eventTurn_queues hturn)
  | next hturn hrest ih =>
    have hq := eventTurn_queues hturn
    rw [List.flatten_cons, List.zipIdx_cons, List.forall_mem_cons, readsInside_append]
    refine ⟨and_congr hq.inside_iff ih.1, fun hinside hok l => ?_⟩
    rw [List.foldr_append, ih.2 hinside.2 hok, hq.queued hinside.1 rfl, queueOfTurns,
      queueOfTurns, List.zipIdx_cons, List.flatMap_cons, List.append_assoc]

theorem handleInt_injective : Function.Injective handleInt := by
  intro x y hxy
  have hx := x.toNat_lt
  have hy := y.toNat_lt
  refine UInt32.toNat_inj.mp ?_
  rw [handleInt, handleInt, toCInt, toCInt, Int.bmod_def, Int.bmod_def] at hxy
  split_ifs at hxy <;> omega

/-- The queue for an array is the array just if all its handles are the one at the index. -/
theorem queueOf_eq_iff {a : List UInt32} (hrange : InRange i a) :
    (queueOf i a).2 = a.map handleInt ↔ AllAt i a := by
  have hlength : (toCInt a.length).toNat = a.length ↔ a.length < 2 ^ 31 := by
    rw [toCInt, Int.bmod_def]
    split_ifs <;> omega
  have hqueue : (queueOf i a).2
      = List.replicate (toCInt a.length).toNat (handleInt (a.getD i 0)) := by
    rw [queueOf]
  rw [hqueue]
  constructor
  · intro heq
    have hlen : (toCInt a.length).toNat = a.length := by simpa using congrArg List.length heq
    refine ⟨hlength.mp hlen, fun handle hmem => ?_⟩
    rcases hrange with hzero | hi
    · rw [hlen] at hzero
      rw [List.length_eq_zero_iff.mp hzero] at hmem
      cases hmem
    · have hqueued : handleInt handle ∈
          List.replicate (toCInt a.length).toNat (handleInt (a.getD i 0)) := by
        rw [heq]
        exact List.mem_map_of_mem hmem
      have hget := handleInt_injective (List.eq_of_mem_replicate hqueued)
      rw [hget, List.getD_eq_getElem _ _ hi]
      exact List.getElem?_eq_getElem hi
  · rintro ⟨hlen, hall⟩
    rw [hlength.mpr hlen]
    refine (List.eq_replicate_iff.mpr ⟨by simp, fun b hb => ?_⟩).symm
    obtain ⟨handle, hmem, rfl⟩ := List.mem_map.mp hb
    rw [List.getD_eq_getElem?_getD, hall handle hmem]
    rfl

theorem PollTurns.queues (hpoll : PollTurns s h hs rc s') :
    (ReadsInside h ↔ ∀ turn ∈ hs.zipIdx, ∀ a ∈ arrays turn.1, InRange turn.2 a) ∧
      (ReadsInside h → rc = .ok → handled h = queueOfTurns 0 hs) := by
  have hA (of : ℕ) : Op.Aloof (.outOfBounds of) := trivial
  cases hpoll with
  | @unread a u r hr =>
    have haloof : ∀ e ∈ ([⟨.mutexLock, a⟩, ⟨.ptp (.getPropValue dpcEventsList), r⟩,
        ⟨.mutexUnlock, u⟩] : History), e.1.Aloof := by simp [Op.Aloof]
    exact ⟨iff_of_true (readsInside_aloof haloof) (by simp), fun _ _ => rfl⟩
  | @read a u r length h₁ h₂ _ s₁ s₂ _ _ hr hlength hlog hturns =>
    obtain ⟨hinside, hqueued⟩ := hturns.queues
    have hfront : ∀ e ∈ (⟨.mutexLock, a⟩ :: ⟨.ptp (.getPropValue dpcEventsList), r⟩ :: (h₁ ++ h₂) :
        History), e.1.Aloof := by
      refine List.forall_mem_cons.mpr ⟨trivial, List.forall_mem_cons.mpr ⟨trivial, ?_⟩⟩
      exact List.forall_mem_append.mpr ⟨issues_readU16 hA 0 _ h₁ hlength.reaches,
        issues_logLoop hA 65536 0 _ h₂ hlog.reaches⟩
    have hback : ∀ e ∈ ([⟨.mutexUnlock, u⟩] : History), e.1.Aloof := by simp [Op.Aloof]
    rw [show ⟨.mutexLock, a⟩ :: ⟨.ptp (.getPropValue dpcEventsList), r⟩ ::
        (h₁ ++ (h₂ ++ (hs.flatten ++ [⟨.mutexUnlock, u⟩])))
      = (⟨.mutexLock, a⟩ :: ⟨.ptp (.getPropValue dpcEventsList), r⟩ :: (h₁ ++ h₂)) ++
        (hs.flatten ++ [⟨.mutexUnlock, u⟩]) by simp]
    rw [readsInside_append, readsInside_append, and_iff_right (readsInside_aloof hfront),
      and_iff_left (readsInside_aloof hback)]
    refine ⟨hinside, fun hread hok => ?_⟩
    rw [handled, List.foldr_append, foldr_queueStep_aloof hfront, List.foldr_append,
      foldr_queueStep_aloof hback, hqueued hread hok, List.append_nil]

/-- **When a poll queues the images that wait in the camera**, each once and in their order, reading
no handle from behind the array: for every event that it handles, the index of the event lies
inside the array, and where nothing fails all handles of the array are the one at that index. -/
theorem fujiGetEvents_queuesEach_iff (hrun : Exec fujiGetEvents s h rc s') :
    ∃ hs, PollTurns s h hs rc s' ∧
      (QueuesEach h rc ↔ ∀ i (hi : i < hs.length), ∀ a ∈ arrays hs[i],
        InRange i a ∧ (Spared FailsPoll h → AllAt i a)) := by
  obtain ⟨hs, hpoll⟩ := exec_fujiGetEvents_iff.mp hrun
  obtain ⟨hinside, hqueued⟩ := hpoll.queues
  have hok := fujiGetEvents_ok_iff hrun
  rw [List.forall_mem_zipIdx'] at hinside
  refine ⟨hs, hpoll, ?_⟩
  constructor
  · rintro ⟨hread, hqueues⟩ i hi a ha
    have hrange := hinside.mp hread i hi a ha
    refine ⟨hrange, fun hspared => ?_⟩
    rw [hqueued hread (hok.mpr hspared)] at hqueues
    refine (queueOf_eq_iff hrange).mp (hqueues (hok.mpr hspared) (queueOf i a) ?_)
    refine List.mem_flatMap.mpr ⟨(hs[i], i), List.mem_zipIdx_iff_getElem?.mpr ?_, ?_⟩
    · exact List.getElem?_eq_getElem hi
    · exact List.mem_map_of_mem ha
  · intro hall
    have hread : ReadsInside h := hinside.mpr fun i hi a ha => (hall i hi a ha).1
    refine ⟨hread, fun hrc p hp => ?_⟩
    rw [hqueued hread hrc] at hp
    obtain ⟨⟨h', i⟩, hturn, hp⟩ := List.mem_flatMap.mp hp
    obtain ⟨a, ha, rfl⟩ := List.mem_map.mp hp
    have hget : hs[i]? = some h' := List.mem_zipIdx_iff_getElem?.mp hturn
    obtain ⟨hi, rfl⟩ := List.getElem?_eq_some_iff.mp hget
    obtain ⟨hrange, hat⟩ := hall i hi a ha
    exact (queueOf_eq_iff hrange).mpr (hat (hok.mp hrc))

end Poll

/-- A runtime in a wireless tether session. -/
def tetherRuntime : PtpRuntime := { fujiPtpNew with transport := .wirelessTether }

/-- An image waits in the camera. -/
def freeImagesList : EventList := ⟨[⟨0xd20e, 1⟩], by decide⟩

/-- The list of one event, answered with the handles `a`; the last object's information, which
begins with the number 1, ends the walk. -/
theorem fujiGetEvents_freeImages (a : List UInt32) {t : History} {s₁ : PtpRuntime}
    (hqueue : Exec (queueFreeSDRAMImages a 0 (toCInt a.length).toNat)
      (((tetherRuntime.answered freeImagesList.encode).apply ⟨0xd20e, 1⟩).answered []) t .ok s₁)
    (hend : s₁.payload = objectInfoPayload) :
    Exec fujiGetEvents tetherRuntime
      (⟨.mutexLock, ()⟩ :: ⟨.ptp (.getPropValue dpcEventsList), ⟨.ok, freeImagesList.encode, ()⟩⟩ ::
        ⟨.ptp (.getObjectHandles (-1) 0 0), ⟨.ok, [], a⟩⟩ :: (t ++ [⟨.mutexUnlock, ()⟩])) .ok s₁ := by
  let s₀ : PtpRuntime := tetherRuntime.answered freeImagesList.encode
  have hs₀ : s₀.payload = freeImagesList.encode ++ [] := (List.append_nil _).symm
  have hone : 0 < freeImagesList.events.length := by decide
  have ht : FujiEvent.Triggers s₀.transport ⟨0xd20e, 1⟩ := .inr ⟨by decide, rfl⟩
  have hevent : Exec (onEvent 0 0xd20e 1) s₀ (⟨.ptp (.getObjectHandles (-1) 0 0), ⟨.ok, [], a⟩⟩ :: t)
      .ok s₁ := by
    rw [Exec, onEvent_triggered (e := ⟨0xd20e, 1⟩) ht, reaction, if_neg (by decide)]
    exact exec_transact_bind.mpr ⟨⟨.ok, [], a⟩, t, rfl, exec_ite_neg (by simp) hqueue⟩
  have hread : readLe s₁.payload 0 2 = some 1 := by
    rw [hend]
    decide
  have hstop : eventLoop 65535 1 s₁ = .ret (.ok, s₁) := by
    rw [eventLoop, bind_of_ret (readU16_eq hread), if_neg (by decide)]
    rfl
  have hloop : Exec (eventLoop 65536 0) s₀
      (⟨.ptp (.getObjectHandles (-1) 0 0), ⟨.ok, [], a⟩⟩ :: t ++ []) .ok s₁ := by
    rw [Exec, eventLoop_step hs₀ hone]
    exact exec_bind hevent (exec_ite_neg (by simp) (exec_of_ret hstop))
  rw [List.append_nil] at hloop
  refine exec_ask_bind.mpr ⟨(), _, rfl, exec_transact_bind.mpr
    ⟨⟨.ok, freeImagesList.encode, ()⟩, _, rfl, ?_⟩⟩
  rw [if_neg (by simp), if_neg (by simp)]
  exact exec_bind (exec_of_ret (readU16_length hs₀)) <|
    exec_bind (exec_of_ret (logLoop_eq hs₀ 65536 0)) <|
    exec_bind hloop <| exec_ask_bind.mpr ⟨(), _, rfl, exec_pure _⟩

/-- One turn of the loop over the handles, which the camera answers. -/
theorem queueFreeSDRAMImages_turn {a : List UInt32} {handle : UInt32} {n : ℕ} {t : History}
    {s s' : PtpRuntime} (hget : a[0]? = some handle) (payload : List UInt8)
    (hrest : Exec (queueFreeSDRAMImages a 0 n) { s.answered payload with
      currentDownloadingOi := .zero, nItemsDownloaded := s.nItemsDownloaded + 1 } t .ok s') :
    Exec (queueFreeSDRAMImages a 0 (n + 1)) s
      (⟨.ptp (.getObjectInfo (handleInt handle)), ⟨.ok, payload, .zero⟩⟩ ::
        ⟨.addFileMetadata s.nItemsDownloaded .zero, ()⟩ :: t) .ok s' := by
  have hhandle : handleAt a 0 s = .ret (handle, s) := by
    rw [handleAt, hget]
    rfl
  have hqueue : Exec (appQueueFileForDownload (handleInt handle)) s _ .ok _ :=
    exec_bind (exec_transact ⟨.ok, payload, ObjectInfo.zero⟩) <| exec_bind (exec_modify _) <|
      exec_ite_neg (by simp) <| exec_ite_neg (by simp) <| exec_bind exec_get <|
      exec_bind (exec_modify _) <| exec_bind (exec_ask ()) (exec_pure _)
  rw [queueFreeSDRAMImages, Exec, bind_of_ret hhandle]
  exact exec_bind hqueue (exec_ite_neg (by simp) hrest)

/-- One image: its handle is queued. -/
theorem fujiGetEvents_queuesEach_oneImage : ∃ h s',
    Exec fujiGetEvents tetherRuntime h .ok s' ∧ ∃ hs, PollTurns tetherRuntime h hs .ok s' ∧
      (QueuesEach h .ok ↔ ∀ i (hi : i < hs.length), ∀ a ∈ arrays hs[i],
        InRange i a ∧ (Spared FailsPoll h → AllAt i a)) := by
  have hqueue := queueFreeSDRAMImages_turn (a := [5]) (n := 0)
    (s := ((tetherRuntime.answered freeImagesList.encode).apply ⟨0xd20e, 1⟩).answered []) rfl
    objectInfoPayload (exec_pure _)
  have hrun := fujiGetEvents_freeImages [5] hqueue rfl
  exact ⟨_, _, hrun, fujiGetEvents_queuesEach_iff hrun⟩

/-- Two images: the first is queued twice. -/
theorem fujiGetEvents_twoImages :
    ¬ ∀ h rc s', Exec fujiGetEvents tetherRuntime h rc s' → QueuesEach h rc := by
  intro hqueues
  have hqueue := queueFreeSDRAMImages_turn (a := [5, 6]) (n := 1)
    (s := ((tetherRuntime.answered freeImagesList.encode).apply ⟨0xd20e, 1⟩).answered []) rfl []
    (queueFreeSDRAMImages_turn rfl objectInfoPayload (exec_pure _))
  have hrun := fujiGetEvents_freeImages [5, 6] hqueue rfl
  have htwice := (hqueues _ .ok _ hrun).queued rfl ([5, 6], [handleInt 5, handleInt 5])
    (List.mem_singleton_self _)
  exact absurd htwice (by decide)

end Fuji
