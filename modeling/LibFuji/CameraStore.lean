/-
What the frontend gets of a file, from a camera that has it.

The camera answers from a `Store` of objects; it may send as little of a range as it likes, refuse
any command, and the download may be cancelled.  The frontend is handed chunks with their offsets.

* `onRequestFileContents_handsOn` — at any time the chunks are for the file that was requested,
  follow one another from its beginning, and are what stands in the object;
* `onRequestFileContents_complete` — and they are all of it, when a request for a file of a gallery
  returns 0, over any connection whose last write does not hide the outcome.
-/
import LibFuji.RuntimeOps

namespace Fuji

open Interaction

/-! ### A camera with objects -/

/-- The objects of a camera, by their handles. -/
abbrev Store : Type := Int → List UInt8

/-- The camera announces the size of an object, and sends what stands there at an offset, as much
of it as it likes. -/
def Store.Serves (store : Store) : Event Op Op.Ret → Prop
  | ⟨.ptp (.getObjectInfo handle), r⟩ =>
    let r : Resp (.getObjectInfo handle) := r
    let oi : ObjectInfo := r.out
    r.rc = .ok → oi.compressedSize.toNat = (store handle).length
  | ⟨.ptp (.getPartialObject handle offset cur), r⟩ =>
    let r : Resp (.getPartialObject handle offset cur) := r
    r.rc = .ok → r.payload <+: (store handle).drop offset.toNat ∧ r.payload.length ≤ cur.toNat
  | _ => True

/-- The chunk that is handed on, with its offset. -/
def handedOf : Event Op Op.Ret → Option (UInt32 × List UInt8)
  | ⟨.handleAdd buf len offset _, _⟩ => some (offset, buf.take len.toNat)
  | ⟨.addFileContents _ _ (some data) size offset _, _⟩ => some (offset, data.take size)
  | _ => none

/-- The chunks that are handed on, in their order. -/
def handed (h : History) : List (UInt32 × List UInt8) := h.filterMap handedOf

/-- Chunks that follow one another from the beginning of a content are its first `n` bytes. -/
structure HandedUpTo (content : List UInt8) (n : ℕ) (cs : List (UInt32 × List UInt8)) : Prop where
  follows : FollowsFrom 0 cs
  bytes : cs.flatMap Prod.snd = content.take n
  within : n ≤ content.length

/-- Chunks that are the beginning of a content. -/
def Begins (content : List UInt8) (cs : List (UInt32 × List UInt8)) : Prop :=
  ∃ n, HandedUpTo content n cs

section Handed

variable {content : List UInt8} {n : ℕ} {cs : List (UInt32 × List UInt8)}

theorem handed_append (h t : History) : handed (h ++ t) = handed h ++ handed t :=
  List.filterMap_append

theorem contentBytes_eq (cs : List (UInt32 × List UInt8)) :
    contentBytes cs = (cs.flatMap Prod.snd).length := by
  rw [contentBytes, List.length_flatMap]

theorem handedUpTo_nil (content : List UInt8) : HandedUpTo content 0 [] :=
  ⟨trivial, rfl, Nat.zero_le _⟩

/-- The next chunk is what stands behind the ones before. -/
theorem HandedUpTo.snoc (hcs : HandedUpTo content n cs) {offset : UInt32} {chunk : List UInt8}
    (hoffset : offset.toNat = n) (hchunk : chunk <+: content.drop n) :
    HandedUpTo content (n + chunk.length) (cs ++ [(offset, chunk)]) := by
  have hlen : contentBytes cs = n := by
    rw [contentBytes_eq, hcs.bytes, List.length_take, Nat.min_eq_left hcs.within]
  refine ⟨follows_snoc.mpr ⟨hcs.follows, ?_⟩, ?_, ?_⟩
  · rw [Nat.zero_add, hlen]
    exact hoffset
  · rw [List.flatMap_append, hcs.bytes, List.flatMap_singleton, List.take_add,
      List.prefix_iff_eq_take.mp hchunk, List.length_take]
    simp
  · have hle := hchunk.length_le
    rw [List.length_drop] at hle
    have hwithin := hcs.within
    omega

end Handed

/-! ### Downloads from the camera -/

/-- As long as the camera answers from its store. -/
def Serving (store : Store) (P : History → Prop) (h : History) : Prop :=
  (∀ e ∈ h, store.Serves e) → P h

theorem Serving.snoc {store : Store} {P Q : History → Prop} {h : History} {e : Event Op Op.Ret}
    (hh : Serving store P h) (hPQ : P h → store.Serves e → Q (h ++ [e])) :
    Serving store Q (h ++ [e]) := by
  intro hserves
  exact hPQ (hh fun e' he' => hserves e' (List.mem_append_left _ he')) (hserves e (by simp))

theorem always_transact_bind {α : Type} {I : History → Prop} {c : PtpCommand} {f : Resp c → PtpM α}
    {Q : History → α → PtpRuntime → Prop} {h : History} {s : PtpRuntime} (hI : I h)
    (hf : ∀ r : Resp c, Always I (f r) Q (h ++ [⟨.ptp c, r⟩]) (s.answered r.payload)) :
    Always I (transact c >>= f) Q h s :=
  always_call_bind hI fun r => ⟨(hf r).reaches, (hf r).exec⟩

/-- What has been handed on is the beginning of an object. -/
def HandsOn (content : List UInt8) (h : History) : Prop := Begins content (handed h)

section Download

variable {store : Store} {handle : Int} {oi : ObjectInfo} {h : History} {s : PtpRuntime}

/-- An operation that hands nothing on. -/
theorem handed_snoc_none {e : Event Op Op.Ret} (he : handedOf e = none) :
    handed (h ++ [e]) = handed h := by
  simp [handed, he]

theorem handed_snoc_some {e : Event Op Op.Ret} {c : UInt32 × List UInt8}
    (he : handedOf e = some c) : handed (h ++ [e]) = handed h ++ [c] := by
  simp [handed, he]

/-- The code a download is left with. -/
def Exit.code : Exit → Rc
  | cleanup rc => rc
  | leave rc => rc

/-- A result that is no error comes only with the whole object. -/
def HandsAll (content : List UInt8) (rc : Rc) (h : History) : Prop :=
  ∃ n, HandedUpTo content n (handed h) ∧ (rc = .ok → n = content.length)

/-- Where the loop stands: the size that was announced is right, and what has been handed on ends
at `read`. -/
def StandsAt (content : List UInt8) (size read : UInt32) (h : History) : Prop :=
  size.toNat = content.length ∧ HandedUpTo content read.toNat (handed h)

theorem StandsAt.snoc {content : List UInt8} {size read : UInt32} {e : Event Op Op.Ret}
    (hh : StandsAt content size read h) (he : handedOf e = none) :
    StandsAt content size read (h ++ [e]) := by
  rw [StandsAt, handed_snoc_none he]
  exact hh

theorem StandsAt.handsOn {content : List UInt8} {size read : UInt32}
    (hh : StandsAt content size read h) : HandsOn content h := ⟨_, hh.2⟩

theorem StandsAt.fails {content : List UInt8} {size read : UInt32} {rc : Rc}
    (hh : StandsAt content size read h) (hrc : rc ≠ .ok) : HandsAll content rc h :=
  ⟨_, hh.2, fun hok => absurd hok hrc⟩

/-- The next chunk is handed on. -/
theorem StandsAt.chunk {content buf : List UInt8} {size read : UInt32}
    (hh : StandsAt content size read h) (hbuf : buf <+: content.drop read.toNat) (rc : Int) :
    StandsAt content size (read + UInt32.ofNat buf.length) (h ++ [added buf read size rc]) := by
  have hwithin := hh.2.within
  have hle := hbuf.length_le
  rw [List.length_drop] at hle
  have hbound : read.toNat + buf.length ≤ size.toNat := by
    rw [hh.1]
    omega
  have hsize := size.toNat_lt
  have hlen : (UInt32.ofNat buf.length).toNat = buf.length :=
    UInt32.toNat_ofNat_of_lt' (by rw [UInt32.size]; omega)
  refine ⟨hh.1, ?_⟩
  have hchunk : handedOf (added buf read size rc) = some (read, buf) := by
    rw [added, handedOf, hlen, List.take_length]
  rw [toNat_read hbound, handed_snoc_some hchunk]
  exact hh.2.snoc rfl hbuf

/-- **The loop hands on what stands in the object.** -/
theorem downloadLoop_handsOn {fuel : ℕ} {read : UInt32}
    (hinv : Serving store (StandsAt (store handle) oi.compressedSize read) h) :
    Always (Serving store (HandsOn (store handle))) (downloadLoop handle oi fuel read)
      (fun h' exit _ => Serving store (HandsAll (store handle) exit.code) h') h s := by
  have hnow {read : UInt32} {h : History}
      (hinv : Serving store (StandsAt (store handle) oi.compressedSize read) h) :
      Serving store (HandsOn (store handle)) h := fun hserves => (hinv hserves).handsOn
  have hfails {read : UInt32} {h : History} {rc : Rc}
      (hinv : Serving store (StandsAt (store handle) oi.compressedSize read) h)
      (hrc : rc ≠ .ok) : Serving store (HandsAll (store handle) rc) h :=
    fun hserves => (hinv hserves).fails hrc
  induction fuel generalizing read h s with
  | zero => exact always_hang (hnow hinv)
  | succ fuel ih =>
    rw [downloadLoop]
    refine always_call_bind (hnow hinv) fun cancelled => ?_
    have hinv₁ := hinv.snoc (e := ⟨.checkThreadCancel, cancelled⟩) fun hP _ => hP.snoc rfl
    refine always_ite (fun _ => always_pure (hnow hinv₁) (hfails hinv₁ (by simp [Exit.code]))) fun _ => ?_
    refine always_transact_bind (hnow hinv₁) fun r => ?_
    have hinv₂ := hinv₁.snoc (e := ⟨.ptp (.getPartialObject handle read _), r⟩) fun hP _ =>
      hP.snoc rfl
    refine always_ite (fun hcode => always_pure (hnow hinv₂) (hfails hinv₂ (by simp [Exit.code, hcode])))
      fun _ => ?_
    refine always_ite (fun _ => ?_) fun hrc => ?_
    · refine always_call_bind (hnow hinv₂) fun unlocked => ?_
      have hinv₃ := hinv₂.snoc (e := ⟨.mutexUnlock, unlocked⟩) fun hP _ => hP.snoc rfl
      exact always_pure (hnow hinv₃) (hfails hinv₃ (by assumption))
    -- the chunk that the camera has sent
    have hsent := hinv₁.snoc (e := ⟨.ptp (.getPartialObject handle read _), r⟩)
      (Q := fun h => StandsAt (store handle) oi.compressedSize read h ∧
        r.payload <+: (store handle).drop read.toNat) fun hP he =>
        ⟨hP.snoc rfl, (he (not_not.mp hrc)).1⟩
    refine always_get_bind.mpr (always_call_bind (hnow hinv₂) fun told => ?_)
    have hinv₃ := hsent.snoc (e := ⟨.reportDownloadSpeed _, told⟩)
      (Q := fun h => StandsAt (store handle) oi.compressedSize read h ∧
        r.payload <+: (store handle).drop read.toNat) fun hP _ => ⟨hP.1.snoc rfl, hP.2⟩
    have hstands : Serving store (StandsAt (store handle) oi.compressedSize read) _ :=
      fun hserves => (hinv₃ hserves).1
    refine always_ite (fun _ => always_pure (hnow hstands) (hfails hstands (by simp [Exit.code]))) fun _ => ?_
    refine always_call_bind (hnow hstands) fun rc => ?_
    have hinv₄ := hinv₃.snoc (e := added r.payload read oi.compressedSize rc) fun hP _ =>
      hP.1.chunk hP.2 rc
    refine always_ite (fun _ => always_pure (hnow hinv₄) (hfails hinv₄ (by simp [Exit.code]))) fun _ => ?_
    refine always_ite (fun hge => always_pure (hnow hinv₄) fun hserves => ?_) fun _ => ih hinv₄
    -- what has been handed on ends with the object
    have hend := hinv₄ hserves
    refine ⟨_, hend.2, fun _ => ?_⟩
    have hwithin := hend.2.within
    have hge' := UInt32.le_iff_toNat_le.mp hge
    rw [hend.1] at hge'
    exact Nat.le_antisymm hwithin hge'

theorem downloadObject_handsOn {fuel : ℕ} {info : Bool} (hnone : handed h = []) :
    Always (Serving store (HandsOn (store handle))) (downloadObject fuel handle info)
      (fun h' exit _ => Serving store (HandsAll (store handle) exit.code) h') h s := by
  have hempty {t : History} (ht : handed t = []) : HandedUpTo (store handle) 0 (handed t) := by
    rw [ht]
    exact handedUpTo_nil _
  have hstart : Serving store (fun t => HandedUpTo (store handle) 0 (handed t)) h :=
    fun _ => hempty hnone
  refine always_transact_bind (fun hserves => ⟨0, hstart hserves⟩) fun r => ?_
  have hinv₁ := hstart.snoc (e := ⟨.ptp (.getObjectInfo handle), r⟩)
    (Q := fun t => HandedUpTo (store handle) 0 (handed t)) fun hP _ => by
      rwa [handed_snoc_none rfl]
  refine always_ite (fun hrc => always_pure (fun hserves => ⟨0, hinv₁ hserves⟩)
    fun hserves => ⟨0, hinv₁ hserves, fun hok => absurd hok hrc⟩) fun hrc => ?_
  have hsize := hstart.snoc (e := ⟨.ptp (.getObjectInfo handle), r⟩)
    (Q := StandsAt (store handle) (show ObjectInfo from r.out).compressedSize 0) fun hP he =>
      ⟨he (not_not.mp hrc), by rwa [handed_snoc_none rfl]⟩
  refine always_call_bind (fun hserves => (hsize hserves).handsOn) fun told => ?_
  have hinv₂ := hsize.snoc (e := ⟨.updateObjectInfo handle r.out, told⟩) fun hP _ => hP.snoc rfl
  refine always_ite (fun _ => ?_) fun _ => downloadLoop_handsOn hinv₂
  refine always_call_bind (fun hserves => (hinv₂ hserves).handsOn) fun called => ?_
  exact downloadLoop_handsOn <|
    hinv₂.snoc (e := ⟨.downloadInfo r.out, called⟩) fun hP _ => hP.snoc rfl

/-- Operations that hand nothing on. -/
def Op.HandsNothing : Op → Prop
  | .handleAdd _ _ _ _ => False
  | .addFileContents _ _ _ _ _ _ => False
  | _ => True

theorem Op.HandsNothing.handedOf_eq {e : Event Op Op.Ret} (he : e.1.HandsNothing) :
    handedOf e = none := by
  obtain ⟨op, r⟩ := e
  cases op with
  | handleAdd buf len offset total => exact he.elim
  | addFileContents index name data size offset total => exact he.elim
  | _ => rfl

/-- A part that hands nothing on. -/
theorem always_silent {α : Type} {m : PtpM α} {P : History → Prop} (store : Store)
    (hm : Issues Op.HandsNothing m) (hP : ∀ t, handed t = [] → Serving store P (h ++ t)) :
    Always (Serving store P) m (fun h' _ _ => ∃ t, h' = h ++ t ∧ handed t = []) h s := by
  have hsilent {t : History} (hreach : Reaches m s t) : handed t = [] :=
    List.filterMap_eq_nil_iff.mpr fun e he => Op.HandsNothing.handedOf_eq (hm s t hreach e he)
  exact ⟨fun t hreach => hP t (hsilent hreach), fun t _ _ hrun => ⟨t, rfl, hsilent hrun.reaches⟩⟩

theorem Op.Polling.handsNothing {op : Op} (hop : op.Polling) : op.HandsNothing := by
  cases op <;> trivial

theorem openDownload_handsNothing : Issues Op.HandsNothing openDownload :=
  issues_openDownload (fun _ => Op.Polling.handsNothing) fun _ _ => trivial

theorem closeDownload_handsNothing (rc : Rc) : Issues Op.HandsNothing (closeDownload rc) :=
  issues_closeDownload (fun _ => Op.Polling.handsNothing) (fun _ _ => trivial) rc

/-- Over any other connection than WiFi the outcome of the download is what is returned. -/
theorem closeDownload_code {rc₀ rc : Rc} {s' : PtpRuntime}
    (hrun : Exec (closeDownload rc₀) s h rc s') (hwifi : s.transport ≠ .wirelessComm) :
    rc = rc₀ := by
  rw [closeDownload, exec_get_bind, if_neg hwifi] at hrun
  by_cases hxapp : s.transport = .xappWirelessComm
  · rw [if_pos hxapp] at hrun
    obtain ⟨r, h₁, rfl, hrest⟩ := exec_transact_bind.mp hrun
    obtain ⟨u, h₂, rfl, hend⟩ := exec_ask_bind.mp hrest
    cases hend
    rfl
  · rw [if_neg hxapp] at hrun
    obtain ⟨u, h₁, rfl, hend⟩ := exec_ask_bind.mp hrun
    cases hend
    rfl

/-- What a download returns over a connection where that is its outcome. -/
def Outcome (s : PtpRuntime) (rc : Rc) : Rc := if s.transport = .wirelessComm then .ioErr else rc

/-- **A download hands on what stands in the object**, and the whole object when it returns 0. -/
theorem fujiDownloadFileEx_handsOn (fuel : ℕ) (info : Bool) :
    Always (Serving store (HandsOn (store handle))) (fujiDownloadFileEx fuel handle info)
      (fun h' rc _ => Serving store (HandsAll (store handle) (Outcome s rc)) h') [] s := by
  have hempty (t : History) (ht : handed t = []) : HandedUpTo (store handle) 0 (handed t) := by
    rw [ht]
    exact handedUpTo_nil _
  have hopen : Always (Serving store (HandsOn (store handle))) openDownload
      (fun h' _ s' => handed h' = [] ∧ s'.transport = s.transport) [] s := by
    have hsilent := always_silent (P := HandsOn (store handle)) (h := []) (s := s) store
      openDownload_handsNothing fun t ht _ => ⟨0, hempty t ht⟩
    refine ⟨hsilent.reaches, fun h' rc s' hrun => ?_⟩
    obtain ⟨t, rfl, ht⟩ := hsilent.exec h' rc s' hrun
    exact ⟨ht, (openDownload_respects _ _ _ _ hrun).2⟩
  refine always_bind hopen fun h₁ rc s₁ hopened => ?_
  obtain ⟨hnone, hs₁⟩ := hopened
  refine always_ite (fun hrc => ?_) fun _ => ?_
  · refine always_pure (fun _ => ⟨0, hempty h₁ hnone⟩) fun _ => ⟨0, hempty h₁ hnone, fun hok => ?_⟩
    rw [Outcome] at hok
    split_ifs at hok
    exact absurd hok hrc
  have hlocked (locked : Unit) : handed (h₁ ++ [⟨.mutexLock, locked⟩]) = [] := by
    rw [handed_snoc_none rfl, hnone]
  refine always_call_bind (fun _ => ⟨0, hempty h₁ hnone⟩) fun locked => ?_
  -- the object, over the same connection
  have hobject : Always (Serving store (HandsOn (store handle))) (downloadObject fuel handle info)
      (fun h' exit s' => Serving store (HandsAll (store handle) exit.code) h' ∧
        s'.transport = s.transport) (h₁ ++ [⟨.mutexLock, locked⟩]) s₁ := by
    have hdown : Always (Serving store (HandsOn (store handle))) (downloadObject fuel handle info)
        (fun h' exit _ => Serving store (HandsAll (store handle) exit.code) h') _ s₁ :=
      downloadObject_handsOn (hlocked locked)
    refine ⟨hdown.reaches, fun h' exit s' hrun => ⟨hdown.exec h' exit s' hrun, ?_⟩⟩
    have hframe : wp (downloadObject fuel handle info) _ [] s₁ :=
      wp_downloadObject (by simp [Untouched]) fuel info s₁
    exact (wp_iff.mp hframe h' exit s' hrun).1.trans hs₁
  refine always_bind hobject fun h₂ exit s₂ hgot => ?_
  obtain ⟨hdone, hs₂⟩ := hgot
  have hpart : Serving store (HandsOn (store handle)) h₂ := by
    intro hserves
    obtain ⟨n, hn, -⟩ := hdone hserves
    exact ⟨n, hn⟩
  cases exit with
  | leave rc =>
    refine always_pure hpart fun hserves => ?_
    obtain ⟨n, hn, hok⟩ := hdone hserves
    refine ⟨n, hn, fun hout => hok ?_⟩
    rw [Outcome] at hout
    split_ifs at hout
    exact hout
  | cleanup rc₀ =>
    have hkept {t : History} (ht : handed t = []) : handed (h₂ ++ t) = handed h₂ := by
      rw [handed_append, ht, List.append_nil]
    have hserved {t : History} (hserves : ∀ e ∈ h₂ ++ t, store.Serves e) :
        ∀ e ∈ h₂, store.Serves e := fun e he => hserves e (List.mem_append_left _ he)
    have hsilent := always_silent (P := HandsOn (store handle)) (h := h₂) (s := s₂) store
      (closeDownload_handsNothing rc₀) fun t ht hserves => by
        rw [HandsOn, hkept ht]
        exact hpart (hserved hserves)
    refine ⟨hsilent.reaches, fun h' rc s' hrun hserves => ?_⟩
    obtain ⟨t, heq, ht⟩ := hsilent.exec h' rc s' hrun
    obtain rfl := List.append_cancel_left heq
    obtain ⟨n, hn, hok⟩ := hdone (hserved hserves)
    refine ⟨n, by rwa [hkept ht], fun hout => ?_⟩
    rw [Outcome] at hout
    split_ifs at hout with hwifi
    rw [closeDownload_code hrun (hs₂.trans_ne hwifi)] at hout
    exact hok hout

/-- **The download of a live file hands on what stands in the object**, of less than 2^32 bytes. -/
theorem appPtpDownloadLoop_handsOn {objectId index : Int} {max read : UInt32} {fuel : ℕ}
    (hsmall : (store objectId).length < 2 ^ 32)
    (hinv : Serving store (fun t => HandedUpTo (store objectId) read.toNat (handed t)) h) :
    Always (Serving store (HandsOn (store objectId)))
      (appPtpDownloadLoop oi objectId max index fuel read)
      (fun h' _ _ => Serving store (HandsOn (store objectId)) h') h s := by
  have hnow {read : UInt32} {h : History}
      (hinv : Serving store (fun t => HandedUpTo (store objectId) read.toNat (handed t)) h) :
      Serving store (HandsOn (store objectId)) h := fun hserves => ⟨_, hinv hserves⟩
  have hsilent {read : UInt32} {h : History} {e : Event Op Op.Ret}
      (hinv : Serving store (fun t => HandedUpTo (store objectId) read.toNat (handed t)) h)
      (he : handedOf e = none) :
      Serving store (fun t => HandedUpTo (store objectId) read.toNat (handed t)) (h ++ [e]) :=
    hinv.snoc fun hP _ => by rwa [handed_snoc_none he]
  induction fuel generalizing read h s with
  | zero => exact always_hang (hnow hinv)
  | succ fuel ih =>
    have hend {read : UInt32} {h : History} {s : PtpRuntime}
        (hinv : Serving store (fun t => HandedUpTo (store objectId) read.toNat (handed t)) h) :
        Always (Serving store (HandsOn (store objectId))) (endDownload oi index read)
          (fun h' _ _ => Serving store (HandsOn (store objectId)) h') h s := by
      refine always_call_bind (hnow hinv) fun told => ?_
      have hinv₁ := hsilent hinv (e := ⟨.addFileContents index liveStorageDeviceName none 0 read
        oi.compressedSize, told⟩) rfl
      exact always_pure (hnow hinv₁) (hnow hinv₁)
    rw [appPtpDownloadLoop]
    refine always_call_bind (hnow hinv) fun locked => ?_
    have hinv₁ := hsilent hinv (e := ⟨.mutexLock, locked⟩) rfl
    refine always_transact_bind (hnow hinv₁) fun r => ?_
    have hinv₂ := hsilent hinv₁ (e := ⟨.ptp (.getPartialObject objectId read max), r⟩) rfl
    refine always_ite (fun _ => ?_) fun hrc => ?_
    · refine always_call_bind (hnow hinv₂) fun unlocked => ?_
      have hinv₃ := hsilent hinv₂ (e := ⟨.mutexUnlock, unlocked⟩) rfl
      exact always_pure (hnow hinv₃) (hnow hinv₃)
    refine always_get_bind.mpr (always_ite (fun _ => ?_) fun _ => ?_)
    · refine always_call_bind (hnow hinv₂) fun unlocked => hend ?_
      exact hsilent hinv₂ (e := ⟨.mutexUnlock, unlocked⟩) rfl
    refine always_call_bind (hnow hinv₂) fun told => ?_
    -- the chunk ends inside of the object, so that `read` does not overflow
    have hinv₃ : Serving store
        (fun t => HandedUpTo (store objectId) (read + UInt32.ofNat r.payload.length).toNat (handed t))
        (h ++ [⟨.mutexLock, locked⟩] ++ [⟨.ptp (.getPartialObject objectId read max), r⟩] ++
          [⟨.addFileContents index liveStorageDeviceName (some r.payload) r.payload.length read
            oi.compressedSize, told⟩]) := by
      intro hserves
      have hbefore : ∀ e ∈ h ++ [⟨.mutexLock, locked⟩] ++
          [⟨.ptp (.getPartialObject objectId read max), r⟩], store.Serves e :=
        fun e he => hserves e (List.mem_append_left _ he)
      have hcs := hinv₂ hbefore
      have hsent := (hbefore ⟨.ptp (.getPartialObject objectId read max), r⟩ (by simp)
        (not_not.mp hrc)).1
      have hle := hsent.length_le
      have hwithin := hcs.within
      rw [List.length_drop] at hle
      have hread : (read + UInt32.ofNat r.payload.length).toNat = read.toNat + r.payload.length := by
        rw [UInt32.toNat_add, UInt32.toNat_ofNat_of_lt' (by rw [UInt32.size]; omega)]
        omega
      have hchunk : handedOf ⟨.addFileContents index liveStorageDeviceName (some r.payload)
          r.payload.length read oi.compressedSize, told⟩ = some (read, r.payload) := by
        rw [handedOf, List.take_length]
      rw [hread, handed_snoc_some hchunk]
      exact hcs.snoc rfl hsent
    refine always_call_bind (hnow hinv₃) fun unlocked => ?_
    have hinv₄ := hsilent hinv₃ (e := ⟨.mutexUnlock, unlocked⟩) rfl
    exact always_ite (fun _ => hend hinv₄) fun _ => ih hinv₄

end Download

/-! ### Requests of the frontend -/

/-- The object that is downloaded for a file. -/
def FileHandle.object (file : FileHandle) : Int :=
  if file.storageName = some liveStorageDeviceName then 1 else file.indexInView + 1

/-- The camera answers the module from its store. -/
def Store.ServesModule (store : Store) : Event FileOp FileOp.Ret → Prop
  | ⟨.base op, r⟩ => store.Serves ⟨op, r⟩
  | _ => True

/-- What the frontend is handed: the file that it is told to be of, and the chunk with its
offset. -/
def shownOf : Event FileOp FileOp.Ret → Option ((Int × String) × UInt32 × List UInt8)
  | ⟨.base (.addFileContents index name (some data) size offset _), _⟩ =>
    some ((index, name), offset, data.take size)
  | _ => none

/-- What the frontend has been handed, in its order. -/
def shown (h : FileHistory) : List ((Int × String) × UInt32 × List UInt8) := h.filterMap shownOf

/-- Contents are of the file, and of a length that fits in 32 bits unless it is a live one. -/
def ForFile (file : FileHandle) : FileOp → Prop
  | .base (.addFileContents index name (some _) size _ _) =>
    (index, name) = (file.indexInView, file.storageName.getD "") ∧
      (file.storageName ≠ some liveStorageDeviceName → size < 2 ^ 32)
  -- chunks are handed on as contents
  | .base (.handleAdd _ _ _ _) => False
  | _ => True

/-- The operations of the download of a live file. -/
def Op.OfLive (file : FileHandle) : Op → Prop
  | .handleAdd _ _ _ _ => False
  | .addFileContents index name _ _ _ _ =>
    (index, name) = (file.indexInView, file.storageName.getD "") ∧
      file.storageName = some liveStorageDeviceName
  | _ => True

/-- The operations of the download of a file of a gallery. -/
def Op.OfGallery : Op → Prop
  | .addFileContents _ _ _ _ _ _ => False
  | _ => True

/-- How the module answered the download of a live file. -/
def seenLive : Event FileOp FileOp.Ret → Option (Event Op Op.Ret)
  | ⟨.base op, r⟩ => some ⟨op, r⟩
  | _ => none

/-- How the module answered the download of a file of a gallery: contents are chunks that have been
taken. -/
def seenGallery : Event FileOp FileOp.Ret → Option (Event Op Op.Ret)
  | ⟨.base (.addFileContents _ _ (some data) size offset total), _⟩ =>
    some ⟨.handleAdd data (UInt32.ofNat size) offset total, (0 : Int)⟩
  | ⟨.base op, r⟩ => some ⟨op, r⟩
  | _ => none

section Requests

variable {store : Store} {file : FileHandle} {job : Int} {priv priv' : FilesPriv}
  {h t : FileHistory} {fuel : ℕ}

/-- Reports of the progress are not seen. -/
theorem notify_unseen : Issues (fun op => ∀ op', op ≠ .base op') notify := by
  have hreport (size : UInt32) :
      Issues (fun op => ∀ op', op ≠ .base op') (ptpReportReadProgress size) := by
    refine issues_bind issues_get fun priv => issues_ite ?_ (issues_pure _)
    refine issues_bind (issues_modify _) fun _ => issues_ite ?_ ?_
    · exact issues_call (by simp)
    · exact issues_call (by simp)
  have hreports (sizes : List UInt32) :
      Issues (fun op => ∀ op', op ≠ .base op') (reportReads sizes) := by
    induction sizes with
    | nil => exact issues_pure _
    | cons size sizes ih => exact issues_bind (hreport size) fun _ => ih
  exact issues_bind (issues_call (by simp)) hreports

/-- A chunk is noted, and handed on. -/
theorem answer_handleAdd (buf : List UInt8) (len offset total : UInt32) :
    answer job file (.handleAdd buf len offset total) () =
      ((do notify; modify fun priv => { priv with toReadTarget := total } : FileM Unit) >>= fun _ =>
        call (.base (.addFileContents file.indexInView (file.storageName.getD "") (some buf)
          len.toNat offset total)) >>= fun _ => pure ((0 : Int), ())) := by
  simp only [answer, downloadAdd, askFile, bind_assoc, pure_bind]

/-- **The module answers a download as the view shows it**, where the view shows its operations as
they are, and contents as chunks that have been taken. -/
theorem answer_mirrors {v : Event FileOp FileOp.Ret → Option (Event Op Op.Ret)} {A : Op → Prop}
    (hnone : ∀ op r, (∀ op', op ≠ .base op') → v ⟨op, r⟩ = none)
    (hbase : ∀ op r, A op → (∀ buf len offset total, op ≠ .handleAdd buf len offset total) →
      v ⟨.base op, r⟩ = some ⟨op, r⟩)
    (hadd : ∀ buf len offset total u, A (.handleAdd buf len offset total) →
      v ⟨.base (.addFileContents file.indexInView (file.storageName.getD "") (some buf) len.toNat
        offset total), u⟩ = some ⟨.handleAdd buf len offset total, (0 : Int)⟩) :
    Mirrors v A (answer job file) := by
  have hnotify : Unseen v notify := notify_unseen.mono fun op hop r => hnone op r hop
  have hpure {α : Type} (a : α) : Unseen v (pure a : FileM α) := issues_pure a
  have hinit (oi : ObjectInfo) : Unseen v (do downloadInit job oi; return ((), ())) :=
    issues_bind (issues_bind (issues_modify _) fun _ => issues_call fun r => hnone _ r (by simp))
      fun _ => hpure _
  have htarget (total : UInt32) :
      Unseen v (do notify; modify fun priv => { priv with toReadTarget := total } : FileM Unit) :=
    issues_bind hnotify fun _ => issues_modify _
  constructor
  · intro op u s h r s' hop hrun
    cases op with
    | handleAdd buf len offset total =>
      rw [answer_handleAdd] at hrun
      obtain ⟨u, s₁, t, heq, hret⟩ := exec_seen (htarget total) (fun _ => hpure _) hrun
      obtain ⟨-, rfl, -⟩ := hret.eq_of_ret rfl
      rw [heq, List.filterMap_cons_some (hadd buf len offset total u hop)]
      rfl
    | downloadInfo oi =>
      obtain ⟨u, s₁, t, heq, -⟩ := exec_seen hnotify (fun _ => hinit oi) hrun
      rw [heq, List.filterMap_cons_some (hbase _ _ hop (by simp))]
      rfl
    | _ =>
      obtain ⟨r, s₁, t, heq, hret⟩ := exec_seen hnotify (fun _ => hpure _) hrun
      obtain ⟨-, rfl, -⟩ := hret.eq_of_ret rfl
      rw [heq, List.filterMap_cons_some (hbase _ _ hop (by simp))]
      rfl
  · intro op u s h hop hreach
    cases op with
    | handleAdd buf len offset total =>
      rw [answer_handleAdd] at hreach
      rcases reaches_seen (htarget total) (fun _ => hpure _) hreach with hnil | ⟨u, heq⟩
      · exact .inl hnil
      · rw [heq, List.filterMap_cons_some (hadd buf len offset total u hop)]
        exact .inr ⟨_, rfl⟩
    | downloadInfo oi =>
      rcases reaches_seen hnotify (fun _ => hinit oi) hreach with hnil | ⟨u, heq⟩
      · exact .inl hnil
      · rw [heq, List.filterMap_cons_some (hbase _ _ hop (by simp))]
        exact .inr ⟨_, rfl⟩
    | _ =>
      rcases reaches_seen hnotify (fun _ => hpure _) hreach with hnil | ⟨r, heq⟩
      · exact .inl hnil
      · rw [heq, List.filterMap_cons_some (hbase _ _ hop (by simp))]
        exact .inr ⟨_, rfl⟩

theorem answer_mirrors_live : Mirrors seenLive (Op.OfLive file) (answer job file) := by
  refine answer_mirrors (fun op r hop => ?_) (fun op r _ _ => rfl) fun _ _ _ _ _ => False.elim
  cases op with
  | base op' => exact absurd rfl (hop op')
  | _ => rfl

theorem answer_mirrors_gallery : Mirrors seenGallery Op.OfGallery (answer job file) := by
  refine answer_mirrors (fun op r hop => ?_) (fun op r hop _ => ?_) fun buf len _ _ _ _ => ?_
  · cases op with
    | base op' => exact absurd rfl (hop op')
    | _ => rfl
  · cases op with
    | addFileContents index name data size offset total => exact hop.elim
    | _ => rfl
  · rw [seenGallery, UInt32.ofNat_toNat]

/-- What is answered is for the file. -/
theorem answer_forFile {op : Op} {A : Op → Prop} (hop : A op)
    (hA : ∀ index name data size offset total, A (.addFileContents index name data size offset total) →
      ForFile file (.base (.addFileContents index name data size offset total))) :
    Issues (ForFile file) (answer job file op ()) := by
  have hnotify : Issues (ForFile file) notify := by
    refine notify_unseen.mono fun op hop => ?_
    cases op with
    | base op' => exact absurd rfl (hop op')
    | _ => trivial
  have hother (op : Op) (hop : ForFile file (.base op)) : Issues (ForFile file)
      (do notify; let r : op.Ret ← askFile (.base op); return (r, ())) :=
    issues_bind hnotify fun _ => issues_bind (issues_call hop) fun _ => issues_pure _
  cases op with
  | handleAdd buf len offset total =>
    refine issues_bind hnotify fun _ => issues_bind ?_ fun _ => issues_pure _
    refine issues_bind (issues_modify _) fun _ => issues_bind (issues_call ?_) fun _ => issues_pure _
    exact ⟨rfl, fun _ => len.toNat_lt⟩
  | downloadInfo oi =>
    refine issues_bind hnotify fun _ => issues_bind (issues_call trivial) fun _ => ?_
    refine issues_bind ?_ fun _ => issues_pure _
    exact issues_bind (issues_modify _) fun _ => issues_call trivial
  | addFileContents index name data size offset total => exact hother _ (hA _ _ _ _ _ _ hop)
  | _ => exact hother _ trivial

/-! ### What the programs issue -/

theorem fujiDownloadFileEx_ofGallery (handle : Int) :
    Issues Op.OfGallery (fujiDownloadFileEx fuel handle true) :=
  issues_fujiDownloadFileEx (fun op hop => by cases op <;> trivial) (fun _ _ => trivial)
    (fun op hop => by cases op <;> trivial) handle true

theorem appPtpDownloadFile_ofLive (hlive : file.storageName = some liveStorageDeviceName)
    (oi : ObjectInfo) (objectId : Int) (max : UInt32) :
    Issues (Op.OfLive file) (appPtpDownloadFile fuel oi objectId max file.indexInView) := by
  have hfile (data : Option (List UInt8)) (size : ℕ) (offset total : UInt32) :
      Op.OfLive file
        (.addFileContents file.indexInView liveStorageDeviceName data size offset total) :=
    ⟨by rw [hlive, Option.getD_some], hlive⟩
  have hend (read : UInt32) : Issues (Op.OfLive file) (endDownload oi file.indexInView read) :=
    issues_bind (issues_ask (hfile _ _ _ _)) fun _ => issues_pure _
  have hloop (read : UInt32) :
      Issues (Op.OfLive file) (appPtpDownloadLoop oi objectId max file.indexInView fuel read) := by
    induction fuel generalizing read with
    | zero => exact issues_hang
    | succ fuel ih =>
      refine issues_bind (issues_ask trivial) fun _ => ?_
      refine issues_bind (issues_transact trivial) fun r => ?_
      refine issues_ite (issues_bind (issues_ask trivial) fun _ => issues_pure _) ?_
      refine issues_bind issues_get fun s => issues_ite ?_ ?_
      · exact issues_bind (issues_ask trivial) fun _ => hend read
      · refine issues_bind (issues_ask (hfile _ _ _ _)) fun _ => ?_
        refine issues_bind (issues_ask trivial) fun _ => ?_
        exact issues_ite (hend _) (ih _)
  exact hloop 0

theorem onModule_issues {B : FileOp → Prop} {α : Type} {m : ModM α} {A : Op → Prop}
    (hm : Issues A m) (hf : ∀ op, A op → Issues B (answer job file op ())) :
    Issues B (onModule job file m) := by
  refine issues_bind issues_get fun priv => issues_bind ?_ fun out => ?_
  · exact issues_interp (fun op _ => hf op) (fun op => ⟨accessPoint op⟩) (hm priv.toModulePriv)
  · exact issues_bind (issues_modify _) fun _ => issues_pure _

/-- All that the frontend is handed in a request is of the file that it has requested. -/
theorem onRequestFileContents_forFile :
    Issues (ForFile file) (onRequestFileContents fuel job file) := by
  have hend (rc : Rc) : Issues (ForFile file) (endRequest job file rc) := by
    have hnotify : Issues (ForFile file) notify := by
      refine notify_unseen.mono fun op hop => ?_
      cases op with
      | base op' => exact absurd rfl (hop op')
      | _ => trivial
    refine issues_bind hnotify fun _ => issues_bind (issues_call trivial) fun _ => ?_
    refine issues_bind (issues_modify _) fun _ => issues_ite ?_ (issues_pure _)
    exact onModule_issues (issues_handlePtperr (A := Op.OfGallery) rc trivial) fun op hop =>
      answer_forFile hop fun _ _ _ _ _ _ => False.elim
  refine issues_bind issues_get fun priv => ?_
  cases priv.r with
  | none => exact issues_pure _
  | some r =>
    by_cases hlive : file.storageName = some liveStorageDeviceName
    · simp only [if_pos hlive]
      refine issues_bind ?_ hend
      refine issues_bind (issues_modify _) fun _ => issues_bind (issues_call trivial) fun _ => ?_
      refine onModule_issues (withRuntime_issues (appPtpDownloadFile_ofLive hlive _ 1 _)) fun op hop =>
        answer_forFile hop fun index name data size offset total hA => ?_
      cases data with
      | none => trivial
      | some data => exact ⟨hA.1, absurd hlive⟩
    · simp only [if_neg hlive]
      refine issues_bind ?_ hend
      refine issues_bind (issues_call trivial) fun _ => ?_
      exact onModule_issues (withRuntime_issues (fujiDownloadFileEx_ofGallery _)) fun op hop =>
        answer_forFile hop fun _ _ _ _ _ _ => False.elim

/-! ### What the frontend is handed -/

/-- As long as the camera answers from its store, and contents are of the file. -/
def ShowsServing (store : Store) (file : FileHandle)
    (P : List (UInt32 × List UInt8) → Prop) (h : FileHistory) : Prop :=
  (∀ e ∈ h, store.ServesModule e ∧ ForFile file e.1) → P ((shown h).map Prod.snd)

theorem shown_append : shown (h ++ t) = shown h ++ shown t := List.filterMap_append

/-- The view of a gallery shows the chunks that the frontend is handed. -/
theorem handed_seenGallery (hgallery : file.storageName ≠ some liveStorageDeviceName)
    (ht : ∀ e ∈ t, ForFile file e.1) :
    handed (t.filterMap seenGallery) = (shown t).map Prod.snd := by
  rw [handed, shown, List.filterMap_filterMap, List.map_filterMap]
  refine List.filterMap_congr fun e he => ?_
  obtain ⟨op, r⟩ := e
  cases op with
  | base op =>
    cases op with
    | addFileContents index name data size offset total =>
      cases data with
      | none => rfl
      | some data =>
        have hsize : size < 2 ^ 32 := (ht _ he).2 hgallery
        rw [seenGallery, Option.bind_some, handedOf, UInt32.toNat_ofNat_of_lt' hsize]
        rfl
    | handleAdd buf len offset total => exact (ht _ he).elim
    | _ => rfl
  | _ => rfl

theorem handed_seenLive (ht : ∀ e ∈ t, ForFile file e.1) :
    handed (t.filterMap seenLive) = (shown t).map Prod.snd := by
  rw [handed, shown, List.filterMap_filterMap, List.map_filterMap]
  refine List.filterMap_congr fun e he => ?_
  obtain ⟨op, r⟩ := e
  cases op with
  | base op =>
    cases op with
    | addFileContents index name data size offset total => cases data <;> rfl
    | handleAdd buf len offset total => exact (ht _ he).elim
    | _ => rfl
  | _ => rfl

theorem serves_seenGallery (ht : ∀ e ∈ t, store.ServesModule e) :
    ∀ e ∈ t.filterMap seenGallery, store.Serves e := by
  intro e he
  obtain ⟨⟨op, r⟩, hmem, hseen⟩ := List.mem_filterMap.mp he
  have hserves := ht _ hmem
  cases op with
  | base op =>
    cases op with
    | addFileContents index name data size offset total =>
      cases data <;> cases hseen <;> trivial
    | _ =>
      cases hseen
      exact hserves
  | _ => cases hseen

theorem serves_seenLive (ht : ∀ e ∈ t, store.ServesModule e) :
    ∀ e ∈ t.filterMap seenLive, store.Serves e := by
  intro e he
  obtain ⟨⟨op, r⟩, hmem, hseen⟩ := List.mem_filterMap.mp he
  have hserves := ht _ hmem
  cases op with
  | base op =>
    cases hseen
    exact hserves
  | _ => cases hseen

/-- A part of a request of which nothing is shown. -/
theorem always_unshown {α : Type} {m : FileM α} {P I : List (UInt32 × List UInt8) → Prop}
    (hm : Issues (fun op => ∀ r, shownOf ⟨op, r⟩ = none) m) (hP : ShowsServing store file P h)
    (hI : ∀ cs, P cs → I cs) :
    Always (ShowsServing store file I) m (fun h' _ _ => ShowsServing store file P h') h priv := by
  have hkept {t : FileHistory} (hreach : Reaches m priv t) : ShowsServing store file P (h ++ t) := by
    intro hserves
    have ht : shown t = [] :=
      List.filterMap_eq_nil_iff.mpr fun e he => hm priv t hreach e he e.2
    rw [shown_append, ht, List.append_nil]
    exact hP fun e he => hserves e (List.mem_append_left _ he)
  exact ⟨fun t hreach hserves => hI _ (hkept hreach hserves), fun t _ _ hrun => hkept hrun.reaches⟩

theorem always_withRuntime {α : Type} {m : PtpM α} {mod : ModulePriv} {I : History → Prop}
    {Q : History → α → ModulePriv → Prop} {h : History} (hI : I h)
    (hm : ∀ r, mod.r = some r → Always I m (fun h' a r' => Q h' a { mod with r := some r' }) h r) :
    Always I (withRuntime m) Q h mod := by
  cases hr : mod.r with
  | none =>
    have hnull : withRuntime m mod = hang mod := by simp [withRuntime, hr, hang]
    refine ⟨fun t hreach => ?_, fun t a mod' hrun => ?_⟩
    · rw [Reaches, hnull] at hreach
      exact (always_hang (Q := Q) hI).reaches t hreach
    · rw [Exec, hnull] at hrun
      exact (always_hang hI).exec t a mod' hrun
  | some r =>
    refine ⟨fun t hreach => ?_, fun t a mod' hrun => ?_⟩
    · rw [Reaches, withRuntime, hr] at hreach
      rcases Prog.Reaches.of_bind hreach with hreach | ⟨h₁, out, h₂, rfl, hrun, hret⟩
      · exact (hm r hr).reaches t hreach
      · cases hret
        rw [List.append_nil]
        exact (hm r hr).reaches h₁ hrun.reaches
    · obtain ⟨r₀, r', hr₀, hrun₀, rfl⟩ := exec_withRuntime.mp hrun
      exact (hm r₀ hr₀).exec t a r' hrun₀

/-- A download of a request, as the view shows it. -/
theorem onModule_shows {α : Type} {v : Event FileOp FileOp.Ret → Option (Event Op Op.Ret)}
    {A : Op → Prop} {m : ModM α} {Q : α → List (UInt32 × List UInt8) → Prop}
    (hmirrors : Mirrors v A (answer job file)) (hA : Issues A m)
    (hhanded : ∀ t : FileHistory, (∀ e ∈ t, ForFile file e.1) →
      handed (t.filterMap v) = (shown t).map Prod.snd)
    (hserves : ∀ t : FileHistory, (∀ e ∈ t, store.ServesModule e) →
      ∀ e ∈ t.filterMap v, store.Serves e)
    (hm : Always (Serving store (HandsOn (store file.object))) m
      (fun h' a _ => Serving store (fun t => Q a (handed t)) h') [] priv.toModulePriv)
    (hQ : ∀ a cs, Q a cs → Begins (store file.object) cs) (hnone : shown h = []) :
    Always (ShowsServing store file (Begins (store file.object))) (onModule job file m)
      (fun h' a _ => ShowsServing store file (Q a) h') h priv := by
  -- what the view shows of the history behind `h`
  have hview {P : List (UInt32 × List UInt8) → Prop} {t : FileHistory}
      (hP : Serving store (fun t => P (handed t)) (t.filterMap v)) :
      ShowsServing store file P (h ++ t) := by
    intro hall
    have ht (e : Event FileOp FileOp.Ret) (he : e ∈ t) : store.ServesModule e ∧ ForFile file e.1 :=
      hall e (List.mem_append_right _ he)
    rw [shown_append, hnone, List.nil_append, ← hhanded t fun e he => (ht e he).2]
    exact hP (hserves t fun e he => (ht e he).1)
  refine always_get_bind.mpr (always_bind (Q := fun h' out _ => ShowsServing store file (Q out.1) h')
    (hmirrors.always (fun op => ⟨accessPoint op⟩) hA hm (fun t ht => hview ht)
      fun t a r' s' ht => hview ht) fun h' out priv' hout => ?_)
  have hbegins : ShowsServing store file (Begins (store file.object)) h' :=
    fun hall => hQ out.1 _ (hout hall)
  exact always_modify_bind.mpr (always_pure hbegins hout)

/-- What the download of a gallery leaves, with the code that it returns. -/
def Finishes (content : List UInt8) (priv : FilesPriv) (rc : Rc)
    (cs : List (UInt32 × List UInt8)) : Prop :=
  ∃ n, HandedUpTo content n cs ∧ ∀ r, priv.r = some r → Outcome r rc = .ok → n = content.length

theorem Finishes.begins {content : List UInt8} {rc : Rc} {cs : List (UInt32 × List UInt8)}
    (hcs : Finishes content priv rc cs) : Begins content cs :=
  let ⟨n, hn, _⟩ := hcs
  ⟨n, hn⟩

theorem requestGallery_shows (hgallery : file.storageName ≠ some liveStorageDeviceName) :
    Always (ShowsServing store file (Begins (store file.object))) (requestGallery fuel job file)
      (fun h' rc _ => ShowsServing store file (Finishes (store file.object) priv rc) h') [] priv := by
  have hobject : file.object = file.indexInView + 1 := if_neg hgallery
  have hstart (h : FileHistory) (hnone : shown h = []) :
      ShowsServing store file (Begins (store file.object)) h := by
    intro _
    rw [hnone]
    exact ⟨0, handedUpTo_nil _⟩
  refine always_call_bind (hstart [] rfl) fun u => ?_
  refine onModule_shows answer_mirrors_gallery
    (withRuntime_issues (fujiDownloadFileEx_ofGallery _)) (fun t => handed_seenGallery hgallery)
    (fun t => serves_seenGallery) ?_ (fun rc cs => Finishes.begins) rfl
  refine always_withRuntime (fun _ => ⟨0, handedUpTo_nil _⟩) fun r hr => ?_
  rw [hobject]
  refine (fujiDownloadFileEx_handsOn fuel true).mono fun h' rc r' hdone hserves => ?_
  obtain ⟨n, hn, hok⟩ := hdone hserves
  refine ⟨n, hn, fun r₀ hr₀ => ?_⟩
  obtain rfl : r = r₀ := Option.some.inj (hr.symm.trans hr₀)
  exact hok

theorem requestLive_shows (hlive : file.storageName = some liveStorageDeviceName)
    (hsmall : (store 1).length < 2 ^ 32) {r : PtpRuntime} :
    Always (ShowsServing store file (Begins (store file.object))) (requestLive fuel job file r)
      (fun h' _ _ => ShowsServing store file (Begins (store file.object)) h') [] priv := by
  have hobject : file.object = 1 := if_pos hlive
  have hstart : ShowsServing store file (Begins (store file.object)) [] :=
    fun _ => ⟨0, handedUpTo_nil _⟩
  refine always_modify_bind.mpr (always_call_bind hstart fun u => ?_)
  refine onModule_shows (Q := fun _ => Begins (store file.object)) answer_mirrors_live
    (withRuntime_issues (appPtpDownloadFile_ofLive hlive _ 1 _)) (fun t => handed_seenLive)
    (fun t => serves_seenLive) ?_ (fun rc cs => id) rfl
  refine always_withRuntime (fun _ => ⟨0, handedUpTo_nil _⟩) fun r hr => ?_
  rw [hobject]
  exact appPtpDownloadLoop_handsOn hsmall fun _ => handedUpTo_nil _

/-- The end of a request shows nothing. -/
theorem endRequest_unshown (rc : Rc) :
    Issues (fun op => ∀ r, shownOf ⟨op, r⟩ = none) (endRequest job file rc) := by
  have hnotify : Issues (fun op => ∀ r, shownOf ⟨op, r⟩ = none) notify := by
    refine notify_unseen.mono fun op hop r => ?_
    cases op with
    | base op' => exact absurd rfl (hop op')
    | _ => rfl
  refine issues_bind hnotify fun _ => issues_bind (issues_call fun _ => rfl) fun _ => ?_
  refine issues_bind (issues_modify _) fun _ => issues_ite ?_ (issues_pure _)
  refine onModule_issues (A := fun op => ∃ text, op = .fatalError text)
    (issues_handlePtperr rc ⟨_, rfl⟩) fun op hop => ?_
  obtain ⟨text, rfl⟩ := hop
  refine issues_bind hnotify fun _ => issues_bind (issues_call fun _ => rfl) fun _ => issues_pure _

/-- A request returns 0 only if its download has. -/
theorem endRequest_ok {rc : Rc} (hrun : Exec (endRequest job file rc) priv h .ok priv') :
    rc = .ok := by
  obtain ⟨h₁, _, priv₁, h₂, -, -, hrest⟩ := exec_of_bind hrun
  obtain ⟨_, h₃, -, hrest₁⟩ := exec_call_bind.mp hrest
  have hrest₂ := exec_modify_bind.mp hrest₁
  by_contra hrc
  rw [if_pos hrc] at hrest₂
  obtain ⟨h₄, ⟨pak, mod⟩, priv₂, h₅, -, hinterp, hret⟩ := exec_of_bind (exec_get_bind.mp hrest₂)
  obtain ⟨-, hpak, -⟩ := (exec_modify_bind.mp hret).eq_of_ret rfl
  obtain ⟨g, hg, -⟩ := exec_interp_iff.mp hinterp
  exact (handlePtperr_spec hg).1 hpak.symm

theorem onRequestFileContents_shows
    (hsmall : file.storageName = some liveStorageDeviceName → (store 1).length < 2 ^ 32) :
    Always (ShowsServing store file (Begins (store file.object)))
      (onRequestFileContents fuel job file)
      (fun h' pak _ => ShowsServing store file (fun cs => Begins (store file.object) cs ∧
        (file.storageName ≠ some liveStorageDeviceName → pak = .ok → ∀ r, priv.r = some r →
          r.transport ≠ .wirelessComm → HandedUpTo (store file.object) (store file.object).length cs))
        h') [] priv := by
  have hstart : ShowsServing store file (Begins (store file.object)) [] :=
    fun _ => ⟨0, handedUpTo_nil _⟩
  refine always_get_bind.mpr ?_
  cases hr : priv.r with
  | none => exact always_pure hstart fun hall => ⟨hstart hall, fun _ _ r => by simp⟩
  | some r =>
    refine always_ite (fun hlive => ?_) fun hgallery => ?_
    · refine always_bind (requestLive_shows hlive (hsmall hlive)) fun h' rc priv' hbegins => ?_
      refine (always_unshown (endRequest_unshown rc) hbegins fun _ => id).mono
        fun h'' pak priv'' hend hall => ⟨hend hall, fun hne => absurd hlive hne⟩
    · refine always_bind (requestGallery_shows hgallery) fun h' rc priv' hfin => ?_
      have hend : Always (ShowsServing store file (Begins (store file.object)))
          (endRequest job file rc) _ h' priv' :=
        always_unshown (endRequest_unshown rc) hfin fun _ => Finishes.begins
      refine ⟨hend.reaches, fun t pak priv'' hrun hall => ?_⟩
      have hdone := hend.exec t pak priv'' hrun hall
      refine ⟨hdone.begins, fun _ hok r₀ hr₀ hwifi => ?_⟩
      subst hok
      obtain rfl : r = r₀ := Option.some.inj hr₀
      obtain ⟨n, hn, hcomplete⟩ := hdone
      rw [← hcomplete r hr ?_]
      · exact hn
      · rw [Outcome, if_neg hwifi]
        exact endRequest_ok hrun

theorem shownServing_forFile {P : List (UInt32 × List UInt8) → Prop}
    (hP : ShowsServing store file P h) (hserves : ∀ e ∈ h, store.ServesModule e)
    (hreach : Reaches (onRequestFileContents fuel job file) priv h) : P ((shown h).map Prod.snd) :=
  hP fun e he => ⟨hserves e he, onRequestFileContents_forFile priv h hreach e he⟩

/-- **At any time of a request** the chunks are for the file, follow one another from its
beginning, and are what stands there in the object. -/
theorem onRequestFileContents_handsOn
    (hsmall : file.storageName = some liveStorageDeviceName → (store 1).length < 2 ^ 32)
    (hserves : ∀ e ∈ h, store.ServesModule e)
    (hreach : Reaches (onRequestFileContents fuel job file) priv h) :
    (∀ c ∈ shown h, c.1 = (file.indexInView, file.storageName.getD "")) ∧
      FollowsFrom 0 ((shown h).map Prod.snd) ∧
      ((shown h).map Prod.snd).flatMap Prod.snd <+: store file.object := by
  constructor
  · intro c hc
    obtain ⟨⟨op, r⟩, he, hshown⟩ := List.mem_filterMap.mp hc
    have hfile := onRequestFileContents_forFile priv h hreach _ he
    cases op with
    | base op =>
      cases op with
      | addFileContents index name data size offset total =>
        cases data with
        | none => cases hshown
        | some data =>
          cases hshown
          exact hfile.1
      | _ => cases hshown
    | _ => cases hshown
  · have hbegins : ShowsServing store file (Begins (store file.object)) h :=
      (onRequestFileContents_shows hsmall).reaches h hreach
    obtain ⟨n, hn⟩ := shownServing_forFile hbegins hserves hreach
    refine ⟨hn.follows, ?_⟩
    rw [hn.bytes]
    exact List.take_prefix ..

/-- **A request for a file of a gallery that returns 0**, over any connection but WiFi, has handed on the whole object. -/
theorem onRequestFileContents_complete (hgallery : file.storageName ≠ some liveStorageDeviceName)
    {r : PtpRuntime} (hr : priv.r = some r) (hwifi : r.transport ≠ .wirelessComm)
    (hserves : ∀ e ∈ h, store.ServesModule e)
    (hrun : Exec (onRequestFileContents fuel job file) priv h .ok priv') :
    ((shown h).map Prod.snd).flatMap Prod.snd = store file.object := by
  have hshows : ShowsServing store file _ h :=
    (onRequestFileContents_shows fun hlive => absurd hlive hgallery).exec h .ok priv' hrun
  have hall := (shownServing_forFile hshows hserves hrun.reaches).2 hgallery rfl r hr hwifi
  rw [hall.bytes, List.take_length]

/-- A camera with one object, of which it sends two bytes at a time. -/
def sparing (data : List UInt8) : (op : FileOp) → op.Ret
  | .base (.ptp (.getObjectInfo _)) =>
    ⟨.ok, [], { ObjectInfo.zero with compressedSize := UInt32.ofNat data.length }⟩
  | .base (.ptp (.getPartialObject _ offset cur)) =>
    ⟨.ok, (data.drop offset.toNat).take (min 2 cur.toNat), ()⟩
  | .base op => accessPoint op
  | .notified => []
  | .setProgressBar _ _ | .divideByZero => ()

theorem sparing_serves {data : List UInt8} (hdata : data.length < 2 ^ 32) (op : FileOp) :
    Store.ServesModule (fun _ => data) ⟨op, sparing data op⟩ := by
  cases op with
  | base op =>
    cases op with
    | ptp c =>
      cases c with
      | getObjectInfo handle => exact fun _ => UInt32.toNat_ofNat_of_lt' hdata
      | getPartialObject handle offset cur =>
        refine fun _ => ⟨List.take_prefix .., ?_⟩
        exact (List.length_take_le ..).trans (min_le_right ..)
      | _ => trivial
    | _ => trivial
  | _ => trivial

/-- A run that the camera answers. -/
theorem sparing_serves_run {data : List UInt8} (hdata : data.length < 2 ^ 32)
    (hans : ∀ e ∈ h, e.2 = sparing data e.1) : ∀ e ∈ h, Store.ServesModule (fun _ => data) e := by
  rintro ⟨op, r⟩ he
  obtain rfl : r = sparing data op := hans _ he
  exact sparing_serves hdata op

/-- Of a live file of three bytes, two are handed on: the first chunk is not full. -/
theorem onRequestFileContents_handsOn_live : ∃ h priv',
    Exec (onRequestFileContents 2 1 liveFile) (queuedModule 3) h .ok priv' ∧
      (shown h).map Prod.snd = [(0, [1, 2])] ∧
      ((shown h).map Prod.snd).flatMap Prod.snd <+: [1, 2, 3] := by
  have htrace : ((onRequestFileContents 2 1 liveFile (queuedModule 3)).trace (sparing [1, 2, 3])).map
      (fun r => (r.2.1, (shown r.1).map Prod.snd)) = some (PakRc.ok, [(0, [1, 2])]) := by
    decide +kernel
  obtain ⟨⟨h, pak, priv'⟩, hsome, heq⟩ := Option.map_eq_some_iff.mp htrace
  obtain ⟨rfl, hshown⟩ := Prod.mk.inj heq
  obtain ⟨hrun, hans⟩ := Prog.runs_of_trace hsome
  have hserves := sparing_serves_run (by simp) hans
  exact ⟨h, priv', hrun, hshown,
    (onRequestFileContents_handsOn (fun _ => by simp) hserves hrun.reaches).2.2⟩

/-- Three bytes of a file of a gallery, in two chunks. -/
theorem onRequestFileContents_complete_gallery : ∃ h priv',
    Exec (onRequestFileContents 2 1 ⟨some "gallery", 0⟩) (queuedModule 0) h .ok priv' ∧
      (shown h).map Prod.snd = [(0, [1, 2]), (2, [3])] ∧
      ((shown h).map Prod.snd).flatMap Prod.snd = [1, 2, 3] := by
  have htrace : ((onRequestFileContents 2 1 ⟨some "gallery", 0⟩ (queuedModule 0)).trace
      (sparing [1, 2, 3])).map (fun r => (r.2.1, (shown r.1).map Prod.snd)) =
      some (PakRc.ok, [(0, [1, 2]), (2, [3])]) := by
    decide +kernel
  obtain ⟨⟨h, pak, priv'⟩, hsome, heq⟩ := Option.map_eq_some_iff.mp htrace
  obtain ⟨rfl, hshown⟩ := Prod.mk.inj heq
  obtain ⟨hrun, hans⟩ := Prog.runs_of_trace hsome
  have hserves := sparing_serves_run (by simp) hans
  exact ⟨h, priv', hrun, hshown,
    onRequestFileContents_complete (by decide) rfl (by decide) hserves hrun⟩

end Requests

end Fuji
