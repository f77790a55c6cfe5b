/-
The loop of a download, against a camera that keeps to the lengths it is asked for.

Between two turns of the loop the chunks that have been passed on, all of them taken, cover the
object from 0 to `read`, which lies below its size (`TurnInv`).  From there
`downloadLoop_sure` gets everything at once: the loop comes to its end, asks only for ranges
inside the object, passes on contiguous chunks, and succeeds just if the chunks that were taken
add up to the size.  Every turn moves `read` on, so the size is a bound for their number.
-/
import LibFuji.Download

namespace Fuji

open Interaction

/-! ### Chunks -/

/-- A call of `handle_add`, with its return code. -/
structure Chunk where
  buf : List UInt8
  len : UInt32
  offset : UInt32
  total : UInt32
  rc : Int

/-- The call an event is, if any. -/
def chunkOf : Event Op Op.Ret → Option Chunk
  | ⟨.handleAdd buf len offset total, rc⟩ => some ⟨buf, len, offset, total, rc⟩
  | _ => none

/-- The calls of `handle_add`, in their order. -/
def chunks (h : History) : List Chunk := h.filterMap chunkOf

/-- The bytes of chunks. -/
def chunkBytes (cs : List Chunk) : ℕ := (cs.map (·.buf.length)).sum

/-- The bytes that `handle_add` has accepted. -/
def accepted (h : History) : ℕ := chunkBytes ((chunks h).filter (·.rc = 0))

/-- The chunks follow one another from `pos` on, and are told the same total. -/
def Contiguous (total : UInt32) : ℕ → List Chunk → Prop
  | _, [] => True
  | pos, c :: cs => (c.offset.toNat = pos ∧ c.len.toNat = c.buf.length ∧ c.total = total) ∧
      Contiguous total (pos + c.buf.length) cs

/-- A camera sends no more than it is asked for. -/
def KeepsLength : Event Op Op.Ret → Prop
  | ⟨.ptp (.getPartialObject handle offset cur), r⟩ =>
    let r : Resp (.getPartialObject handle offset cur) := r
    r.rc = .ok → r.payload.length ≤ cur.toNat
  | _ => True

/-- What is requested of an object of `size` bytes lies inside of it. -/
def RequestsInside (handle : Int) (size : UInt32) : Op → Prop
  | .ptp (.getPartialObject handle' offset cur) =>
    handle' = handle ∧ 0 < cur ∧ cur ≤ fujiMaxPartialObject ∧
      offset.toNat + cur.toNat ≤ size.toNat
  | _ => True

/-- What holds of a download at any time. -/
structure Orderly (handle : Int) (size : UInt32) (h : History) : Prop where
  inside : ∀ e ∈ h, RequestsInside handle size e.1
  contiguous : Contiguous size 0 (chunks h)

/-- Where the loop stands: what has been passed on has been taken, and ends at `read`. -/
structure TurnInv (handle : Int) (size read : UInt32) (h : History) : Prop
    extends Orderly handle size h where
  passed : chunkBytes (chunks h) = read.toNat
  taken : accepted h = read.toNat
  below : read < size

section Chunks

variable {handle : Int} {size read : UInt32} {h : History} {e : Event Op Op.Ret}

theorem chunks_snoc_none (he : chunkOf e = none) : chunks (h ++ [e]) = chunks h := by
  simp [chunks, he]

theorem chunks_snoc_some {c : Chunk} (he : chunkOf e = some c) :
    chunks (h ++ [e]) = chunks h ++ [c] := by
  simp [chunks, he]

theorem contiguous_snoc {cs : List Chunk} {c : Chunk} {pos : ℕ} (hcs : Contiguous size pos cs)
    (hoffset : c.offset.toNat = pos + chunkBytes cs) (hlen : c.len.toNat = c.buf.length)
    (htotal : c.total = size) : Contiguous size pos (cs ++ [c]) := by
  induction cs generalizing pos with
  | nil =>
    have hpos : c.offset.toNat = pos := by simpa [chunkBytes] using hoffset
    exact ⟨⟨hpos, hlen, htotal⟩, trivial⟩
  | cons c' cs ih =>
    refine ⟨hcs.1, ih hcs.2 ?_⟩
    rw [hoffset, chunkBytes, List.map_cons, List.sum_cons, ← Nat.add_assoc]
    rfl

theorem chunkBytes_snoc (cs : List Chunk) (c : Chunk) :
    chunkBytes (cs ++ [c]) = chunkBytes cs + c.buf.length := by
  simp [chunkBytes]

theorem accepted_snoc {h' : History} {c : Chunk} (hc : chunks h' = chunks h ++ [c]) :
    accepted h' = accepted h + if c.rc = 0 then c.buf.length else 0 := by
  rw [accepted, accepted, hc, List.filter_append]
  by_cases hrc : c.rc = 0
  · simp [hrc, chunkBytes_snoc]
  · simp [hrc]

/-- Events other than chunks and requests change nothing. -/
theorem Orderly.snoc (ho : Orderly handle size h) (he : chunkOf e = none)
    (hreq : RequestsInside handle size e.1) : Orderly handle size (h ++ [e]) where
  inside e' he' := by
    rcases List.mem_append.mp he' with he' | he'
    · exact ho.inside e' he'
    · rwa [List.mem_singleton.mp he']
  contiguous := by
    rw [chunks_snoc_none he]
    exact ho.contiguous

theorem TurnInv.snoc (hinv : TurnInv handle size read h) (he : chunkOf e = none)
    (hreq : RequestsInside handle size e.1) : TurnInv handle size read (h ++ [e]) where
  toOrderly := hinv.toOrderly.snoc he hreq
  passed := by
    rw [chunks_snoc_none he]
    exact hinv.passed
  taken := by
    rw [accepted, chunks_snoc_none he]
    exact hinv.taken
  below := hinv.below

/-- What the loop asks for next. -/
theorem TurnInv.request (hinv : TurnInv handle size read h) {cur : UInt32}
    (hcur : cur = if size - read > fujiMaxPartialObject then fujiMaxPartialObject
      else size - read) :
    0 < cur ∧ cur ≤ fujiMaxPartialObject ∧ read.toNat + cur.toNat ≤ size.toNat := by
  have hlt : read.toNat < size.toNat := UInt32.lt_iff_toNat_lt.mp hinv.below
  have hsub : (size - read).toNat = size.toNat - read.toNat :=
    UInt32.toNat_sub_of_le _ _ (UInt32.le_iff_toNat_le.mpr hlt.le)
  have hmax : fujiMaxPartialObject.toNat = 0x100000 := rfl
  rw [hcur]
  split
  · rename_i hgt
    have hgt' : fujiMaxPartialObject.toNat < (size - read).toNat := UInt32.lt_iff_toNat_lt.mp hgt
    exact ⟨by decide, UInt32.le_refl _, by omega⟩
  · rename_i hle
    refine ⟨?_, UInt32.not_lt.mp hle, by omega⟩
    rw [UInt32.lt_iff_toNat_lt, hsub, UInt32.toNat_zero]
    omega

/-- The event in which `handle_add` gets the next chunk. -/
abbrev added (buf : List UInt8) (read size : UInt32) (rc : Int) : Event Op Op.Ret :=
  ⟨.handleAdd buf (UInt32.ofNat buf.length) read size, rc⟩

section Added

variable {buf : List UInt8}

theorem toNat_read (hbuf : read.toNat + buf.length ≤ size.toNat) :
    (read + UInt32.ofNat buf.length).toNat = read.toNat + buf.length := by
  have hbound := size.toNat_lt
  rw [UInt32.toNat_add, UInt32.toNat_ofNat_of_lt' (by rw [UInt32.size]; omega)]
  omega

theorem TurnInv.orderly_added (hinv : TurnInv handle size read h)
    (hbuf : read.toNat + buf.length ≤ size.toNat) (rc : Int) :
    Orderly handle size (h ++ [added buf read size rc]) where
  inside e' he' := by
    rcases List.mem_append.mp he' with he' | he'
    · exact hinv.inside e' he'
    · rw [List.mem_singleton.mp he']
      trivial
  contiguous := by
    have hbound := size.toNat_lt
    rw [chunks_snoc_some rfl]
    refine contiguous_snoc hinv.contiguous ?_ ?_ rfl
    · rw [hinv.passed, Nat.zero_add]
    · exact UInt32.toNat_ofNat_of_lt' (by rw [UInt32.size]; omega)

/-- A refused chunk does not count. -/
theorem TurnInv.accepted_refused (hinv : TurnInv handle size read h) {rc : Int} (hrc : rc ≠ 0) :
    accepted (h ++ [added buf read size rc]) < size.toNat := by
  have hlt : read.toNat < size.toNat := UInt32.lt_iff_toNat_lt.mp hinv.below
  rw [accepted_snoc (chunks_snoc_some rfl), if_neg hrc, hinv.taken]
  exact hlt

theorem TurnInv.accepted_taken (hinv : TurnInv handle size read h)
    (hbuf : read.toNat + buf.length ≤ size.toNat) :
    accepted (h ++ [added buf read size 0]) = (read + UInt32.ofNat buf.length).toNat := by
  rw [accepted_snoc (chunks_snoc_some rfl), if_pos rfl, hinv.taken, toNat_read hbuf]

/-- The loop stands behind the chunk, when the object goes on. -/
theorem TurnInv.next (hinv : TurnInv handle size read h)
    (hbuf : read.toNat + buf.length ≤ size.toNat) (hlt : ¬ read + UInt32.ofNat buf.length ≥ size) :
    TurnInv handle size (read + UInt32.ofNat buf.length) (h ++ [added buf read size 0]) where
  toOrderly := hinv.orderly_added hbuf 0
  passed := by
    rw [chunks_snoc_some rfl, chunkBytes_snoc, hinv.passed, toNat_read hbuf]
  taken := hinv.accepted_taken hbuf
  below := UInt32.not_le.mp hlt

/-- The last chunk ends with the object. -/
theorem TurnInv.last (hinv : TurnInv handle size read h)
    (hbuf : read.toNat + buf.length ≤ size.toNat) (hge : read + UInt32.ofNat buf.length ≥ size) :
    accepted (h ++ [added buf read size 0]) = size.toNat := by
  have hge' : size.toNat ≤ (read + UInt32.ofNat buf.length).toNat := UInt32.le_iff_toNat_le.mp hge
  rw [hinv.accepted_taken hbuf]
  rw [toNat_read hbuf] at hge' ⊢
  omega

end Added

end Chunks

/-! ### The loop -/

section Loop

variable {A : Event Op Op.Ret → Prop} {I : History → Prop} {α : Type}
  {Q : History → α → PtpRuntime → Prop} {h : History} {s : PtpRuntime}

theorem sure_ask_bind {op : Op} {f : op.Ret → PtpM α} :
    Sure A I (ask op >>= f) Q h s ↔
      I h ∧ ∀ r : op.Ret, A ⟨op, r⟩ → Sure A I (f r) Q (h ++ [⟨op, r⟩]) s := Iff.rfl

theorem sure_transact_bind {c : PtpCommand} {f : Resp c → PtpM α} :
    Sure A I (transact c >>= f) Q h s ↔
      I h ∧ ∀ r : Resp c, A ⟨.ptp c, r⟩ →
        Sure A I (f r) Q (h ++ [⟨.ptp c, r⟩]) (s.answered r.payload) := Iff.rfl

/-- The success exit is taken just with the whole object. -/
def Succeeds (size : UInt32) (h : History) (exit : Exit) (_s : PtpRuntime) : Prop :=
  exit = .cleanup .ok ↔ accepted h = size.toNat

variable {handle : Int} {oi : ObjectInfo} {read : UInt32}

/-- A turn that ends the loop with an error. -/
theorem TurnInv.fails (hinv : TurnInv handle oi.compressedSize read h) {exit : Exit}
    (hexit : exit ≠ .cleanup .ok) : Succeeds oi.compressedSize h exit s := by
  have hlt : read.toNat < oi.compressedSize.toNat := UInt32.lt_iff_toNat_lt.mp hinv.below
  have htaken := hinv.taken
  refine iff_of_false hexit ?_
  omega

/-- **The loop comes to its end, and is orderly on the way.** -/
theorem downloadLoop_sure {fuel : ℕ} (hinv : TurnInv handle oi.compressedSize read h)
    (hfuel : oi.compressedSize.toNat - read.toNat ≤ fuel) (s : PtpRuntime) :
    Sure KeepsLength (Orderly handle oi.compressedSize) (downloadLoop handle oi fuel read)
      (Succeeds oi.compressedSize) h s := by
  induction fuel generalizing read h s with
  | zero =>
    have hlt : read.toNat < oi.compressedSize.toNat := UInt32.lt_iff_toNat_lt.mp hinv.below
    omega
  | succ fuel ih =>
    rw [downloadLoop, sure_ask_bind]
    refine ⟨hinv.toOrderly, fun cancelled _ => ?_⟩
    have hinv₁ := hinv.snoc (e := ⟨.checkThreadCancel, cancelled⟩) rfl trivial
    rw [sure_ite]
    refine ⟨fun _ => sure_pure hinv₁.toOrderly (hinv₁.fails (by simp)), fun _ => ?_⟩
    -- the request
    rw [sure_transact_bind]
    refine ⟨hinv₁.toOrderly, fun r hkeeps => ?_⟩
    obtain ⟨hpos, hmax, hinside⟩ := hinv.request rfl
    have hinv₂ := hinv₁.snoc (e := ⟨.ptp (.getPartialObject handle read _), r⟩) rfl
      ⟨rfl, hpos, hmax, hinside⟩
    rw [sure_ite]
    refine ⟨fun hcode => sure_pure hinv₂.toOrderly (hinv₂.fails ?_), fun _ => ?_⟩
    · simp [hcode]
    rw [sure_ite]
    refine ⟨fun _ => ?_, fun hrc => ?_⟩
    · rw [ptpMutexUnlock, sure_ask_bind]
      refine ⟨hinv₂.toOrderly, fun unlocked _ => ?_⟩
      have hinv₃ := hinv₂.snoc (e := ⟨.mutexUnlock, unlocked⟩) rfl trivial
      exact sure_pure hinv₃.toOrderly (hinv₃.fails (by simp))
    have hlen : r.payload.length ≤ _ := hkeeps (not_not.mp hrc)
    -- the chunk
    rw [sure_get_bind, sure_ask_bind]
    refine ⟨hinv₂.toOrderly, fun told _ => ?_⟩
    have hinv₃ := hinv₂.snoc (e := ⟨.reportDownloadSpeed _, told⟩) rfl trivial
    rw [sure_ite]
    refine ⟨fun _ => sure_pure hinv₃.toOrderly (hinv₃.fails (by simp)), fun hne => ?_⟩
    have hbuf : read.toNat + r.payload.length ≤ oi.compressedSize.toNat := by omega
    rw [sure_ask_bind]
    refine ⟨hinv₃.toOrderly, fun rc _ => ?_⟩
    have horderly := hinv₃.orderly_added hbuf rc
    rw [sure_ite]
    refine ⟨fun hrefused => sure_pure horderly (iff_of_false (by simp) ?_), fun htaken => ?_⟩
    · exact (hinv₃.accepted_refused hrefused).ne
    obtain rfl : rc = (0 : Int) := not_not.mp htaken
    rw [sure_ite]
    refine ⟨fun hge => sure_pure horderly (iff_of_true rfl (hinv₃.last hbuf hge)), fun hlt => ?_⟩
    -- `read` has moved on
    refine ih (hinv₃.next hbuf hlt) ?_ _
    have hread := toNat_read hbuf
    have hpayload : r.payload.length ≠ 0 := hne
    show oi.compressedSize.toNat - (read + UInt32.ofNat r.payload.length).toNat ≤ fuel
    omega

/-- **The loop of a download.**  It ends, within a turn for each byte; it asks only for ranges
inside the object and passes on contiguous chunks; and it takes its success exit just if the
accepted chunks add up to the object. -/
theorem downloadLoop_contract (handle : Int) {oi : ObjectInfo} (hsize : oi.compressedSize ≠ 0)
    (s : PtpRuntime) {fuel : ℕ} (hfuel : oi.compressedSize.toNat ≤ fuel) {h : History}
    (hkeeps : ∀ e ∈ h, KeepsLength e) :
    ¬ Hangs (downloadLoop handle oi fuel 0) s h ∧
      (Reaches (downloadLoop handle oi fuel 0) s h → Orderly handle oi.compressedSize h) ∧
      ∀ exit s', Exec (downloadLoop handle oi fuel 0) s h exit s' →
        (exit = .cleanup .ok ↔ accepted h = oi.compressedSize.toNat) := by
  have hpos : 0 < oi.compressedSize := UInt32.pos_iff_ne_zero.mpr hsize
  have hstart : TurnInv handle oi.compressedSize 0 [] :=
    ⟨⟨by simp, trivial⟩, rfl, rfl, hpos⟩
  exact (downloadLoop_sure hstart (by simpa using hfuel) s).of_answers hkeeps

/-- An object of three bytes in two chunks. -/
theorem downloadLoop_contract_twoChunks : ∃ h s',
    Exec (downloadLoop 7 smallObject 3 0) fujiPtpNew h (.cleanup .ok) s' ∧
      Orderly 7 smallObject.compressedSize h ∧
      accepted h = smallObject.compressedSize.toNat := by
  have hrun : Exec (downloadLoop 7 smallObject 3 0) fujiPtpNew _ (.cleanup .ok) _ :=
    exec_bind (exec_ask false) <| exec_ite_neg (by simp) <|
      exec_bind (exec_transact ⟨.ok, [1, 2], ()⟩) <| exec_ite_neg (by simp) <|
      exec_ite_neg (by simp) <| exec_bind exec_get <| exec_bind (exec_ask ()) <|
      exec_ite_neg (by simp) <| exec_bind (exec_ask (0 : Int)) <| exec_ite_neg (by simp) <|
      exec_ite_neg (by decide) <|
      exec_bind (exec_ask false) <| exec_ite_neg (by simp) <|
      exec_bind (exec_transact ⟨.ok, [3], ()⟩) <| exec_ite_neg (by simp) <|
      exec_ite_neg (by simp) <| exec_bind exec_get <| exec_bind (exec_ask ()) <|
      exec_ite_neg (by simp) <| exec_bind (exec_ask (0 : Int)) <| exec_ite_neg (by simp) <|
      exec_ite_pos (by decide) (exec_pure _)
  have hsize : smallObject.compressedSize ≠ 0 := by decide
  have hend {h : History} {s' : PtpRuntime} (hkeeps : ∀ e ∈ h, KeepsLength e)
      (hexec : Exec (downloadLoop 7 smallObject 3 0) fujiPtpNew h (.cleanup .ok) s') :
      Orderly 7 smallObject.compressedSize h ∧ accepted h = smallObject.compressedSize.toNat := by
    have hcontract := downloadLoop_contract 7 hsize fujiPtpNew (le_refl 3) hkeeps
    exact ⟨hcontract.2.1 hexec.reaches, (hcontract.2.2 _ _ hexec).mp rfl⟩
  refine ⟨_, _, hrun, hend ?_ hrun⟩
  simp only [List.cons_append, List.nil_append, List.forall_mem_cons, List.not_mem_nil,
    IsEmpty.forall_iff, implies_true, KeepsLength]
  decide

end Loop

end Fuji
