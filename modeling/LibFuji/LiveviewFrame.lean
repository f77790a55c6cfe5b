/-
A frame of the live view (`ptp_fuji_read_liveview_frame` in `fuji.c`).

The header says how long the frame is; the loop then reads until as much has come.  It does not
look at what a read returns beyond its sign, and what it ends with is lost:

* `ptpFujiReadLiveviewFrame_reports_iff` says when the return code is right about the frame: if the
  length has room for the header, and no read fails;
* `ptpFujiReadLiveviewFrame_terminates_iff` says along which streams of results the loop ends:
  those that complete the frame, or fail.
-/
import LibFuji.Setup

namespace Fuji

open ByteCodec Interaction

/-! ### The code -/

/-- What a read of the video socket returns, and the bytes that it stores. -/
structure ReadResult where
  rc : Int
  bytes : List UInt8
  length_eq : bytes.length = rc.toNat

/-- The operations of the reader. -/
inductive VideoOp
  /-- `ptpip_video_read` into the 18 bytes for the header -/
  | readHeader
  /-- `ptp_buffer_resize` -/
  | bufferResize (size : UInt32)
  /-- `ptpip_video_read` into the buffer, at an offset -/
  | videoRead (of size : UInt32)

/-- The answers: the result of a read, and a buffer that is long enough. -/
@[reducible] def VideoOp.Ret : VideoOp → Type
  | bufferResize size => {data : List UInt8 // size.toNat ≤ data.length}
  | _ => ReadResult

/-- Programs over a buffer. -/
abbrev VideoM : Type → Type := StateT (List UInt8) (Prog VideoOp VideoOp.Ret)

/-- Histories of the reader. -/
abbrev VideoHistory : Type := List (Event VideoOp VideoOp.Ret)

/-- The loop of `ptp_fuji_read_liveview_frame`, `fuel` times more at most. -/
def readFrame : ℕ → UInt32 → UInt32 → VideoM Unit
  | 0, _, _ => hang
  | fuel + 1, of, len =>
    if len ≠ 0 then do
      let r : ReadResult ← call (VideoOp.videoRead of len)
      if r.rc < 0 then return ()
      else
        modify fun data => overwrite data of.toNat r.bytes
        readFrame fuel (of + UInt32.ofNat r.rc.toNat) (len - UInt32.ofNat r.rc.toNat)
    else return ()

/-- The length in a header. -/
def headerLength (header : List UInt8) : UInt32 := UInt32.ofNat (leNat (header.take 4))

/-- `ptp_fuji_read_liveview_frame`: the return code, and `*size`. -/
def ptpFujiReadLiveviewFrame (fuel : ℕ) (size : UInt32) : VideoM (Int × UInt32) := do
  let r : ReadResult ← call VideoOp.readHeader
  if r.rc = 18 then
    let len := headerLength r.bytes
    let data : Subtype _ ← call (VideoOp.bufferResize len)
    modify fun _ => data.1
    let len := len - 18
    let size := len
    readFrame fuel 0 len
    return (0, size)
  else if r.rc = 0 then return (0, size)
  else if r.rc < 0 then return (r.rc, size)
  else return (r.rc, size)

/-! ### What has been read -/

/-- The bytes of a frame that a read stores. -/
def bytesOf : Event VideoOp VideoOp.Ret → List UInt8
  | ⟨.videoRead _ _, r⟩ => ReadResult.bytes r
  | _ => []

/-- The bytes of the frame that have come. -/
def received (h : VideoHistory) : List UInt8 := h.flatMap bytesOf

/-- A read that fails. -/
def FailsRead : Event VideoOp VideoOp.Ret → Prop
  | ⟨.videoRead _ _, r⟩ => ReadResult.rc r < 0
  | _ => False

/-- A read returns at most as much as it is asked for. -/
def AtMostAsked : Event VideoOp VideoOp.Ret → Prop
  | ⟨.videoRead _ size, r⟩ => ReadResult.rc r ≤ size.toNat
  | _ => True

/-- Nothing is stored behind a part of the buffer. -/
def StoresBelow (cap : ℕ) : Event VideoOp VideoOp.Ret → Prop
  | ⟨.videoRead of _, r⟩ => of.toNat + (ReadResult.bytes r).length ≤ cap
  | _ => True

/-- A read that returns these bytes. -/
def ReadResult.got (bytes : List UInt8) : ReadResult := ⟨bytes.length, bytes, rfl⟩

def ReadResult.failed : ReadResult := ⟨-1, [], rfl⟩

/-- What is owed for a header of the length `len`: success with a frame only if just the frame has
come, and stands at the start of the buffer that `len` has been the size of; an error if the length
is too short for the header, or a read fails. -/
structure ReportsFrame (len : UInt32) (h : VideoHistory) (rc : Int) (size : UInt32)
    (data : List UInt8) : Prop where
  frame : rc = 0 → size ≠ 0 → (received h).length = size.toNat ∧
    data.take size.toNat = received h ∧ ∀ e ∈ h, StoresBelow len.toNat e
  short : len < 18 → rc ≠ 0
  failed : (∃ e ∈ h, FailsRead e) → rc ≠ 0

/-! ### The loop -/

section Loop

variable {fuel : ℕ} {of len size : UInt32} {data data' : List UInt8} {h : VideoHistory}

/-- The first turn of a run, and the rest. -/
theorem exec_readFrame_succ :
    Exec (readFrame (fuel + 1) of len) data h ⟨⟩ data' ↔
      (len = 0 ∧ h = [] ∧ data' = data) ∨
      len ≠ 0 ∧ ∃ (r : ReadResult) (t : VideoHistory), h = ⟨.videoRead of len, r⟩ :: t ∧
        ((r.rc < 0 ∧ t = [] ∧ data' = data) ∨ 0 ≤ r.rc ∧
          Exec (readFrame fuel (of + UInt32.ofNat r.rc.toNat) (len - UInt32.ofNat r.rc.toNat))
            (overwrite data of.toNat r.bytes) t ⟨⟩ data') := by
  have hdone {h : VideoHistory} :
      Exec (pure ⟨⟩ : VideoM Unit) data h ⟨⟩ data' ↔ h = [] ∧ data' = data := by
    constructor
    · intro hrun
      obtain ⟨hh, -, hs⟩ := hrun.eq_of_ret rfl
      exact ⟨hh, hs⟩
    · rintro ⟨rfl, rfl⟩
      exact exec_pure _
  rw [readFrame]
  by_cases hlen : len = 0
  · rw [if_neg (not_not_intro hlen), hdone]
    simp [hlen]
  · rw [if_pos hlen, exec_call_bind]
    simp only [hlen, false_and, false_or, ne_eq, not_false_eq_true, true_and]
    refine exists_congr fun r => exists_congr fun t => and_congr_right fun _ => ?_
    by_cases hr : ReadResult.rc r < 0
    · rw [if_pos hr, hdone]
      simp [hr, hr.not_ge]
    · rw [if_neg hr, exec_modify_bind]
      simp [hr, not_lt.mp hr]

/-- As long as no read fails and none returns more than it is asked for, the loop stores what comes
one behind the other, and ends just behind the frame. -/
theorem readFrame_stores (hrun : Exec (readFrame fuel of len) data h ⟨⟩ data')
    (hmost : ∀ e ∈ h, AtMostAsked e) (hok : ∀ e ∈ h, ¬ FailsRead e)
    (hroom : of.toNat + len.toNat ≤ data.length) (hlt : of.toNat + len.toNat < 2 ^ 32) :
    (received h).length = len.toNat ∧
      data'.take (of.toNat + len.toNat) = data.take of.toNat ++ received h ∧
      ∀ e ∈ h, StoresBelow (of.toNat + len.toNat) e := by
  induction fuel generalizing of len data h with
  | zero => cases hrun
  | succ fuel ih =>
    rcases exec_readFrame_succ.mp hrun with ⟨rfl, rfl, rfl⟩ | ⟨hlen, r, t, rfl, hturn⟩
    · simp [received]
    rw [List.forall_mem_cons] at hmost hok
    obtain ⟨hfails, -⟩ | ⟨hrc, hrun⟩ := hturn
    · exact absurd hfails hok.1
    have hle : r.rc ≤ len.toNat := hmost.1
    have hbytes := r.length_eq
    have hamount : (UInt32.ofNat r.rc.toNat).toNat = r.bytes.length := by
      rw [hbytes]
      exact UInt32.toNat_ofNat_of_lt' (by rw [UInt32.size]; omega)
    have hof : (of + UInt32.ofNat r.rc.toNat).toNat = of.toNat + r.bytes.length := by
      rw [UInt32.toNat_add, hamount, Nat.mod_eq_of_lt (by omega)]
    have hrest : (len - UInt32.ofNat r.rc.toNat).toNat = len.toNat - r.bytes.length := by
      rw [UInt32.toNat_sub_of_le _ _ (UInt32.le_iff_toNat_le.mpr (by rw [hamount]; omega)), hamount]
    have hsum : of.toNat + r.bytes.length + (len.toNat - r.bytes.length) =
        of.toNat + len.toNat := by omega
    have hroom' : (overwrite data of.toNat r.bytes).length = data.length :=
      overwrite_length (by omega)
    obtain ⟨hlength, htake, hstores⟩ := ih hrun hmost.2 hok.2
      (by rw [hof, hrest, hsum, hroom']; exact hroom) (by rw [hof, hrest, hsum]; exact hlt)
    rw [hof, hrest, hsum, overwrite_take (by omega)] at htake
    rw [hrest] at hlength
    rw [hof, hrest, hsum] at hstores
    have hreceived : received (⟨.videoRead of len, r⟩ :: t) = r.bytes ++ received t := rfl
    refine ⟨?_, ?_, ?_⟩
    · rw [hreceived, List.length_append, hlength]
      omega
    · rw [htake, hreceived, List.append_assoc]
    · rw [List.forall_mem_cons]
      refine ⟨?_, hstores⟩
      show of.toNat + r.bytes.length ≤ _
      omega

end Loop

/-! ### The return code -/

section Reports

variable {fuel : ℕ} {size₀ size : UInt32} {data data' : List UInt8} {h : VideoHistory} {rc : Int}
  {hdr : ReadResult}

/-- Behind a complete header. -/
theorem exec_ptpFujiReadLiveviewFrame (hhdr : hdr.rc = 18)
    (hrun : Exec (ptpFujiReadLiveviewFrame fuel size₀) data (⟨.readHeader, hdr⟩ :: h) (rc, size)
      data') :
    rc = 0 ∧ size = headerLength hdr.bytes - 18 ∧
      ∃ (d : {d : List UInt8 // (headerLength hdr.bytes).toNat ≤ d.length}) (t : VideoHistory),
        h = ⟨.bufferResize (headerLength hdr.bytes), d⟩ :: t ∧
          Exec (readFrame fuel 0 (headerLength hdr.bytes - 18)) d.1 t ⟨⟩ data' := by
  obtain ⟨r, t, heq, hrun⟩ := exec_call_bind.mp hrun
  obtain ⟨⟨⟩, rfl⟩ := List.cons.inj heq
  rw [if_pos hhdr] at hrun
  obtain ⟨d, t, rfl, hbuffer⟩ := exec_call_bind.mp hrun
  obtain ⟨t, ⟨⟩, d', t', rfl, hloop, hend⟩ := exec_of_bind (exec_modify_bind.mp hbuffer)
  obtain ⟨rfl, hresult, rfl⟩ := hend.eq_of_ret rfl
  obtain ⟨rfl, rfl⟩ := Prod.mk.inj hresult
  exact ⟨rfl, rfl, d, t, by rw [List.append_nil], hloop⟩

/-- **When the return code is right about the frame**: if the length in the header has room for the
header, and no read fails. -/
theorem ptpFujiReadLiveviewFrame_reports_iff (hhdr : hdr.rc = 18)
    (hrun : Exec (ptpFujiReadLiveviewFrame fuel size₀) data (⟨.readHeader, hdr⟩ :: h) (rc, size)
      data') (hmost : ∀ e ∈ h, AtMostAsked e) :
    ReportsFrame (headerLength hdr.bytes) h rc size data' ↔
      18 ≤ headerLength hdr.bytes ∧ ∀ e ∈ h, ¬ FailsRead e := by
  obtain ⟨rfl, rfl, d, t, rfl, hloop⟩ := exec_ptpFujiReadLiveviewFrame hhdr hrun
  constructor
  · intro hreports
    exact ⟨UInt32.not_lt.mp fun hshort => hreports.short hshort rfl,
      fun e he hfails => hreports.failed ⟨e, he, hfails⟩ rfl⟩
  · rintro ⟨hroom, hok⟩
    have hsub : (headerLength hdr.bytes - 18).toNat = (headerLength hdr.bytes).toNat - 18 :=
      UInt32.toNat_sub_of_le _ _ hroom
    have hlt := (headerLength hdr.bytes).toNat_lt
    have hd := d.2
    have hin : (0 : UInt32).toNat + (headerLength hdr.bytes - 18).toNat ≤ d.1.length := by
      rw [UInt32.toNat_zero, zero_add]
      omega
    obtain ⟨hlength, htake, hstores⟩ := readFrame_stores hloop
      (fun e he => hmost e (List.mem_cons_of_mem _ he))
      (fun e he => hok e (List.mem_cons_of_mem _ he)) hin (by
        rw [UInt32.toNat_zero, zero_add]
        omega)
    rw [UInt32.toNat_zero, zero_add] at htake hstores
    refine ⟨fun _ _ => ⟨hlength, htake, ?_⟩, fun hshort => ?_, ?_⟩
    · rw [List.forall_mem_cons]
      refine ⟨trivial, fun e he => ?_⟩
      have hbelow := hstores e he
      rcases e with ⟨op, r⟩
      cases op with
      | videoRead of size =>
        change of.toNat + (ReadResult.bytes r).length ≤ _ at hbelow ⊢
        omega
      | _ => trivial
    · exact absurd hroom (UInt32.not_le.mpr hshort)
    · rintro ⟨e, he, hfails⟩
      exact absurd hfails (hok e he)

/-- The header of a frame of two bytes. -/
def smallHeader : ReadResult := .got (leBytes 4 20 ++ List.replicate 14 0)

/-- A buffer for it. -/
def smallBuffer : {d : List UInt8 // (headerLength smallHeader.bytes).toNat ≤ d.length} :=
  ⟨List.replicate 20 0, by decide⟩

/-- The two bytes come one by one. -/
theorem ptpFujiReadLiveviewFrame_reports_smallFrame : ∃ h data,
    Exec (ptpFujiReadLiveviewFrame 3 0) [] (⟨.readHeader, smallHeader⟩ :: h) (0, 2) data ∧
      ReportsFrame 20 h 0 2 data := by
  have hloop : Exec (readFrame 3 0 2) smallBuffer.1
      [⟨.videoRead 0 2, .got [7]⟩, ⟨.videoRead 1 1, .got [8]⟩] ⟨⟩ _ :=
    exec_readFrame_succ.mpr <| .inr ⟨by decide, _, _, rfl, .inr ⟨by decide,
      exec_readFrame_succ.mpr <| .inr ⟨by decide, _, _, rfl, .inr ⟨by decide,
        exec_readFrame_succ.mpr <| .inl ⟨by decide, rfl, rfl⟩⟩⟩⟩⟩
  have hrun : Exec (ptpFujiReadLiveviewFrame 3 0) [] (⟨.readHeader, smallHeader⟩ ::
      ⟨.bufferResize (headerLength smallHeader.bytes), smallBuffer⟩ :: _) (0, 2) _ :=
    exec_call_bind.mpr ⟨smallHeader, _, rfl, exec_ite_pos rfl <|
      exec_call_bind.mpr ⟨smallBuffer, _, rfl, exec_bind (exec_modify _) <|
        exec_bind hloop (exec_pure _)⟩⟩
  refine ⟨_, _, hrun, (ptpFujiReadLiveviewFrame_reports_iff rfl hrun ?_).mpr ⟨by decide, ?_⟩⟩
  · simp [AtMostAsked, ReadResult.got]
  · simp [FailsRead, ReadResult.got]

/-- The first read of the frame fails: the code reports a frame of two bytes, none of which has
come. -/
theorem ptpFujiReadLiveviewFrame_failedRead : ∃ h data,
    Exec (ptpFujiReadLiveviewFrame 1 0) [] (⟨.readHeader, smallHeader⟩ :: h) (0, 2) data ∧
      (∀ e ∈ h, AtMostAsked e) ∧ ¬ ReportsFrame 20 h 0 2 data := by
  have hloop : Exec (readFrame 1 0 2) smallBuffer.1 [⟨.videoRead 0 2, .failed⟩] ⟨⟩ _ :=
    exec_readFrame_succ.mpr <| .inr ⟨by decide, _, _, rfl, .inl ⟨by decide, rfl, rfl⟩⟩
  have hrun : Exec (ptpFujiReadLiveviewFrame 1 0) [] (⟨.readHeader, smallHeader⟩ ::
      ⟨.bufferResize (headerLength smallHeader.bytes), smallBuffer⟩ :: _) (0, 2) _ :=
    exec_call_bind.mpr ⟨smallHeader, _, rfl, exec_ite_pos rfl <|
      exec_call_bind.mpr ⟨smallBuffer, _, rfl, exec_bind (exec_modify _) <|
        exec_bind hloop (exec_pure _)⟩⟩
  refine ⟨_, _, hrun, ?_, fun hreports => ?_⟩
  · simp [AtMostAsked, ReadResult.failed]
  · exact absurd (hreports.frame rfl (by decide)).1 (by decide)

end Reports

/-! ### Termination -/

/-- What a read takes off the length that is missing. -/
def ReadResult.amount (r : ReadResult) : UInt32 := UInt32.ofNat r.rc.toNat

/-- The answers are those of an environment: the header, the buffers, and the results of the reads
behind the header, in their order. -/
def Along (hdr : ReadResult) (buffer : ∀ size, VideoOp.Ret (.bufferResize size)) :
    Stream' ReadResult → VideoHistory → Prop
  | _, [] => True
  | stream, ⟨.readHeader, r⟩ :: h => r = hdr ∧ Along hdr buffer stream h
  | stream, ⟨.bufferResize size, d⟩ :: h => d = buffer size ∧ Along hdr buffer stream h
  | stream, ⟨.videoRead _ _, r⟩ :: h => r = stream.head ∧ Along hdr buffer stream.tail h

/-- A read fails before the results amount to the length that is missing, or they do. -/
def Completes (len : UInt32) (stream : Stream' ReadResult) : Prop :=
  ∃ k, (∀ j < k, 0 ≤ (stream.get j).rc) ∧
    (((stream.take k).map ReadResult.amount).sum = len ∨ (stream.get k).rc < 0)

section Termination

variable {hdr : ReadResult} {buffer : ∀ size, VideoOp.Ret (.bufferResize size)}
  {stream : Stream' ReadResult} {of len : UInt32}

theorem completes_zero : Completes 0 stream := ⟨0, by simp, .inl rfl⟩

theorem completes_of_fails (hfails : stream.head.rc < 0) : Completes len stream :=
  ⟨0, by simp, .inr hfails⟩

theorem completes_iff_tail (hlen : len ≠ 0) (hrc : 0 ≤ stream.head.rc) :
    Completes len stream ↔ Completes (len - stream.head.amount) stream.tail := by
  have hsum (k : ℕ) : ((stream.take (k + 1)).map ReadResult.amount).sum = len ↔
      ((stream.tail.take k).map ReadResult.amount).sum = len - stream.head.amount := by
    rw [Stream'.take_succ, List.map_cons, List.sum_cons, UInt32.eq_sub_iff_add_eq, UInt32.add_comm]
  constructor
  · rintro ⟨_ | k, hok, hend⟩
    · rcases hend with hzero | hfails
      · exact absurd hzero.symm hlen
      · exact absurd hrc hfails.not_ge
    · rw [hsum] at hend
      exact ⟨k, fun j hj => hok (j + 1) (Nat.succ_lt_succ hj), hend⟩
  · rintro ⟨k, hok, hend⟩
    refine ⟨k + 1, ?_, ?_⟩
    · rintro (_ | j) hj
      · exact hrc
      · exact hok j (Nat.lt_of_succ_lt_succ hj)
    · rw [hsum]
      exact hend

/-- A run of the loop that ends has consumed a stream that completes the frame. -/
theorem completes_of_exec {fuel : ℕ} {data data' : List UInt8} {h : VideoHistory}
    (hrun : Exec (readFrame fuel of len) data h ⟨⟩ data') (halong : Along hdr buffer stream h) :
    Completes len stream := by
  induction fuel generalizing of len data h stream with
  | zero => cases hrun
  | succ fuel ih =>
    rcases exec_readFrame_succ.mp hrun with ⟨rfl, -, -⟩ | ⟨hlen, r, t, rfl, hturn⟩
    · exact completes_zero
    obtain ⟨rfl, halong⟩ := halong
    obtain ⟨hfails, -⟩ | ⟨hrc, hrest⟩ := hturn
    · exact completes_of_fails hfails
    · exact (completes_iff_tail hlen hrc).mpr (ih hrest halong)

/-- Along such a stream the loop ends. -/
theorem exec_of_completes (hcompletes : Completes len stream) (data : List UInt8) :
    ∃ fuel h data', Exec (readFrame fuel of len) data h ⟨⟩ data' ∧ Along hdr buffer stream h := by
  obtain ⟨k, hok, hend⟩ := hcompletes
  induction k generalizing of len data stream with
  | zero =>
    by_cases hlen : len = 0
    · exact ⟨1, [], data, exec_readFrame_succ.mpr (.inl ⟨hlen, rfl, rfl⟩), trivial⟩
    · have hfails := hend.resolve_left fun hzero => hlen hzero.symm
      exact ⟨1, _, data, exec_readFrame_succ.mpr (.inr ⟨hlen, _, _, rfl, .inl ⟨hfails, rfl, rfl⟩⟩),
        rfl, trivial⟩
  | succ k ih =>
    by_cases hlen : len = 0
    · exact ⟨1, [], data, exec_readFrame_succ.mpr (.inl ⟨hlen, rfl, rfl⟩), trivial⟩
    have hrc : 0 ≤ stream.head.rc := hok 0 k.succ_pos
    rw [Stream'.take_succ, List.map_cons, List.sum_cons, UInt32.add_comm,
      ← UInt32.eq_sub_iff_add_eq] at hend
    obtain ⟨fuel, h, data', hrun, halong⟩ :=
      ih (overwrite data of.toNat stream.head.bytes) (fun j hj => hok (j + 1) (Nat.succ_lt_succ hj))
        hend
    exact ⟨fuel + 1, _, data',
      exec_readFrame_succ.mpr (.inr ⟨hlen, _, _, rfl, .inr ⟨hrc, hrun⟩⟩), rfl, halong⟩

/-- The call ends in this environment. -/
def TerminatesAlong (hdr : ReadResult) (buffer : ∀ size, VideoOp.Ret (.bufferResize size))
    (stream : Stream' ReadResult) : Prop :=
  ∀ size data, ∃ fuel h a data',
    Exec (ptpFujiReadLiveviewFrame fuel size) data h a data' ∧ Along hdr buffer stream h

theorem completes_of_terminates (hhdr : hdr.rc = 18)
    (hterminates : TerminatesAlong hdr buffer stream) :
    Completes (headerLength hdr.bytes - 18) stream := by
  obtain ⟨fuel, h, a, data', hrun, halong⟩ := hterminates 0 []
  obtain ⟨r, t, rfl, -⟩ := exec_call_bind.mp hrun
  obtain ⟨rfl, halong⟩ := halong
  obtain ⟨-, -, d, t, rfl, hloop⟩ := exec_ptpFujiReadLiveviewFrame hhdr hrun
  exact completes_of_exec hloop halong.2

theorem terminates_of_completes (hhdr : hdr.rc = 18)
    (hcompletes : Completes (headerLength hdr.bytes - 18) stream) :
    TerminatesAlong hdr buffer stream := by
  intro size data
  obtain ⟨fuel, h, data', hloop, halong⟩ :=
    exec_of_completes hcompletes (buffer (headerLength hdr.bytes)).1
  exact ⟨fuel, _, _, data', exec_call_bind.mpr ⟨hdr, _, rfl, exec_ite_pos hhdr <|
    exec_call_bind.mpr ⟨buffer _, _, rfl, exec_bind (exec_modify _) <|
      exec_bind hloop (exec_pure _)⟩⟩, rfl, rfl, by simpa using halong⟩

/-- Without a complete header there is no loop. -/
theorem terminates_of_noHeader (hhdr : hdr.rc ≠ 18) : TerminatesAlong hdr buffer stream := by
  intro size data
  obtain ⟨a, ha⟩ : ∃ a : Int × UInt32, Exec (if hdr.rc = 0 then (return (0, size) : VideoM _)
      else if hdr.rc < 0 then return (hdr.rc, size) else return (hdr.rc, size)) data [] a data := by
    split_ifs <;> exact ⟨_, exec_pure _⟩
  exact ⟨0, _, a, data, exec_call_bind.mpr ⟨hdr, _, rfl, exec_ite_neg hhdr ha⟩, rfl, trivial⟩

/-- **Along which streams of results the call ends**: behind a complete header, those in which a read
fails before the results amount to the frame, or they do.  In a stream of zeros from some point on
neither happens any more behind that point. -/
theorem ptpFujiReadLiveviewFrame_terminates_iff (hdr : ReadResult)
    (buffer : ∀ size, VideoOp.Ret (.bufferResize size)) (stream : Stream' ReadResult) :
    TerminatesAlong hdr buffer stream ↔
      (hdr.rc = 18 → Completes (headerLength hdr.bytes - 18) stream) := by
  by_cases hhdr : hdr.rc = 18
  · exact ⟨fun hterminates _ => completes_of_terminates hhdr hterminates,
      fun hcompletes => terminates_of_completes hhdr (hcompletes hhdr)⟩
  · exact iff_of_true (terminates_of_noHeader hhdr) fun h => absurd h hhdr

/-- The camera closes the connection behind the first byte of a frame of two. -/
def closedEarly : Stream' ReadResult := .cons (.got [7]) (.const (.got []))

theorem sum_const_empty (k : ℕ) :
    (((Stream'.const (ReadResult.got [])).take k).map ReadResult.amount).sum = 0 := by
  induction k with
  | zero => rfl
  | succ k ih =>
    rw [Stream'.take_succ, Stream'.tail_const, List.map_cons, List.sum_cons, ih]
    rfl

/-- The loop asks for the second byte for ever. -/
theorem ptpFujiReadLiveviewFrame_closedEarly :
    (∀ k ≥ 1, (closedEarly.get k).rc = 0) ∧
      ¬ TerminatesAlong smallHeader (fun size => ⟨.replicate size.toNat 0, by simp⟩)
        closedEarly := by
  have hzero : ∀ k ≥ 1, (closedEarly.get k).rc = 0 := by
    rintro (_ | k) hk
    · exact absurd hk (by decide)
    · rfl
  refine ⟨hzero, fun hterminates => ?_⟩
  have hcompletes := completes_of_terminates rfl hterminates
  rw [completes_iff_tail (by decide) (by decide)] at hcompletes
  obtain ⟨k, -, hsum | hfails⟩ := hcompletes
  · exact absurd ((sum_const_empty k).symm.trans hsum) (by decide)
  · exact absurd hfails (by rw [Stream'.get_tail, hzero _ k.succ_pos]; decide)

end Termination

end Fuji
