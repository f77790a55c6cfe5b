/-
Runs of the Exif reader on the bytes of a file.

`FileRun F m s a s'` is the run of `m` in which every size and every byte asked for lies
inside the file `F`; it has a rule for each construct.  Such a run is forced: a reader whose
buffer shows the file makes just this run as long as it reads inside the buffer
(`FileRun.unique`), whatever lies behind the file and however the buffer has grown.
-/
import LibFuji.Exif

namespace Fuji

open ByteCodec Interaction

namespace Exif

/-! ### Runs inside a file -/

/-- The size or the bytes asked for lie inside the file. -/
def Inside (file : List UInt8) : ExifOp → Prop
  | .ensureSize length => length.toNat ≤ file.length
  | .read _ of n => of.toNat + n ≤ file.length

/-- The answers are those of the file, and nothing is asked for that it does not have. -/
def OnFile (file : List UInt8) (h : ExifHistory) : Prop :=
  ∀ e ∈ h, e.2 = fileOracle file e.1 ∧ Inside file e.1

theorem onFile_append {file : List UInt8} {h h' : ExifHistory} (hh : OnFile file h)
    (hh' : OnFile file h') : OnFile file (h ++ h') := fun e he =>
  (List.mem_append.mp he).elim (hh e) (hh' e)

/-- The run of a program inside a file. -/
def FileRun {α : Type} (file : List UInt8) (m : ExifM α) (s : ExifParser) (a : α)
    (s' : ExifParser) : Prop :=
  ∃ h, Exec m s h a s' ∧ OnFile file h

section Rules

variable {α β : Type} {file : List UInt8} {m : ExifM α} {f : α → ExifM β} {s s' s'' : ExifParser}
  {a : α} {b : β}

theorem fileRun_pure (a : α) : FileRun file (pure a) s a s := ⟨[], exec_pure a, by simp [OnFile]⟩

theorem fileRun_get : FileRun file get s s s := ⟨[], exec_get, by simp [OnFile]⟩

theorem fileRun_modify (g : ExifParser → ExifParser) :
    FileRun file (modify g : ExifM PUnit) s ⟨⟩ (g s) := ⟨[], exec_modify g, by simp [OnFile]⟩

theorem fileRun_bind (hm : FileRun file m s a s') (hf : FileRun file (f a) s' b s'') :
    FileRun file (m >>= f) s b s'' := by
  obtain ⟨h, hrun, hon⟩ := hm
  obtain ⟨h', hrun', hon'⟩ := hf
  exact ⟨h ++ h', exec_bind hrun hrun', onFile_append hon hon'⟩

theorem fileRun_ite_pos {c : Prop} [Decidable c] {m' : ExifM α} (hc : c)
    (hm : FileRun file m s a s') : FileRun file (if c then m else m') s a s' := by
  rwa [if_pos hc]

theorem fileRun_ite_neg {c : Prop} [Decidable c] {m' : ExifM α} (hc : ¬ c)
    (hm : FileRun file m' s a s') : FileRun file (if c then m else m') s a s' := by
  rwa [if_neg hc]

theorem fileRun_ensureSize {length : UInt32} (h : length.toNat ≤ file.length) :
    FileRun file (ensureSize length) s true s := by
  refine ⟨_, exec_ensureSize true, ?_⟩
  simp [OnFile, fileOracle, Inside, h]

/-- The bytes at an offset. -/
theorem fileOracle_read {field : ExifField} {of : UInt32} {n : ℕ}
    (h : of.toNat + n ≤ file.length) :
    (fileOracle file (.read field of n) : Vector UInt8 n).toList
      = (file.drop of.toNat).take n := by
  refine List.ext_getElem (by simp; omega) fun i hi hi' => ?_
  have hlt : of.toNat + i < file.length := by
    have : i < n := by simpa using hi
    omega
  simp [fileOracle, List.getD_eq_getElem?_getD, List.getElem?_eq_getElem hlt]

theorem fileRun_readBytes {field : ExifField} {of : UInt32} {n : ℕ}
    (h : of.toNat + n ≤ file.length) :
    FileRun file (readBytes field of n) s (fileOracle file (.read field of n)) s :=
  ⟨_, exec_readBytes _, by simp [OnFile, Inside, h]⟩

/-- A value made of the bytes at an offset. -/
theorem fileRun_readMap {field : ExifField} {of : UInt32} {n : ℕ} (g : List UInt8 → β)
    (h : of.toNat + n ≤ file.length) :
    FileRun file (readBytes field of n >>= fun b => pure (g b.toList)) s
      (g ((file.drop of.toNat).take n)) s := by
  rw [← @fileOracle_read file field of n h]
  exact fileRun_bind (fileRun_readBytes h) (fileRun_pure _)

theorem fileRun_readU16 {field : ExifField} {of : UInt32} {v : ℕ}
    (h : readLe file of.toNat 2 = some v) :
    FileRun file (readU16 field of) s (UInt16.ofNat v) s := by
  obtain ⟨hlen, rfl⟩ := readLe_eq_some.mp h
  exact fileRun_readMap (fun l => UInt16.ofNat (leNat l)) hlen

theorem fileRun_readU32 {field : ExifField} {of : UInt32} {v : ℕ}
    (h : readLe file of.toNat 4 = some v) :
    FileRun file (readU32 field of) s (UInt32.ofNat v) s := by
  obtain ⟨hlen, rfl⟩ := readLe_eq_some.mp h
  exact fileRun_readMap (fun l => UInt32.ofNat (leNat l)) hlen

/-- A field whose value the reader does not use. -/
theorem fileRun_readBeU16 {field : ExifField} {of : UInt32}
    (h : of.toNat + 2 ≤ file.length) : ∃ v, FileRun file (readBeU16 field of) s v s :=
  ⟨_, fileRun_readMap (fun l => UInt16.ofNat (leNat l.reverse)) h⟩

end Rules

/-! ### Forced runs -/

/-- The buffer shows the file, as far as both go. -/
def Buffer.Shows (file : List UInt8) (c : Buffer) : Prop :=
  ∀ i < c.length.toNat, i < file.length → c.bytes[i]? = file[i]?

/-- The callback never returns NULL, and fills in the bytes that the file has. -/
def GetMore.Fills (file : List UInt8) (get : GetMore) : Prop :=
  ∀ c newLen more, c.Shows file → get c newLen more →
    ∃ buf, more = some buf ∧ Buffer.Shows file ⟨buf, newLen⟩

/-- No size is asked for that the buffer does not have, or the callback provides it. -/
def Provided (file : List UInt8) (get : GetMore) (len : UInt32) (h : ExifHistory) : Prop :=
  get.Fills file ∨ ∀ e ∈ h, ∀ length, e.1 = .ensureSize length → length ≤ len

section Whole

variable {file : List UInt8} {len : UInt32} {h : ExifHistory}

/-- What lies inside the file is there in a buffer with the whole file, without a callback. -/
theorem OnFile.provided {get : GetMore} (hon : OnFile file h) (hlen : len.toNat = file.length) :
    Provided file get len h := by
  refine .inr fun e he length heq => ?_
  have hin := (hon e he).2
  rw [heq] at hin
  exact UInt32.le_iff_toNat_le.mpr (hlen ▸ hin)

theorem OnFile.inRange (hon : OnFile file h) (hlen : len.toNat = file.length) :
    InRange len h := by
  induction h with
  | nil => trivial
  | cons e h ih =>
    obtain ⟨⟨-, hin⟩, hrest⟩ := List.forall_mem_cons.mp hon
    rcases e with ⟨length | ⟨field, of, n⟩, r⟩
    · have hle : length ≤ len := UInt32.le_iff_toNat_le.mpr (hlen ▸ hin)
      have hgrown : grown len length r = len :=
        if_neg fun hlt => absurd hlt.2 (UInt32.not_lt.mpr hle)
      rw [InRange, AllReads, hgrown]
      exact ih hrest
    · have hbelow : of.toNat + n ≤ len.toNat := by
        rw [hlen]
        exact hin
      exact ⟨hbelow, ih hrest⟩

theorem OnFile.follows {get : GetMore} (hon : OnFile file h) (hlen : len.toNat = file.length) :
    Follows get ⟨file, len⟩ h ⟨file, len⟩ := by
  induction h with
  | nil => exact .nil _
  | cons e h ih =>
    obtain ⟨⟨hans, hin⟩, hrest⟩ := List.forall_mem_cons.mp hon
    rcases e with ⟨length | ⟨field, of, n⟩, r⟩
    · have hle : ¬ length > len := UInt32.not_lt.mpr (UInt32.le_iff_toNat_le.mpr (hlen ▸ hin))
      have hr : r = true := by
        have hdec : r = decide (length.toNat ≤ file.length) := hans
        rw [hdec]
        exact decide_eq_true hin
      have hbuf := @Follows.ensureSize get ⟨file, len⟩ ⟨file, len⟩ length h none
        (fun h => absurd h hle) (by rw [ensureSize_fits hle]; exact ih hrest)
      rwa [ensureSize_fits hle, ← hr] at hbuf
    · have hr : r = fileOracle file (.read field of n) := hans
      exact .read (hr ▸ holds_fileOracle hlen) (ih hrest)

end Whole

theorem Buffer.Shows.read_eq {file : List UInt8} {c : Buffer} (hshow : c.Shows file)
    {field : ExifField} {of : UInt32} {n : ℕ} {b : Vector UInt8 n} (hb : c.Holds of b)
    (hc : of.toNat + n ≤ c.length.toNat) (hfile : of.toNat + n ≤ file.length) :
    b = fileOracle file (.read field of n) := by
  refine Vector.ext fun i hi => ?_
  have h1 := hb i hi (by omega)
  rw [hshow _ (by omega) (by omega), List.getElem?_eq_getElem (by omega)] at h1
  simp [fileOracle, List.getD_eq_getElem?_getD,
    List.getElem?_eq_getElem (show of.toNat + i < file.length by omega), Option.some.inj h1]

/-- **Only one run is possible on a buffer that shows the file**, if it reads inside both. -/
theorem runs_unique {α : Type} {file : List UInt8} {get : GetMore} {p : Prog ExifOp ExifOp.Ret α}
    {h h' : ExifHistory} {a a' : α} {c c' : Buffer} (hp : Prog.Runs p h a) (hon : OnFile file h)
    (hin : InRange c.length h) (hprov : Provided file get c.length h) (hshow : c.Shows file)
    (hp' : Prog.Runs p h' a') (hbuf : Follows get c h' c') : h' = h ∧ a' = a := by
  induction hp generalizing h' c with
  | ret a =>
    cases hp'
    exact ⟨rfl, rfl⟩
  | @call op k h a r _ ih =>
    obtain ⟨⟨hr, hinside⟩, hrest⟩ := List.forall_mem_cons.mp hon
    rcases op with length | ⟨field, of, n⟩
    · rcases hp' with _ | ⟨r', hr'⟩
      rcases hbuf with _ | _ | ⟨more, hmore, hbuf⟩
      -- the size is there, or the callback provides it
      have hok : (c.ensureSize length more).1 = true ∧ (c.ensureSize length more).2.Shows file ∧
          Provided file get (c.ensureSize length more).2.length h := by
        by_cases hlen : length > c.length
        · have hfills := hprov.resolve_right fun hsize => absurd
            (hsize _ (List.mem_cons_self ..) length rfl) (UInt32.not_le.mpr hlen)
          obtain ⟨buf, rfl, hbufshow⟩ := hfills c _ more hshow (hmore hlen)
          rw [ensureSize_more hlen]
          exact ⟨rfl, hbufshow, .inl hfills⟩
        · rw [ensureSize_fits hlen]
          exact ⟨rfl, hshow, hprov.imp_right fun hsize e he => hsize e (List.mem_cons_of_mem _ he)⟩
      have htrue : r = true := by
        have hdec : r = decide (length.toNat ≤ file.length) := hr
        rw [hdec]
        exact decide_eq_true hinside
      have hin' : InRange (c.ensureSize length more).2.length h := by
        rw [ensureSize_length, hok.1, ← htrue]
        exact hin
      rw [hok.1, ← htrue] at hr'
      obtain ⟨rfl, rfl⟩ := ih hrest hin' hok.2.2 hok.2.1 hr' hbuf
      rw [hok.1, htrue]
      exact ⟨rfl, rfl⟩
    · rcases hp' with _ | ⟨r', hr'⟩
      rcases hbuf with _ | ⟨hb, hbuf⟩
      obtain rfl : r' = r := by
        rw [show r = fileOracle file (.read field of n) from hr]
        exact hshow.read_eq hb hin.1 hinside
      obtain ⟨rfl, rfl⟩ := ih hrest hin.2
        (hprov.imp_right fun hsize e he => hsize e (List.mem_cons_of_mem _ he)) hshow hr' hbuf
      exact ⟨rfl, rfl⟩

end Exif

end Fuji
