/-
What a poll reads of the payload (`fuji_get_events` in `fuji.c`).

Both loops of `fuji_get_events` trust the count at the start of the payload, and read it again
behind every event, from whatever the buffer then holds.  `fujiGetEvents_staysInside_iff` says
which payloads are safe, whatever the camera answers: those that hold all the events they count,
where none of these starts a transaction.
-/
import LibFuji.Events

namespace Fuji

open ByteCodec Interaction

section Bounds

variable {E : EventList} {payload rest : List UInt8} {h : History} {s : PtpRuntime}

/-- The camera has answered the poll with this payload. -/
def AnsweredWith (payload : List UInt8) (h : History) : Prop :=
  ∃ a t, h = ⟨.mutexLock, a⟩ :: ⟨.ptp (.getPropValue dpcEventsList), ⟨.ok, payload, ()⟩⟩ :: t

/-- The payload is an event list, with more behind it at most, and no event of the list starts a
transaction. -/
def HoldsQuietEvents (t : FujiTransport) (payload : List UInt8) : Prop :=
  ∃ E rest, payload = EventList.encode E ++ rest ∧ ∀ e ∈ E.events, ¬ e.Triggers t

/-! ### Payloads that are too short -/

theorem exists_fujiEvent {bs : List UInt8} (hlen : bs.length = 6) :
    ∃ e : FujiEvent, e.encode = bs := by
  have hcode : (bs.take 2).length = 2 := by simp [hlen]
  have hvalue : (bs.drop 2).length = 4 := by simp [hlen]
  refine ⟨⟨UInt16.ofNat (leNat (bs.take 2)), UInt32.ofNat (leNat (bs.drop 2))⟩, ?_⟩
  have hlt := leNat_lt (bs.take 2)
  have hlt' := leNat_lt (bs.drop 2)
  rw [hcode] at hlt
  rw [hvalue] at hlt'
  have h2 := leBytes_leNat (bs.take 2)
  have h4 := leBytes_leNat (bs.drop 2)
  rw [hcode] at h2
  rw [hvalue] at h4
  rw [FujiEvent.encode, UInt16.toNat_ofNat_of_lt' hlt, UInt32.toNat_ofNat_of_lt' hlt', h2, h4,
    List.take_append_drop]

/-- A payload that holds the events it counts is a list. -/
theorem exists_eventList (hlen : 2 ≤ payload.length)
    (hcount : 2 + 6 * leNat (payload.take 2) ≤ payload.length) :
    ∃ E rest, payload = EventList.encode E ++ rest := by
  obtain ⟨events, hevents, rest, hrest⟩ := exists_flatMap (fun bs => exists_fujiEvent)
    (leNat (payload.take 2)) (show _ ≤ (payload.drop 2).length by rw [List.length_drop]; omega)
  have hhead : (payload.take 2).length = 2 := by rw [List.length_take]; omega
  have hlt := leNat_lt (payload.take 2)
  rw [hhead] at hlt
  refine ⟨⟨events, by rw [hevents]; exact hlt⟩, rest, ?_⟩
  have hcode := leBytes_leNat (payload.take 2)
  rw [hhead] at hcode
  show payload = leBytes 2 events.length ++ events.flatMap FujiEvent.encode ++ rest
  rw [hevents, hcode, List.append_assoc, ← hrest, List.take_append_drop]

/-- The count at the start of the payload. -/
theorem readU16_count (hlen : 2 ≤ s.payload.length) :
    readU16 0 s = .ret (UInt16.ofNat (leNat (s.payload.take 2)), s) :=
  readU16_eq (readLe_isSome (by omega))

theorem toNat_count (hlen : 2 ≤ payload.length) :
    (UInt16.ofNat (leNat (payload.take 2))).toNat = leNat (payload.take 2) := by
  have hlt := leNat_lt (payload.take 2)
  rw [show (payload.take 2).length = 2 by rw [List.length_take]; omega] at hlt
  exact UInt16.toNat_ofNat_of_lt' hlt

/-- The loop that logs the events runs into the end of a payload that does not hold them all. -/
theorem logLoop_outside {i n : ℕ} (hlen : 2 ≤ s.payload.length)
    (hi : 2 + 6 * i ≤ s.payload.length) (hn : leNat (s.payload.take 2) ≤ i + n)
    (hout : s.payload.length < 2 + 6 * leNat (s.payload.take 2)) :
    ∃ x, Reaches (logLoop n i) s [⟨.outOfBounds x, (0 : UInt8)⟩] := by
  induction n generalizing i with
  | zero => omega
  | succ n ih =>
    show ∃ x, (logLoop (n + 1) i s).Reaches _
    rw [logLoop, bind_of_ret (readU16_count hlen), toNat_count hlen, if_pos (by omega)]
    rcases Nat.lt_or_ge s.payload.length (2 + 6 * i + 2) with hcode | hcode
    · obtain ⟨x, hx⟩ := readU16_outside hcode
      exact ⟨x, reaches_bind_left hx⟩
    rw [bind_of_ret (readU16_eq (readLe_isSome hcode))]
    rcases Nat.lt_or_ge s.payload.length (4 + 6 * i + 4) with hvalue | hvalue
    · obtain ⟨x, hx⟩ := readU32_outside hvalue
      exact ⟨x, reaches_bind_left hx⟩
    rw [bind_of_ret (readU32_eq (readLe_isSome hvalue))]
    exact ih (by omega) (by omega)

/-! ### The poll -/

/-- How far a poll comes that has been answered with a payload. -/
theorem reaches_answered {t : History}
    (hreach : Reaches (do
      let _ ← readU16 0
      logLoop 65536 0
      let rc ← eventLoop 65536 0
      ptpMutexUnlock
      return rc) (s.answered payload) t) :
    Reaches fujiGetEvents s (⟨.mutexLock, ()⟩ ::
      ⟨.ptp (.getPropValue dpcEventsList), ⟨.ok, payload, ()⟩⟩ :: t) := by
  rw [fujiGetEvents, ptpMutexLock]
  refine reaches_ask_bind.mpr (.inr ⟨(), _, rfl, reaches_transact_bind.mpr (.inr
    ⟨⟨.ok, payload, ()⟩, t, rfl, ?_⟩)⟩)
  rwa [if_neg (by simp), if_neg (by simp)]

/-- A payload from which nothing behind it is read holds the events it counts. -/
theorem exists_eventList_of_staysInside
    (hstays : ∀ h, Reaches fujiGetEvents s h → AnsweredWith payload h → StaysInside h) :
    ∃ E rest, payload = EventList.encode E ++ rest := by
  have hanswered {x : ℕ} (hreach : Reaches (do
      let _ ← readU16 0
      logLoop 65536 0
      let rc ← eventLoop 65536 0
      ptpMutexUnlock
      return rc) (s.answered payload) [⟨.outOfBounds x, (0 : UInt8)⟩]) : False :=
    hstays _ (reaches_answered hreach) ⟨(), _, rfl⟩ ⟨.outOfBounds x, (0 : UInt8)⟩ (by simp) x rfl
  have hlen : 2 ≤ payload.length := by
    by_contra hshort
    obtain ⟨x, hx⟩ := readU16_outside
      (show (s.answered payload).payload.length < 0 + 2 by rw [PtpRuntime.answered_payload]; omega)
    exact hanswered (reaches_bind_left hx)
  refine exists_eventList hlen ?_
  by_contra hshort
  have hlt := leNat_lt (payload.take 2)
  rw [show (payload.take 2).length = 2 by rw [List.length_take]; omega] at hlt
  obtain ⟨x, hx⟩ := logLoop_outside (s := s.answered payload) (i := 0) (n := 65536) hlen
    (by simpa using hlen) (by simpa using hlt.le) (by simpa using hshort)
  refine hanswered (x := x) ?_
  rw [Reaches, bind_of_ret (readU16_count hlen)]
  exact reaches_bind_left hx

/-- An event that starts a transaction may leave an empty payload behind. -/
theorem not_staysInside_of_triggers {i : ℕ} (hi : i < E.events.length)
    (ht : E.events[i].Triggers s.transport)
    (hquiet : ∀ j (hj : j < E.events.length), j < i → ¬ E.events[j].Triggers s.transport) :
    ∃ h, Reaches fujiGetEvents s h ∧ AnsweredWith (E.encode ++ rest) h ∧ ¬ StaysInside h := by
  have hlt := E.length_lt
  obtain ⟨s₁, hpayload, -, -, hcont⟩ : ∃ s₁, _ ∧ _ ∧ _ ∧ ∀ h s', _ → ∃ h', _ ∧ Polled E rest h' ∧ _ :=
    fujiGetEvents_run hi ht hquiet []
  have hzero (of : ℕ) : Exec (readU8 of) s₁ [⟨.outOfBounds of, (0 : UInt8)⟩] 0 s₁ := by
    rw [Exec, readU8, bind_of_ret (m := get) (a := s₁) rfl,
      List.getElem?_eq_none (by simp [hpayload])]
    show Exec (ask (.outOfBounds of)) s₁ _ _ s₁
    exact exec_ask _
  have hcount : Exec (readU16 0) s₁ _ 0 s₁ :=
    exec_bind (hzero 0) (exec_bind (hzero 1) (exec_pure _))
  obtain ⟨n, hn⟩ : ∃ n, 65535 - i = n + 1 := ⟨65534 - i, by omega⟩
  have hstop : Exec (eventLoop (n + 1) (i + 1)) s₁ _ .ok s₁ :=
    exec_bind hcount (exec_ite_neg (by simp) (exec_pure _))
  rw [← hn] at hstop
  obtain ⟨h, hrun, ⟨a, t, rfl⟩, hmem⟩ := hcont _ _ hstop
  refine ⟨_, hrun.reaches, ⟨a, t, rfl⟩, fun hstays => ?_⟩
  exact hstays ⟨.outOfBounds 0, (0 : UInt8)⟩ (hmem _ (by simp)) 0 rfl

/-- A list without such an event is walked in place. -/
theorem staysInside_of_quiet (hquiet : ∀ e ∈ E.events, ¬ e.Triggers s.transport)
    (hreach : Reaches fujiGetEvents s h) (hans : AnsweredWith (E.encode ++ rest) h) :
    StaysInside h := by
  obtain ⟨a, t, rfl⟩ := hans
  have hlt := E.length_lt
  let s₀ : PtpRuntime := s.answered (E.encode ++ rest)
  have hs₀ : s₀.payload = E.encode ++ rest := rfl
  have hloop := eventLoop_quiet hs₀ (i := 0) (k := E.events.length) (by omega)
    (fun j hj _ _ => hquiet _ (List.getElem_mem hj)) (65536 - E.events.length)
  rw [List.drop_zero, zero_add, List.take_length, Nat.sub_add_cancel (by omega),
    eventLoop_end (foldl_apply_payload.trans hs₀) le_rfl] at hloop
  obtain hnil | ⟨a', h₁, heq, hlocked⟩ := reaches_ask_bind.mp hreach
  · cases hnil
  obtain ⟨-, rfl⟩ := List.cons.inj heq
  obtain hnil | ⟨r, h₂, heq, hpolled⟩ := reaches_transact_bind.mp hlocked
  · cases hnil
  obtain ⟨hr, rfl⟩ := List.cons.inj heq
  obtain rfl : ⟨.ok, E.encode ++ rest, ()⟩ = r := by simpa using hr
  -- from here on only the mutex is left to be released
  rw [if_neg (by simp), if_neg (by simp), Reaches, bind_of_ret (readU16_length hs₀),
    bind_of_ret (logLoop_eq hs₀ 65536 0), bind_of_ret hloop] at hpolled
  have hunlock : ∀ e ∈ t, e.1 = .mutexUnlock :=
    issues_bind (A := (· = .mutexUnlock)) (issues_ask rfl) (fun _ => issues_pure _) _ t hpolled
  intro e he of heq
  rcases List.mem_cons.mp he with rfl | he
  · cases heq
  rcases List.mem_cons.mp he with rfl | he
  · cases heq
  · cases heq.symm.trans (hunlock e he)

/-- **Which payloads a poll reads only from the inside**, whatever else the camera answers: those
that hold all the events they count, none of which starts a transaction. -/
theorem fujiGetEvents_staysInside_iff (payload : List UInt8) (s : PtpRuntime) :
    (∀ h, Reaches fujiGetEvents s h → AnsweredWith payload h → StaysInside h) ↔
      HoldsQuietEvents s.transport payload := by
  constructor
  · intro hstays
    obtain ⟨E, rest, rfl⟩ := exists_eventList_of_staysInside hstays
    refine ⟨E, rest, rfl, fun e he ht => ?_⟩
    obtain ⟨i, hi, rfl⟩ := List.getElem_of_mem he
    induction i using Nat.strong_induction_on with | _ i ih =>
    -- the first event that starts a transaction
    obtain ⟨h, hreach, hans, hout⟩ : ∃ h, _ ∧ AnsweredWith (E.encode ++ rest) h ∧ _ :=
      not_staysInside_of_triggers hi ht fun j hj hji ht' => ih j hji hj (List.getElem_mem hj) ht'
    exact hout (hstays h hreach hans)
  · rintro ⟨E, rest, rfl, hquiet⟩ h hreach hans
    exact staysInside_of_quiet hquiet hreach hans

/-- An empty payload: the count is read from behind it. -/
theorem fujiGetEvents_emptyPayload :
    ¬ ∀ h, Reaches fujiGetEvents wirelessRuntime h → AnsweredWith [] h → StaysInside h := by
  intro hstays
  obtain ⟨x, hx⟩ := readU16_outside
    (show (wirelessRuntime.answered []).payload.length < 0 + 2 by decide)
  exact hstays _ (reaches_answered (reaches_bind_left hx)) ⟨(), _, rfl⟩
    ⟨.outOfBounds x, (0 : UInt8)⟩ (by simp) x rfl

end Bounds

end Fuji
