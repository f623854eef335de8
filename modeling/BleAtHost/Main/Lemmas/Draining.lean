import BleAtHost.Lib.Liveness
import BleAtHost.Bridge.Lemmas.Queue
import BleAtHost.Main.Theorems.Pump

/-!
# How the queue to the peer drains

One step of a session in which no write is refused. Either bytes are accepted, or the step brings the next write
nearer: bytes are put, a plus more is held back, a work item has run.
-/

namespace BleAtHost.Main

open Relation

variable {s s' : App} {env : Env} {report : App → StackReport → Prop}

/-! ## Accepted writes -/

/-- The stack has accepted the write. -/
def Obs.unrefused : Obs → Bool
  | .write _ result _ => result == 0
  | _ => true

/-- No write on this connection was refused. -/
def Unrefused (log : List Obs) : Prop := ∀ o ∈ connection log, o.unrefused

theorem unrefused_of_cons {o : Obs} {log : List Obs} (ho : o ≠ .h2bReset) (h : Unrefused (o :: log)) : Unrefused log := by
  intro o' hmem
  refine h o' ?_
  rw [connection_cons ho]
  exact List.mem_cons_of_mem _ hmem

/-- Nothing is claimed between two handlers, and every chunk was claimed from the tail. -/
def Straight (q : Queue) : Prop := q.ring.claimed = 0 ∧ Rewound q.log

theorem rewound_cons {o : Obs} {log : List Obs} (ho : o ≠ .h2bReset) (ht : o.sentFromTail) (h : Rewound log) :
    Rewound (o :: log) := by
  intro o' hmem
  rw [connection_cons ho] at hmem
  rcases List.mem_cons.mp hmem with rfl | hmem
  · exact ht
  · exact h o' hmem

theorem straight_step {q q' : Queue} (hs : Queue.Step q q') (h : Unrefused q.log → Straight q) :
    Unrefused q'.log → Straight q' := by
  intro hu
  cases hs with
  | silent ho =>
      obtain ⟨hc, hr⟩ := h (unrefused_of_cons ho.not_reset hu)
      refine ⟨hc, rewound_cons ho.not_reset ?_ hr⟩
      cases ‹Obs› with
      | write => exact absurd ho id
      | _ => rfl
  | put data =>
      obtain ⟨hc, hr⟩ := h (unrefused_of_cons (by simp) hu)
      exact ⟨hc, rewound_cons (by simp) rfl hr⟩
  | sendFailed n k result hne =>
      have hsent := hu (.write (q.chunk n k) result q.ring.claimed) (by simp [Queue.send])
      exact absurd (by simpa [Obs.unrefused] using hsent) hne
  | sendAccepted n k =>
      obtain ⟨hc, hr⟩ := h (unrefused_of_cons (o := .write (q.chunk n k) 0 q.ring.claimed) (by simp) hu)
      exact ⟨(RingBuf.getClaim_getFinish (q.chunk_length_le n k)).2,
        rewound_cons (by simp) (by simp [Obs.sentFromTail, hc]) hr⟩
  | reset => exact ⟨rfl, by simp [Rewound]⟩
  | enter now =>
      obtain ⟨hc, hr⟩ := h (unrefused_of_cons (by simp) hu)
      exact ⟨hc, rewound_cons (by simp) rfl hr⟩

/-- While no write is refused, the bytes put on this connection are the bytes accepted followed by the bytes queued. -/
theorem Reachable.ordered {f : Firmware} (h : Reachable env f) (hu : Unrefused f.app.log) :
    f.app.hostToBleRing.claimed = 0 ∧
      collect Obs.stored (connection f.app.log) =
        collect Obs.accepted (connection f.app.log) ++ f.app.hostToBleRing.data := by
  obtain ⟨started, hs⟩ := Queue.of_reachable (h.bridge env)
  have hstart : Unrefused (Queue.start started).log → Straight (Queue.start started) :=
    fun _ => ⟨rfl, by simp [Rewound, Queue.start, Obs.sentFromTail]⟩
  obtain ⟨hc, hr⟩ := Runs.invariant (P := fun q => Unrefused q.log → Straight q) straight_step hs hstart hu
  exact ⟨hc, Queue.ordered hs hr⟩

/-! ## The rank -/

/-- How many pluses may still be held back, or how many are while nothing is read. -/
def heldRank (s : App) : Nat :=
  if s.hostToBleRing.spaceGet < CONTROL_UART_RX_CHUNK then min s.escapeState.held 4 else 4 - s.escapeState.held

def pumpRank (s : App) : Nat := if s.bleWriteWork then (if s.dataModeTxFlushDue then 0 else 2) else 1

/-- The room in the ring counts most, then the pluses held back, then the work items. -/
def drainRank (s : App) : Nat :=
  (s.hostToBleRing.spaceGet * 5 + heldRank s) * 6 + (if s.bleWriteRetryWork then 3 else 0) + pumpRank s

/-- The work item whose run brings the next write nearer. -/
def dueWork (s : App) : Event :=
  if s.bleWriteWork then .bleWriteWork else if s.bleWriteCoalesceWork then .bleWriteCoalesceWork else .bleWriteRetryWork

theorem pumpRank_le (s : App) : pumpRank s ≤ 2 := by
  unfold pumpRank
  split
  · split
    · omega
    · omega
  · omega

theorem heldRank_le (s : App) : heldRank s ≤ 4 := by
  unfold heldRank
  split
  · omega
  · omega

/-- Less room, or a better place among the pluses. -/
theorem drainRank_lt (h : s'.hostToBleRing.spaceGet < s.hostToBleRing.spaceGet ∨
    s'.hostToBleRing.spaceGet = s.hostToBleRing.spaceGet ∧ heldRank s' < heldRank s) : drainRank s' < drainRank s := by
  have hpump : pumpRank s' ≤ 2 := pumpRank_le s'
  have hheld : heldRank s' ≤ 4 := heldRank_le s'
  unfold drainRank
  split
  · split
    · omega
    · omega
  · split
    · omega
    · omega

/-! ## The receiver -/

/-- Bytes were put, or a plus more is held back. -/
def Fed (s s' : App) : Prop :=
  s'.hostToBleRing.spaceGet < s.hostToBleRing.spaceGet ∨
    s'.hostToBleRing.spaceGet = s.hostToBleRing.spaceGet ∧ s.escapeState.held < s'.escapeState.held ∧
      s'.escapeState.held ≤ 3

theorem Fed.drainRank_lt (h : Fed s s') (hs : CONTROL_UART_RX_CHUNK ≤ s.hostToBleRing.spaceGet) :
    drainRank s' < drainRank s := by
  apply Main.drainRank_lt
  rcases h with hless | ⟨hsame, hheld, hle⟩
  · exact .inl hless
  · refine .inr ⟨hsame, ?_⟩
    unfold heldRank
    rw [hsame, if_neg (by omega), if_neg (by omega)]
    omega

theorem spaceGet_putHostToBle (s : App) (data : List Byte) :
    (putHostToBle s data).hostToBleRing.spaceGet = s.hostToBleRing.spaceGet - data.length :=
  RingBuf.put_spaceGet s.hostToBleRing data

/-- What a schedule leaves alone. -/
theorem schedule_same (s : App) :
    (scheduleDataModeBleTx s).hostToBleRing = s.hostToBleRing ∧ (scheduleDataModeBleTx s).escapeState = s.escapeState := by
  unfold scheduleDataModeBleTx
  repeat' split
  all_goals exact ⟨rfl, rfl⟩

theorem refresh_same (s : App) :
    (refreshUartRxFlowControl s).hostToBleRing = s.hostToBleRing ∧ (refreshUartRxFlowControl s).escapeState = s.escapeState := by
  unfold refreshUartRxFlowControl
  repeat' split
  all_goals exact ⟨rfl, rfl⟩

/-- A flush of held-back pluses takes room, as far as there is any, and leaves none held back. -/
theorem flush_fed (ha : s.escapeState.active = true) (hn : s.escapeState.count ≠ 0) (now : Int) :
    (flushEscapeCandidateAsPayload s now).hostToBleRing.spaceGet =
        s.hostToBleRing.spaceGet - ([PLUS, PLUS, PLUS].take s.escapeState.count).length ∧
      (flushEscapeCandidateAsPayload s now).escapeState = ⟨false, 0⟩ := by
  unfold flushEscapeCandidateAsPayload
  rw [if_neg (by simp [ha, hn])]
  dsimp only
  rw [(schedule_same _).1, (schedule_same _).2]
  exact ⟨spaceGet_putHostToBle s _, rfl⟩

theorem flush_idle (h : !s.escapeState.active ∨ s.escapeState.count = 0) (now : Int) :
    flushEscapeCandidateAsPayload s now = s := by
  unfold flushEscapeCandidateAsPayload
  exact if_pos h

theorem flush_space_le (s : App) (now : Int) :
    (flushEscapeCandidateAsPayload s now).hostToBleRing.spaceGet ≤ s.hostToBleRing.spaceGet := by
  by_cases h : !s.escapeState.active ∨ s.escapeState.count = 0
  · rw [flush_idle h]
  · push Not at h
    rw [(flush_fed (by simpa using h.1) h.2 now).1]
    exact Nat.sub_le _ _

/-- A byte that does not continue a candidate. -/
theorem openOrPut_fed (s : App) (guardTimeMs : Nat) (b : RxByte) :
    (openOrPut s guardTimeMs b).hostToBleRing.spaceGet = s.hostToBleRing.spaceGet ∧
        (openOrPut s guardTimeMs b).escapeState = ⟨true, 1⟩ ∧ b.ch = PLUS ∨
      (openOrPut s guardTimeMs b).hostToBleRing.spaceGet = s.hostToBleRing.spaceGet - 1 := by
  unfold openOrPut
  split
  · rename_i hopen
    exact .inl ⟨rfl, rfl, hopen.1⟩
  · refine .inr ?_
    dsimp only
    split
    · exact spaceGet_putHostToBle s [b.ch]
    · exact spaceGet_putHostToBle s [b.ch]

theorem openOrPut_space_le (s : App) (guardTimeMs : Nat) (b : RxByte) :
    (openOrPut s guardTimeMs b).hostToBleRing.spaceGet ≤ s.hostToBleRing.spaceGet := by
  rcases openOrPut_fed s guardTimeMs b with ⟨he, _⟩ | he
  · exact he.le
  · rw [he]
    exact Nat.sub_le _ _

theorem dataModeRxByte_fed (guardTimeMs : Nat) (s : App) (b : RxByte) :
    (dataModeRxByte guardTimeMs s b).hostToBleRing.spaceGet ≤ s.hostToBleRing.spaceGet ∧
      (0 < s.hostToBleRing.spaceGet → Fed s (dataModeRxByte guardTimeMs s b)) := by
  unfold dataModeRxByte
  extract_lets t u
  have hput : ∀ v : App, (openOrPut v guardTimeMs b).hostToBleRing.spaceGet ≤ v.hostToBleRing.spaceGet :=
    fun v => openOrPut_space_le v guardTimeMs b
  split
  · rename_i ha
    split
    · rename_i hnext
      refine ⟨le_rfl, fun _ => .inr ⟨rfl, ?_, ?_⟩⟩
      · have ha : s.escapeState.active = true := ha
        simp [DataModeEscapeState.held, u, t, ha]
      · exact hnext.2
    · rename_i hnext
      have hflush : (flushEscapeCandidateAsPayload u b.flushNow).hostToBleRing.spaceGet ≤ s.hostToBleRing.spaceGet :=
        flush_space_le u b.flushNow
      refine ⟨(hput _).trans hflush, fun hroom => .inl ?_⟩
      by_cases hn : s.escapeState.count = 0
      · -- a byte other than a plus is put
        rw [flush_idle (s := u) (.inr hn)]
        rcases openOrPut_fed u guardTimeMs b with ⟨_, _, hplus⟩ | he
        · exact absurd ⟨hplus, by change s.escapeState.count < 3; omega⟩ hnext
        · rw [he]
          exact Nat.sub_lt hroom Nat.one_pos
      · have htaken := (flush_fed (s := u) ha hn b.flushNow).1
        have hlen : 0 < ([PLUS, PLUS, PLUS].take s.escapeState.count).length := by
          rw [List.length_take]
          simp
          omega
        refine lt_of_le_of_lt (hput _) ?_
        rw [htaken]
        exact Nat.sub_lt hroom hlen
  · rename_i ha
    refine ⟨hput t, fun hroom => ?_⟩
    rcases openOrPut_fed t guardTimeMs b with ⟨he, hesc, _⟩ | he
    · refine .inr ⟨he, ?_, ?_⟩
      · have ha : ¬s.escapeState.active = true := ha
        rw [hesc]
        simp [DataModeEscapeState.held, ha]
      · rw [hesc]
        decide
    · refine .inl ?_
      rw [he]
      exact Nat.sub_lt hroom Nat.one_pos

theorem dataModeRxBytes_fed (guardTimeMs : Nat) (data : List RxByte) (s : App) :
    (data.foldl (dataModeRxByte guardTimeMs) s).hostToBleRing.spaceGet ≤ s.hostToBleRing.spaceGet ∧
      (0 < s.hostToBleRing.spaceGet → data ≠ [] → Fed s (data.foldl (dataModeRxByte guardTimeMs) s)) := by
  induction data generalizing s with
  | nil => exact ⟨le_rfl, fun _ h => absurd rfl h⟩
  | cons b data ih =>
      obtain ⟨hle, hfed⟩ := dataModeRxByte_fed guardTimeMs s b
      obtain ⟨hle', hfed'⟩ := ih (dataModeRxByte guardTimeMs s b)
      refine ⟨hle'.trans hle, fun hroom _ => ?_⟩
      rcases hfed hroom with hless | ⟨hsame, hheld, hle3⟩
      · exact .inl (lt_of_le_of_lt hle' hless)
      by_cases hd : data = []
      · rw [hd]
        exact .inr ⟨hsame, hheld, hle3⟩
      · rcases hfed' (hsame ▸ hroom) hd with hless | ⟨hsame', hheld', hle3'⟩
        · exact .inl (hsame ▸ hless)
        · exact .inr ⟨hsame'.trans hsame, hheld.trans hheld', hle3'⟩

theorem handleDataModeRx_drains {data : List RxByte} (hd : data ≠ []) (hs : CONTROL_UART_RX_CHUNK ≤ s.hostToBleRing.spaceGet) :
    drainRank (handleDataModeRx s data) < drainRank s := by
  have hroom : 0 < s.hostToBleRing.spaceGet := lt_of_lt_of_le (by decide) hs
  have hfed : Fed s (data.foldl (dataModeRxByte s.config.streamGuardTimeMs) s) :=
    (dataModeRxBytes_fed s.config.streamGuardTimeMs data s).2 hroom hd
  refine Fed.drainRank_lt ?_ hs
  unfold handleDataModeRx Fed
  dsimp only
  rw [(refresh_same _).1, (refresh_same _).2, (schedule_same _).1, (schedule_same _).2]
  exact hfed

/-! ## What leaves the drain alone -/

structure SameDrain (s s' : App) : Prop where
  pump : SamePump s s'
  flushDue : s'.dataModeTxFlushDue = s.dataModeTxFlushDue
  escapeState : s'.escapeState = s.escapeState

theorem SameDrain.refl (s : App) : SameDrain s s := ⟨⟨rfl, rfl, rfl, rfl⟩, rfl, rfl⟩

theorem SameDrain.trans {s'' : App} (h : SameDrain s s') (h' : SameDrain s' s'') : SameDrain s s'' where
  pump :=
    ⟨h'.pump.hostToBleRing.trans h.pump.hostToBleRing, h'.pump.bleWriteWork.trans h.pump.bleWriteWork,
      h'.pump.bleWriteRetryWork.trans h.pump.bleWriteRetryWork, h'.pump.bleWriteCoalesceWork.trans h.pump.bleWriteCoalesceWork⟩
  flushDue := h'.flushDue.trans h.flushDue
  escapeState := h'.escapeState.trans h.escapeState

theorem SameDrain.rank (h : SameDrain s s') : drainRank s' = drainRank s ∧ dueWork s' = dueWork s := by
  simp only [drainRank, heldRank, pumpRank, dueWork, h.pump.hostToBleRing, h.pump.bleWriteWork, h.pump.bleWriteRetryWork,
    h.pump.bleWriteCoalesceWork, h.flushDue, h.escapeState, and_self]

theorem sameDrain_refresh (s : App) : SameDrain s (refreshUartRxFlowControl s) := by
  refine ⟨samePump_refresh s, ?_, (refresh_same s).2⟩
  unfold refreshUartRxFlowControl
  repeat' split
  all_goals rfl

theorem Act.sameDrain (h : Act env report s s') (hm : s'.appState = .dataMode) : SameDrain s s' := by
  have hpump : SamePump s s' := h.samePump hm
  have hready : (announceReady s).dataModeTxFlushDue = s.dataModeTxFlushDue ∧ (announceReady s).escapeState = s.escapeState := by
    rcases announceReady_cases s with ⟨he, _⟩ | ⟨he, _⟩
    · rw [he]; exact ⟨rfl, rfl⟩
    · rw [he]; exact ⟨rfl, rfl⟩
  cases h with
  | line text =>
      obtain ⟨_, _, _, _, he⟩ := queueCtrlLine_eq s text
      exact ⟨hpump, by rw [he], by rw [he]⟩
  | raw data =>
      obtain ⟨_, _, _, _, he⟩ := queueCtrlBytes_eq s data
      exact ⟨hpump, by rw [he], by rw [he]⟩
  | payloadInData data =>
      obtain ⟨_, _, _, _, _, he⟩ := queueDataBytes_eq (countPayload s data) data
      exact ⟨hpump, by rw [he]; rfl, by rw [he]; rfl⟩
  | kick =>
      obtain ⟨_, he⟩ := kickUartTx_eq s
      exact ⟨hpump, by rw [he], by rw [he]⟩
  | lineState dtr =>
      cases dtr with
      | _ => exact ⟨hpump, rfl, rfl⟩
  | enterAccepted text =>
      obtain ⟨_, _, _, _, he⟩ :=
        queueCtrlLine_eq { s with dataModePendingEnter := true, log := .enterAccepted :: s.log } text
      exact ⟨hpump, by rw [he], by rw [he]⟩
  | readyFound => exact ⟨hpump, hready.1, hready.2⟩
  | subscribed => exact ⟨hpump, hready.1, hready.2⟩
  | create peer hc =>
      refine ⟨hpump, ?_, ?_⟩
      · simp only [createConnection]
        split
        · rfl
        · rfl
      · simp only [createConnection]
        split
        · rfl
        · rfl
  | closed conn reason hl hc hpc =>
      rw [(closedFrom hc hpc reason).appState] at hm
      cases hm
  | flow => exact sameDrain_refresh s
  | saved key value =>
      refine ⟨hpump, ?_, ?_⟩
      · simp only [settingsSaveOne]
        split
        · rfl
        · rfl
      · simp only [settingsSaveOne]
        split
        · rfl
        · rfl
  | _ => exact ⟨hpump, rfl, rfl⟩

/-- In data mode at the end, so in data mode all along. -/
theorem Acts.sameDrain (h : Acts env report s s') (hm : s'.appState = .dataMode) : SameDrain s s' := by
  induction h with
  | refl => exact .refl s
  | tail _ hact ih =>
      have hbefore := not_not.mp fun hn => hact.mode hn hm
      exact (ih hbefore).trans (hact.sameDrain hm)

theorem Serve.sameDrain (h : Serve s s') (hm : s.appState = .dataMode) : SameDrain s s' ∧ s'.appState = .dataMode := by
  cases h with
  | entered now hp hn => exact absurd hm hn
  | flow => exact ⟨sameDrain_refresh s, (aside_flow s).appState.trans hm⟩
  | drained => exact ⟨⟨⟨rfl, rfl, rfl, rfl⟩, rfl, rfl⟩, hm⟩
  | stopped => exact ⟨⟨⟨rfl, rfl, rfl, rfl⟩, rfl, rfl⟩, hm⟩

theorem sameDrain_controlUartIsrTx {f : Firmware} (hm : f.app.appState = .dataMode) (tx : Option (Int × Int)) :
    SameDrain f.app (controlUartIsrTx f tx).app ∧ (controlUartIsrTx f tx).app.appState = .dataMode := by
  unfold controlUartIsrTx
  split
  · split
    · refine Runs.invariant (P := fun s => SameDrain f.app s ∧ s.appState = .dataMode) ?_ (serves_serviceUartTx f.app _ _)
        ⟨.refl _, hm⟩
      rintro a b hab ⟨hsame, ha⟩
      obtain ⟨hnext, hb⟩ := hab.sameDrain ha
      exact ⟨hsame.trans hnext, hb⟩
    · exact ⟨.refl _, hm⟩
  · exact ⟨.refl _, hm⟩

/-! ## The log of a connection -/

theorem Move.log_suffix (h : Move env report s s') : s.log <:+ s'.log :=
  Runs.invariant (P := fun t => s.log <:+ t.log) (fun hab ha => ha.trans hab.log_suffix) h.controls (List.suffix_refl _)

theorem Moves.log_suffix (h : Moves env report s s') : s.log <:+ s'.log :=
  Runs.invariant (P := fun t => s.log <:+ t.log) (fun hab ha => ha.trans hab.log_suffix) h (List.suffix_refl _)

/-- The ring to the peer is not reset, the session is not cleared. -/
def Obs.goesOn : Obs → Bool
  | .h2bReset | .clear _ => false
  | _ => true

/-- Nothing is put in the ring to the peer either. -/
def Obs.unfed : Obs → Bool
  | .h2bReset | .clear _ | .h2bPut _ _ => false
  | _ => true

theorem goesOn_of_unfed (o : Obs) (h : o.unfed) : o.goesOn := by
  cases o with
  | h2bReset | clear => cases h
  | _ => rfl

/-- The log grows by such observations only. -/
def Logged (kind : Obs → Bool) (s s' : App) : Prop := ∃ new, (∀ o ∈ new, kind o) ∧ s'.log = new ++ s.log

variable {kind kind' : Obs → Bool}

theorem Logged.refl (s : App) : Logged kind s s := ⟨[], by simp, rfl⟩

theorem Logged.trans {s'' : App} (h : Logged kind s s') (h' : Logged kind s' s'') : Logged kind s s'' := by
  obtain ⟨new, hn, hl⟩ := h
  obtain ⟨new', hn', hl'⟩ := h'
  refine ⟨new' ++ new, fun o ho => ?_, by rw [hl', hl, List.append_assoc]⟩
  rcases List.mem_append.mp ho with ho | ho
  · exact hn' o ho
  · exact hn o ho

theorem Logged.mono (hk : ∀ o, kind o → kind' o) (h : Logged kind s s') : Logged kind' s s' := by
  obtain ⟨new, hn, hl⟩ := h
  exact ⟨new, fun o ho => hk o (hn o ho), hl⟩

theorem logged_note {o : Obs} (ho : kind o) (hl : s'.log = o :: s.log) : Logged kind s s' :=
  ⟨[o], by simpa using ho, hl⟩

theorem logged_same (hl : s'.log = s.log) : Logged kind s s' := ⟨[], by simp, hl⟩

/-- Observations of another kind carry none of these bytes. -/
theorem Logged.collect_eq (h : Logged kind s s') {f : Obs → List Byte} (hf : ∀ o, kind o → f o = []) :
    collect f s'.log = collect f s.log := by
  obtain ⟨new, hn, hl⟩ := h
  rw [hl]
  clear hl
  induction new with
  | nil => rfl
  | cons o new ih =>
      rw [List.cons_append, collect, ih fun o' ho => hn o' (List.mem_cons_of_mem _ ho), hf o (hn o List.mem_cons_self),
        List.append_nil]

/-- The connection goes on, and so does the session. -/
abbrev Continues (s s' : App) : Prop := Logged Obs.goesOn s s'

theorem connection_append {new : List Obs} (h : ∀ o ∈ new, o.goesOn) (log : List Obs) :
    connection (new ++ log) = new ++ connection log := by
  induction new with
  | nil => rfl
  | cons o new ih =>
      have hne : o ≠ .h2bReset := by
        rintro rfl
        cases h _ List.mem_cons_self
      rw [List.cons_append, connection_cons hne, ih fun o' ho => h o' (List.mem_cons_of_mem _ ho)]
      rfl

theorem Continues.connectionLog (h : Continues s s') : ∃ new, connection s'.log = new ++ connection s.log := by
  obtain ⟨new, hn, hl⟩ := h
  exact ⟨new, by rw [hl, connection_append hn]⟩

theorem Continues.unrefused (h : Continues s s') (hu : Unrefused s'.log) : Unrefused s.log := by
  obtain ⟨new, hn⟩ := h.connectionLog
  intro o ho
  exact hu o (by rw [hn]; exact List.mem_append_right new ho)

theorem Continues.stream (h : Continues s s') (f : Obs → List Byte) :
    collect f (connection s.log) <+: collect f (connection s'.log) := by
  obtain ⟨new, hn⟩ := h.connectionLog
  rw [hn, collect_append]
  exact List.prefix_append _ _

theorem Streamed.continues (h : Streamed s s') : Continues s s' := by
  obtain ⟨_, _, _, _, _, _, _, _, _, _, _, new, hn, rfl⟩ := h
  refine ⟨new, fun o ho => ?_, rfl⟩
  have hstreamed := hn o ho
  cases o with
  | h2bReset | clear => exact absurd hstreamed id
  | _ => rfl

theorem logged_output {new : List Obs} (hn : ∀ o ∈ new, o.Output) (hl : s'.log = new ++ s.log) : Logged Obs.unfed s s' := by
  refine ⟨new, fun o ho => ?_, hl⟩
  have houtput := hn o ho
  cases o with
  | h2bReset | clear | h2bPut => exact absurd houtput id
  | _ => rfl

theorem logged_refresh (s : App) : Logged kind s (refreshUartRxFlowControl s) := by
  unfold refreshUartRxFlowControl
  repeat' split
  all_goals exact logged_same rfl

/-- Only the end of a connection resets the ring, only the receiver puts something in it. -/
theorem Act.logged (h : Act env report s s') (hm : s'.appState = .dataMode) : Logged Obs.unfed s s' := by
  have hready : Logged Obs.unfed s (announceReady s) := by
    rcases announceReady_cases s with ⟨he, _⟩ | ⟨he, _⟩
    · rw [he]; exact @logged_note _ _ _ (.callback .ready) rfl rfl
    · rw [he]; exact @logged_note _ _ _ (.callback .ready) rfl rfl
  cases h with
  | line text =>
      obtain ⟨_, _, _, hn, he⟩ := queueCtrlLine_eq s text
      exact logged_output hn (by rw [he])
  | raw data =>
      obtain ⟨_, _, _, hn, he⟩ := queueCtrlBytes_eq s data
      exact logged_output hn (by rw [he])
  | payloadInData data =>
      obtain ⟨_, _, _, _, hn, he⟩ := queueDataBytes_eq (countPayload s data) data
      have hcount : Logged Obs.unfed s (countPayload s data) := @logged_note _ _ _ (.notify data) rfl rfl
      exact hcount.trans (logged_output hn (by rw [he]))
  | kick =>
      obtain ⟨_, he⟩ := kickUartTx_eq s
      exact logged_same (by rw [he])
  | lineState dtr =>
      cases dtr with
      | _ => exact logged_same rfl
  | enterAccepted text =>
      obtain ⟨_, _, _, hn, he⟩ :=
        queueCtrlLine_eq { s with dataModePendingEnter := true, log := .enterAccepted :: s.log } text
      have hnote : Logged Obs.unfed s { s with dataModePendingEnter := true, log := .enterAccepted :: s.log } :=
        @logged_note _ _ _ .enterAccepted rfl rfl
      exact hnote.trans (logged_output hn (by rw [he]))
  | readyFound => exact hready
  | subscribed => exact hready
  | closed conn reason hl hc hpc =>
      rw [(closedFrom hc hpc reason).appState] at hm
      cases hm
  | create peer hc =>
      obtain ⟨_, _, _, _, _, hlog, _⟩ := createConnection_cases env s peer
      exact logged_note rfl hlog
  | flow => exact logged_refresh s
  | saved key value =>
      simp only [settingsSaveOne]
      split
      · exact @logged_note _ _ _ (.stack (.settingsSave key value) (env.answer s.calls)) rfl rfl
      · exact @logged_note _ _ _ (.stack (.settingsSave key value) (env.answer s.calls)) rfl rfl
  | connectFailed err conn =>
      exact ⟨[.connUnref conn, .connected err], by simp [Obs.unfed], rfl⟩
  | payload data | callback | opened | profile => exact logged_note rfl rfl
  | ask | subscribe | write | writeWithoutResponse | disconnecting | scanStopped | scanStuck =>
      exact logged_note rfl rfl
  | _ => exact logged_same rfl

theorem Act.continues (h : Act env report s s') (hm : s'.appState = .dataMode) : Continues s s' :=
  (h.logged hm).mono goesOn_of_unfed

theorem Move.continues (h : Move env report s s') (hm : s'.appState = .dataMode) : Continues s s' := by
  cases h with
  | act ha => exact ha.continues hm
  | stream hs => exact hs.continues
  | left now => exact absurd hm (restState_ne_dataMode s)

theorem Moves.continues (h : Moves env report s s') (hm : s'.appState = .dataMode) : Continues s s' := by
  induction h with
  | refl => exact .refl s
  | tail _ hmove ih =>
      have hbefore := not_not.mp fun hn => hmove.mode hn hm
      exact (ih hbefore).trans (hmove.continues hm)

theorem Serve.logged (h : Serve s s') : Logged Obs.unfed s s' := by
  cases h with
  | entered now => exact ⟨[.enter now s.hostToBleRing.data, .uptime now], by simp [Obs.unfed], rfl⟩
  | flow => exact logged_refresh s
  | drained ctrl toHost irq fromCtrl sent => exact @logged_note _ _ _ (.fill fromCtrl sent) rfl rfl
  | stopped => exact logged_same rfl

theorem Serve.continues (h : Serve s s') : Continues s s' := h.logged.mono goesOn_of_unfed

theorem step_continues {f : Firmware} (hl : LinkHeld f.app) (e : Event) (hm : (step env f e).app.appState = .dataMode) :
    Continues f.app (step env f e).app := by
  have hmoves : ∀ e, Moves env anyReport f.app (stepApp env f.app e) := fun e => moves_stepApp hl e fun _ _ => trivial
  cases e with
  | uart tx rx =>
      have htx : Continues f.app (controlUartIsrTx f tx).app := by
        unfold controlUartIsrTx
        split
        · split
          · exact Runs.invariant (P := Continues f.app) (fun hab ha => ha.trans hab.continues) (serves_serviceUartTx f.app _ _)
              (.refl _)
          · exact .refl _
        · exact .refl _
      simp only [step, controlUartIsr] at hm ⊢
      generalize controlUartIsrTx f tx = g at htx hm ⊢
      split
      · split
        · rename_i hirq
          simp only [hirq, if_true] at hm
          have hmoves : ∀ data, Moves env anyReport g.app (controlUartIsrRx env g data).app := moves_controlUartIsrRx g
          exact htx.trans ((hmoves _).continues hm)
        · exact htx
      · exact htx
  | _ => exact (hmoves _).continues hm

/-! ## The pump -/

/-- The number of bytes accepted on this connection. -/
def acceptedCount (s : App) : Nat := (collect Obs.accepted (connection s.log)).length

theorem Continues.accepted (h : Continues s s') : acceptedCount s ≤ acceptedCount s' := (h.stream Obs.accepted).length_le

theorem Moves.dataMode (h : Moves env report s s') (hm : s'.appState = .dataMode) : s.appState = .dataMode :=
  not_not.mp fun hn => h.mode hn hm

/-- A chunk that is not refused is accepted. -/
theorem sendChunk_accepted (hm : (sendChunk env s).2.appState = .dataMode) (hchunk : s.nextChunk ≠ [])
    (hu : Unrefused (sendChunk env s).2.log) : (sendChunk env s).1 = 0 ∧ acceptedCount s < acceptedCount (sendChunk env s).2 := by
  have hclaim : Continues s { s with hostToBleRing := (s.hostToBleRing.getClaim s.pm.payloadLen).2 } := logged_same rfl
  simp only [sendChunk] at hm hu ⊢
  generalize ({ s with hostToBleRing := (s.hostToBleRing.getClaim s.pm.payloadLen).2 } : App) = t at hm hu hclaim ⊢
  have hsend : Moves env anyReport t (profileManagerSend env t s.nextChunk).2 := (acts_profileManagerSend env t s.nextChunk).moves
  generalize profileManagerSend env t s.nextChunk = r at hm hu hsend ⊢
  have hok : r.1 = 0 := by
    have hwrite := hu (.write s.nextChunk r.1 s.hostToBleRing.claimed) (by simp [App.note])
    simpa [Obs.unrefused] using hwrite
  have hcontinues : Continues s r.2 := hclaim.trans (hsend.continues hm)
  have hle : acceptedCount s ≤ acceptedCount r.2 := hcontinues.accepted
  refine ⟨hok, ?_⟩
  have hlen : 0 < s.nextChunk.length := List.length_pos_iff.mpr hchunk
  have hmore : acceptedCount (r.2.note (.write s.nextChunk r.1 s.hostToBleRing.claimed)) =
      acceptedCount r.2 + s.nextChunk.length := by
    simp [acceptedCount, App.note, Obs.accepted, hok]
  omega

/-- A run of the pump has bytes accepted, or waits for more of them. -/
theorem bleWriteLoop_drains {passes : Nat} (hp : passes ≠ 0) (h : CanSend s) (hs : s.hostToBleRing.sizeGet ≠ 0)
    (hm : (bleWriteLoop env passes s).appState = .dataMode) (hu : Unrefused (bleWriteLoop env passes s).log) :
    acceptedCount s < acceptedCount (bleWriteLoop env passes s) ∨
      bleWriteLoop env passes s = { s with bleWriteCoalesceWork := true } ∧ s.dataModeTxFlushDue = false := by
  obtain ⟨passes, rfl⟩ := Nat.exists_eq_succ_of_ne_zero hp
  unfold bleWriteLoop at hm hu ⊢
  have hgo : ¬(s.currentConn = none ∨ (!profileManagerCanEnterDataMode s.pm) = true) := by simp [h.conn, h.canEnter]
  rw [if_neg hgo, if_neg hs] at hm hu ⊢
  split at hm
  · rename_i hwait
    rw [if_pos hwait]
    exact .inr ⟨rfl, by simpa using hwait.2.2⟩
  rename_i hdue
  rw [if_neg hdue] at hu ⊢
  have hchunk : s.nextChunk ≠ [] := nextChunk_ne_nil h.payloadLen hs
  rw [if_neg hchunk] at hm hu ⊢
  have hsent := @sendChunk_accepted s env
  rcases hr : sendChunk env s with ⟨err, t⟩
  rw [hr] at hsent hm hu
  dsimp only at hsent hm hu ⊢
  have hmoves : ∀ {u}, Moves env anyReport t u → u.appState = .dataMode → Unrefused u.log →
      err = 0 ∧ acceptedCount s < acceptedCount t ∧ Continues t u := by
    intro u htu hmu huu
    have hcontinues : Continues t u := htu.continues hmu
    obtain ⟨hok, hless⟩ := hsent (htu.dataMode hmu) hchunk (hcontinues.unrefused huu)
    exact ⟨hok, hless, hcontinues⟩
  split at hm
  · rename_i hok
    rw [if_pos hok] at hu ⊢
    obtain ⟨_, hless, hcontinues⟩ := hmoves ((streamed_finishChunk t _).moves.trans (moves_bleWriteLoop passes _)) hm hu
    exact .inl (lt_of_lt_of_le hless hcontinues.accepted)
  · rename_i hok
    rw [if_neg hok] at hu
    have hretried : Streamed t (if IsRetried err then { t with bleWriteRetryWork := true } else t) :=
      streamed_ite (fun _ => Streamed.quiet) fun _ => Streamed.refl t
    exact absurd (hmoves hretried.moves hm hu).1 hok

/-! ## Steps -/

/-- A step brings the next write nearer, or changes nothing about it and is not the run that is due. -/
def Nearer (s s' : App) (e : Event) : Prop :=
  acceptedCount s < acceptedCount s' ∨ drainRank s' < drainRank s ∨
    drainRank s' = drainRank s ∧ dueWork s' = dueWork s ∧ e ≠ dueWork s

theorem SameDrain.nearer (h : SameDrain s s') {e : Event} (he : e ≠ dueWork s) : Nearer s s' e :=
  .inr (.inr ⟨h.rank.1, h.rank.2, he⟩)

theorem dueWork_isWork (s : App) :
    dueWork s = .bleWriteWork ∨ dueWork s = .bleWriteCoalesceWork ∨ dueWork s = .bleWriteRetryWork := by
  unfold dueWork
  split
  · exact .inl rfl
  · split
    · exact .inr (.inl rfl)
    · exact .inr (.inr rfl)

/-- An expired guard time leaves data mode, or puts the pluses. -/
theorem escapeGuardWorkHandler_drains (now : Int) (hm : (escapeGuardWorkHandler s now).appState = .dataMode) :
    SameDrain s (escapeGuardWorkHandler s now) ∨ drainRank (escapeGuardWorkHandler s now) < drainRank s := by
  unfold escapeGuardWorkHandler at hm ⊢
  dsimp only at hm ⊢
  split
  · exact .inl (.refl s)
  rename_i ha
  rw [if_neg ha] at hm
  have ha : s.escapeState.active = true := by simpa using ha
  split
  · rename_i hn
    rw [if_pos hn] at hm
    split
    · exact .inl ⟨⟨rfl, rfl, rfl, rfl⟩, rfl, rfl⟩
    · rename_i hg
      rw [if_neg hg] at hm
      exact absurd hm (exitDataMode_mode _)
  · by_cases hz : s.escapeState.count = 0
    · rw [flush_idle (.inr hz)]
      exact .inl ⟨⟨rfl, rfl, rfl, rfl⟩, rfl, rfl⟩
    · obtain ⟨hspace, hesc⟩ := flush_fed ha hz now
      have hlen : 0 < ([PLUS, PLUS, PLUS].take s.escapeState.count).length := by
        rw [List.length_take]
        simp
        omega
      refine .inr ?_
      have hnote : drainRank ((flushEscapeCandidateAsPayload s now).note (.guard now)) =
          drainRank (flushEscapeCandidateAsPayload s now) := rfl
      rw [hnote]
      apply drainRank_lt
      by_cases hroom : s.hostToBleRing.spaceGet = 0
      · -- without room the pluses are lost, and none is held back any more
        refine .inr ⟨by omega, ?_⟩
        unfold heldRank
        rw [hspace, hesc, hroom]
        simp [CONTROL_UART_RX_CHUNK, DataModeEscapeState.held, ha]
        omega
      · refine .inl ?_
        rw [hspace]
        exact Nat.sub_lt (by omega) hlen

theorem controlUartIsrRx_drains {f : Firmware} (hm : f.app.appState = .dataMode) (data : List RxByte) :
    SameDrain f.app (controlUartIsrRx env f data).app ∨ drainRank (controlUartIsrRx env f data).app < drainRank f.app := by
  simp only [controlUartIsrRx]
  split
  · exact .inl ⟨⟨rfl, rfl, rfl, rfl⟩, rfl, rfl⟩
  rename_i hspace
  split
  · exact .inl (.refl _)
  rename_i hdata
  have hroom : CONTROL_UART_RX_CHUNK ≤ f.app.hostToBleRing.spaceGet := by
    by_contra hlow
    exact hspace ⟨hm, by omega⟩
  have hread : ∀ o : Obs, drainRank (handleDataModeRx (f.app.note o) (data.take CONTROL_UART_RX_CHUNK)) < drainRank f.app :=
    fun o => handleDataModeRx_drains (s := f.app.note o) hdata hroom
  exact .inr (hread _)

/-- What a step needs: a session that goes on, something to send, and an awake pump. -/
structure Draining (f f' : Firmware) : Prop where
  mode : f.app.appState = .dataMode
  mode' : f'.app.appState = .dataMode
  can : CanSend f.app
  claimed : f.app.hostToBleRing.claimed = 0
  stored : f.app.hostToBleRing.data ≠ []
  awake : PumpAwake f.app
  unrefused : Unrefused f'.app.log

theorem step_nearer {f : Firmware} {e : Event} (hl : LinkHeld f.app) (h : Draining f (step env f e)) :
    Nearer f.app (step env f e).app e := by
  have hsize : f.app.hostToBleRing.sizeGet ≠ 0 := by
    have hlen : 0 < f.app.hostToBleRing.data.length := List.length_pos_iff.mpr h.stored
    rw [RingBuf.sizeGet, h.claimed]
    omega
  have hm' := h.mode'
  have hu := h.unrefused
  have hacts : ∀ e : Event, ¬e.IsStream → (stepApp env f.app e).appState = .dataMode → SameDrain f.app (stepApp env f.app e) :=
    fun e he hm => (acts_stepApp env hl he fun r _ => by exact trivial : Acts env anyReport f.app (stepApp env f.app e)).sameDrain hm
  cases e with
  | uart tx rx =>
      have hother : Event.uart tx rx ≠ dueWork f.app := by
        rcases dueWork_isWork f.app with he | he | he
        · simp [he]
        · simp [he]
        · simp [he]
      obtain ⟨htx, hmtx⟩ := sameDrain_controlUartIsrTx h.mode tx
      simp only [step, controlUartIsr]
      generalize controlUartIsrTx f tx = g at htx hmtx ⊢
      split
      · split
        · rcases @controlUartIsrRx_drains env _ hmtx _ with hsame | hless
          · exact (htx.trans hsame).nearer hother
          · exact .inr (.inl (htx.rank.1 ▸ hless))
        · exact htx.nearer hother
      · exact htx.nearer hother
  | bleWriteWork =>
      simp only [step, stepApp] at hm' hu ⊢
      split
      · rename_i hw
        rw [if_pos hw] at hm' hu
        have hcan : CanSend { f.app with bleWriteWork := false } := h.can.of_route rfl (.refl _)
        rcases bleWriteLoop_drains (Nat.succ_ne_zero _) hcan hsize hm' hu with hmore | ⟨he, hdue⟩
        · exact .inl hmore
        · refine .inr (.inl ?_)
          unfold bleWriteWorkHandler
          rw [he]
          have hdue : f.app.dataModeTxFlushDue = false := hdue
          simp [drainRank, heldRank, pumpRank, hw, hdue]
      · rename_i hw
        refine (SameDrain.refl _).nearer ?_
        unfold dueWork
        rw [if_neg hw]
        split
        · simp
        · simp
  | bleWriteRetryWork =>
      simp only [step, stepApp]
      split
      · rename_i hw
        refine .inr (.inl ?_)
        have hpump : pumpRank (bleWriteRetryWorkHandler { f.app with bleWriteRetryWork := false }) ≤ 2 := pumpRank_le _
        have hrank : drainRank (bleWriteRetryWorkHandler { f.app with bleWriteRetryWork := false }) =
            (f.app.hostToBleRing.spaceGet * 5 + heldRank f.app) * 6 + 0 +
              pumpRank (bleWriteRetryWorkHandler { f.app with bleWriteRetryWork := false }) := rfl
        rw [hrank, drainRank, if_pos hw]
        omega
      · rename_i hw
        refine (SameDrain.refl _).nearer ?_
        unfold dueWork
        split
        · simp
        · rename_i hwork
          have hcoalesce : f.app.bleWriteCoalesceWork = true := by
            rcases h.awake (Nat.pos_of_ne_zero hsize) with hp | hp | hp
            · exact absurd hp hwork
            · exact absurd hp hw
            · exact hp
          rw [if_pos hcoalesce]
          simp
  | bleWriteCoalesceWork =>
      simp only [step, stepApp]
      split
      · have hrank : drainRank (bleWriteCoalesceWorkHandler { f.app with bleWriteCoalesceWork := false }) =
            (f.app.hostToBleRing.spaceGet * 5 + heldRank f.app) * 6 + (if f.app.bleWriteRetryWork then 3 else 0) + 0 := rfl
        by_cases hdue : f.app.bleWriteWork = true ∧ f.app.dataModeTxFlushDue = true
        · refine .inr (.inr ⟨?_, ?_, ?_⟩)
          · rw [hrank, drainRank, pumpRank, if_pos hdue.1, if_pos hdue.2]
          · simp [dueWork, bleWriteCoalesceWorkHandler, hdue.1]
          · simp [dueWork, hdue.1]
        · refine .inr (.inl ?_)
          have hpump : 0 < pumpRank f.app := by
            unfold pumpRank
            split
            · rw [if_neg (by tauto)]
              decide
            · decide
          rw [hrank, drainRank]
          omega
      · rename_i hw
        refine (SameDrain.refl _).nearer ?_
        unfold dueWork
        rw [if_neg hw]
        split
        · simp
        · simp
  | escapeGuardWork now =>
      have hother : Event.escapeGuardWork now ≠ dueWork f.app := by
        rcases dueWork_isWork f.app with he | he | he
        · simp [he]
        · simp [he]
        · simp [he]
      simp only [step, stepApp] at hm' ⊢
      split
      · rename_i hw
        rw [if_pos hw] at hm'
        have hcancel : SameDrain f.app { f.app with escapeGuardWork := none } := ⟨⟨rfl, rfl, rfl, rfl⟩, rfl, rfl⟩
        rcases escapeGuardWorkHandler_drains now hm' with hsame | hless
        · exact (hcancel.trans hsame).nearer hother
        · exact .inr (.inl (hcancel.rank.1 ▸ hless))
      · exact (SameDrain.refl _).nearer hother
  | _ =>
      refine (hacts _ id hm').nearer ?_
      rcases dueWork_isWork f.app with he | he | he
      · simp [he]
      · simp [he]
      · simp [he]

end BleAtHost.Main
