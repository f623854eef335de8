import BleAtHost.Main.Lemmas.Control

/-!
# The transmitter

The interrupt of the transmitter is disabled only where nothing is left to send.
-/

namespace BleAtHost.Main

variable {s s' : App} {env : Env} {report : App → StackReport → Prop}

/-- Output waits for the transmitter, or the switch to data mode does. -/
def TxWaiting (s : App) : Prop :=
  s.ctrlTxRing.sizeGet ≠ 0 ∨ (s.appState = .dataMode ∧ s.bleToHostRing.sizeGet ≠ 0) ∨ s.dataModePendingEnter

def TxReady (s : App) : Prop := s.controlDtrReady → TxWaiting s → s.txIrqEnabled

/-- `uart_fifo_fill` accepts something of whatever it is given. -/
def Event.FillsSome (e : Event) : Prop :=
  ∀ accept now rx, e = .uart (some (accept, now)) rx → ∀ data ≠ [], 1 ≤ uartFifoFill accept data

def Event.accepts : Event → Bool
  | .uart (some (accept, _)) _ => 1 ≤ accept
  | _ => true

theorem fillsSome_of_accepts {e : Event} (h : e.accepts) : e.FillsSome := by
  rintro accept now rx rfl data hd
  have haccept : 1 ≤ accept := by simpa [Event.accepts] using h
  have hlen : 0 < data.length := List.length_pos_iff.mpr hd
  unfold uartFifoFill
  omega

/-- The switch to data mode is pending only outside data mode. -/
def PendingOutside (s : App) : Prop := s.dataModePendingEnter → s.appState ≠ .dataMode

/-! ## Queueing and the other changes -/

theorem TxReady.of_same (h : TxReady s) (hd : s'.controlDtrReady = s.controlDtrReady)
    (hi : s'.txIrqEnabled = s.txIrqEnabled) (hw : TxWaiting s' → TxWaiting s) : TxReady s' := by
  intro hdtr hwait
  rw [hi]
  exact h (hd ▸ hdtr) (hw hwait)

theorem TxReady.of_rings (h : TxReady s) (hd : s'.controlDtrReady = s.controlDtrReady)
    (hi : s'.txIrqEnabled = s.txIrqEnabled) (hc : s'.ctrlTxRing = s.ctrlTxRing)
    (hb : s'.bleToHostRing = s.bleToHostRing) (hp : s'.dataModePendingEnter = s.dataModePendingEnter)
    (hm : s.appState ≠ .dataMode → s'.appState ≠ .dataMode) : TxReady s' := by
  refine h.of_same hd hi ?_
  rintro (hwait | ⟨hmode, hwait⟩ | hpending)
  · exact .inl (hc ▸ hwait)
  · exact .inr (.inl ⟨not_not.mp (mt hm (not_not.mpr hmode)), hb ▸ hwait⟩)
  · exact .inr (.inr (hp ▸ hpending))

/-- With the interrupt enabled nothing else matters. -/
theorem TxReady.of_irq (h : s.txIrqEnabled) : TxReady s := fun _ _ => h

theorem txReady_kick (s : App) : TxReady (kickUartTx s) := by
  unfold kickUartTx
  split
  · rename_i hd
    intro hdtr
    simp [hdtr] at hd
  · exact .of_irq rfl

theorem TxReady.queueCtrlBytes (h : TxReady s) (data : List Byte) : TxReady (queueCtrlBytes s data) := by
  unfold Main.queueCtrlBytes
  split
  · exact h
  · exact txReady_kick _

theorem txReady_queueCtrlLine (s : App) (line : Text) : TxReady (queueCtrlLine s line) := by
  have hnewline : TxReady (queueCtrlBytes (queueCtrlBytes s line) newline) := by
    unfold queueCtrlBytes
    rw [if_neg (by simp [newline])]
    exact txReady_kick _
  exact hnewline

theorem TxReady.queueDataBytes (h : TxReady s) (data : List Byte) : TxReady (queueDataBytes s data) := by
  unfold Main.queueDataBytes
  split
  · exact h
  · exact txReady_kick _

theorem TxReady.flow (h : TxReady s) : TxReady (refreshUartRxFlowControl s) := by
  unfold refreshUartRxFlowControl
  repeat' split
  all_goals exact h

theorem TxReady.announceReady (h : TxReady s) : TxReady (announceReady s) := by
  have hmode : s.appState ≠ .dataMode → (Main.announceReady s).appState ≠ .dataMode := announceReady_mode
  rcases announceReady_cases s with ⟨he, _⟩ | ⟨he, _⟩
  · rw [he] at hmode ⊢; exact h.of_rings rfl rfl rfl rfl rfl hmode
  · rw [he] at hmode ⊢; exact h.of_rings rfl rfl rfl rfl rfl hmode

theorem flow_tx (s : App) : (refreshUartRxFlowControl s).txIrqEnabled = s.txIrqEnabled ∧
    (refreshUartRxFlowControl s).dataModePendingEnter = s.dataModePendingEnter := by
  unfold refreshUartRxFlowControl
  repeat' split
  all_goals exact ⟨rfl, rfl⟩

theorem TxReady.act (h : TxReady s) (ha : Act env report s s') : TxReady s' := by
  have hmode : s.appState ≠ .dataMode → s'.appState ≠ .dataMode := ha.mode
  cases ha with
  | line text => exact txReady_queueCtrlLine s text
  | raw data => exact h.queueCtrlBytes data
  | payloadInData data =>
      have hcount : TxReady (countPayload s data) := h
      exact hcount.queueDataBytes data
  | kick => exact txReady_kick s
  | lineState dtr =>
      cases dtr with
      | false => exact fun hd => by cases hd
      | true =>
          have hkick : TxReady (kickUartTx { s with controlDtrReady := true }) := txReady_kick _
          exact hkick
  | enterAccepted text => exact txReady_queueCtrlLine _ text
  | create peer =>
      simp only [createConnection] at hmode ⊢
      split
      · exact h.of_rings rfl rfl rfl rfl rfl id
      · exact h.of_rings rfl rfl rfl rfl rfl fun _ => by simp [setState]
  | closed conn reason hl hc hpc =>
      have hclosed : ClosedFrom s (closeConnection env s conn reason) conn := closedFrom hc hpc reason
      refine h.of_same hclosed.controlDtrReady hclosed.txIrqEnabled ?_
      rintro (hwait | ⟨hmode', _⟩ | hpending)
      · exact .inl (hclosed.ctrlTxRing ▸ hwait)
      · rw [hclosed.appState] at hmode'
        cases hmode'
      · rw [hclosed.dataModePendingEnter] at hpending
        cases hpending
  | readyFound => exact h.announceReady
  | subscribed => exact h.announceReady
  | flow => exact h.flow
  | saved key value =>
      simp only [settingsSaveOne] at hmode ⊢
      split
      · exact h.of_rings rfl rfl rfl rfl rfl id
      · exact h.of_rings rfl rfl rfl rfl rfl id
  | _ => exact h.of_rings rfl rfl rfl rfl rfl hmode

theorem TxReady.move (h : TxReady s) (hm : Move env report s s') : TxReady s' := by
  cases hm with
  | act ha => exact h.act ha
  | stream hs =>
      obtain ⟨_, _, _, _, _, _, _, _, _, _, _, _, _, rfl⟩ := hs
      exact h.of_rings rfl rfl rfl rfl rfl id
  | left now =>
      refine h.of_same rfl rfl ?_
      rintro (hwait | ⟨hmode, _⟩ | hpending)
      · exact .inl hwait
      · exact absurd hmode (restState_ne_dataMode s)
      · simp [leaveDataMode, clearDataModeSession] at hpending

/-! ## The transmit service -/

theorem fillFrom_idle {size : Nat} {ring : RingBuf Byte size} (h : ring.sizeGet = 0) (accept : Int) :
    fillFrom ring accept = (0, [], ring) := by
  have hclaim : (ring.getClaim UART_TX_CHUNK).1 = [] := by
    have hle := ring.getClaim_length_le_sizeGet UART_TX_CHUNK
    exact List.length_eq_zero_iff.mp (by omega)
  have hring : (ring.getClaim UART_TX_CHUNK).2 = ring := RingBuf.getClaim_of_nil hclaim
  unfold fillFrom
  generalize ring.getClaim UART_TX_CHUNK = r at hclaim hring ⊢
  obtain ⟨data, claimed⟩ := r
  dsimp only at hclaim hring ⊢
  rw [if_pos hclaim, hring]

theorem fillFrom_some {size : Nat} {ring : RingBuf Byte size} (h : ring.sizeGet ≠ 0) {accept : Int}
    (ha : ∀ data ≠ [], 1 ≤ uartFifoFill accept data) :
    ¬((fillFrom ring accept).1 = 0 ∨ (fillFrom ring accept).2.1 = []) := by
  have hclaim : (ring.getClaim UART_TX_CHUNK).1 ≠ [] := RingBuf.getClaim_ne_nil (by decide) (by omega)
  have hsent : 1 ≤ uartFifoFill accept (ring.getClaim UART_TX_CHUNK).1 := ha _ hclaim
  have hlen : 0 < (ring.getClaim UART_TX_CHUNK).1.length := List.length_pos_iff.mpr hclaim
  unfold fillFrom
  generalize ring.getClaim UART_TX_CHUNK = r at hclaim hsent hlen ⊢
  obtain ⟨data, claimed⟩ := r
  dsimp only at hclaim hsent hlen ⊢
  rw [if_neg hclaim]
  rintro (hz | hnil)
  · exact hclaim (List.length_eq_zero_iff.mp hz)
  · have htake := congrArg List.length hnil
    simp only [List.length_take, List.length_nil] at htake
    omega

/-- After the switch nothing is pending that could be done at once. -/
theorem activate_ready (hp : PendingOutside s) (hc : s.dataModePendingEnter → s.currentConn ≠ none) (now : Int) :
    (activatePendingDataModeIfReady s now).txIrqEnabled = s.txIrqEnabled ∧
      ((activatePendingDataModeIfReady s now).dataModePendingEnter →
        (activatePendingDataModeIfReady s now).appState ≠ .dataMode ∧
        (activatePendingDataModeIfReady s now).ctrlTxRing.sizeGet ≠ 0) := by
  unfold activatePendingDataModeIfReady
  split
  · rename_i hstays
    refine ⟨rfl, fun hpending => ?_⟩
    rcases hstays with hnot | hmode | hnone
    · simp [hpending] at hnot
    · exact absurd hmode (hp hpending)
    · exact absurd hnone (hc hpending)
  · split
    · rename_i hctrl
      exact ⟨rfl, fun hpending => ⟨hp hpending, hctrl⟩⟩
    · obtain ⟨hirq, hpending⟩ := flow_tx
        { s with
          dataModePendingEnter := false
          dataModeTxFlushDue := false
          escapeState := ⟨false, 0⟩
          bleWriteRetryWork := false
          bleWriteCoalesceWork := false
          lastHostRxTimeMs := now
          streamStats :=
            { s.streamStats with enterDataModeCount := addU32 s.streamStats.enterDataModeCount 1 }
          appState := .dataMode
          log := .enter now s.hostToBleRing.data :: .uptime now :: s.log }
      refine ⟨hirq, fun hwait => ?_⟩
      rw [hpending] at hwait
      cases hwait

theorem activate_irq (s : App) (now : Int) : (activatePendingDataModeIfReady s now).txIrqEnabled = s.txIrqEnabled := by
  unfold activatePendingDataModeIfReady
  split
  · rfl
  · split
    · rfl
    · exact (flow_tx _).1

/-- The service disables the interrupt when the ring it serves is empty; then the other one is not due. -/
theorem txReady_serviceUartTx (hp : PendingOutside s) (hc : s.dataModePendingEnter → s.currentConn ≠ none)
    (hi : s.txIrqEnabled) {accept : Int} (ha : ∀ data ≠ [], 1 ≤ uartFifoFill accept data) (now : Int) :
    TxReady (serviceUartTx s accept now) := by
  obtain ⟨hirq, hready⟩ := activate_ready hp hc now
  rw [hi] at hirq
  unfold serviceUartTx
  generalize activatePendingDataModeIfReady s now = t at hirq hready ⊢
  dsimp only
  split
  · rename_i hd
    by_cases hz : t.bleToHostRing.sizeGet = 0
    · rw [fillFrom_idle hz, if_pos (.inl rfl)]
      rintro _ (hwait | ⟨_, hwait⟩ | hpending)
      · exact absurd hd.2 hwait
      · exact absurd hz hwait
      · exact absurd hd.1 (hready hpending).1
    · rw [if_neg (fillFrom_some hz ha)]
      exact .of_irq ((activate_irq _ now).trans hirq)
  · rename_i hd
    by_cases hz : t.ctrlTxRing.sizeGet = 0
    · rw [fillFrom_idle hz, if_pos (.inl rfl)]
      rintro _ (hwait | ⟨hmode, _⟩ | hpending)
      · exact absurd hz hwait
      · exact absurd ⟨hmode, hz⟩ hd
      · exact absurd hz (hready hpending).2
    · rw [if_neg (fillFrom_some hz ha)]
      exact .of_irq ((activate_irq _ now).trans hirq)

/-! ## Runs -/

theorem PendingOutside.announceReady (h : PendingOutside s) : PendingOutside (announceReady s) := by
  rcases announceReady_cases s with ⟨he, _⟩ | ⟨he, _⟩
  · rw [he]; exact fun _ => by simp
  · rw [he]; exact h

theorem PendingOutside.control (h : PendingOutside s) (hc : Control env report s s') : PendingOutside s' := by
  cases hc with
  | aside ha =>
      intro hp
      rw [ha.appState]
      exact h (ha.dataModePendingEnter ▸ hp)
  | readyFound => exact h.announceReady
  | subscribed => exact h.announceReady
  | errorState => exact fun _ => by simp [setState]
  | disconnecting => exact fun _ => by simp [setState, App.ask]
  | enterAccepted he hcur hm => exact fun _ => hm
  | entered => exact fun hp => by simp [enterDataModeNow] at hp
  | left => exact fun hp => by simp [leaveDataMode, clearDataModeSession] at hp
  | scanning => exact fun _ => by simp [setState]
  | scanStopped => exact fun _ => restState_ne_dataMode s
  | create peer hcur =>
      simp only [createConnection]
      split
      · exact h
      · exact fun _ => by simp [setState]
  | connectFailed => exact fun _ => by simp
  | opened => exact fun _ => by simp
  | closed conn reason hl hcur hpc => exact fun _ => by rw [(closedFrom hcur hpc reason).appState]; simp
  | _ => exact h

theorem Reachable.pendingOutside {f : Firmware} (h : Reachable env f) : PendingOutside f.app :=
  Reachable.control (fun _ _ _ hp => by cases hp) (fun hc hp => hp.control hc) h

/-- While the transmitter accepts something of whatever it is given, its interrupt stays enabled as long as output
waits. -/
theorem tx_ready (env : Env) (config : BleHostConfig) (started : Int) (dtr : Bool) {es : List Event}
    (ha : Runs.Along (fun _ e => e.FillsSome) (step env) (boot config started dtr) es) :
    TxReady (Runs.run (step env) (boot config started dtr) es).app := by
  have hstep : ∀ f (e : Event), e.FillsSome → Reachable env f ∧ TxReady f.app →
      Reachable env (step env f e) ∧ TxReady (step env f e).app := by
    rintro f e hfills ⟨hf, hready⟩
    refine ⟨hf.next env e, ?_⟩
    have hmove : ∀ {s s'}, Move env anyReport s s' → TxReady s → TxReady s' := fun hm hs => hs.move hm
    refine step_kept hmove ?_ hf.linkHeld (fun _ _ => trivial) hready
    intro accept now rx he hi _
    exact txReady_serviceUartTx hf.pendingOutside (hf.bridge env).linked.conn_of_pending hi (hfills accept now rx he) now
  have hboot : TxReady (boot config started dtr).app := by
    rintro _ (hwait | ⟨hm, _⟩ | hp)
    · exact absurd rfl hwait
    · cases hm
    · cases hp
  exact (Runs.run_invariant_along (P := fun f => Reachable env f ∧ TxReady f.app) hstep
    ⟨⟨config, started, dtr, [], rfl⟩, hboot⟩ ha).2

/-- A notification in data mode, half sent. -/
theorem tx_ready_notification :
    TxReady (runDataMode (stackRefusing []) [.notify (some (ascii "abcd")), .uart (some (2, 4000)) none]).app := by
  refine tx_ready (stackRefusing []) sampleConfig 0 true (Runs.along_of_forall fun e he => fillsSome_of_accepts ?_)
  exact List.all_eq_true.mp (by decide) e he

end BleAtHost.Main
