import BleAtHost.Main.Lemmas.Refinement

/-!
# The firmware as a sequence of moves

The data path next to the actions. What every move keeps is kept by every step of the firmware.
-/

namespace BleAtHost.Main

open Relation

variable {s s' : App}

/-! ## The data path -/

theorem Streamed.refl (s : App) : Streamed s s := ⟨_, _, _, _, _, _, _, _, _, _, _, [], by simp, rfl⟩

theorem Streamed.trans {s'' : App} (h : Streamed s s') (h' : Streamed s' s'') : Streamed s s'' := by
  obtain ⟨_, _, _, _, _, _, _, _, _, _, _, new, hn, rfl⟩ := h
  obtain ⟨_, _, _, _, _, _, _, _, _, _, _, new', hn', rfl⟩ := h'
  refine ⟨_, _, _, _, _, _, _, _, _, _, _, new' ++ new, ?_, by rw [List.append_assoc]⟩
  intro o ho
  rcases List.mem_append.mp ho with ho | ho
  · exact hn' o ho
  · exact hn o ho

/-- Nothing is observed. -/
theorem Streamed.quiet {toBle : RingBuf Byte HOST_TO_BLE_RING_SIZE} {work retry coalesce paused rxIrq flushDue : Bool}
    {guard : Option Int} {stats : BleStreamStats} {escape : DataModeEscapeState} {last : Int} :
    Streamed s
      { s with
        hostToBleRing := toBle
        bleWriteWork := work
        bleWriteRetryWork := retry
        bleWriteCoalesceWork := coalesce
        escapeGuardWork := guard
        streamStats := stats
        controlRxPaused := paused
        rxIrqEnabled := rxIrq
        dataModeTxFlushDue := flushDue
        escapeState := escape
        lastHostRxTimeMs := last } :=
  ⟨_, _, _, _, _, _, _, _, _, _, _, [], by simp, rfl⟩

theorem streamed_note {o : Obs} (h : o.Streamed) (s : App) : Streamed s (s.note o) :=
  ⟨_, _, _, _, _, _, _, _, _, _, _, [o], by simpa using h, rfl⟩

theorem streamed_ite {c : Prop} [Decidable c] {t u : App} (ht : c → Streamed s t) (hu : ¬c → Streamed s u) :
    Streamed s (if c then t else u) := by
  split
  · rename_i hc; exact ht hc
  · rename_i hc; exact hu hc

theorem streamed_refresh (s : App) : Streamed s (refreshUartRxFlowControl s) := by
  unfold refreshUartRxFlowControl
  repeat' split
  all_goals exact Streamed.quiet

theorem streamed_schedule (s : App) : Streamed s (scheduleDataModeBleTx s) := by
  unfold scheduleDataModeBleTx
  repeat' split
  all_goals exact Streamed.quiet

theorem streamed_putHostToBle (s : App) (data : List Byte) : Streamed s (putHostToBle s data) :=
  ⟨_, _, _, _, _, _, _, _, _, _, _, [.h2bPut data (data.take s.hostToBleRing.spaceGet)], by simp [Obs.Streamed], rfl⟩

theorem streamed_flush (s : App) (now : Int) : Streamed s (flushEscapeCandidateAsPayload s now) := by
  unfold flushEscapeCandidateAsPayload
  split
  · exact Streamed.refl s
  · have hput : Streamed s (updateHostToBleDepth (putHostToBle s ([PLUS, PLUS, PLUS].take s.escapeState.count))) :=
      (streamed_putHostToBle s _).trans Streamed.quiet
    refine Streamed.trans (hput.trans ?_) (streamed_schedule _)
    exact ⟨_, _, _, _, _, _, _, _, _, _, _, [.uptime now], by simp [Obs.Streamed], rfl⟩

theorem streamed_openOrPut (s : App) (guardTimeMs : Nat) (b : RxByte) : Streamed s (openOrPut s guardTimeMs b) := by
  unfold openOrPut
  refine streamed_ite (fun _ => Streamed.quiet) fun _ => ?_
  have hput := streamed_putHostToBle s [b.ch]
  dsimp only
  split
  · exact hput.trans Streamed.quiet
  · exact hput.trans Streamed.quiet

theorem streamed_dataModeRxByte (guardTimeMs : Nat) (s : App) (b : RxByte) :
    Streamed s (dataModeRxByte guardTimeMs s b) := by
  unfold dataModeRxByte
  extract_lets t t'
  have htake : Streamed s t :=
    ⟨_, _, _, _, _, _, _, _, _, _, _, [.uptime b.now, .rx b s.escapeState.held s.lastHostRxTimeMs],
      by simp [Obs.Streamed], rfl⟩
  have hcancel : Streamed t t' := Streamed.quiet
  refine htake.trans (streamed_ite (fun _ => ?_) fun _ => streamed_openOrPut _ _ _)
  refine streamed_ite (fun _ => Streamed.quiet) fun _ => ?_
  exact (hcancel.trans (streamed_flush _ _)).trans (streamed_openOrPut _ _ _)

theorem streamed_dataModeRxBytes (guardTimeMs : Nat) (data : List RxByte) (s : App) :
    Streamed s (data.foldl (dataModeRxByte guardTimeMs) s) := by
  induction data generalizing s with
  | nil => exact Streamed.refl s
  | cons b data ih => exact (streamed_dataModeRxByte guardTimeMs s b).trans (ih _)

theorem streamed_handleDataModeRx (s : App) (data : List RxByte) : Streamed s (handleDataModeRx s data) :=
  ((streamed_dataModeRxBytes s.config.streamGuardTimeMs data s).trans (streamed_schedule _)).trans (streamed_refresh _)

/-! ## Moves -/

section
variable (env : Env) (report : App → StackReport → Prop)

abbrev Moves : App → App → Prop := ReflTransGen (Move env report)

end

variable {env : Env} {report : App → StackReport → Prop}

/-- No move enters data mode. -/
theorem Move.mode (h : Move env report s s') (hm : s.appState ≠ .dataMode) : s'.appState ≠ .dataMode := by
  cases h with
  | act ha => exact ha.mode hm
  | stream hs =>
      obtain ⟨_, _, _, _, _, _, _, _, _, _, _, _, _, rfl⟩ := hs
      exact hm
  | left now hd => exact absurd hd hm

theorem Moves.mode (h : Moves env report s s') (hm : s.appState ≠ .dataMode) : s'.appState ≠ .dataMode :=
  Runs.invariant (P := fun s => s.appState ≠ .dataMode) (fun hab ha => hab.mode ha) h hm

theorem Streamed.moves (h : Streamed s s') : Moves env report s s' := ReflTransGen.single (.stream h)

theorem Acts.moves (h : Acts env report s s') : Moves env report s s' := ReflTransGen.mono (fun _ _ hact => Move.act hact) _ _ h

theorem moves_escapeGuardWorkHandler (he : s.escapeState.active = true → s.appState = .dataMode) (now : Int)
    (hr : report s .guardTimer) : Moves env report s (escapeGuardWorkHandler { s with escapeGuardWork := none } now) := by
  have hcancel : Moves env report s { s with escapeGuardWork := none } := Streamed.moves Streamed.quiet
  have hleave : ∀ hm : s.appState = .dataMode,
      Moves env report s (leaveDataMode { s with escapeGuardWork := none } now) :=
    fun hm => ReflTransGen.single (.left now hm hr)
  generalize ht : ({ s with escapeGuardWork := none } : App) = t at hcancel hleave
  have he : t.escapeState.active = true → s.appState = .dataMode := by rw [← ht]; exact he
  unfold escapeGuardWorkHandler
  dsimp only
  split
  · exact hcancel
  · rename_i ha
    have ha : t.escapeState.active = true := by simpa using ha
    split
    · split
      · exact hcancel.trans
          (Streamed.moves ⟨_, _, _, _, _, _, _, _, _, _, _, [.guard now, .uptime now], by simp [Obs.Streamed], rfl⟩)
      · have hleft : Moves env report s (leaveDataMode t now) := hleave (he ha)
        have hline : Acts env report (leaveDataMode t now) (atHostNotifyDataMode (leaveDataMode t now) false) :=
          acts_line _ (restState_ne_dataMode t)
        exact hleft.trans (Acts.moves ((hline.tail .kick).tail .flow))
    · exact hcancel.trans (Streamed.moves ((streamed_flush t now).trans (streamed_note (by exact True.intro) _)))

theorem moves_sendChunk (s : App) : Moves env report s (sendChunk env s).2 := by
  have hclaim : Streamed s { s with hostToBleRing := (s.hostToBleRing.getClaim s.pm.payloadLen).2 } := Streamed.quiet
  generalize ht : ({ s with hostToBleRing := (s.hostToBleRing.getClaim s.pm.payloadLen).2 } : App) = t at hclaim
  have hsend : Acts env report t (profileManagerSend env t s.nextChunk).2 := acts_profileManagerSend env t s.nextChunk
  subst ht
  exact (hclaim.moves.trans (Acts.moves hsend)).trans (Streamed.moves (streamed_note (by exact True.intro) _))

theorem streamed_finishChunk (s : App) (claimLen : Nat) : Streamed s (finishChunk s claimLen) :=
  Streamed.trans Streamed.quiet (streamed_refresh _)

theorem moves_bleWriteLoop (passes : Nat) (s : App) : Moves env report s (bleWriteLoop env passes s) := by
  induction passes generalizing s with
  | zero => exact ReflTransGen.refl
  | succ passes ih =>
      unfold bleWriteLoop
      split; · exact ReflTransGen.refl
      split; · exact Streamed.moves Streamed.quiet
      split; · exact Streamed.moves Streamed.quiet
      split; · exact Streamed.moves Streamed.quiet
      have hsend : Moves env report s (sendChunk env s).2 := moves_sendChunk s
      rcases hr : sendChunk env s with ⟨err, t⟩
      rw [hr] at hsend
      dsimp only
      split
      · exact (hsend.trans (streamed_finishChunk t _).moves).trans (ih _)
      · split
        · exact hsend.trans (Streamed.moves Streamed.quiet)
        · exact hsend

theorem moves_stepApp (hl : LinkHeld s) (e : Event) (hr : ∀ r, e.report = some r → report s r) :
    Moves env report s (stepApp env s e) := by
  cases e with
  | bleWriteWork =>
      simp only [stepApp]
      split
      · have hrun : Moves env report s { s with bleWriteWork := false } := Streamed.moves Streamed.quiet
        exact hrun.trans (moves_bleWriteLoop _ _)
      · exact ReflTransGen.refl
  | bleWriteRetryWork =>
      simp only [stepApp]
      split
      · exact Streamed.moves Streamed.quiet
      · exact ReflTransGen.refl
  | bleWriteCoalesceWork =>
      simp only [stepApp]
      split
      · exact Streamed.moves Streamed.quiet
      · exact ReflTransGen.refl
  | escapeGuardWork now =>
      simp only [stepApp]
      split
      · exact moves_escapeGuardWorkHandler hl.escape now (hr _ rfl)
      · exact ReflTransGen.refl
  | _ => exact (acts_stepApp env hl id hr).moves

/-! ## The UART -/

theorem moves_controlUartIsrRx (f : Firmware) (data : List RxByte) :
    Moves env report f.app (controlUartIsrRx env f data).app := by
  simp only [controlUartIsrRx]
  split
  · exact Streamed.moves Streamed.quiet
  · split
    · exact ReflTransGen.refl
    · split
      · exact Streamed.moves ((streamed_note (by exact True.intro) _).trans (streamed_handleDataModeRx _ _))
      · rename_i hm
        have hrx : ∀ bytes : List Byte, Moves env report f.app (f.app.note (.atRx bytes)) :=
          fun bytes => Streamed.moves (streamed_note (by exact True.intro) _)
        generalize (data.take CONTROL_UART_RX_CHUNK).map RxByte.ch = bytes
        have hat : Acts env report (f.app.note (.atRx bytes))
            (AtHost.atHostRxBytes (atOps env) atTx ⟨f.host, f.app.note (.atRx bytes), f.trace⟩ bytes).ctx :=
          acts_atHostRxBytes env ⟨f.host, f.app.note (.atRx bytes), f.trace⟩ hm bytes
        exact (hrx bytes).trans hat.moves

theorem serves_activate (s : App) (now : Int) : ReflTransGen Serve s (activatePendingDataModeIfReady s now) := by
  unfold activatePendingDataModeIfReady
  split
  · exact ReflTransGen.refl
  · rename_i h
    push Not at h
    split
    · exact ReflTransGen.refl
    · rename_i hz
      have hp : s.dataModePendingEnter = true := by simpa using h.1
      have hentered : ReflTransGen Serve s (enterDataModeNow s now) :=
        ReflTransGen.single (.entered now hp h.2.1 h.2.2 (by simpa using hz))
      exact hentered.tail .flow

theorem serves_serviceUartTx (s : App) (accept now : Int) : ReflTransGen Serve s (serviceUartTx s accept now) := by
  have hact := serves_activate s now
  simp only [serviceUartTx]
  generalize activatePendingDataModeIfReady s now = t at hact ⊢
  refine hact.trans ?_
  split
  · generalize fillFrom t.bleToHostRing accept = r
    have hfill : ReflTransGen Serve t { t with bleToHostRing := r.2.2, log := .fill false r.2.1 :: t.log } :=
      ReflTransGen.single (.drained t.ctrlTxRing r.2.2 t.txIrqEnabled false r.2.1)
    split
    · exact hfill.tail .stopped
    · exact hfill.trans (serves_activate _ _)
  · generalize fillFrom t.ctrlTxRing accept = r
    have hfill : ReflTransGen Serve t { t with ctrlTxRing := r.2.2, log := .fill true r.2.1 :: t.log } :=
      ReflTransGen.single (.drained r.2.2 t.bleToHostRing t.txIrqEnabled true r.2.1)
    split
    · exact hfill.tail .stopped
    · exact hfill.trans (serves_activate _ _)

/-! ## Invariants -/

/-- What every move and every transmit service keep is kept by every step. -/
theorem step_kept {P : App → Prop} (hmove : ∀ {s s'}, Move env report s s' → P s → P s') {f : Firmware} {e : Event}
    (hserve : ∀ accept now rx, e = .uart (some (accept, now)) rx → f.app.txIrqEnabled → P f.app →
      P (serviceUartTx f.app accept now))
    (hl : LinkHeld f.app) (hr : ∀ r, e.report = some r → report f.app r) (h : P f.app) :
    P (step env f e).app := by
  have hmoves : ∀ {s s'}, Moves env report s s' → P s → P s' := fun hm hs =>
    Runs.invariant (P := P) (fun hab ha => hmove hab ha) hm hs
  cases e with
  | uart tx rx =>
      have htx : P (controlUartIsrTx f tx).app := by
        unfold controlUartIsrTx
        split
        · split
          · rename_i hirq
            exact hserve _ _ rx rfl hirq h
          · exact h
        · exact h
      simp only [step, controlUartIsr]
      generalize controlUartIsrTx f tx = g at htx ⊢
      split
      · split
        · exact hmoves (moves_controlUartIsrRx g _) htx
        · exact htx
      · exact htx
  | _ => exact hmoves (moves_stepApp hl _ hr) h

/-- The same for an invariant that does not look into the transmit service. -/
theorem step_kept_served {P : App → Prop} (hmove : ∀ {s s'}, Move env report s s' → P s → P s')
    (hserve : ∀ {s s'}, Serve s s' → P s → P s') {f : Firmware} {e : Event} (hl : LinkHeld f.app)
    (hr : ∀ r, e.report = some r → report f.app r) (h : P f.app) : P (step env f e).app :=
  step_kept hmove
    (fun accept now _ _ _ hs =>
      Runs.invariant (P := P) (fun hab ha => hserve hab ha) (serves_serviceUartTx f.app accept now) hs)
    hl hr h

end BleAtHost.Main
