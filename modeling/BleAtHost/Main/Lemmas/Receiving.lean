import BleAtHost.Main.Lemmas.Draining

/-!
# What the receiver may still put in the ring

With the receiver off only held-back pluses may still be put in the ring to the peer, once. Everything else that happens
in data mode takes from the ring, or leaves it alone.
-/

namespace BleAtHost.Main

open Relation

variable {env : Env} {f : Firmware}

/-- Nothing is put in the ring to the peer, and nothing is held back or let go. -/
structure Unfed (s s' : App) : Prop where
  log : Logged Obs.unfed s s'
  escapeState : s'.escapeState = s.escapeState

theorem Unfed.refl (s : App) : Unfed s s := ⟨.refl s, rfl⟩

theorem Unfed.trans {s s' s'' : App} (h : Unfed s s') (h' : Unfed s' s'') : Unfed s s'' :=
  ⟨h.log.trans h'.log, h'.escapeState.trans h.escapeState⟩

theorem Acts.unfed {report : App → StackReport → Prop} {s s' : App} (h : Acts env report s s') (hm : s'.appState = .dataMode) :
    Unfed s s' := by
  refine ⟨?_, (h.sameDrain hm).escapeState⟩
  induction h with
  | refl => exact .refl s
  | tail _ hact ih =>
      have hbefore := not_not.mp fun hn => hact.mode hn hm
      exact (ih hbefore).trans (hact.logged hm)

theorem refresh_unfed (s : App) : Unfed s (refreshUartRxFlowControl s) := ⟨logged_refresh s, (refresh_same s).2⟩

theorem sendChunk_unfed {s : App} (hm : (sendChunk env s).2.appState = .dataMode) : Unfed s (sendChunk env s).2 := by
  have hclaim : Unfed s { s with hostToBleRing := (s.hostToBleRing.getClaim s.pm.payloadLen).2 } := ⟨logged_same rfl, rfl⟩
  simp only [sendChunk] at hm ⊢
  generalize ({ s with hostToBleRing := (s.hostToBleRing.getClaim s.pm.payloadLen).2 } : App) = t at hm hclaim ⊢
  have hsend : Acts env anyReport t (profileManagerSend env t s.nextChunk).2 := acts_profileManagerSend env t s.nextChunk
  generalize profileManagerSend env t s.nextChunk = r at hm hsend ⊢
  exact (hclaim.trans (hsend.unfed hm)).trans ⟨logged_note rfl rfl, rfl⟩

theorem finishChunk_unfed (s : App) (claimLen : Nat) : Unfed s (finishChunk s claimLen) := by
  refine Unfed.trans ?_ (refresh_unfed _)
  exact ⟨logged_same rfl, rfl⟩

/-- The pump takes from the ring only. -/
theorem bleWriteLoop_unfed {passes : Nat} {s : App} (hm : (bleWriteLoop env passes s).appState = .dataMode) :
    Unfed s (bleWriteLoop env passes s) := by
  induction passes generalizing s with
  | zero => exact .refl s
  | succ passes ih =>
      unfold bleWriteLoop at hm ⊢
      split at hm
      · rename_i hc; rw [if_pos hc]; exact .refl s
      rename_i hc; rw [if_neg hc]
      split at hm
      · rename_i hc; rw [if_pos hc]; exact ⟨logged_same rfl, rfl⟩
      rename_i hc; rw [if_neg hc]
      split at hm
      · rename_i hc; rw [if_pos hc]; exact ⟨logged_same rfl, rfl⟩
      rename_i hc; rw [if_neg hc]
      split at hm
      · rename_i hc; rw [if_pos hc]; exact ⟨logged_same rfl, rfl⟩
      rename_i hc; rw [if_neg hc]
      have hsend := @sendChunk_unfed env s
      rcases hr : sendChunk env s with ⟨err, t⟩
      rw [hr] at hsend hm
      dsimp only at hsend hm ⊢
      split at hm
      · rename_i hok
        rw [if_pos hok]
        have hfinish : Moves env anyReport t (bleWriteLoop env passes (finishChunk t s.nextChunk.length)) :=
          (streamed_finishChunk t _).moves.trans (moves_bleWriteLoop passes _)
        exact ((hsend (hfinish.dataMode hm)).trans (finishChunk_unfed t _)).trans (ih hm)
      · rename_i hok
        rw [if_neg hok]
        split at hm
        · rename_i hretried
          rw [if_pos hretried]
          exact (hsend hm).trans ⟨logged_same rfl, rfl⟩
        · rename_i hretried
          rw [if_neg hretried]
          exact hsend hm

/-- The bytes that were put in the ring, and the pluses that may still be. -/
def owed (s : App) : Nat := (collect Obs.stored s.log).length + s.escapeState.held

theorem Unfed.owed {s s' : App} (h : Unfed s s') : owed s' = owed s := by
  have hstored : collect Obs.stored s'.log = collect Obs.stored s.log :=
    h.log.collect_eq fun o ho => by
      cases o with
      | h2bPut => cases ho
      | _ => rfl
  rw [Main.owed, Main.owed, hstored, h.escapeState]

theorem schedule_log (s : App) : (scheduleDataModeBleTx s).log = s.log := by
  unfold scheduleDataModeBleTx
  repeat' split
  all_goals rfl

theorem flush_log {s : App} (ha : s.escapeState.active = true) (hn : s.escapeState.count ≠ 0) (now : Int) :
    (flushEscapeCandidateAsPayload s now).log =
      .uptime now ::
        .h2bPut ([PLUS, PLUS, PLUS].take s.escapeState.count)
          (([PLUS, PLUS, PLUS].take s.escapeState.count).take s.hostToBleRing.spaceGet) ::
        s.log := by
  have hgo : ¬((!s.escapeState.active) = true ∨ s.escapeState.count = 0) := by simp [ha, hn]
  unfold flushEscapeCandidateAsPayload
  rw [if_neg hgo]
  exact schedule_log _

/-- The pluses that are put are no longer held back. -/
theorem flush_owed (s : App) (now : Int) : owed (flushEscapeCandidateAsPayload s now) ≤ owed s := by
  by_cases hidle : (!s.escapeState.active) = true ∨ s.escapeState.count = 0
  · rw [flush_idle hidle]
  · push Not at hidle
    have ha : s.escapeState.active = true := by simpa using hidle.1
    have hesc : (flushEscapeCandidateAsPayload s now).escapeState = ⟨false, 0⟩ := (flush_fed ha hidle.2 now).2
    unfold owed
    rw [flush_log ha hidle.2, hesc]
    simp only [collect, Obs.stored, List.append_nil, List.length_append, List.length_take, DataModeEscapeState.held, ha,
      Bool.false_eq_true, if_false, if_true]
    have hheld : min s.hostToBleRing.spaceGet (min s.escapeState.count [PLUS, PLUS, PLUS].length) ≤ s.escapeState.count :=
      (min_le_right _ _).trans (min_le_left _ _)
    omega

theorem escapeGuardWorkHandler_owed {s : App} (now : Int) (hm : (escapeGuardWorkHandler s now).appState = .dataMode) :
    owed (escapeGuardWorkHandler s now) ≤ owed s := by
  unfold escapeGuardWorkHandler at hm ⊢
  dsimp only at hm ⊢
  split
  · exact le_rfl
  rename_i ha
  rw [if_neg ha] at hm
  split
  · rename_i hn
    rw [if_pos hn] at hm
    split
    · have hwait : Unfed s
          { s.note (.uptime now) with
            escapeGuardWork := some (now + s.config.streamGuardTimeMs)
            log := .guard now :: (s.note (.uptime now)).log } :=
        ⟨⟨[.guard now, .uptime now], by simp [Obs.unfed], rfl⟩, rfl⟩
      exact hwait.owed.le
    · rename_i hg
      rw [if_neg hg] at hm
      exact absurd hm (exitDataMode_mode _)
  · have hnote : Unfed (flushEscapeCandidateAsPayload s now) ((flushEscapeCandidateAsPayload s now).note (.guard now)) :=
      ⟨logged_note rfl rfl, rfl⟩
    exact hnote.owed.le.trans (flush_owed s now)

/-- In data mode the transmitter leaves the receiver alone. -/
theorem serviceUartTx_receiver {s : App} (hm : s.appState = .dataMode) (accept now : Int) :
    Unfed s (serviceUartTx s accept now) ∧ (serviceUartTx s accept now).rxIrqEnabled = s.rxIrqEnabled := by
  have hstays : ∀ {t : App}, t.appState = .dataMode → activatePendingDataModeIfReady t now = t := by
    intro t ht
    unfold activatePendingDataModeIfReady
    exact if_pos (.inr (.inl ht))
  have hfilled : ∀ t : App, t.appState = .dataMode → Unfed s t ∧ t.rxIrqEnabled = s.rxIrqEnabled →
      Unfed s (activatePendingDataModeIfReady t now) ∧
        (activatePendingDataModeIfReady t now).rxIrqEnabled = s.rxIrqEnabled := by
    intro t ht hsame
    rw [hstays ht]
    exact hsame
  simp only [serviceUartTx, hstays hm]
  split
  · split
    · exact ⟨⟨logged_note rfl rfl, rfl⟩, rfl⟩
    · exact hfilled _ hm ⟨⟨logged_note rfl rfl, rfl⟩, rfl⟩
  · split
    · exact ⟨⟨logged_note rfl rfl, rfl⟩, rfl⟩
    · exact hfilled _ hm ⟨⟨logged_note rfl rfl, rfl⟩, rfl⟩

/-- With the receiver off nothing new is owed. -/
theorem step_owed (hl : LinkHeld f.app) (hoff : f.app.rxIrqEnabled = false) (hm : f.app.appState = .dataMode) (e : Event)
    (hm' : (step env f e).app.appState = .dataMode) : owed (step env f e).app ≤ owed f.app := by
  have hacts : ∀ e : Event, ¬e.IsStream → (stepApp env f.app e).appState = .dataMode → owed (stepApp env f.app e) ≤ owed f.app :=
    fun e he hm =>
      ((acts_stepApp env hl he fun r _ => by exact trivial : Acts env anyReport f.app (stepApp env f.app e)).unfed hm).owed.le
  cases e with
  | uart tx rx =>
      have htx : Unfed f.app (controlUartIsrTx f tx).app ∧ (controlUartIsrTx f tx).app.rxIrqEnabled = false := by
        unfold controlUartIsrTx
        split
        · split
          · exact ⟨(serviceUartTx_receiver hm _ _).1, (serviceUartTx_receiver hm _ _).2.trans hoff⟩
          · exact ⟨.refl _, hoff⟩
        · exact ⟨.refl _, hoff⟩
      simp only [step, controlUartIsr]
      generalize controlUartIsrTx f tx = g at htx ⊢
      split
      · simp only [htx.2]
        exact htx.1.owed.le
      · exact htx.1.owed.le
  | bleWriteWork =>
      simp only [step, stepApp] at hm' ⊢
      split
      · rename_i hw
        rw [if_pos hw] at hm'
        have hrun : Unfed f.app { f.app with bleWriteWork := false } := ⟨logged_same rfl, rfl⟩
        exact (hrun.trans (bleWriteLoop_unfed hm')).owed.le
      · exact le_rfl
  | bleWriteRetryWork =>
      simp only [step, stepApp]
      split
      · exact le_rfl
      · exact le_rfl
  | bleWriteCoalesceWork =>
      simp only [step, stepApp]
      split
      · exact le_rfl
      · exact le_rfl
  | escapeGuardWork now =>
      simp only [step, stepApp] at hm' ⊢
      split
      · rename_i hw
        rw [if_pos hw] at hm'
        exact escapeGuardWorkHandler_owed (s := { f.app with escapeGuardWork := none }) now hm'
      · exact le_rfl
  | _ => exact hacts _ id hm'

theorem length_collect_connection (g : Obs → List Byte) (log : List Obs) :
    (collect g (connection log)).length ≤ (collect g log).length := by
  induction log with
  | nil => exact le_rfl
  | cons o log ih =>
      by_cases ho : o = .h2bReset
      · subst ho
        exact Nat.zero_le _
      · rw [connection_cons ho, collect, collect, List.length_append, List.length_append]
        omega

end BleAtHost.Main
