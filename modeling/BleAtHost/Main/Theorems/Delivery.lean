import BleAtHost.Bridge.Lemmas.Outlets
import BleAtHost.Main.Lemmas.Wire
import BleAtHost.Main.Theorems.Liveness
import BleAtHost.Main.Theorems.Transmit

/-!
# What reaches the host in the end

Runs that never end, with a terminal at the port and a transmitter that is ready again and again. Control bytes come
first, so they need nothing else; data and the switch to data mode wait until no control bytes do.
-/

namespace BleAtHost.Main

open Relation

variable {s s' : App} {env : Env} {f : Firmware} {es : Nat → Event}

/-- The transmitter is ready. -/
def Event.Transmits (e : Event) : Prop := ∃ accept now rx, e = .uart (some (accept, now)) rx

/-- A terminal is there, and at the start the interrupt of the transmitter is enabled if output waits. The transmitter
accepts something whenever it is ready, and it is ready again and again. -/
structure Served (env : Env) (f : Firmware) (es : Nat → Event) : Prop where
  reachable : Reachable env f
  ready : TxReady f.app
  fills : ∀ n, (es n).FillsSome
  again : Runs.Often es Event.Transmits
  terminal : ∀ n, (Runs.course (step env) f es n).app.controlDtrReady

/-! ## One pass of the service -/

theorem activate_waits (hz : s.ctrlTxRing.sizeGet ≠ 0) (now : Int) : activatePendingDataModeIfReady s now = s := by
  unfold activatePendingDataModeIfReady
  split
  · rfl
  · rfl

theorem activate_log (s : App) (now : Int) : s.log <:+ (activatePendingDataModeIfReady s now).log :=
  Runs.invariant (P := fun t => s.log <:+ t.log)
    (fun hab ha => ha.trans (hab.continues.elim fun new hn => hn.2 ▸ List.suffix_append new _)) (serves_activate s now)
    List.suffix_rfl

/-- Control bytes that wait come first. -/
theorem serviceUartTx_ctrl (hz : s.ctrlTxRing.sizeGet ≠ 0) {accept : Int} (ha : ∀ data ≠ [], 1 ≤ uartFifoFill accept data)
    (now : Int) : ∃ sent, sent ≠ [] ∧ .fill true sent :: s.log <:+ (serviceUartTx s accept now).log := by
  have hsome := fillFrom_some hz ha
  have hctrl : ¬(s.appState = .dataMode ∧ s.ctrlTxRing.sizeGet = 0) := fun hd => hz hd.2
  simp only [serviceUartTx, activate_waits hz, if_neg hctrl, if_neg hsome]
  exact ⟨(fillFrom s.ctrlTxRing accept).2.1, fun hnil => hsome (.inr hnil),
    activate_log
      { s with
        ctrlTxRing := (fillFrom s.ctrlTxRing accept).2.2
        log := .fill true (fillFrom s.ctrlTxRing accept).2.1 :: s.log }
      now⟩

/-- In data mode data bytes follow when no control bytes wait. -/
theorem serviceUartTx_data (hm : s.appState = .dataMode) (hz : s.ctrlTxRing.sizeGet = 0)
    (hw : s.bleToHostRing.sizeGet ≠ 0) {accept : Int} (ha : ∀ data ≠ [], 1 ≤ uartFifoFill accept data) (now : Int) :
    ∃ sent, sent ≠ [] ∧ .fill false sent :: s.log <:+ (serviceUartTx s accept now).log := by
  have hsome := fillFrom_some hw ha
  have hstays : activatePendingDataModeIfReady s now = s := by
    unfold activatePendingDataModeIfReady
    exact if_pos (.inr (.inl hm))
  have hdata : s.appState = .dataMode ∧ s.ctrlTxRing.sizeGet = 0 := ⟨hm, hz⟩
  simp only [serviceUartTx, hstays, if_pos hdata, if_neg hsome]
  exact ⟨(fillFrom s.bleToHostRing accept).2.1, fun hnil => hsome (.inr hnil),
    activate_log
      { s with
        bleToHostRing := (fillFrom s.bleToHostRing accept).2.2
        log := .fill false (fillFrom s.bleToHostRing accept).2.1 :: s.log }
      now⟩

/-- After the transmitter the receiver only adds to the log. -/
theorem step_uart_log (hirq : f.app.txIrqEnabled) (accept now : Int) (rx : Option (List RxByte)) :
    (serviceUartTx f.app accept now).log <:+ (step env f (.uart (some (accept, now)) rx)).app.log := by
  have htx : controlUartIsrTx f (some (accept, now)) = { f with app := serviceUartTx f.app accept now } := if_pos hirq
  simp only [step, controlUartIsr, htx]
  split
  · split
    · have hrx : ∀ data, Moves env anyReport (serviceUartTx f.app accept now)
          (controlUartIsrRx env { f with app := serviceUartTx f.app accept now } data).app :=
        moves_controlUartIsrRx { f with app := serviceUartTx f.app accept now }
      exact (hrx _).log_suffix
    · exact List.suffix_rfl
  · exact List.suffix_rfl

theorem TxReady.step (hf : Reachable env f) {e : Event} (he : e.FillsSome) (h : TxReady f.app) : TxReady (step env f e).app := by
  have hmove : ∀ {s s'}, Move env anyReport s s' → TxReady s → TxReady s' := fun hm hs => hs.move hm
  refine step_kept hmove ?_ hf.linkHeld (fun _ _ => trivial) h
  intro accept now rx heq hi _
  exact txReady_serviceUartTx hf.pendingOutside (hf.bridge env).linked.conn_of_pending hi (he accept now rx heq) now

/-! ## Control bytes -/

section
variable (h : Served env f es)
include h

theorem Served.reaches (n : Nat) : Reachable env (Runs.course (step env) f es n) :=
  Runs.course_invariant (P := Reachable env) (fun _ e hr => hr.next env e) h.reachable n

theorem Served.txReady (n : Nat) : TxReady (Runs.course (step env) f es n).app := by
  induction n with
  | zero => exact h.ready
  | succ n ih => exact ih.step (h.reaches n) (h.fills n)

theorem Served.outlets (n : Nat) : Bridge.Outlets ((Runs.course (step env) f es n).app.bridge 0) :=
  ((h.reaches n).bridge env).outlets

theorem Served.log_suffix {n m : Nat} (hn : n ≤ m) :
    (Runs.course (step env) f es n).app.log <:+ (Runs.course (step env) f es m).app.log :=
  Runs.course_relation (R := fun f f' : Firmware => f.app.log <:+ f'.app.log) (fun _ => List.suffix_rfl)
    (fun hab hbc => hab.trans hbc) hn fun k _ _ => step_log_suffix (h.reaches k) (es k)

theorem Served.filled_le {n m : Nat} (hn : n ≤ m) (g : Obs → List Byte) :
    (collect g (Runs.course (step env) f es n).app.log).length ≤ (collect g (Runs.course (step env) f es m).app.log).length :=
  (collect_of_suffix (h.log_suffix hn) g).length_le

/-- While output waits, a step in which the transmitter is ready runs the service. -/
theorem Served.serves {n : Nat} (hw : TxWaiting (Runs.course (step env) f es n).app) {accept now : Int}
    {rx : Option (List RxByte)} (he : es n = .uart (some (accept, now)) rx) :
    (serviceUartTx (Runs.course (step env) f es n).app accept now).log <:+
      (Runs.course (step env) f es (n + 1)).app.log := by
  rw [Runs.course_succ, he]
  exact step_uart_log (h.txReady n (h.terminal n) hw) accept now rx

/-- While control bytes wait more of them are accepted some time. -/
theorem Served.ctrl_progresses {n : Nat} (hw : (Runs.course (step env) f es n).app.ctrlTxRing.data ≠ []) :
    ∃ m, n ≤ m ∧ (collect Obs.ctrlFilled (Runs.course (step env) f es n).app.log).length <
      (collect Obs.ctrlFilled (Runs.course (step env) f es m).app.log).length := by
  obtain ⟨m, hm, accept, now, rx, he⟩ := h.again n
  by_cases hdone : (collect Obs.ctrlFilled (Runs.course (step env) f es n).app.log).length <
      (collect Obs.ctrlFilled (Runs.course (step env) f es m).app.log).length
  · exact ⟨m, hm, hdone⟩
  -- nothing was accepted, so what waited still waits
  have hwaits : (Runs.course (step env) f es m).app.ctrlTxRing.sizeGet ≠ 0 := by
    have hstored := h.filled_le hm Obs.ctrlStored
    have hnow := congrArg List.length (h.outlets m).ctrl.order
    have hbefore := congrArg List.length (h.outlets n).ctrl.order
    have hlen : 0 < (Runs.course (step env) f es n).app.ctrlTxRing.data.length := List.length_pos_iff.mpr hw
    have hclaimed : (Runs.course (step env) f es m).app.ctrlTxRing.claimed = 0 := (h.outlets m).ctrl.claimed
    rw [List.length_append] at hnow hbefore
    simp only [App.bridge] at hnow hbefore
    unfold RingBuf.sizeGet
    omega
  obtain ⟨sent, hsent, hlog⟩ := serviceUartTx_ctrl hwaits (h.fills m accept now rx he) now
  refine ⟨m + 1, by omega, ?_⟩
  have hmore := (collect_of_suffix (hlog.trans (h.serves (.inl hwaits) he)) Obs.ctrlFilled).length_le
  have hle := h.filled_le hm Obs.ctrlFilled
  have hlen : 0 < sent.length := List.length_pos_iff.mpr hsent
  rw [collect, List.length_append] at hmore
  simp only [Obs.ctrlFilled] at hmore hle ⊢
  omega

/-- The control bytes that were put in the ring are accepted some time. -/
theorem Served.ctrl_leaves (n : Nat) :
    ∃ m, n ≤ m ∧ collect Obs.ctrlStored (Runs.course (step env) f es n).app.log <+:
      collect Obs.ctrlFilled (Runs.course (step env) f es m).app.log := by
  have hpast : ∃ m, n ≤ m ∧ (collect Obs.ctrlStored (Runs.course (step env) f es n).app.log).length ≤
      (collect Obs.ctrlFilled (Runs.course (step env) f es m).app.log).length := by
    refine Runs.exceeds_of_grows (fun k l _ hkl => h.filled_le hkl Obs.ctrlFilled) fun k hk hless => ?_
    refine h.ctrl_progresses fun hnil => ?_
    have hstored := h.filled_le hk Obs.ctrlStored
    have hall := congrArg List.length (h.outlets k).ctrl.order
    simp only [App.bridge, hnil, List.append_nil] at hall
    omega
  obtain ⟨m, hm, hbound⟩ := hpast
  have hstored := collect_of_suffix (h.log_suffix hm) Obs.ctrlStored
  have hfilled : collect Obs.ctrlFilled (Runs.course (step env) f es m).app.log <+:
      collect Obs.ctrlStored (Runs.course (step env) f es m).app.log := ⟨_, (h.outlets m).ctrl.order.symm⟩
  exact ⟨m, hm, List.prefix_of_prefix_length_le hstored hfilled hbound⟩

/-- When no more control bytes are put in the ring it is empty some time, and stays so. -/
theorem Served.ctrl_empties {n : Nat}
    (hq : ∀ k, n ≤ k → collect Obs.ctrlStored (Runs.course (step env) f es k).app.log =
      collect Obs.ctrlStored (Runs.course (step env) f es n).app.log) :
    ∃ m, n ≤ m ∧ ∀ k, m ≤ k → (Runs.course (step env) f es k).app.ctrlTxRing.data = [] := by
  obtain ⟨m, hm, hprefix⟩ := h.ctrl_leaves n
  refine ⟨m, hm, fun k hk => ?_⟩
  have hall := congrArg List.length (h.outlets k).ctrl.order
  have hle := hprefix.length_le
  have hgrown := h.filled_le hk Obs.ctrlFilled
  simp only [App.bridge, hq k (by omega), List.length_append] at hall
  exact List.length_eq_zero_iff.mp (by omega)

/-- In a served run every control byte that is put in the ring is accepted by the transmitter some time, in the order in
which it was put, whatever the host and the peer send and in whatever mode. -/
theorem control_output_delivered (n : Nat) :
    ∃ m, n ≤ m ∧ collect Obs.ctrlStored (Runs.course (step env) f es n).app.log <+:
      collect Obs.ctrlFilled (Runs.course (step env) f es m).app.log :=
  h.ctrl_leaves n

end

/-! ## The switch to data mode -/

/-- Data mode was entered since. -/
def EnteredSince (before log : List Obs) : Prop := ∃ now left rest, .enter now left :: rest <:+ log ∧ before <:+ rest

theorem EnteredSince.later {before log log' : List Obs} (h : EnteredSince before log) (hl : log <:+ log') :
    EnteredSince before log' := by
  obtain ⟨now, left, rest, henter, hrest⟩ := h
  exact ⟨now, left, rest, henter.trans hl, hrest⟩

/-- Data mode was requested on the connection. -/
structure Requested (conn : Conn) (s : App) : Prop where
  pending : s.dataModePendingEnter
  outside : s.appState ≠ .dataMode
  current : s.currentConn = some conn
  link : s.link = .up conn

variable {conn : Conn}

/-- Only the switch itself and the end of the connection take the request back. -/
theorem Requested.control {report : App → StackReport → Prop} (h : Requested conn s) (hlost : ¬report s .lost)
    (hc : Control env report s s') : Requested conn s' ∨ EnteredSince s.log s'.log := by
  obtain ⟨hpending, hout, hcur, hlink⟩ := h
  have hready : Requested conn (announceReady s) := by
    rcases announceReady_cases s with ⟨_, _, hnot⟩ | ⟨he, _⟩
    · rw [hpending] at hnot
      cases hnot
    · rw [he]
      exact ⟨hpending, hout, hcur, hlink⟩
  cases hc with
  | aside ha =>
      exact .inl ⟨ha.dataModePendingEnter ▸ hpending, ha.appState ▸ hout, ha.currentConn.trans hcur, ha.link.trans hlink⟩
  | readyFound => exact .inl hready
  | subscribed => exact .inl hready
  | errorState => exact .inl ⟨hpending, by simp [setState], hcur, hlink⟩
  | disconnecting => exact .inl ⟨hpending, by simp [setState, App.ask], hcur, hlink⟩
  | enterAccepted he hcurrent hm hp =>
      rw [hpending] at hp
      cases hp
  | entered now => exact .inr ⟨now, s.hostToBleRing.data, .uptime now :: s.log, List.suffix_rfl, List.suffix_cons _ _⟩
  | left now hm => exact absurd hm hout
  | scanning durationS hnone => exact absurd (hcur.symm.trans hnone) (by simp)
  | scanStopped hm => exact .inl ⟨hpending, restState_ne_dataMode s, hcur, hlink⟩
  | create peer hnone => exact absurd (hcur.symm.trans hnone) (by simp)
  | connectFailed err other hcreating => exact absurd (hlink.symm.trans hcreating) (by simp)
  | opened other hcreating => exact absurd (hlink.symm.trans hcreating) (by simp)
  | closed other reason hl hc hpc hr => exact absurd hr hlost
  | _ => exact .inl ⟨hpending, hout, hcur, hlink⟩

theorem Requested.step (hf : Reachable env f) {e : Event} (he : ∀ reason, e ≠ .disconnected reason)
    (h : Requested conn f.app) : Requested conn (step env f e).app ∨ EnteredSince f.app.log (Main.step env f e).app.log := by
  have hreport : ∀ r, e.report = some r → r ≠ .lost := by
    intro r hr
    rintro rfl
    cases e with
    | disconnected reason => exact he reason rfl
    | notify data => cases data <;> cases hr
    | characteristicDiscover attr => cases attr <;> cases hr
    | _ => cases hr
  have hcontrols : Controls env (fun _ r => r ≠ .lost) f.app (Main.step env f e).app := step_controls hf.linkHeld hreport
  have hboth : f.app.log <:+ (Main.step env f e).app.log ∧
      (Requested conn (Main.step env f e).app ∨ EnteredSince f.app.log (Main.step env f e).app.log) := by
    refine Runs.invariant (P := fun t => f.app.log <:+ t.log ∧ (Requested conn t ∨ EnteredSince f.app.log t.log)) ?_ hcontrols
      ⟨List.suffix_rfl, .inl h⟩
    rintro t t' hc ⟨hl, hreq | hent⟩
    · refine ⟨hl.trans hc.log_suffix, ?_⟩
      rcases hreq.control (by simp) hc with hstill | ⟨now, left, rest, henter, hrest⟩
      · exact .inl hstill
      · exact .inr ⟨now, left, rest, henter, hl.trans hrest⟩
    · exact ⟨hl.trans hc.log_suffix, .inr (hent.later hc.log_suffix)⟩
  exact hboth.2

/-- Until data mode is entered the request stands. -/
theorem Served.keeps_request (h : Served env f es) {n : Nat} (hr : Requested conn (Runs.course (step env) f es n).app)
    (hl : ∀ k, n ≤ k → ∀ reason, es k ≠ .disconnected reason) {k : Nat} (hk : n ≤ k) :
    Requested conn (Runs.course (step env) f es k).app ∨
      EnteredSince (Runs.course (step env) f es n).app.log (Runs.course (step env) f es k).app.log := by
  induction k, hk using Nat.le_induction with
  | base => exact .inl hr
  | succ k hk ih =>
      rcases ih with hreq | hent
      · rcases hreq.step (h.reaches k) (hl k hk) with hstill | ⟨now, left, rest, henter, hrest⟩
        · exact .inl hstill
        · exact .inr ⟨now, left, rest, henter, (h.log_suffix hk).trans hrest⟩
      · exact .inr (hent.later (step_log_suffix (h.reaches k) (es k)))

/-- A request is met. On a connection that lasts it is kept until data mode is entered, whatever else happens, and that
is some time, if from some time on no more control bytes are queued. -/
theorem request_granted (h : Served env f es) {n q : Nat}
    (hr : Requested conn (Runs.course (step env) f es n).app)
    (hl : ∀ k, n ≤ k → ∀ reason, es k ≠ .disconnected reason)
    (hq : ∀ k, q ≤ k → collect Obs.ctrlStored (Runs.course (step env) f es k).app.log =
      collect Obs.ctrlStored (Runs.course (step env) f es q).app.log) :
    (∀ k, n ≤ k → Requested conn (Runs.course (step env) f es k).app ∨
      EnteredSince (Runs.course (step env) f es n).app.log (Runs.course (step env) f es k).app.log) ∧
    ∃ m, n ≤ m ∧ EnteredSince (Runs.course (step env) f es n).app.log (Runs.course (step env) f es m).app.log := by
  have hkept : ∀ k, n ≤ k → Requested conn (Runs.course (step env) f es k).app ∨
      EnteredSince (Runs.course (step env) f es n).app.log (Runs.course (step env) f es k).app.log :=
    fun k hk => h.keeps_request hr hl hk
  obtain ⟨m, -, hempty⟩ := h.ctrl_empties hq
  refine ⟨hkept, max n m, le_max_left n m, ?_⟩
  rcases hkept (max n m) (le_max_left n m) with hreq | hent
  · exact absurd (hempty (max n m) (le_max_right n m)) ((h.reaches (max n m)).announcing hreq.pending).2
  · exact hent

/-! ## Data bytes -/

theorem sinceClear_append {new : List Obs} (h : ∀ o ∈ new, o.goesOn) (log : List Obs) :
    sinceClear (new ++ log) = new ++ sinceClear log := by
  induction new with
  | nil => rfl
  | cons o new ih =>
      have hclear : ∀ paused, o ≠ .clear paused := by
        rintro paused rfl
        cases h _ List.mem_cons_self
      rw [List.cons_append, sinceClear_cons hclear, ih fun o' ho => h o' (List.mem_cons_of_mem _ ho)]
      rfl

theorem Continues.sinceClear (h : Continues s s') (g : Obs → List Byte) :
    collect g (Main.sinceClear s.log) <+: collect g (Main.sinceClear s'.log) := by
  obtain ⟨new, hn, hl⟩ := h
  rw [hl, sinceClear_append hn, collect_append]
  exact List.prefix_append _ _

/-- A served run that stays in data mode and in which no control bytes are queued. -/
structure QuietSession (env : Env) (f : Firmware) (es : Nat → Event) : Prop extends Served env f es where
  mode : ∀ n, (Runs.course (step env) f es n).app.appState = .dataMode
  quiet : ∀ n, collect Obs.ctrlStored (Runs.course (step env) f es n).app.log = collect Obs.ctrlStored f.app.log

section
variable (h : QuietSession env f es)
include h

theorem QuietSession.continues {n m : Nat} (hn : n ≤ m) :
    Continues (Runs.course (step env) f es n).app (Runs.course (step env) f es m).app :=
  Runs.course_relation (R := fun f f' : Firmware => Continues f.app f'.app) (fun f => .refl f.app) (fun hab hbc => hab.trans hbc) hn
    fun k _ _ => step_continues (h.reaches k).linkHeld (es k) (h.mode (k + 1))

theorem QuietSession.filled_le {n m : Nat} (hn : n ≤ m) (g : Obs → List Byte) :
    (collect g (sinceClear (Runs.course (step env) f es n).app.log)).length ≤
      (collect g (sinceClear (Runs.course (step env) f es m).app.log)).length :=
  ((h.continues hn).sinceClear g).length_le

/-- While data bytes wait, and no control bytes, more of them are accepted some time. -/
theorem QuietSession.progresses {n : Nat} (hz : ∀ k, n ≤ k → (Runs.course (step env) f es k).app.ctrlTxRing.data = [])
    (hw : (Runs.course (step env) f es n).app.bleToHostRing.data ≠ []) :
    ∃ m, n ≤ m ∧ (collect Obs.hostFilled (sinceClear (Runs.course (step env) f es n).app.log)).length <
      (collect Obs.hostFilled (sinceClear (Runs.course (step env) f es m).app.log)).length := by
  obtain ⟨m, hm, accept, now, rx, he⟩ := h.again n
  by_cases hdone : (collect Obs.hostFilled (sinceClear (Runs.course (step env) f es n).app.log)).length <
      (collect Obs.hostFilled (sinceClear (Runs.course (step env) f es m).app.log)).length
  · exact ⟨m, hm, hdone⟩
  have hwaits : (Runs.course (step env) f es m).app.bleToHostRing.sizeGet ≠ 0 := by
    have hstored := h.filled_le hm Obs.hostStored
    have hnow := congrArg List.length (h.outlets m).toHost.order
    have hbefore := congrArg List.length (h.outlets n).toHost.order
    have hlen : 0 < (Runs.course (step env) f es n).app.bleToHostRing.data.length := List.length_pos_iff.mpr hw
    have hclaimed : (Runs.course (step env) f es m).app.bleToHostRing.claimed = 0 := (h.outlets m).toHost.claimed
    rw [List.length_append] at hnow hbefore
    simp only [App.bridge] at hnow hbefore
    unfold RingBuf.sizeGet
    omega
  have hnone : (Runs.course (step env) f es m).app.ctrlTxRing.sizeGet = 0 := by
    rw [RingBuf.sizeGet, hz m hm, List.length_nil, Nat.zero_sub]
  obtain ⟨sent, hsent, hlog⟩ := serviceUartTx_data (h.mode m) hnone hwaits (h.fills m accept now rx he) now
  refine ⟨m + 1, by omega, ?_⟩
  have hserved := hlog.trans (h.serves (.inr (.inl ⟨h.mode m, hwaits⟩)) he)
  have hle := h.filled_le hm Obs.hostFilled
  have hlen : 0 < sent.length := List.length_pos_iff.mpr hsent
  have hmore : (collect Obs.hostFilled (sinceClear (Runs.course (step env) f es m).app.log)).length + sent.length ≤
      (collect Obs.hostFilled (sinceClear (Runs.course (step env) f es (m + 1)).app.log)).length := by
    obtain ⟨new, hn, hnew⟩ := h.continues (Nat.le_succ m)
    obtain ⟨later, hlater⟩ := hserved
    have hall : new = later ++ [.fill false sent] := by
      have hsame : new ++ (Runs.course (step env) f es m).app.log =
          (later ++ [.fill false sent]) ++ (Runs.course (step env) f es m).app.log := by
        rw [← hnew, ← hlater, List.append_assoc]
        rfl
      exact List.append_cancel_right hsame
    rw [hnew, sinceClear_append hn, collect_append, hall, collect_append, List.length_append, List.length_append]
    simp only [collect, Obs.hostFilled, List.nil_append]
    omega
  omega

/-- In a quiet session every payload byte that is put in the ring to the host is accepted by the transmitter some time, in
the order in which it was put. -/
theorem payload_delivered (n : Nat) :
    ∃ m, n ≤ m ∧ collect Obs.hostStored (sinceClear (Runs.course (step env) f es n).app.log) <+:
      collect Obs.hostFilled (sinceClear (Runs.course (step env) f es m).app.log) := by
  obtain ⟨first, hfirst, hempty⟩ := h.toServed.ctrl_empties (n := n) fun k _ => (h.quiet k).trans (h.quiet n).symm
  have hpast : ∃ m, first ≤ m ∧ (collect Obs.hostStored (sinceClear (Runs.course (step env) f es n).app.log)).length ≤
      (collect Obs.hostFilled (sinceClear (Runs.course (step env) f es m).app.log)).length := by
    refine Runs.exceeds_of_grows (fun k l _ hkl => h.filled_le hkl Obs.hostFilled) fun k hk hless => ?_
    refine h.progresses (fun l hl => hempty l (by omega)) fun hnil => ?_
    have hstored := h.filled_le (show n ≤ k by omega) Obs.hostStored
    have hall := congrArg List.length (h.outlets k).toHost.order
    simp only [App.bridge, hnil, List.append_nil] at hall
    omega
  obtain ⟨m, hm, hbound⟩ := hpast
  have hstored := (h.continues (show n ≤ m by omega)).sinceClear Obs.hostStored
  have hfilled : collect Obs.hostFilled (sinceClear (Runs.course (step env) f es m).app.log) <+:
      collect Obs.hostStored (sinceClear (Runs.course (step env) f es m).app.log) := ⟨_, (h.outlets m).toHost.order.symm⟩
  exact ⟨m, by omega, List.prefix_of_prefix_length_le hstored hfilled hbound⟩

end

/-! ## A request, a payload and a transmitter that is always ready -/

theorem often_transmits {es : Nat → Event} (h : ∀ n, 1 ≤ n → es n = transmit 4000) : Runs.Often es Event.Transmits :=
  fun n => ⟨n + 1, by omega, UART_TX_CHUNK, 4000, none, h (n + 1) (by omega)⟩

theorem step_transmit_idle (h : f.app.txIrqEnabled = false) (now : Int) : step env f (transmit now) = f := by
  simp [step, controlUartIsr, controlUartIsrTx, transmit, h]

/-- Once the interrupt is disabled nothing happens any more. -/
theorem transmitting_rest {es : Nat → Event} {n : Nat} (h : ∀ k, n ≤ k → es k = transmit 4000)
    (hi : (Runs.course (step env) f es n).app.txIrqEnabled = false) {m : Nat} (hm : n ≤ m) :
    Runs.course (step env) f es m = Runs.course (step env) f es n := by
  refine Runs.course_stays (fun k hk => ?_) hm
  rw [h k hk]
  exact step_transmit_idle hi 4000

/-- What holds up to then holds on. -/
theorem transmitting_holds {P : Firmware → Prop} {es : Nat → Event} {j m n : Nat} (h : ∀ k, m ≤ k → es k = transmit 4000)
    (hi : (Runs.course (step env) f es m).app.txIrqEnabled = false) (hj : j ≤ m)
    (hp : ∀ k, j ≤ k → k < m + 1 → P (Runs.course (step env) f es k)) (hn : j ≤ n) : P (Runs.course (step env) f es n) := by
  by_cases hm : n < m + 1
  · exact hp n hn hm
  · rw [transmitting_rest h hi (show m ≤ n by omega)]
    exact hp m hj (Nat.lt_succ_self m)

def transmitting : Nat → Event := fun _ => transmit 4000

theorem transmitting_starts :
    (∀ n < 3, (Runs.course (step (stackRefusing [])) requested transmitting n).app.controlDtrReady ∧
      collect Obs.ctrlStored (Runs.course (step (stackRefusing [])) requested transmitting n).app.log =
        collect Obs.ctrlStored requested.app.log) ∧
    requested.app.txIrqEnabled ∧ (Runs.course (step (stackRefusing [])) requested transmitting 2).app.txIrqEnabled = false := by
  decide +kernel

theorem transmitting_lasts (n : Nat) :
    (Runs.course (step (stackRefusing [])) requested transmitting n).app.controlDtrReady ∧
      collect Obs.ctrlStored (Runs.course (step (stackRefusing [])) requested transmitting n).app.log =
        collect Obs.ctrlStored requested.app.log :=
  transmitting_holds (m := 2)
    (P := fun g => g.app.controlDtrReady ∧ collect Obs.ctrlStored g.app.log = collect Obs.ctrlStored requested.app.log)
    (fun _ _ => rfl) transmitting_starts.2.2 (Nat.zero_le 2) (fun k _ hk => transmitting_starts.1 k hk) (Nat.zero_le n)

theorem served_transmitting : Served (stackRefusing []) requested transmitting where
  reachable := reachable_runReady _ _
  ready := .of_irq transmitting_starts.2.1
  fills n := fillsSome_of_accepts (e := transmit 4000) (by decide)
  again := often_transmits fun _ _ => rfl
  terminal n := (transmitting_lasts n).1

theorem control_output_delivered_request : ∃ m, 0 ≤ m ∧
    collect Obs.ctrlStored (Runs.course (step (stackRefusing [])) requested transmitting 0).app.log <+:
      collect Obs.ctrlFilled (Runs.course (step (stackRefusing [])) requested transmitting m).app.log :=
  control_output_delivered served_transmitting 0

/-- After the request an `AT` arrives; from then on only the transmitter works. -/
def asking : Nat → Event
  | 0 => hostSends "AT\r\n" 3001
  | _ + 1 => transmit 4000

theorem asking_starts :
    (∀ n < 4, (Runs.course (step (stackRefusing [])) requested asking n).app.controlDtrReady) ∧
    (∀ n < 4, 1 ≤ n → collect Obs.ctrlStored (Runs.course (step (stackRefusing [])) requested asking n).app.log =
      collect Obs.ctrlStored (Runs.course (step (stackRefusing [])) requested asking 1).app.log) ∧
    (Runs.course (step (stackRefusing [])) requested asking 3).app.txIrqEnabled = false := by
  decide +kernel

theorem asking_transmits : ∀ n, 1 ≤ n → asking n = transmit 4000
  | _ + 1, _ => rfl

theorem asking_terminal (n : Nat) : (Runs.course (step (stackRefusing [])) requested asking n).app.controlDtrReady :=
  transmitting_holds (m := 3) (P := fun g => g.app.controlDtrReady) (fun k hk => asking_transmits k (by omega))
    asking_starts.2.2 (Nat.zero_le 3) (fun k _ hk => asking_starts.1 k hk) (Nat.zero_le n)

theorem asking_quiet {n : Nat} (hn : 1 ≤ n) :
    collect Obs.ctrlStored (Runs.course (step (stackRefusing [])) requested asking n).app.log =
      collect Obs.ctrlStored (Runs.course (step (stackRefusing [])) requested asking 1).app.log :=
  transmitting_holds (m := 3)
    (P := fun g => collect Obs.ctrlStored g.app.log =
      collect Obs.ctrlStored (Runs.course (step (stackRefusing [])) requested asking 1).app.log)
    (fun k hk => asking_transmits k (by omega)) asking_starts.2.2 (by decide)
    (fun k hj hk => asking_starts.2.1 k hk hj) hn

theorem served_asking : Served (stackRefusing []) requested asking where
  reachable := reachable_runReady _ _
  ready := .of_irq transmitting_starts.2.1
  fills n := by
    cases n with
    | zero => exact fillsSome_of_accepts (e := hostSends "AT\r\n" 3001) (by decide)
    | succ n => exact fillsSome_of_accepts (e := transmit 4000) (by decide)
  again := often_transmits asking_transmits
  terminal := asking_terminal

theorem request_granted_asking :
    (∀ k, 0 ≤ k → Requested ⟨0, ⟨[6, 5, 4, 3, 2, 1], 0⟩⟩ (Runs.course (step (stackRefusing [])) requested asking k).app ∨
      EnteredSince requested.app.log (Runs.course (step (stackRefusing [])) requested asking k).app.log) ∧
    ∃ m, 0 ≤ m ∧ EnteredSince requested.app.log (Runs.course (step (stackRefusing [])) requested asking m).app.log := by
  have hrequested : Requested ⟨0, ⟨[6, 5, 4, 3, 2, 1], 0⟩⟩ requested.app :=
    ⟨by decide +kernel, by decide +kernel, by decide +kernel, by decide +kernel⟩
  have hlasts : ∀ k, 0 ≤ k → ∀ reason, asking k ≠ .disconnected reason := by
    intro k _ reason
    cases k with
    | zero => simp [asking, hostSends]
    | succ k => simp [asking, transmit]
  exact request_granted (n := 0) (q := 1) served_asking hrequested hlasts fun _ hk => asking_quiet hk

/-- A payload arrives and is transmitted. -/
def onePayload : Nat → Event
  | 0 => .notify (some (ascii "abc"))
  | _ + 1 => transmit 4000

def inDataMode : Firmware := runDataMode (stackRefusing []) []

theorem onePayload_starts :
    (∀ n < 4, (Runs.course (step (stackRefusing [])) inDataMode onePayload n).app.controlDtrReady ∧
      (Runs.course (step (stackRefusing [])) inDataMode onePayload n).app.appState = .dataMode ∧
      collect Obs.ctrlStored (Runs.course (step (stackRefusing [])) inDataMode onePayload n).app.log =
        collect Obs.ctrlStored inDataMode.app.log) ∧
    inDataMode.app.txIrqEnabled ∧ (Runs.course (step (stackRefusing [])) inDataMode onePayload 3).app.txIrqEnabled = false := by
  decide +kernel

theorem onePayload_transmits : ∀ n, 1 ≤ n → onePayload n = transmit 4000
  | _ + 1, _ => rfl

theorem onePayload_lasts (n : Nat) :
    (Runs.course (step (stackRefusing [])) inDataMode onePayload n).app.controlDtrReady ∧
      (Runs.course (step (stackRefusing [])) inDataMode onePayload n).app.appState = .dataMode ∧
      collect Obs.ctrlStored (Runs.course (step (stackRefusing [])) inDataMode onePayload n).app.log =
        collect Obs.ctrlStored inDataMode.app.log :=
  transmitting_holds (m := 3)
    (P := fun g => g.app.controlDtrReady ∧ g.app.appState = .dataMode ∧
      collect Obs.ctrlStored g.app.log = collect Obs.ctrlStored inDataMode.app.log)
    (fun k hk => onePayload_transmits k (by omega)) onePayload_starts.2.2 (Nat.zero_le 3)
    (fun k _ hk => onePayload_starts.1 k hk) (Nat.zero_le n)

theorem quietSession_onePayload : QuietSession (stackRefusing []) inDataMode onePayload where
  reachable := reachable_runDataMode _ _
  ready := .of_irq onePayload_starts.2.1
  fills n := by
    cases n with
    | zero => exact fillsSome_of_accepts rfl
    | succ n => exact fillsSome_of_accepts (e := transmit 4000) (by decide)
  again := often_transmits onePayload_transmits
  terminal n := (onePayload_lasts n).1
  mode n := (onePayload_lasts n).2.1
  quiet n := (onePayload_lasts n).2.2

theorem payload_delivered_onePayload : ∃ m, 1 ≤ m ∧
    collect Obs.hostStored (sinceClear (Runs.course (step (stackRefusing [])) inDataMode onePayload 1).app.log) <+:
      collect Obs.hostFilled (sinceClear (Runs.course (step (stackRefusing [])) inDataMode onePayload m).app.log) :=
  payload_delivered quietSession_onePayload 1

end BleAtHost.Main
