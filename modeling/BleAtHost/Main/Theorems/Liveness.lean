import BleAtHost.Bridge.Lemmas.Flow
import BleAtHost.Main.Lemmas.Receiving

/-!
# What the firmware comes to in the end

Runs that never end. A work item that is pending runs some time, the transmitter is ready again and again; what the
host sends, what the stack reports and in which order stays open.
-/

namespace BleAtHost.Main

open Relation

variable {env : Env} {f : Firmware} {es : Nat → Event}

/-! ## The queue to the peer -/

/-- A session that lasts. It begins with nothing to send, the peer stays ready and writable in every state of it, the stack
accepts every write on the connection, and the work items of the pump run again and again. -/
structure LastingSession (env : Env) (f : Firmware) (es : Nat → Event) : Prop where
  reachable : Reachable env f
  outside : f.app.appState ≠ .dataMode
  empty : f.app.hostToBleRing.sizeGet = 0
  mode : ∀ n, (Runs.course (step env) f es (n + 1)).app.appState = .dataMode
  canEnter : ∀ n, profileManagerCanEnterDataMode (Runs.course (step env) f es (n + 1)).app.pm
  accepted : ∀ n, Unrefused (Runs.course (step env) f es (n + 1)).app.log
  runs : Runs.Often es (· = .bleWriteWork)
  retries : Runs.Often es (· = .bleWriteRetryWork)
  coalesces : Runs.Often es (· = .bleWriteCoalesceWork)

theorem LastingSession.reaches (h : LastingSession env f es) (n : Nat) : Reachable env (Runs.course (step env) f es n) :=
  Runs.course_invariant (P := Reachable env) (fun _ e hr => hr.next env e) h.reachable n

/-- If data mode is entered, that is in the log. -/
def Entering (before : List Obs) (s : App) : Prop :=
  ∃ new, s.log = new ++ before ∧ (s.appState = .dataMode → ∃ now left, .enter now left ∈ new)

theorem Entering.later {before : List Obs} {s s' : App} (h : Entering before s) (hl : s.log <:+ s'.log)
    (hm : s'.appState = .dataMode → s.appState = .dataMode) : Entering before s' := by
  obtain ⟨new, hnew, henter⟩ := h
  obtain ⟨newer, hnewer⟩ := hl
  refine ⟨newer ++ new, by rw [← hnewer, hnew, List.append_assoc], fun hmode => ?_⟩
  obtain ⟨now, left, hmem⟩ := henter (hm hmode)
  exact ⟨now, left, List.mem_append_right newer hmem⟩

theorem entering_step (hl : LinkHeld f.app) (hm : f.app.appState ≠ .dataMode) (e : Event) :
    Entering f.app.log (step env f e).app := by
  have hstart : Entering f.app.log f.app := ⟨[], rfl, fun hd => absurd hd hm⟩
  refine @step_kept_served env anyReport (Entering f.app.log) ?_ ?_ f e hl (fun _ _ => trivial) hstart
  · intro s s' hmove h
    exact h.later hmove.log_suffix fun hd => not_not.mp fun hn => hmove.mode hn hd
  · intro s s' hserve h
    cases hserve with
    | entered now =>
        obtain ⟨new, hnew, _⟩ := h
        refine ⟨.enter now s.hostToBleRing.data :: .uptime now :: new, ?_, fun _ => ⟨now, _, List.mem_cons_self⟩⟩
        exact congrArg (.enter now s.hostToBleRing.data :: .uptime now :: ·) hnew
    | flow =>
        obtain ⟨new, _, hlog⟩ := (aside_flow s).log
        exact h.later (hlog ▸ List.suffix_append new s.log) fun hd => (aside_flow s).appState ▸ hd
    | drained ctrl toHost irq fromCtrl sent => exact h.later (List.suffix_cons _ _) id
    | stopped => exact h.later (List.suffix_refl _) id

/-- What a session holds after new observations. -/
theorem mem_session_append {new before : List Obs} {o : Obs} (h : o ∈ session (new ++ before)) :
    o ∈ new ∨ o ∈ session before ∧ ∀ now left, .enter now left ∉ new := by
  induction new with
  | nil => exact .inr ⟨h, by simp⟩
  | cons o' new ih =>
      by_cases he : ∃ now left, o' = .enter now left
      · obtain ⟨now, left, rfl⟩ := he
        simp at h
      · have hne : ∀ now left, o' ≠ .enter now left := fun now left heq => he ⟨now, left, heq⟩
        rw [List.cons_append, session_cons hne] at h
        rcases List.mem_cons.mp h with rfl | h
        · exact .inl List.mem_cons_self
        · rcases ih h with hn | ⟨hb, hn⟩
          · exact .inl (List.mem_cons_of_mem _ hn)
          · refine .inr ⟨hb, fun now left hmem => ?_⟩
            rcases List.mem_cons.mp hmem with heq | hmem
            · exact hne now left heq.symm
            · exact hn now left hmem

theorem sentOrRetried_of_unrefused {o : Obs} (h : o.unrefused) : o.sentOrRetried := by
  cases o with
  | write chunk result ahead =>
      have hr : result = 0 := by simpa [Obs.unrefused] using h
      simp [Obs.sentOrRetried, hr]
  | _ => rfl

section
variable (h : LastingSession env f es)
include h

theorem LastingSession.continues (n : Nat) :
    Continues (Runs.course (step env) f es n).app (Runs.course (step env) f es (n + 1)).app :=
  step_continues (h.reaches n).linkHeld (es n) (h.mode n)

theorem LastingSession.continues_le {n m : Nat} (hn : n ≤ m) :
    Continues (Runs.course (step env) f es n).app (Runs.course (step env) f es m).app :=
  Runs.course_relation (R := fun f f' : Firmware => Continues f.app f'.app) (fun f => .refl f.app) (fun hab hbc => hab.trans hbc) hn
    fun k _ _ => h.continues k

theorem LastingSession.unrefused (n : Nat) : Unrefused (Runs.course (step env) f es n).app.log :=
  (h.continues n).unrefused (h.accepted n)

/-- The writes of the session were accepted. -/
theorem LastingSession.sends (n : Nat) : ∀ o ∈ session (Runs.course (step env) f es (n + 1)).app.log, o.sentOrRetried := by
  have hnew : ∀ {k : Nat} {new : List Obs} {o : Obs}, (∀ o ∈ new, o.goesOn) →
      (Runs.course (step env) f es (k + 1)).app.log = new ++ (Runs.course (step env) f es k).app.log → o ∈ new → o.sentOrRetried := by
    intro k new o hn hl hmem
    refine sentOrRetried_of_unrefused (h.accepted k o ?_)
    rw [hl, connection_append hn]
    exact List.mem_append_left _ hmem
  induction n with
  | zero =>
      intro o ho
      obtain ⟨new, hn, hl⟩ := h.continues 0
      obtain ⟨new', hl', henter⟩ := entering_step h.reachable.linkHeld h.outside (es 0)
      obtain ⟨now, left, hmem⟩ := henter (h.mode 0)
      have hsame : new' = new := List.append_cancel_right (hl'.symm.trans hl)
      subst hsame
      rw [hl] at ho
      rcases mem_session_append ho with hm | ⟨_, hnone⟩
      · exact hnew hn hl hm
      · exact absurd hmem (hnone now left)
  | succ n ih =>
      intro o ho
      obtain ⟨new, hn, hl⟩ := h.continues (n + 1)
      rw [hl] at ho
      rcases mem_session_append ho with hm | ⟨hb, _⟩
      · exact hnew hn hl hm
      · exact ih o hb

theorem LastingSession.awake (n : Nat) : PumpAwake (Runs.course (step env) f es (n + 1)).app := by
  have hin : ∀ n, InSession (Runs.course (step env) f es (n + 1)).app := fun n => ⟨h.mode n, h.canEnter n, h.sends n⟩
  induction n with
  | zero =>
      exact awake_step h.reachable (fun hd => absurd hd h.outside) (fun _ => h.empty) (fun hd => absurd hd h.outside) (hin 0)
  | succ n ih =>
      exact awake_step (h.reaches (n + 1)) (fun _ => ih) (fun hn => absurd (h.mode n) hn) (fun _ => h.canEnter n) (hin (n + 1))

theorem LastingSession.ordered (n : Nat) :
    (Runs.course (step env) f es n).app.hostToBleRing.claimed = 0 ∧
      collect Obs.stored (connection (Runs.course (step env) f es n).app.log) =
        collect Obs.accepted (connection (Runs.course (step env) f es n).app.log) ++
          (Runs.course (step env) f es n).app.hostToBleRing.data :=
  (h.reaches n).ordered (h.unrefused n)

/-- While something is queued more bytes are accepted some time. -/
theorem LastingSession.progresses {n : Nat} (hn : 1 ≤ n) (hd : (Runs.course (step env) f es n).app.hostToBleRing.data ≠ []) :
    ∃ m, n ≤ m ∧
      acceptedCount (Runs.course (step env) f es n).app < acceptedCount (Runs.course (step env) f es m).app := by
  refine @Runs.reached_by_rank _ es _ (fun k => drainRank (Runs.course (step env) f es k).app)
    (fun k e => e = dueWork (Runs.course (step env) f es k).app) n (fun k _ => ?_) fun k hk hgoal => ?_
  · rcases dueWork_isWork (Runs.course (step env) f es k).app with he | he | he
    · rw [he]; exact h.runs
    · rw [he]; exact h.coalesces
    · rw [he]; exact h.retries
  · obtain ⟨l, rfl⟩ : ∃ l, k = l + 1 := ⟨k - 1, by omega⟩
    have hsame : acceptedCount (Runs.course (step env) f es (l + 1)).app ≤ acceptedCount (Runs.course (step env) f es n).app := by omega
    have hqueued : (Runs.course (step env) f es (l + 1)).app.hostToBleRing.data ≠ [] := by
      have hstored := ((h.continues_le hk).stream Obs.stored).length_le
      have hnow := congrArg List.length (h.ordered (l + 1)).2
      have hbefore := congrArg List.length (h.ordered n).2
      have hlen : 0 < (Runs.course (step env) f es n).app.hostToBleRing.data.length := List.length_pos_iff.mpr hd
      rw [List.length_append] at hnow hbefore
      unfold acceptedCount at hsame
      exact List.length_pos_iff.mp (by omega)
    have hcan : CanSend (Runs.course (step env) f es (l + 1)).app :=
      ⟨(h.reaches (l + 1)).connectionKept.held.mpr (by rw [h.mode l]; simp [AppState.Connected]), h.canEnter l,
        (h.reaches (l + 1)).payloadLen_pos⟩
    have hstep := step_nearer (e := es (l + 1)) (h.reaches (l + 1)).linkHeld
      ⟨h.mode l, h.mode (l + 1), hcan, (h.ordered (l + 1)).1, hqueued, h.awake l, h.accepted (l + 1)⟩
    rcases hstep with hmore | hrest
    · refine .inl (lt_of_le_of_lt ?_ hmore)
      exact (h.continues_le hk).accepted
    · exact .inr (hrest.imp_right fun hsame =>
        ⟨hsame.1, funext fun e => congrArg (e = ·) hsame.2.1, hsame.2.2⟩)

/-- In a session that lasts every byte that is put in the ring is accepted by the stack some time, in the order in which it
was put, whatever the host sends meanwhile. -/
theorem bytes_delivered (n : Nat) :
    ∃ m, n ≤ m ∧ collect Obs.stored (connection (Runs.course (step env) f es n).app.log) <+:
      collect Obs.accepted (connection (Runs.course (step env) f es m).app.log) := by
  have hpast : ∃ m, n + 1 ≤ m ∧ (collect Obs.stored (connection (Runs.course (step env) f es n).app.log)).length ≤
      acceptedCount (Runs.course (step env) f es m).app := by
    refine Runs.exceeds_of_grows (fun k l _ hkl => (h.continues_le hkl).accepted) fun k hk hless => ?_
    refine h.progresses (by omega) fun hnil => ?_
    have hstored := ((h.continues_le (show n ≤ k by omega)).stream Obs.stored).length_le
    have hall := congrArg List.length (h.ordered k).2
    rw [hnil, List.append_nil] at hall
    unfold acceptedCount at hless
    omega
  obtain ⟨m, hm, hbound⟩ := hpast
  have hstored := (h.continues_le (show n ≤ m by omega)).stream Obs.stored
  have haccepted : collect Obs.accepted (connection (Runs.course (step env) f es m).app.log) <+:
      collect Obs.stored (connection (Runs.course (step env) f es m).app.log) := ⟨_, (h.ordered m).2.symm⟩
  exact ⟨m, by omega, List.prefix_of_prefix_length_le hstored haccepted hbound⟩

end

/-! ## The receiver -/

/-- In a session that lasts the receiver is never paused for good, unless session data were cleared while it was paused
before: some time the pump has made room for a chunk, and the interrupt is enabled. -/
theorem receiver_resumes (h : LastingSession env f es) (hc : ClearedRunning f.app.log) (n : Nat) :
    ∃ m, n ≤ m ∧ (Runs.course (step env) f es m).app.controlRxPaused = false ∧
      (Runs.course (step env) f es m).app.rxIrqEnabled := by
  by_contra hno
  have hmirrored : ∀ k, Bridge.Mirrored ((Runs.course (step env) f es k).app.bridge 0) := by
    intro k
    refine ((h.reaches k).bridge env).mirrored ?_
    obtain ⟨new, hn, hl⟩ := h.continues_le (Nat.zero_le k)
    change Obs.clear true ∉ (Runs.course (step env) f es k).app.log
    rw [hl]
    intro hmem
    rcases List.mem_append.mp hmem with hmem | hmem
    · cases hn _ hmem
    · exact hc hmem
  have hpaused : ∀ k, n ≤ k → (Runs.course (step env) f es k).app.controlRxPaused = true := by
    intro k hk
    by_contra hp
    have hrunning : (Runs.course (step env) f es k).app.controlRxPaused = false := by simpa using hp
    have hirq : (Runs.course (step env) f es k).app.rxIrqEnabled = !(Runs.course (step env) f es k).app.controlRxPaused :=
      (hmirrored k).irq
    exact hno ⟨k, hk, hrunning, by rw [hirq, hrunning]; rfl⟩
  have hoff : ∀ k, n ≤ k → (Runs.course (step env) f es k).app.rxIrqEnabled = false := by
    intro k hk
    have hirq : (Runs.course (step env) f es k).app.rxIrqEnabled = !(Runs.course (step env) f es k).app.controlRxPaused :=
      (hmirrored k).irq
    rw [hirq, hpaused k hk]
    rfl
  have howed : ∀ k, n ≤ k → owed (Runs.course (step env) f es k).app ≤ owed (Runs.course (step env) f es n).app := by
    intro k hk
    induction k, hk using Nat.le_induction with
    | base => exact le_rfl
    | succ k hk ih =>
        have hmode : (Runs.course (step env) f es k).app.appState = .dataMode := ((hmirrored k).low (hpaused k hk)).1
        exact (step_owed (h.reaches k).linkHeld (hoff k hk) hmode (es k) (h.mode k)).trans ih
  -- the pump goes on as long as the ring is full, so more is accepted than was ever owed
  have hfull : ∀ k, n ≤ k → (Runs.course (step env) f es k).app.hostToBleRing.data ≠ [] := by
    intro k hk hnil
    have hlow : (Runs.course (step env) f es k).app.hostToBleRing.spaceGet < CONTROL_UART_RX_CHUNK :=
      ((hmirrored k).low (hpaused k hk)).2
    rw [RingBuf.spaceGet, hnil] at hlow
    exact absurd hlow (by decide)
  obtain ⟨m, hm, hbound⟩ := Runs.exceeds_of_grows (n := n + 1) (μ := fun k => acceptedCount (Runs.course (step env) f es k).app)
    (β := owed (Runs.course (step env) f es n).app + 1) (fun k l _ hkl => (h.continues_le hkl).accepted)
    fun k hk _ => h.progresses (by omega) (hfull k (by omega))
  have hordered := congrArg List.length (h.ordered m).2
  have hstored := length_collect_connection Obs.stored (Runs.course (step env) f es m).app.log
  have hle := howed m (by omega)
  rw [List.length_append] at hordered
  unfold acceptedCount at hbound
  unfold owed at hle hbound
  omega

/-- Data mode is entered, three bytes arrive, and from then on only the work items run. -/
def threeBytes : Nat → Event
  | 0 => transmit 3000
  | 1 => hostSends "abc" 3001
  | n + 2 => if n % 3 = 0 then .bleWriteCoalesceWork else if n % 3 = 1 then .bleWriteWork else .bleWriteRetryWork

def requested : Firmware := runReady (stackRefusing []) [hostSends "AT+ENTERDATAMODE=0\r\n" 3000]

theorem often_threeBytes {e : Event} (r : Nat) (hr : r < 3)
    (he : (if r = 0 then .bleWriteCoalesceWork else if r = 1 then .bleWriteWork else .bleWriteRetryWork) = e) :
    Runs.Often threeBytes (· = e) := by
  intro n
  refine ⟨3 * n + r + 2, by omega, ?_⟩
  have hmod : (3 * n + r) % 3 = r := by omega
  rw [← he]
  simp only [threeBytes, hmod]

/-- The first steps, after which nothing is pending. -/
theorem threeBytes_starts :
    (∀ n < 4, (Runs.course (step (stackRefusing [])) requested threeBytes (n + 1)).app.appState = .dataMode ∧
      profileManagerCanEnterDataMode (Runs.course (step (stackRefusing [])) requested threeBytes (n + 1)).app.pm ∧
      ∀ o ∈ connection (Runs.course (step (stackRefusing [])) requested threeBytes (n + 1)).app.log, o.unrefused) ∧
    (Runs.course (step (stackRefusing [])) requested threeBytes 4).app.bleWriteWork = false ∧
    (Runs.course (step (stackRefusing [])) requested threeBytes 4).app.bleWriteRetryWork = false ∧
    (Runs.course (step (stackRefusing [])) requested threeBytes 4).app.bleWriteCoalesceWork = false := by
  decide +kernel

theorem threeBytes_rest {n : Nat} (hn : 4 ≤ n) : Runs.course (step (stackRefusing [])) requested threeBytes n =
    Runs.course (step (stackRefusing [])) requested threeBytes 4 := by
  obtain ⟨_, hwork, hretry, hcoalesce⟩ := threeBytes_starts
  refine Runs.course_stays (fun k hk => ?_) hn
  obtain ⟨l, rfl⟩ : ∃ l, k = l + 2 := ⟨k - 2, by omega⟩
  generalize Runs.course (step (stackRefusing [])) requested threeBytes 4 = g at hwork hretry hcoalesce ⊢
  simp only [threeBytes]
  split
  · simp [step, stepApp, hcoalesce]
  · split
    · simp [step, stepApp, hwork]
    · simp [step, stepApp, hretry]

theorem threeBytes_lasts (n : Nat) :
    (Runs.course (step (stackRefusing [])) requested threeBytes (n + 1)).app.appState = .dataMode ∧
      profileManagerCanEnterDataMode (Runs.course (step (stackRefusing [])) requested threeBytes (n + 1)).app.pm ∧
      Unrefused (Runs.course (step (stackRefusing [])) requested threeBytes (n + 1)).app.log := by
  by_cases hn : n < 4
  · exact threeBytes_starts.1 n hn
  · rw [threeBytes_rest (show 4 ≤ n + 1 by omega)]
    exact threeBytes_starts.1 3 (by decide)

theorem lastingSession_threeBytes : LastingSession (stackRefusing []) requested threeBytes where
  reachable := reachable_runReady _ _
  outside := by decide +kernel
  empty := by decide +kernel
  mode n := (threeBytes_lasts n).1
  canEnter n := (threeBytes_lasts n).2.1
  accepted n := (threeBytes_lasts n).2.2
  runs := often_threeBytes 1 (by decide) rfl
  retries := often_threeBytes 2 (by decide) rfl
  coalesces := often_threeBytes 0 (by decide) rfl

theorem bytes_delivered_threeBytes : ∃ m, 2 ≤ m ∧
    collect Obs.stored (connection (Runs.course (step (stackRefusing [])) requested threeBytes 2).app.log) <+:
      collect Obs.accepted (connection (Runs.course (step (stackRefusing [])) requested threeBytes m).app.log) :=
  bytes_delivered lastingSession_threeBytes 2

theorem receiver_resumes_threeBytes :
    ∃ m, 2 ≤ m ∧ (Runs.course (step (stackRefusing [])) requested threeBytes m).app.controlRxPaused = false ∧
      (Runs.course (step (stackRefusing [])) requested threeBytes m).app.rxIrqEnabled := by
  have hrunning : Obs.clear true ∉ requested.app.log := by decide +kernel
  exact receiver_resumes lastingSession_threeBytes hrunning 2

end BleAtHost.Main
