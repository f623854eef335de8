import BleAtHost.Bridge.Lemmas.Link

/-!
# Output to the host

Two invariants of the transmitter. In data mode the host sees the notifications and nothing else, unless a
callback queues a line. And the switch to data happens with the last byte of the line that announces it, unless
more control bytes are queued behind it.
-/

namespace BleAtHost.Bridge

open Main Relation

variable {b b' : Bridge}

theorem data_eq_nil {size : Nat} {r : RingBuf Byte size} (hc : r.claimed = 0) (hs : r.sizeGet = 0) :
    r.data = [] := by
  simp only [RingBuf.sizeGet, hc, Nat.sub_zero] at hs
  exact List.eq_nil_of_length_eq_zero hs

/-! ## Transparency -/

/-- What was given to the host and what waits for it. -/
def output (b : Bridge) : List Byte := collect Obs.filled (session b.log) ++ b.ctrl.data ++ b.toHost.data

structure Transparent (b : Bridge) : Prop where
  ctrl : b.ctrl.claimed = 0
  toHost : b.toHost.claimed = 0
  idle : b.mode ≠ .dataMode → b.toHost.data = []
  empty : b.mode = .dataMode → NoCallback b.log → b.ctrl.data = []
  stream : b.mode = .dataMode → NoCallback b.log → NoOverflow b.log →
    b.output = collect Obs.notified (session b.log)

/-- Observations that neither the host nor a notification shows. -/
def Hidden : Obs → Prop
  | .fill _ _ | .notify _ | .b2hPut _ _ | .enter _ _ => False
  | _ => True

theorem Hidden.session {o : Obs} (h : Hidden o) (log : List Obs) : session (o :: log) = o :: session log :=
  session_cons (fun _ _ he => by rw [he] at h; exact h) log

theorem Hidden.collect {o : Obs} (h : Hidden o) (log : List Obs) :
    collect Obs.filled (o :: log) = collect Obs.filled log ∧
      collect Obs.notified (o :: log) = collect Obs.notified log := by
  cases o with
  | fill | notify | b2hPut | enter => exact absurd h id
  | _ => simp [Obs.filled, Obs.notified]

theorem session_of_cons {P : Obs → Prop} {o : Obs} {log : List Obs} (ho : ∀ now left, o ≠ .enter now left)
    (h : ∀ o' ∈ session (o :: log), P o') : ∀ o' ∈ session log, P o' := by
  intro o' hm
  refine h o' ?_
  rw [session_cons ho]
  exact List.mem_cons_of_mem _ hm

theorem noCallback_of_cons {o : Obs} {log : List Obs} (ho : ∀ now left, o ≠ .enter now left)
    (h : NoCallback (o :: log)) : NoCallback log := session_of_cons ho h

theorem noOverflow_of_cons {o : Obs} {log : List Obs} (ho : ∀ now left, o ≠ .enter now left)
    (h : NoOverflow (o :: log)) : NoOverflow log := session_of_cons ho h

/-- Hidden observations and changes elsewhere. -/
theorem Transparent.hidden (h : Transparent b) {o : Obs} (ho : Hidden o) (hc : b'.ctrl = b.ctrl)
    (ht : b'.toHost = b.toHost) (hm : b'.mode = b.mode) (hl : b'.log = o :: b.log) : Transparent b' where
  ctrl := by rw [hc]; exact h.ctrl
  toHost := by rw [ht]; exact h.toHost
  idle hm' := by rw [ht]; exact h.idle (hm ▸ hm')
  empty hm' hn := by
    rw [hl] at hn
    rw [hc]
    exact h.empty (hm ▸ hm') (noCallback_of_cons (fun _ _ he => by rw [he] at ho; exact ho) hn)
  stream hm' hn hf := by
    rw [hl] at hn hf
    have hs := h.stream (hm ▸ hm') (noCallback_of_cons (fun _ _ he => by rw [he] at ho; exact ho) hn)
      (noOverflow_of_cons (fun _ _ he => by rw [he] at ho; exact ho) hf)
    obtain ⟨hfill, hnotify⟩ := ho.collect (session b.log)
    unfold output at hs ⊢
    rw [hl, hc, ht, ho.session, hfill, hnotify]
    exact hs

/-- Nothing of the output changes. -/
theorem Transparent.of_same (h : Transparent b) (hc : b'.ctrl = b.ctrl) (ht : b'.toHost = b.toHost)
    (hm : b'.mode = b.mode) (hl : b'.log = b.log) : Transparent b' where
  ctrl := by rw [hc]; exact h.ctrl
  toHost := by rw [ht]; exact h.toHost
  idle hm' := by rw [ht]; exact h.idle (hm ▸ hm')
  empty hm' hn := by rw [hc]; exact h.empty (hm ▸ hm') (hl ▸ hn)
  stream hm' hn hf := by
    have hs := h.stream (hm ▸ hm') (hl ▸ hn) (hl ▸ hf)
    unfold output at hs ⊢
    rw [hl, hc, ht]; exact hs

/-- Outside data mode only the empty queue of notifications counts. -/
theorem Transparent.outside (hc : b.ctrl.claimed = 0) (ht : b.toHost.claimed = 0) (hd : b.toHost.data = [])
    (hm : b.mode ≠ .dataMode) : Transparent b :=
  ⟨hc, ht, fun _ => hd, fun hm' => absurd hm' hm, fun hm' => absurd hm' hm⟩

theorem Transparent.rxKept : RxKept Transparent where
  take {b} byte h := by
    have ht : Transparent (b.note (.rx byte b.escape.held b.last)) :=
      h.hidden (o := .rx byte b.escape.held b.last) trivial rfl rfl rfl rfl
    exact ht.hidden (o := .uptime byte.now) trivial rfl rfl rfl rfl
  uptime now h := h.hidden (o := .uptime now) trivial rfl rfl rfl rfl
  offer data h := h.hidden (o := .h2bPut data _) trivial rfl rfl rfl rfl
  detector _ _ _ h := h.of_same rfl rfl rfl rfl

theorem Transparent.refresh (h : Transparent b) : Transparent b.refresh := by
  obtain ⟨_, _, he⟩ := b.refresh_eq
  rw [he]
  exact h.of_same rfl rfl rfl rfl

/-- A session begins with both queues empty. -/
theorem Transparent.activate (h : Transparent b) (now : Int) : Transparent (b.activate now) := by
  rcases b.activate_cases now with he | ⟨_, hm, _, hs, he⟩
  · rw [he]; exact h
  · have hc := data_eq_nil h.ctrl hs
    rw [he]
    refine Transparent.refresh ⟨h.ctrl, h.toHost, fun _ => h.idle hm, fun _ _ => hc, fun _ _ _ => ?_⟩
    simp [output, entered, hc, h.idle hm]

theorem Transparent.notify (h : Transparent b) (payload : List Byte) : Transparent (b.notify payload) := by
  by_cases hp : b.mode = .dataMode ∧ payload ≠ []
  · rw [notify_of_dataMode hp.1 hp.2]
    refine ⟨h.ctrl, h.toHost, fun hm => absurd hp.1 hm, fun _ hn => ?_, fun _ hn hf => ?_⟩
    · exact h.empty hp.1 (noCallback_of_cons (by simp) (noCallback_of_cons (by simp) hn))
    · have hs := h.stream hp.1 (noCallback_of_cons (by simp) (noCallback_of_cons (by simp) hn)) (noOverflow_of_cons (by simp) (noOverflow_of_cons (by simp) hf))
      have hfit : payload.take b.toHost.spaceGet = payload := by
        have hroom := hf (.b2hPut payload (payload.take b.toHost.spaceGet)) (by simp [Bridge.putToHost, note])
        simpa [Obs.foundRoom] using hroom
      simp only [output, List.append_assoc] at hs ⊢
      simp [Bridge.putToHost, note, Obs.filled, Obs.notified, hfit, ← hs]
  · have hnot := notify_of_not (b := b) payload fun hm => by_contra fun hne => hp ⟨hm, hne⟩
    rw [hnot]
    refine ⟨h.ctrl, h.toHost, h.idle, fun hm hn => ?_, fun hm hn hf => ?_⟩
    · exact h.empty hm (noCallback_of_cons (by simp) hn)
    · have hs := h.stream hm (noCallback_of_cons (by simp) hn) (noOverflow_of_cons (by simp) hf)
      have hnil : payload = [] := by_contra fun hne => hp ⟨hm, hne⟩
      simpa [output, note, Obs.filled, Obs.notified, hnil] using hs

/-- In data mode the control queue is served first, so it must have something. -/
theorem Transparent.fillCtrl (h : Transparent b) {sent : List Byte} {ring : RingBuf Byte CTRL_TX_RING_SIZE}
    (ht : b.ctrl.Takes sent ring) (hd : b.mode = .dataMode → b.ctrl.sizeGet ≠ 0) (now : Int) :
    Transparent (b.fillCtrl sent ring now) := by
  have hno : b.mode = .dataMode → ¬NoCallback b.log := by
    intro hm hn
    refine hd hm ?_
    simp [RingBuf.sizeGet, h.empty hm hn]
  have hf : Transparent { b with ctrl := ring, log := .fill true sent :: b.log } :=
    ⟨(ht h.ctrl).2, h.toHost, h.idle, fun hm hn => absurd (noCallback_of_cons (by simp) hn) (hno hm),
      fun hm hn => absurd (noCallback_of_cons (by simp) hn) (hno hm)⟩
  unfold Bridge.fillCtrl
  split
  · exact hf
  · exact hf.activate now

theorem Transparent.fillToHost (h : Transparent b) {sent : List Byte} {ring : RingBuf Byte BLE_TO_HOST_RING_SIZE}
    (ht : b.toHost.Takes sent ring) (hm : b.mode = .dataMode) (hc : b.ctrl.sizeGet = 0) :
    Transparent (b.fillToHost sent ring) := by
  obtain ⟨hdata, hclaimed⟩ := ht h.toHost
  have hnil := data_eq_nil h.ctrl hc
  refine ⟨h.ctrl, hclaimed, fun hm' => absurd hm hm', fun _ _ => hnil, fun _ hn hf => ?_⟩
  have hs := h.stream hm (noCallback_of_cons (by simp) hn) (noOverflow_of_cons (by simp) hf)
  simp only [output, hnil, List.append_nil, ← hdata] at hs
  simp [output, Bridge.fillToHost, Obs.filled, Obs.notified, hnil, ← hs]

theorem hidden_of_quiet {o : Obs} (h : Quiet o) : Hidden o := by
  cases o with
  | uptime | stack | callback | connUnref | profile => trivial
  | _ => exact absurd h id

theorem Transparent.step (hl : Linked b) (h : Transparent b) (hs : Step b b') : Transparent b' := by
  cases hs with
  | quiet hq => exact h.hidden (hidden_of_quiet hq) rfl rfl rfl rfl
  | rx byte => exact Transparent.rxKept.rx h byte
  | refresh => exact h.refresh
  | pause | idle | setReady => exact h.of_same rfl rfl rfl rfl
  | wait now =>
      have hu : Transparent (b.note (.uptime now)) := h.hidden (o := .uptime now) trivial rfl rfl rfl rfl
      exact hu.hidden (o := .guard now) trivial rfl rfl rfl rfl
  | expire now =>
      exact (Transparent.rxKept.flush h now).hidden (o := .guard now) trivial rfl rfl rfl rfl
  | exit now mode _ _ _ hm => exact Transparent.outside h.ctrl rfl rfl hm
  | sendAccepted n k =>
      refine Transparent.refresh ?_
      exact h.hidden (o := .write (b.chunk n k) 0 b.toBle.claimed) trivial rfl rfl rfl rfl
  | putCtrl data hmay =>
      have hno : b.mode = .dataMode → ¬NoCallback b.log := by
        intro hm hn
        obtain ⟨kind, hk⟩ := hmay hm
        exact absurd (hn _ hk) (by simp [Obs.isCallback])
      exact ⟨h.ctrl, h.toHost, h.idle, fun hm hn => absurd (noCallback_of_cons (by simp) hn) (hno hm),
        fun hm hn => absurd (noCallback_of_cons (by simp) hn) (hno hm)⟩
  | notify payload => exact h.notify payload
  | fillCtrl sent ring now ht hd => exact h.fillCtrl ht hd now
  | fillToHost sent ring ht hm hc => exact h.fillToHost ht hm hc
  | activate now => exact h.activate now
  | setMode mode hm hm' => exact Transparent.outside h.ctrl h.toHost (h.idle hm) hm'
  | create conn hc =>
      exact Transparent.outside h.ctrl h.toHost (h.idle (hl.not_dataMode_of_free hc)) (by simp)
  | connectFailed err conn hlink =>
      exact Transparent.outside h.ctrl h.toHost (h.idle (hl.not_dataMode_of_creating hlink))
        (by simp [Bridge.connectFailed])
  | connectOk conn hlink =>
      exact Transparent.outside h.ctrl h.toHost (h.idle (hl.not_dataMode_of_creating hlink))
        (by simp [Bridge.connectOk])
  | disconnect reason conn =>
      exact Transparent.outside h.ctrl rfl rfl (by simp [Bridge.disconnect, Bridge.clear])
  | atRx bytes => exact h.hidden (o := .atRx bytes) trivial rfl rfl rfl rfl
  | read bytes => exact h.hidden (o := .dataRx bytes _ _) trivial rfl rfl rfl rfl
  | sendFailed n k result => exact h.hidden (o := .write _ result _) trivial rfl rfl rfl rfl
  | ctrlLine line whole => exact h.hidden (o := .ctrlLine line whole) trivial rfl rfl rfl rfl
  | enterAccepted => exact h.hidden (o := .enterAccepted) trivial rfl rfl rfl rfl

theorem Reachable.transparent (h : Reachable b) : Transparent b := by
  obtain ⟨guardTime, started, hs⟩ := h
  have hboth : Linked b ∧ Transparent b := by
    refine Runs.invariant (P := fun b => Linked b ∧ Transparent b) ?_ hs ⟨linked_start guardTime started, ?_⟩
    · intro b b' hs h
      exact ⟨h.1.step hs, h.2.step h.1 hs⟩
    · exact Transparent.outside rfl rfl rfl (by simp [start])
  exact hboth.2

/-! ## The way into data mode -/

/-- What the state of the bridge is at each point of the way. -/
def Stage (b : Bridge) : Handover → Prop
  | .idle => True
  | .accepted => b.pending ∧ b.mode ≠ .dataMode
  | .announced left => b.pending ∧ b.mode ≠ .dataMode ∧ left = b.ctrl.data.length ∧ 0 < left
  | .shown => b.mode = .dataMode

/-- Bytes that went to the parser did not go there after the line was shown. -/
def NotShown : Obs → List Obs → Prop
  | .atRx _, log => handover log ≠ .shown
  | _, _ => True

structure Handing (b : Bridge) : Prop where
  rewound : b.ctrl.claimed = 0
  queued : queued b.log = b.ctrl.data.length
  stage : Stage b (handover b.log)
  past : Past NotShown b.log

/-- Observations that the way into data mode does not show. -/
def Aside : Obs → Prop
  | .enterAccepted | .ctrlLine _ _ | .ctrlPut _ _ | .fill true _ | .enter _ _ | .exit _ _ | .disconnected _ | .atRx _ =>
      False
  | _ => True

theorem Aside.handover {o : Obs} (h : Aside o) (log : List Obs) :
    handover (o :: log) = handover log ∧ queued (o :: log) = queued log := by
  cases o with
  | enterAccepted | ctrlLine | ctrlPut | enter | exit | disconnected | atRx => exact absurd h id
  | fill ctrl bytes =>
      cases ctrl with
      | true => exact absurd h id
      | false => exact ⟨rfl, rfl⟩
  | _ => exact ⟨rfl, rfl⟩

theorem Aside.notShown {o : Obs} (h : Aside o) (log : List Obs) : NotShown o log := by
  cases o with
  | atRx => exact absurd h id
  | _ => trivial

theorem Stage.of_same {h : Handover} (hs : Stage b h) (hp : b'.pending = b.pending) (hm : b'.mode = b.mode)
    (hc : b'.ctrl = b.ctrl) : Stage b' h := by
  cases h with
  | idle => trivial
  | accepted => exact ⟨hp ▸ hs.1, hm ▸ hs.2⟩
  | announced left => exact ⟨hp ▸ hs.1, hm ▸ hs.2.1, hc ▸ hs.2.2⟩
  | shown => exact hm.trans hs

theorem Handing.aside (h : Handing b) {o : Obs} (ho : Aside o) (hp : b'.pending = b.pending)
    (hm : b'.mode = b.mode) (hc : b'.ctrl = b.ctrl) (hl : b'.log = o :: b.log) : Handing b' where
  rewound := by rw [hc]; exact h.rewound
  queued := by rw [hl, hc, (ho.handover b.log).2]; exact h.queued
  stage := by rw [hl, (ho.handover b.log).1]; exact h.stage.of_same hp hm hc
  past := by rw [hl]; exact ⟨ho.notShown b.log, h.past⟩

theorem Handing.of_same (h : Handing b) (hp : b'.pending = b.pending) (hm : b'.mode = b.mode)
    (hc : b'.ctrl = b.ctrl) (hl : b'.log = b.log) : Handing b' where
  rewound := by rw [hc]; exact h.rewound
  queued := by rw [hl, hc]; exact h.queued
  stage := by rw [hl]; exact h.stage.of_same hp hm hc
  past := by rw [hl]; exact h.past

theorem Handing.rxKept : RxKept Handing where
  take {b} byte h := by
    have ht : Handing (b.note (.rx byte b.escape.held b.last)) := h.aside (o := .rx byte b.escape.held b.last) trivial rfl rfl rfl rfl
    exact ht.aside (o := .uptime byte.now) trivial rfl rfl rfl rfl
  uptime now h := h.aside (o := .uptime now) trivial rfl rfl rfl rfl
  offer data h := h.aside (o := .h2bPut data _) trivial rfl rfl rfl rfl
  detector _ _ _ h := h.of_same rfl rfl rfl rfl

theorem Handing.refresh (h : Handing b) : Handing b.refresh := by
  obtain ⟨_, _, he⟩ := b.refresh_eq
  rw [he]
  exact h.of_same rfl rfl rfl rfl

/-- Outside data mode the mode may change; the line cannot have been shown. -/
theorem Handing.outside (h : Handing b) (hm : b.mode ≠ .dataMode) (hm' : b'.mode ≠ .dataMode)
    (hp : b'.pending = b.pending) (hc : b'.ctrl = b.ctrl) (hl : b'.log = b.log) : Handing b' where
  rewound := by rw [hc]; exact h.rewound
  queued := by rw [hl, hc]; exact h.queued
  stage := by
    rw [hl]
    have hs := h.stage
    cases hh : handover b.log with
    | idle => trivial
    | accepted => rw [hh] at hs; exact ⟨hp ▸ hs.1, hm'⟩
    | announced left => rw [hh] at hs; exact ⟨hp ▸ hs.1, hm', hc ▸ hs.2.2⟩
    | shown => rw [hh] at hs; exact absurd hs hm
  past := by rw [hl]; exact h.past

/-- The line is not waiting when the switch happens. -/
theorem Handing.entered (h : Handing b) (hm : b.mode ≠ .dataMode) (hs : b.ctrl.sizeGet = 0) (now : Int) :
    Handing (b.entered now) := by
  have hnil := data_eq_nil h.rewound hs
  refine ⟨h.rewound, by simpa [Bridge.entered] using h.queued, ?_, ⟨trivial, trivial, h.past⟩⟩
  have hstage := h.stage
  change Stage (b.entered now) ((handover b.log).next (Main.queued b.log) (.enter now b.toBle.data))
  cases hh : handover b.log with
  | idle => trivial
  | accepted => trivial
  | announced left =>
      rw [hh] at hstage
      obtain ⟨_, _, hleft, hpos⟩ := hstage
      rw [hnil] at hleft
      exact absurd hpos (by rw [hleft]; exact Nat.lt_irrefl 0)
  | shown => rw [hh] at hstage; exact absurd hstage hm

theorem Handing.activate (h : Handing b) (now : Int) : Handing (b.activate now) := by
  rcases b.activate_cases now with he | ⟨_, hm, _, hs, he⟩
  · rw [he]; exact h
  · rw [he]; exact (h.entered hm hs now).refresh

/-- The control queue after the transmitter took `sent`. -/
def filled (b : Bridge) (sent : List Byte) (ring : RingBuf Byte CTRL_TX_RING_SIZE) : Bridge :=
  { b with ctrl := ring, log := .fill true sent :: b.log }

theorem handover_fill (log : List Obs) (sent : List Byte) :
    handover (.fill true sent :: log) =
      match handover log with
      | .announced left => if left ≤ sent.length then .shown else .announced (left - sent.length)
      | h => h := rfl

/-- A fill that does not reach the end of the line. -/
theorem Handing.filled (h : Handing b) {sent : List Byte} {ring : RingBuf Byte CTRL_TX_RING_SIZE}
    (ht : b.ctrl.Takes sent ring) (hn : ∀ left, handover b.log = .announced left → sent.length < left) :
    Handing (b.filled sent ring) := by
  obtain ⟨hdata, hclaimed⟩ := ht h.rewound
  have hlen : b.ctrl.data.length = sent.length + ring.data.length := by rw [← hdata, List.length_append]
  have hstage := h.stage
  refine ⟨hclaimed, ?_, ?_, ⟨trivial, h.past⟩⟩
  · change Main.queued b.log - sent.length = ring.data.length
    rw [h.queued]; omega
  · change Stage (b.filled sent ring) (handover (.fill true sent :: b.log))
    rw [handover_fill]
    cases hh : handover b.log with
    | idle => trivial
    | accepted => rw [hh] at hstage; exact hstage
    | shown => rw [hh] at hstage; exact hstage
    | announced left =>
        rw [hh] at hstage
        obtain ⟨hp, hm, hleft, _⟩ := hstage
        have hlt := hn left hh
        dsimp only
        rw [if_neg (Nat.not_le_of_lt hlt)]
        refine ⟨hp, hm, ?_, by omega⟩
        change left - sent.length = ring.data.length
        omega

/-- The fill that takes the last byte of the line empties the queue, and so data mode begins. -/
theorem Handing.filled_last (h : Handing b) (hl : Linked b) {sent : List Byte}
    {ring : RingBuf Byte CTRL_TX_RING_SIZE} (ht : b.ctrl.Takes sent ring) {left : Nat}
    (hh : handover b.log = .announced left) (hle : left ≤ sent.length) (now : Int) :
    Handing (b.fillCtrl sent ring now) := by
  obtain ⟨hdata, hclaimed⟩ := ht h.rewound
  have hlen : b.ctrl.data.length = sent.length + ring.data.length := by rw [← hdata, List.length_append]
  have hstage := h.stage
  rw [hh] at hstage
  obtain ⟨hp, hm, hleft, hpos⟩ := hstage
  have hnil : ring.data = [] := List.eq_nil_of_length_eq_zero (by omega)
  have hsent : sent ≠ [] := by
    rintro rfl
    simp only [List.length_nil] at hle; omega
  have hact : (b.filled sent ring).activate now = ((b.filled sent ring).entered now).refresh := by
    refine activate_of_pending (b := b.filled sent ring) hp hm (hl.conn_of_pending hp) ?_ now
    simp [Bridge.filled, RingBuf.sizeGet, hnil]
  have hfill : b.fillCtrl sent ring now = (b.filled sent ring).activate now := if_neg hsent
  rw [hfill, hact]
  refine Handing.refresh ⟨hclaimed, ?_, ?_, ⟨trivial, trivial, trivial, h.past⟩⟩
  · change Main.queued b.log - sent.length = ring.data.length
    rw [h.queued]; omega
  · have hshown : handover (.fill true sent :: b.log) = .shown := by
      rw [handover_fill, hh]
      exact if_pos hle
    have henter : handover ((b.filled sent ring).entered now).log = .shown := by
      simp only [Bridge.entered, Bridge.filled, handover] at hshown ⊢
      rw [hshown]; rfl
    rw [henter]; rfl

theorem Handing.fillCtrl (h : Handing b) (hl : Linked b) {sent : List Byte}
    {ring : RingBuf Byte CTRL_TX_RING_SIZE} (ht : b.ctrl.Takes sent ring) (now : Int) :
    Handing (b.fillCtrl sent ring now) := by
  by_cases hn : ∀ left, handover b.log = .announced left → sent.length < left
  · have hf := h.filled ht hn
    unfold Bridge.fillCtrl
    split
    · exact hf
    · exact hf.activate now
  · push Not at hn
    obtain ⟨left, hh, hle⟩ := hn
    exact h.filled_last hl ht hh (by omega) now

theorem Handing.putCtrl (h : Handing b) (data : List Byte) (hu : Uninterrupted (b.putCtrl data).log) :
    Handing (b.putCtrl data) := by
  have hstage := h.stage
  refine ⟨h.rewound, ?_, ?_, ⟨trivial, h.past⟩⟩
  · simp [Bridge.putCtrl, h.queued]
  · change Stage (b.putCtrl data) (handover b.log)
    cases hh : handover b.log with
    | idle => trivial
    | accepted => rw [hh] at hstage; exact hstage
    | announced left =>
        have hnot := hu.1 rfl
        rw [hh] at hnot
        cases hnot
    | shown => rw [hh] at hstage; exact hstage

/-- The line that announces data mode ends at the end of the queue. -/
theorem Handing.ctrlLine (h : Handing b) (line : Text) (whole : Bool) (hw : whole → b.ctrl.data ≠ []) :
    Handing (b.note (.ctrlLine line whole)) := by
  have hstage := h.stage
  refine ⟨h.rewound, h.queued, ?_, ⟨trivial, h.past⟩⟩
  change Stage (b.note (.ctrlLine line whole)) ((handover b.log).next (Main.queued b.log) (.ctrlLine line whole))
  cases whole with
  | false => exact hstage
  | true =>
      by_cases hc : handover b.log = .accepted ∧ line = dataModeLine true
      · rw [hc.1] at hstage
        simp only [Handover.next, if_pos hc]
        refine ⟨hstage.1, hstage.2, h.queued, ?_⟩
        rw [h.queued]
        exact List.length_pos_iff.mpr (hw rfl)
      · simp only [Handover.next, if_neg hc]
        exact hstage

theorem aside_of_quiet {o : Obs} (h : Quiet o) : Aside o := by
  cases o with
  | uptime | stack | callback | connUnref | profile => trivial
  | _ => exact absurd h id

theorem Handing.step (hl : Linked b) (h : Handing b) (hs : Step b b') (hu : Uninterrupted b'.log) : Handing b' := by
  cases hs with
  | quiet hq => exact h.aside (aside_of_quiet hq) rfl rfl rfl rfl
  | atRx bytes hm =>
      refine ⟨h.rewound, h.queued, h.stage.of_same rfl rfl rfl, ⟨?_, h.past⟩⟩
      intro hh
      have hstage := h.stage
      rw [hh] at hstage
      exact hm hstage
  | rx byte => exact Handing.rxKept.rx h byte
  | refresh => exact h.refresh
  | pause | idle | setReady => exact h.of_same rfl rfl rfl rfl
  | wait now =>
      have hn : Handing (b.note (.uptime now)) := h.aside (o := .uptime now) trivial rfl rfl rfl rfl
      exact hn.aside (o := .guard now) trivial rfl rfl rfl rfl
  | expire now => exact (Handing.rxKept.flush h now).aside (o := .guard now) trivial rfl rfl rfl rfl
  | exit now mode => exact ⟨h.rewound, h.queued, trivial, ⟨trivial, trivial, trivial, h.past⟩⟩
  | sendAccepted n k =>
      refine Handing.refresh ?_
      exact h.aside (o := .write (b.chunk n k) 0 b.toBle.claimed) trivial rfl rfl rfl rfl
  | putCtrl data => exact h.putCtrl data hu
  | ctrlLine line whole hw => exact h.ctrlLine line whole hw
  | notify payload =>
      have hn : Handing (b.note (.notify payload)) := h.aside (o := .notify payload) trivial rfl rfl rfl rfl
      unfold Bridge.notify
      split
      · exact hn.aside (o := .b2hPut payload _) trivial rfl rfl rfl rfl
      · exact hn
  | fillCtrl sent ring now ht => exact h.fillCtrl hl ht now
  | activate now => exact h.activate now
  | setMode mode hm hm' => exact h.outside hm hm' rfl rfl rfl
  | create conn hc => exact h.outside (hl.not_dataMode_of_free hc) (by simp) rfl rfl rfl
  | connectFailed err conn hlink =>
      have hn : Handing (b.note (.connected err)) := h.aside (o := .connected err) trivial rfl rfl rfl rfl
      have hm : (b.note (.connected err)).mode ≠ .dataMode := hl.not_dataMode_of_creating hlink
      exact hn.outside hm (by simp [Bridge.connectFailed]) rfl rfl rfl
  | connectOk conn hlink =>
      have hn : Handing (b.note (.connected 0)) := h.aside (o := .connected 0) trivial rfl rfl rfl rfl
      have hm : (b.note (.connected 0)).mode ≠ .dataMode := hl.not_dataMode_of_creating hlink
      exact hn.outside hm (by simp [Bridge.connectOk]) rfl rfl rfl
  | enterAccepted hr hc hm hp => exact ⟨h.rewound, h.queued, ⟨rfl, hm⟩, ⟨trivial, h.past⟩⟩
  | disconnect reason conn =>
      exact ⟨h.rewound, h.queued, trivial, ⟨trivial, trivial, trivial, h.past⟩⟩
  | read bytes => exact h.aside (o := .dataRx bytes _ _) trivial rfl rfl rfl rfl
  | sendFailed n k result => exact h.aside (o := .write _ result _) trivial rfl rfl rfl rfl
  | fillToHost sent ring => exact h.aside (o := .fill false sent) trivial rfl rfl rfl rfl

theorem Reachable.handing (h : Reachable b) (hu : Uninterrupted b.log) : Handing b := by
  obtain ⟨guardTime, started, hs⟩ := h
  have hboth : Linked b ∧ Handing b := by
    refine Runs.guarded_invariant (G := fun b => Uninterrupted b.log) (P := fun b => Linked b ∧ Handing b)
      (fun hs hu => Past.of_suffix hu hs.log_suffix) ?_ hs
      ⟨linked_start guardTime started, ⟨rfl, rfl, trivial, ⟨trivial, trivial⟩⟩⟩ hu
    intro b b' hs hu h
    exact ⟨h.1.step hs, h.2.step h.1 hs hu⟩
  exact hboth.2

end BleAtHost.Bridge
