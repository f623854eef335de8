import BleAtHost.Main.Stages
import BleAtHost.Main.Theorems.Connection

/-!
# Handlers and stages

Between two handlers the monitor stands where the variables stand. There is one lemma for each function of the source.
-/

namespace BleAtHost.Main

variable {s s' : App} {env : Env}

/-! ## Lines -/

theorem Sign.begins {sign : Sign} {line : Text} (h : sign.marks line) : sign.text <+: line := by
  unfold Sign.marks at h
  split at h
  · rw [eq_of_beq h]
  · exact List.isPrefixOf_iff_prefix.mp h

/-- Two signs of which neither continues the other. -/
def Sign.apart (sign sign' : Sign) : Bool := !sign.text.isPrefixOf sign'.text && !sign'.text.isPrefixOf sign.text

theorem Sign.not_marks {sign sign' : Sign} {line : Text} (h : sign.apart sign') (hm : sign.marks line) :
    sign'.marks line = false := by
  rw [Bool.eq_false_iff]
  intro hm'
  simp only [Sign.apart, Bool.and_eq_true, Bool.not_eq_true', Bool.eq_false_iff, ne_eq, List.isPrefixOf_iff_prefix] at h
  rcases List.prefix_or_prefix_of_prefix (begins hm) (begins hm') with hp | hp
  · exact h.1 hp
  · exact h.2 hp

/-- The sign that decides what a line says does not stand apart from any other that marks it. -/
theorem speech_of_marks {line : Text} (sign : Sign) (hs : sign ∈ signs) (hm : sign.marks line) :
    ∃ found ∈ signs, speech line = some found.speech ∧ sign.apart found = false := by
  unfold speech
  cases hf : signs.find? fun sign : Sign => sign.marks line with
  | none => exact absurd hm (by simpa using List.find?_eq_none.mp hf sign hs)
  | some found =>
      have hmarks : found.marks line = true := List.find?_some (p := fun sign : Sign => sign.marks line) hf
      refine ⟨found, List.mem_of_find?_eq_some hf, rfl, Bool.eq_false_iff.mpr fun hapart => ?_⟩
      rw [Sign.not_marks hapart hm] at hmarks
      cases hmarks

/-- A line that is cut to a buffer. -/
theorem speech_snprintk {size : Nat} (start : Text) (sp : Speech) (hs : ⟨start, false, sp⟩ ∈ signs)
    (ha : ∀ found ∈ signs, Sign.apart ⟨start, false, sp⟩ found = false → found.speech = sp)
    (hsize : start.length < size) (text : Text) : speech (snprintk size (start ++ text)) = some sp := by
  have hprefix : start <+: snprintk size (start ++ text) := AtHost.prefix_snprintk hsize text
  obtain ⟨found, hmem, he, hf⟩ := speech_of_marks ⟨start, false, sp⟩ hs (List.isPrefixOf_iff_prefix.mpr hprefix)
  rw [he, ha found hmem hf]

theorem speech_ready : speech (ascii "+IND=BLMN,0") = some .ready := by decide

theorem speech_error : speech AtHost.ErrorKind.functionError.text = some .error := by decide

/-- What the parser says. -/
theorem speech_answer {line : Text} (h : AtHost.IsAnswer line) : speech line = some .answer ∨ speech line = some .error := by
  obtain ⟨start, hstart, hprefix⟩ := h
  have hsigns : ∀ start ∈ [ascii "+OK", ascii "+ERR", ascii "0:", ascii "+IND=DATAMODE,1"],
      (⟨start, false, .answer⟩ : Sign) ∈ signs ∧
        ∀ found ∈ signs, Sign.apart ⟨start, false, .answer⟩ found = false → found.speech = .answer ∨ found.speech = .error := by
    decide
  obtain ⟨hs, ha⟩ := hsigns start hstart
  obtain ⟨found, hmem, he, hf⟩ := speech_of_marks ⟨start, false, .answer⟩ hs (List.isPrefixOf_iff_prefix.mpr hprefix)
  rcases ha found hmem hf with hsp | hsp
  · exact .inl (he.trans (congrArg some hsp))
  · exact .inr (he.trans (congrArg some hsp))

/-! ## What the monitor rests on -/

/-- What decides where the variables stand. -/
structure Wiring where
  currentConn : Option Conn
  manager : Option Conn
  ready : Bool
  pending : Bool
  mode : AppState
  link : Link

def App.wiring (s : App) : Wiring :=
  ⟨s.currentConn, s.pm.conn, s.pm.ready, s.dataModePendingEnter, s.appState, s.link⟩

/-- With the stage of the monitor. -/
def App.outline (s : App) : Wiring × Option Stage := (s.wiring, stageOf s.log)

/-- The variables fit each other. -/
structure Wired (s : App) : Prop where
  current : s.currentConn = s.stage.conn
  manager : s.pm.conn = match s.link with | .up conn => some conn | _ => none
  ready : s.pm.ready → s.pm.conn ≠ none
  mode : s.appState = .dataMode ∨ s.dataModePendingEnter → ∃ conn, s.link = .up conn
  down : s.link = .down ↔ s.appState = .idle ∨ s.appState = .scanning

/-- The application between two handlers. -/
structure Alive (s : App) : Prop where
  wired : Wired s
  stage : stageOf s.log = some s.stage

theorem stage_of_wiring (h : s'.wiring = s.wiring) : s'.stage = s.stage := by
  have hp : s'.dataModePendingEnter = s.dataModePendingEnter := congrArg Wiring.pending h
  have hm : s'.appState = s.appState := congrArg Wiring.mode h
  have hl : s'.link = s.link := congrArg Wiring.link h
  simp only [App.stage, App.use, hp, hm, hl]

theorem Wired.of_wiring (h : Wired s) (hw : s'.wiring = s.wiring) : Wired s' := by
  have hc : s'.currentConn = s.currentConn := congrArg Wiring.currentConn hw
  have hpc : s'.pm.conn = s.pm.conn := congrArg Wiring.manager hw
  have hr : s'.pm.ready = s.pm.ready := congrArg Wiring.ready hw
  have hp : s'.dataModePendingEnter = s.dataModePendingEnter := congrArg Wiring.pending hw
  have hm : s'.appState = s.appState := congrArg Wiring.mode hw
  have hl : s'.link = s.link := congrArg Wiring.link hw
  constructor
  · rw [hc, stage_of_wiring hw]; exact h.current
  · rw [hpc, hl]; exact h.manager
  · rw [hr, hpc]; exact h.ready
  · rw [hm, hp, hl]; exact h.mode
  · rw [hl, hm]; exact h.down

theorem wiring_of_outline (h : s'.outline = s.outline) : s'.wiring = s.wiring := congrArg Prod.fst h

theorem Alive.of_outline (h : Alive s) (ho : s'.outline = s.outline) : Alive s' where
  wired := h.wired.of_wiring (wiring_of_outline ho)
  stage := by
    rw [stage_of_wiring (wiring_of_outline ho), ← h.stage]
    exact congrArg Prod.snd ho

/-! ## Where the variables stand -/

theorem Wired.of_current (h : Wired s) {conn : Conn} (hc : s.currentConn = some conn) :
    s.link = .creating conn ∨ s.link = .up conn := by
  have hcur := h.current
  rw [hc] at hcur
  cases hl : s.link with
  | down =>
      rw [App.stage, hl] at hcur
      dsimp only at hcur
      split at hcur
      · cases hcur
      · cases hcur
  | creating c =>
      rw [App.stage, hl] at hcur
      obtain rfl := Option.some.inj hcur
      exact .inl rfl
  | up c =>
      rw [App.stage, hl] at hcur
      obtain rfl := Option.some.inj hcur
      exact .inr rfl

theorem Wired.of_manager (h : Wired s) {conn : Conn} (hc : s.pm.conn = some conn) : s.link = .up conn := by
  have hm := h.manager
  rw [hc] at hm
  cases hl : s.link with
  | down => rw [hl] at hm; cases hm
  | creating c => rw [hl] at hm; cases hm
  | up c =>
      rw [hl] at hm
      obtain rfl := Option.some.inj hm
      rfl

theorem stage_up {conn : Conn} (h : s.link = .up conn) : s.stage = .up conn s.use := by rw [App.stage, h]

theorem stage_creating {conn : Conn} (h : s.link = .creating conn) : s.stage = .creating conn := by rw [App.stage, h]

theorem stage_data {conn : Conn} (h : s.link = .up conn) (hm : s.appState = .dataMode) : s.stage = .up conn .data := by
  rw [stage_up h, App.use, if_pos hm]

theorem stage_commands {conn : Conn} (h : s.link = .up conn) (hm : s.appState ≠ .dataMode) :
    s.stage = .up conn .control ∨ s.stage = .up conn .requested := by
  rw [stage_up h, App.use, if_neg hm]
  split
  · exact .inr rfl
  · exact .inl rfl

/-- An error may be reported at any time. -/
theorem speak_error (s : App) : s.stage.speak .error = some s.stage := by
  unfold App.stage
  split
  · split
    · rfl
    · rfl
  · rfl
  · rfl

/-- Outside data mode the parser may answer. -/
theorem speak_answer (h : s.appState ≠ .dataMode) : s.stage.speak .answer = some s.stage := by
  unfold App.stage
  split
  · split
    · rfl
    · rfl
  · rfl
  · rename_i conn hl
    rcases stage_commands hl h with he | he
    · rw [stage_up hl] at he
      rw [he]; rfl
    · rw [stage_up hl] at he
      rw [he]; rfl

/-! ## Observations -/

/-- Observations that the monitor looks at. -/
def Obs.isWatched : Obs → Bool
  | .stack _ _ | .ctrlLine _ _ | .connected _ | .connUnref _ | .disconnected _ | .enterAccepted | .enter _ _ | .exit _ _
  | .notify _ | .b2hPut _ _ => true
  | _ => false

theorem stageOf_quiet {new : List Obs} (h : ∀ o ∈ new, o.isWatched = false) (log : List Obs) :
    stageOf (new ++ log) = stageOf log := by
  refine Monitor.watch_append_quiet (fun o ho stage => ?_) log
  have hquiet := h o ho
  cases o with
  | uptime | atRx | dataRx | rx | guard | h2bPut | h2bReset | write | ctrlPut | fill | callback | clear | profile => rfl
  | _ => cases hquiet

theorem stageOf_cons {o : Obs} {log : List Obs} {stage : Stage} (h : stageOf log = some stage) :
    stageOf (o :: log) = stage.next o := by
  change (stageOf log).bind (Stage.next · o) = stage.next o
  rw [h]
  rfl

theorem outline_note {o : Obs} (h : o.isWatched = false) (s : App) : (s.note o).outline = s.outline := by
  have hstage : stageOf (o :: s.log) = stageOf s.log := @stageOf_quiet [o] (by simpa using h) s.log
  exact Prod.ext rfl hstage

theorem Alive.observe (h : Alive s) {o : Obs} (ho : s.stage.next o = some s.stage) : Alive (s.note o) :=
  ⟨h.wired.of_wiring rfl, (stageOf_cons h.stage).trans ho⟩

/-- A call that leaves the stage alone. -/
theorem Alive.ask (h : Alive s) {call : StackCall} (hc : s.stage.call call (env.answer s.calls) = some s.stage) :
    Alive (s.ask env call).2 :=
  ⟨h.wired.of_wiring rfl, (stageOf_cons h.stage).trans hc⟩

theorem outline_ite {c : Prop} [Decidable c] {t u : App} (ht : t.outline = s.outline) (hu : u.outline = s.outline) :
    (if c then t else u).outline = s.outline := by
  split
  · exact ht
  · exact hu

/-! ## Lines -/

theorem outline_kickUartTx (s : App) : (kickUartTx s).outline = s.outline := by
  unfold kickUartTx
  exact outline_ite rfl rfl

theorem outline_usbMessageCb (s : App) (dtr : Bool) : (usbMessageCb s dtr).outline = s.outline := by
  unfold usbMessageCb
  apply outline_ite rfl
  rw [outline_kickUartTx]
  rfl

theorem outline_queueCtrlBytes (s : App) (data : List Byte) : (queueCtrlBytes s data).outline = s.outline := by
  unfold queueCtrlBytes
  apply outline_ite rfl
  rw [outline_kickUartTx]
  exact outline_note (o := .ctrlPut data (data.take s.ctrlTxRing.spaceGet)) rfl s

theorem outline_refresh (s : App) : (refreshUartRxFlowControl s).outline = s.outline := by
  unfold refreshUartRxFlowControl
  repeat' split
  all_goals rfl

theorem wiring_queueCtrlLine (s : App) (line : Text) : (queueCtrlLine s line).wiring = s.wiring := by
  have hputs : (queueCtrlBytes (queueCtrlBytes s line) newline).outline = s.outline := by
    rw [outline_queueCtrlBytes, outline_queueCtrlBytes]
  exact congrArg Prod.fst hputs

theorem stageOf_queueCtrlLine {line : Text} {sp : Speech} {stage : Stage} (hl : speech line = some sp)
    (hs : stageOf s.log = some stage) : stageOf (queueCtrlLine s line).log = stage.speak sp := by
  have hputs : (queueCtrlBytes (queueCtrlBytes s line) newline).outline = s.outline := by
    rw [outline_queueCtrlBytes, outline_queueCtrlBytes]
  have hstage : stageOf (queueCtrlBytes (queueCtrlBytes s line) newline).log = some stage :=
    (congrArg Prod.snd hputs).trans hs
  refine (stageOf_cons hstage).trans ?_
  change (speech line).bind stage.speak = _
  rw [hl]
  rfl

/-- A line that leaves the stage alone. -/
theorem Alive.line (h : Alive s) {line : Text} {sp : Speech} (hl : speech line = some sp)
    (hs : s.stage.speak sp = some s.stage) : Alive (queueCtrlLine s line) where
  wired := h.wired.of_wiring (wiring_queueCtrlLine s line)
  stage := by
    rw [stageOf_queueCtrlLine hl h.stage, stage_of_wiring (wiring_queueCtrlLine s line)]
    exact hs

theorem Alive.functionError (h : Alive s) : Alive (atHostNotifyFunctionError s) := h.line speech_error (speak_error s)

theorem Alive.answer (h : Alive s) (hm : s.appState ≠ .dataMode) {line : Text} (hl : AtHost.IsAnswer line) :
    Alive (queueCtrlLine s line) := by
  rcases speech_answer hl with hsp | hsp
  · exact h.line hsp (speak_answer hm)
  · exact h.line hsp (speak_error s)

/-! ## The callbacks of the profile manager -/

/-- Between two states of a connection, outside data mode. -/
theorem Alive.setState (h : Alive s) {m : AppState} (hc : s.currentConn.isSome) (hm : s.appState ≠ .dataMode)
    (hm' : m = .controlReady ∨ m = .disconnecting) : Alive (setState s m) := by
  obtain ⟨conn, hconn⟩ := Option.isSome_iff_exists.mp hc
  have hmode : m ≠ .dataMode ∧ m ≠ .idle ∧ m ≠ .scanning := by
    rcases hm' with rfl | rfl
    · simp
    · simp
  have hlink : s.link ≠ .down := by
    rcases h.wired.of_current hconn with hl | hl
    · rw [hl]; simp
    · rw [hl]; simp
  have hstage : (Main.setState s m).stage = s.stage := by
    unfold App.stage Main.setState
    dsimp only
    split
    · rename_i hd
      exact absurd hd hlink
    · rfl
    · rw [App.use, App.use, if_neg hm, if_neg hmode.1]
  refine ⟨⟨?_, h.wired.manager, h.wired.ready, ?_, ?_⟩, ?_⟩
  · rw [hstage]
    exact h.wired.current
  · rintro (hd | hp)
    · exact absurd hd hmode.1
    · exact h.wired.mode (.inr hp)
  · constructor
    · intro hd
      exact absurd hd hlink
    · rintro (hi | hsc)
      · exact absurd hi hmode.2.1
      · exact absurd hsc hmode.2.2
  · rw [hstage]
    exact h.stage

theorem Alive.profileError (h : Alive s) : Alive (profileError s) := by
  have hnote : Alive (s.note (.callback .error)) := h.of_outline (outline_note rfl s)
  unfold Main.profileError
  dsimp only
  split
  · rename_i hc
    exact (hnote.setState hc.1 hc.2 (.inl rfl)).functionError
  · exact hnote.functionError

theorem Alive.profileReady (h : Alive s) {conn : Conn} (hl : s.link = .up conn) : Alive (profileReady s) := by
  have hnote : Alive (s.note (.callback .ready)) := h.of_outline (outline_note rfl s)
  have hcur : (s.note (.callback .ready)).currentConn.isSome := by
    rw [hnote.wired.current, stage_up (s := s.note (.callback .ready)) hl]
    rfl
  unfold Main.profileReady
  dsimp only
  split
  · rename_i hc
    refine (hnote.setState hcur hc.1 (.inl rfl)).line (by exact speech_ready) ?_
    rw [stage_up (s := Main.setState (s.note (.callback .ready)) .controlReady) hl]
    rfl
  · refine hnote.line (by exact speech_ready) ?_
    rw [stage_up (s := s.note (.callback .ready)) hl]
    rfl

theorem Alive.profileMtuUpdated (h : Alive s) {conn : Conn} (hl : s.link = .up conn) (payloadLen : Nat) :
    Alive (profileMtuUpdated s payloadLen) := by
  have hnote : Alive (s.note (.callback .mtuUpdated)) := h.of_outline (outline_note rfl s)
  refine hnote.line (speech_snprintk _ .mtu (by decide) (by decide) (by decide) _) ?_
  rw [stage_up (s := s.note (.callback .mtuUpdated)) hl]
  rfl

theorem Alive.profilePayloadReceived (h : Alive s) {conn : Conn} (hl : s.link = .up conn) (data : List Byte) :
    Alive (profilePayloadReceived s data) := by
  have hstage : s.stage = .up conn s.use := stage_up hl
  have hcount : Alive (countPayload s data) := by
    have hnote : Alive (s.note (.notify data)) := h.observe (by rw [hstage]; rfl)
    exact hnote.of_outline rfl
  change Alive (if s.appState = .dataMode then queueDataBytes (countPayload s data) data
    else atHostNotifyReceive (countPayload s data) data)
  split
  · rename_i hm
    unfold queueDataBytes
    split
    · exact hcount
    · dsimp only
      refine Alive.of_outline ?_ (outline_kickUartTx _)
      have hput : Alive ((countPayload s data).note (.b2hPut data (data.take (countPayload s data).bleToHostRing.spaceGet))) := by
        apply hcount.observe
        rw [stage_data (s := countPayload s data) hl hm]
        rfl
      exact hput.of_outline rfl
  · rename_i hm
    unfold atHostNotifyReceive
    split
    · exact hcount
    · simp only [List.append_assoc]
      refine hcount.line (speech_snprintk _ .received (by decide) (by decide) (by decide) _) ?_
      rcases stage_commands (s := countPayload s data) hl hm with he | he
      · rw [he]; rfl
      · rw [he]; rfl

/-! ## The profile manager -/

theorem Wired.connected (h : Wired s) {conn : Conn} (hl : s.link = .up conn) :
    s.currentConn = some conn ∧ s.pm.conn = some conn := by
  have hcur := h.current
  have hmanager := h.manager
  rw [stage_up hl] at hcur
  rw [hl] at hmanager
  exact ⟨hcur, hmanager⟩

theorem Alive.subscription (h : Alive s) {conn : Conn} (hl : s.link = .up conn) (ready : Bool) :
    Alive { s with pm := { s.pm with ready := ready } } := by
  refine ⟨⟨h.wired.current, h.wired.manager, fun _ => ?_, h.wired.mode, h.wired.down⟩, h.stage⟩
  change s.pm.conn ≠ none
  rw [(h.wired.connected hl).2]
  simp

theorem Alive.updatePayloadLen (h : Alive s) : Alive (updatePayloadLen s) := h.of_outline rfl

theorem Alive.notifyHandler (h : Alive s) {conn : Conn} (hl : s.link = .up conn) (data : Option (List Byte)) :
    Alive (notifyHandler s data) := by
  cases data with
  | none => exact h.subscription hl false
  | some data => exact h.profilePayloadReceived hl data

theorem Alive.subscribeHandler (h : Alive s) {conn : Conn} (hl : s.link = .up conn) (err : Nat) :
    Alive (subscribeHandler s err) := by
  unfold Main.subscribeHandler
  split
  · exact (h.subscription hl false).profileError
  · exact (h.subscription hl true).profileReady hl

/-- A call on the connection once it is open. -/
theorem Alive.askUp (h : Alive s) {conn : Conn} (hl : s.link = .up conn) {call : StackCall}
    (hn : call.named = some conn) (hu : ∀ c, call ≠ .gattUnsubscribe c) : Alive (s.ask env call).2 := by
  apply h.ask
  rw [stage_up hl]
  cases call with
  | gattUnsubscribe c => exact absurd rfl (hu c)
  | settingsSave => rfl
  | scanStart | scanStop | connCreate => cases hn
  | _ => exact if_pos hn

theorem Alive.subscribeNotifyCharacteristic (h : Alive s) {conn : Conn} (hl : s.link = .up conn) :
    Alive (subscribeNotifyCharacteristic env s).2 := by
  have hask : Alive (s.ask env (.gattSubscribe s.pm.conn s.pm.notifyValueHandle)).2 :=
    h.askUp hl (h.wired.connected hl).2 (by simp)
  simp only [Main.subscribeNotifyCharacteristic]
  split
  · exact hask.profileError
  · exact hask

theorem outline_matchCharacteristic (profile : BleProfile) (chrc : GattChrc) (s : App) :
    ({ s with pm := matchCharacteristic profile s.pm chrc } : App).outline = s.outline := by
  have hpm : (matchCharacteristic profile s.pm chrc).conn = s.pm.conn ∧
      (matchCharacteristic profile s.pm chrc).ready = s.pm.ready := matchCharacteristic_conn _ _ _
  simp only [App.outline, App.wiring, hpm]

theorem Alive.characteristicDiscoverCb (h : Alive s) {conn : Conn} (hl : s.link = .up conn) (attr : Option GattChrc) :
    Alive (characteristicDiscoverCb env s attr) := by
  unfold Main.characteristicDiscoverCb
  cases attr with
  | none =>
      dsimp only
      split; · exact h.profileError
      split; · exact h.profileError
      split
      · exact h.subscribeNotifyCharacteristic hl
      · exact (h.subscription hl true).profileReady hl
  | some chrc =>
      dsimp only
      split
      · exact h.profileError
      · exact h.of_outline (outline_matchCharacteristic _ chrc s)

theorem Alive.startCharacteristicDiscovery (h : Alive s) {conn : Conn} (hl : s.link = .up conn) :
    Alive (startCharacteristicDiscovery env s).2 := by
  have hset : ∀ params, Alive { s with pm := { s.pm with characteristicDiscoverParams := params } } :=
    fun _ => h.of_outline rfl
  have hask : ∀ params : DiscoverParams,
      Alive ((App.ask env { s with pm := { s.pm with characteristicDiscoverParams := params } }
        (.gattDiscover s.pm.conn params.startHandle params.endHandle params.type)).2) :=
    fun params => (hset params).askUp hl (h.wired.connected hl).2 (by simp)
  simp only [Main.startCharacteristicDiscovery]
  split
  · exact (hask _).profileError
  · exact hask _

theorem Alive.serviceDiscoverCb (h : Alive s) {conn : Conn} (hl : s.link = .up conn) (attr : Option GattService) :
    Alive (serviceDiscoverCb env s attr) := by
  unfold Main.serviceDiscoverCb
  cases attr with
  | none =>
      dsimp only
      split
      · exact h.profileError
      · exact h.startCharacteristicDiscovery hl
  | some service =>
      dsimp only
      split; · exact h.profileError
      split
      · exact h.of_outline rfl
      · exact h

theorem Alive.exchangeHandler (h : Alive s) {conn : Conn} (hl : s.link = .up conn) (err : Nat) :
    Alive (exchangeHandler s err) := by
  have hended : Alive { s with pm := { s.pm with exchangeInProgress := false } } := h.of_outline rfl
  have hcleared : ∀ t : App, Alive t → Alive { t with pm := { t.pm with exchangeParams := false } } :=
    fun t ht => ht.of_outline rfl
  simp only [Main.exchangeHandler]
  apply hcleared
  split
  · exact hended.updatePayloadLen.profileMtuUpdated hl _
  · exact hended

theorem Alive.writeHandler (h : Alive s) (err : Nat) : Alive (writeHandler s err) := by
  have hended : Alive { s with pm := { s.pm with writeInProgress := false } } := h.of_outline rfl
  simp only [Main.writeHandler]
  split
  · exact hended.profileError
  · exact hended

theorem Alive.profileManagerRequestMtu (h : Alive s) : Alive (profileManagerRequestMtu env s).2 := by
  unfold Main.profileManagerRequestMtu
  split
  · exact h
  · rename_i conn hc
    have hl : s.link = .up conn := h.wired.of_manager hc
    split
    · exact h
    · have hset : Alive { s with pm := { s.pm with exchangeInProgress := true, exchangeParams := true } } := h.of_outline rfl
      have hask := @Alive.askUp _ env hset conn hl (.gattExchangeMtu conn) rfl (by simp)
      have hended : ∀ t : App, Alive t →
          Alive { t with pm := { t.pm with exchangeInProgress := false, exchangeParams := false } } :=
        fun t ht => ht.of_outline rfl
      dsimp only
      split
      · exact (hended _ hask).updatePayloadLen.profileMtuUpdated hl _
      · split
        · exact hended _ hask
        · exact hask

theorem Alive.profileManagerRequestDataLen (h : Alive s) : Alive (profileManagerRequestDataLen env s).2 := by
  unfold Main.profileManagerRequestDataLen
  split
  · exact h
  · rename_i conn hc
    exact h.askUp (h.wired.of_manager hc) rfl (by simp)

theorem Alive.profileManagerRequestPhy (h : Alive s) : Alive (profileManagerRequestPhy env s).2 := by
  unfold Main.profileManagerRequestPhy
  split
  · exact h
  · rename_i conn hc
    exact h.askUp (h.wired.of_manager hc) rfl (by simp)

theorem Alive.profileManagerSend (h : Alive s) (data : List Byte) : Alive (profileManagerSend env s data).2 := by
  unfold Main.profileManagerSend
  split; · exact h
  rename_i conn hc
  have hl : s.link = .up conn := h.wired.of_manager hc
  split; · exact h
  split; · exact h
  split
  · exact h.askUp hl rfl (by simp)
  split; · exact h
  have hset : Alive
      { s with
        pm :=
          { s.pm with
            pendingWrite := data
            pendingWriteLen := data.length
            writeParams := ⟨s.pm.writeValueHandle, data.length⟩
            writeInProgress := true } } := h.of_outline rfl
  have hask := @Alive.askUp _ env hset conn hl (.gattWrite conn s.pm.writeValueHandle data) rfl (by simp)
  have hended : ∀ t : App, Alive t → Alive { t with pm := { t.pm with writeInProgress := false } } :=
    fun t ht => ht.of_outline rfl
  dsimp only
  split
  · exact hended _ hask
  · exact hask

end BleAtHost.Main
