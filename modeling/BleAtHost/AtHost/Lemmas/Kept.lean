import BleAtHost.AtHost.Command

/-!
# Properties of the context that the parser keeps

The parser touches its context only through the two tables. So a property that every entry of the tables keeps
is kept by every sequence of received bytes.
-/

namespace BleAtHost.AtHost

variable {σ : Type} {ops : Ops σ} {tx : Tx σ} {P : σ → Prop}

/-- The lines that the parser writes: responses, the connection of a status and the announcement of data mode. -/
def IsAnswer (line : Text) : Prop :=
  ∃ start ∈ [ascii "+OK", ascii "+ERR", ascii "0:", ascii "+IND=DATAMODE,1"], start <+: line

theorem isAnswer_ok : IsAnswer (ascii "+OK") := ⟨_, by simp, List.prefix_refl _⟩

theorem isAnswer_error (kind : ErrorKind) : IsAnswer kind.text := by
  refine ⟨ascii "+ERR", by simp, ?_⟩
  cases kind with
  | _ => decide

theorem isAnswer_dataMode : IsAnswer (ascii "+IND=DATAMODE,1") := ⟨_, by simp, List.prefix_refl _⟩

/-- A line that is cut to a buffer keeps its start. -/
theorem prefix_snprintk {size : Nat} {start : Text} (hsize : start.length < size) (text : Text) :
    start <+: snprintk size (start ++ text) :=
  List.prefix_take_iff.mpr ⟨List.prefix_append start text, Nat.le_sub_one_of_lt hsize⟩

theorem isAnswer_value {size : Nat} (hsize : 3 < size) (text : Text) : IsAnswer (snprintk size (ascii "+OK" ++ text)) :=
  ⟨_, by simp, prefix_snprintk hsize text⟩

/-- Properties that the tables keep as long as the lines are those of the parser. -/
structure KeptByAnswers (ops : Ops σ) (tx : Tx σ) (P : σ → Prop) : Prop where
  startScan : ∀ {s} durationS filterName, P s → P (ops.startScan s durationS filterName).2
  connect : ∀ {s} mac addrType, P s → P (ops.connect s mac addrType).2
  disconnect : ∀ {s} connIndex, P s → P (ops.disconnect s connIndex).2
  sendPayload : ∀ {s} connIndex data, P s → P (ops.sendPayload s connIndex data).2
  getStatus : ∀ {s}, P s → P (ops.getStatus s).2
  getProfile : ∀ {s}, P s → P (ops.getProfile s).2
  setProfile : ∀ {s} service notify write, P s → P (ops.setProfile s service notify write).2
  setMtu : ∀ {s} mtu, P s → P (ops.setMtu s mtu).2
  getMtu : ∀ {s}, P s → P (ops.getMtu s).2
  requestMtu : ∀ {s} connIndex, P s → P (ops.requestMtu s connIndex).2
  setConnParams : ∀ {s} connIndex minInterval maxInterval latency timeout, P s →
    P (ops.setConnParams s connIndex minInterval maxInterval latency timeout).2
  enterDataMode : ∀ {s} connIndex text, IsAnswer text → P s → P (tx.line (ops.enterDataMode s connIndex).2 text)
  getStreamStats : ∀ {s}, P s → P (ops.getStreamStats s).2
  line : ∀ {s} text, IsAnswer text → P s → P (tx.line s text)
  raw : ∀ {s} data, P s → P (tx.raw s data)

structure Kept (ops : Ops σ) (tx : Tx σ) (P : σ → Prop) : Prop where
  startScan : ∀ {s} durationS filterName, P s → P (ops.startScan s durationS filterName).2
  connect : ∀ {s} mac addrType, P s → P (ops.connect s mac addrType).2
  disconnect : ∀ {s} connIndex, P s → P (ops.disconnect s connIndex).2
  sendPayload : ∀ {s} connIndex data, P s → P (ops.sendPayload s connIndex data).2
  getStatus : ∀ {s}, P s → P (ops.getStatus s).2
  getProfile : ∀ {s}, P s → P (ops.getProfile s).2
  setProfile : ∀ {s} service notify write, P s → P (ops.setProfile s service notify write).2
  setMtu : ∀ {s} mtu, P s → P (ops.setMtu s mtu).2
  getMtu : ∀ {s}, P s → P (ops.getMtu s).2
  requestMtu : ∀ {s} connIndex, P s → P (ops.requestMtu s connIndex).2
  setConnParams : ∀ {s} connIndex minInterval maxInterval latency timeout, P s →
    P (ops.setConnParams s connIndex minInterval maxInterval latency timeout).2
  -- the parser answers the request at once
  enterDataMode : ∀ {s} connIndex text, P s → P (tx.line (ops.enterDataMode s connIndex).2 text)
  getStreamStats : ∀ {s}, P s → P (ops.getStreamStats s).2
  line : ∀ {s} text, P s → P (tx.line s text)
  raw : ∀ {s} data, P s → P (tx.raw s data)

namespace KeptByAnswers

variable {w : World σ}

theorem emitError (k : KeptByAnswers ops tx P) (kind : ErrorKind) (h : P w.ctx) : P (emitError tx w kind).ctx :=
  k.line _ (isAnswer_error kind) h

theorem respond (k : KeptByAnswers ops tx P) (err : Int) (h : P w.ctx) : P (respond tx w err).ctx := by
  unfold AtHost.respond
  split
  · exact k.emitError _ h
  · exact k.line _ isAnswer_ok h

theorem invalidParameters (k : KeptByAnswers ops tx P) (h : P w.ctx) : P (invalidParameters tx w).ctx :=
  k.emitError _ h

/-! ## Commands -/

theorem withConnIndex (k : KeptByAnswers ops tx P) (payload : Text) {f : Nat → World σ} (h : P w.ctx)
    (hf : ∀ connIndex, P (f connIndex).ctx) : P (withConnIndex tx w payload f).ctx := by
  unfold AtHost.withConnIndex
  split
  · exact k.invalidParameters h
  · split
    · exact k.invalidParameters h
    · exact hf _

theorem processStartScan (k : KeptByAnswers ops tx P) (payload : Text) (h : P w.ctx) :
    P (processStartScan ops tx w payload).ctx := by
  unfold AtHost.processStartScan
  split
  · exact k.invalidParameters h
  · split
    · exact k.invalidParameters h
    · exact k.invalidParameters h
    · exact k.respond _ (k.startScan _ _ h)

theorem processStartCon (k : KeptByAnswers ops tx P) (payload : Text) (h : P w.ctx) :
    P (processStartCon ops tx w payload).ctx := by
  unfold AtHost.processStartCon
  split
  · split
    · exact k.invalidParameters h
    · split
      · exact k.invalidParameters h
      · exact k.respond _ (k.connect _ _ h)
  · exact k.invalidParameters h

theorem processDiscon (k : KeptByAnswers ops tx P) (payload : Text) (h : P w.ctx) :
    P (processDiscon ops tx w payload).ctx :=
  k.withConnIndex payload h fun _ => k.respond _ (k.disconnect _ h)

theorem processSend (k : KeptByAnswers ops tx P) (payload : Text) (h : P w.ctx) : P (processSend tx w payload).2.ctx := by
  unfold AtHost.processSend
  split
  · split
    · split
      · exact k.invalidParameters h
      · exact k.raw _ h
    · exact k.invalidParameters h
  · exact k.invalidParameters h

theorem handleGetStatus (k : KeptByAnswers ops tx P) (h : P w.ctx) : P (handleGetStatus ops tx w).ctx := by
  have hs := k.getStatus h
  rcases hr : ops.getStatus w.ctx with ⟨status, s⟩
  rw [hr] at hs
  simp only [AtHost.handleGetStatus, World.called, hr]
  split
  · exact k.line _ ⟨ascii "+OK", by simp, by decide⟩ hs
  · refine k.line _ ⟨ascii "+OK", by simp, by decide⟩ (k.line _ ⟨ascii "0:", by simp, ?_⟩ hs)
    simp only [List.append_assoc]
    exact prefix_snprintk (by decide) _

theorem handleGetProfile (k : KeptByAnswers ops tx P) (h : P w.ctx) : P (handleGetProfile ops tx w).ctx := by
  simp only [AtHost.handleGetProfile, List.append_assoc]
  exact k.line _ (isAnswer_value (by decide) (61 :: _)) (k.getProfile h)

theorem handleGetMtu (k : KeptByAnswers ops tx P) (h : P w.ctx) : P (handleGetMtu ops tx w).ctx :=
  k.line _ (isAnswer_value (by decide) (61 :: _)) (k.getMtu h)

theorem handleGetStreamStats (k : KeptByAnswers ops tx P) (h : P w.ctx) : P (handleGetStreamStats ops tx w).ctx := by
  simp only [AtHost.handleGetStreamStats, List.append_assoc]
  exact k.line _ (isAnswer_value (by decide) (ascii "=H2B," ++ _)) (k.getStreamStats h)

theorem processSetSvcUuid (k : KeptByAnswers ops tx P) (payload : Text) (h : P w.ctx) :
    P (processSetSvcUuid ops tx w payload).ctx := by
  unfold AtHost.processSetSvcUuid
  split
  · exact k.respond _ (k.setProfile _ _ _ h)
  · exact k.invalidParameters h

theorem processSetMtu (k : KeptByAnswers ops tx P) (payload : Text) (h : P w.ctx) :
    P (processSetMtu ops tx w payload).ctx := by
  unfold AtHost.processSetMtu
  split
  · exact k.invalidParameters h
  · exact k.respond _ (k.setMtu _ h)

theorem processConMtuReq (k : KeptByAnswers ops tx P) (payload : Text) (h : P w.ctx) :
    P (processConMtuReq ops tx w payload).ctx :=
  k.withConnIndex payload h fun _ => k.respond _ (k.requestMtu _ h)

theorem processConParaReq (k : KeptByAnswers ops tx P) (payload : Text) (h : P w.ctx) :
    P (processConParaReq ops tx w payload).ctx := by
  unfold AtHost.processConParaReq
  split
  · split
    · exact k.invalidParameters h
    · exact k.respond _ (k.setConnParams _ _ _ _ _ h)
  · exact k.invalidParameters h

theorem processEnterDataMode (k : KeptByAnswers ops tx P) (payload : Text) (h : P w.ctx) :
    P (processEnterDataMode ops tx w payload).ctx := by
  refine k.withConnIndex payload h fun connIndex => ?_
  have he := fun text ht => k.enterDataMode connIndex text ht h
  rcases hr : ops.enterDataMode w.ctx connIndex with ⟨err, s⟩
  rw [hr] at he
  dsimp only [World.called]
  split
  · exact he _ (isAnswer_error _)
  · exact k.line _ isAnswer_dataMode (he _ isAnswer_ok)

theorem of_ite {c : Prop} [Decidable c] {p q : CommandResult × World σ} (hp : P p.2.ctx) (hq : P q.2.ctx) :
    P (if c then p else q).2.ctx := by
  split
  · exact hp
  · exact hq

/-- One line for each command of the chain. -/
theorem processCommand (k : KeptByAnswers ops tx P) (line : Text) (h : P w.ctx) :
    P (processCommand ops tx w line).2.ctx := by
  unfold AtHost.processCommand
  refine of_ite h ?_
  refine of_ite (k.line _ isAnswer_ok h) ?_
  refine of_ite (k.processStartScan _ h) ?_
  refine of_ite (k.processStartCon _ h) ?_
  refine of_ite (k.processDiscon _ h) ?_
  refine of_ite (k.processSend _ h) ?_
  refine of_ite (k.handleGetStatus h) ?_
  refine of_ite (k.processSetSvcUuid _ h) ?_
  refine of_ite (k.handleGetProfile h) ?_
  refine of_ite (k.processSetMtu _ h) ?_
  refine of_ite (k.handleGetMtu h) ?_
  refine of_ite (k.processConMtuReq _ h) ?_
  refine of_ite (k.processConParaReq _ h) ?_
  refine of_ite (k.processEnterDataMode _ h) ?_
  refine of_ite (k.handleGetStreamStats h) ?_
  exact of_ite (k.emitError _ h) (k.emitError _ h)

/-! ## Received bytes -/

theorem endOfLine (k : KeptByAnswers ops tx P) (skip : Bool) (h : P w.ctx) : P (endOfLine ops tx skip w).2.ctx := by
  simp only [AtHost.endOfLine]
  split
  · exact k.processCommand _ h
  · split
    · exact k.emitError _ h
    · exact h

theorem payloadByte (k : KeptByAnswers ops tx P) (ch : Byte) (h : P w.ctx) : P (payloadByte ops tx w ch).ctx := by
  simp only [AtHost.payloadByte]
  split
  · exact k.respond _ (k.sendPayload _ _ h)
  · exact h

theorem rxByte (k : KeptByAnswers ops tx P) {p : Bool × World σ} (ch : Byte) (h : P p.2.ctx) :
    P (rxByte ops tx p ch).2.ctx := by
  simp only [AtHost.rxByte]
  split
  · split
    · exact h
    · exact k.payloadByte ch h
  · split
    · exact k.endOfLine _ h
    · split
      · exact h
      · exact h

theorem rxLoop (k : KeptByAnswers ops tx P) {p : Bool × World σ} (data : List Byte) (h : P p.2.ctx) :
    P (rxLoop ops tx p data).2.ctx := by
  induction data generalizing p with
  | nil => exact h
  | cons ch data ih => exact ih (k.rxByte ch h)

theorem atHostRxBytes (k : KeptByAnswers ops tx P) (data : List Byte) (h : P w.ctx) :
    P (atHostRxBytes ops tx w data).ctx :=
  k.rxLoop data h

end KeptByAnswers

namespace Kept

variable {w : World σ}

theorem byAnswers (k : Kept ops tx P) : KeptByAnswers ops tx P where
  startScan := k.startScan
  connect := k.connect
  disconnect := k.disconnect
  sendPayload := k.sendPayload
  getStatus := k.getStatus
  getProfile := k.getProfile
  setProfile := k.setProfile
  setMtu := k.setMtu
  getMtu := k.getMtu
  requestMtu := k.requestMtu
  setConnParams := k.setConnParams
  enterDataMode connIndex text _ := k.enterDataMode connIndex text
  getStreamStats := k.getStreamStats
  line text _ := k.line text
  raw := k.raw

theorem atHostRxBytes (k : Kept ops tx P) (data : List Byte) (h : P w.ctx) :
    P (atHostRxBytes ops tx w data).ctx :=
  k.byAnswers.atHostRxBytes data h

end Kept

end BleAtHost.AtHost
