import BleAtHost.AtHost.Lemmas.Emits

/-!
# What a command answers

A command that does not open a payload answers at once: with one final response, before which it may have called one
operation and written other lines.
-/

namespace BleAtHost.AtHost

variable {σ : Type}

/-- What a call does to the context. -/
def Call.effect (ops : Ops σ) (tx : Tx σ) (s : σ) : Call → σ
  | .startScan durationS filterName => (ops.startScan s durationS filterName).2
  | .connect mac addrType => (ops.connect s mac addrType).2
  | .disconnect connIndex => (ops.disconnect s connIndex).2
  | .sendPayload connIndex data => (ops.sendPayload s connIndex data).2
  | .getStatus => (ops.getStatus s).2
  | .getProfile => (ops.getProfile s).2
  | .setProfile service notify write => (ops.setProfile s service notify write).2
  | .setMtu mtu => (ops.setMtu s mtu).2
  | .getMtu => (ops.getMtu s).2
  | .requestMtu connIndex => (ops.requestMtu s connIndex).2
  | .setConnParams connIndex minInterval maxInterval latency timeout =>
      (ops.setConnParams s connIndex minInterval maxInterval latency timeout).2
  | .enterDataMode connIndex => (ops.enterDataMode s connIndex).2
  | .getStreamStats => (ops.getStreamStats s).2
  | .line text => tx.line s text
  | .raw data => tx.raw s data

def effects (ops : Ops σ) (tx : Tx σ) (calls : List Call) (s : σ) : σ := calls.foldl (Call.effect ops tx) s

variable {ops : Ops σ} {tx : Tx σ} {w w' w'' : World σ}

/-- From `w` to `w'` these calls are made, the oldest first, and nothing else happens. -/
structure Made (ops : Ops σ) (tx : Tx σ) (calls : List Call) (w w' : World σ) : Prop where
  host : w'.host = w.host
  trace : w'.trace = calls.reverse ++ w.trace
  ctx : w'.ctx = effects ops tx calls w.ctx

namespace Made

theorem refl (w : World σ) : Made ops tx [] w w := ⟨rfl, rfl, rfl⟩

theorem trans {calls calls' : List Call} (h : Made ops tx calls w w') (h' : Made ops tx calls' w' w'') :
    Made ops tx (calls ++ calls') w w'' := by
  refine ⟨h'.host.trans h.host, ?_, ?_⟩
  · rw [h'.trace, h.trace, List.reverse_append, List.append_assoc]
  · rw [h'.ctx, h.ctx, effects, effects, effects, List.foldl_append]

theorem txLine (w : World σ) (line : Text) : Made ops tx [.line line] w (txLine tx w line) := ⟨rfl, rfl, rfl⟩

theorem called {ρ : Type} (w : World σ) {call : Call} {r : ρ × σ} (hr : r.2 = call.effect ops tx w.ctx) :
    Made ops tx [call] w (w.called call r).2 := ⟨rfl, rfl, hr⟩

end Made

/-! ## Final responses -/

/-- What the host waits for. -/
inductive Signal where
  | prompt
  | final
deriving DecidableEq, Repr

/-- A final response line. -/
def isFinal (line : Text) : Bool := (ascii "+OK").isPrefixOf line || (ascii "+ERR").isPrefixOf line

def Call.signal : Call → Option Signal
  | .line text => if isFinal text then some .final else none
  | .raw data => if data = ascii ">" then some .prompt else none
  | _ => none

/-- The signals among the calls, in order. -/
def signals (calls : List Call) : List Signal := calls.filterMap Call.signal

@[simp] theorem signals_nil : signals [] = [] := rfl

theorem signals_append (calls calls' : List Call) : signals (calls ++ calls') = signals calls ++ signals calls' :=
  List.filterMap_append

theorem isFinal_error (kind : ErrorKind) : isFinal kind.text = true := by
  cases kind with
  | _ => decide

/-- A line that begins with `+OK` still does when it is cut to a buffer that is not too small. -/
theorem isFinal_snprintk {size : Nat} (hsize : 4 ≤ size) {start : Text} (hstart : ascii "+OK" <+: start) (text : Text) :
    isFinal (snprintk size (start ++ text)) = true := by
  have hlen : (ascii "+OK").length = 3 := rfl
  have hprefix : ascii "+OK" <+: snprintk size (start ++ text) :=
    List.prefix_take_iff.mpr ⟨hstart.trans (List.prefix_append start text), by omega⟩
  simp [isFinal, List.isPrefixOf_iff_prefix.mpr hprefix]

/-! ## Replies -/

/-- A reply: lines of which one is a final response, after an operation that `good` allows or without one. -/
inductive Reply (good : Call → Prop) : List Call → Prop
  | alone {lines : List Text} (h : signals (lines.map .line) = [.final]) : Reply good (lines.map .line)
  | after {call : Call} {lines : List Text} (hc : good call) (hs : call.signal = none)
      (h : signals (lines.map .line) = [.final]) : Reply good (call :: lines.map .line)

theorem Reply.signals {good : Call → Prop} {calls : List Call} (h : Reply good calls) :
    AtHost.signals calls = [.final] := by
  cases h with
  | alone h => exact h
  | after hc hs h => simpa [AtHost.signals, hs] using h

theorem Reply.mono {good good' : Call → Prop} (hg : ∀ call, good call → good' call) {calls : List Call}
    (h : Reply good calls) : Reply good' calls := by
  cases h with
  | alone h => exact .alone h
  | after hc hs h => exact .after (hg _ hc) hs h

def Replies (ops : Ops σ) (tx : Tx σ) (good : Call → Prop) (w w' : World σ) : Prop :=
  ∃ calls, Made ops tx calls w w' ∧ Reply good calls

namespace Replies

variable {good : Call → Prop}

theorem line {text : Text} (h : isFinal text = true) : Replies ops tx good w (txLine tx w text) := by
  have hreply : Reply good ([text].map .line) := .alone (by simp [signals, Call.signal, h])
  exact ⟨_, .txLine w text, hreply⟩

theorem emitError (kind : ErrorKind) : Replies ops tx good w (emitError tx w kind) := line (isFinal_error kind)

theorem invalidParameters : Replies ops tx good w (invalidParameters tx w) := emitError _

/-- One final line after an operation. -/
theorem calledLine {ρ : Type} {call : Call} {r : ρ × σ} (hc : good call) (hs : call.signal = none)
    (hr : r.2 = call.effect ops tx w.ctx) {text : Text} (h : isFinal text = true) : Replies ops tx good w (txLine tx (w.called call r).2 text) := by
  have hreply : Reply good (call :: [text].map .line) := .after hc hs (by simp [signals, Call.signal, h])
  exact ⟨_, (Made.called w hr).trans (.txLine _ text), hreply⟩

/-- Two lines after an operation, of which one is final. -/
theorem calledLines {ρ : Type} {call : Call} {r : ρ × σ} (hc : good call) (hs : call.signal = none)
    (hr : r.2 = call.effect ops tx w.ctx) {text text' : Text} (h : signals [.line text, .line text'] = [.final]) :
    Replies ops tx good w (txLine tx (txLine tx (w.called call r).2 text) text') := by
  have hreply : Reply good (call :: [text, text'].map .line) := .after hc hs h
  exact ⟨_, ((Made.called w hr).trans (.txLine _ text)).trans (.txLine _ text'), hreply⟩

theorem respond {call : Call} {r : Int × σ} (hc : good call) (hs : call.signal = none)
    (hr : r.2 = call.effect ops tx w.ctx) :
    Replies ops tx good w (respond tx (w.called call r).2 r.1) := by
  unfold AtHost.respond
  split
  · exact calledLine hc hs hr (isFinal_error _)
  · exact calledLine hc hs hr (by decide)

theorem withConnIndex {payload : Text} {f : Nat → World σ} (hf : ∀ connIndex, Replies ops tx good w (f connIndex)) :
    Replies ops tx good w (withConnIndex tx w payload f) := by
  unfold AtHost.withConnIndex
  split
  · exact invalidParameters
  · split
    · exact invalidParameters
    · exact hf _

end Replies

/-! ## Commands -/

/-- The name filter of `AT+STARTSCAN` in what follows the duration. -/
def filterOf : List Text → Option Text
  | [] | [] :: _ => none
  | name :: _ => some name

/-- The operation that a command may call, by the command and the arguments that `split_args` finds. -/
def Asked (working : Text) : Call → Prop
  | .startScan durationS filterName =>
      startsWithIgnoreCase working (ascii "AT+STARTSCAN=") ∧ ∃ duration rest,
        splitArgs MAX_ARGS (working.drop (ascii "AT+STARTSCAN=").length) = duration :: rest ∧
          parseUint16Value duration = some durationS ∧ durationS ≠ 0 ∧ filterName = filterOf rest
  | .connect mac addrType =>
      startsWithIgnoreCase working (ascii "AT+STARTCON=") ∧ ∃ typeText,
        splitArgs MAX_ARGS (working.drop (ascii "AT+STARTCON=").length) = [mac, typeText] ∧
          parseUint16Value typeText = some addrType ∧ addrType ≤ 3
  | .setProfile service notify write =>
      startsWithIgnoreCase working (ascii "AT+SETSVCUUID=") ∧
        splitArgs MAX_ARGS (working.drop (ascii "AT+SETSVCUUID=").length) = [service, notify, write]
  | .setConnParams connIndex minInterval maxInterval latency timeout =>
      startsWithIgnoreCase working (ascii "AT+CONPARAREQ=") ∧
        (splitArgs MAX_ARGS (working.drop (ascii "AT+CONPARAREQ=").length)).mapM parseUint16Value =
          some [connIndex, minInterval, maxInterval, latency, timeout] ∧ connIndex ≤ 255
  | .sendPayload _ _ | .line _ | .raw _ => False
  | _ => True

namespace Replies

variable {working : Text}

theorem processStartScan (hs : startsWithIgnoreCase working (ascii "AT+STARTSCAN=")) :
    Replies ops tx (Asked working) w (processStartScan ops tx w (working.drop (ascii "AT+STARTSCAN=").length)) := by
  unfold AtHost.processStartScan
  split
  · exact invalidParameters
  · rename_i duration rest hargs
    split
    · exact invalidParameters
    · exact invalidParameters
    · rename_i durationS hzero hparsed
      exact respond ⟨hs, duration, rest, hargs, hparsed, hzero, rfl⟩ rfl rfl

theorem processStartCon (hs : startsWithIgnoreCase working (ascii "AT+STARTCON=")) :
    Replies ops tx (Asked working) w (processStartCon ops tx w (working.drop (ascii "AT+STARTCON=").length)) := by
  unfold AtHost.processStartCon
  split
  · rename_i mac typeText hargs
    split
    · exact invalidParameters
    · rename_i addrType hparsed
      split
      · exact invalidParameters
      · rename_i hle
        exact respond ⟨hs, typeText, hargs, hparsed, Nat.not_lt.mp hle⟩ rfl rfl
  · exact invalidParameters

theorem processDiscon (payload : Text) : Replies ops tx (Asked working) w (processDiscon ops tx w payload) :=
  withConnIndex fun _ => respond trivial rfl rfl

theorem processSetSvcUuid (hs : startsWithIgnoreCase working (ascii "AT+SETSVCUUID=")) :
    Replies ops tx (Asked working) w (processSetSvcUuid ops tx w (working.drop (ascii "AT+SETSVCUUID=").length)) := by
  unfold AtHost.processSetSvcUuid
  split
  · rename_i service notify write hargs
    exact respond ⟨hs, hargs⟩ rfl rfl
  · exact invalidParameters

theorem processSetMtu (payload : Text) : Replies ops tx (Asked working) w (processSetMtu ops tx w payload) := by
  unfold AtHost.processSetMtu
  split
  · exact invalidParameters
  · exact respond trivial rfl rfl

theorem processConMtuReq (payload : Text) : Replies ops tx (Asked working) w (processConMtuReq ops tx w payload) :=
  withConnIndex fun _ => respond trivial rfl rfl

theorem processConParaReq (hs : startsWithIgnoreCase working (ascii "AT+CONPARAREQ=")) :
    Replies ops tx (Asked working) w (processConParaReq ops tx w (working.drop (ascii "AT+CONPARAREQ=").length)) := by
  unfold AtHost.processConParaReq
  split
  · rename_i connIndex minInterval maxInterval latency timeout hargs
    split
    · exact invalidParameters
    · rename_i hle
      exact respond ⟨hs, hargs, Nat.not_lt.mp hle⟩ rfl rfl
  · exact invalidParameters

theorem processEnterDataMode (payload : Text) : Replies ops tx (Asked working) w (processEnterDataMode ops tx w payload) := by
  refine withConnIndex fun connIndex => ?_
  dsimp only
  split
  · exact calledLine trivial rfl rfl (isFinal_error _)
  · exact calledLines trivial rfl rfl (by decide)

theorem handleGetStatus : Replies ops tx (Asked working) w (handleGetStatus ops tx w) := by
  simp only [AtHost.handleGetStatus]
  split
  · exact calledLine trivial rfl rfl (by decide)
  · -- the line of the connection begins with its index
    have hfirst : ∀ text : Text, isFinal (snprintk 80 (ascii "0:" ++ text)) = false := by
      intro text
      simp [isFinal, snprintk, ascii, List.isPrefixOf]
    refine calledLines trivial rfl rfl ?_
    have hlast : isFinal (ascii "+OK=NUM,1") = true := by decide
    simp [signals, Call.signal, hfirst, hlast]

theorem handleGetProfile : Replies ops tx (Asked working) w (handleGetProfile ops tx w) := by
  simp only [AtHost.handleGetProfile, List.append_assoc]
  exact calledLine trivial rfl rfl (isFinal_snprintk (by omega) (by decide) _)

theorem handleGetMtu : Replies ops tx (Asked working) w (handleGetMtu ops tx w) :=
  calledLine trivial rfl rfl (isFinal_snprintk (by omega) (by decide) _)

theorem handleGetStreamStats : Replies ops tx (Asked working) w (handleGetStreamStats ops tx w) := by
  simp only [AtHost.handleGetStreamStats, List.append_assoc]
  exact calledLine trivial rfl rfl (isFinal_snprintk (by omega) (by decide) _)

end Replies

/-! ## `process_command` -/

/-- The line that `process_command` looks at. -/
def workingLine (line : Text) : Text := trimWhitespace (snprintk LINE_BUFFER_SIZE line)

/-- The command is over and has been answered. -/
def Answered (ops : Ops σ) (tx : Tx σ) (working : Text) (w : World σ) (r : CommandResult × World σ) : Prop :=
  r.1 = .none ∧ Replies ops tx (Asked working) w r.2

theorem Answered.of_ite {working : Text} {c : Prop} [Decidable c] {r r' : CommandResult × World σ}
    (h : c → Answered ops tx working w r) (h' : Answered ops tx working w r') : Answered ops tx working w (if c then r else r') := by
  split
  · exact h ‹_›
  · exact h'

variable (ops tx)

theorem processCommand_blank (w : World σ) {line : Text} (h : workingLine line = []) :
    processCommand ops tx w line = (.none, w) := by
  unfold processCommand
  exact if_pos h

theorem processCommand_answered (w : World σ) {line : Text} (h : sendRequest line = none)
    (hne : workingLine line ≠ []) : Answered ops tx (workingLine line) w (processCommand ops tx w line) := by
  unfold processCommand
  change Answered ops tx _ _ (if workingLine line = [] then _ else _)
  rw [if_neg hne]
  refine Answered.of_ite (fun _ => ⟨rfl, .line (by decide)⟩) ?_
  refine Answered.of_ite (fun hs => ⟨rfl, .processStartScan hs⟩) ?_
  refine Answered.of_ite (fun hs => ⟨rfl, .processStartCon hs⟩) ?_
  refine Answered.of_ite (fun _ => ⟨rfl, .processDiscon _⟩) ?_
  refine Answered.of_ite (fun hs => ?_) ?_
  · have hargs := (if_pos hs).symm.trans h
    rw [processSend_eq, hargs]
    exact ⟨rfl, .invalidParameters⟩
  refine Answered.of_ite (fun _ => ⟨rfl, .handleGetStatus⟩) ?_
  refine Answered.of_ite (fun hs => ⟨rfl, .processSetSvcUuid hs⟩) ?_
  refine Answered.of_ite (fun _ => ⟨rfl, .handleGetProfile⟩) ?_
  refine Answered.of_ite (fun _ => ⟨rfl, .processSetMtu _⟩) ?_
  refine Answered.of_ite (fun _ => ⟨rfl, .handleGetMtu⟩) ?_
  refine Answered.of_ite (fun _ => ⟨rfl, .processConMtuReq _⟩) ?_
  refine Answered.of_ite (fun hs => ⟨rfl, .processConParaReq hs⟩) ?_
  refine Answered.of_ite (fun _ => ⟨rfl, .processEnterDataMode _⟩) ?_
  refine Answered.of_ite (fun _ => ⟨rfl, .handleGetStreamStats⟩) ?_
  exact Answered.of_ite (fun _ => ⟨rfl, .emitError _⟩) ⟨rfl, .emitError _⟩

/-! ## Calls between two states -/

/-- The calls from `w` to `w'`, the oldest first. -/
def callsSince (w w' : World σ) : List Call := (w'.trace.take (w'.trace.length - w.trace.length)).reverse

theorem callsSince_eq {calls : List Call} (h : w'.trace = calls.reverse ++ w.trace) : callsSince w w' = calls := by
  rw [callsSince, h, List.length_append, Nat.add_sub_cancel, List.take_left, List.reverse_reverse]

theorem Made.callsSince {calls : List Call} (h : Made ops tx calls w w') : callsSince w w' = calls := callsSince_eq h.trace

end BleAtHost.AtHost
