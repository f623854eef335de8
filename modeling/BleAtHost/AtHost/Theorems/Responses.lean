import BleAtHost.AtHost.Theorems
import BleAtHost.AtHost.Lemmas.Reads

/-!
# One response to a command

Which responses a stream of bytes calls for depends on the bytes alone. These are the responses in the output, in this
order, as long as the operations do not write such lines themselves.
-/

namespace BleAtHost.AtHost

variable {σ : Type}

/-! ## The responses that a stream calls for -/

/-- What the byte that comes next is answered with. -/
def Frame.answer : Frame → Byte → Option Signal
  | .line buffer overflow, ch =>
      if isLineEnd ch = false then none
      else if overflow then some .final
      else if (cString buffer).all isSpace then none
      else if (sendRequest (cString buffer)).isSome then some .prompt
      else some .final
  | .opened expected, ch => if isLineEnd ch = false ∧ expected = 1 then some .final else none
  | .payload _ _ stored expected, _ => if stored + 1 = expected then some .final else none

/-- Where the stream stands for a further call of `at_host_rx_bytes`. -/
def Frame.resume : Frame → Frame
  | .opened expected => .payload [] false 0 expected
  | frame => frame

def Frame.step (frame : Frame) : RxEvent → Frame
  | .call => frame.resume
  | .byte ch => frame.next ch

def Frame.answers : Frame → List RxEvent → List Signal
  | _, [] => []
  | frame, .call :: es => answers frame.resume es
  | frame, .byte ch :: es => (frame.answer ch).toList ++ answers (frame.next ch) es

/-! ## The output -/

inductive Output where
  | line (text : Text)
  | raw (data : List Byte)
deriving DecidableEq, Repr

def Output.signal : Output → Option Signal
  | .line text => if isFinal text then some .final else none
  | .raw data => if data = ascii ">" then some .prompt else none

def Call.output : Call → Option Output
  | .line text => some (.line text)
  | .raw data => some (.raw data)
  | _ => none

/-- What goes out is what is written, and lines of the operations that are no final responses. -/
structure Writes (ops : Ops σ) (tx : Tx σ) (output : σ → List Output) : Prop where
  line : ∀ s text, output (tx.line s text) = output s ++ [.line text]
  raw : ∀ s data, output (tx.raw s data) = output s ++ [.raw data]
  op : ∀ s (call : Call), call.output = none → ∃ lines : List Text, (∀ text ∈ lines, isFinal text = false) ∧
    output (call.effect ops tx s) = output s ++ lines.map .line

/-- The prompts and final responses in the output. -/
def heard (output : σ → List Output) (s : σ) : List Signal := (output s).filterMap Output.signal

namespace Writes

variable {ops : Ops σ} {tx : Tx σ} {output : σ → List Output}

theorem heard_effect (h : Writes ops tx output) (s : σ) (call : Call) :
    heard output (call.effect ops tx s) = heard output s ++ signals [call] := by
  have hop : call.output = none → call.signal = none →
      heard output (call.effect ops tx s) = heard output s ++ signals [call] := by
    intro hnone hsignal
    obtain ⟨lines, hlines, hout⟩ := h.op s call hnone
    have hquiet : (lines.map Output.line).filterMap Output.signal = [] := by
      apply List.filterMap_eq_nil_iff.mpr
      intro o ho
      obtain ⟨text, htext, rfl⟩ := List.mem_map.mp ho
      simp [Output.signal, hlines text htext]
    rw [heard, hout, List.filterMap_append, hquiet]
    simp [heard, signals, hsignal]
  cases call with
  | line text =>
      have hout : output (Call.effect ops tx s (.line text)) = _ := h.line s text
      rw [heard, hout, List.filterMap_append]
      rfl
  | raw data =>
      have hout : output (Call.effect ops tx s (.raw data)) = _ := h.raw s data
      rw [heard, hout, List.filterMap_append]
      rfl
  | _ => exact hop rfl rfl

theorem heard_effects (h : Writes ops tx output) (calls : List Call) (s : σ) :
    heard output (effects ops tx calls s) = heard output s ++ signals calls := by
  induction calls generalizing s with
  | nil => exact (List.append_nil _).symm
  | cons call calls ih =>
      have hfirst : signals (call :: calls) = signals [call] ++ signals calls := signals_append [call] calls
      have hrest : heard output (effects ops tx (call :: calls) s) = _ := ih (call.effect ops tx s)
      rw [hrest, h.heard_effect, hfirst, List.append_assoc]

end Writes

/-! ## Blank lines -/

theorem all_isSpace_of_trim {text : Text} (h : trimWhitespace text = []) : text.all isSpace = true := by
  have htrim : (text.dropWhile isSpace).reverse.dropWhile isSpace = [] := List.reverse_eq_nil_iff.mp h
  have hall : ∀ ch ∈ (text.dropWhile isSpace).reverse, isSpace ch = true := List.dropWhile_eq_nil_iff.mp htrim
  cases hrest : text.dropWhile isSpace with
  | nil => exact List.all_eq_true.mpr (List.dropWhile_eq_nil_iff.mp hrest)
  | cons ch rest =>
      -- what is left begins with a byte that is not dropped
      have hspace : isSpace ch = true := hall ch (by simp [hrest])
      have hne : text.dropWhile isSpace ≠ [] := by simp [hrest]
      have hnot := List.head_dropWhile_not isSpace hne
      simp [hrest, hspace] at hnot

theorem workingLine_eq_nil_iff {buffer : List Byte} (hfits : buffer.length ≤ LINE_BUFFER_SIZE - 1) :
    workingLine (cString buffer) = [] ↔ (cString buffer).all isSpace = true := by
  have hle : (cString buffer).length ≤ LINE_BUFFER_SIZE - 1 :=
    Nat.le_trans (List.takeWhile_sublist _).length_le hfits
  have hcopy : snprintk LINE_BUFFER_SIZE (cString buffer) = cString buffer := List.take_of_length_le hle
  rw [workingLine, hcopy]
  refine ⟨all_isSpace_of_trim, fun h => ?_⟩
  have hdrop : (cString buffer).dropWhile isSpace = [] := List.dropWhile_eq_nil_iff.mpr (List.all_eq_true.mp h)
  rw [trimWhitespace, hdrop]
  rfl

/-! ## One byte -/

section
variable {upload : Option Upload} {skip skip' : Bool} {host host' : State} {ch : Byte} {calls : List Call}

theorem frameOf_line (h : Sound upload skip host) (hm : host.payloadMode = false) :
    frameOf skip host = .line host.lineBuffer host.lineOverflow := by
  cases skip with
  | true => exact absurd (h.flag rfl).1 (by simp [hm])
  | false => simp [frameOf, Frame.start, hm]

/-- A byte of a payload that is not passed over is answered if it is the last. -/
theorem frameOf_payload (h : Sound upload skip host) (hm : host.payloadMode = true) (hp : ¬PassedOver skip host ch) :
    (frameOf skip host).answer ch =
      if host.payloadBuffer.length + 1 = host.payloadExpected then some .final else none := by
  cases skip with
  | true =>
      obtain ⟨-, hbuffer, -⟩ := h.flag rfl
      have he : isLineEnd ch = false := by simpa [PassedOver, hbuffer] using hp
      simp [frameOf, Frame.answer, he, hbuffer, eq_comm]
  | false => simp [frameOf, Frame.start, hm, Frame.answer]

/-- The calls of a byte carry the answer that the framing expects, and none if it expects none. -/
theorem ByteStep.answer (h : Sound upload skip host) (hs : ByteStep skip host ch skip' host' calls) :
    signals calls = ((frameOf skip host).answer ch).toList ∧ ((frameOf skip host).answer ch = none → calls = []) := by
  cases hs with
  | passed hm hp =>
      obtain ⟨rfl, hbuffer, he⟩ := hp
      simp [frameOf, Frame.answer, he]
  | stored hm hp hlt => simp [frameOf_payload h hm hp, hlt]
  | sent hm hp heq hr => simp [frameOf_payload h hm hp, heq, hr.signals]
  | overlong hm he ho =>
      have hfinal : signals [.line ErrorKind.invalidCommand.text] = [.final] := by decide
      simp [frameOf_line h hm, Frame.answer, he, ho, hfinal]
  | blank hm he ho hb =>
      have hblank := (workingLine_eq_nil_iff h.line).mp hb
      simp [frameOf_line h hm, Frame.answer, he, ho, hblank]
  | opened hm he ho hreq =>
      have hblank : (cString host.lineBuffer).all isSpace = false := by
        rw [← Bool.not_eq_true, ← workingLine_eq_nil_iff h.line]
        intro hb
        simp [sendRequest_none_of_blank hb] at hreq
      have hprompt : signals [.raw (ascii ">")] = [.prompt] := by decide
      simp [frameOf_line h hm, Frame.answer, he, ho, hblank, hreq, hprompt]
  | answered hm he ho hreq hb hr =>
      have hblank : (cString host.lineBuffer).all isSpace = false := by
        rw [← Bool.not_eq_true, ← workingLine_eq_nil_iff h.line]
        exact hb
      simp [frameOf_line h hm, Frame.answer, he, ho, hblank, hreq, hr.signals]
  | full hm he hl => simp [frameOf_line h hm, Frame.answer, he]
  | char hm he hl => simp [frameOf_line h hm, Frame.answer, he]

end

/-! ## Runs -/

variable (ops : Ops σ) (tx : Tx σ)

def Tracked.frame (t : Tracked σ) : Frame := frameOf t.skip t.world.host

theorem rxStep_frame {t : Tracked σ} (h : t.Sound) (e : RxEvent) : (rxStep ops tx t e).frame = t.frame.step e := by
  cases e with
  | byte ch => exact (rxByte_frame ops tx h.flag ch).2
  | call =>
      have hnext : (rxStep ops tx t .call).frame = Frame.start t.world.host := rfl
      have hthis : t.frame = frameOf t.skip t.world.host := rfl
      rw [hnext, hthis]
      cases hskip : t.skip with
      | true =>
          obtain ⟨hm, hbuffer, -, hline, hover⟩ := h.flag hskip
          simp [frameOf, Frame.start, hm, hbuffer, hline, hover, Frame.step, Frame.resume]
      | false =>
          cases hm : t.world.host.payloadMode with
          | _ => simp [frameOf, Frame.start, hm, Frame.step, Frame.resume]

theorem run_frame {t : Tracked σ} (h : t.Sound) (es : List RxEvent) :
    (Runs.run (rxStep ops tx) t es).frame = Runs.run Frame.step t.frame es := by
  induction es generalizing t with
  | nil => rfl
  | cons e es ih => rw [Runs.run_cons, Runs.run_cons, ih (rxStep_sound ops tx h e), rxStep_frame ops tx h e]

theorem run_heard {output : σ → List Output} (hw : Writes ops tx output) {t : Tracked σ} (h : t.Sound)
    (es : List RxEvent) :
    heard output (Runs.run (rxStep ops tx) t es).world.ctx = heard output t.world.ctx ++ t.frame.answers es := by
  induction es generalizing t with
  | nil => exact (List.append_nil _).symm
  | cons e es ih =>
      have hframe := rxStep_frame ops tx h e
      rw [Runs.run_cons, ih (rxStep_sound ops tx h e), hframe]
      cases e with
      | call => rfl
      | byte ch =>
          obtain ⟨calls, hstep, -, hctx⟩ := rxByte_step ops tx h.flag ch
          have hctx' : (rxStep ops tx t (.byte ch)).world.ctx = effects ops tx calls t.world.ctx := hctx
          have hanswer : signals calls = (t.frame.answer ch).toList := (hstep.answer h).1
          rw [hctx', hw.heard_effects, hanswer, List.append_assoc]
          rfl

/-- The output holds the responses that the bytes call for, each once and in order, and a byte that calls for none
writes nothing and calls no operation. -/
theorem responses_in_order {output : σ → List Output} (hw : Writes ops tx output) (ctx : σ) (es : List RxEvent) :
    heard output (Runs.run (rxStep ops tx) (Tracked.start ctx) es).world.ctx =
        heard output ctx ++ Frame.answers (.line [] false) es ∧
      ∀ ch, (Runs.run Frame.step (.line [] false) es).answer ch = none →
        callsSince (Runs.run (rxStep ops tx) (Tracked.start ctx) es).world
          (Runs.run (rxStep ops tx) (Tracked.start ctx) (es ++ [.byte ch])).world = [] ∧
        (Runs.run (rxStep ops tx) (Tracked.start ctx) (es ++ [.byte ch])).world.ctx =
          (Runs.run (rxStep ops tx) (Tracked.start ctx) es).world.ctx := by
  have hstart := start_sound ctx
  refine ⟨run_heard ops tx hw hstart es, fun ch hnone => ?_⟩
  have hsound := run_sound ops tx hstart es
  have hframe : Tracked.frame _ = Runs.run Frame.step (.line [] false) es := run_frame ops tx hstart es
  rw [← hframe] at hnone
  obtain ⟨calls, hstep, htrace, hctx⟩ := rxByte_step ops tx hsound.flag ch
  obtain rfl := (hstep.answer hsound).2 hnone
  rw [Runs.run_append]
  exact ⟨callsSince_eq htrace, hctx⟩

/-- Operations that write no line but the end of a scan, and write it at once. -/
def eventOps : Ops (List Output) where
  startScan s _ _ := (0, s ++ [.line (ascii "+IND=SCED")])
  connect s _ _ := (0, s)
  disconnect s _ := (-ENOTCONN, s)
  sendPayload s _ _ := (0, s)
  getStatus s := (⟨false, false, [], 0, 0⟩, s)
  getProfile s := (⟨[], [], []⟩, s)
  setProfile s _ _ _ := (0, s)
  setMtu s _ := (0, s)
  getMtu s := (23, s)
  requestMtu s _ := (0, s)
  setConnParams s _ _ _ _ _ := (0, s)
  enterDataMode s _ := (0, s)
  getStreamStats s := (⟨0, 0, 0, 0, 0, 0, 0, 0, 0⟩, s)

def eventTx : Tx (List Output) where
  line s text := s ++ [.line text]
  raw s data := s ++ [.raw data]

theorem eventOps_writes : Writes eventOps eventTx id := by
  refine ⟨fun _ _ => rfl, fun _ _ => rfl, fun s call h => ?_⟩
  cases call with
  | line | raw => cases h
  | startScan => exact ⟨[_], by decide, rfl⟩
  | _ => exact ⟨[], by simp, (List.append_nil _).symm⟩

/-- A scan, a blank line and a payload. -/
theorem responses_of_session :
    let data := ascii "AT+STARTSCAN=5\r\n \r\nAT+SEND=0,2\r\nhi"
    let t := Runs.run (rxStep eventOps eventTx) (Tracked.start []) (.call :: data.map .byte)
    heard id t.world.ctx = Frame.answers (.line [] false) (.call :: data.map .byte) ∧
      Frame.answers (.line [] false) (.call :: data.map .byte) = [.final, .prompt, .final] :=
  ⟨(responses_in_order eventOps eventTx eventOps_writes [] _).1, by decide⟩

end BleAtHost.AtHost
