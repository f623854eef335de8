import BleAtHost.AtHost.Lemmas.Reads

/-!
# Safety of the framing

In every state that the bytes of any calls reach, the buffers are not overrun, a payload is what the latest `AT+SEND`
asked for, and a line that is too long is refused and forgotten.
-/

namespace BleAtHost.AtHost

variable {σ : Type} (ops : Ops σ) (tx : Tx σ)

/-- The bytes among the events. -/
def bytesOf : List RxEvent → List Byte
  | [] => []
  | .call :: es => bytesOf es
  | .byte ch :: es => ch :: bytesOf es

structure FramingSafe (t : Tracked σ) : Prop where
  /-- There is room for the terminator behind the line. -/
  line : t.world.host.lineBuffer.length ≤ LINE_BUFFER_SIZE - 1
  payload : t.world.host.payloadMode = true → 1 ≤ t.world.host.payloadExpected ∧
    t.world.host.payloadExpected ≤ BLE_HOST_SEND_MAX_LEN ∧
    t.world.host.payloadBuffer.length < t.world.host.payloadExpected
  /-- The next byte sends only what the latest accepted `AT+SEND` has named and what was stored since. -/
  send : ∀ ch connIndex data,
    .sendPayload connIndex data ∈ callsSince t.world (rxStep ops tx t (.byte ch)).world →
      ∃ u, (rxStep ops tx t (.byte ch)).upload = some u ∧ connIndex = u.connIndex ∧ data = u.stored ∧
        data.length = u.length
  /-- However the line is cut into calls. -/
  overlong : t.world.host.payloadMode = false → t.world.host = t.world.host.freshLine →
    ∀ text ch es, (∀ c ∈ text, isLineEnd c = false) → LINE_BUFFER_SIZE - 1 < text.length → isLineEnd ch = true →
      bytesOf es = text ++ [ch] →
        (Runs.run (rxStep ops tx) t es).world.host = t.world.host ∧
          callsSince t.world (Runs.run (rxStep ops tx) t es).world = [.line ErrorKind.invalidCommand.text]

/-! ## Payloads -/

theorem ByteStep.sends {upload : Option Upload} {skip skip' : Bool} {host host' : State} {ch : Byte} {calls : List Call}
    (h : Sound upload skip host) (hs : ByteStep skip host ch skip' host' calls) {connIndex : Nat} {data : List Byte}
    (hmem : .sendPayload connIndex data ∈ calls) :
    ∃ u, trackUpload upload skip host ch = some u ∧ connIndex = u.connIndex ∧ data = u.stored ∧
      data.length = u.length := by
  have hlines : ∀ lines : List Text, Call.sendPayload connIndex data ∉ lines.map .line := by simp
  cases hs with
  | sent hm hp heq hr =>
      obtain ⟨-, -, -, hupload⟩ := h.payload hm
      have htrack : trackUpload upload skip host ch =
          some ⟨host.payloadConnIndex, host.payloadExpected, host.payloadBuffer ++ [ch]⟩ := by
        rw [trackUpload, if_pos hm, if_neg hp, hupload]
        rfl
      cases hr with
      | alone _ => exact absurd hmem (hlines _)
      | after hc _ _ =>
          rcases List.mem_cons.mp hmem with hcall | hline
          · rw [← hcall] at hc
            cases hc
            exact ⟨_, htrack, rfl, rfl, by rw [List.length_append, List.length_singleton, heq]⟩
          · exact absurd hline (hlines _)
  | answered hm he ho hreq hb hr =>
      cases hr with
      | alone _ => exact absurd hmem (hlines _)
      | after hc _ _ =>
          rcases List.mem_cons.mp hmem with hcall | hline
          · rw [← hcall] at hc
            exact hc.elim
          · exact absurd hline (hlines _)
  | overlong | opened => simp at hmem
  | passed | stored | blank | full | char => cases hmem

/-! ## Lines that are too long -/

/-- The parser after the first bytes of a line. -/
def State.inLine (host : State) (text : Text) : State :=
  { host with
    lineBuffer := text.take (LINE_BUFFER_SIZE - 1)
    lineOverflow := decide (LINE_BUFFER_SIZE - 1 < text.length) }

@[simp] theorem State.inLine_payloadMode (host : State) (text : Text) :
    (host.inLine text).payloadMode = host.payloadMode := rfl

theorem State.inLine_nil {host : State} (hfresh : host = host.freshLine) : host.inLine [] = host := hfresh.symm

theorem State.inLine_push (host : State) {text : Text} (ch : Byte) (h : text.length < LINE_BUFFER_SIZE - 1) :
    host.inLine (text ++ [ch]) = { host.inLine text with lineBuffer := (host.inLine text).lineBuffer ++ [ch] } := by
  have hlen : (text ++ [ch]).length ≤ LINE_BUFFER_SIZE - 1 := by
    rw [List.length_append, List.length_singleton]
    exact h
  have htake : (text ++ [ch]).take (LINE_BUFFER_SIZE - 1) = text ++ [ch] := List.take_of_length_le hlen
  have htake' : text.take (LINE_BUFFER_SIZE - 1) = text := List.take_of_length_le (Nat.le_of_lt h)
  have hfits : ¬LINE_BUFFER_SIZE - 1 < (text ++ [ch]).length := Nat.not_lt.mpr hlen
  have hfits' : ¬LINE_BUFFER_SIZE - 1 < text.length := Nat.not_lt.mpr (Nat.le_of_lt h)
  simp only [inLine, htake, htake', decide_eq_false hfits, decide_eq_false hfits']

theorem State.inLine_drop (host : State) {text : Text} (ch : Byte) (h : LINE_BUFFER_SIZE - 1 ≤ text.length) :
    host.inLine (text ++ [ch]) = { host.inLine text with lineOverflow := true } := by
  have htake : (text ++ [ch]).take (LINE_BUFFER_SIZE - 1) = text.take (LINE_BUFFER_SIZE - 1) :=
    List.take_append_of_le_length h
  have hover : LINE_BUFFER_SIZE - 1 < (text ++ [ch]).length := by
    rw [List.length_append, List.length_singleton]
    omega
  simp only [inLine, htake, decide_eq_true hover]

section
variable {host host' : State} {skip skip' : Bool} {ch : Byte} {calls : List Call} {text : Text}

theorem State.inLine_length : (host.inLine text).lineBuffer.length = min (LINE_BUFFER_SIZE - 1) text.length :=
  List.length_take

theorem ByteStep.inLine (hm : host.payloadMode = false) (he : isLineEnd ch = false)
    (hs : ByteStep skip (host.inLine text) ch skip' host' calls) :
    host' = host.inLine (text ++ [ch]) ∧ calls = [] := by
  cases hs with
  | passed hm' | stored hm' | sent hm' => simp [hm] at hm'
  | overlong _ he' | blank _ he' | opened _ he' | answered _ he' => simp [he] at he'
  | full _ _ hl =>
      rw [State.inLine_length] at hl
      exact ⟨(State.inLine_drop host ch (Nat.le_trans hl (Nat.min_le_right _ _))).symm, rfl⟩
  | char _ _ hl =>
      rw [State.inLine_length] at hl
      have hroom : text.length < LINE_BUFFER_SIZE - 1 := by omega
      exact ⟨(State.inLine_push host ch hroom).symm, rfl⟩

/-- The end of a line that was too long. -/
theorem ByteStep.lineEnd (hm : host.payloadMode = false) (he : isLineEnd ch = true)
    (hlong : LINE_BUFFER_SIZE - 1 < text.length) (hs : ByteStep skip (host.inLine text) ch skip' host' calls) :
    host' = host.freshLine ∧ calls = [.line ErrorKind.invalidCommand.text] := by
  have hover : (host.inLine text).lineOverflow = true := decide_eq_true hlong
  cases hs with
  | passed hm' | stored hm' | sent hm' => simp [hm] at hm'
  | full _ he' | char _ he' => simp [he] at he'
  | blank _ _ ho | opened _ _ ho | answered _ _ ho => simp [hover] at ho
  | overlong => exact ⟨rfl, rfl⟩

end

/-- Events without a byte. -/
theorem run_quiet {es : List RxEvent} (hnone : bytesOf es = []) (t : Tracked σ) :
    (Runs.run (rxStep ops tx) t es).world = t.world := by
  induction es generalizing t with
  | nil => rfl
  | cons e es ih =>
      cases e with
      | call => exact ih hnone _
      | byte ch => cases hnone

/-- The rest of a line that is too long, `before` being in the buffer or dropped already. -/
theorem run_overlong {host : State} (hm : host.payloadMode = false) {ch : Byte} (he : isLineEnd ch = true)
    {es : List RxEvent} {before rest : Text} {t : Tracked σ} (hsound : t.Sound)
    (ht : t.world.host = host.inLine before) (hrest : ∀ c ∈ rest, isLineEnd c = false)
    (hlong : LINE_BUFFER_SIZE - 1 < (before ++ rest).length) (hbytes : bytesOf es = rest ++ [ch]) :
    (Runs.run (rxStep ops tx) t es).world.host = host.freshLine ∧
      (Runs.run (rxStep ops tx) t es).world.trace = .line ErrorKind.invalidCommand.text :: t.world.trace := by
  induction es generalizing t before rest with
  | nil => cases rest <;> cases hbytes
  | cons e es ih =>
      cases e with
      | call => exact ih (rxStep_sound ops tx hsound .call) ht hrest hlong hbytes
      | byte c =>
          obtain ⟨calls, hstep, htrace, -⟩ := rxByte_step ops tx hsound.flag c
          have hnext := rxStep_sound ops tx hsound (.byte c)
          rw [ht] at hstep
          cases rest with
          | nil =>
              obtain ⟨rfl, hnone⟩ := List.cons.inj hbytes
              rw [List.append_nil] at hlong
              obtain ⟨hhost, rfl⟩ := hstep.lineEnd hm he hlong
              rw [Runs.run_cons, run_quiet ops tx hnone]
              exact ⟨hhost, htrace⟩
          | cons c' rest =>
              obtain ⟨rfl, hbytes'⟩ := List.cons.inj hbytes
              obtain ⟨hhost, rfl⟩ := hstep.inLine hm (hrest _ List.mem_cons_self)
              have hlong' : LINE_BUFFER_SIZE - 1 < ((before ++ [c]) ++ rest).length := by simpa using hlong
              have htail : ∀ d ∈ rest, isLineEnd d = false := fun d hd => hrest d (List.mem_cons_of_mem _ hd)
              obtain ⟨hend, htraceEnd⟩ := ih hnext hhost htail hlong' hbytes'
              exact ⟨hend, htraceEnd.trans (congrArg _ htrace)⟩

/-- Whatever the bytes, however they are cut into calls and whatever the operations answer. -/
theorem framing_safe (ctx : σ) (es : List RxEvent) :
    FramingSafe ops tx (Runs.run (rxStep ops tx) (Tracked.start ctx) es) := by
  have hsound := run_sound ops tx (start_sound ctx) es
  constructor
  · exact hsound.line
  · intro hm
    obtain ⟨hpos, hle, hfits, -⟩ := hsound.payload hm
    exact ⟨hpos, hle, hfits⟩
  · intro ch connIndex data hmem
    obtain ⟨calls, hstep, htrace, -⟩ := rxByte_step ops tx hsound.flag ch
    have hcalls : callsSince _ (rxStep ops tx _ (.byte ch)).world = calls := callsSince_eq htrace
    rw [hcalls] at hmem
    exact hstep.sends hsound hmem
  · intro hm hfresh text ch es' htext hlong he hbytes
    obtain ⟨hhost, htrace⟩ := run_overlong ops tx hm he hsound (State.inLine_nil hfresh).symm htext hlong hbytes
    exact ⟨hhost.trans hfresh.symm, callsSince_eq htrace⟩

end BleAtHost.AtHost
