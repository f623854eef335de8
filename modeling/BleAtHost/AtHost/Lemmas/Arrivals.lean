import BleAtHost.AtHost.Lemmas.Reads
import BleAtHost.AtHost.Theorems

/-!
# Lines and payloads that arrive in several reads

Where a line is cut makes no difference to what the parser does with it, and where a payload is cut neither. Only
between the carriage return and the line feed of an `AT+SEND` no cut may stand.
-/

namespace BleAtHost.AtHost

variable {σ : Type} (ops : Ops σ) (tx : Tx σ)

/-- One call of `at_host_rx_bytes` for each read. -/
def rxReads (w : World σ) (reads : List (List Byte)) : World σ := reads.foldl (atHostRxBytes ops tx) w

theorem rxReads_append (w : World σ) (reads more : List (List Byte)) :
    rxReads ops tx w (reads ++ more) = rxReads ops tx (rxReads ops tx w reads) more := List.foldl_append

theorem rxReads_empty (w : World σ) {reads : List (List Byte)} (h : reads.flatten = []) : rxReads ops tx w reads = w := by
  induction reads with
  | nil => rfl
  | cons read reads ih =>
      obtain ⟨hread, hrest⟩ := List.append_eq_nil_iff.mp (List.flatten_cons.symm.trans h)
      have hfirst : atHostRxBytes ops tx w read = w := by
        rw [hread]
        rfl
      calc rxReads ops tx w (read :: reads)
          = rxReads ops tx (atHostRxBytes ops tx w read) reads := rfl
        _ = w := by rw [hfirst, ih hrest]

/-- Cuts where the flag is not set make no difference. -/
theorem rxReads_eq {w : World σ} {reads : List (List Byte)}
    (h : ∀ k, (rxLoop ops tx (false, w) (reads.take k).flatten).1 = true → (reads.drop k).flatten = []) :
    rxReads ops tx w reads = (rxLoop ops tx (false, w) reads.flatten).2 := by
  induction reads generalizing w with
  | nil => rfl
  | cons read reads ih =>
      have hstep : rxReads ops tx w (read :: reads) = rxReads ops tx (rxLoop ops tx (false, w) read).2 reads := rfl
      rw [hstep, List.flatten_cons, rxLoop_append]
      have hhere := h 1
      simp only [List.take_succ_cons, List.take_zero, List.flatten_cons, List.flatten_nil, List.append_nil,
        List.drop_succ_cons, List.drop_zero] at hhere
      rcases hr : rxLoop ops tx (false, w) read with ⟨skip, w'⟩
      rw [hr] at hhere
      cases skip with
      | true =>
          rw [hhere rfl, rxReads_empty ops tx w' (hhere rfl)]
          rfl
      | false =>
          refine ih fun k hk => h (k + 1) ?_
          rw [List.take_succ_cons, List.flatten_cons, rxLoop_append, hr]
          exact hk

/-- The flag is set nowhere in these bytes. -/
def FlagClear (w : World σ) (data : List Byte) : Prop := ∀ n, (rxLoop ops tx (false, w) (data.take n)).1 = false

variable {ops tx} in
theorem FlagClear.part {w : World σ} {data part : List Byte} (h : FlagClear ops tx w data) (hp : part <+: data) :
    (rxLoop ops tx (false, w) part).1 = false := by
  rw [List.prefix_iff_eq_take.mp hp]
  exact h part.length

theorem prefix_flatten_take (reads : List (List Byte)) (k : Nat) : (reads.take k).flatten <+: reads.flatten :=
  ⟨(reads.drop k).flatten, by rw [← List.flatten_append, List.take_append_drop]⟩

theorem rxReads_clear {w : World σ} {reads : List (List Byte)} (h : FlagClear ops tx w reads.flatten) :
    rxReads ops tx w reads = (rxLoop ops tx (false, w) reads.flatten).2 := by
  refine rxReads_eq ops tx fun k hk => ?_
  rw [h.part (prefix_flatten_take reads k)] at hk
  cases hk

variable {ops tx} in
/-- After the last of these reads the flag is not set. -/
theorem FlagClear.last {w : World σ} {front : List (List Byte)} {last : List Byte}
    (h : FlagClear ops tx w (front ++ [last]).flatten) : (rxLoop ops tx (false, rxReads ops tx w front) last).1 = false := by
  have hall : (front ++ [last]).flatten = front.flatten ++ last := by simp
  rw [hall] at h
  have hflag := h.part (List.prefix_append front.flatten last)
  have hfront : rxReads ops tx w front = (rxLoop ops tx (false, w) front.flatten).2 :=
    rxReads_clear ops tx fun n => h.part ((List.take_prefix n _).trans (List.prefix_append front.flatten last))
  have hlast := h.part List.prefix_rfl
  rcases hr : rxLoop ops tx (false, w) front.flatten with ⟨skip, w'⟩
  rw [hr] at hflag hfront
  rw [rxLoop_append, hr] at hlast
  cases hflag
  rw [hfront]
  exact hlast

/-- A read may as well be cut where the flag is not set. -/
theorem rxReads_join {w : World σ} {front more : List (List Byte)} {last next : List Byte}
    (h : (rxLoop ops tx (false, rxReads ops tx w front) last).1 = false) :
    rxReads ops tx w (front ++ (last ++ next) :: more) = rxReads ops tx (rxReads ops tx w (front ++ [last])) (next :: more) := by
  have hjoined : rxReads ops tx (rxReads ops tx w front) ((last ++ next) :: more) =
      rxReads ops tx (rxLoop ops tx (false, rxReads ops tx w front) (last ++ next)).2 more := rfl
  have hcut : rxReads ops tx (rxReads ops tx w front) [last] = (rxLoop ops tx (false, rxReads ops tx w front) last).2 := rfl
  rw [rxReads_append, rxReads_append, hjoined, hcut, rxLoop_append]
  rcases hr : rxLoop ops tx (false, rxReads ops tx w front) last with ⟨skip, w'⟩
  rw [hr] at h
  cases h
  rfl

/-- Calls of operations, as against output. -/
def Call.isOperation : Call → Bool
  | .line _ | .raw _ => false
  | _ => true

/-- The operations among the calls, in order. -/
def operations (calls : List Call) : List Call := calls.filter Call.isOperation

theorem operations_append (calls calls' : List Call) :
    operations (calls ++ calls') = operations calls ++ operations calls' := List.filter_append calls calls'

theorem operations_lines (lines : List Text) : operations (lines.map .line) = [] := by
  rw [operations, List.filter_eq_nil_iff]
  intro call hc
  obtain ⟨text, -, rfl⟩ := List.mem_map.mp hc
  simp [Call.isOperation]

/-- A reply calls no other operation. -/
theorem Reply.operations {good : Call → Prop} {calls : List Call} (h : Reply good calls) {call : Call} (hc : call ∈ calls)
    (ho : call.isOperation = true) : AtHost.operations calls = [call] := by
  have hnot : ∀ {lines : List Text}, call ∉ lines.map Call.line := by
    intro lines hmem
    obtain ⟨text, -, rfl⟩ := List.mem_map.mp hmem
    cases ho
  cases h with
  | alone h => exact absurd hc hnot
  | after hgood hs h =>
      rename_i first lines
      rcases List.mem_cons.mp hc with rfl | hmem
      · rw [AtHost.operations, List.filter_cons_of_pos ho]
        exact congrArg _ (operations_lines lines)
      · exact absurd hmem hnot

/-- A reply that calls an operation calls it first. -/
theorem Reply.first {good : Call → Prop} {calls : List Call} (h : Reply good calls) {call : Call}
    (ho : AtHost.operations calls = [call]) : ∃ lines : List Text, calls = call :: lines.map .line := by
  cases h with
  | alone h =>
      rw [operations_lines] at ho
      cases ho
  | after hgood hs h =>
      rename_i first lines
      have hfirst : first = call := by
        by_cases hf : first.isOperation = true
        · rw [AtHost.operations, List.filter_cons_of_pos hf] at ho
          exact (List.cons.inj ho).1
        · rw [AtHost.operations, List.filter_cons_of_neg hf] at ho
          exact absurd ((operations_lines lines).symm.trans ho) (by simp)
      exact ⟨lines, by rw [hfirst]⟩

/-! ## A line -/

/-- The parser waits for a line of which nothing has arrived. -/
structure State.AtLineStart (host : State) : Prop where
  payloadMode : host.payloadMode = false
  lineBuffer : host.lineBuffer = []
  lineOverflow : host.lineOverflow = false

/-- The world with other bytes in the line buffer. -/
def World.typing (w : World σ) (text : Text) : World σ := { w with host := { w.host with lineBuffer := text } }

/-- A text that a line can hold. -/
structure Typed (text : Text) : Prop where
  fits : text.length < LINE_BUFFER_SIZE
  printed : ∀ ch ∈ text, isLineEnd ch = false ∧ ch ≠ 0

variable {w : World σ}

theorem rxLoop_typed (hm : w.host.payloadMode = false) {text : Text} (he : ∀ ch ∈ text, isLineEnd ch = false)
    (hf : w.host.lineBuffer.length + text.length < LINE_BUFFER_SIZE) :
    rxLoop ops tx (false, w) text = (false, w.typing (w.host.lineBuffer ++ text)) := by
  induction text generalizing w with
  | nil => simp [rxLoop, World.typing]
  | cons ch text ih =>
      rw [List.length_cons] at hf
      have hch := he ch List.mem_cons_self
      have hroom : ¬LINE_BUFFER_SIZE - 1 ≤ w.host.lineBuffer.length := by omega
      have hbyte : rxByte ops tx (false, w) ch = (false, w.typing (w.host.lineBuffer ++ [ch])) := by
        simp [rxByte, hm, hch, hroom, World.typing]
      have hrest := ih (w := w.typing (w.host.lineBuffer ++ [ch])) hm (fun ch' h => he ch' (List.mem_cons_of_mem _ h))
        (by simp only [World.typing, List.length_append, List.length_singleton]; omega)
      calc rxLoop ops tx (false, w) (ch :: text)
          = rxLoop ops tx (false, w.typing (w.host.lineBuffer ++ [ch])) text := by rw [← hbyte]; rfl
        _ = (false, w.typing (w.host.lineBuffer ++ ch :: text)) := by
            rw [hrest]
            simp [World.typing]

theorem cString_typed {text : Text} (h : Typed text) : cString text = text :=
  List.takeWhile_eq_self_iff.mpr fun ch hc => by simpa using (h.printed ch hc).2

/-- The carriage return of a line that has arrived from its start on. -/
theorem rxLoop_command (hw : w.host.AtLineStart) {text : Text} (h : Typed text) (hne : text ≠ []) :
    rxLoop ops tx (false, w) (text ++ [13]) =
      ((processCommand ops tx (w.typing text) text).1 == .enterPayload,
        { (processCommand ops tx (w.typing text) text).2 with
          host := (processCommand ops tx (w.typing text) text).2.host.freshLine }) := by
  have hfits := h.fits
  have htext := rxLoop_typed ops tx hw.payloadMode (fun ch hc => (h.printed ch hc).1)
    (by rw [hw.lineBuffer, List.length_nil]; omega)
  rw [hw.lineBuffer, List.nil_append] at htext
  have hend : rxByte ops tx (false, w.typing text) 13 = endOfLine ops tx false (w.typing text) :=
    rxByte_lineEnd ops tx hw.payloadMode rfl
  have hrun := endOfLine_command ops tx (w := w.typing text) hw.lineOverflow hne
  have hline : cString (w.typing text).host.lineBuffer = text := cString_typed h
  rw [hline] at hrun
  rw [rxLoop_append, htext]
  exact hend.trans hrun

/-- The line feed behind a command ends an empty line. -/
theorem lineFeed_blank (hw : w.host.AtLineStart) : rxLoop ops tx (false, w) [10] = (false, w) := by
  have hend : rxLoop ops tx (false, w) [10] = endOfLine ops tx false w := rxByte_lineEnd ops tx hw.payloadMode rfl
  have hfresh : w.host.freshLine = w.host := by
    obtain ⟨-, hbuffer, hoverflow⟩ := hw
    rw [State.freshLine, ← hbuffer, ← hoverflow]
  rw [hend, endOfLine_empty ops tx hw.lineOverflow hw.lineBuffer, hfresh]

/-- The line feed behind an `AT+SEND` is passed over. -/
theorem lineFeed_passed (hm : w.host.payloadMode = true) (hb : w.host.payloadBuffer = []) :
    rxLoop ops tx (true, w) [10] = (true, w) := rxByte_skipped ops tx hm hb rfl

theorem line_end (text : Text) : text ++ [13, 10] = (text ++ [13]) ++ [10] := by simp

/-- Part of a line with its end: part of the text, or all of it with part of the end. -/
theorem take_line (text : Text) (n : Nat) :
    (∃ m, (text ++ [13, 10]).take n = text.take m) ∨ (text ++ [13, 10]).take n = text ++ [13] ∨
      (text ++ [13, 10]).take n = text ++ [13, 10] := by
  rcases Nat.lt_or_ge n (text.length + 1) with hshort | hlong
  · exact .inl ⟨n, List.take_append_of_le_length (by omega)⟩
  · rcases Nat.lt_or_ge n (text.length + 2) with hone | htwo
    · have hcount : n = text.length + 1 := by omega
      refine .inr (.inl ?_)
      rw [hcount, List.take_length_add_append]
      rfl
    · exact .inr (.inr (List.take_of_length_le (by simpa using htwo)))

/-- Part of the bytes of a line with its end, in reads. -/
theorem take_of_line {reads : List (List Byte)} {text : Text} (h : reads.flatten = text ++ [13, 10]) (k : Nat) :
    (∃ n, (reads.take k).flatten = text.take n) ∨ (reads.take k).flatten = text ++ [13] ∨
      (reads.drop k).flatten = [] := by
  have hsplit : (reads.take k).flatten ++ (reads.drop k).flatten = text ++ [13, 10] := by
    rw [← List.flatten_append, List.take_append_drop, h]
  have htake : (reads.take k).flatten = (text ++ [13, 10]).take (reads.take k).flatten.length := by
    rw [← hsplit, List.take_left]
  rcases take_line text (reads.take k).flatten.length with ⟨n, hn⟩ | hn | hn
  · exact .inl ⟨n, htake.trans hn⟩
  · exact .inr (.inl (htake.trans hn))
  · rw [htake.trans hn] at hsplit
    exact .inr (.inr (List.append_right_eq_self.mp hsplit))

/-- The flag is not set while the text of a line arrives. -/
theorem flag_in_text (hw : w.host.AtLineStart) {text : Text} (h : Typed text) (n : Nat) :
    (rxLoop ops tx (false, w) (text.take n)).1 = false := by
  have hfits := h.fits
  have hle : (text.take n).length ≤ text.length := by
    rw [List.length_take]
    exact min_le_right _ _
  rw [rxLoop_typed ops tx hw.payloadMode (fun ch hc => (h.printed ch (List.mem_of_mem_take hc)).1)
    (by rw [hw.lineBuffer, List.length_nil]; omega)]

/-- A command that opens no payload is processed at its carriage return. -/
theorem rxLoop_answered (hw : w.host.AtLineStart) {text : Text} (h : Typed text) (hne : workingLine text ≠ [])
    (hreq : sendRequest text = none) :
    rxLoop ops tx (false, w) (text ++ [13]) =
      (false, { (processCommand ops tx (w.typing text) text).2 with host := w.host.freshLine }) := by
  have htext : text ≠ [] := by
    rintro rfl
    exact hne (by decide)
  obtain ⟨hnone, calls, hmade, -⟩ := processCommand_answered ops tx (w.typing text) hreq hne
  have hfresh : (processCommand ops tx (w.typing text) text).2.host.freshLine = w.host.freshLine := by
    rw [hmade.host]
    rfl
  rw [rxLoop_command ops tx hw h htext, hnone, hfresh]
  rfl

theorem rxLoop_answered_whole (hw : w.host.AtLineStart) {text : Text} (h : Typed text) (hne : workingLine text ≠ [])
    (hreq : sendRequest text = none) :
    rxLoop ops tx (false, w) (text ++ [13, 10]) =
      (false, { (processCommand ops tx (w.typing text) text).2 with host := w.host.freshLine }) := by
  have hstart : ({ (processCommand ops tx (w.typing text) text).2 with host := w.host.freshLine } : World σ).host.AtLineStart :=
    ⟨hw.payloadMode, rfl, rfl⟩
  rw [line_end, rxLoop_append, rxLoop_answered ops tx hw h hne hreq]
  exact lineFeed_blank ops tx hstart

theorem command_flagClear (hw : w.host.AtLineStart) {text : Text} (h : Typed text) (hne : workingLine text ≠ [])
    (hreq : sendRequest text = none) : FlagClear ops tx w (text ++ [13, 10]) := by
  intro n
  rcases take_line text n with ⟨m, hm⟩ | hm | hm
  · rw [hm, flag_in_text ops tx hw h m]
  · rw [hm, rxLoop_answered ops tx hw h hne hreq]
  · rw [hm, rxLoop_answered_whole ops tx hw h hne hreq]

/-- A command that opens no payload is answered, and the next line may follow. -/
theorem command_arrives (hw : w.host.AtLineStart) {text : Text} (h : Typed text) (hne : workingLine text ≠ [])
    (hreq : sendRequest text = none) {reads : List (List Byte)} (hr : reads.flatten = text ++ [13, 10]) :
    ∃ calls, Reply (Asked (workingLine text)) calls ∧ calls = callsSince (w.typing text) (processCommand ops tx (w.typing text) text).2 ∧
      (rxReads ops tx w reads).trace = calls.reverse ++ w.trace ∧ (rxReads ops tx w reads).host.AtLineStart ∧
        (rxReads ops tx w reads).ctx = effects ops tx calls w.ctx := by
  obtain ⟨-, calls, hmade, hreply⟩ := processCommand_answered ops tx (w.typing text) hreq hne
  have hclear : FlagClear ops tx w reads.flatten := hr ▸ command_flagClear ops tx hw h hne hreq
  rw [rxReads_clear ops tx hclear, hr, rxLoop_answered_whole ops tx hw h hne hreq]
  exact ⟨calls, hreply, hmade.callsSince.symm, hmade.trace, ⟨hw.payloadMode, rfl, rfl⟩, hmade.ctx⟩

/-- An `AT+SEND` opens its payload, unless a cut stands before its line feed. -/
theorem send_arrives (hw : w.host.AtLineStart) {text : Text} (h : Typed text) {connIndex length : Nat}
    (hreq : sendRequest text = some (connIndex, length)) {reads : List (List Byte)} (hr : reads.flatten = text ++ [13, 10])
    (hcut : ∀ k, (reads.take k).flatten ≠ text ++ [13]) :
    (rxReads ops tx w reads).trace = .raw (ascii ">") :: w.trace ∧
      (rxReads ops tx w reads).host = (w.host.opened connIndex length).freshLine := by
  have htext : text ≠ [] := by
    rintro rfl
    cases hreq
  have hcommand := rxLoop_command ops tx hw h htext
  rw [processCommand_some ops tx _ hreq] at hcommand
  have hclear : ∀ k, (rxLoop ops tx (false, w) (reads.take k).flatten).1 = true → (reads.drop k).flatten = [] := by
    intro k hk
    rcases take_of_line hr k with ⟨n, hn⟩ | hn | hnil
    · rw [hn, flag_in_text ops tx hw h n] at hk
      cases hk
    · exact absurd hn (hcut k)
    · exact hnil
  have hall : rxReads ops tx w reads =
      { txRaw tx w (ascii ">") with host := (w.host.opened connIndex length).freshLine } := by
    rw [rxReads_eq ops tx hclear, hr, line_end, rxLoop_append, hcommand]
    exact congrArg Prod.snd (lineFeed_passed ops tx rfl rfl)
  rw [hall]
  exact ⟨rfl, rfl⟩

/-! ## A payload -/

theorem mem_callsSince {w w' : World σ} {call : Call} (h : call :: w.trace <:+ w'.trace) : call ∈ callsSince w w' := by
  obtain ⟨later, hl⟩ := h
  have hall : w'.trace = (call :: later.reverse).reverse ++ w.trace := by
    rw [← hl]
    simp
  rw [callsSince_eq hall]
  exact List.mem_cons_self

/-- The last byte of a payload sends it. -/
theorem rxLoop_payload (hm : w.host.payloadMode = true) (hb : w.host.payloadBuffer = []) {data : List Byte}
    (hne : data ≠ []) (hlen : data.length = w.host.payloadExpected) :
    rxLoop ops tx (false, w) data = (false, processSendPayload ops tx (w.buffering data)) := by
  have hsplit : data.dropLast ++ [data.getLast hne] = data := List.dropLast_concat_getLast hne
  have hpos : 0 < data.length := List.length_pos_iff.mpr hne
  have hfront := rxLoop_short ops tx hm hb data.dropLast (by rw [List.length_dropLast]; omega)
  have hlast := rxByte_last ops tx (w := w.buffering data.dropLast) hm (data.getLast hne)
    (by simp only [World.buffering, List.length_dropLast]; omega)
  have hall : (w.buffering data.dropLast).buffering (data.dropLast ++ [data.getLast hne]) = w.buffering data := by
    rw [hsplit]
    rfl
  calc rxLoop ops tx (false, w) data
      = rxLoop ops tx (rxLoop ops tx (false, w) data.dropLast) [data.getLast hne] := by
        rw [← rxLoop_append, hsplit]
    _ = rxByte ops tx (false, w.buffering data.dropLast) (data.getLast hne) := by
        rw [hfront]
        rfl
    _ = (false, processSendPayload ops tx (w.buffering data)) := by
        rw [hlast]
        exact congrArg (fun w' => (false, processSendPayload ops tx w')) hall

theorem payload_flagClear (hm : w.host.payloadMode = true) (hb : w.host.payloadBuffer = []) {data : List Byte}
    (hne : data ≠ []) (hlen : data.length = w.host.payloadExpected) : FlagClear ops tx w data := by
  intro n
  rcases Nat.lt_or_ge n data.length with hshort | hlong
  · rw [rxLoop_short ops tx hm hb _ (by rw [List.length_take]; omega)]
  · rw [List.take_of_length_le hlong, rxLoop_payload ops tx hm hb hne hlen]

/-- A payload is sent as it arrives, wherever it is cut. -/
theorem payload_arrives (hm : w.host.payloadMode = true) (hb : w.host.payloadBuffer = []) {data : List Byte}
    (hne : data ≠ []) (hlen : data.length = w.host.payloadExpected) {reads : List (List Byte)} (hr : reads.flatten = data) :
    ∃ calls, Reply (· = .sendPayload w.host.payloadConnIndex data) calls ∧
      .sendPayload w.host.payloadConnIndex data ∈ calls ∧ (rxReads ops tx w reads).trace = calls.reverse ++ w.trace ∧
      (rxReads ops tx w reads).host = { w.host with payloadMode := false, payloadExpected := 0, payloadBuffer := [] } := by
  have hclear : FlagClear ops tx w reads.flatten := hr ▸ payload_flagClear ops tx hm hb hne hlen
  have hall : rxReads ops tx w reads = processSendPayload ops tx (w.buffering data) := by
    rw [rxReads_clear ops tx hclear, hr, rxLoop_payload ops tx hm hb hne hlen]
  have htake : (w.buffering data).host.payloadBuffer.take (w.buffering data).host.payloadExpected = data :=
    List.take_of_length_le (Nat.le_of_eq hlen)
  obtain ⟨calls, hreply, hhost, htrace, -⟩ := processSendPayload_replies ops tx (w.buffering data) htake
  have hsuffix := processSendPayload_trace ops tx (w.buffering data)
  rw [htake] at hsuffix
  have hmem := mem_callsSince hsuffix
  rw [callsSince_eq htrace] at hmem
  rw [hall, hhost]
  exact ⟨calls, hreply, hmem, htrace, rfl⟩

end BleAtHost.AtHost
