import BleAtHost.Main.Lemmas.Refinement
import BleAtHost.Main.Lines

/-!
# Control lines are atomic

Every line goes into the ring with two puts. The bytes that were accepted by the transmitter followed by those
that wait are the stream, and only a put makes it longer.
-/

namespace BleAtHost.Main

variable {s : App}

/-- Nothing is claimed of the control queue between two drains. -/
structure StreamKept (s s' : App) : Prop where
  claimed : s'.ctrlTxRing.claimed = 0
  stream : ctrlStream s' = ctrlStream s

theorem StreamKept.refl (h : s.ctrlTxRing.claimed = 0) : StreamKept s s := ⟨h, rfl⟩

theorem StreamKept.trans {s' s'' : App} (h : StreamKept s s') (h' : StreamKept s' s'') : StreamKept s s'' :=
  ⟨h'.claimed, h'.stream.trans h.stream⟩

/-- No put and no drain of the control queue. -/
theorem StreamKept.of_same {s' : App} (h : s.ctrlTxRing.claimed = 0) (hr : s'.ctrlTxRing = s.ctrlTxRing)
    (hl : collect Obs.ctrlFilled s'.log = collect Obs.ctrlFilled s.log) : StreamKept s s' :=
  ⟨hr ▸ h, by rw [ctrlStream, hl, hr, ctrlStream]⟩

theorem streamKept_refresh (h : s.ctrlTxRing.claimed = 0) : StreamKept s (refreshUartRxFlowControl s) := by
  refine StreamKept.of_same h ?_ ?_
  all_goals
    unfold refreshUartRxFlowControl
    repeat' split
    all_goals rfl

theorem streamKept_activate (h : s.ctrlTxRing.claimed = 0) (now : Int) :
    StreamKept s (activatePendingDataModeIfReady s now) := by
  unfold activatePendingDataModeIfReady
  split
  · exact StreamKept.refl h
  · split
    · exact StreamKept.refl h
    · refine StreamKept.trans ?_ (streamKept_refresh ?_)
      · exact StreamKept.of_same h rfl (by simp [Obs.ctrlFilled])
      · exact h

theorem streamKept_serviceUartTx (h : s.ctrlTxRing.claimed = 0) (accept now : Int) :
    StreamKept s (serviceUartTx s accept now) := by
  have hact := streamKept_activate h now
  simp only [serviceUartTx]
  generalize activatePendingDataModeIfReady s now = t at hact ⊢
  refine hact.trans ?_
  split
  · have hfill : StreamKept t
        { t with
          bleToHostRing := (fillFrom t.bleToHostRing accept).2.2
          log := .fill false (fillFrom t.bleToHostRing accept).2.1 :: t.log } :=
      StreamKept.of_same hact.claimed rfl (by simp [Obs.ctrlFilled])
    split
    · exact hfill.trans (StreamKept.of_same hfill.claimed rfl rfl)
    · exact hfill.trans (streamKept_activate hfill.claimed now)
  · have htakes := fillFrom_takes t.ctrlTxRing accept hact.claimed
    have hfill : StreamKept t
        { t with
          ctrlTxRing := (fillFrom t.ctrlTxRing accept).2.2
          log := .fill true (fillFrom t.ctrlTxRing accept).2.1 :: t.log } := by
      refine ⟨htakes.2, ?_⟩
      simp only [ctrlStream, collect, Obs.ctrlFilled, List.append_assoc, htakes.1]
    split
    · exact hfill.trans (StreamKept.of_same hfill.claimed rfl rfl)
    · exact hfill.trans (streamKept_activate hfill.claimed now)

/-! ## Lines -/

theorem queueCtrlBytes_ctrlFilled (data : List Byte) :
    collect Obs.ctrlFilled (queueCtrlBytes s data).log = collect Obs.ctrlFilled s.log := by
  unfold queueCtrlBytes kickUartTx
  repeat' split
  all_goals simp [Obs.ctrlFilled]

/-- What the two puts of a line store. -/
theorem ctrlStream_queueCtrlLine (line : Text) :
    ctrlStream (queueCtrlLine s line) =
      ctrlStream s ++ line.take s.ctrlTxRing.spaceGet ++ newline.take (s.ctrlTxRing.spaceGet - line.length) := by
  have hring : (queueCtrlLine s line).ctrlTxRing = ((s.ctrlTxRing.put line).2.put newline).2 := by
    change (queueCtrlBytes (queueCtrlBytes s line) newline).ctrlTxRing = _
    rw [queueCtrlBytes_ctrlTxRing, queueCtrlBytes_ctrlTxRing]
  have hlog : collect Obs.ctrlFilled (queueCtrlLine s line).log = collect Obs.ctrlFilled s.log := by
    change collect Obs.ctrlFilled (queueCtrlBytes (queueCtrlBytes s line) newline).log ++ [] = _
    rw [List.append_nil, queueCtrlBytes_ctrlFilled, queueCtrlBytes_ctrlFilled]
  rw [ctrlStream, hring, hlog, RingBuf.put_data, RingBuf.put_data, RingBuf.put_spaceGet, ctrlStream]
  simp only [List.append_assoc]

/-- A line is added to the stream as a whole, or nothing is. -/
theorem lineStep_stream (h : s.ctrlTxRing.claimed = 0) {e : LineEvent} (he : e.AllOrNothing s) :
    (lineStep s e).ctrlTxRing.claimed = 0 ∧
      ∃ lines, lines.Sublist (queuedLines [e]) ∧ ctrlStream (lineStep s e) = ctrlStream s ++ Lines.join 13 10 lines := by
  cases e with
  | queue line =>
      refine ⟨?_, ?_⟩
      · change (queueCtrlBytes (queueCtrlBytes s line) newline).ctrlTxRing.claimed = 0
        rw [queueCtrlBytes_ctrlTxRing, queueCtrlBytes_ctrlTxRing]
        exact h
      · simp only [lineStep, ctrlStream_queueCtrlLine]
        rcases he with hroom | hfull
        · refine ⟨[line], List.Sublist.refl _, ?_⟩
          rw [List.take_of_length_le (by omega), List.take_of_length_le (by omega)]
          simp [Lines.join, newline]
        · refine ⟨[], List.nil_sublist _, ?_⟩
          simp [hfull, Lines.join]
  | drain accept now =>
      have hkept : StreamKept s (lineStep s (.drain accept now)) := by
        simp only [lineStep]
        split
        · exact streamKept_serviceUartTx h accept now
        · exact StreamKept.refl h
      exact ⟨hkept.claimed, [], List.nil_sublist _, by simp [hkept.stream, Lines.join]⟩
  | lineState dtr =>
      have hkept : StreamKept s (lineStep s (.lineState dtr)) := by
        refine StreamKept.of_same h ?_ ?_
        all_goals cases dtr <;> rfl
      exact ⟨hkept.claimed, [], List.nil_sublist _, by simp [hkept.stream, Lines.join]⟩

theorem run_stream (h : s.ctrlTxRing.claimed = 0) {es : List LineEvent}
    (he : Runs.Along (fun s e => e.AllOrNothing s) lineStep s es) :
    ∃ lines, lines.Sublist (queuedLines es) ∧
      ctrlStream (Runs.run lineStep s es) = ctrlStream s ++ Lines.join 13 10 lines := by
  induction es generalizing s with
  | nil => exact ⟨[], List.Sublist.refl _, by simp [Lines.join]⟩
  | cons e es ih =>
      obtain ⟨hc, first, hfirst, hs⟩ := lineStep_stream h he.1
      obtain ⟨rest, hrest, hr⟩ := ih hc he.2
      have hqueued : queuedLines (e :: es) = queuedLines [e] ++ queuedLines es := by
        cases e with
        | _ => rfl
      refine ⟨first ++ rest, ?_, ?_⟩
      · rw [hqueued]
        exact hfirst.append hrest
      · rw [Runs.run_cons, hr, hs]
        simp [Lines.join]

/-- The stream is cut into queued lines as long as every line finds room for all of it or for none of it. -/
theorem control_lines_atomic (s : App) (es : List LineEvent) (hl : ∀ line ∈ queuedLines es, 13 ∉ line ∧ 10 ∉ line)
    (he : Runs.Along (fun s e => e.AllOrNothing s) lineStep (linesStart s) es) :
    AtomicLines (queuedLines es) (ctrlStream (Runs.run lineStep (linesStart s) es)) := by
  obtain ⟨lines, hsub, hstream⟩ := run_stream (s := linesStart s) rfl he
  have hcut : Lines.cut 13 10 (Lines.join 13 10 lines) = (lines, []) :=
    Lines.cut_join fun line hm => (hl line (hsub.subset hm)).1
  have hempty : ctrlStream (linesStart s) = [] := rfl
  rw [hstream, hempty, List.nil_append, AtomicLines, hcut]
  exact ⟨rfl, hsub⟩

theorem control_lines_atomic_two :
    AtomicLines [ascii "+OK", ascii "+IND=SCED"]
      (ctrlStream (Runs.run lineStep (linesStart (boot sampleConfig 0 true).app)
        [.queue (ascii "+OK"), .drain 2 1000, .queue (ascii "+IND=SCED")])) := by
  have hplain : ∀ line ∈ [ascii "+OK", ascii "+IND=SCED"], 13 ∉ line ∧ 10 ∉ line := by decide
  refine control_lines_atomic (boot sampleConfig 0 true).app
    [.queue (ascii "+OK"), .drain 2 1000, .queue (ascii "+IND=SCED")] hplain ?_
  exact ⟨Or.inl (by decide), trivial, Or.inl (by decide), trivial⟩

/-- Eight lines of 253 characters leave room for eight bytes; the next line loses its end and its terminator to
them, and the transmitter makes room before the line after that. -/
def crowded : List LineEvent :=
  List.replicate 8 (.queue (List.replicate 253 46)) ++
    [.queue (ascii "+IND=BLMD,0"), .lineState true, .drain 128 1000, .queue (ascii "+OK")]

theorem crowded_queue_joins_lines :
    (∀ line ∈ queuedLines crowded, 13 ∉ line ∧ 10 ∉ line) ∧
      (Lines.cut 13 10 (ctrlStream (Runs.run lineStep (linesStart (boot sampleConfig 0 false).app) crowded))).1 =
        List.replicate 8 (List.replicate 253 46) ++ [ascii "+IND=BLM+OK"] ∧
      ¬AtomicLines (queuedLines crowded)
        (ctrlStream (Runs.run lineStep (linesStart (boot sampleConfig 0 false).app) crowded)) := by
  obtain ⟨hplain, hcut, hforeign⟩ : (∀ line ∈ queuedLines crowded, 13 ∉ line ∧ 10 ∉ line) ∧
      (Lines.cut 13 10 (ctrlStream (Runs.run lineStep (linesStart (boot sampleConfig 0 false).app) crowded))).1 =
        List.replicate 8 (List.replicate 253 46) ++ [ascii "+IND=BLM+OK"] ∧
      ascii "+IND=BLM+OK" ∉ queuedLines crowded := by decide +kernel
  refine ⟨hplain, hcut, fun h => ?_⟩
  have hsub := h.2
  rw [hcut] at hsub
  exact hforeign (hsub.subset (List.mem_append_right _ List.mem_cons_self))

end BleAtHost.Main
