import BleAtHost.AtHost.Theorems.Grammar
import BleAtHost.Main.Theorems.Advertising
import BleAtHost.Main.Theorems.ScanCache

/-!
# The filter of a scan

The filter text and the advertised name are both cut to the room of their buffers, so a scan looks for no more than the
first 31 bytes of its filter.
-/

namespace BleAtHost.Main

open AtHost

variable {env : Env} {s : App}

theorem matchesScanFilter_iff {name : Text} : matchesScanFilter s name = true ↔ s.scanFilterName <+: name := by
  unfold matchesScanFilter
  split
  · rename_i he
    simp [he]
  · split
    · rename_i hlt
      refine iff_of_false (by simp) fun hp => ?_
      have := hp.length_le
      omega
    · rw [beq_iff_eq, List.prefix_iff_eq_take, eq_comm]

/-! ## The command -/

/-- A command that starts a scan; `filter` is the text between the comma and the end of the line. -/
structure ScanCommand (env : Env) (f : Firmware) (filter : Text) where
  line : CommandLine
  starts : startsWithIgnoreCase line.trimmed (ascii "AT+STARTSCAN=") = true
  duration : Text
  fields : line.fields = [duration, filter]
  /-- A C string. -/
  text : 0 ∉ filter
  idle : f.app.appState ≠ .scanning
  accepted : (processCommand (atOps env) atTx f.world line.text).2.ctx.appState = .scanning

/-- The firmware after the command. -/
def ScanCommand.after {f : Firmware} {filter : Text} (c : ScanCommand env f filter) : Firmware :=
  let w := (processCommand (atOps env) atTx f.world c.line.text).2
  ⟨w.host, w.ctx, w.trace⟩

theorem queueCtrlLine_appState (s : App) (line : Text) : (queueCtrlLine s line).appState = s.appState := by
  obtain ⟨ring, irq, new, _, he⟩ := queueCtrlLine_eq s line
  rw [he]

theorem queueCtrlLine_filter (s : App) (line : Text) : (queueCtrlLine s line).scanFilterName = s.scanFilterName := by
  obtain ⟨ring, irq, new, _, he⟩ := queueCtrlLine_eq s line
  rw [he]

theorem respond_ctx (w : World App) (err : Int) : ∃ text, (respond atTx w err).ctx = queueCtrlLine w.ctx text := by
  unfold respond
  split
  · exact ⟨_, rfl⟩
  · exact ⟨_, rfl⟩

theorem opStartScan_filter {durationS : Nat} {filterName : Option Text} (hm : s.appState ≠ .scanning)
    (h : (opStartScan env s durationS filterName).2.appState = .scanning) :
    (opStartScan env s durationS filterName).2.scanFilterName =
      snprintk BLE_HOST_SCAN_FILTER_MAX_LEN (filterName.getD []) := by
  unfold opStartScan at h ⊢
  split
  · rename_i hc
    rw [if_pos hc] at h
    exact absurd h hm
  · rename_i hc
    rw [if_neg hc] at h
    split
    · rename_i hb
      rw [if_pos hb] at h
      exact absurd h hm
    · dsimp only
      split
      · rfl
      · rfl

theorem splitArgs_filter {payload duration filter : Text} (h : payload.splitOn 44 = [duration, filter]) :
    ∃ rest, splitArgs MAX_ARGS payload = duration :: rest ∧ (filterOf rest).getD [] = filter := by
  rw [splitArgs_eq, h]
  cases filter with
  | nil =>
      have hlast : Fields.dropEmptyLast [duration, []] = [duration] := Fields.dropEmptyLast_concat [duration]
      rw [hlast]
      exact ⟨[], rfl, rfl⟩
  | cons ch filter => exact ⟨[ch :: filter], by cases duration <;> rfl, rfl⟩

theorem ScanCommand.after_filter {f : Firmware} {filter : Text} (c : ScanCommand env f filter) :
    c.after.app.scanFilterName = snprintk BLE_HOST_SCAN_FILTER_MAX_LEN filter := by
  have hs : startsWithIgnoreCase (workingLine c.line.text) (ascii "AT+STARTSCAN=") = true := by
    rw [c.line.workingLine_eq]
    exact c.starts
  have hpayload : (workingLine c.line.text).drop (ascii "AT+STARTSCAN=").length = c.line.argument := by
    rw [c.line.workingLine_eq]
    exact drop_length (by decide) c.starts
  obtain ⟨rest, hargs, hfilter⟩ := splitArgs_filter c.fields
  have haccepted := c.accepted
  have hidle : f.world.ctx.appState ≠ .scanning := c.idle
  simp only [ScanCommand.after]
  rw [processCommand_startScan (atOps env) atTx f.world hs, hpayload] at haccepted ⊢
  simp only [processStartScan, hargs] at haccepted ⊢
  have hrefused : (invalidParameters atTx f.world).ctx.appState ≠ .scanning := by
    change (queueCtrlLine f.world.ctx _).appState ≠ .scanning
    rw [queueCtrlLine_appState]
    exact hidle
  split at haccepted
  · exact absurd haccepted hrefused
  · exact absurd haccepted hrefused
  · rename_i durationS _ _
    change (respond atTx (f.world.called (.startScan durationS (filterOf rest))
      (opStartScan env f.app durationS (filterOf rest))).2 _).ctx.appState = .scanning at haccepted
    change (respond atTx (f.world.called (.startScan durationS (filterOf rest))
      (opStartScan env f.app durationS (filterOf rest))).2 _).ctx.scanFilterName = _
    obtain ⟨text, hctx⟩ := respond_ctx (f.world.called (.startScan durationS (filterOf rest))
      (opStartScan env f.app durationS (filterOf rest))).2 (opStartScan env f.app durationS (filterOf rest)).1
    have hstarted : (opStartScan env f.app durationS (filterOf rest)).2.appState = .scanning :=
      (queueCtrlLine_appState _ text).symm.trans ((congrArg App.appState hctx).symm.trans haccepted)
    have hstored := opStartScan_filter c.idle hstarted
    rw [hfilter] at hstored
    exact (congrArg App.scanFilterName hctx).trans ((queueCtrlLine_filter _ text).trans hstored)

/-! ## The filter during the scan -/

theorem scanView_deviceFound (s : App) (addr : BtAddrLe) (rssi : Int) (type : Nat) (ad : List Byte) :
    (deviceFound env s addr rssi type ad).scanView.filter = s.scanView.filter ∧
      (deviceFound env s addr rssi type ad).scanView.starts = s.scanView.starts := by
  unfold deviceFound
  split; · exact ⟨rfl, rfl⟩
  split; · exact ⟨rfl, rfl⟩
  dsimp only
  split; · exact ⟨rfl, rfl⟩
  split
  · exact ⟨rfl, rfl⟩
  · split
    · exact ⟨rfl, rfl⟩
    · rename_i i _
      rw [atHostNotifyScanResult, scanView_queueScanLine]
      · exact ⟨rfl, rfl⟩
      · simp only [isScanLine, List.isPrefixOf_iff_prefix, List.append_assoc]
        exact prefix_snprintk (by decide) _

/-- Without a start of the radio the filter stays. -/
theorem step_filter (env : Env) (f : Firmware) (e : Event) :
    scanStarts f.app.log ≤ scanStarts (step env f e).app.log ∧
      (scanStarts (step env f e).app.log = scanStarts f.app.log →
        (step env f e).app.scanFilterName = f.app.scanFilterName) := by
  cases he : e.isReport with
  | true =>
      cases e with
      | deviceFound addr rssi type ad =>
          obtain ⟨hfilter, hstarts⟩ := scanView_deviceFound f.app addr rssi type ad
          exact ⟨Nat.le_of_eq hstarts.symm, fun _ => hfilter⟩
      | _ => cases he
  | false =>
      rcases scanView_step env f he with hsame | ⟨_, _, _, hs⟩
      · exact ⟨Nat.le_of_eq (congrArg ScanView.starts hsame).symm, fun _ => congrArg ScanView.filter hsame⟩
      · exact ⟨Nat.le_of_lt hs, fun h => absurd h (Nat.ne_of_gt hs)⟩

theorem scanStarts_mono (env : Env) (f : Firmware) (es : List Event) :
    scanStarts f.app.log ≤ scanStarts (Runs.run (step env) f es).app.log :=
  Runs.run_invariant (P := fun g : Firmware => scanStarts f.app.log ≤ scanStarts g.app.log)
    (fun g e h => Nat.le_trans h (step_filter env g e).1) (Nat.le_refl _) es

theorem run_filter (env : Env) (f : Firmware) (es : List Event)
    (h : scanStarts (Runs.run (step env) f es).app.log = scanStarts f.app.log) :
    (Runs.run (step env) f es).app.scanFilterName = f.app.scanFilterName := by
  induction es generalizing f with
  | nil => rfl
  | cons e es ih =>
      have hstep := step_filter env f e
      have hrest := scanStarts_mono env (step env f e) es
      rw [Runs.run_cons] at h ⊢
      rw [ih (step env f e) (by omega), hstep.2 (by omega)]

/-! ## The filter against the names -/

/-- A report is let through if and only if the advertised name begins with the whole filter text. -/
def FilterExact (s : App) (filter : Text) : Prop :=
  ∀ (type : Nat) (ad : List Byte) (fields : List Ltv.Field), isReportedAdvType type = true → Ltv.Reads ad fields →
    0 ∉ (nameAmong fields).getD [] → (accepts s type ad = true ↔ filter <+: (nameAmong fields).getD [])

theorem cString_of_text {text : List Byte} (h : 0 ∉ text) : cString text = text := by
  rw [cString, List.takeWhile_eq_self_iff]
  intro ch hch
  simpa using fun he : ch = 0 => h (he ▸ hch)

theorem filterExact_iff {filter : Text} (hm : s.appState = .scanning) (ht : 0 ∉ filter)
    (hf : s.scanFilterName = snprintk BLE_HOST_SCAN_FILTER_MAX_LEN filter) : FilterExact s filter ↔ filter.length ≤ 31 := by
  -- the comparison with what is stored is exact
  have hstored : ∀ (type : Nat) (ad : List Byte) (fields : List Ltv.Field), isReportedAdvType type = true →
      Ltv.Reads ad fields → 0 ∉ (nameAmong fields).getD [] →
        (accepts s type ad = true ↔ filter.take 31 <+: (nameAmong fields).getD []) := by
    intro type ad fields htype hreads hname
    have hcut : 0 ∉ ((nameAmong fields).getD []).take 31 := fun h => hname (List.mem_of_mem_take h)
    have hparsed : parseDeviceName ad BLE_HOST_NAME_MAX_LEN = ((nameAmong fields).getD []).take 31 :=
      (parseDeviceName_reads hreads _).trans (cString_of_text hcut)
    have hfilter : s.scanFilterName = filter.take 31 := hf
    simp only [accepts, hm, htype, decide_true, Bool.true_and, matchesScanFilter_iff, hparsed, hfilter,
      List.prefix_take_iff]
    exact and_iff_left (List.length_take_le _ _)
  constructor
  · intro h
    by_contra hlong
    have hlen : (filter.take 31).length = 31 := by
      rw [List.length_take]
      omega
    -- a device is called as the filter is stored
    let field : Ltv.Field := ⟨BT_DATA_NAME_COMPLETE, filter.take 31, by omega⟩
    have hreads : Ltv.Reads (field.encode ++ []) [field] := Ltv.Reads.cons field (.nil trivial)
    have hname : (nameAmong [field]).getD [] = filter.take 31 := rfl
    have htext : 0 ∉ (nameAmong [field]).getD [] := fun hz => ht (List.mem_of_mem_take (hname ▸ hz))
    have hpass := (hstored 5 _ _ rfl hreads htext).mpr (hname ▸ List.prefix_refl _)
    have hprefix := ((h 5 _ _ rfl hreads htext).mp hpass).length_le
    rw [hname, hlen] at hprefix
    omega
  · intro hlen type ad fields htype hreads hname
    rw [hstored type ad fields htype hreads hname, List.take_of_length_le hlen]

/-- The filter of a command is exact for the whole of its scan if and only if it has at most 31 bytes. -/
theorem scanFilter_exact_iff {f : Firmware} {filter : Text} (c : ScanCommand env f filter) (es : List Event)
    (hm : (Runs.run (step env) c.after es).app.appState = .scanning)
    (hs : scanStarts (Runs.run (step env) c.after es).app.log = scanStarts c.after.app.log) :
    FilterExact (Runs.run (step env) c.after es).app filter ↔ filter.length ≤ 31 :=
  filterExact_iff hm c.text ((run_filter env c.after es hs).trans c.after_filter)

/-- `AT+STARTSCAN=5,bat` right after the start. -/
def scanForBat : ScanCommand (stackRefusing []) (boot sampleConfig 0 true) (ascii "bat") where
  line := ⟨ascii "AT+STARTSCAN=5,bat", by decide⟩
  starts := by decide
  duration := ascii "5"
  fields := by decide
  text := by decide
  idle := by decide
  accepted := by decide

theorem scanFilter_exact_iff_bat :
    scanForBat.after.app.appState = .scanning ∧ (FilterExact scanForBat.after.app (ascii "bat") ↔ (ascii "bat").length ≤ 31) :=
  ⟨by decide, scanFilter_exact_iff scanForBat [] (by decide) rfl⟩

/-- A scan for a filter of 32 characters and an extended advertisement whose name is one character shorter. -/
def scanForLongName : Firmware :=
  Runs.run (step (stackRefusing [])) (boot sampleConfig 0 true)
    [hostSends "AT+STARTSCAN=5,abcdefghijklmnopqrstuvwxyz012345\r\n" 0,
      .deviceFound ⟨[1, 2, 3, 4, 5, 6], 0⟩ (-50) 5 (32 :: BT_DATA_NAME_COMPLETE :: ascii "abcdefghijklmnopqrstuvwxyz01234")]

/-- The device is announced. -/
theorem long_filter_not_exact :
    announced scanForLongName.app.log = [ascii "+IND=SCDA,0,06:05:04:03:02:01,abcdefghijklmnopqrstuvwxyz01234,0,-50"] ∧
      ¬ascii "abcdefghijklmnopqrstuvwxyz012345" <+: ascii "abcdefghijklmnopqrstuvwxyz01234" ∧
      ¬FilterExact scanForLongName.app (ascii "abcdefghijklmnopqrstuvwxyz012345") := by
  have hrun : announced scanForLongName.app.log =
        [ascii "+IND=SCDA,0,06:05:04:03:02:01,abcdefghijklmnopqrstuvwxyz01234,0,-50"] ∧
      scanForLongName.app.appState = .scanning ∧
      scanForLongName.app.scanFilterName =
        snprintk BLE_HOST_SCAN_FILTER_MAX_LEN (ascii "abcdefghijklmnopqrstuvwxyz012345") := by decide +kernel
  refine ⟨hrun.1, by decide, fun h => ?_⟩
  have hlen := (filterExact_iff hrun.2.1 (by decide) hrun.2.2).mp h
  exact absurd hlen (by decide)

end BleAtHost.Main
