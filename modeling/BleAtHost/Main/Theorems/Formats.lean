import BleAtHost.Lemmas.Formats
import BleAtHost.Main.System

/-!
# Formatted lines

Each buffer that a line is printed into is longer than the longest line of its format. The counters can be read
back from a line of `AT+STREAMSTAT`.
-/

namespace BleAtHost

/-! ## Values of the C types -/

/-- The size of a text of `bt_addr_le_to_str`. -/
def BT_ADDR_LE_STR_LEN : Nat := 30

/-- The counters in the order of the line. -/
def BleStreamStats.counters (stats : BleStreamStats) : List Nat :=
  [stats.bytesHostToBle, stats.bytesBleToHost, stats.writeOps, stats.notifyOps, stats.usbBackpressureCount,
    stats.maxHostToBleDepth, stats.maxBleToHostDepth, stats.enterDataModeCount, stats.unexpectedDisconnectCount]

/-- Each counter is a `uint32_t`. -/
def BleStreamStats.InRange (stats : BleStreamStats) : Prop := ∀ n ∈ stats.counters, n < 2 ^ 32

/-- Each text lies in a buffer of `BLE_HOST_UUID_STR_LEN` bytes. -/
structure BleProfile.InRange (profile : BleProfile) : Prop where
  serviceUuid : profile.serviceUuid.length < BLE_HOST_UUID_STR_LEN
  notifyUuid : profile.notifyUuid.length < BLE_HOST_UUID_STR_LEN
  writeUuid : profile.writeUuid.length < BLE_HOST_UUID_STR_LEN

structure BleHostStatus.InRange (status : BleHostStatus) : Prop where
  mac : status.mac.length < BT_ADDR_LE_STR_LEN
  dataLen : status.dataLen < 2 ^ 16

theorem BleStreamStats.counters_injective : Function.Injective BleStreamStats.counters := by
  intro stats stats' h
  cases stats
  cases stats'
  simpa [counters] using h

namespace Main

/-! ## The formats -/

/-- A counter of 32 bits has at most ten digits. -/
def streamStatsFormat : List (Tagged.Field Byte) :=
  [⟨ascii "+OK=H2B,", 10⟩, ⟨ascii ",B2H,", 10⟩, ⟨ascii ",WOP,", 10⟩, ⟨ascii ",NOP,", 10⟩, ⟨ascii ",BP,", 10⟩,
    ⟨ascii ",MAXTX,", 10⟩, ⟨ascii ",MAXRX,", 10⟩, ⟨ascii ",ENT,", 10⟩, ⟨ascii ",UDISC,", 10⟩]

def profileFormat : List (Tagged.Field Byte) := [⟨ascii "+OK=", 36⟩, ⟨ascii ",", 36⟩, ⟨ascii ",", 36⟩]

def statusFormat : List (Tagged.Field Byte) := [⟨ascii "0:", 29⟩, ⟨ascii ",0,1,", 5⟩]

def scanResultFormat : List (Tagged.Field Byte) :=
  [⟨ascii "+IND=SCDA,", 3⟩, ⟨ascii ",", 29⟩, ⟨ascii ",", 31⟩, ⟨ascii ",", 3⟩, ⟨ascii ",", 4⟩]

def mtuFormat : List (Tagged.Field Byte) := [⟨ascii "+IND=MTU,", 5⟩]

def linkParamsFormat : List (Tagged.Field Byte) := [⟨ascii "+IND=LINKPARA,0,", 5⟩, ⟨ascii ",", 5⟩, ⟨ascii ",", 5⟩]

/-! ## The whole lines -/

def streamStatsText (stats : BleStreamStats) : Text := Tagged.line streamStatsFormat (stats.counters.map decimal)

def profileText (profile : BleProfile) : Text :=
  Tagged.line profileFormat [profile.serviceUuid, profile.notifyUuid, profile.writeUuid]

def statusText (status : BleHostStatus) : Text := Tagged.line statusFormat [status.mac, decimal status.dataLen]

def scanResultText (index : Nat) (mac name : Text) (addrType : Nat) (rssi : Int) : Text :=
  Tagged.line scanResultFormat [decimal index, mac, name, decimal addrType, signedDecimal rssi]

def mtuText (payloadLen : Nat) : Text := Tagged.line mtuFormat [decimal payloadLen]

def linkParamsText (interval latency timeout : Nat) : Text :=
  Tagged.line linkParamsFormat [decimal interval, decimal latency, decimal timeout]

theorem streamStats_keeps {stats : BleStreamStats} (h : stats.InRange) :
    Tagged.Keeps streamStatsFormat (stats.counters.map decimal) := by
  have hcounter : ∀ n ∈ stats.counters, (decimal n).length ≤ 10 := by
    intro n hn
    exact length_decimal (by decide) (Nat.lt_trans (h n hn) (by decide))
  simpa [Tagged.Keeps, streamStatsFormat, BleStreamStats.counters] using hcounter

theorem profile_keeps {profile : BleProfile} (h : profile.InRange) :
    Tagged.Keeps profileFormat [profile.serviceUuid, profile.notifyUuid, profile.writeUuid] :=
  .cons (Nat.le_of_lt_succ h.serviceUuid)
    (.cons (Nat.le_of_lt_succ h.notifyUuid) (.cons (Nat.le_of_lt_succ h.writeUuid) .nil))

theorem length_uint8 {n : Nat} (h : n < 256) : (decimal n).length ≤ 3 := length_decimal (by decide) (by omega)

theorem length_uint16 {n : Nat} (h : n < 2 ^ 16) : (decimal n).length ≤ 5 := length_decimal (by decide) (by omega)

theorem status_keeps {status : BleHostStatus} (h : status.InRange) :
    Tagged.Keeps statusFormat [status.mac, decimal status.dataLen] :=
  .cons (Nat.le_of_lt_succ h.mac) (.cons (length_uint16 h.dataLen) .nil)

theorem scanResult_keeps {index addrType : Nat} {mac name : Text} {rssi : Int} (hindex : index < 256)
    (hmac : mac.length < BT_ADDR_LE_STR_LEN) (hname : name.length < BLE_HOST_NAME_MAX_LEN) (htype : addrType < 256)
    (hrssi : -128 ≤ rssi ∧ rssi ≤ 127) :
    Tagged.Keeps scanResultFormat [decimal index, mac, name, decimal addrType, signedDecimal rssi] := by
  have hsigned : (signedDecimal rssi).length ≤ 4 := length_signedDecimal (by omega)
  exact .cons (length_uint8 hindex) (.cons (Nat.le_of_lt_succ hmac) (.cons (Nat.le_of_lt_succ hname)
    (.cons (length_uint8 htype) (.cons hsigned .nil))))

theorem mtu_keeps {payloadLen : Nat} (h : payloadLen < 2 ^ 16) : Tagged.Keeps mtuFormat [decimal payloadLen] :=
  .cons (length_uint16 h) .nil

theorem linkParams_keeps {interval latency timeout : Nat} (hinterval : interval < 2 ^ 16) (hlatency : latency < 2 ^ 16)
    (htimeout : timeout < 2 ^ 16) :
    Tagged.Keeps linkParamsFormat [decimal interval, decimal latency, decimal timeout] :=
  .cons (length_uint16 hinterval) (.cons (length_uint16 hlatency) (.cons (length_uint16 htimeout) .nil))

/-! ## What is sent -/

section
variable {σ : Type} (ops : AtHost.Ops σ) (tx : AtHost.Tx σ) {w : AtHost.World σ} {ctx : σ}

theorem handleGetStreamStats_eq {stats : BleStreamStats} (hget : ops.getStreamStats w.ctx = (stats, ctx)) :
    AtHost.handleGetStreamStats ops tx w =
      AtHost.txLine tx (w.called .getStreamStats (stats, ctx)).2 (snprintk 192 (streamStatsText stats)) := by
  simp [AtHost.handleGetStreamStats, hget, AtHost.World.called, streamStatsText, streamStatsFormat, Tagged.line,
    BleStreamStats.counters]

theorem handleGetProfile_eq {profile : BleProfile} (hget : ops.getProfile w.ctx = (profile, ctx)) :
    AtHost.handleGetProfile ops tx w =
      AtHost.txLine tx (w.called .getProfile (profile, ctx)).2 (snprintk 128 (profileText profile)) := by
  simp [AtHost.handleGetProfile, hget, AtHost.World.called, profileText, profileFormat, Tagged.line]

theorem handleGetStatus_eq {status : BleHostStatus} (hget : ops.getStatus w.ctx = (status, ctx))
    (hconnected : status.connected = true) :
    AtHost.handleGetStatus ops tx w =
      AtHost.txLine tx (AtHost.txLine tx (w.called .getStatus (status, ctx)).2 (snprintk 80 (statusText status)))
        (ascii "+OK=NUM,1") := by
  simp [AtHost.handleGetStatus, hget, hconnected, AtHost.World.called, statusText, statusFormat, Tagged.line]

end

/-- The text behind `snprintk` in `at_host_notify_scan_result`. -/
theorem scanResultText_eq (index : Nat) (mac name : Text) (addrType : Nat) (rssi : Int) :
    scanResultText index mac name addrType rssi =
      ascii "+IND=SCDA," ++ decimal index ++ ascii "," ++ mac ++ ascii "," ++ name ++ ascii "," ++
        decimal addrType ++ ascii "," ++ signedDecimal rssi := by
  simp [scanResultText, scanResultFormat, Tagged.line]

theorem atHostNotifyScanResult_eq (s : App) (index : Nat) (mac name : Text) (addrType : Nat) (rssi : Int) :
    atHostNotifyScanResult s index mac name addrType rssi =
      queueCtrlLine s (snprintk 128 (scanResultText index mac name addrType rssi)) := by
  rw [scanResultText_eq]
  rfl

theorem atHostNotifyMtu_eq (s : App) (payloadLen : Nat) :
    atHostNotifyMtu s payloadLen = queueCtrlLine s (snprintk 32 (mtuText payloadLen)) := by
  simp [atHostNotifyMtu, mtuText, mtuFormat, Tagged.line]

theorem atHostNotifyLinkParams_eq (s : App) (interval latency timeout : Nat) :
    atHostNotifyLinkParams s interval latency timeout =
      queueCtrlLine s (snprintk 64 (linkParamsText interval latency timeout)) := by
  simp [atHostNotifyLinkParams, linkParamsText, linkParamsFormat, Tagged.line]

/-- The answers to the commands, from any values of the C types. -/
structure AnswersWhole {σ : Type} (ops : AtHost.Ops σ) (tx : AtHost.Tx σ) (w : AtHost.World σ) : Prop where
  status : ∀ status ctx, ops.getStatus w.ctx = (status, ctx) → status.connected = true → status.InRange →
    (statusText status).length < 80 ∧
      AtHost.handleGetStatus ops tx w =
        AtHost.txLine tx (AtHost.txLine tx (w.called .getStatus (status, ctx)).2 (statusText status))
          (ascii "+OK=NUM,1")
  profile : ∀ profile ctx, ops.getProfile w.ctx = (profile, ctx) → profile.InRange →
    (profileText profile).length < 128 ∧
      AtHost.handleGetProfile ops tx w =
        AtHost.txLine tx (w.called .getProfile (profile, ctx)).2 (profileText profile)
  streamStats : ∀ stats ctx, ops.getStreamStats w.ctx = (stats, ctx) → stats.InRange →
    (streamStatsText stats).length < 192 ∧
      AtHost.handleGetStreamStats ops tx w =
        AtHost.txLine tx (w.called .getStreamStats (stats, ctx)).2 (streamStatsText stats)

/-- The lines that no command asks for. -/
structure EventsWhole (s : App) : Prop where
  scanResult : ∀ index mac name addrType rssi, index < 256 → mac.length < BT_ADDR_LE_STR_LEN →
    name.length < BLE_HOST_NAME_MAX_LEN → addrType < 256 → -128 ≤ rssi ∧ rssi ≤ 127 →
    (scanResultText index mac name addrType rssi).length < 128 ∧
      atHostNotifyScanResult s index mac name addrType rssi =
        queueCtrlLine s (scanResultText index mac name addrType rssi)
  mtu : ∀ payloadLen, payloadLen < 2 ^ 16 →
    (mtuText payloadLen).length < 32 ∧ atHostNotifyMtu s payloadLen = queueCtrlLine s (mtuText payloadLen)
  linkParams : ∀ interval latency timeout, interval < 2 ^ 16 → latency < 2 ^ 16 → timeout < 2 ^ 16 →
    (linkParamsText interval latency timeout).length < 64 ∧
      atHostNotifyLinkParams s interval latency timeout = queueCtrlLine s (linkParamsText interval latency timeout)

theorem answersWhole {σ : Type} (ops : AtHost.Ops σ) (tx : AtHost.Tx σ) (w : AtHost.World σ) :
    AnswersWhole ops tx w where
  status status ctx hget hconnected h := by
    have hkeeps := status_keeps h
    rw [handleGetStatus_eq ops tx hget hconnected, statusText, snprintk_line (by decide) hkeeps]
    exact ⟨length_line_lt (by decide) hkeeps, rfl⟩
  profile profile ctx hget h := by
    have hkeeps := profile_keeps h
    rw [handleGetProfile_eq ops tx hget, profileText, snprintk_line (by decide) hkeeps]
    exact ⟨length_line_lt (by decide) hkeeps, rfl⟩
  streamStats stats ctx hget h := by
    have hkeeps := streamStats_keeps h
    rw [handleGetStreamStats_eq ops tx hget, streamStatsText, snprintk_line (by decide) hkeeps]
    exact ⟨length_line_lt (by decide) hkeeps, rfl⟩

theorem eventsWhole (s : App) : EventsWhole s where
  scanResult index mac name addrType rssi hindex hmac hname htype hrssi := by
    have hkeeps := scanResult_keeps hindex hmac hname htype hrssi
    rw [atHostNotifyScanResult_eq, scanResultText, snprintk_line (by decide) hkeeps]
    exact ⟨length_line_lt (by decide) hkeeps, rfl⟩
  mtu payloadLen h := by
    have hkeeps := mtu_keeps h
    rw [atHostNotifyMtu_eq, mtuText, snprintk_line (by decide) hkeeps]
    exact ⟨length_line_lt (by decide) hkeeps, rfl⟩
  linkParams interval latency timeout hinterval hlatency htimeout := by
    have hkeeps := linkParams_keeps hinterval hlatency htimeout
    rw [atHostNotifyLinkParams_eq, linkParamsText, snprintk_line (by decide) hkeeps]
    exact ⟨length_line_lt (by decide) hkeeps, rfl⟩

/-! ## Reading the counters back -/

/-- A number ends where the next label begins. -/
theorem streamStatsFormat_delimited : Tagged.Delimited isDigit streamStatsFormat.tail := by
  intro field hm
  simp only [streamStatsFormat, List.tail_cons, List.mem_cons, List.not_mem_nil, or_false] at hm
  rcases hm with rfl | rfl | rfl | rfl | rfl | rfl | rfl | rfl <;> exact ⟨44, _, rfl, rfl⟩

theorem streamStatsText_injective : Function.Injective streamStatsText := by
  intro stats stats' h
  have hdigits : ∀ stats : BleStreamStats, ∀ value ∈ stats.counters.map decimal, ∀ ch ∈ value, isDigit ch := by
    intro stats value hv ch hch
    obtain ⟨n, -, rfl⟩ := List.mem_map.mp hv
    exact isDigit_of_mem_decimal hch
  have hvalues : stats.counters.map decimal = stats'.counters.map decimal :=
    Tagged.line_injective streamStatsFormat_delimited rfl rfl (hdigits stats) (hdigits stats') h
  exact BleStreamStats.counters_injective (decimal_injective.list_map hvalues)

theorem streamStats_sent {σ : Type} (ops : AtHost.Ops σ) (tx : AtHost.Tx σ) (w : AtHost.World σ)
    (h : (ops.getStreamStats w.ctx).1.InRange) :
    (AtHost.handleGetStreamStats ops tx w).trace.head? =
      some (.line (streamStatsText (ops.getStreamStats w.ctx).1)) := by
  rw [((answersWhole ops tx w).streamStats _ _ rfl h).2]
  rfl

/-- Every line is whole, and two lines of `AT+STREAMSTAT` are equal only if the counters are. -/
theorem formatted_lines :
    (∀ (σ : Type) (ops : AtHost.Ops σ) (tx : AtHost.Tx σ) (w : AtHost.World σ), AnswersWhole ops tx w) ∧
      (∀ s : App, EventsWhole s) ∧
      ∀ (σ σ' : Type) (ops : AtHost.Ops σ) (tx : AtHost.Tx σ) (w : AtHost.World σ) (ops' : AtHost.Ops σ')
        (tx' : AtHost.Tx σ') (w' : AtHost.World σ'), (ops.getStreamStats w.ctx).1.InRange →
        (ops'.getStreamStats w'.ctx).1.InRange →
        (AtHost.handleGetStreamStats ops tx w).trace.head? = (AtHost.handleGetStreamStats ops' tx' w').trace.head? →
        (ops.getStreamStats w.ctx).1 = (ops'.getStreamStats w'.ctx).1 := by
  refine ⟨fun _ => answersWhole, eventsWhole, ?_⟩
  intro σ σ' ops tx w ops' tx' w' h h' heq
  rw [streamStats_sent ops tx w h, streamStats_sent ops' tx' w' h', Option.some.injEq, AtHost.Call.line.injEq] at heq
  exact streamStatsText_injective heq

/-- The firmware after its start, with other counters. -/
def counting (stats : BleStreamStats) : AtHost.World App :=
  let f := boot sampleConfig 0 true
  { f.world with ctx := { f.app with streamStats := stats } }

def largestStats : BleStreamStats :=
  let most := 2 ^ 32 - 1
  ⟨most, most, most, most, most, most, most, most, most⟩

theorem formatted_lines_largest :
    let ops := atOps (stackRefusing [])
    let stats := { largestStats with writeOps := 0 }
    let s := (boot sampleConfig 0 true).app
    let mac := List.replicate 29 65
    let name := List.replicate 31 66
    (streamStatsText largestStats).length = 143 ∧
      (AtHost.handleGetStreamStats ops atTx (counting largestStats)).trace.head? =
        some (.line (streamStatsText largestStats)) ∧
      (AtHost.handleGetStreamStats ops atTx (counting largestStats)).trace.head? ≠
        (AtHost.handleGetStreamStats ops atTx (counting stats)).trace.head? ∧
      (scanResultText 255 mac name 255 (-128)).length = 84 ∧
      atHostNotifyScanResult s 255 mac name 255 (-128) = queueCtrlLine s (scanResultText 255 mac name 255 (-128)) := by
  intro ops stats s mac name
  have hlargest : largestStats.InRange := by
    show ∀ n ∈ largestStats.counters, n < 2 ^ 32
    decide
  have hstats : stats.InRange := by
    show ∀ n ∈ stats.counters, n < 2 ^ 32
    decide
  have hline := ((formatted_lines.1 App ops atTx (counting largestStats)).streamStats largestStats _ rfl hlargest).2
  have hevent := ((formatted_lines.2.1 s).scanResult 255 mac name 255 (-128) (by decide) (by decide) (by decide)
    (by decide) (by decide)).2
  refine ⟨by decide +kernel, ?_, ?_, by decide +kernel, hevent⟩
  · rw [hline]
    rfl
  · intro heq
    have hsame := formatted_lines.2.2 App App ops atTx (counting largestStats) ops atTx (counting stats) hlargest hstats heq
    exact absurd (congrArg BleStreamStats.writeOps hsame) (by decide)

end Main

end BleAtHost
