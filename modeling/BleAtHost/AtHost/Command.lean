import BleAtHost.AtHost.State

/-!
# The AT parser: commands and received bytes

The second part of `at_host.c`: `process_command` and `at_host_rx_bytes`. Every command of the chain in
`process_command` has a function of its own.
-/

namespace BleAtHost.AtHost

variable {σ : Type} (ops : Ops σ) (tx : Tx σ)

/-! ## Commands -/

def invalidParameters (w : World σ) : World σ := emitError tx w .invalidParameters

/-- `process_send_payload`. The payload buffer holds exactly the expected bytes when it runs. -/
def processSendPayload (w : World σ) : World σ :=
  let (err, w) := w.called (.sendPayload w.host.payloadConnIndex (w.host.payloadBuffer.take w.host.payloadExpected))
    (ops.sendPayload w.ctx w.host.payloadConnIndex (w.host.payloadBuffer.take w.host.payloadExpected))
  respond tx { w with host := { w.host with payloadMode := false, payloadExpected := 0, payloadBuffer := [] } } err

/-- `handle_get_status`. -/
def handleGetStatus (w : World σ) : World σ :=
  let (status, w) := w.called .getStatus (ops.getStatus w.ctx)
  if !status.connected then txLine tx w (ascii "+OK=NUM,0")
  else
    let line := snprintk 80 (ascii "0:" ++ status.mac ++ ascii ",0,1," ++ decimal status.dataLen)
    txLine tx (txLine tx w line) (ascii "+OK=NUM,1")

/-- `handle_get_profile`. -/
def handleGetProfile (w : World σ) : World σ :=
  let (profile, w) := w.called .getProfile (ops.getProfile w.ctx)
  txLine tx w (snprintk 128 (ascii "+OK=" ++ profile.serviceUuid ++ ascii "," ++ profile.notifyUuid ++
    ascii "," ++ profile.writeUuid))

/-- `handle_get_mtu`. -/
def handleGetMtu (w : World σ) : World σ :=
  let (mtu, w) := w.called .getMtu (ops.getMtu w.ctx)
  txLine tx w (snprintk 32 (ascii "+OK=" ++ decimal mtu))

/-- `handle_get_stream_stats`. -/
def handleGetStreamStats (w : World σ) : World σ :=
  let (stats, w) := w.called .getStreamStats (ops.getStreamStats w.ctx)
  txLine tx w (snprintk 192 (ascii "+OK=H2B," ++ decimal stats.bytesHostToBle ++ ascii ",B2H," ++
    decimal stats.bytesBleToHost ++ ascii ",WOP," ++ decimal stats.writeOps ++ ascii ",NOP," ++
    decimal stats.notifyOps ++ ascii ",BP," ++ decimal stats.usbBackpressureCount ++ ascii ",MAXTX," ++
    decimal stats.maxHostToBleDepth ++ ascii ",MAXRX," ++ decimal stats.maxBleToHostDepth ++ ascii ",ENT," ++
    decimal stats.enterDataModeCount ++ ascii ",UDISC," ++ decimal stats.unexpectedDisconnectCount))

/-- `ARRAY_SIZE(args)`. -/
def MAX_ARGS : Nat := 5

def processStartScan (w : World σ) (payload : Text) : World σ :=
  match splitArgs MAX_ARGS payload with
  | [] => invalidParameters tx w
  | duration :: rest =>
      match parseUint16Value duration with
      | none | some 0 => invalidParameters tx w
      | some durationS =>
          let filterName :=
            match rest with
            | [] | [] :: _ => none
            | name :: _ => some name
          let (err, w) := w.called (.startScan durationS filterName) (ops.startScan w.ctx durationS filterName)
          respond tx w err

def processStartCon (w : World σ) (payload : Text) : World σ :=
  match splitArgs MAX_ARGS payload with
  | [mac, typeText] =>
      match parseUint16Value typeText with
      | none => invalidParameters tx w
      | some addrType =>
          if 3 < addrType then invalidParameters tx w
          else
            let (err, w) := w.called (.connect mac addrType) (ops.connect w.ctx mac addrType)
            respond tx w err
  | _ => invalidParameters tx w

/-- The commands whose whole argument is a connection index. -/
def withConnIndex (w : World σ) (payload : Text) (f : Nat → World σ) : World σ :=
  match parseUint16Value payload with
  | none => invalidParameters tx w
  | some connIndex => if 255 < connIndex then invalidParameters tx w else f connIndex

def processDiscon (w : World σ) (payload : Text) : World σ :=
  withConnIndex tx w payload fun connIndex =>
    let (err, w) := w.called (.disconnect connIndex) (ops.disconnect w.ctx connIndex)
    respond tx w err

def processSend (w : World σ) (payload : Text) : CommandResult × World σ :=
  match splitArgs MAX_ARGS payload with
  | [indexText, lengthText] =>
      match parseUint16Value indexText, parseUint16Value lengthText with
      | some connIndex, some length =>
          if 255 < connIndex ∨ length = 0 ∨ BLE_HOST_SEND_MAX_LEN < length then
            (.none, invalidParameters tx w)
          else
            let host :=
              { w.host with payloadMode := true, payloadExpected := length, payloadBuffer := [],
                            payloadConnIndex := connIndex }
            (.enterPayload, txRaw tx { w with host := host } (ascii ">"))
      | _, _ => (.none, invalidParameters tx w)
  | _ => (.none, invalidParameters tx w)

def processSetSvcUuid (w : World σ) (payload : Text) : World σ :=
  match splitArgs MAX_ARGS payload with
  | [service, notify, write] =>
      let (err, w) := w.called (.setProfile service notify write) (ops.setProfile w.ctx service notify write)
      respond tx w err
  | _ => invalidParameters tx w

def processSetMtu (w : World σ) (payload : Text) : World σ :=
  match parseUint16Value payload with
  | none => invalidParameters tx w
  | some mtu =>
      let (err, w) := w.called (.setMtu mtu) (ops.setMtu w.ctx mtu)
      respond tx w err

def processConMtuReq (w : World σ) (payload : Text) : World σ :=
  withConnIndex tx w payload fun connIndex =>
    let (err, w) := w.called (.requestMtu connIndex) (ops.requestMtu w.ctx connIndex)
    respond tx w err

def processConParaReq (w : World σ) (payload : Text) : World σ :=
  match (splitArgs MAX_ARGS payload).mapM parseUint16Value with
  | some [connIndex, minInterval, maxInterval, latency, timeout] =>
      if 255 < connIndex then invalidParameters tx w
      else
        let (err, w) := w.called (.setConnParams connIndex minInterval maxInterval latency timeout)
          (ops.setConnParams w.ctx connIndex minInterval maxInterval latency timeout)
        respond tx w err
  | _ => invalidParameters tx w

def processEnterDataMode (w : World σ) (payload : Text) : World σ :=
  withConnIndex tx w payload fun connIndex =>
    let (err, w) := w.called (.enterDataMode connIndex) (ops.enterDataMode w.ctx connIndex)
    if err ≠ 0 then emitErrorFromErrno tx w err
    else txLine tx (txLine tx w (ascii "+OK")) (ascii "+IND=DATAMODE,1")

/-- `process_command`, the chain of comparisons. -/
def processCommand (w : World σ) (line : Text) : CommandResult × World σ :=
  let working := trimWhitespace (snprintk LINE_BUFFER_SIZE line)
  let starts (name : String) : Bool := startsWithIgnoreCase working (ascii name)
  let equals (name : String) : Bool := equalsIgnoreCase working (ascii name)
  let payload (name : String) : Text := working.drop (ascii name).length
  if working = [] then (.none, w)
  else if equals "AT" then (.none, txLine tx w (ascii "+OK"))
  else if starts "AT+STARTSCAN=" then (.none, processStartScan ops tx w (payload "AT+STARTSCAN="))
  else if starts "AT+STARTCON=" then (.none, processStartCon ops tx w (payload "AT+STARTCON="))
  else if starts "AT+DISCON=" then (.none, processDiscon ops tx w (payload "AT+DISCON="))
  else if starts "AT+SEND=" then processSend tx w (payload "AT+SEND=")
  else if equals "AT+CONSTATUS" then (.none, handleGetStatus ops tx w)
  else if starts "AT+SETSVCUUID=" then (.none, processSetSvcUuid ops tx w (payload "AT+SETSVCUUID="))
  else if equals "AT+GETSVCUUID" then (.none, handleGetProfile ops tx w)
  else if starts "AT+SETMTU=" then (.none, processSetMtu ops tx w (payload "AT+SETMTU="))
  else if equals "AT+GETMTU" then (.none, handleGetMtu ops tx w)
  else if starts "AT+CONMTUREQ=" then (.none, processConMtuReq ops tx w (payload "AT+CONMTUREQ="))
  else if starts "AT+CONPARAREQ=" then (.none, processConParaReq ops tx w (payload "AT+CONPARAREQ="))
  else if starts "AT+ENTERDATAMODE=" then (.none, processEnterDataMode ops tx w (payload "AT+ENTERDATAMODE="))
  else if equals "AT+STREAMSTAT" then (.none, handleGetStreamStats ops tx w)
  else if starts "AT+" then (.none, emitError tx w .functionError)
  else (.none, emitError tx w .invalidCommand)

/-! ## Received bytes -/

def isLineEnd (ch : Byte) : Bool := ch == 13 || ch == 10

/-- The end of a line: the command, if the line fits and is not empty. -/
def endOfLine (skip : Bool) (w : World σ) : Bool × World σ :=
  let (skip, w) :=
    if !w.host.lineOverflow && 0 < w.host.lineBuffer.length then
      let (result, w) := processCommand ops tx w (cString w.host.lineBuffer)
      (result == .enterPayload, w)
    else if w.host.lineOverflow then (skip, emitError tx w .invalidCommand)
    else (skip, w)
  (skip, { w with host := { w.host with lineBuffer := [], lineOverflow := false } })

/-- One byte in payload mode. -/
def payloadByte (w : World σ) (ch : Byte) : World σ :=
  let w := { w with host := { w.host with payloadBuffer := w.host.payloadBuffer ++ [ch] } }
  if w.host.payloadBuffer.length = w.host.payloadExpected then processSendPayload ops tx w else w

/-- The body of the loop of `at_host_rx_bytes`; the flag is the local `skip_payload_line_ending`. -/
def rxByte (p : Bool × World σ) (ch : Byte) : Bool × World σ :=
  let (skip, w) := p
  if w.host.payloadMode then
    if skip && w.host.payloadBuffer.length = 0 && isLineEnd ch then (skip, w)
    else (false, payloadByte ops tx w ch)
  else if isLineEnd ch then endOfLine ops tx skip w
  else if LINE_BUFFER_SIZE - 1 ≤ w.host.lineBuffer.length then
    (skip, { w with host := { w.host with lineOverflow := true } })
  else (skip, { w with host := { w.host with lineBuffer := w.host.lineBuffer ++ [ch] } })

/-- The loop of `at_host_rx_bytes` with its local flag. -/
def rxLoop (p : Bool × World σ) (data : List Byte) : Bool × World σ := data.foldl (rxByte ops tx) p

/-- `at_host_rx_bytes`. -/
def atHostRxBytes (w : World σ) (data : List Byte) : World σ := (rxLoop ops tx (false, w) data).2

end BleAtHost.AtHost
