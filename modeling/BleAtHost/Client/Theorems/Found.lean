import BleAtHost.Client.Theorems.Requests
import BleAtHost.Client.Theorems.ScanResults
import BleAtHost.Main.Lemmas.Control
import BleAtHost.Main.Theorems.Connection

/-!
# A device that was found is the one that is connected to

The way of an address: from an advertising report into a line, from the line into a scan result, from the scan result
into a request, and from the request into `bt_conn_le_create`.
-/

namespace BleAtHost.Client

open AtHost (rxReads Reply)
open Main

theorem bytes_chars (text : Text) : Request.bytes (chars text) = text := by
  have hback : ∀ b : Byte, UInt8.ofNat (charOf b).toNat = b := by
    intro b
    have hlt := UInt8.toNat_lt b
    have hvalid : b.toNat.isValidChar := .inl (by omega)
    have hchar : (charOf b).toNat = b.toNat := by
      rw [charOf, Char.ofNat, dif_pos hvalid]
      rfl
    rw [hchar, UInt8.ofNat_toNat]
  rw [Request.bytes, chars, List.map_map]
  exact (List.map_congr_left fun b _ => hback b).trans (List.map_id text)

theorem chars_decimal_natCast (n : Nat) : chars (decimal n) = ofInt (n : Int) := by
  have hnat : ofInt (n : Int) = Nat.toDigits 10 n := if_neg (by omega)
  rw [chars_decimal, hnat]

/-- The lines of an answer add to the log. -/
theorem lines_log_suffix (env : Env) (lines : List Text) (s : App) :
    s.log <:+ (AtHost.effects (atOps env) atTx (lines.map .line) s).log := by
  induction lines generalizing s with
  | nil => exact List.suffix_rfl
  | cons text lines ih =>
      have hline : s.log <:+ (queueCtrlLine s text).log := by
        obtain ⟨new, -, hlog⟩ := (aside_line s text).log
        exact hlog ▸ List.suffix_append new s.log
      exact hline.trans (ih (queueCtrlLine s text))

/-- Connecting with the address and the type of a scan result asks the stack for a connection to this device, from
any state in which the application is idle and however the request is cut into reads. -/
def ConnectsTo (env : Env) (result : ScanResult) (addr : BtAddrLe) : Prop :=
  ∀ timeout, ∃ line, (Request.connect result.mac result.addrType).line timeout = some line ∧
    ∀ reads : List (List Byte), reads.flatten = line → ∀ w : AtHost.World App, w.host.AtLineStart →
      w.ctx.currentConn = none → w.ctx.appState = .idle →
        .stack (.connCreate ⟨w.ctx.conns, addr⟩ w.ctx.config.connIntervalMin w.ctx.config.connIntervalMax
          w.ctx.config.latency w.ctx.config.timeout) (env.answer w.ctx.calls) :: w.ctx.log <:+
            (rxReads (atOps env) atTx w reads).ctx.log

/-- The types of addresses are numbered alike in both directions. -/
theorem addrType_back {addrType : Nat} (h : addrType ≤ 3) :
    bleHostAddrTypeFromWlt (bleHostAddrTypeToWlt addrType) = some addrType ∧ bleHostAddrTypeToWlt addrType ≤ 3 := by
  have hcases : addrType = 0 ∨ addrType = 1 ∨ addrType = 2 ∨ addrType = 3 := by omega
  rcases hcases with rfl | rfl | rfl | rfl
  · exact ⟨rfl, by decide⟩
  · exact ⟨rfl, by decide⟩
  · exact ⟨rfl, by decide⟩
  · exact ⟨rfl, by decide⟩

section
variable {env : Env} {addr : BtAddrLe}

theorem opConnect_back {mac : Text} (hlen : mac.length = 17) (hback : env.btAddrFromStr mac = some addr.val)
    (htype : addr.type ≤ 3) {s : App} (hconn : s.currentConn = none) (hidle : s.appState = .idle) :
    opConnect env s mac (bleHostAddrTypeToWlt addr.type) = createConnection env s addr := by
  have hparse : parseConnectMac env mac = some addr.val := by
    rw [parseConnectMac, if_neg (by omega), hback]
  have hnone : ¬s.currentConn.isSome = true := by simp [hconn]
  have hfree : ¬(s.appState = .connecting ∨ s.appState = .disconnecting) := by simp [hidle]
  have hquiet : ¬s.appState = .scanning := by simp [hidle]
  rw [opConnect, if_neg hnone, if_neg hfree, (addrType_back htype).1]
  simp only [hparse, if_neg hquiet]

theorem Report.field_mac (r : Report) : Request.Field (chars r.mac) ∧ ∀ c ∈ chars r.mac, c.toNat < 128 := by
  have hbyte : ∀ c ∈ chars r.mac, ∃ b ∈ r.mac, c = charOf b ∧ c.toNat = b.toNat := by
    intro c hc
    obtain ⟨b, hb, rfl⟩ := List.mem_map.mp hc
    have hlt := UInt8.toNat_lt b
    have hvalid : b.toNat.isValidChar := .inl (by omega)
    refine ⟨b, hb, rfl, ?_⟩
    rw [charOf, Char.ofNat, dif_pos hvalid]
    rfl
  refine ⟨fun c hc => ?_, fun c hc => ?_⟩
  · obtain ⟨b, hb, -, hvalue⟩ := hbyte c hc
    obtain ⟨hlow, -, -⟩ := r.plain_mac b hb
    have hprinted : 32 < b.toNat := UInt8.lt_iff_toNat_lt.mp hlow
    have hcomma : c ≠ ',' := by
      rintro rfl
      exact r.comma_not_mem_mac hc
    refine ⟨hcomma, ?_, ?_, by omega⟩
    · rintro rfl
      exact absurd hvalue (by rw [show '\r'.toNat = 13 from rfl]; omega)
    · rintro rfl
      exact absurd hvalue (by rw [show '\n'.toNat = 10 from rfl]; omega)
  · obtain ⟨b, hb, -, hvalue⟩ := hbyte c hc
    obtain ⟨-, hhigh, -⟩ := r.plain_mac b hb
    have hascii : b.toNat < 128 := UInt8.lt_iff_toNat_lt.mp hhigh
    omega

/-- A report that names an address leads back to it. -/
theorem Report.connectsTo {r : Report} (hmac : r.mac = env.btAddrToStr addr.val)
    (hr : r.addrType = bleHostAddrTypeToWlt addr.type) (htype : addr.type ≤ 3)
    (hback : env.btAddrFromStr (env.btAddrToStr addr.val) = some addr.val) : ConnectsTo env r.record addr := by
  intro timeout
  obtain ⟨hfield, hascii⟩ := r.field_mac
  have hle : bleHostAddrTypeToWlt addr.type ≤ 3 := (addrType_back htype).2
  have hdigits : ∀ c ∈ ofInt (r.addrType : Int), c.toNat < 128 := by
    intro c hc
    rcases ofInt_chars hc with rfl | hdigit
    · decide
    · have hbounds := isDigit_bounds hdigit
      omega
  have hencoded : encodeAscii (Request.connect r.record.mac r.record.addrType).command =
      some (Request.bytes (Request.connect r.record.mac r.record.addrType).command) := by
    refine if_pos (List.all_eq_true.mpr fun c hc => decide_eq_true ?_)
    simp only [Request.command, List.mem_append] at hc
    rcases hc with ((hname | hmem) | hcomma) | htypeText
    · revert c
      simp [str]
    · exact hascii c hmem
    · revert c
      simp [str]
    · exact hdigits c htypeText
  have hline : (Request.connect r.record.mac r.record.addrType).line timeout =
      some (Request.bytes (Request.connect r.record.mac r.record.addrType).command ++ [13, 10]) := by
    rw [Request.line_eq, hencoded]
    rfl
  have hsendable : (Request.connect r.record.mac r.record.addrType).Sendable := by
    refine ⟨hfield, Int.natCast_nonneg _, ?_⟩
    rw [show r.record.addrType = (r.addrType : Int) from rfl]
    omega
  refine ⟨_, hline, fun reads hreads w hstart hconn hidle => ?_⟩
  have hfits : (Request.bytes (Request.connect r.record.mac r.record.addrType).command ++ [13, 10]).length <
      AtHost.LINE_BUFFER_SIZE + 2 := by
    have hnumber : (ofInt (r.addrType : Int)).length ≤ 1 := by
      rw [← chars_decimal_natCast, chars, List.length_map]
      exact length_decimal (by decide) (by omega)
    have hmacLength : (chars r.mac).length = 17 := by rw [chars, List.length_map, r.mac_length]
    have hname : (str "AT+STARTCON=").length = 12 := rfl
    have hcomma : (str ",").length = 1 := rfl
    have hbuffer : AtHost.LINE_BUFFER_SIZE = 160 := rfl
    simp only [Request.bytes, Request.command, Report.record, List.length_append, List.length_map, List.length_cons,
      List.length_nil, hname, hcomma, hmacLength]
    omega
  obtain ⟨text, htext, hcommand⟩ := Request.command_understood hsendable rfl hline hfits
  obtain ⟨calls, hreply, hcalls, -, -, hctx⟩ := AtHost.command_arrives (atOps env) atTx hstart hcommand.typed
    hcommand.working_ne hcommand.noSend (hreads.trans htext)
  have hoperations : AtHost.operations calls = [.connect r.mac r.addrType] := by
    rw [hcalls, hcommand.called (atOps env) atTx]
    simp only [Request.asks, Report.record, bytes_chars, Int.toNat_natCast]
  obtain ⟨lines, rfl⟩ := hreply.first hoperations
  have hasked : opConnect env w.ctx r.mac r.addrType = createConnection env w.ctx addr := by
    rw [hr]
    exact opConnect_back r.mac_length (hmac ▸ hback) htype hconn hidle
  have hctx' : (rxReads (atOps env) atTx w reads).ctx =
      AtHost.effects (atOps env) atTx (lines.map .line) (createConnection env w.ctx addr).2 := by
    rw [hctx, ← hasked]
    rfl
  rw [hctx']
  refine List.IsSuffix.trans ?_ (lines_log_suffix env lines _)
  simp only [createConnection]
  split
  · exact List.suffix_rfl
  · exact List.suffix_rfl

/-- `device_found` touches only its cache or hands one line to `queue_ctrl_line`. Fed with its line end to a client whose line
buffer is empty, that line is one item, `scan` parses the item, and the result connects to the device, if the texts of
addresses are what the stack documents and the name neither breaks its line nor its field. -/
theorem connects_to_what_was_found
    (henv : ∀ val, (env.btAddrToStr val).length = 17 ∧ ∀ ch ∈ env.btAddrToStr val, isXDigit ch = true ∨ ch = 58)
    (hback : env.btAddrFromStr (env.btAddrToStr addr.val) = some addr.val) (htype : addr.type ≤ 3) {s : App}
    (hindex : s.nextScanIndex < 256) {rssi : Int} (hrssi : -128 ≤ rssi ∧ rssi ≤ 127) (type : Nat) {ad : List Byte}
    (hname : 44 ∉ parseDeviceName ad BLE_HOST_NAME_MAX_LEN) (hline : Unbroken (parseDeviceName ad BLE_HOST_NAME_MAX_LEN)) :
    (∃ scanned, deviceFound env s addr rssi type ad = { s with scannedDevices := scanned }) ∨
      ∃ (s' : App) (line : Text) (item : Str) (result : ScanResult),
        deviceFound env s addr rssi type ad = queueCtrlLine s' line ∧ s'.log = s.log ∧
          (∀ c : Client, c.lineBuffer = [] → c.processControlBytes (line ++ [13, 10]) = c.withLines [] [item]) ∧
            parseScanResult item = some result ∧ result.rssi = rssi ∧ ConnectsTo env result addr := by
  rcases deviceFound_reports henv hindex addr hrssi type ad with hcached | ⟨s', r, hqueued, hlog, -, hmac, hn, ht, hr⟩
  · exact .inl hcached
  · rw [← hn] at hname hline
    exact .inr ⟨s', r.line, eventLine r.record, r.record, hqueued, hlog, fun c hb => feed_unbroken r hb hline,
      parse_eventLine r.comma_not_mem_mac fun hm => hname (comma_mem_decode.mp hm), hr, r.connectsTo hmac ht htype hback⟩

end

/-- A scan has begun. -/
def scanning : App := (Runs.run (step (stackRefusing [])) (boot sampleConfig 0 true) [hostSends "AT+STARTSCAN=5\r\n" 0]).app

/-- A device with a random address. -/
def randomDevice : BtAddrLe := ⟨[1, 2, 3, 4, 5, 6], 1⟩

/-- It is new to the cache, so a line is queued. -/
theorem connects_to_what_was_found_abc :
    ∃ (s' : App) (line : Text) (item : Str) (result : ScanResult),
      deviceFound (stackRefusing []) scanning randomDevice (-60) 0 (4 :: 9 :: ascii "abc") = queueCtrlLine s' line ∧ s'.log = scanning.log ∧
        (∀ c : Client, c.lineBuffer = [] → c.processControlBytes (line ++ [13, 10]) = c.withLines [] [item]) ∧
          parseScanResult item = some result ∧ result.rssi = -60 ∧
            ConnectsTo (stackRefusing []) result randomDevice := by
  have htext : ∀ val, ((stackRefusing []).btAddrToStr val).length = 17 ∧
      ∀ ch ∈ (stackRefusing []).btAddrToStr val, isXDigit ch = true ∨ ch = 58 :=
    fun _ => ⟨rfl, commaReport.mac_text⟩
  have hlogged : (deviceFound (stackRefusing []) scanning randomDevice (-60) 0 (4 :: 9 :: ascii "abc")).log.length ≠
      scanning.log.length := by decide +kernel
  have hback : (stackRefusing []).btAddrFromStr ((stackRefusing []).btAddrToStr randomDevice.val) = some randomDevice.val := rfl
  have hindex : scanning.nextScanIndex < 256 := by decide
  have hrssi : (-128 : Int) ≤ -60 ∧ (-60 : Int) ≤ 127 := by decide
  have hname : 44 ∉ parseDeviceName (4 :: 9 :: ascii "abc") BLE_HOST_NAME_MAX_LEN := by decide
  rcases connects_to_what_was_found htext hback (by decide) hindex hrssi 0 hname ⟨by decide, by decide⟩
    with ⟨scanned, hcached⟩ | hqueued
  · rw [hcached] at hlogged
    exact absurd rfl hlogged
  · exact hqueued

end BleAtHost.Client
