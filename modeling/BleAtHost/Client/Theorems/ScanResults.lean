import Mathlib.Data.List.Nodup
import BleAtHost.Lib.Lines
import BleAtHost.Main.Theorems.Formats
import BleAtHost.Client.Lemmas.Control
import BleAtHost.Client.Lemmas.Scan

/-!
# Scan results on their way to the client

The firmware writes the name of a device into its line as it is. The results arrive if no name holds a comma or a line
end.
-/

namespace BleAtHost.Client

open Main

/-- A scan result as `device_found` hands it over. -/
structure Report where
  index : Nat
  mac : Text
  name : Text
  addrType : Nat
  rssi : Int
  index_lt : index < 256
  mac_length : mac.length = 17
  mac_text : ∀ ch ∈ mac, isXDigit ch = true ∨ ch = 58
  name_length : name.length < BLE_HOST_NAME_MAX_LEN
  name_text : 0 ∉ name
  addrType_lt : addrType < 256
  rssi_range : -128 ≤ rssi ∧ rssi ≤ 127

namespace Report

/-- The line of `at_host_notify_scan_result`. -/
def line (r : Report) : Text :=
  snprintk 128 (ascii "+IND=SCDA," ++ decimal r.index ++ ascii "," ++ r.mac ++ ascii "," ++ r.name ++ ascii "," ++
    decimal r.addrType ++ ascii "," ++ signedDecimal r.rssi)

theorem notify (s : App) (r : Report) :
    atHostNotifyScanResult s r.index r.mac r.name r.addrType r.rssi = queueCtrlLine s r.line := rfl

/-- What the client should make of it. -/
def record (r : Report) : ScanResult := ⟨r.index, chars r.mac, decode r.name, r.addrType, r.rssi⟩

end Report

def scanCompleteLine : Text := ascii "+IND=SCED"

/-- What `device_found` reports, if the text of an address is what the stack documents. -/
theorem deviceFound_reports {env : Env}
    (henv : ∀ val, (env.btAddrToStr val).length = 17 ∧ ∀ ch ∈ env.btAddrToStr val, isXDigit ch = true ∨ ch = 58)
    {s : App} (hindex : s.nextScanIndex < 256) (addr : BtAddrLe) {rssi : Int} (hrssi : -128 ≤ rssi ∧ rssi ≤ 127)
    (type : Nat) (ad : List Byte) :
    (∃ scanned, deviceFound env s addr rssi type ad = { s with scannedDevices := scanned }) ∨
      ∃ (s' : App) (r : Report), deviceFound env s addr rssi type ad = queueCtrlLine s' r.line ∧ s'.log = s.log ∧
        r.index = s.nextScanIndex ∧ r.mac = env.btAddrToStr addr.val ∧
        r.name = parseDeviceName ad BLE_HOST_NAME_MAX_LEN ∧ r.addrType = bleHostAddrTypeToWlt addr.type ∧
        r.rssi = rssi := by
  have hname : (parseDeviceName ad BLE_HOST_NAME_MAX_LEN).length < BLE_HOST_NAME_MAX_LEN := by
    have hle := (List.takeWhile_sublist (· ≠ 0) (l := (findDeviceName ad.length ad).take (BLE_HOST_NAME_MAX_LEN - 1))).length_le
    rw [List.length_take] at hle
    have hmax : BLE_HOST_NAME_MAX_LEN = 32 := rfl
    rw [parseDeviceName, cString]
    omega
  have hstored : snprintk BLE_HOST_NAME_MAX_LEN (parseDeviceName ad BLE_HOST_NAME_MAX_LEN) =
      parseDeviceName ad BLE_HOST_NAME_MAX_LEN := List.take_of_length_le (by omega)
  have htext : 0 ∉ parseDeviceName ad BLE_HOST_NAME_MAX_LEN := by
    intro hm
    simpa using List.mem_takeWhile_imp hm
  have htype : bleHostAddrTypeToWlt addr.type < 256 := by
    unfold bleHostAddrTypeToWlt
    split
    all_goals omega
  let r : Report := ⟨s.nextScanIndex, env.btAddrToStr addr.val, parseDeviceName ad BLE_HOST_NAME_MAX_LEN,
    bleHostAddrTypeToWlt addr.type, rssi, hindex, (henv _).1, (henv _).2, hname, htext, htype, hrssi⟩
  simp only [deviceFound, hstored]
  split
  · exact .inl ⟨_, rfl⟩
  · split
    · exact .inl ⟨_, rfl⟩
    · split
      · exact .inl ⟨_, rfl⟩
      · split
        · exact .inl ⟨_, rfl⟩
        · split
          · exact .inl ⟨_, rfl⟩
          · exact .inr ⟨_, r, Report.notify _ r, rfl, rfl, rfl, rfl, rfl, rfl⟩

/-- The client, whatever its other fields, after the lines of a scan. -/
def received (c : Client) (reports : List Report) : Client :=
  { c with lineBuffer := [], lineQueue := [] }.processControlBytes
    (Lines.join 13 10 (reports.map Report.line ++ [scanCompleteLine]))

structure Survives (c : Client) (reports : List Report) : Prop where
  /-- There is no other event line. -/
  lines : (received c reports).lineQueue.length = reports.length + 1
  /-- `scan` returns the records after so many turns, whatever the clock shows as long as no wait is over. -/
  records : ∃ n, ∀ timeout ws, n ≤ ws.length → InTime timeout ws →
    (turns (received c reports, scanResults timeout ([], [])) ws).2 = .pure (reports.map Report.record)

/-- The name does not break its line. -/
def Unbroken (name : Text) : Prop := 10 ∉ name ∧ 13 ∉ name

/-! ## The line as text -/

/-- A line of results as the client sees it. -/
def eventLine (result : ScanResult) : Str :=
  str "+IND=SCDA," ++ ofInt result.index ++ str "," ++ result.mac ++ str "," ++ result.name ++ str "," ++
    ofInt result.addrType ++ str "," ++ ofInt result.rssi

/-- Printable, no space and no `>`. -/
def Plain (text : Text) : Prop := ∀ ch ∈ text, 32 < ch ∧ ch < 0x80 ∧ ch ≠ 62

theorem plain_of_all {text : Text} (h : text.all (fun ch => 32 < ch && ch < 0x80 && ch != 62) = true) : Plain text := by
  intro ch hc
  have hch := List.all_eq_true.mp h ch hc
  simp only [Bool.and_eq_true, decide_eq_true_eq, bne_iff_ne] at hch
  exact ⟨hch.1.1, hch.1.2, hch.2⟩

theorem Plain.append {text text' : Text} (h : Plain text) (h' : Plain text') : Plain (text ++ text') := by
  intro ch hc
  rcases List.mem_append.mp hc with hc | hc
  · exact h ch hc
  · exact h' ch hc

theorem Plain.not_mem {text : Text} (h : Plain text) : 10 ∉ text ∧ 13 ∉ text ∧ 62 ∉ text :=
  ⟨fun hm => absurd (h _ hm).1 (by decide), fun hm => absurd (h _ hm).1 (by decide), fun hm => (h _ hm).2.2 rfl⟩

theorem chars_decimal (n : Nat) : chars (decimal n) = Nat.toDigits 10 n := map_decimal n

theorem chars_signedDecimal (n : Int) : chars (signedDecimal n) = ofInt n := by
  rw [signedDecimal, ofInt]
  split
  · exact congrArg _ (chars_decimal _)
  · exact chars_decimal _

theorem plain_of_isXDigit {ch : Byte} (h : isXDigit ch = true) : 32 < ch ∧ ch < 0x80 ∧ ch ≠ 62 := by
  simp only [isXDigit, isDigit, Bool.or_eq_true, Bool.and_eq_true, decide_eq_true_eq, UInt8.le_iff_toNat_le] at h
  have hbounds : 48 ≤ ch.toNat ∧ ch.toNat ≤ 102 ∧ ch.toNat ≠ 62 := by
    rcases h with (⟨hlow, hhigh⟩ | ⟨hlow, hhigh⟩) | ⟨hlow, hhigh⟩
    · have hlow' : 48 ≤ ch.toNat := hlow
      have hhigh' : ch.toNat ≤ 57 := hhigh
      omega
    · have hlow' : 65 ≤ ch.toNat := hlow
      have hhigh' : ch.toNat ≤ 70 := hhigh
      omega
    · have hlow' : 97 ≤ ch.toNat := hlow
      have hhigh' : ch.toNat ≤ 102 := hhigh
      omega
  refine ⟨UInt8.lt_iff_toNat_lt.mpr ?_, UInt8.lt_iff_toNat_lt.mpr ?_, fun he => hbounds.2.2 (congrArg UInt8.toNat he)⟩
  · exact Nat.lt_of_lt_of_le (by decide) hbounds.1
  · exact Nat.lt_of_le_of_lt hbounds.2.1 (by decide)

theorem plain_decimal (n : Nat) : Plain (decimal n) := by
  intro ch hc
  have hdigit := isDigit_of_mem_decimal hc
  exact plain_of_isXDigit (by simp [isXDigit, hdigit])

theorem plain_signedDecimal (n : Int) : Plain (signedDecimal n) := by
  rw [signedDecimal]
  split
  · intro ch hc
    rcases List.mem_cons.mp hc with rfl | hc
    · decide
    · exact plain_decimal _ ch hc
  · exact plain_decimal _

namespace Report

variable (r : Report)

/-- What stands before the name. -/
def front : Text := ascii "+IND=SCDA," ++ decimal r.index ++ ascii "," ++ r.mac ++ ascii ","

/-- What stands behind it. -/
def back : Text := ascii "," ++ decimal r.addrType ++ ascii "," ++ signedDecimal r.rssi

theorem plain_comma : Plain (ascii ",") := plain_of_all (by decide)

theorem plain_mac : Plain r.mac := by
  intro ch hc
  rcases r.mac_text ch hc with hx | rfl
  · exact plain_of_isXDigit hx
  · decide

theorem comma_not_mem_mac : ',' ∉ chars r.mac := by
  rw [← decode_ascii fun b hb => (r.plain_mac b hb).2.1, comma_mem_decode]
  intro hm
  rcases r.mac_text 44 hm with hx | he
  · cases hx
  · cases he

theorem plain_front : Plain r.front := by
  have hstart : Plain (ascii "+IND=SCDA,") := plain_of_all (by decide)
  exact (((hstart.append (plain_decimal _)).append plain_comma).append r.plain_mac).append plain_comma

theorem plain_back : Plain r.back :=
  ((plain_comma.append (plain_decimal _)).append plain_comma).append (plain_signedDecimal _)

/-- The buffer of the firmware is long enough. -/
theorem line_eq : r.line = r.front ++ (r.name ++ r.back) := by
  have hmac : r.mac.length < BT_ADDR_LE_STR_LEN := by
    rw [r.mac_length]
    decide
  have hkeeps := scanResult_keeps r.index_lt hmac r.name_length r.addrType_lt r.rssi_range
  have hwhole : r.line = snprintk 128 (scanResultText r.index r.mac r.name r.addrType r.rssi) := by
    rw [scanResultText_eq]
    rfl
  have htext : scanResultText r.index r.mac r.name r.addrType r.rssi = r.front ++ (r.name ++ r.back) := by
    simp [scanResultText_eq, front, back]
  rw [hwhole, scanResultText, snprintk_line (by decide) hkeeps]
  exact htext

theorem decode_line : decode r.line = eventLine r.record := by
  have hfront : ∀ b ∈ r.front, b < 0x80 := fun b hb => (r.plain_front b hb).2.1
  have hback : ∀ b ∈ r.back, b < 0x80 := fun b hb => (r.plain_back b hb).2.1
  have hname : decode (r.name ++ r.back) = decode r.name ++ chars r.back := by
    have hcomma : r.back = 44 :: (decimal r.addrType ++ ascii "," ++ signedDecimal r.rssi) := by
      simp [back, ascii]
    rw [← decode_ascii hback, hcomma, decode_append_ascii _ (by decide), decode_cons_ascii (by decide)]
  rw [line_eq, decode_ascii_append hfront, hname]
  have hnat : ∀ n : Nat, ofInt (n : Int) = Nat.toDigits 10 n := fun n => if_neg (by omega)
  have hmap : ∀ text text' : Text, chars (text ++ text') = chars text ++ chars text' := fun _ _ => List.map_append
  have hstart : chars (ascii "+IND=SCDA,") = str "+IND=SCDA," := by decide
  have hcomma : chars (ascii ",") = str "," := by decide
  simp only [eventLine, record, front, back, hmap, chars_decimal, chars_signedDecimal, hnat, hstart, hcomma,
    List.append_assoc]

end Report

/-! ## Taking the line apart -/

theorem digits_no_comma {n : Int} : ',' ∉ ofInt n := by
  intro h
  rcases ofInt_chars h with he | hd
  · cases he
  · cases hd

theorem parse_eventLine {result : ScanResult} (hmac : ',' ∉ result.mac) (hname : ',' ∉ result.name) :
    parseScanResult (eventLine result) = some result := by
  obtain ⟨index, mac, name, addrType, rssi⟩ := result
  have hline : eventLine ⟨index, mac, name, addrType, rssi⟩ =
      str "+IND" ++ '=' :: (str "SCDA" ++ ',' :: (ofInt index ++ ',' :: (mac ++ ',' :: (name ++ ',' ::
        (ofInt addrType ++ ',' :: ofInt rssi))))) := by
    simp [eventLine, str]
  have hind : '=' ∉ str "+IND" := by decide
  have hscda : ',' ∉ str "SCDA" := by decide
  rw [parseScanResult, hline, split_append hind, split]
  dsimp only
  rw [split_append hscda, split_append digits_no_comma, split_append hmac, split_append hname,
    split_append digits_no_comma, split]
  simp [toInt_ofInt]

/-- A record of `scan` has no comma in its name. -/
theorem parseScanResult_name {line : Str} {result : ScanResult} (h : parseScanResult line = some result) :
    ',' ∉ result.name := by
  unfold parseScanResult at h
  split at h
  · rename_i first payload _
    have hfields : ∀ field ∈ (split ',' 5 payload).dropLast, ',' ∉ field := split_dropLast 5 payload
    split at h
    · rename_i head index mac name addrType rssi hsplit
      rw [hsplit] at hfields
      have hname : ',' ∉ name := hfields name (by simp)
      cases hi : toInt index with
      | none => simp [hi] at h
      | some i =>
          cases ht : toInt addrType with
          | none => simp [hi, ht] at h
          | some t =>
              cases hr : toInt rssi with
              | none => simp [hi, ht, hr] at h
              | some v =>
                  simp only [hi, ht, hr, Option.bind_eq_bind, Option.bind_some, Option.some.injEq] at h
                  rw [← h]
                  exact hname
    · cases h
  · cases h

/-! ## The lines that arrive -/

theorem scanWanted_eventLine (result : ScanResult) : scanWanted (eventLine result) = true := by
  have hprefix : str "+IND=SCDA" <+: eventLine result := by
    have hstart : str "+IND=SCDA" <+: str "+IND=SCDA," := ⟨str ",", rfl⟩
    simp only [eventLine, List.append_assoc]
    exact hstart.trans (List.prefix_append _ _)
  rw [scanWanted, startsWith, List.isPrefixOf_iff_prefix.mpr hprefix, Bool.true_or]

theorem eventLine_ne_complete (result : ScanResult) : eventLine result ≠ str "+IND=SCED" := by
  intro h
  have hfifth := congrArg (fun s : Str => s[7]?) h
  simp [eventLine, str] at hfifth

/-- The line neither begins nor ends with a space. -/
theorem eventLine_ends (result : ScanResult) :
    ∃ middle last, eventLine result = '+' :: (middle ++ [last]) ∧ isSpaceChar last = false := by
  have hne : ofInt result.rssi ≠ [] := by
    unfold ofInt
    split
    · simp
    · exact Nat.toDigits_ne_nil
  obtain ⟨middle, last, hlast⟩ : ∃ middle last, ofInt result.rssi = middle ++ [last] :=
    ⟨_, _, (List.dropLast_append_getLast hne).symm⟩
  refine ⟨str "IND=SCDA," ++ ofInt result.index ++ str "," ++ result.mac ++ str "," ++ result.name ++ str "," ++
    ofInt result.addrType ++ str "," ++ middle, last, ?_, ?_⟩
  · rw [eventLine, hlast]
    simp [str]
  · exact not_space_of_number (ofInt_chars (hlast ▸ List.mem_append_right _ List.mem_cons_self))

section
variable {c : Client} (r : Report)

theorem Report.front_head : r.front.head? = some 43 := by simp [front, ascii]

theorem feed_unbroken (hb : c.lineBuffer = []) (h : Unbroken r.name) :
    c.processControlBytes (r.line ++ [13, 10]) = c.withLines [] [eventLine r.record] := by
  obtain ⟨middle, last, hline, hlast⟩ := eventLine_ends r.record
  obtain ⟨hf10, hf13, -⟩ := r.plain_front.not_mem
  obtain ⟨hb10, hb13, -⟩ := r.plain_back.not_mem
  have hhead : r.line.head? ≠ some 62 := by
    rw [r.line_eq, List.head?_append, r.front_head, Option.some_or]
    decide
  have hlf : 10 ∉ r.line := by simp [r.line_eq, hf10, h.1, hb10]
  have hcr : 13 ∉ r.line := by simp [r.line_eq, hf13, h.2, hb13]
  have hdecode := r.decode_line.trans hline
  rw [processControlBytes_line hb hhead hlf hcr hdecode (by decide) hlast, hline]

/-- The first line end in a name. -/
theorem exists_first_end {name : Text} (h : ¬Unbroken name) :
    ∃ before ch after, name = before ++ ch :: after ∧ (ch = 10 ∨ ch = 13) ∧ 10 ∉ before ∧ 13 ∉ before := by
  induction name with
  | nil => exact absurd ⟨List.not_mem_nil, List.not_mem_nil⟩ h
  | cons ch name ih =>
      by_cases he : ch = 10 ∨ ch = 13
      · exact ⟨[], ch, name, rfl, he, List.not_mem_nil, List.not_mem_nil⟩
      · obtain ⟨hlf, hcr⟩ := not_or.mp he
        have hrest : ¬Unbroken name := by
          intro hu
          exact h ⟨List.not_mem_cons_of_ne_of_not_mem (Ne.symm hlf) hu.1,
            List.not_mem_cons_of_ne_of_not_mem (Ne.symm hcr) hu.2⟩
        obtain ⟨before, e, after, rfl, hend, hb10, hb13⟩ := ih hrest
        exact ⟨ch :: before, e, after, rfl, hend, List.not_mem_cons_of_ne_of_not_mem (Ne.symm hlf) hb10,
          List.not_mem_cons_of_ne_of_not_mem (Ne.symm hcr) hb13⟩

/-- A broken line makes two lines at least: one before the first line end and one that holds the comma behind the
name. -/
theorem feed_broken (hb : c.lineBuffer = []) (h : ¬Unbroken r.name) :
    (c.processControlBytes (r.line ++ [13, 10])).lineBuffer = [] ∧
      c.lineQueue.length + 2 ≤ (c.processControlBytes (r.line ++ [13, 10])).lineQueue.length := by
  obtain ⟨before, ch, after, hname, hend, hb10, hb13⟩ := exists_first_end h
  obtain ⟨hf10, hf13, -⟩ := r.plain_front.not_mem
  obtain ⟨hk10, hk13, hk62⟩ := r.plain_back.not_mem
  have hbytes : r.line ++ [13, 10] = (r.front ++ before) ++ (ch :: (after ++ (r.back ++ [13, 10]))) := by
    simp [r.line_eq, hname]
  have hhead : (r.front ++ before).head? ≠ some 62 := by
    rw [List.head?_append, r.front_head, Option.some_or]
    decide
  have hkeep : c.processControlBytes (r.front ++ before) = c.withLines (r.front ++ before) [] := by
    have hk := processControlBytes_keep (.inr hhead) (by simp [hf10, hb10]) (by simp [hf13, hb13]) (c := c)
    rw [hk, hb, List.nil_append]
  have hplus : (43 : Byte) ∈ (c.withLines (r.front ++ before) []).lineBuffer :=
    List.mem_append_left _ (List.mem_of_mem_head? r.front_head)
  obtain ⟨first, hfirst⟩ := processControlByte_emits hend hplus (by decide) (by decide)
  -- what is left of the name may make lines, but takes none back
  have hgrows := lineQueue_processControlBytes ((c.withLines (r.front ++ before) []).withLines [] [first]) after
  rcases hd : ((c.withLines (r.front ++ before) []).withLines [] [first]).processControlBytes after with d
  rw [hd] at hgrows
  have hback : d.processControlBytes r.back = d.withLines (d.lineBuffer ++ r.back) [] := by
    refine processControlBytes_keep (.inr ?_) hk10 hk13
    intro h62
    exact hk62 (List.mem_of_mem_head? h62)
  have hcomma : (44 : Byte) ∈ (d.withLines (d.lineBuffer ++ r.back) []).lineBuffer := by
    simp [Report.back, ascii]
  obtain ⟨second, hsecond⟩ := processControlByte_emits (.inr rfl : (13 : Byte) = 10 ∨ (13 : Byte) = 13) hcomma
    (by decide) (by decide)
  have hall : c.processControlBytes (r.line ++ [13, 10]) = (d.withLines (d.lineBuffer ++ r.back) []).withLines [] [second] := by
    rw [hbytes, processControlBytes_append, hkeep, processControlBytes_cons, hfirst, processControlBytes_append, hd,
      processControlBytes_append, hback, processControlBytes_cons, hsecond, processControlBytes_cons,
      processControlByte_lineFeed rfl, processControlBytes_nil]
  have hlen := hgrows.length_le
  rw [hall]
  refine ⟨rfl, ?_⟩
  simp only [withLines_lineQueue, List.length_append, List.length_cons, List.length_nil] at hlen ⊢
  omega

end

/-- The lines of the reports, each with its end. -/
def reportBytes (reports : List Report) : List Byte := (reports.map fun r => r.line ++ [13, 10]).flatten

theorem feed_all_unbroken {c : Client} (hb : c.lineBuffer = []) {reports : List Report}
    (h : ∀ r ∈ reports, Unbroken r.name) :
    c.processControlBytes (reportBytes reports) = c.withLines [] (reports.map fun r => eventLine r.record) := by
  induction reports generalizing c with
  | nil =>
      rw [List.map_nil, ← hb, withLines_self]
      rfl
  | cons r reports ih =>
      have hfirst := feed_unbroken r hb (h r List.mem_cons_self)
      have hrest := ih (withLines_lineBuffer (c := c) [] [eventLine r.record]) fun r' hr' => h r' (List.mem_cons_of_mem _ hr')
      have hbytes : reportBytes (r :: reports) = (r.line ++ [13, 10]) ++ reportBytes reports := rfl
      rw [hbytes, processControlBytes_append, hfirst, hrest, withLines_withLines]
      rfl

/-- As many lines at least as reports, and more if one is broken. -/
theorem feed_all {c : Client} (hb : c.lineBuffer = []) (reports : List Report) :
    (c.processControlBytes (reportBytes reports)).lineBuffer = [] ∧
      c.lineQueue.length + reports.length ≤ (c.processControlBytes (reportBytes reports)).lineQueue.length ∧
      ((∃ r ∈ reports, ¬Unbroken r.name) →
        c.lineQueue.length + reports.length < (c.processControlBytes (reportBytes reports)).lineQueue.length) := by
  induction reports generalizing c with
  | nil =>
      refine ⟨hb, Nat.le_refl _, ?_⟩
      rintro ⟨r, hr, -⟩
      cases hr
  | cons r reports ih =>
      have hbytes : reportBytes (r :: reports) = (r.line ++ [13, 10]) ++ reportBytes reports := rfl
      rw [hbytes, processControlBytes_append, List.length_cons]
      by_cases hu : Unbroken r.name
      · rw [feed_unbroken r hb hu]
        obtain ⟨hbuffer, hle, hlt⟩ := ih (withLines_lineBuffer (c := c) [] [eventLine r.record])
        rw [withLines_lineQueue, List.length_append, List.length_singleton] at hle hlt
        refine ⟨hbuffer, by omega, ?_⟩
        rintro ⟨r', hr', hbroken⟩
        rcases List.mem_cons.mp hr' with rfl | hmem
        · exact absurd hu hbroken
        · have hlt' := hlt ⟨r', hmem, hbroken⟩
          omega
      · obtain ⟨hb', hlen⟩ := feed_broken r hb hu
        obtain ⟨hbuffer, hle, -⟩ := ih hb'
        exact ⟨hbuffer, by omega, fun _ => by omega⟩

theorem feed_complete {c : Client} (hb : c.lineBuffer = []) :
    c.processControlBytes (scanCompleteLine ++ [13, 10]) = c.withLines [] [str "+IND=SCED"] := by
  have hline : str "+IND=SCED" = '+' :: (str "IND=SCE" ++ ['D']) := by decide
  have hdecode : decode scanCompleteLine = '+' :: (str "IND=SCE" ++ ['D']) := by decide
  rw [processControlBytes_line hb (by decide) (by decide) (by decide) hdecode (by decide) (by decide), hline]

theorem received_eq (c : Client) (reports : List Report) :
    received c reports =
      ({ c with lineBuffer := [], lineQueue := [] }.processControlBytes (reportBytes reports)).withLines []
        [str "+IND=SCED"] := by
  have hbytes : Lines.join 13 10 (reports.map Report.line ++ [scanCompleteLine]) =
      reportBytes reports ++ (scanCompleteLine ++ [13, 10]) := by
    simp [Lines.join, reportBytes, Function.comp_def]
  obtain ⟨hbuffer, -⟩ := feed_all (c := { c with lineBuffer := [], lineQueue := [] }) rfl reports
  rw [received, hbytes, processControlBytes_append, feed_complete hbuffer]

/-! ## What `scan` makes of them -/

theorem gather_records {results : List ScanResult} (hparse : ∀ result ∈ results, parseScanResult (eventLine result) = some result)
    (hnodup : results.Nodup) {found : List ScanResult × List Str} (hseen : ∀ result ∈ results, eventLine result ∉ found.2) :
    gather (results.map eventLine ++ [str "+IND=SCED"]) found = some (.ok (found.1 ++ results)) := by
  induction results generalizing found with
  | nil =>
      have hwanted : scanWanted (str "+IND=SCED") = true := by decide
      simp [gather, hwanted]
  | cons result results ih =>
      obtain ⟨hnew, hrest⟩ := List.nodup_cons.mp hnodup
      have hp := hparse result List.mem_cons_self
      have hne := eventLine_ne_complete result
      have hns := hseen result List.mem_cons_self
      rw [List.map_cons, List.cons_append, gather]
      simp only [scanWanted_eventLine, Bool.not_true, Bool.false_eq_true, if_false, hne, hns, hp]
      have hfresh : ∀ r ∈ results, eventLine r ∉ (found.1 ++ [result], eventLine result :: found.2).2 := by
        intro r hr hmem
        rcases List.mem_cons.mp hmem with he | hmem
        · -- the line determines its record
          have hsame : some r = some result := by
            rw [← hparse r (List.mem_cons_of_mem _ hr), he, hp]
          cases hsame
          exact hnew hr
        · exact hseen r (List.mem_cons_of_mem _ hr) hmem
      rw [ih (fun r hr => hparse r (List.mem_cons_of_mem _ hr)) hrest hfresh, List.append_assoc]
      rfl

/-- The lines that became results, each once. -/
theorem gather_ok {lines : List Str} {found : List ScanResult × List Str} {out : List ScanResult}
    (h : gather lines found = some (.ok out)) :
    ∃ (used : List Str) (new : List ScanResult), out = found.1 ++ new ∧ used.map parseScanResult = new.map some ∧
      used.Sublist lines ∧ used.Nodup ∧ ∀ line ∈ used, line ∉ found.2 ∧ line ≠ str "+IND=SCED" := by
  induction lines generalizing found with
  | nil => cases h
  | cons line lines ih =>
      obtain ⟨results, seen⟩ := found
      simp only [gather] at h
      split at h
      · obtain ⟨used, new, hout, hparse, hsub, hnodup, hused⟩ := ih h
        exact ⟨used, new, hout, hparse, hsub.cons _, hnodup, hused⟩
      · split at h
        · cases h
          exact ⟨[], [], (List.append_nil _).symm, rfl, List.nil_sublist _, List.nodup_nil, by simp⟩
        · rename_i hne
          split at h
          · obtain ⟨used, new, hout, hparse, hsub, hnodup, hused⟩ := ih h
            exact ⟨used, new, hout, hparse, hsub.cons _, hnodup, hused⟩
          · rename_i hseen
            cases hp : parseScanResult line with
            | none => simp [hp] at h
            | some result =>
                rw [hp] at h
                obtain ⟨used, new, hout, hparse, hsub, hnodup, hused⟩ := ih h
                refine ⟨line :: used, result :: new, ?_, ?_, hsub.cons_cons _, ?_, ?_⟩
                · rw [hout, List.append_assoc]
                  rfl
                · rw [List.map_cons, List.map_cons, hp, hparse]
                · exact List.nodup_cons.mpr ⟨fun hm => (hused line hm).1 List.mem_cons_self, hnodup⟩
                · intro l hl
                  rcases List.mem_cons.mp hl with rfl | hl
                  · exact ⟨hseen, hne⟩
                  · exact ⟨fun hm => (hused l hl).1 (List.mem_cons_of_mem _ hm), (hused l hl).2⟩

/-- The scan ends with the line that says so. -/
theorem gather_complete (lines : List Str) (found : List ScanResult × List Str) :
    ∃ r, gather (lines ++ [str "+IND=SCED"]) found = some r := by
  induction lines generalizing found with
  | nil =>
      have hwanted : scanWanted (str "+IND=SCED") = true := by decide
      exact ⟨.ok found.1, by simp [gather, hwanted]⟩
  | cons line lines ih =>
      obtain ⟨results, seen⟩ := found
      rw [List.cons_append]
      simp only [gather]
      split
      · exact ih _
      · split
        · exact ⟨_, rfl⟩
        · split
          · exact ih _
          · cases parseScanResult line with
            | none => exact ⟨_, rfl⟩
            | some result => exact ih _

/-- The queue decides whether the scan returns the records. -/
theorem Survives.gather {c : Client} {reports : List Report} (h : Survives c reports) :
    Client.gather (received c reports).lineQueue ([], []) = some (.ok (reports.map Report.record)) := by
  obtain ⟨n, hrecords⟩ := h.records
  obtain ⟨r, hr⟩ := gather_complete
    ({ c with lineBuffer := [], lineQueue := [] }.processControlBytes (reportBytes reports)).lineQueue ([], [])
  rw [← withLines_lineQueue [] [str "+IND=SCED"], ← received_eq] at hr
  -- a clock that stands still
  let ws := List.replicate (max n (5 * (received c reports).lineQueue.length + 2)) (⟨0, false, 0⟩ : Choice)
  have hnow : ∀ w ∈ ws, w.now = 0 := fun w hw => by rw [List.eq_of_mem_replicate hw]
  have htime : InTime 1 ws := fun w hw w' hw' => by
    rw [hnow w hw, hnow w' hw']
    decide
  have hlen : ws.length = max n (5 * (received c reports).lineQueue.length + 2) := List.length_replicate
  have hrun := hrecords 1 ws (by omega) htime
  rw [turns_gather hr (by omega) htime] at hrun
  rw [hr]
  cases r with
  | ok out =>
      cases hrun
      rfl
  | error e => cases hrun

theorem survives_of_gather {c : Client} {reports : List Report}
    (hlines : (received c reports).lineQueue.length = reports.length + 1)
    (h : Client.gather (received c reports).lineQueue ([], []) = some (.ok (reports.map Report.record))) :
    Survives c reports :=
  ⟨hlines, _, fun _ _ hlen htime => turns_gather h hlen htime⟩

theorem lineQueue_received {c : Client} {reports : List Report} (h : ∀ r ∈ reports, Unbroken r.name) :
    (received c reports).lineQueue = (reports.map Report.record).map eventLine ++ [str "+IND=SCED"] := by
  rw [received_eq, feed_all_unbroken rfl h, withLines_withLines, withLines_lineQueue, List.map_map]
  rfl

/-- Scan results arrive exactly if no name holds a comma or a line end and no two results read the same. -/
theorem scan_results_survive_iff (c : Client) (reports : List Report) :
    Survives c reports ↔
      (∀ r ∈ reports, 44 ∉ r.name ∧ 13 ∉ r.name ∧ 10 ∉ r.name) ∧ (reports.map Report.record).Nodup := by
  constructor
  · intro h
    have hgather := h.gather
    have hunbroken : ∀ r ∈ reports, Unbroken r.name := by
      by_contra hn
      push Not at hn
      obtain ⟨-, -, hlt⟩ := feed_all (c := { c with lineBuffer := [], lineQueue := [] }) rfl reports
      have hmore := hlt hn
      have hlines := h.lines
      rw [received_eq, withLines_lineQueue, List.length_append, List.length_singleton] at hlines
      simp only [List.length_nil] at hmore
      omega
    obtain ⟨used, new, hout, hparse, hsub, hnodup, hused⟩ := gather_ok hgather
    rw [List.nil_append] at hout
    subst hout
    rw [lineQueue_received hunbroken] at hsub
    refine ⟨fun r hr => ?_, ?_⟩
    · have hmem : some r.record ∈ used.map parseScanResult := by
        rw [hparse]
        exact List.mem_map_of_mem (List.mem_map_of_mem hr)
      obtain ⟨line, -, hline⟩ := List.mem_map.mp hmem
      have hname : ',' ∉ decode r.name := parseScanResult_name hline
      exact ⟨fun h44 => hname (comma_mem_decode.mpr h44), (hunbroken r hr).2, (hunbroken r hr).1⟩
    · -- every line was used
      have hlen : used.length = (reports.map Report.record).length := by
        simpa using congrArg List.length hparse
      obtain ⟨before, last, rfl, hbefore, hlast⟩ := List.sublist_append_iff.mp hsub
      have hnil : last = [] := by
        rcases List.sublist_singleton.mp hlast with rfl | rfl
        · rfl
        · exact absurd rfl (hused (str "+IND=SCED") (by simp)).2
      rw [hnil, List.append_nil] at hlen hnodup
      have hall : before = (reports.map Report.record).map eventLine :=
        hbefore.eq_of_length (by rw [hlen, List.length_map, List.length_map, List.length_map])
      rw [hall] at hnodup
      exact hnodup.of_map
  · rintro ⟨hnames, hnodup⟩
    have hunbroken : ∀ r ∈ reports, Unbroken r.name := fun r hr => ⟨(hnames r hr).2.2, (hnames r hr).2.1⟩
    have hqueue := lineQueue_received (c := c) hunbroken
    have hparse : ∀ result ∈ reports.map Report.record, parseScanResult (eventLine result) = some result := by
      intro result hresult
      obtain ⟨r, hr, rfl⟩ := List.mem_map.mp hresult
      exact parse_eventLine r.comma_not_mem_mac fun hname => (hnames r hr).1 (comma_mem_decode.mp hname)
    refine survives_of_gather ?_ ?_
    · rw [hqueue]
      simp
    · rw [hqueue, gather_records hparse hnodup fun _ _ => List.not_mem_nil]
      rfl

theorem mac_text_of_all {mac : Text} (h : mac.all (fun ch => isXDigit ch || ch == 58) = true) :
    ∀ ch ∈ mac, isXDigit ch = true ∨ ch = 58 := by
  intro ch hc
  simpa using List.all_eq_true.mp h ch hc

/-- A device that calls itself `a,b`. -/
def commaReport : Report :=
  ⟨0, ascii "06:05:04:03:02:01", ascii "a,b", 0, -60, by decide, by decide, mac_text_of_all (by decide), by decide,
    by decide, by decide, by decide⟩

/-- Its line makes `scan` raise. -/
theorem comma_in_name_raises :
    ¬Survives .init [commaReport] ∧
      ∀ timeout ws, 12 ≤ ws.length → InTime timeout ws →
        (turns (received .init [commaReport], scanResults timeout ([], [])) ws).2 = .raise .valueError := by
  have hgather : gather (received .init [commaReport]).lineQueue ([], []) = some (.error .valueError) := by decide
  refine ⟨fun h => ?_, fun timeout ws hlen htime => turns_gather hgather hlen htime⟩
  rw [h.gather] at hgather
  cases hgather

end BleAtHost.Client
