import BleAtHost.Main.Actions
import BleAtHost.Client.Theorems.ScanResults

/-!
# Notifications on their way to the client

The firmware writes a printable payload into its line as it is, and the client takes the spaces at the end of a line
away.
-/

namespace BleAtHost.Client

open Main

/-- What `at_host_notify_receive` formats. -/
def receiveLine (payload : List Byte) : Text :=
  ascii "+IND=RECV,0," ++ decimal payload.length ++ ascii "," ++ payload

/-- The event that the client should make of it. -/
def receiveEvent (payload : List Byte) : Str :=
  str "+IND=RECV,0," ++ ofInt payload.length ++ str "," ++ chars payload

structure Notified (s : App) (payload : List Byte) : Prop where
  /-- The firmware does not truncate the line. -/
  line : profilePayloadReceived s payload = queueCtrlLine (countPayload s payload) (receiveLine payload)
  /-- It is one event, wherever the stream is cut. -/
  event : ∀ (c : Client) (chunks : List (List Byte)), c.lineBuffer = [] →
    chunks.flatten = receiveLine payload ++ newline →
      chunks.foldl processControlBytes c = c.withLines [] [receiveEvent payload]

theorem foldl_processControlBytes (c : Client) (chunks : List (List Byte)) :
    chunks.foldl processControlBytes c = c.processControlBytes chunks.flatten := List.foldl_flatten.symm

/-- The fields of the event; the text behind the third comma is the payload. -/
theorem split_receiveEvent (payload : List Byte) :
    split ',' 3 (receiveEvent payload) = [str "+IND=RECV", str "0", ofInt payload.length, chars payload] := by
  have hevent : receiveEvent payload =
      str "+IND=RECV" ++ ',' :: (str "0" ++ ',' :: (ofInt payload.length ++ ',' :: chars payload)) := by
    simp [receiveEvent, str]
  rw [hevent, split_append (by decide), split_append (by decide), split_append digits_no_comma, split]

section
variable {payload : List Byte}

theorem printable_bounds (h : bleHostIsPrintableAscii payload = true) {b : Byte} (hb : b ∈ payload) :
    32 ≤ b.toNat ∧ b.toNat ≤ 126 := by
  have hall := List.all_eq_true.mp h b hb
  simp only [Bool.and_eq_true, decide_eq_true_eq, UInt8.le_iff_toNat_le] at hall
  exact hall

theorem toNat_charOf {b : Byte} (h : b.toNat ≤ 126) : (charOf b).toNat = b.toNat :=
  toNat_ofNat_of_valid (.inl (by omega))

theorem receiveLine_bounds (h : bleHostIsPrintableAscii payload = true) {b : Byte} (hb : b ∈ receiveLine payload) :
    32 ≤ b ∧ b < 0x80 := by
  have hstart : Plain (ascii "+IND=RECV,0," ++ decimal payload.length ++ ascii ",") :=
    ((plain_of_all (by decide)).append (plain_decimal _)).append (plain_of_all (by decide))
  rcases List.mem_append.mp hb with hb | hb
  · exact ⟨UInt8.le_of_lt (hstart b hb).1, (hstart b hb).2.1⟩
  · obtain ⟨hlow, hhigh⟩ := printable_bounds h hb
    exact ⟨UInt8.le_iff_toNat_le.mpr hlow, UInt8.lt_iff_toNat_lt.mpr (Nat.lt_of_le_of_lt hhigh (by decide))⟩

/-- The fields of the line. -/
def receiveFormat : List (Tagged.Field Byte) := [⟨ascii "+IND=RECV,0,", 3⟩, ⟨ascii ",", 256⟩]

theorem receiveLine_eq (payload : List Byte) :
    receiveLine payload = Tagged.line receiveFormat [decimal payload.length, payload] := by
  simp [receiveLine, receiveFormat, Tagged.line]

/-- The largest payload fits the buffer of the line. -/
theorem profilePayloadReceived_line {s : App} (hmode : s.appState ≠ .dataMode)
    (hlen : payload.length ≤ BLE_HOST_SEND_MAX_LEN) (h : bleHostIsPrintableAscii payload = true) :
    profilePayloadReceived s payload = queueCtrlLine (countPayload s payload) (receiveLine payload) := by
  have hdecimal : (decimal payload.length).length ≤ 3 :=
    length_decimal (by decide) (Nat.lt_of_le_of_lt hlen (by decide))
  have hfits : snprintk (BLE_HOST_SEND_MAX_LEN + 32) (receiveLine payload) = receiveLine payload := by
    rw [receiveLine_eq]
    exact snprintk_line (by decide) (.cons hdecimal (.cons hlen .nil))
  have hshown : ¬((!bleHostIsPrintableAscii payload || decide (BLE_HOST_SEND_MAX_LEN < payload.length)) = true) := by
    simp [h, hlen]
  have hcall : profilePayloadReceived s payload = atHostNotifyReceive (countPayload s payload) payload := if_neg hmode
  rw [hcall, atHostNotifyReceive, if_neg hshown]
  exact congrArg _ hfits

theorem decode_receiveLine (h : bleHostIsPrintableAscii payload = true) :
    decode (receiveLine payload) = receiveEvent payload := by
  have hnat : ofInt (payload.length : Int) = Nat.toDigits 10 payload.length := if_neg (by omega)
  have hmap : ∀ text text' : Text, chars (text ++ text') = chars text ++ chars text' := fun _ _ => List.map_append
  have hstart : chars (ascii "+IND=RECV,0,") = str "+IND=RECV,0," := by decide
  have hcomma : chars (ascii ",") = str "," := by decide
  rw [decode_ascii fun b hb => (receiveLine_bounds h hb).2]
  simp only [receiveLine, receiveEvent, hmap, chars_decimal, hnat, hstart, hcomma]

theorem receiveLine_unbroken (h : bleHostIsPrintableAscii payload = true) :
    (receiveLine payload).head? ≠ some 62 ∧ 10 ∉ receiveLine payload ∧ 13 ∉ receiveLine payload := by
  refine ⟨by simp [receiveLine, ascii], fun hm => ?_, fun hm => ?_⟩
  · exact absurd (receiveLine_bounds h hm).1 (by decide)
  · exact absurd (receiveLine_bounds h hm).1 (by decide)

/-- The event that comes out, whatever the payload ends in. -/
theorem feed_receiveLine (h : bleHostIsPrintableAscii payload = true) {c : Client} (hb : c.lineBuffer = []) :
    c.processControlBytes (receiveLine payload ++ newline) =
      c.withLines [] [strip (receiveEvent payload ++ ['\r'])] := by
  obtain ⟨hhead, hlf, hcr⟩ := receiveLine_unbroken h
  have hkeep := processControlBytes_keep (.inr hhead) hlf hcr (c := c)
  rw [hb, List.nil_append] at hkeep
  have hdecode : decode (receiveLine payload ++ [13]) = receiveEvent payload ++ ['\r'] := by
    rw [decode_append_ascii _ (by decide), decode_receiveLine h]
    rfl
  have hplus : '+' ∈ receiveEvent payload ++ ['\r'] := by simp [receiveEvent, str]
  have hline : strip (receiveEvent payload ++ ['\r']) ≠ [] := stripBy_ne_nil hplus (by decide)
  have hnewline : newline = [13, 10] := rfl
  rw [hnewline, processControlBytes_append, hkeep, processControlBytes_cons, processControlByte_end (.inr rfl),
    withLines_lineBuffer, hdecode, if_neg hline, processControlBytes_cons, processControlByte_lineFeed rfl,
    processControlBytes_nil, withLines_withLines, List.nil_append]

/-- Of the printable characters `strip` takes only the space away. -/
theorem isSpaceChar_charOf {b : Byte} (hb : 32 ≤ b.toNat ∧ b.toNat ≤ 126) :
    isSpaceChar (charOf b) = true ↔ b = 32 := by
  have h32 : (32 : Byte).toNat = 32 := rfl
  rw [← UInt8.toNat_inj, h32, isSpaceChar, toNat_charOf hb.2]
  simp
  omega

theorem strip_receiveEvent_iff (h : bleHostIsPrintableAscii payload = true) (hne : payload ≠ []) :
    strip (receiveEvent payload ++ ['\r']) = receiveEvent payload ↔ payload.getLast? ≠ some 32 := by
  obtain ⟨front, b, rfl⟩ : ∃ front b, payload = front ++ [b] := ⟨_, _, (List.dropLast_append_getLast hne).symm⟩
  have hspace := isSpaceChar_charOf (printable_bounds h (List.mem_append_right _ List.mem_cons_self))
  obtain ⟨middle, hevent⟩ : ∃ middle, receiveEvent (front ++ [b]) = '+' :: (middle ++ [charOf b]) :=
    ⟨str "IND=RECV,0," ++ ofInt (front ++ [b]).length ++ str "," ++ chars front, by simp [receiveEvent, chars, str]⟩
  rw [hevent, List.getLast?_concat, ne_eq, Option.some.injEq, ← hspace]
  constructor
  · intro hstrip htrue
    have hlast : charOf b ∈ (strip ('+' :: (middle ++ [charOf b]) ++ ['\r'])).getLast? := by
      rw [hstrip, ← List.cons_append, List.getLast?_concat]
      rfl
    rw [stripBy_getLast hlast] at htrue
    cases htrue
  · intro hfalse
    have hcr : ∀ ch ∈ ['\r'], isSpaceChar ch = true := by
      intro ch hch
      rw [List.mem_singleton.mp hch]
      decide
    have hbytes : '+' :: (middle ++ [charOf b]) ++ ['\r'] = '+' :: (middle ++ charOf b :: ['\r']) := by simp
    rw [hbytes]
    exact stripBy_eq (by decide) (Bool.eq_false_iff.mpr hfalse) hcr

end

/-- A printable notification arrives as it was sent exactly if it does not end in a space. -/
theorem notified_iff {s : App} (hmode : s.appState ≠ .dataMode) {payload : List Byte}
    (hlen : 1 ≤ payload.length ∧ payload.length ≤ BLE_HOST_SEND_MAX_LEN)
    (hprint : bleHostIsPrintableAscii payload = true) :
    Notified s payload ↔ payload.getLast? ≠ some 32 := by
  have hne : payload ≠ [] := List.ne_nil_of_length_pos hlen.1
  rw [← strip_receiveEvent_iff hprint hne]
  constructor
  · intro h
    have hevent := h.event .init [receiveLine payload ++ newline] rfl (by simp)
    rw [foldl_processControlBytes, List.flatten_singleton, feed_receiveLine hprint rfl] at hevent
    have hqueue := congrArg Client.lineQueue hevent
    simpa using hqueue
  · intro hstrip
    refine ⟨profilePayloadReceived_line hmode hlen.2 hprint, ?_⟩
    intro c chunks hb hchunks
    rw [foldl_processControlBytes, hchunks, feed_receiveLine hprint hb, hstrip]

theorem notified_iff_comma : Notified (boot sampleConfig 0 true).app (ascii " a,b>") := by
  refine (notified_iff ?_ ?_ ?_).mpr ?_
  all_goals decide

/-- The payload `ok ` of three bytes arrives as `ok`. -/
theorem trailing_space_lost :
    ¬Notified (boot sampleConfig 0 true).app (ascii "ok ") ∧
      (Client.init.processControlBytes (receiveLine (ascii "ok ") ++ newline)).lineQueue = [str "+IND=RECV,0,3,ok"] := by
  have hline : (Client.init.processControlBytes (receiveLine (ascii "ok ") ++ newline)).lineQueue =
      [str "+IND=RECV,0,3,ok"] := by decide
  refine ⟨fun h => ?_, hline⟩
  have hevent := congrArg Client.lineQueue (h.event .init [receiveLine (ascii "ok ") ++ newline] rfl rfl)
  rw [foldl_processControlBytes, List.flatten_singleton, hline] at hevent
  exact absurd hevent (by decide)

end BleAtHost.Client
