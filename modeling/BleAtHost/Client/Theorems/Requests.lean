import BleAtHost.AtHost.Theorems.Grammar
import BleAtHost.AtHost.Theorems.Numbers
import BleAtHost.Client.Lemmas.Text
import BleAtHost.Client.Requests

/-!
# The firmware does what the client asks for

The line that a method of the client writes is parsed back to the arguments of the method. Requests follow each other,
so this is shown of any sequence of them, however the bytes are cut into reads.
-/

namespace BleAtHost.AtHost

variable {σ : Type}

/-! ## Texts that are read back -/

theorem workingLine_self {text : Text} (hf : text.length < LINE_BUFFER_SIZE) (hs : ∀ ch ∈ text.head?, isSpace ch = false)
    (hl : ∀ ch ∈ text.getLast?, isSpace ch = false) : workingLine text = text := by
  have hkeep : ∀ t : Text, (∀ ch ∈ t.head?, isSpace ch = false) → t.dropWhile isSpace = t := by
    intro t ht
    cases t with
    | nil => rfl
    | cons ch t => exact List.dropWhile_cons_of_neg (by simp [ht ch rfl])
  have hcut : snprintk LINE_BUFFER_SIZE text = text := List.take_of_length_le (by omega)
  have hback : text.reverse.dropWhile isSpace = text.reverse := hkeep _ fun ch hc => hl ch (by simpa using hc)
  rw [workingLine, hcut, trimWhitespace, hkeep text hs, hback, List.reverse_reverse]

theorem startsWith_self (name args : Text) : startsWithIgnoreCase (name ++ args) name = true := by
  simp [startsWithIgnoreCase]

theorem splitArgs_of_ne {text : Text} (hne : text ≠ []) (n : Nat) :
    splitArgs (n + 1) text = text.takeWhile (· ≠ 44) :: splitArgs n ((text.dropWhile (· ≠ 44)).drop 1) := by
  cases text with
  | nil => exact absurd rfl hne
  | cons ch text => rfl

theorem splitArgs_cons {field : Text} (h : 44 ∉ field) (n : Nat) (rest : Text) :
    splitArgs (n + 1) (field ++ 44 :: rest) = field :: splitArgs n rest := by
  have hall : ∀ ch ∈ field, decide (ch ≠ 44) = true := fun ch hc => decide_eq_true fun he => h (he ▸ hc)
  have hne : field ++ 44 :: rest ≠ [] := by simp
  have htake : (field ++ 44 :: rest).takeWhile (· ≠ 44) = field := by
    rw [List.takeWhile_append_of_pos hall, List.takeWhile_cons_of_neg (by simp), List.append_nil]
  have hdrop : (field ++ 44 :: rest).dropWhile (· ≠ 44) = 44 :: rest := by
    rw [List.dropWhile_append_of_pos hall]
    exact List.dropWhile_cons_of_neg (by simp)
  rw [splitArgs_of_ne hne, htake, hdrop]
  rfl

theorem splitArgs_last {field : Text} (h : 44 ∉ field) (hne : field ≠ []) (n : Nat) :
    splitArgs (n + 1) field = [field] := by
  have hall : ∀ ch ∈ field, decide (ch ≠ 44) = true := fun ch hc => decide_eq_true fun he => h (he ▸ hc)
  rw [splitArgs_of_ne hne, List.takeWhile_eq_self_iff.mpr hall, List.dropWhile_eq_nil_iff.mpr hall]
  cases n with
  | zero => rfl
  | succ n => rfl

theorem magnitude_digits {s : List Char} (h : ∀ c ∈ s, c.isDigit = true) :
    magnitude (s.map fun c => UInt8.ofNat c.toNat) = Nat.ofDigitChars 10 s 0 := by
  induction s with
  | nil => rfl
  | cons c s ih =>
      have hvalue := toNat_digit (h c List.mem_cons_self)
      have hzero : 10 * 0 + (c.toNat - '0'.toNat) = c.toNat - 48 := Nat.zero_add _
      have hstart : Nat.ofDigitChars 10 s (c.toNat - 48) = 10 ^ s.length * (c.toNat - 48) + Nat.ofDigitChars 10 s 0 :=
        Nat.ofDigitChars_eq_ofDigitChars_zero
      rw [List.map_cons, magnitude_cons, ih fun d hd => h d (List.mem_cons_of_mem _ hd), List.length_map, hvalue,
        Nat.ofDigitChars_cons, hzero, hstart, Nat.mul_comm]

theorem decimal_ne_nil (n : Nat) : decimal n ≠ [] := by
  rw [decimal, ne_eq, List.map_eq_nil_iff]
  exact Nat.toDigits_ne_nil

/-- A number that is printed is read back. -/
theorem parseUint16Value_decimal {n : Nat} (h : n ≤ 65535) : parseUint16Value (decimal n) = some n := by
  have hvalue : magnitude (decimal n) = n := by
    rw [decimal, magnitude_digits fun c hc => isDigit_toDigits hc, Nat.ofDigitChars_ten_toDigits]
  have hparse := parse_plain (decimal_ne_nil n) (fun ch hc => isDigit_of_mem_decimal hc) (by rw [hvalue]; exact h)
  rw [hparse, hvalue]

/-- No line end and no end of a C string. -/
def Printed (text : Text) : Prop := ∀ ch ∈ text, isLineEnd ch = false ∧ ch ≠ 0

theorem Printed.append {text text' : Text} (h : Printed text) (h' : Printed text') : Printed (text ++ text') := by
  intro ch hc
  rcases List.mem_append.mp hc with hc | hc
  · exact h ch hc
  · exact h' ch hc

theorem ne_of_isDigit_of_not {ch other : Byte} (h : isDigit ch = true) (ho : isDigit other = false) : ch ≠ other := by
  rintro rfl
  rw [ho] at h
  cases h

theorem printed_decimal (n : Nat) : Printed (decimal n) := by
  intro ch hc
  have hdigit := isDigit_of_mem_decimal hc
  have hnot : ∀ other : Byte, isDigit other = false → ch ≠ other := fun _ => ne_of_isDigit_of_not hdigit
  exact ⟨by simp [isLineEnd, hnot 13 (by decide), hnot 10 (by decide)], hnot 0 (by decide)⟩

theorem comma_not_mem_decimal (n : Nat) : 44 ∉ decimal n := by
  intro hc
  exact ne_of_isDigit_of_not (isDigit_of_mem_decimal hc) (by decide : isDigit 44 = false) rfl

/-- The last byte is no whitespace. -/
def EndsInk (text : Text) : Prop := ∃ ch ∈ text.getLast?, isSpace ch = false

theorem EndsInk.append {text : Text} (h : EndsInk text) (front : Text) : EndsInk (front ++ text) := by
  obtain ⟨ch, hc, hink⟩ := h
  refine ⟨ch, ?_, hink⟩
  rw [List.getLast?_append, Option.mem_def.mp hc]
  rfl

theorem EndsInk.ne_nil {text : Text} (h : EndsInk text) : text ≠ [] := by
  rintro rfl
  obtain ⟨ch, hc, -⟩ := h
  cases hc

theorem endsInk_decimal (n : Nat) : EndsInk (decimal n) := by
  have hlast := List.getLast?_eq_some_getLast (decimal_ne_nil n)
  have hdigit : isDigit ((decimal n).getLast (decimal_ne_nil n)) = true := isDigit_of_mem_decimal (List.getLast_mem _)
  exact ⟨_, hlast, not_isSpace_of_isDigit hdigit⟩

/-! ## Commands with arguments -/

/-- A command name and its arguments as they stand in the line. -/
structure Argued (name args : Text) : Prop where
  fits : (name ++ args).length < LINE_BUFFER_SIZE
  name_printed : Printed name
  name_head : name.head? = some 65
  args_printed : Printed args
  args_end : EndsInk args

namespace Argued

variable {name args : Text} (h : Argued name args)
include h

theorem typed : Typed (name ++ args) := ⟨h.fits, h.name_printed.append h.args_printed⟩

theorem working : workingLine (name ++ args) = name ++ args := by
  refine workingLine_self h.fits ?_ ?_
  · intro ch hc
    rw [List.head?_append, h.name_head] at hc
    cases hc
    decide
  · intro ch hc
    obtain ⟨last, hl, hink⟩ := h.args_end.append name
    rw [hl] at hc
    cases hc
    exact hink

theorem working_ne : workingLine (name ++ args) ≠ [] := by
  rw [h.working]
  exact (h.args_end.append name).ne_nil

theorem starts : startsWithIgnoreCase (workingLine (name ++ args)) name = true := by
  rw [h.working]
  exact startsWith_self name args

theorem drop : (workingLine (name ++ args)).drop name.length = args := by
  rw [h.working]
  exact List.drop_left

end Argued

theorem sendRequest_none_of_starts {text name : Text} (h : startsWithIgnoreCase (workingLine text) name = true)
    (hne : (name.map toUpper).take (min name.length (ascii "AT+SEND=").length) ≠
      ((ascii "AT+SEND=").map toUpper).take (min name.length (ascii "AT+SEND=").length)) : sendRequest text = none := by
  have hnot : startsWithIgnoreCase (workingLine text) (ascii "AT+SEND=") = false := not_startsWith _ h hne
  unfold sendRequest
  exact if_neg (by rw [← workingLine, hnot]; simp)

/-- A line that asks for these operations and nothing else, and opens no payload. -/
structure Command (text : Text) (asks : List Call) : Prop where
  typed : Typed text
  working_ne : workingLine text ≠ []
  noSend : sendRequest text = none
  called : ∀ {σ : Type} (ops : Ops σ) (tx : Tx σ) (w : World σ),
    operations (callsSince w (processCommand ops tx w text).2) = asks

theorem Command.of_mem {text : Text} {call : Call} (ht : Typed text) (hw : workingLine text ≠ [])
    (hs : sendRequest text = none) (ho : call.isOperation = true)
    (hc : ∀ {σ : Type} (ops : Ops σ) (tx : Tx σ) (w : World σ), call ∈ callsSince w (processCommand ops tx w text).2) :
    Command text [call] where
  typed := ht
  working_ne := hw
  noSend := hs
  called ops tx w := by
    obtain ⟨-, calls, hmade, hreply⟩ := processCommand_answered ops tx w hs hw
    have hmem := hc ops tx w
    rw [hmade.callsSince] at hmem ⊢
    exact hreply.operations hmem ho

theorem command_startScan {durationS : Nat} (hpos : durationS ≠ 0) (hle : durationS ≤ 65535) {rest : Text}
    (h : Argued (ascii "AT+STARTSCAN=") (decimal durationS ++ rest)) {args : List Text}
    (hargs : splitArgs MAX_ARGS (decimal durationS ++ rest) = decimal durationS :: args) :
    Command (ascii "AT+STARTSCAN=" ++ (decimal durationS ++ rest)) [.startScan durationS (filterOf args)] := by
  refine .of_mem h.typed h.working_ne (sendRequest_none_of_starts h.starts (by decide)) rfl fun ops tx w => ?_
  rw [processCommand_startScan ops tx w h.starts, h.drop]
  exact processStartScan_called ops tx w hargs (parseUint16Value_decimal hle) hpos

theorem command_startCon {mac : Text} (hm : 44 ∉ mac) {addrType : Nat} (hle : addrType ≤ 3)
    (h : Argued (ascii "AT+STARTCON=") (mac ++ 44 :: decimal addrType)) :
    Command (ascii "AT+STARTCON=" ++ (mac ++ 44 :: decimal addrType)) [.connect mac addrType] := by
  refine .of_mem h.typed h.working_ne (sendRequest_none_of_starts h.starts (by decide)) rfl fun ops tx w => ?_
  have hargs : splitArgs MAX_ARGS (mac ++ 44 :: decimal addrType) = [mac, decimal addrType] := by
    rw [MAX_ARGS, splitArgs_cons hm, splitArgs_last (comma_not_mem_decimal addrType) (decimal_ne_nil addrType)]
  rw [processCommand_startCon ops tx w h.starts, h.drop]
  exact processStartCon_called ops tx w hargs (parseUint16Value_decimal (by omega)) hle

theorem command_setSvcUuid {service notify write : Text} (hs : 44 ∉ service) (hn : 44 ∉ notify) (hw : 44 ∉ write)
    (hne : write ≠ []) (h : Argued (ascii "AT+SETSVCUUID=") (service ++ 44 :: (notify ++ 44 :: write))) :
    Command (ascii "AT+SETSVCUUID=" ++ (service ++ 44 :: (notify ++ 44 :: write))) [.setProfile service notify write] := by
  refine .of_mem h.typed h.working_ne (sendRequest_none_of_starts h.starts (by decide)) rfl fun ops tx w => ?_
  have hargs : splitArgs MAX_ARGS (service ++ 44 :: (notify ++ 44 :: write)) = [service, notify, write] := by
    rw [MAX_ARGS, splitArgs_cons hs, splitArgs_cons hn, splitArgs_last hw hne]
  rw [processCommand_setSvcUuid ops tx w h.starts, h.drop]
  exact processSetSvcUuid_called ops tx w hargs

/-- The lengths of `AT+SEND` are read back. -/
theorem sendRequest_printed {length : Nat} (hpos : length ≠ 0) (hle : length ≤ BLE_HOST_SEND_MAX_LEN)
    (h : Argued (ascii "AT+SEND=") (ascii "0" ++ 44 :: decimal length)) :
    sendRequest (ascii "AT+SEND=" ++ (ascii "0" ++ 44 :: decimal length)) = some (0, length) := by
  have hmax : length ≤ 256 := hle
  have hargs : splitArgs MAX_ARGS (ascii "0" ++ 44 :: decimal length) = [ascii "0", decimal length] := by
    rw [MAX_ARGS, splitArgs_cons (by decide), splitArgs_last (comma_not_mem_decimal length) (decimal_ne_nil length)]
  have hindex : parseUint16Value (ascii "0") = some 0 := by decide
  have hgood : ¬(255 < 0 ∨ length = 0 ∨ BLE_HOST_SEND_MAX_LEN < length) := by
    simp only [BLE_HOST_SEND_MAX_LEN] at hle ⊢
    omega
  have hstarts := h.starts
  unfold sendRequest
  rw [← workingLine, if_pos hstarts, h.drop, sendArgs, hargs]
  simp only [hindex, parseUint16Value_decimal (show length ≤ 65535 by omega), if_neg hgood]

/-! ## Commands without arguments -/

theorem command_sync : Command (ascii "AT") [] where
  typed := ⟨by decide, by simp [ascii, isLineEnd]⟩
  working_ne := by decide
  noSend := by decide
  called ops tx w := by
    have hcommand : processCommand ops tx w (ascii "AT") = (.none, txLine tx w (ascii "+OK")) := rfl
    have hcalls : callsSince w (txLine tx w (ascii "+OK")) = [.line (ascii "+OK")] := callsSince_eq rfl
    rw [hcommand, hcalls]
    rfl

theorem command_discon : Command (ascii "AT+DISCON=0") [.disconnect 0] := by
  refine .of_mem ⟨by decide, by simp [ascii, isLineEnd]⟩ (by decide) (by decide) rfl fun ops tx w => ?_
  have hcommand : processCommand ops tx w (ascii "AT+DISCON=0") = (.none, processDiscon ops tx w (ascii "0")) := rfl
  rw [hcommand]
  exact called_mem tx (.disconnect 0) (ops.disconnect w.ctx 0)

theorem command_conStatus : Command (ascii "AT+CONSTATUS") [.getStatus] := by
  refine .of_mem ⟨by decide, by simp [ascii, isLineEnd]⟩ (by decide) (by decide) rfl fun ops tx w => ?_
  have hcommand : processCommand ops tx w (ascii "AT+CONSTATUS") = (.none, handleGetStatus ops tx w) := rfl
  rw [hcommand]
  simp only [handleGetStatus]
  split
  · exact mem_callsSince (List.suffix_cons _ _)
  · exact mem_callsSince ((List.suffix_cons _ _).trans (List.suffix_cons _ _))

theorem command_getSvcUuid : Command (ascii "AT+GETSVCUUID") [.getProfile] := by
  refine .of_mem ⟨by decide, by simp [ascii, isLineEnd]⟩ (by decide) (by decide) rfl fun ops tx w => ?_
  have hcommand : processCommand ops tx w (ascii "AT+GETSVCUUID") = (.none, handleGetProfile ops tx w) := rfl
  rw [hcommand]
  exact mem_callsSince (List.suffix_cons _ _)

theorem command_streamStat : Command (ascii "AT+STREAMSTAT") [.getStreamStats] := by
  refine .of_mem ⟨by decide, by simp [ascii, isLineEnd]⟩ (by decide) (by decide) rfl fun ops tx w => ?_
  have hcommand : processCommand ops tx w (ascii "AT+STREAMSTAT") = (.none, handleGetStreamStats ops tx w) := rfl
  rw [hcommand]
  exact mem_callsSince (List.suffix_cons _ _)

theorem command_enterDataMode : Command (ascii "AT+ENTERDATAMODE=0") [.enterDataMode 0] := by
  refine .of_mem ⟨by decide, by simp [ascii, isLineEnd]⟩ (by decide) (by decide) rfl fun ops tx w => ?_
  have hcommand : processCommand ops tx w (ascii "AT+ENTERDATAMODE=0") = (.none, processEnterDataMode ops tx w (ascii "0")) := rfl
  have hindex : parseUint16Value (ascii "0") = some 0 := by decide
  rw [hcommand]
  simp only [processEnterDataMode, withConnIndex, hindex]
  split
  · exact absurd ‹255 < 0› (by decide)
  · split
    · exact mem_callsSince (List.suffix_cons _ _)
    · exact mem_callsSince ((List.suffix_cons _ _).trans (List.suffix_cons _ _))

end BleAtHost.AtHost

namespace BleAtHost.Client

open AtHost (Command Argued Printed EndsInk operations signals callsSince rxReads)

/-! ## The lines of the client -/

namespace Request

theorem firstWrite_writeLine {α : Type} (command : Str) (next : Unit → Program α) :
    firstWrite (writeLine command >>= next) = (encodeAscii command).map (· ++ [13, 10]) := by
  unfold writeLine
  cases encodeAscii command with
  | none => rfl
  | some bytes => rfl

theorem encodeAscii_eq_some {s : Str} {data : List Byte} (h : encodeAscii s = some data) :
    data = bytes s ∧ ∀ c ∈ s, c.toNat < 128 := by
  unfold encodeAscii at h
  split at h
  · rename_i hall
    cases h
    exact ⟨rfl, fun c hc => by simpa using List.all_eq_true.mp hall c hc⟩
  · cases h

/-- The text of the line. -/
def command : Request → Str
  | .sync => str "AT"
  | .scan durationS pre => str "AT+STARTSCAN=" ++ ofInt durationS ++ if pre = [] then [] else str "," ++ pre
  | .connect mac addrType => str "AT+STARTCON=" ++ mac ++ str "," ++ ofInt addrType
  | .disconnect => str "AT+DISCON=0"
  | .send payload => str "AT+SEND=0," ++ ofInt payload.length
  | .getStatus => str "AT+CONSTATUS"
  | .setProfile serviceUuid notifyUuid writeUuid =>
      str "AT+SETSVCUUID=" ++ serviceUuid ++ str "," ++ notifyUuid ++ str "," ++ writeUuid
  | .getProfile => str "AT+GETSVCUUID"
  | .getStreamStat => str "AT+STREAMSTAT"
  | .enterDataMode => str "AT+ENTERDATAMODE=0"

theorem line_eq (r : Request) (timeout : Int) : r.line timeout = (encodeAscii r.command).map (· ++ [13, 10]) := by
  cases r with
  | scan durationS pre => exact firstWrite_writeLine _ _
  | connect mac addrType => exact firstWrite_writeLine _ _
  | send payload => exact firstWrite_writeLine _ _
  | setProfile serviceUuid notifyUuid writeUuid => exact firstWrite_writeLine _ _
  | _ => rfl

theorem line_eq_some {r : Request} {timeout : Int} {line : List Byte} (h : r.line timeout = some line) :
    line = bytes r.command ++ [13, 10] ∧ ∀ c ∈ r.command, c.toNat < 128 := by
  rw [line_eq] at h
  obtain ⟨data, hdata, rfl⟩ := Option.map_eq_some_iff.mp h
  obtain ⟨rfl, hall⟩ := encodeAscii_eq_some hdata
  exact ⟨rfl, hall⟩

/-! ## Fields as bytes -/

theorem bytes_append (s s' : Str) : bytes (s ++ s') = bytes s ++ bytes s' := List.map_append

theorem bytes_ofInt {n : Int} (h : 0 ≤ n) : bytes (ofInt n) = decimal n.toNat := by
  have hnat : n.natAbs = n.toNat := by omega
  rw [ofInt, if_neg (by omega), bytes, decimal, hnat]

theorem ofNat_ne {c d : Char} (hc : c.toNat < 128) (hd : d.toNat < 128) (h : c ≠ d) :
    UInt8.ofNat c.toNat ≠ UInt8.ofNat d.toNat := by
  intro he
  have hnat := congrArg UInt8.toNat he
  rw [UInt8.toNat_ofNat', UInt8.toNat_ofNat', Nat.mod_eq_of_lt (by omega), Nat.mod_eq_of_lt (by omega)] at hnat
  exact h (Char.toNat_inj.mp hnat)

theorem Field.comma_not_mem {s : Str} (h : Field s) (ha : ∀ c ∈ s, c.toNat < 128) : 44 ∉ bytes s := by
  intro hm
  obtain ⟨c, hc, he⟩ := List.mem_map.mp hm
  exact ofNat_ne (ha c hc) (by decide : ','.toNat < 128) (h c hc).1 he

theorem Field.printed {s : Str} (h : Field s) (ha : ∀ c ∈ s, c.toNat < 128) : Printed (bytes s) := by
  intro ch hch
  obtain ⟨c, hc, rfl⟩ := List.mem_map.mp hch
  obtain ⟨-, hcr, hlf, hnul⟩ := h c hc
  have hthirteen : UInt8.ofNat c.toNat ≠ 13 := ofNat_ne (ha c hc) (by decide : '\r'.toNat < 128) hcr
  have hten : UInt8.ofNat c.toNat ≠ 10 := ofNat_ne (ha c hc) (by decide : '\n'.toNat < 128) hlf
  have hzero : c ≠ Char.ofNat 0 := by
    rintro rfl
    exact hnul rfl
  refine ⟨by simp [AtHost.isLineEnd, hthirteen, hten], ofNat_ne (ha c hc) (by decide : (Char.ofNat 0).toNat < 128) hzero⟩

theorem LastField.endsInk {s : Str} (h : LastField s) : EndsInk (bytes s) := by
  obtain ⟨-, c, hc, hink⟩ := h
  refine ⟨_, ?_, hink⟩
  rw [bytes, List.getLast?_map, Option.mem_def.mp hc]
  rfl

theorem printed_comma {text : Text} (h : Printed text) : Printed (44 :: text) := by
  have hcomma : Printed [44] := by
    intro ch hc
    rw [List.mem_singleton.mp hc]
    decide
  exact hcomma.append h

theorem printed_name {name : Text} (h : name.all (fun ch => !AtHost.isLineEnd ch && ch != 0) = true) : Printed name := by
  intro ch hc
  simpa using List.all_eq_true.mp h ch hc

/-! ## What the firmware makes of the lines -/

section
variable {timeout : Int} {line : List Byte}

theorem scan_understood {durationS : Int} {pre : Str} (hs : (Request.scan durationS pre).Sendable)
    (hw : (Request.scan durationS pre).line timeout = some line) (hfits : line.length < AtHost.LINE_BUFFER_SIZE + 2) :
    ∃ text, line = text ++ [13, 10] ∧ Command text (Request.scan durationS pre).asks := by
  obtain ⟨hpos, hle, hpre⟩ := hs
  obtain ⟨rfl, hall⟩ := line_eq_some hw
  rw [List.length_append] at hfits
  have hbytes : bytes (Request.scan durationS pre).command =
      ascii "AT+STARTSCAN=" ++ (decimal durationS.toNat ++ if pre = [] then [] else 44 :: bytes pre) := by
    have hname : bytes (str "AT+STARTSCAN=") = ascii "AT+STARTSCAN=" := rfl
    rw [command, bytes_append, bytes_append, hname, bytes_ofInt (by omega), List.append_assoc]
    split
    · rfl
    · rfl
  rw [hbytes] at hfits ⊢
  refine ⟨_, rfl, ?_⟩
  rcases hpre with rfl | hpre
  · rw [if_pos rfl] at hfits ⊢
    have hargued : Argued (ascii "AT+STARTSCAN=") (decimal durationS.toNat ++ []) :=
      ⟨by simpa using hfits, printed_name (by decide), by decide, by simpa using AtHost.printed_decimal _,
        by simpa using AtHost.endsInk_decimal _⟩
    have hargs : AtHost.splitArgs AtHost.MAX_ARGS (decimal durationS.toNat ++ []) = decimal durationS.toNat :: [] := by
      rw [List.append_nil, AtHost.MAX_ARGS,
        AtHost.splitArgs_last (AtHost.comma_not_mem_decimal _) (AtHost.decimal_ne_nil _)]
    exact AtHost.command_startScan (by omega) (by omega) hargued hargs
  · have hne : pre ≠ [] := by
      rintro rfl
      obtain ⟨-, c, hc, -⟩ := hpre
      cases hc
    have hascii : ∀ c ∈ pre, c.toNat < 128 := fun c hc => hall c (by simp [command, hne, hc])
    rw [if_neg hne] at hfits ⊢
    have hargued : Argued (ascii "AT+STARTSCAN=") (decimal durationS.toNat ++ 44 :: bytes pre) :=
      ⟨by simpa using hfits, printed_name (by decide), by decide,
        (AtHost.printed_decimal _).append (printed_comma (hpre.1.printed hascii)),
        (hpre.endsInk.append [44]).append _⟩
    have hargs : AtHost.splitArgs AtHost.MAX_ARGS (decimal durationS.toNat ++ 44 :: bytes pre) =
        decimal durationS.toNat :: [bytes pre] := by
      rw [AtHost.MAX_ARGS, AtHost.splitArgs_cons (AtHost.comma_not_mem_decimal _),
        AtHost.splitArgs_last (hpre.1.comma_not_mem hascii) hpre.endsInk.ne_nil]
    have hfilter : AtHost.filterOf [bytes pre] = some (bytes pre) := by
      cases hb : bytes pre with
      | nil => exact absurd hb hpre.endsInk.ne_nil
      | cons ch rest => rfl
    have hcommand := AtHost.command_startScan (by omega) (by omega) hargued hargs
    rw [hfilter] at hcommand
    simp only [asks, if_neg hne]
    exact hcommand

theorem connect_understood {mac : Str} {addrType : Int} (hs : (Request.connect mac addrType).Sendable)
    (hw : (Request.connect mac addrType).line timeout = some line) (hfits : line.length < AtHost.LINE_BUFFER_SIZE + 2) :
    ∃ text, line = text ++ [13, 10] ∧ Command text (Request.connect mac addrType).asks := by
  obtain ⟨hmac, hpos, hle⟩ := hs
  obtain ⟨rfl, hall⟩ := line_eq_some hw
  rw [List.length_append] at hfits
  have hbytes : bytes (Request.connect mac addrType).command =
      ascii "AT+STARTCON=" ++ (bytes mac ++ 44 :: decimal addrType.toNat) := by
    have hname : bytes (str "AT+STARTCON=") = ascii "AT+STARTCON=" := rfl
    rw [command, bytes_append, bytes_append, bytes_append, hname, bytes_ofInt hpos, List.append_assoc, List.append_assoc]
    rfl
  have hascii : ∀ c ∈ mac, c.toNat < 128 := fun c hc => hall c (by simp [command, hc])
  rw [hbytes] at hfits ⊢
  have hargued : Argued (ascii "AT+STARTCON=") (bytes mac ++ 44 :: decimal addrType.toNat) :=
    ⟨by simpa using hfits, printed_name (by decide), by decide,
      (hmac.printed hascii).append (printed_comma (AtHost.printed_decimal _)),
      ((AtHost.endsInk_decimal _).append [44]).append _⟩
  exact ⟨_, rfl, AtHost.command_startCon (hmac.comma_not_mem hascii) (by omega) hargued⟩

theorem setProfile_understood {serviceUuid notifyUuid writeUuid : Str}
    (hs : (Request.setProfile serviceUuid notifyUuid writeUuid).Sendable)
    (hw : (Request.setProfile serviceUuid notifyUuid writeUuid).line timeout = some line)
    (hfits : line.length < AtHost.LINE_BUFFER_SIZE + 2) :
    ∃ text, line = text ++ [13, 10] ∧ Command text (Request.setProfile serviceUuid notifyUuid writeUuid).asks := by
  obtain ⟨hservice, hnotify, hwrite⟩ := hs
  obtain ⟨rfl, hall⟩ := line_eq_some hw
  rw [List.length_append] at hfits
  have hbytes : bytes (Request.setProfile serviceUuid notifyUuid writeUuid).command =
      ascii "AT+SETSVCUUID=" ++ (bytes serviceUuid ++ 44 :: (bytes notifyUuid ++ 44 :: bytes writeUuid)) := by
    have hname : bytes (str "AT+SETSVCUUID=") = ascii "AT+SETSVCUUID=" := rfl
    have hcomma : bytes (str ",") = [44] := rfl
    simp only [command, bytes_append, hname, hcomma, List.append_assoc, List.singleton_append]
  have hs : ∀ c ∈ serviceUuid, c.toNat < 128 := fun c hc => hall c (by simp [command, hc])
  have hn : ∀ c ∈ notifyUuid, c.toNat < 128 := fun c hc => hall c (by simp [command, hc])
  have hwr : ∀ c ∈ writeUuid, c.toNat < 128 := fun c hc => hall c (by simp [command, hc])
  rw [hbytes] at hfits ⊢
  have hargued : Argued (ascii "AT+SETSVCUUID=") (bytes serviceUuid ++ 44 :: (bytes notifyUuid ++ 44 :: bytes writeUuid)) :=
    ⟨by simpa using hfits, printed_name (by decide), by decide,
      (hservice.printed hs).append (printed_comma ((hnotify.printed hn).append (printed_comma (hwrite.1.printed hwr)))),
      (((hwrite.endsInk.append [44]).append _).append [44]).append _⟩
  exact ⟨_, rfl, AtHost.command_setSvcUuid (hservice.comma_not_mem hs) (hnotify.comma_not_mem hn)
    (hwrite.1.comma_not_mem hwr) hwrite.endsInk.ne_nil hargued⟩

/-- Every method but `send` has its operation called. -/
theorem command_understood {r : Request} (hs : r.Sendable) (hp : r.payload = []) (hw : r.line timeout = some line)
    (hfits : line.length < AtHost.LINE_BUFFER_SIZE + 2) : ∃ text, line = text ++ [13, 10] ∧ Command text r.asks := by
  have hline := (line_eq_some hw).1
  cases r with
  | sync => exact ⟨_, hline, AtHost.command_sync⟩
  | scan durationS pre => exact scan_understood hs hw hfits
  | connect mac addrType => exact connect_understood hs hw hfits
  | disconnect => exact ⟨_, hline, AtHost.command_discon⟩
  | send payload => exact absurd hp hs.1
  | getStatus => exact ⟨_, hline, AtHost.command_conStatus⟩
  | setProfile serviceUuid notifyUuid writeUuid => exact setProfile_understood hs hw hfits
  | getProfile => exact ⟨_, hline, AtHost.command_getSvcUuid⟩
  | getStreamStat => exact ⟨_, hline, AtHost.command_streamStat⟩
  | enterDataMode => exact ⟨_, hline, AtHost.command_enterDataMode⟩

theorem send_understood {payload : List Byte} (hs : (Request.send payload).Sendable)
    (hw : (Request.send payload).line timeout = some line) :
    ∃ text, line = text ++ [13, 10] ∧ AtHost.Typed text ∧ AtHost.sendRequest text = some (0, payload.length) := by
  obtain ⟨hne, hle⟩ := hs
  have hmax : payload.length ≤ 256 := hle
  obtain ⟨rfl, -⟩ := line_eq_some hw
  have hpos : 0 < payload.length := List.length_pos_iff.mpr hne
  have hbytes : bytes (Request.send payload).command =
      ascii "AT+SEND=" ++ (ascii "0" ++ 44 :: decimal payload.length) := by
    have hname : bytes (str "AT+SEND=0,") = ascii "AT+SEND=" ++ (ascii "0" ++ [44]) := rfl
    rw [command, bytes_append, hname, bytes_ofInt (Int.natCast_nonneg _), Int.toNat_natCast, List.append_assoc, List.append_assoc]
    rfl
  have hdigits : (decimal payload.length).length ≤ 3 := length_decimal (by decide) (by omega)
  have hargued : Argued (ascii "AT+SEND=") (ascii "0" ++ 44 :: decimal payload.length) := by
    refine ⟨?_, printed_name (by decide), by decide, (printed_name (by decide)).append (printed_comma (AtHost.printed_decimal _)),
      ((AtHost.endsInk_decimal _).append [44]).append _⟩
    have hname : (ascii "AT+SEND=").length = 8 := rfl
    have hindex : (ascii "0").length = 1 := rfl
    rw [List.length_append, List.length_append, List.length_cons, hname, hindex]
    have hbuffer : AtHost.LINE_BUFFER_SIZE = 160 := rfl
    omega
  rw [hbytes]
  exact ⟨_, rfl, hargued.typed, AtHost.sendRequest_printed (by omega) hle hargued⟩

end

end Request

/-! ## Sequences of requests -/

section
variable {σ : Type} (ops : AtHost.Ops σ) (tx : AtHost.Tx σ)

/-- What the reads of a request come to: its operation is called and answered, the parser is ready for the next line, and
the last read may go on with it. -/
def Understood (r : Request) (w : AtHost.World σ) (front : List (List Byte)) (last : List Byte) : Prop :=
  ∃ calls, (rxReads ops tx w (front ++ [last])).trace = calls.reverse ++ w.trace ∧
    (rxReads ops tx w (front ++ [last])).host.AtLineStart ∧ operations calls = r.asks ∧ signals calls = r.answers ∧
      (AtHost.rxLoop ops tx (false, rxReads ops tx w front) last).1 = false

section
variable {w : AtHost.World σ} {timeout : Int} {line : List Byte} {front : List (List Byte)} {last : List Byte}

theorem understood_command {r : Request} (hs : r.Sendable) (hp : r.payload = []) (hw : r.line timeout = some line)
    (hfits : line.length < AtHost.LINE_BUFFER_SIZE + 2) (hr : (front ++ [last]).flatten = line)
    (hstart : w.host.AtLineStart) : Understood ops tx r w front last := by
  obtain ⟨text, rfl, hcommand⟩ := Request.command_understood hs hp hw hfits
  obtain ⟨calls, hreply, hcalls, htrace, hnext, -⟩ :=
    AtHost.command_arrives ops tx hstart hcommand.typed hcommand.working_ne hcommand.noSend hr
  have hclear := AtHost.command_flagClear ops tx hstart hcommand.typed hcommand.working_ne hcommand.noSend
  have hanswers : r.answers = [.final] := by
    cases r with
    | send payload => exact absurd hp hs.1
    | _ => rfl
  refine ⟨calls, htrace, hnext, ?_, ?_, ?_⟩
  · rw [hcalls]
    exact hcommand.called ops tx _
  · rw [hanswers]
    exact hreply.signals
  · rw [← hr] at hclear
    exact hclear.last

/-- The payload of `send` begins behind the reads of its line. -/
theorem understood_send {payload : List Byte} (hs : (Request.send payload).Sendable)
    (hw : (Request.send payload).line timeout = some line) {reads : List (List Byte)} (hr : reads.flatten = line)
    (hcut : ∀ k, (reads.take k).flatten ≠ line.dropLast) (hp : (front ++ [last]).flatten = payload)
    (hstart : w.host.AtLineStart) : Understood ops tx (.send payload) w (reads ++ front) last := by
  obtain ⟨text, rfl, htyped, hreq⟩ := Request.send_understood hs hw
  have hline : (text ++ [13, 10]).dropLast = text ++ [13] := by
    rw [AtHost.line_end, List.dropLast_concat]
  obtain ⟨hprompt, hopened⟩ := AtHost.send_arrives ops tx hstart htyped hreq hr fun k => hline ▸ hcut k
  rw [Understood, List.append_assoc, AtHost.rxReads_append ops tx w reads (front ++ [last]),
    AtHost.rxReads_append ops tx w reads front]
  rcases hmid : rxReads ops tx w reads with ⟨host, ctx, trace⟩
  rw [hmid] at hprompt hopened
  simp only at hprompt hopened
  subst hprompt hopened
  obtain ⟨calls, hreply, hsent, htrace, hhost⟩ := AtHost.payload_arrives ops tx
    (w := ⟨(w.host.opened 0 payload.length).freshLine, ctx, .raw (ascii ">") :: w.trace⟩) rfl rfl hs.1 rfl hp
  have hclear : AtHost.FlagClear ops tx ⟨(w.host.opened 0 payload.length).freshLine, ctx, .raw (ascii ">") :: w.trace⟩
      (front ++ [last]).flatten := by
    rw [hp]
    exact AtHost.payload_flagClear ops tx rfl rfl hs.1 rfl
  refine ⟨.raw (ascii ">") :: calls, ?_, ?_, ?_, ?_, hclear.last⟩
  · rw [htrace, List.reverse_cons, List.append_assoc]
    rfl
  · rw [hhost]
    exact ⟨rfl, rfl, rfl⟩
  · have hcalled : operations calls = [.sendPayload 0 payload] := hreply.operations hsent rfl
    exact hcalled
  · have hfinal : signals calls = [.final] := hreply.signals
    exact congrArg _ hfinal

theorem two_le_line {r : Request} (hw : r.line timeout = some line) : 2 ≤ line.length := by
  rw [(Request.line_eq_some hw).1, List.length_append]
  exact Nat.le_add_left 2 _

/-- The reads of the first request. The last of them may go on with the requests behind it. -/
theorem Arrive.first {r : Request} {rest : List (Request × List Byte)} {reads : List (List Byte)}
    (h : Arrive timeout ((r, line) :: rest) reads) (hs : r.Sendable) :
    ∃ front last next more, reads = front ++ (last ++ next) :: more ∧ (front ++ [last]).flatten = line ++ r.payload ∧
      (next :: more).flatten = rest.flatMap (fun p => p.2 ++ p.1.payload) ∧
        ∀ w : AtHost.World σ, w.host.AtLineStart → Understood ops tx r w front last := by
  obtain ⟨hw, hfits⟩ := h.lines _ List.mem_cons_self
  have hwhole : reads.flatten = line ++ (r.payload ++ rest.flatMap fun p => p.2 ++ p.1.payload) := by
    rw [h.whole, List.flatMap_cons, List.append_assoc]
  by_cases hp : r.payload = []
  · have hline : line ≠ [] := List.ne_nil_of_length_pos (Nat.lt_of_lt_of_le Nat.two_pos (two_le_line hw))
    rw [hp, List.nil_append] at hwhole
    obtain ⟨front, last, next, more, rfl, hdata, hrest⟩ := cut_behind hwhole hline
    refine ⟨front, last, next, more, rfl, by rw [hdata, hp, List.append_nil], hrest, fun w hstart => ?_⟩
    exact understood_command ops tx hs hp hw hfits hdata hstart
  · obtain ⟨hends, hnot⟩ := h.prompted.1 hp
    rw [Nat.zero_add] at hends hnot
    obtain ⟨reads, back, rfl, hr, hback⟩ := hends.split hwhole
    obtain ⟨front, last, next, more, rfl, hdata, hrest⟩ := cut_behind hback hp
    have hcut : ∀ k, (reads.take k).flatten ≠ line.dropLast := by
      intro k he
      have hbefore : EndsBehind (reads ++ (front ++ (last ++ next) :: more)) (reads.take k).flatten.length := .of_front
      rw [he, List.length_dropLast] at hbefore
      exact hnot hbefore
    have hall : ((reads ++ front) ++ [last]).flatten = line ++ r.payload := by
      rw [List.append_assoc, List.flatten_append, hr, hdata]
    refine ⟨reads ++ front, last, next, more, (List.append_assoc _ _ _).symm, hall, hrest, fun w hstart => ?_⟩
    cases r with
    | send payload => exact understood_send ops tx hs hw hr hcut hdata hstart
    | _ => exact absurd rfl hp

theorem Arrive.behind {r : Request} {rest : List (Request × List Byte)} {front more : List (List Byte)} {last next : List Byte}
    (h : Arrive timeout ((r, line) :: rest) (front ++ (last ++ next) :: more))
    (hdata : (front ++ [last]).flatten = line ++ r.payload)
    (hrest : (next :: more).flatten = rest.flatMap fun p => p.2 ++ p.1.payload) : Arrive timeout rest (next :: more) where
  lines p hm := h.lines p (List.mem_cons_of_mem _ hm)
  whole := hrest
  prompted := by
    have hprompted := h.prompted.2
    rw [Nat.zero_add, ← List.length_append, ← hdata, ← Nat.add_zero (front ++ [last]).flatten.length] at hprompted
    exact hprompted.behind fun p hm => two_le_line (h.lines p (List.mem_cons_of_mem _ hm)).1

end

/-- The operations that are called are the ones that the client asks for, with the same arguments and in the same order,
and each request gets its answer, whatever the operations return and however the bytes are cut into reads. -/
theorem requests_understood {timeout : Int} {written : List (Request × List Byte)} {reads : List (List Byte)}
    (h : Arrive timeout written reads) (hs : ∀ p ∈ written, p.1.Sendable) {w : AtHost.World σ} (hw : w.host.AtLineStart) :
    operations (callsSince w (rxReads ops tx w reads)) = written.flatMap (fun p => p.1.asks) ∧
      signals (callsSince w (rxReads ops tx w reads)) = written.flatMap (fun p => p.1.answers) ∧
      (rxReads ops tx w reads).host.AtLineStart := by
  have hcalls : ∃ calls, (rxReads ops tx w reads).trace = calls.reverse ++ w.trace ∧
      (rxReads ops tx w reads).host.AtLineStart ∧ operations calls = written.flatMap (fun p => p.1.asks) ∧
        signals calls = written.flatMap (fun p => p.1.answers) := by
    induction written generalizing reads w with
    | nil =>
        rw [AtHost.rxReads_empty ops tx w h.whole]
        exact ⟨[], rfl, hw, rfl, rfl⟩
    | cons p rest ih =>
        obtain ⟨r, line⟩ := p
        obtain ⟨front, last, next, more, rfl, hdata, hmore, hfirst⟩ := h.first ops tx (hs _ List.mem_cons_self)
        obtain ⟨calls, htrace, hnext, hasked, hanswered, hflag⟩ := hfirst w hw
        obtain ⟨later, hlater, hready, hrest, hsignals⟩ :=
          ih (h.behind hdata hmore) (fun p hm => hs p (List.mem_cons_of_mem _ hm)) hnext
        rw [AtHost.rxReads_join ops tx hflag]
        refine ⟨calls ++ later, ?_, hready, ?_, ?_⟩
        · rw [hlater, htrace, List.reverse_append, List.append_assoc]
        · rw [AtHost.operations_append, hasked, hrest, List.flatMap_cons]
        · rw [AtHost.signals_append, hanswered, hsignals, List.flatMap_cons]
  obtain ⟨calls, htrace, hready, hasked, hanswered⟩ := hcalls
  rw [AtHost.callsSince_eq htrace]
  exact ⟨hasked, hanswered, hready⟩

end

/-- Two attempts of `sync_control_mode`, a scan, an upload and a question. -/
def requestsMade : List (Request × List Byte) :=
  [(.sync, ascii "AT\r\n"), (.sync, ascii "AT\r\n"), (.scan 5 (str "ab"), ascii "AT+STARTSCAN=5,ab\r\n"),
    (.send (ascii "hi"), ascii "AT+SEND=0,2\r\n"), (.getStatus, ascii "AT+CONSTATUS\r\n")]

/-- The cuts stand inside the lines, before a line feed and inside the payload; four reads hold bytes of two requests. -/
def requestReads : List (List Byte) :=
  [ascii "AT\r\nAT\r", ascii "\nAT+START", ascii "SCAN=5,ab\r\nAT+SE", ascii "ND=0,2\r\n", ascii "h", ascii "iAT+CON",
    ascii "STATUS\r\n"]

theorem requestsMade_arrive : Arrive 1000 requestsMade requestReads where
  lines := by decide
  whole := by decide
  prompted := by decide

theorem requests_understood_cut :
    operations (callsSince ⟨.init, (), []⟩ (rxReads AtHost.quietOps AtHost.quietTx ⟨.init, (), []⟩ requestReads)) =
        [.startScan 5 (some (ascii "ab")), .sendPayload 0 (ascii "hi"), .getStatus] ∧
      signals (callsSince ⟨.init, (), []⟩ (rxReads AtHost.quietOps AtHost.quietTx ⟨.init, (), []⟩ requestReads)) =
        [.final, .final, .final, .prompt, .final, .final] ∧
      (rxReads AtHost.quietOps AtHost.quietTx ⟨.init, (), []⟩ requestReads).host.AtLineStart := by
  have hfield : Request.LastField (str "ab") := by
    refine ⟨fun c hc => ?_, 'b', rfl, by decide⟩
    have hab : c = 'a' ∨ c = 'b' := by simpa [str] using hc
    rcases hab with rfl | rfl
    · decide
    · decide
  have hsendable : ∀ p ∈ requestsMade, p.1.Sendable := by
    intro p hp
    have hcases : p.1 = .sync ∨ p.1 = .scan 5 (str "ab") ∨ p.1 = .send (ascii "hi") ∨ p.1 = .getStatus := by
      have hfirst : p.1 ∈ requestsMade.map Prod.fst := List.mem_map_of_mem hp
      simpa [requestsMade] using hfirst
    rcases hcases with he | he | he | he
    all_goals rw [he]
    · trivial
    · exact ⟨by decide, by decide, .inr hfield⟩
    · exact ⟨by decide, by decide⟩
    · trivial
  exact requests_understood AtHost.quietOps AtHost.quietTx requestsMade_arrive hsendable ⟨rfl, rfl, rfl⟩

end BleAtHost.Client
