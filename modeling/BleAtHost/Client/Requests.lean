import BleAtHost.AtHost.Lemmas.Arrivals
import BleAtHost.Client.Calls

/-!
# What the client asks for

The line that a method of the client writes first, the call of an operation that it stands for, and the reads in which
the firmware gets it.
-/

namespace BleAtHost.Client

/-- What a program writes before it does anything else. -/
def firstWrite {α : Type} : Program α → Option (List Byte)
  | .op (.write data) _ => some data
  | _ => none

/-- The methods that write a line, with the arguments that go into it. -/
inductive Request where
  /-- One attempt of `sync_control_mode`. -/
  | sync
  | scan (durationS : Int) (pre : Str)
  | connect (mac : Str) (addrType : Int)
  | disconnect
  | send (payload : List Byte)
  | getStatus
  | setProfile (serviceUuid notifyUuid writeUuid : Str)
  | getProfile
  | getStreamStat
  | enterDataMode
deriving DecidableEq, Repr

namespace Request

/-- The line with its end; `none` where the method raises before it writes. -/
def line (timeout : Int) : Request → Option (List Byte)
  | .sync => firstWrite (syncAttempts timeout 1)
  | .scan durationS pre => firstWrite (Client.scan durationS pre timeout)
  | .connect mac addrType => firstWrite (Client.connect mac addrType timeout)
  | .disconnect => firstWrite (Client.disconnect timeout)
  | .send payload => firstWrite (Client.send payload timeout)
  | .getStatus => firstWrite (Client.getStatus timeout)
  | .setProfile serviceUuid notifyUuid writeUuid =>
      firstWrite (Client.setProfile serviceUuid notifyUuid writeUuid timeout)
  | .getProfile => firstWrite (Client.getProfile timeout)
  | .getStreamStat => firstWrite (Client.getStreamStat timeout)
  | .enterDataMode => firstWrite (Client.enterDataMode timeout)

/-- What `send` writes when it has read the prompt. -/
def payload : Request → List Byte
  | .send payload => payload
  | _ => []

/-- The bytes of ASCII text. -/
def bytes (s : Str) : Text := s.map fun c => UInt8.ofNat c.toNat

/-- The operation that is meant. -/
def asks : Request → List AtHost.Call
  | .sync => []
  | .scan durationS pre => [.startScan durationS.toNat (if pre = [] then none else some (bytes pre))]
  | .connect mac addrType => [.connect (bytes mac) addrType.toNat]
  | .disconnect => [.disconnect 0]
  | .send payload => [.sendPayload 0 payload]
  | .getStatus => [.getStatus]
  | .setProfile serviceUuid notifyUuid writeUuid => [.setProfile (bytes serviceUuid) (bytes notifyUuid) (bytes writeUuid)]
  | .getProfile => [.getProfile]
  | .getStreamStat => [.getStreamStats]
  | .enterDataMode => [.enterDataMode 0]

/-- What is answered: a prompt before a payload, and a final response. -/
def answers : Request → List AtHost.Signal
  | .send _ => [.prompt, .final]
  | _ => [.final]

/-- One field of a line. -/
def Field (s : Str) : Prop := ∀ c ∈ s, c ≠ ',' ∧ c ≠ '\r' ∧ c ≠ '\n' ∧ c.toNat ≠ 0

/-- The last field of a line, which is not empty and does not end in whitespace. -/
def LastField (s : Str) : Prop := Field s ∧ ∃ c ∈ s.getLast?, isSpace (UInt8.ofNat c.toNat) = false

/-- Arguments that a line can carry. -/
def Sendable : Request → Prop
  | .scan durationS pre => 0 < durationS ∧ durationS ≤ 65535 ∧ (pre = [] ∨ LastField pre)
  | .connect mac addrType => Field mac ∧ 0 ≤ addrType ∧ addrType ≤ 3
  | .send payload => payload ≠ [] ∧ payload.length ≤ BLE_HOST_SEND_MAX_LEN
  | .setProfile serviceUuid notifyUuid writeUuid => Field serviceUuid ∧ Field notifyUuid ∧ LastField writeUuid
  | _ => True

end Request

/-- A read ends behind the first `n` bytes of the stream. -/
def EndsBehind (reads : List (List Byte)) (n : Nat) : Prop := ∃ k ≤ reads.length, (reads.take k).flatten.length = n

instance (reads : List (List Byte)) (n : Nat) : Decidable (EndsBehind reads n) :=
  inferInstanceAs (Decidable (∃ k ≤ reads.length, _))

/-- The requests with their lines, from the byte `start` of the stream on. The payload of `send` is written after the
prompt, so a read ends behind its line; and none ends between the carriage return and the line feed of that line. -/
def Prompted (reads : List (List Byte)) : Nat → List (Request × List Byte) → Prop
  | _, [] => True
  | start, (r, line) :: rest =>
      (r.payload ≠ [] → EndsBehind reads (start + line.length) ∧ ¬EndsBehind reads (start + line.length - 1)) ∧
        Prompted reads (start + line.length + r.payload.length) rest

instance Prompted.decidable (reads : List (List Byte)) :
    (start : Nat) → (written : List (Request × List Byte)) → Decidable (Prompted reads start written)
  | _, [] => inferInstanceAs (Decidable True)
  | start, (r, line) :: rest =>
      have := Prompted.decidable reads (start + line.length + r.payload.length) rest
      inferInstanceAs (Decidable ((_ → _ ∧ ¬_) ∧ _))

/-- Requests made one after the other, with their lines, and the reads in which the firmware gets them. But for what the
prompt asks for, the stream may be cut anywhere. -/
structure Arrive (timeout : Int) (written : List (Request × List Byte)) (reads : List (List Byte)) : Prop where
  lines : ∀ p ∈ written, p.1.line timeout = some p.2 ∧ p.2.length < AtHost.LINE_BUFFER_SIZE + 2
  whole : reads.flatten = written.flatMap fun p => p.2 ++ p.1.payload
  prompted : Prompted reads 0 written

/-! ## Cuts -/

/-- A stream that begins with some bytes may be cut behind them. -/
theorem cut_behind {reads : List (List Byte)} {data rest : List Byte} (h : reads.flatten = data ++ rest) (hne : data ≠ []) :
    ∃ front last next more, reads = front ++ (last ++ next) :: more ∧ (front ++ [last]).flatten = data ∧
      (next :: more).flatten = rest := by
  induction reads generalizing data with
  | nil => exact absurd (List.append_eq_nil_iff.mp h.symm).1 hne
  | cons read reads ih =>
      rw [List.flatten_cons] at h
      rcases List.append_eq_append_iff.mp h with ⟨later, rfl, hlater⟩ | ⟨next, rfl, rfl⟩
      · by_cases hl : later = []
        · subst hl
          exact ⟨[], read, [], reads, by simp, by simp, by simpa using hlater⟩
        · obtain ⟨front, last, next, more, rfl, hdata, hrest⟩ := ih hlater hl
          exact ⟨read :: front, last, next, more, rfl, by rw [List.cons_append, List.flatten_cons, hdata], hrest⟩
      · exact ⟨[], data, next, reads, rfl, by simp, rfl⟩

theorem EndsBehind.split {reads : List (List Byte)} {data rest : List Byte} (h : EndsBehind reads data.length)
    (hall : reads.flatten = data ++ rest) :
    ∃ front back, reads = front ++ back ∧ front.flatten = data ∧ back.flatten = rest := by
  obtain ⟨k, -, hk⟩ := h
  have hsplit : (reads.take k).flatten ++ (reads.drop k).flatten = data ++ rest := by
    rw [← List.flatten_append, List.take_append_drop, hall]
  obtain ⟨hfront, hback⟩ := List.append_inj hsplit hk
  exact ⟨reads.take k, reads.drop k, (List.take_append_drop k reads).symm, hfront, hback⟩

theorem EndsBehind.of_front {front back : List (List Byte)} {k : Nat} :
    EndsBehind (front ++ back) (front.take k).flatten.length := by
  refine ⟨min k front.length, ?_, ?_⟩
  · rw [List.length_append]
    omega
  · rw [List.take_append_of_le_length (min_le_right _ _), ← List.take_take, List.take_length]

/-- Behind a cut inside a read the ends of the reads stay where they are. -/
theorem endsBehind_behind {front more : List (List Byte)} {last next : List Byte} {n : Nat} (hn : 0 < n) :
    EndsBehind (next :: more) n ↔ EndsBehind (front ++ (last ++ next) :: more) ((front ++ [last]).flatten.length + n) := by
  have hlength : (front ++ [last]).flatten.length = front.flatten.length + last.length := by simp
  have hbehind : ∀ j, ((front ++ (last ++ next) :: more).take (front.length + (j + 1))).flatten.length =
      (front ++ [last]).flatten.length + ((next :: more).take (j + 1)).flatten.length := by
    intro j
    rw [List.take_length_add_append, List.take_succ_cons, List.take_succ_cons, hlength]
    simp only [List.flatten_append, List.flatten_cons, List.length_append]
    omega
  constructor
  · rintro ⟨k, hk, rfl⟩
    obtain ⟨j, rfl⟩ : ∃ j, k = j + 1 := by
      cases k with
      | zero => exact absurd hn (Nat.lt_irrefl 0)
      | succ j => exact ⟨j, rfl⟩
    refine ⟨front.length + (j + 1), ?_, hbehind j⟩
    rw [List.length_append]
    simp only [List.length_cons] at hk ⊢
    omega
  · rintro ⟨k, hk, hsum⟩
    have hlate : front.length < k := by
      by_contra hearly
      have hpart : ((front ++ (last ++ next) :: more).take k).flatten.length ≤ front.flatten.length := by
        rw [List.take_append_of_le_length (by omega)]
        exact (AtHost.prefix_flatten_take front k).length_le
      omega
    obtain ⟨j, rfl⟩ : ∃ j, k = front.length + (j + 1) := ⟨k - front.length - 1, by omega⟩
    rw [hbehind j] at hsum
    refine ⟨j + 1, ?_, by omega⟩
    rw [List.length_append] at hk
    simp only [List.length_cons] at hk ⊢
    omega

/-- What the prompt asks for behind such a cut. -/
theorem Prompted.behind {front more : List (List Byte)} {last next : List Byte} {written : List (Request × List Byte)}
    (hl : ∀ p ∈ written, 2 ≤ p.2.length) {start : Nat}
    (h : Prompted (front ++ (last ++ next) :: more) ((front ++ [last]).flatten.length + start) written) :
    Prompted (next :: more) start written := by
  induction written generalizing start with
  | nil => exact trivial
  | cons p rest ih =>
      obtain ⟨r, line⟩ := p
      obtain ⟨hprompt, hrest⟩ := h
      have hlen : 2 ≤ line.length := hl _ List.mem_cons_self
      refine ⟨fun hp => ?_, ih (fun p hm => hl p (List.mem_cons_of_mem _ hm)) (by rwa [← Nat.add_assoc, ← Nat.add_assoc])⟩
      obtain ⟨hends, hnot⟩ := hprompt hp
      refine ⟨(endsBehind_behind (by omega)).mpr (by rwa [← Nat.add_assoc]), fun hcut => hnot ?_⟩
      have hshift : EndsBehind (front ++ (last ++ next) :: more)
          ((front ++ [last]).flatten.length + (start + line.length - 1)) := (endsBehind_behind (by omega)).mp hcut
      rwa [← Nat.add_sub_assoc (by omega), ← Nat.add_assoc] at hshift

end BleAtHost.Client
