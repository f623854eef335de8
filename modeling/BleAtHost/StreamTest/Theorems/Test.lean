import BleAtHost.StreamTest.Lemmas.Test

/-!
# What the stream test shows

Two links are looked at, one that gives back whole frames in any order and one that echoes the stream. In the gated mode
nothing is asked of the link.
-/

namespace BleAtHost.StreamTest

variable {args : Args} {es : List Event}

/-- Frames that were written come back whole. They may get lost, change their order or come more than once, and the
stream may be cut anywhere. -/
def GivesBack (s : Running) : Event → Prop
  | .receive chunk _ =>
      ∃ frames : List (List Byte), (∀ frame ∈ frames, frame ∈ s.rig.written) ∧ s.rig.received ++ chunk <+: frames.flatten
  | _ => True

/-- What was written comes back as it was. -/
def Echoes (s : Running) : Event → Prop
  | .receive chunk _ => s.rig.received ++ chunk <+: s.rig.written.flatten
  | _ => True

/-! ## Whole frames -/

theorem scan_frames {size : Nat} (hsize : HEADER_SIZE ≤ size) (hshort : size < 2 ^ 16) (frames : List Sent)
    {bytes : List Byte} (h : bytes <+: (frames.map fun frame => frame.bytes size).flatten) :
    scan size bytes = (frames.take (bytes.length / size)).map fun frame => frame.parsed size := by
  have hpos : 0 < size := Nat.lt_of_lt_of_le (by decide) hsize
  induction frames generalizing bytes with
  | nil =>
      rw [List.map_nil, List.flatten_nil, List.prefix_nil] at h
      subst h
      rw [List.take_nil]
      exact Windows.scan_nil 0
  | cons frame frames ih =>
      have hlen : (frame.bytes size).length = size := length_buildFrame hsize _ _
      rw [List.map_cons, List.flatten_cons] at h
      by_cases hwait : bytes.length < size
      · rw [Nat.div_eq_of_lt hwait, List.take_zero]
        exact Windows.scan_short (full_validateFrame size) hwait
      · obtain ⟨rest, rfl⟩ := List.prefix_of_prefix_length_le (List.prefix_append _ _) h (by omega)
        have hrest := ih ((List.prefix_append_right_inj _).mp h)
        rw [scan_intact hsize hshort, hrest, List.length_append, hlen, Nat.add_div_left _ hpos, List.take_succ_cons,
          List.map_cons]

theorem exists_frames {size : Nat} {frames : List Sent} {pieces : List (List Byte)}
    (h : ∀ piece ∈ pieces, piece ∈ frames.map fun frame => frame.bytes size) :
    ∃ given : List Sent, pieces = given.map (fun frame => frame.bytes size) ∧ ∀ frame ∈ given, frame ∈ frames := by
  induction pieces with
  | nil => exact ⟨[], rfl, by simp⟩
  | cons piece pieces ih =>
      obtain ⟨frame, hframe, rfl⟩ := List.mem_map.mp (h piece List.mem_cons_self)
      obtain ⟨given, rfl, hgiven⟩ := ih fun piece hp => h piece (List.mem_cons_of_mem _ hp)
      refine ⟨frame :: given, rfl, fun frame' hf => ?_⟩
      rcases List.mem_cons.mp hf with rfl | hf
      · exact hframe
      · exact hgiven frame' hf

theorem eq_range_of_prefix {xs : List Nat} {n : Nat} (h : xs <+: List.range n) : xs = List.range xs.length := by
  have hle := h.length_le
  rw [List.length_range] at hle
  have htake := List.prefix_iff_eq_take.mp h
  rw [List.take_range, Nat.min_eq_left hle] at htake
  exact htake

theorem CountsUp.of_prefix {history history' : List Mark} (h : CountsUp history) (hpre : history' <+: history) :
    CountsUp history' := by
  have hsent : sent history' <+: sent history := hpre.filterMap _
  rw [h] at hsent
  exact eq_range_of_prefix hsent

theorem Answers.of_prefix {history history' : List Mark} (h : Answers history) (hpre : history' <+: history) :
    Answers history' :=
  fun before frame receivedTime hbefore => h before frame receivedTime (hbefore.trans hpre)

section
variable {s : Rig} {t : Ledger}

theorem Known.countsUp (h : Known args s t) : CountsUp s.history := by
  rw [CountsUp, h.sent, List.length_range]

/-- The frames that were found and those that are still to be marked are what a scan of the stream reads. -/
theorem Known.scan_received (h : Known args s t) : scan args.size s.received = handled s.history ++ s.found := by
  have hreads := h.reads []
  rw [List.append_nil, List.append_nil, h.rest, List.append_nil] at hreads
  exact hreads

theorem Known.seq_lt (h : Known args s t) {frame : Sent} (hf : frame ∈ t.frames) : frame.seq < t.frames.length := by
  have hmem := List.mem_map_of_mem (f := Sent.seq) hf
  rw [h.numbered] at hmem
  exact List.mem_range.mp hmem

end

/-! ## A link that gives back whole frames -/

/-- No frame is received that was not sent before. -/
structure Genuine (s : Rig) : Prop where
  found : ∀ frame ∈ s.found, frame.seq ∈ sent s.history
  answers : Answers s.history

/-- The main thread writes more and adds to the calls at most one that sends a frame. -/
structure OnlySends (s s' : Rig) : Prop where
  found : s'.found = s.found
  received : s'.received = s.received
  written : s.written <+: s'.written
  history : s'.history = s.history ∨ ∃ seq sentTime, s'.history = s.history ++ [.tx seq sentTime]

theorem OnlySends.refl (s : Rig) : OnlySends s s := ⟨rfl, rfl, List.prefix_rfl, .inl rfl⟩

theorem onlySends_perform {w : Choice} {s s' : Rig} {o : Op} {a : Answer o} (h : s.perform w o = some (a, s')) :
    OnlySends s s' := by
  cases o with
  | call c =>
      cases c with
      | writeStream payload =>
          rw [Rig.perform] at h
          split at h
          · cases h
            exact ⟨rfl, rfl, List.prefix_append _ _, .inl rfl⟩
          · cases h
            exact .refl s
      | _ =>
          cases h
          exact .refl s
  | markTx seq sentTime =>
      cases h
      exact ⟨rfl, rfl, List.prefix_rfl, .inr ⟨seq, sentTime, rfl⟩⟩
  | _ =>
      cases h
      exact ⟨rfl, rfl, List.prefix_rfl, .inl rfl⟩

theorem onlySends_main (s : Running) (w : Choice) : OnlySends s.rig (s.step (.main w)).rig := by
  have hstep : (s.step (.main w)).rig = (s.main.turn (Rig.perform w) s.rig).1 := rfl
  rw [hstep]
  rcases Prog.turn_cases (Rig.perform w) s.rig s.main with hsame | ⟨o, next, a, rig, -, hp, hrig⟩
  · rw [hsame]
    exact .refl s.rig
  · rw [hrig]
    exact onlySends_perform hp

theorem Genuine.later {s s' : Rig} (h : Genuine s) (hs : OnlySends s s') : Genuine s' := by
  rcases hs.history with hsame | ⟨seq, sentTime, hmore⟩
  · exact ⟨by rw [hs.found, hsame]; exact h.found, hsame ▸ h.answers⟩
  · refine ⟨fun frame hf => ?_, hmore ▸ h.answers.concat fun _ _ he => by cases he⟩
    rw [hmore, sent_append]
    exact List.mem_append_left _ (h.found frame (hs.found ▸ hf))

theorem Genuine.markNext {s : Rig} (h : Genuine s) : Genuine s.markNext := by
  rw [Rig.markNext]
  split
  · exact h
  · rename_i frame rest hf
    refine ⟨fun frame' hf' => ?_, h.answers.concat fun _ _ he => ?_⟩
    · refine (congrArg (frame'.seq ∈ ·) (sent_rx _ _ _)).mpr (h.found frame' ?_)
      rw [hf]
      exact List.mem_cons_of_mem _ hf'
    · cases he
      exact h.found _ (hf ▸ List.mem_cons_self)

theorem Genuine.receive {s : Rig} {t : Ledger} (h : Genuine s) (hk : Known args s t) (hh : s.handler = true)
    (hf : s.found = []) {chunk : List Byte} {frames : List (List Byte)} (hall : ∀ frame ∈ frames, frame ∈ s.written)
    (hpre : s.received ++ chunk <+: frames.flatten) (now : ℚ) : Genuine (s.receive chunk now) := by
  refine ⟨fun frame hframe => ?_, h.answers⟩
  have hscan := (hk.receive hh hf chunk now).scan_received
  have hmem : frame ∈ scan args.size (s.received ++ chunk) := by
    refine (congrArg (frame ∈ ·) hscan).mpr (List.mem_append_right _ hframe)
  rw [hk.written] at hall
  obtain ⟨given, rfl, hgiven⟩ := exists_frames hall
  cases hframes : t.frames with
  | nil =>
      -- nothing was written, so nothing comes back
      have hempty : given = [] := List.eq_nil_iff_forall_not_mem.mpr fun frame hm => by
        rw [hframes] at hgiven
        cases hgiven frame hm
      rw [hempty, List.map_nil, List.flatten_nil, List.prefix_nil] at hpre
      rw [hpre, scan, Windows.scan_nil] at hmem
      cases hmem
  | cons first more =>
      obtain ⟨hsize, hshort⟩ := hk.fits (hframes ▸ List.cons_ne_nil _ _)
      rw [scan_frames hsize hshort given hpre] at hmem
      obtain ⟨frame', hframe', rfl⟩ := List.mem_map.mp hmem
      have hlt := hk.seq_lt (hgiven frame' (List.mem_of_mem_take hframe'))
      show frame'.seq ∈ sent s.history
      rw [hk.sent, List.mem_range]
      exact Nat.lt_of_lt_of_le hlt hk.marked

theorem Genuine.step {s : Running} (h : Genuine s.rig) (ht : Told args s) {e : Event} (hg : GivesBack s e) :
    Genuine (s.step e).rig := by
  obtain ⟨t, hk, -⟩ := ht
  cases e with
  | main w => exact h.later (onlySends_main s w)
  | markNext => exact h.markNext
  | receive chunk now =>
      rw [Running.step]
      split
      · rename_i hcalled
        obtain ⟨frames, hall, hpre⟩ := hg
        exact h.receive hk hcalled.1 hcalled.2 hall hpre now
      · exact h

/-- The accounts are exact, and a printed line calls those frames lost that it calls outstanding. -/
structure Right (s : Rig) : Prop where
  counts : CountsUp s.history
  exact : Exact s.stats s.history
  printed : ∀ line ∈ s.printed, ∀ snapshot, line.snapshot? = some snapshot →
    snapshot.lostFrames = snapshot.outstandingFrames

theorem Genuine.right {s : Rig} {t : Ledger} (h : Genuine s) (hk : Known args s t) : Right s where
  counts := hk.countsUp
  exact := hk.stats ▸ exact_of_answers hk.countsUp h.answers
  printed line hline snapshot hs := by
    obtain ⟨history, elapsed, hpre, rfl⟩ := hk.printed line hline snapshot hs
    have hanswers := h.answers.of_prefix hpre
    have hcounts := hk.countsUp.of_prefix hpre
    have hexact : Exact (accounts args.size history) history := exact_of_answers hcounts hanswers
    rw [hexact.lost, ← awaited_eq hanswers, ← hexact.outstanding]
    rfl

/-- Whatever is lost, late or repeated, the test counts it rightly in every state. -/
theorem whole_frames_counted (h : Runs.Along GivesBack Running.step (.start args) es) :
    Right (Runs.run Running.step (.start args) es).rig := by
  have hstart : Genuine (Running.start args).rig := by
    refine ⟨fun frame hf => ?_, fun before frame receivedTime hpre => ?_⟩
    · cases hf
    · simp [Running.start, Rig.init] at hpre
  have hrun := Runs.run_invariant_along (P := fun s => Told args s ∧ Genuine s.rig)
    (fun s e hg hs => ⟨hs.1.step e, hs.2.step hs.1 hg⟩) ⟨told_start args, hstart⟩ h
  obtain ⟨⟨t, hk, -⟩, hgenuine⟩ := hrun
  exact hgenuine.right hk

theorem along_main {C : Running → Event → Prop} (hc : ∀ s w, C s (.main w)) (s : Running) (choices : List Choice) :
    Runs.Along C Running.step s (choices.map .main) := by
  induction choices generalizing s with
  | nil => trivial
  | cons w choices ih => exact ⟨hc s w, ih _⟩

/-- Two frames of 20 bytes may be outstanding. -/
def pairArgs : Args := ⟨Client.str "aa", 0, [], [], 3, 10, 1, 20, .echoGated, 2, 1, 5⟩

/-- In these turns of the main thread the first two frames are written. -/
def pairTurns : List Event :=
  (List.replicate 20 (quietChoice 0) ++ List.replicate 20 (quietChoice 1)).map .main

theorem pairTurns_written :
    (Runs.run Running.step (.start pairArgs) pairTurns).rig.written = [buildFrame 0 0 20, buildFrame 1 1000 20] ∧
      (Runs.run Running.step (.start pairArgs) pairTurns).rig.received = [] := by decide +kernel

/-- The first frame is lost, and the second one comes back and is counted. -/
def secondOnly : List Event := pairTurns ++ [.receive (buildFrame 1 1000 20) 2, .markNext]

theorem whole_frames_counted_second :
    Right (Runs.run Running.step (.start pairArgs) secondOnly).rig ∧
      (Runs.run Running.step (.start pairArgs) secondOnly).rig.stats.outstanding = 1 := by
  refine ⟨whole_frames_counted (Runs.along_append.mpr ⟨along_main (fun _ _ => trivial) _ _, ?_⟩), by decide +kernel⟩
  obtain ⟨hwritten, hreceived⟩ := pairTurns_written
  refine ⟨⟨[buildFrame 1 1000 20], fun frame hf => ?_, ?_⟩, trivial, trivial⟩
  · rw [hwritten, List.mem_singleton.mp hf]
    exact List.mem_cons_of_mem _ List.mem_cons_self
  · rw [hreceived, List.nil_append, List.flatten_singleton]

/-! ## A link that echoes the stream -/

/-- Frames that come in order are neither late nor repeated. -/
theorem accounts_inOrder (size : Nat) {history : List Mark}
    (h : received history = List.range (received history).length) :
    (accounts size history).duplicateFrames = 0 ∧ (accounts size history).reorderedFrames = 0 ∧
      (accounts size history).rxFrames = (received history).length ∧
      (accounts size history).lastRxSeq = ((received history).length : Int) - 1 := by
  induction history using List.reverseRecOn with
  | nil => exact ⟨rfl, rfl, rfl, rfl⟩
  | append_singleton history m ih =>
      have hbefore : received history = List.range (received history).length := by
        apply eq_range_of_prefix (n := (received (history ++ [m])).length)
        rw [← h, received_append]
        exact List.prefix_append _ _
      obtain ⟨hdup, hreorder, hcount, hlast⟩ := ih hbefore
      have hbooks := books size history
      rw [accounts_concat]
      cases m with
      | tx seq sentTime =>
          have hsame : received (history ++ [.tx seq sentTime]) = received history := by simp [received, Mark.received?]
          rw [hsame]
          exact ⟨hdup, hreorder, hcount, hlast⟩
      | rx frame receivedTime =>
          have hmore : received (history ++ [.rx frame receivedTime]) = received history ++ [frame.seq] := by
            simp [received, Mark.received?]
          rw [hmore, List.length_append, List.length_singleton, List.range_succ, ← hbefore] at h
          have hseq : frame.seq = (received history).length := by simpa using List.append_cancel_left h
          have hnew : frame.seq ∉ (accounts size history).rxSeen := by
            rw [hbooks.seen, hbefore, List.mem_range]
            omega
          have hnotBefore : ¬(0 ≤ (accounts size history).lastRxSeq ∧
              (frame.seq : Int) < (accounts size history).lastRxSeq) := by omega
          have hmax : max (accounts size history).lastRxSeq (frame.seq : Int) = frame.seq := by omega
          rw [mark, StreamStats.markRx, if_neg hnew, if_neg hnotBefore, hmax, hmore, List.length_append,
            List.length_singleton]
          have hend : (frame.seq : Int) = (((received history).length + 1 : Nat) : Int) - 1 := by omega
          dsimp only
          split
          · exact ⟨hdup, hreorder, congrArg (· + 1) hcount, hend⟩
          · exact ⟨hdup, hreorder, congrArg (· + 1) hcount, hend⟩

/-- Every whole frame that came back is counted or is about to be, and none is taken for a late or a repeated one. -/
structure Clean (args : Args) (s : Rig) : Prop where
  counted : s.stats.rxFrames + s.found.length = s.received.length / args.size
  duplicates : s.stats.duplicateFrames = 0
  reordered : s.stats.reorderedFrames = 0
  printed : ∀ line ∈ s.printed, ∀ snapshot, line.snapshot? = some snapshot →
    snapshot.duplicateFrames = 0 ∧ snapshot.reorderedFrames = 0

theorem Known.clean {s : Rig} {t : Ledger} (hk : Known args s t) (h : s.received <+: s.written.flatten) :
    Clean args s := by
  rw [hk.written] at h
  have hseqs : received s.history ++ s.found.map ParsedFrame.seq = List.range (s.received.length / args.size) := by
    rw [received_eq, ← List.map_append, ← hk.scan_received]
    cases hframes : t.frames with
    | nil =>
        rw [hframes, List.map_nil, List.flatten_nil, List.prefix_nil] at h
        rw [h, scan, Windows.scan_nil, List.length_nil, Nat.zero_div]
        rfl
    | cons first more =>
        obtain ⟨hsize, hshort⟩ := hk.fits (hframes ▸ List.cons_ne_nil _ _)
        have hpos : 0 < args.size := Nat.lt_of_lt_of_le (by decide) hsize
        have hlen : ((t.frames.map fun frame => frame.bytes args.size).flatten).length = t.frames.length * args.size := by
          rw [List.length_flatten, List.map_map]
          have hall : List.map (List.length ∘ fun frame : Sent => frame.bytes args.size) t.frames =
              t.frames.map fun _ => args.size :=
            List.map_congr_left fun frame _ => length_buildFrame hsize frame.seq frame.txMs
          rw [hall, List.map_const', List.sum_replicate_nat]
        have hle : s.received.length / args.size ≤ t.frames.length := by
          refine Nat.div_le_of_le_mul ?_
          rw [Nat.mul_comm, ← hlen]
          exact h.length_le
        rw [scan_frames hsize hshort t.frames h, List.map_map]
        have hnumbers : List.map (ParsedFrame.seq ∘ fun frame : Sent => frame.parsed args.size)
            (t.frames.take (s.received.length / args.size)) =
              (t.frames.map Sent.seq).take (s.received.length / args.size) := List.map_take
        rw [hnumbers, hk.numbered, List.take_range, Nat.min_eq_left hle]
  have hinOrder : ∀ history, history <+: s.history → received history = List.range (received history).length := by
    intro history hpre
    refine eq_range_of_prefix (n := s.received.length / args.size) ?_
    rw [← hseqs]
    exact (hpre.filterMap _).trans (List.prefix_append _ _)
  obtain ⟨hdup, hreorder, hcount, -⟩ := accounts_inOrder args.size (hinOrder _ List.prefix_rfl)
  rw [← hk.stats] at hdup hreorder hcount
  refine ⟨?_, hdup, hreorder, fun line hline snapshot hs => ?_⟩
  · have hlen := congrArg List.length hseqs
    rw [List.length_append, List.length_map, List.length_range] at hlen
    rw [hcount, hlen]
  · obtain ⟨history, elapsed, hpre, rfl⟩ := hk.printed line hline snapshot hs
    obtain ⟨hdup', hreorder', -, -⟩ := accounts_inOrder args.size (hinOrder history hpre)
    exact ⟨hdup', hreorder'⟩

/-- What came back is still the beginning of what was written. -/
theorem echoed_step {s : Running} (h : s.rig.received <+: s.rig.written.flatten) {e : Event} (he : Echoes s e) :
    (s.step e).rig.received <+: (s.step e).rig.written.flatten := by
  cases e with
  | main w =>
      have hs := onlySends_main s w
      obtain ⟨more, hmore⟩ := hs.written
      rw [hs.received, ← hmore, List.flatten_append]
      exact h.trans (List.prefix_append _ _)
  | markNext =>
      rw [Running.step, Rig.markNext]
      split
      · exact h
      · exact h
  | receive chunk now =>
      rw [Running.step]
      split
      · exact he
      · exact h

/-- Over such a link the test reports neither late nor repeated frames, and no frame that came back is left out. -/
theorem echo_counted (h : Runs.Along Echoes Running.step (.start args) es) :
    Clean args (Runs.run Running.step (.start args) es).rig := by
  have hrun := Runs.run_invariant_along (P := fun s => Told args s ∧ s.rig.received <+: s.rig.written.flatten)
    (fun s e he hs => ⟨hs.1.step e, echoed_step hs.2 he⟩) ⟨told_start args, List.prefix_rfl⟩ h
  obtain ⟨⟨t, hk, -⟩, hechoed⟩ := hrun
  exact hk.clean hechoed

/-- Both frames come back, cut in another place. -/
def bothEchoed : List Event :=
  pairTurns ++ [.receive ((buildFrame 0 0 20 ++ buildFrame 1 1000 20).take 30) 2, .markNext,
    .receive ((buildFrame 0 0 20 ++ buildFrame 1 1000 20).drop 30) 3]

theorem echo_counted_both :
    Clean pairArgs (Runs.run Running.step (.start pairArgs) bothEchoed).rig ∧
      (Runs.run Running.step (.start pairArgs) bothEchoed).rig.received.length = 40 := by
  refine ⟨echo_counted (Runs.along_append.mpr ⟨along_main (fun _ _ => trivial) _ _, ?_⟩), by decide +kernel⟩
  obtain ⟨hwritten, hreceived⟩ := pairTurns_written
  refine ⟨?_, trivial, ?_, trivial⟩
  · show _ ++ _ <+: List.flatten _
    rw [hwritten, hreceived]
    decide
  · show _ ++ _ <+: List.flatten _
    decide +kernel

/-! ## The gated mode -/

/-- Whatever comes back and when, in the gated mode no more frames are outstanding than allowed. -/
theorem gate_holds (hmode : args.mode = .echoGated) (es : List Event) :
    ((Runs.run Running.step (.start args) es).rig.stats.outstanding : Int) ≤ max args.maxOutstanding 0 := by
  obtain ⟨t, hk, -⟩ := told_run args es
  exact hk.gate hmode

/-- The third frame is due, but the gate is shut. -/
def thirdDue : List Event := pairTurns ++ (List.replicate 20 (quietChoice 2)).map .main

theorem gate_holds_full :
    ((Runs.run Running.step (.start pairArgs) thirdDue).rig.stats.outstanding : Int) ≤ max pairArgs.maxOutstanding 0 ∧
      (Runs.run Running.step (.start pairArgs) thirdDue).rig.stats.outstanding = 2 :=
  ⟨gate_holds rfl thirdDue, by decide +kernel⟩

end BleAtHost.StreamTest
