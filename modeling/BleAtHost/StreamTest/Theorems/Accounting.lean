import Mathlib.Data.List.Nodup
import Mathlib.Data.List.Perm.Subperm
import BleAtHost.StreamTest.Stats

/-!
# The accounts against the history

A frame that is received before its sequence number is sent counts as received and is remembered as seen, so the
frame that answers the later one is taken for a duplicate.
-/

namespace BleAtHost.StreamTest

variable {frameSize : Nat} {history : List Mark} {m : Mark}

/-- The accounts say what the history says. -/
structure Exact (s : StreamStats) (history : List Mark) : Prop where
  outstanding : s.outstanding = (awaited history).length
  lost : ∀ elapsed, (s.snapshot elapsed).lostFrames = (neverReceived history).length

/-- Every frame that is received answers one that was sent before. -/
def Answers (history : List Mark) : Prop :=
  ∀ before frame receivedTime, before ++ [.rx frame receivedTime] <+: history → frame.seq ∈ sent before

/-! ## The history -/

@[simp] theorem sent_append (history history' : List Mark) : sent (history ++ history') = sent history ++ sent history' :=
  List.filterMap_append

@[simp] theorem received_append (history history' : List Mark) :
    received (history ++ history') = received history ++ received history' := List.filterMap_append

theorem accounts_concat (history : List Mark) (m : Mark) :
    accounts frameSize (history ++ [m]) = mark (accounts frameSize history) m := List.foldl_concat ..

theorem CountsUp.nodup (h : CountsUp history) : (sent history).Nodup := by
  rw [h]
  exact List.nodup_range

theorem CountsUp.left (h : CountsUp (history ++ [m])) : CountsUp history := by
  unfold CountsUp at h ⊢
  rw [sent_append] at h
  have hpre : sent history <+: List.range (sent history ++ sent [m]).length := h ▸ List.prefix_append _ _
  obtain ⟨rest, hrest⟩ := hpre
  have htake := congrArg (List.take (sent history).length) hrest
  rw [List.take_left, List.take_range, List.length_append, Nat.min_eq_left (Nat.le_add_right _ _)] at htake
  exact htake

theorem Answers.left (h : Answers (history ++ [m])) : Answers history :=
  fun before frame receivedTime hpre => h before frame receivedTime (hpre.trans (List.prefix_append _ _))

theorem Answers.concat (h : Answers history) (hm : ∀ frame receivedTime, m = .rx frame receivedTime →
    frame.seq ∈ sent history) : Answers (history ++ [m]) := by
  intro before frame receivedTime hpre
  rcases List.prefix_concat_iff.mp hpre with he | hpre
  · obtain ⟨rfl, hlast⟩ := List.append_inj' he rfl
    exact hm frame receivedTime (List.singleton_inj.mp hlast).symm
  · exact h before frame receivedTime hpre

theorem Answers.sent_of_received (h : Answers history) {seq : Nat} (hseq : seq ∈ received history) :
    seq ∈ sent history := by
  obtain ⟨m, hm, hreceived⟩ := List.mem_filterMap.mp hseq
  cases m with
  | tx seq sentTime => cases hreceived
  | rx frame receivedTime =>
      cases hreceived
      obtain ⟨before, after, rfl⟩ := List.append_of_mem hm
      have hbefore := h before frame receivedTime ⟨after, by simp⟩
      rw [sent_append]
      exact List.mem_append_left _ hbefore

/-- Then nothing is received for a sequence number before it is sent. -/
theorem received_sinceSent (h : Answers history) (seq : Nat) :
    seq ∈ received (sinceSent seq history) ↔ seq ∈ received history := by
  have hsplit : (history.takeWhile fun m => m.sent? ≠ some seq) ++ sinceSent seq history = history :=
    List.takeWhile_append_dropWhile
  have hbefore : seq ∉ received (history.takeWhile fun m => m.sent? ≠ some seq) := by
    intro hmem
    have hans : Answers (history.takeWhile fun m => m.sent? ≠ some seq) := by
      intro before frame receivedTime hpre
      exact h before frame receivedTime (hpre.trans (List.takeWhile_prefix _))
    obtain ⟨m, hm, hsent⟩ := List.mem_filterMap.mp (hans.sent_of_received hmem)
    simpa [hsent] using List.mem_takeWhile_imp hm
  nth_rewrite 2 [← hsplit]
  rw [received_append, List.mem_append]
  exact ⟨.inr, fun hm => hm.resolve_left hbefore⟩

theorem awaited_eq (h : Answers history) : awaited history = neverReceived history := by
  apply List.filter_congr
  intro seq _
  exact decide_eq_decide.mpr (not_congr (received_sinceSent h seq))

theorem length_sent (history : List Mark) :
    (sent history).length =
      ((sent history).filter fun seq => seq ∈ received history).length + (neverReceived history).length := by
  rw [List.length_eq_countP_add_countP fun seq => decide (seq ∈ received history), List.countP_eq_length_filter,
    List.countP_eq_length_filter, neverReceived]
  simp only [decide_eq_true_eq]

/-! ## What the accounts hold in any history -/

structure Books (s : StreamStats) (history : List Mark) : Prop where
  txFrames : s.txFrames = (sent history).length
  rxFrames : s.rxFrames = s.rxSeen.length
  once : s.rxSeen.Nodup
  seen : ∀ seq, seq ∈ s.rxSeen ↔ seq ∈ received history
  distinct : KeyStore.Distinct s.txTimestamps

theorem Books.mark {s : StreamStats} (h : Books s history) (m : Mark) : Books (StreamTest.mark s m) (history ++ [m]) := by
  cases m with
  | tx seq sentTime =>
      refine ⟨?_, h.rxFrames, h.once, ?_, h.distinct.save seq sentTime⟩
      · rw [sent_append, List.length_append, ← h.txFrames]
        rfl
      · intro seq'
        have hreceived : received (history ++ [.tx seq sentTime]) = received history := by
          simp [received, Mark.received?]
        rw [hreceived]
        exact h.seen seq'
  | rx frame receivedTime =>
      have hsent : sent (history ++ [.rx frame receivedTime]) = sent history := by simp [sent, Mark.sent?]
      have hreceived : received (history ++ [.rx frame receivedTime]) = received history ++ [frame.seq] := by
        simp [received, Mark.received?]
      rw [StreamTest.mark, StreamStats.markRx]
      split
      · rename_i hseen
        refine ⟨hsent ▸ h.txFrames, h.rxFrames, h.once, fun seq => ?_, h.distinct⟩
        rw [hreceived, List.mem_append, List.mem_singleton, ← h.seen]
        exact ⟨.inl, fun hs => hs.elim id fun he => he ▸ hseen⟩
      · rename_i hnew
        have hseen : ∀ seq, seq ∈ frame.seq :: s.rxSeen ↔ seq ∈ received (history ++ [.rx frame receivedTime]) := by
          intro seq
          rw [hreceived, List.mem_append, List.mem_singleton, List.mem_cons, h.seen, or_comm]
        have hcount : s.rxFrames + 1 = (frame.seq :: s.rxSeen).length := by rw [h.rxFrames, List.length_cons]
        dsimp only
        split
        · exact ⟨hsent ▸ h.txFrames, hcount, List.nodup_cons.mpr ⟨hnew, h.once⟩, hseen, h.distinct⟩
        · exact ⟨hsent ▸ h.txFrames, hcount, List.nodup_cons.mpr ⟨hnew, h.once⟩, hseen,
            List.Nodup.sublist (List.filter_sublist.map Prod.fst) h.distinct⟩

theorem books (frameSize : Nat) (history : List Mark) : Books (accounts frameSize history) history := by
  induction history using List.reverseRecOn with
  | nil => exact ⟨rfl, rfl, List.nodup_nil, fun _ => Iff.rfl, KeyStore.distinct_nil⟩
  | append_singleton history m ih =>
      rw [accounts_concat]
      exact ih.mark m

/-! ## What else they hold if every frame answers one -/

/-- The times that are kept are those of the sequence numbers for which nothing was received. -/
theorem timestamps (frameSize : Nat) (hcount : CountsUp history) (h : Answers history) (seq : Nat) :
    seq ∈ (accounts frameSize history).txTimestamps.map Prod.fst ↔ seq ∈ neverReceived history := by
  induction history using List.reverseRecOn with
  | nil => simp [accounts, StreamStats.init, neverReceived, sent]
  | append_singleton history m ih =>
      have hbooks := books frameSize history
      have hih := ih hcount.left h.left
      rw [accounts_concat]
      simp only [neverReceived, List.mem_filter, decide_eq_true_eq] at hih ⊢
      cases m with
      | tx new sentTime =>
          have hsent : sent (history ++ [.tx new sentTime]) = sent history ++ [new] := by simp [sent, Mark.sent?]
          have hreceived : received (history ++ [.tx new sentTime]) = received history := by
            simp [received, Mark.received?]
          have hfresh : new ∉ sent history := by
            have hnodup := hcount.nodup
            rw [hsent, List.nodup_append] at hnodup
            exact fun hm => hnodup.2.2 new hm new List.mem_cons_self rfl
          have hunanswered : new ∉ received history := fun hm => hfresh (h.left.sent_of_received hm)
          rw [hsent, hreceived, List.mem_append, List.mem_singleton]
          refine KeyStore.mem_keys_save.trans ?_
          rw [hih]
          constructor
          · rintro (rfl | ⟨hs, hr⟩)
            · exact ⟨.inr rfl, hunanswered⟩
            · exact ⟨.inl hs, hr⟩
          · rintro ⟨hs | rfl, hr⟩
            · exact .inr ⟨hs, hr⟩
            · exact .inl rfl
      | rx frame receivedTime =>
          have hsent : sent (history ++ [.rx frame receivedTime]) = sent history := by simp [sent, Mark.sent?]
          have hreceived : received (history ++ [.rx frame receivedTime]) = received history ++ [frame.seq] := by
            simp [received, Mark.received?]
          have hsplit : seq ∈ sent history ∧ seq ∉ received history ++ [frame.seq] ↔
              seq ≠ frame.seq ∧ seq ∈ sent history ∧ seq ∉ received history := by
            rw [List.mem_append, List.mem_singleton, not_or]
            constructor
            · rintro ⟨hs, hr, hne⟩
              exact ⟨hne, hs, hr⟩
            · rintro ⟨hne, hs, hr⟩
              exact ⟨hs, hr, hne⟩
          rw [hsent, hreceived, hsplit, ← hih, StreamTest.mark, StreamStats.markRx]
          split
          · -- a frame that was seen has no time any more
            rename_i hseen
            refine ⟨fun hm => ⟨?_, hm⟩, fun hm => hm.2⟩
            rintro rfl
            exact (hih.mp hm).2 ((hbooks.seen _).mp hseen)
          · dsimp only
            split
            · rename_i hnone
              refine ⟨fun hm => ⟨?_, hm⟩, fun hm => hm.2⟩
              rintro rfl
              exact KeyStore.get_eq_none_iff.mp hnone hm
            · exact KeyStore.mem_keys_filter

theorem exact_of_answers (hcount : CountsUp history) (h : Answers history) :
    Exact (accounts frameSize history) history := by
  have hbooks := books frameSize history
  have hout : (accounts frameSize history).outstanding = (neverReceived history).length := by
    have hnodup : (neverReceived history).Nodup := hcount.nodup.filter _
    have hperm := (List.perm_ext_iff_of_nodup hbooks.distinct hnodup).mpr (timestamps frameSize hcount h)
    rw [← hperm.length_eq, List.length_map]
    rfl
  have hlost : (accounts frameSize history).rxFrames + (neverReceived history).length =
      (accounts frameSize history).txFrames := by
    have hseen : (accounts frameSize history).rxSeen.Perm
        ((sent history).filter fun seq => seq ∈ received history) := by
      apply (List.perm_ext_iff_of_nodup hbooks.once (hcount.nodup.filter _)).mpr
      intro seq
      rw [hbooks.seen, List.mem_filter, decide_eq_true_eq]
      exact ⟨fun hr => ⟨h.sent_of_received hr, hr⟩, fun hr => hr.2⟩
    rw [hbooks.rxFrames, hbooks.txFrames, hseen.length_eq, length_sent]
  refine ⟨?_, fun elapsed => ?_⟩
  · rw [hout, awaited_eq h]
  · have hsnapshot : ((accounts frameSize history).snapshot elapsed).lostFrames =
        ((accounts frameSize history).txFrames : Int) - (accounts frameSize history).rxFrames := rfl
    rw [hsnapshot]
    omega

/-! ## And if one does not -/

/-- Such a frame makes the count of lost frames too small. -/
theorem not_exact_of_early (hcount : CountsUp history) {seq : Nat} (hseq : seq ∈ received history)
    (hearly : seq ∉ sent history) : ¬Exact (accounts frameSize history) history := by
  intro h
  have hbooks := books frameSize history
  have hlost := h.lost 0
  have hsnapshot : ((accounts frameSize history).snapshot 0).lostFrames =
      ((accounts frameSize history).txFrames : Int) - (accounts frameSize history).rxFrames := rfl
  have hmore : (seq :: (sent history).filter fun seq => seq ∈ received history).length ≤
      (accounts frameSize history).rxSeen.length := by
    apply List.Subperm.length_le
    apply List.subperm_of_subset
    · refine List.nodup_cons.mpr ⟨fun hm => hearly (List.mem_of_mem_filter hm), hcount.nodup.filter _⟩
    · intro seq' hm
      rw [hbooks.seen]
      rcases List.mem_cons.mp hm with rfl | hm
      · exact hseq
      · simpa using (List.mem_filter.mp hm).2
  have htotal := length_sent history
  rw [hsnapshot, hbooks.txFrames, hbooks.rxFrames] at hlost
  rw [List.length_cons] at hmore
  omega

/-- The accounts are exact all the time if and only if every frame that is received answers one that was sent. -/
theorem accounts_exact_iff (frameSize : Nat) (hcount : CountsUp history) :
    (∀ history', history' <+: history → Exact (accounts frameSize history') history') ↔ Answers history := by
  have hcounts : ∀ history', history' <+: history → CountsUp history' := by
    intro history' hpre
    obtain ⟨rest, rfl⟩ := hpre
    induction rest using List.reverseRecOn with
    | nil => rwa [List.append_nil] at hcount
    | append_singleton rest m ih =>
        rw [← List.append_assoc] at hcount
        exact ih hcount.left
  constructor
  · intro h before frame receivedTime hpre
    by_contra hearly
    have hsent : sent (before ++ [.rx frame receivedTime]) = sent before := by simp [sent, Mark.sent?]
    have hreceived : frame.seq ∈ received (before ++ [.rx frame receivedTime]) := by simp [received, Mark.received?]
    exact not_exact_of_early (hcounts _ hpre) hreceived (hsent ▸ hearly) (h _ hpre)
  · intro h history' hpre
    apply exact_of_answers (hcounts history' hpre)
    exact fun before frame receivedTime hbefore => h before frame receivedTime (hbefore.trans hpre)

/-- Two frames are sent, and they are answered in the other order, one of them twice. -/
def answeredHistory : List Mark :=
  [.tx 0 0, .tx 1 1, .rx ⟨1, 1000, 190⟩ 2, .rx ⟨1, 1000, 190⟩ 3, .rx ⟨0, 0, 190⟩ 4]

theorem accounts_exact_answered : Exact (accounts 190 answeredHistory) answeredHistory := by
  refine (accounts_exact_iff 190 (by decide)).mpr ?_ answeredHistory List.prefix_rfl
  have hnone : Answers [] := by
    intro before frame receivedTime hpre
    simp at hpre
  have hsent : Answers [.tx 0 0, .tx 1 1] :=
    (hnone.concat fun _ _ he => by cases he).concat fun _ _ he => by cases he
  apply ((hsent.concat ?_).concat ?_).concat ?_
  all_goals
    rintro frame receivedTime ⟨⟩
    decide

/-- A frame of an earlier run comes in first, then the frame with its number is sent and answered. -/
def lateHistory : List Mark := [.rx ⟨0, 5000, 190⟩ 1, .tx 0 2, .rx ⟨0, 2000, 190⟩ 3]

/-- After the late frame the count of lost frames is negative, and in the end the answered frame is outstanding. -/
theorem late_frame_miscounted :
    CountsUp lateHistory ∧ ¬Exact (accounts 190 (lateHistory.take 1)) (lateHistory.take 1) ∧
      ((accounts 190 (lateHistory.take 1)).snapshot 1).lostFrames = -1 ∧
      ¬Exact (accounts 190 lateHistory) lateHistory ∧ (accounts 190 lateHistory).outstanding = 1 ∧
      awaited lateHistory = [] := by
  have hlost : ((accounts 190 (lateHistory.take 1)).snapshot 1).lostFrames = -1 := by decide
  have houtstanding : (accounts 190 lateHistory).outstanding = 1 := by decide
  have hawaited : awaited lateHistory = [] := by decide
  refine ⟨by decide, fun h => ?_, hlost, fun h => ?_, houtstanding, hawaited⟩
  · have hexact := h.lost 1
    rw [hlost] at hexact
    omega
  · have hexact := h.outstanding
    rw [houtstanding, hawaited] at hexact
    cases hexact

end BleAtHost.StreamTest
