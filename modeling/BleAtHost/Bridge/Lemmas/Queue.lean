import BleAtHost.Bridge.Lemmas.Link

/-!
# The queue to the peer

`Queue.Step` is what the steps of the bridge do to `toBle` and the log, with everything else forgotten. The
invariants of the queue are proved about it.
-/

namespace BleAtHost

open Main Relation

/-- The queue to the peer with its history. -/
structure Queue where
  ring : RingBuf Byte HOST_TO_BLE_RING_SIZE
  log : List Obs

/-- Observations that do not concern the queue. -/
def Queue.Silent : Obs → Prop
  | .h2bPut _ _ | .h2bReset | .write _ _ _ | .enter _ _ => False
  | _ => True

namespace Queue

def put (q : Queue) (data : List Byte) : Queue :=
  ⟨(q.ring.put data).2, .h2bPut data (data.take q.ring.spaceGet) :: q.log⟩

def chunk (q : Queue) (n k : Nat) : List Byte := (q.ring.getClaim n).1.take k

def send (q : Queue) (n k : Nat) (result : Int) : Queue :=
  ⟨(q.ring.getClaim n).2, .write (q.chunk n k) result q.ring.claimed :: q.log⟩

def sendAccepted (q : Queue) (n k : Nat) : Queue :=
  { q.send n k 0 with ring := ((q.ring.getClaim n).2.getFinish (q.chunk n k).length).2 }

inductive Step : Queue → Queue → Prop
  | silent {q : Queue} {o : Obs} (h : Silent o) : Step q ⟨q.ring, o :: q.log⟩
  | put {q : Queue} (data : List Byte) : Step q (q.put data)
  | sendFailed {q : Queue} (n k : Nat) (result : Int) (h : result ≠ 0) : Step q (q.send n k result)
  | sendAccepted {q : Queue} (n k : Nat) : Step q (q.sendAccepted n k)
  | reset {q : Queue} : Step q ⟨.empty, .h2bReset :: q.log⟩
  | enter {q : Queue} (now : Int) : Step q ⟨q.ring, .enter now q.ring.data :: q.log⟩

variable {q q' : Queue}

/-! ## The bridge follows the queue -/

def ofBridge (b : Bridge) : Queue := ⟨b.toBle, b.log⟩

theorem silent_of_quiet (o : Obs) (h : Bridge.Quiet o) : Silent o := by
  cases o with
  | uptime | stack | callback | connUnref | profile => trivial
  | _ => exact absurd h id

theorem silent_then (o : Obs) (ho : Silent o) (h : ReflTransGen Step q q') :
    ReflTransGen Step q ⟨q'.ring, o :: q'.log⟩ := h.tail (.silent ho)

theorem rxKept (q : Queue) : Bridge.RxKept fun b => ReflTransGen Step q (ofBridge b) where
  take byte h := silent_then (.uptime byte.now) trivial (silent_then (.rx byte _ _) trivial h)
  uptime now h := silent_then (.uptime now) trivial h
  offer data h := h.tail (.put data)
  detector _ _ _ h := h

theorem of_activate (b : Bridge) (now : Int) : ReflTransGen Step (ofBridge b) (ofBridge (b.activate now)) := by
  rcases b.activate_cases now with h | ⟨_, _, _, _, h⟩
  · rw [h]
  · rw [h]
    have he : ofBridge (b.entered now).refresh = ofBridge (b.entered now) := by simp [ofBridge]
    rw [he]
    exact (silent_then (.uptime now) trivial ReflTransGen.refl).tail (.enter now)

theorem of_step {b b' : Bridge} (h : Bridge.Step b b') : ReflTransGen Step (ofBridge b) (ofBridge b') := by
  have hrefl : ReflTransGen Step (ofBridge b) (ofBridge b) := ReflTransGen.refl
  cases h with
  | quiet h => exact hrefl.tail (.silent (silent_of_quiet _ h))
  | rx byte => exact (rxKept _).rx hrefl byte
  | refresh => simp only [ofBridge, Bridge.refresh_toBle, Bridge.refresh_log]; exact hrefl
  | pause | idle | setMode | create | setReady => exact hrefl
  | wait now => exact silent_then (.guard now) trivial (silent_then (.uptime now) trivial hrefl)
  | expire now => exact silent_then (.guard now) trivial ((rxKept _).flush hrefl now)
  | exit now =>
      exact silent_then (.clear b.paused) trivial
        (silent_then (.exit now _) trivial (silent_then (.uptime now) trivial hrefl))
  | sendFailed n k result h => exact hrefl.tail (.sendFailed n k result h)
  | sendAccepted n k =>
      have he : ofBridge (b.sendAccepted n k) = (ofBridge b).sendAccepted n k := by
        simp only [ofBridge, Bridge.sendAccepted, Bridge.refresh_toBle, Bridge.refresh_log]; rfl
      rw [he]
      exact hrefl.tail (.sendAccepted n k)
  | notify payload =>
      by_cases hp : b.mode = .dataMode ∧ payload ≠ []
      · rw [Bridge.notify_of_dataMode hp.1 hp.2]
        exact silent_then (.b2hPut payload _) trivial (silent_then (.notify payload) trivial hrefl)
      · rw [Bridge.notify_of_not payload fun hm => by_contra fun hne => hp ⟨hm, hne⟩]
        exact silent_then (.notify payload) trivial hrefl
  | fillCtrl sent ring now =>
      have hf : ReflTransGen Step (ofBridge b) (ofBridge { b with ctrl := ring, log := .fill true sent :: b.log }) :=
        silent_then (.fill true sent) trivial hrefl
      unfold Bridge.fillCtrl
      split
      · exact hf
      · exact hf.trans (of_activate _ now)
  | activate now => exact of_activate b now
  | disconnect reason conn =>
      exact silent_then (.clear b.paused) trivial
        ((silent_then (.disconnected reason) trivial hrefl).tail .reset)
  | _ =>
      refine hrefl.tail (.silent ?_)
      trivial

def start (started : Int) : Queue := ⟨.empty, [.uptime started]⟩

theorem of_reachable {b : Bridge} (h : Bridge.Reachable b) : ∃ started, ReflTransGen Step (start started) (ofBridge b) := by
  obtain ⟨guardTime, started, hs⟩ := h
  refine ⟨started, ?_⟩
  induction hs with
  | refl => exact ReflTransGen.refl
  | tail _ hstep ih => exact ih.trans (of_step hstep)

theorem Step.log_suffix (h : Step q q') : q.log <:+ q'.log := by
  cases h with
  | silent | put | sendFailed | sendAccepted | reset | enter => exact List.suffix_cons _ _

/-! ## Silent observations -/

theorem Silent.not_reset {o : Obs} (h : Silent o) : o ≠ .h2bReset := by
  rintro rfl; exact h

theorem Silent.not_enter {o : Obs} (h : Silent o) (now : Int) (left : List Byte) : o ≠ .enter now left := by
  rintro rfl; exact h

theorem Silent.stored {o : Obs} (h : Silent o) : o.stored = [] := by
  cases o with
  | h2bPut => exact absurd h id
  | _ => rfl

theorem Silent.accepted {o : Obs} (h : Silent o) : o.accepted = [] := by
  cases o with
  | write => exact absurd h id
  | _ => rfl

/-! ## Order -/

theorem chunk_eq (q : Queue) (n k : Nat) : q.chunk n k = (q.ring.getClaim n).1.take (q.chunk n k).length := by
  rw [chunk, List.length_take, List.take_eq_take_iff]
  simp

theorem chunk_length_le (q : Queue) (n k : Nat) : (q.chunk n k).length ≤ (q.ring.getClaim n).1.length := by
  rw [chunk, List.length_take]; exact Nat.min_le_right _ _

/-- The queue loses what is taken from its tail, whatever was sent. -/
theorem sendAccepted_data (q : Queue) (n k : Nat) :
    (q.sendAccepted n k).ring.data = q.ring.data.drop (q.chunk n k).length :=
  (RingBuf.getClaim_getFinish (q.chunk_length_le n k)).1

/-- With the claimed head at the consumed tail, what is sent is what is taken. -/
theorem chunk_append_sendAccepted (q : Queue) (n k : Nat) (h : q.ring.claimed = 0) :
    q.chunk n k ++ (q.sendAccepted n k).ring.data = q.ring.data := by
  rw [chunk_eq]
  exact RingBuf.claimed_take_append h (q.chunk_length_le n k)

theorem chunk_infix (q : Queue) (n k : Nat) : q.chunk n k <:+: q.ring.data :=
  (List.take_prefix _ _).isInfix.trans ((List.take_prefix _ _).isInfix.trans (List.drop_suffix _ _).isInfix)

/-- On this connection the bytes put are the bytes accepted followed by the bytes queued. -/
def Ordered (q : Queue) : Prop :=
  collect Obs.stored (connection q.log) = collect Obs.accepted (connection q.log) ++ q.ring.data

theorem rewound_of_cons {o : Obs} {log : List Obs} (ho : o ≠ .h2bReset) (h : Rewound (o :: log)) :
    Rewound log := by
  intro o' hmem
  refine h o' ?_
  rw [connection_cons ho]
  exact List.mem_cons_of_mem _ hmem

theorem ordered_step (hs : Step q q') (h : Rewound q.log → Ordered q) : Rewound q'.log → Ordered q' := by
  intro hr
  unfold Ordered at h ⊢
  cases hs with
  | silent ho =>
      simpa [connection_cons ho.not_reset, ho.stored, ho.accepted] using h (rewound_of_cons ho.not_reset hr)
  | put data =>
      have h := h (rewound_of_cons (by simp) hr)
      simp [put, Obs.stored, Obs.accepted, h]
  | sendFailed n k result hne =>
      simpa [send, Obs.stored, Obs.accepted, hne] using h (rewound_of_cons (by simp) hr)
  | sendAccepted n k =>
      have h := h (rewound_of_cons (by simp) hr)
      have hlog : (q.sendAccepted n k).log = .write (q.chunk n k) 0 q.ring.claimed :: q.log := rfl
      have hsent := hr (.write (q.chunk n k) 0 q.ring.claimed) (by simp [hlog])
      have hc : q.ring.claimed = 0 := by simpa [Obs.sentFromTail] using hsent
      simp [hlog, h, Obs.stored, Obs.accepted, chunk_append_sendAccepted q n k hc]
  | reset => rfl
  | enter now => simpa [Obs.stored, Obs.accepted] using h (rewound_of_cons (by simp) hr)

theorem ordered {started : Int} (hs : ReflTransGen Step (start started) q) (hr : Rewound q.log) : Ordered q := by
  have hstart : Rewound (start started).log → Ordered (start started) := fun _ => rfl
  exact Runs.invariant (P := fun q => Rewound q.log → Ordered q) ordered_step hs hstart hr

/-! ## Sessions -/

/-- Data mode was never entered with bytes in the queue. -/
def EnteredEmpty (log : List Obs) : Prop := ∀ now left, .enter now left ∈ log → left = []

/-- What is queued was put in this session, and so was everything sent. -/
structure Separate (q : Queue) : Prop where
  queued : q.ring.data <:+ collect Obs.stored (session q.log)
  sent : ∀ {chunk result ahead rest}, .write chunk result ahead :: rest <:+ q.log →
    chunk <:+: collect Obs.stored (session rest)

theorem Separate.of_note {o : Obs} (h : Separate q) (ring : RingBuf Byte HOST_TO_BLE_RING_SIZE)
    (hq : ring.data <:+ collect Obs.stored (session (o :: q.log)))
    (hsent : ∀ {chunk result ahead}, .write chunk result ahead = o → chunk <:+: collect Obs.stored (session q.log)) :
    Separate ⟨ring, o :: q.log⟩ where
  queued := hq
  sent hs := by
    rcases List.suffix_cons_iff.mp hs with he | hs
    · obtain ⟨ho, rfl⟩ := List.cons.inj he
      exact hsent ho
    · exact h.sent hs

theorem separate_step (hs : Step q q') (he : EnteredEmpty q'.log) (h : Separate q) : Separate q' := by
  cases hs with
  | silent ho =>
      refine h.of_note _ (by simpa [session_cons ho.not_enter, ho.stored] using h.queued) ?_
      rintro _ _ _ rfl
      exact absurd ho id
  | put data =>
      refine h.of_note _ ?_ (by simp)
      obtain ⟨old, ho⟩ := h.queued
      exact ⟨old, by simp [Obs.stored, ← ho]⟩
  | sendFailed n k result hne =>
      refine h.of_note _ (by simpa [Obs.stored] using h.queued) ?_
      rintro _ _ _ hw
      cases hw
      exact (q.chunk_infix n k).trans h.queued.isInfix
  | sendAccepted n k =>
      refine h.of_note _ ?_ ?_
      · have hd := sendAccepted_data q n k
        simp only [sendAccepted] at hd
        simp only [hd, session, collect, Obs.stored, List.append_nil]
        exact (List.drop_suffix _ _).trans h.queued
      · rintro _ _ _ hw
        cases hw
        exact (q.chunk_infix n k).trans h.queued.isInfix
  | reset => exact h.of_note _ (by simp) (by simp)
  | enter now =>
      have hnil : q.ring.data = [] := he now q.ring.data List.mem_cons_self
      exact h.of_note _ (by simp [hnil]) (by simp)

theorem separate {started : Int} (hs : ReflTransGen Step (start started) q) (he : EnteredEmpty q.log) :
    Separate q := by
  refine Runs.guarded_invariant (G := fun q => EnteredEmpty q.log) (P := Separate)
    (fun hs he now left hm => he now left (hs.log_suffix.subset hm)) (fun hs he h => separate_step hs he h) hs ?_ he
  refine ⟨List.suffix_refl _, fun hw => ?_⟩
  rcases List.suffix_cons_iff.mp hw with he | hw
  · cases he
  · cases List.suffix_nil.mp hw

end Queue

/-! ## Between sessions -/

namespace Bridge

variable {b b' : Bridge}

/-- Outside data mode nothing is queued, and so data mode begins with nothing queued. -/
structure Emptied (b : Bridge) : Prop where
  outside : b.mode ≠ .dataMode → b.toBle.data = []
  entered : Queue.EnteredEmpty b.log

theorem Emptied.of_same (h : Emptied b) (hm : b'.mode ≠ .dataMode → b.mode ≠ .dataMode) (ht : b'.toBle = b.toBle)
    (hl : b'.log = b.log) : Emptied b' where
  outside hm' := by rw [ht]; exact h.outside (hm hm')
  entered := by rw [hl]; exact h.entered

theorem Emptied.of_note (h : Emptied b) {o : Obs} (ho : ∀ now left, o ≠ .enter now left)
    (hm : b'.mode ≠ .dataMode → b'.toBle.data = []) (hl : b'.log = o :: b.log) : Emptied b' where
  outside := hm
  entered now left hmem := by
    rw [hl] at hmem
    rcases List.mem_cons.mp hmem with he | hmem
    · exact absurd he.symm (ho now left)
    · exact h.entered now left hmem

theorem Emptied.refresh (h : Emptied b) : Emptied b.refresh := by
  obtain ⟨_, _, he⟩ := b.refresh_eq
  rw [he]
  exact h.of_same id rfl rfl

theorem Emptied.activate (h : Emptied b) (now : Int) : Emptied (b.activate now) := by
  rcases b.activate_cases now with he | ⟨_, hm, _, _, he⟩
  · rw [he]; exact h
  · rw [he]
    refine Emptied.refresh ⟨fun hm' => absurd rfl hm', fun now' left hmem => ?_⟩
    have hnil := h.outside hm
    simp only [Bridge.entered, List.mem_cons, Obs.enter.injEq, reduceCtorEq, false_or] at hmem
    rcases hmem with ⟨_, rfl⟩ | hmem
    · exact hnil
    · exact h.entered now' left hmem

/-- What the receiver puts is put in data mode. -/
theorem enteredKept : RxKept fun b => Queue.EnteredEmpty b.log where
  take _ h _ _ hmem := h _ _ (by simpa [Bridge.take] using hmem)
  uptime _ h _ _ hmem := h _ _ (by simpa [note] using hmem)
  offer _ h _ _ hmem := h _ _ (by simpa [Bridge.offer] using hmem)
  detector _ _ _ h := h

theorem Emptied.step (hl : Linked b) (h : Emptied b) (hs : Step b b') (hd : DrainedExits b'.log) : Emptied b' := by
  cases hs with
  | quiet hq => exact h.of_note (fun _ _ ho => by rw [ho] at hq; exact hq) h.outside rfl
  | rx byte hm =>
      exact ⟨fun hm' => absurd ((b.rx_same byte).mode.trans hm) hm', enteredKept.rx h.entered byte⟩
  | refresh => exact h.refresh
  | expire now ha =>
      have hm := (b.flush_same now).mode.trans (hl.dataMode_of_active ha)
      have hf : Emptied (b.flush now) := ⟨fun hm' => absurd hm hm', enteredKept.flush h.entered now⟩
      have hn : Emptied ((b.flush now).note (.guard now)) := hf.of_note (by simp) hf.outside rfl
      exact hn.of_same id rfl rfl
  | exit now mode =>
      have hleft := hd (.exit now b.toBle.data) (by simp [Bridge.clear, note])
      have hnil : b.toBle.data = [] := by simpa [Obs.drained] using hleft
      have hu : Emptied (b.note (.uptime now)) := h.of_note (by simp) h.outside rfl
      have hx : Emptied ((b.note (.uptime now)).note (.exit now b.toBle.data)) := hu.of_note (by simp) h.outside rfl
      exact hx.of_note (by simp) (fun _ => hnil) rfl
  | wait now =>
      have hu : Emptied (b.note (.uptime now)) := h.of_note (by simp) h.outside rfl
      exact hu.of_note (by simp) h.outside rfl
  | sendAccepted n k =>
      refine Emptied.refresh (h.of_note (o := .write (b.chunk n k) 0 b.toBle.claimed) (by simp) (fun hm => ?_) rfl)
      have hnil : (Queue.ofBridge b).ring.data = [] := h.outside hm
      have hdata := Queue.sendAccepted_data (Queue.ofBridge b) n k
      rw [hnil, List.drop_nil] at hdata
      exact hdata
  | notify payload =>
      have hn : Emptied (b.note (.notify payload)) := h.of_note (by simp) h.outside rfl
      unfold Bridge.notify
      split
      · exact hn.of_note (by simp) hn.outside rfl
      · exact hn
  | fillCtrl sent ring now =>
      have hf : Emptied { b with ctrl := ring, log := .fill true sent :: b.log } :=
        h.of_note (o := .fill true sent) (by simp) h.outside rfl
      unfold Bridge.fillCtrl
      split
      · exact hf
      · exact hf.activate now
  | activate now => exact h.activate now
  | setMode mode hm => exact h.of_same (fun _ => hm) rfl rfl
  | create conn hc =>
      have hm := hl.not_dataMode_of_free hc
      exact h.of_same (fun _ => hm) rfl rfl
  | connectFailed err conn hlink | connectOk conn hlink =>
      have hm := hl.not_dataMode_of_creating hlink
      exact h.of_note (by simp) (fun _ => h.outside hm) rfl
  | disconnect reason conn =>
      refine ⟨fun _ => rfl, fun now left hmem => ?_⟩
      exact h.entered now left (by simpa [Bridge.disconnect, Bridge.clear] using hmem)
  | pause | idle | setReady => exact h.of_same id rfl rfl
  | read bytes => exact h.of_note (o := .dataRx bytes _ _) (by simp) h.outside rfl
  | atRx | sendFailed | putCtrl | ctrlLine | fillToHost | enterAccepted =>
      exact h.of_note (by simp) h.outside rfl

theorem Reachable.emptied (h : Reachable b) (hd : DrainedExits b.log) : Emptied b := by
  obtain ⟨guardTime, started, hs⟩ := h
  have hboth : Linked b ∧ Emptied b := by
    refine Runs.guarded_invariant (G := fun b => DrainedExits b.log) (P := fun b => Linked b ∧ Emptied b)
      (fun hs hd o hm => hd o (hs.log_suffix.subset hm)) ?_ hs ⟨linked_start guardTime started, fun _ => rfl, ?_⟩ hd
    · intro b b' hs hd h
      exact ⟨h.1.step hs, h.2.step h.1 hs hd⟩
    · exact fun now left hm => by simp [start] at hm
  exact hboth.2

end Bridge

end BleAtHost
