import Mathlib.Algebra.Group.Int.Defs
import Mathlib.Algebra.Group.Nat.Defs
import Mathlib.Data.List.Basic
import Mathlib.Tactic.Common

/-!
# Escape sequences with guard times

A stream carries payload and one escape sequence: `full` times the symbol `esc`, with a pause of `guard`
before it and after it. A detector holds the symbols back that may belong to the sequence and releases them
as payload when they turn out not to. Histories are lists of inputs, the newest first.
-/

namespace Detector

/-- The difference of two signed clock readings, read as an unsigned 64-bit number. -/
def elapsed (now last : Int) : Nat := ((now - last) % 2 ^ 64).toNat

theorem elapsed_of_le {now last : Int} (h : last ≤ now) : (elapsed now last : Int) ≤ now - last := by
  have h1 : (0 : Int) ≤ now - last := by omega
  have h2 : (now - last) % 2 ^ 64 ≤ now - last := by omega
  have h3 : 0 ≤ (now - last) % 2 ^ 64 := Int.emod_nonneg _ (by decide)
  simp only [elapsed, Int.toNat_of_nonneg h3]; exact h2

theorem elapsed_lt (now last : Int) : elapsed now last < 2 ^ 64 := by
  have hlt : (now - last) % 2 ^ 64 < 2 ^ 64 := Int.emod_lt_of_pos _ (by decide)
  unfold elapsed
  omega

@[simp] theorem elapsed_self (now : Int) : elapsed now now = 0 := by simp [elapsed]

/-- The escape symbol, the length of the sequence and the guard time. -/
structure Config (α : Type) where
  esc : α
  full : Nat
  guard : Nat

/-- How many symbols are held back, and the time the pause is counted from. -/
structure State where
  held : Nat
  last : Int
deriving DecidableEq, Repr

/-- A symbol is received at `now`, and `flushed` is the time at which held-back symbols are released if they
are; or the guard timer fires. -/
inductive Input (α : Type) where
  | rx (ch : α) (now flushed : Int)
  | fire (now : Int)

def Input.now {α : Type} : Input α → Int
  | .rx _ now _ => now
  | .fire now => now

variable {α : Type}

/-! ## What arrives -/

/-- The symbols received with their times, the newest first. -/
def arrivals : List (Input α) → List (α × Int)
  | [] => []
  | .rx ch now _ :: h => (ch, now) :: arrivals h
  | .fire _ :: h => arrivals h

/-- The symbols received, in order. -/
def received (h : List (Input α)) : List α := ((arrivals h).map Prod.fst).reverse

/-- The time of the newest arrival, or the start. -/
def lastArrival (start : Int) : List (α × Int) → Int
  | [] => start
  | a :: _ => a.2

/-- The arrivals end in `n` escape symbols, the newest at `last`, and the first of them came a guard time after
what preceded it. -/
def Guarded (c : Config α) (start : Int) (as : List (α × Int)) (n : Nat) (last : Int) : Prop :=
  ∃ (ts : List Int) (first : Int) (earlier : List (α × Int)),
    ts.length + 1 = n ∧ as = (ts ++ [first]).map (fun t => (c.esc, t)) ++ earlier ∧
      lastArrival start as = last ∧ (c.guard : Int) ≤ first - lastArrival start earlier

theorem Guarded.extend {c : Config α} {start : Int} {as : List (α × Int)} {n : Nat} {last : Int}
    (h : Guarded c start as n last) (now : Int) : Guarded c start ((c.esc, now) :: as) (n + 1) now := by
  obtain ⟨ts, first, earlier, hn, has, _, hg⟩ := h
  exact ⟨now :: ts, first, earlier, by simp [hn], by simp [has], rfl, hg⟩

theorem Guarded.open {c : Config α} {start : Int} {as : List (α × Int)} {now : Int}
    (h : (c.guard : Int) ≤ now - lastArrival start as) :
    Guarded c start ((c.esc, now) :: as) 1 now :=
  ⟨[], now, as, rfl, rfl, rfl, h⟩

/-! ## The detector -/

/-- Releases what is held back. -/
def flush (c : Config α) (s : State) (now : Int) : State × List α :=
  if s.held = 0 then (s, []) else (⟨0, now⟩, List.replicate s.held c.esc)

theorem flush_held (c : Config α) (s : State) (now : Int) : (flush c s now).1.held = 0 := by
  unfold flush; split
  · assumption
  · rfl

theorem flush_released (c : Config α) (s : State) (now : Int) :
    (flush c s now).2 = List.replicate s.held c.esc := by
  unfold flush; split
  · rename_i h; simp [h]
  · rfl

variable [DecidableEq α]

/-- A symbol with nothing held back: it is held back itself if it is the escape symbol after a pause. -/
def consider (c : Config α) (s : State) (ch : α) (now : Int) : State × List α :=
  if ch = c.esc ∧ c.guard ≤ elapsed now s.last then (⟨1, now⟩, []) else (⟨0, now⟩, [ch])

/-- The symbol continues the sequence that is held back. -/
def Extends (c : Config α) (s : State) (ch : α) : Prop := 0 < s.held ∧ ch = c.esc ∧ s.held < c.full

instance (c : Config α) (s : State) (ch : α) : Decidable (Extends c s ch) :=
  inferInstanceAs (Decidable (_ ∧ _ ∧ _))

/-- One input: the next state and the symbols released. A full sequence waits through a firing. -/
def step (c : Config α) (s : State) : Input α → State × List α
  | .rx ch now flushed =>
      if Extends c s ch then (⟨s.held + 1, now⟩, [])
      else
        ((consider c (flush c s flushed).1 ch now).1,
          (flush c s flushed).2 ++ (consider c (flush c s flushed).1 ch now).2)
  | .fire now => if s.held = c.full then (s, []) else flush c s now

/-- The state after a history that started at `start`. -/
def replay (c : Config α) (start : Int) : List (Input α) → State
  | [] => ⟨0, start⟩
  | i :: h => (step c (replay c start h) i).1

/-- Everything released over a history, in order. -/
def released (c : Config α) (start : Int) : List (Input α) → List α
  | [] => []
  | i :: h => released c start h ++ (step c (replay c start h) i).2

variable {c : Config α} {start : Int}

/-! ## Nothing is lost -/

theorem step_conserves (s : State) (i : Input α) :
    List.replicate s.held c.esc ++ received [i] =
      (step c s i).2 ++ List.replicate (step c s i).1.held c.esc := by
  cases i with
  | rx ch now flushed =>
      simp only [step, received, arrivals, List.map_cons, List.map_nil, List.reverse_singleton]
      split
      · rename_i h
        rw [h.2.1, ← List.replicate_succ']; simp
      · simp only [flush_released, consider]
        split
        · rename_i h; simp [h.1]
        · simp
  | fire now =>
      simp only [step, received, arrivals]
      split
      · simp
      · simp [flush_released, flush_held]

/-- What was received is what was released followed by what is held back. -/
theorem received_eq (c : Config α) (start : Int) (h : List (Input α)) :
    received h = released c start h ++ List.replicate (replay c start h).held c.esc := by
  induction h with
  | nil => simp [received, arrivals, released, replay]
  | cons i h ih =>
      have hcons : received (i :: h) = received h ++ received [i] := by
        cases i <;> simp [received, arrivals]
      rw [hcons, ih, List.append_assoc, step_conserves (replay c start h) i]
      simp [released, replay]

theorem step_held_le {s : State} (hf : 1 ≤ c.full) (h : s.held ≤ c.full) (i : Input α) :
    (step c s i).1.held ≤ c.full := by
  cases i with
  | rx ch now flushed =>
      simp only [step]
      split
      · rename_i he; exact he.2.2
      · simp only [consider]; split
        · exact hf
        · exact Nat.zero_le _
  | fire now =>
      simp only [step]
      split
      · exact h
      · rw [flush_held]; exact Nat.zero_le _

theorem replay_held_le (hf : 1 ≤ c.full) (start : Int) (h : List (Input α)) : (replay c start h).held ≤ c.full := by
  induction h with
  | nil => exact Nat.zero_le _
  | cons i h ih => exact step_held_le hf ih i

/-! ## A held-back sequence is preceded by a pause -/

/-- The readings never go back behind the time the pause is counted from. -/
def Timely (c : Config α) (start : Int) : List (Input α) → Prop
  | [] => True
  | i :: h => Timely c start h ∧ (replay c start h).last ≤ i.now

/-- The clock stands still while an escape symbol pushes a full sequence out. -/
def NoTick (c : Config α) (start : Int) : List (Input α) → Prop
  | [] => True
  | .rx ch now flushed :: h =>
      NoTick c start h ∧ ((replay c start h).held = c.full → ch = c.esc → flushed = now)
  | .fire _ :: h => NoTick c start h

/-- The time the pause is counted from is never before the newest arrival. -/
theorem lastArrival_le (h : List (Input α)) (ht : Timely c start h) :
    lastArrival start (arrivals h) ≤ (replay c start h).last := by
  induction h with
  | nil => exact Int.le_refl _
  | cons i h ih =>
      have hi := ih ht.1
      have hnow := ht.2
      cases i with
      | rx ch now flushed =>
          simp only [arrivals, lastArrival, replay, step]
          split
          · exact Int.le_refl _
          · simp only [consider]; split <;> exact Int.le_refl _
      | fire now =>
          simp only [Input.now] at hnow
          simp only [arrivals, replay, step]
          split
          · exact hi
          · simp only [flush]; split
            · exact hi
            · simp only; omega

/-- If symbols are held back then they are the newest arrivals and a guard time lies before them. -/
theorem guarded_of_held (hf : 1 ≤ c.full) (h : List (Input α)) (ht : Timely c start h)
    (hk : NoTick c start h) (hh : 0 < (replay c start h).held) :
    Guarded c start (arrivals h) (replay c start h).held (replay c start h).last := by
  induction h with
  | nil => simp [replay] at hh
  | cons i h ih =>
      have hle := lastArrival_le h ht.1
      have hfull := replay_held_le hf start h
      have hnow := ht.2
      cases i with
      | fire now =>
          simp only [replay, step] at hh ⊢
          split at hh
          · rename_i he
            simp only [he, ↓reduceIte, arrivals]
            rw [← he]; exact ih ht.1 hk (by rw [he]; exact hf)
          · rw [flush_held] at hh; cases hh
      | rx ch now flushed =>
          simp only [Input.now] at hnow
          simp only [replay, step] at hh ⊢
          split at hh
          · rename_i he
            simp only [he, ↓reduceIte, arrivals]
            rw [he.2.1]
            exact (ih ht.1 hk.1 he.1).extend now
          · rename_i he
            simp only [consider] at hh
            split at hh
            · -- the symbol opens a new sequence, with nothing held back before it or a full one pushed out
              rename_i ho
              obtain ⟨rfl, hg⟩ := ho
              have hlast : (c.guard : Int) ≤ now - (replay c start h).last := by
                by_cases hz : (replay c start h).held = 0
                · simp only [flush, hz, ↓reduceIte] at hg
                  have := elapsed_of_le hnow
                  omega
                · have hful : (replay c start h).held = c.full := by
                    rcases Nat.lt_or_ge (replay c start h).held c.full with hlt | hge
                    · exact absurd ⟨Nat.pos_of_ne_zero hz, rfl, hlt⟩ he
                    · omega
                  have hfl := hk.2 hful rfl
                  simp only [flush, hz, ↓reduceIte, hfl, elapsed_self] at hg
                  omega
              simp only [he, ↓reduceIte, consider, hg, and_self, arrivals]
              exact Guarded.open (by omega)
            · cases hh

/-! ## A whole sequence after a pause is held back -/

/-- Escape symbols at the given times with nothing else between them, the newest first. -/
def escapes (c : Config α) (ts : List (Int × Int)) : List (Input α) :=
  ts.map fun t => .rx c.esc t.1 t.2

theorem replay_escapes_of_held {h : List (Input α)} (hh : 0 < (replay c start h).held)
    (ts : List (Int × Int)) (hn : (replay c start h).held + ts.length ≤ c.full) :
    (replay c start (escapes c ts ++ h)).held = (replay c start h).held + ts.length ∧
      released c start (escapes c ts ++ h) = released c start h := by
  induction ts with
  | nil => simp [escapes]
  | cons t ts ih =>
      obtain ⟨ih1, ih2⟩ := ih (by simp only [List.length_cons] at hn; omega)
      have he : Extends c (replay c start (escapes c ts ++ h)) c.esc := by
        refine ⟨by omega, rfl, ?_⟩
        simp only [List.length_cons] at hn; omega
      simp only [escapes, List.map_cons, List.cons_append] at ih1 ih2 he ⊢
      simp only [replay, released, step, he, ↓reduceIte, List.length_cons]
      exact ⟨by omega, by simpa using ih2⟩

/-- After a firing the full sequence is still held back. -/
theorem replay_fires {h : List (Input α)} (hh : (replay c start h).held = c.full)
    (fs : List Int) :
    replay c start (fs.map .fire ++ h) = replay c start h ∧
      released c start (fs.map .fire ++ h) = released c start h := by
  induction fs with
  | nil => exact ⟨rfl, rfl⟩
  | cons f fs ih =>
      obtain ⟨ih1, ih2⟩ := ih
      simp only [List.map_cons, List.cons_append, replay, released, step, ih1, ih2, hh, ↓reduceIte,
        List.append_nil, and_self]

theorem replay_last_escapes {h : List (Input α)} (t : Int × Int) (ts : List (Int × Int)) :
    (replay c start (escapes c (t :: ts) ++ h)).last = t.1 := by
  simp only [escapes, List.map_cons, List.cons_append, replay, step]
  split
  · rfl
  · simp only [consider]; split <;> rfl

theorem released_prefix (c : Config α) (start : Int) (h h' : List (Input α)) :
    ∃ out, released c start (h' ++ h) = released c start h ++ out := by
  induction h' with
  | nil => exact ⟨[], by simp⟩
  | cons i h' ih =>
      obtain ⟨out, ho⟩ := ih
      exact ⟨out ++ _, by simp only [List.cons_append, released, ho, List.append_assoc]; rfl⟩

/-- The pause before the sequence is long enough: nothing is held back and the time the pause is counted from
lies a guard time back. -/
def Ready (c : Config α) (s : State) (first : Int) : Prop := s.held = 0 ∧ c.guard ≤ elapsed first s.last

instance (c : Config α) (s : State) (first : Int) : Decidable (Ready c s first) :=
  inferInstanceAs (Decidable (_ ∧ _))

theorem step_first_of_ready {s : State} {t : Int × Int} (hr : Ready c s t.1) :
    step c s (.rx c.esc t.1 t.2) = (⟨1, t.1⟩, []) := by
  have he : ¬ Extends c s c.esc := by rintro ⟨h, _⟩; rw [hr.1] at h; cases h
  have hg : c.guard ≤ elapsed t.1 s.last := hr.2
  simp [step, he, consider, flush, hr.1, hg]

/-- A symbol that finds neither a pause nor a sequence to continue releases something. -/
theorem step_releases {s : State} (i : Int × Int) (he : ¬ Extends c s c.esc) (hr : ¬ Ready c s i.1) :
    (step c s (.rx c.esc i.1 i.2)).2 ≠ [] := by
  simp only [step, he, ↓reduceIte, flush_released]
  by_cases hz : s.held = 0
  · have hg : ¬ c.guard ≤ elapsed i.1 s.last := fun hg => hr ⟨hz, hg⟩
    simp [consider, flush, hz, hg]
  · simp [hz]

/-- More symbols than the sequence has room for release something. -/
theorem released_escapes_ne {h : List (Input α)} (hh : 0 < (replay c start h).held)
    (hle : (replay c start h).held ≤ c.full) (ts : List (Int × Int))
    (hn : c.full < (replay c start h).held + ts.length) :
    released c start (escapes c ts ++ h) ≠ released c start h := by
  induction ts with
  | nil => simp only [List.length_nil] at hn; omega
  | cons t ts ih =>
      intro heq
      obtain ⟨out, ho⟩ := released_prefix c start h (escapes c ts)
      have hcons : released c start (escapes c (t :: ts) ++ h) =
          released c start h ++
            (out ++ (step c (replay c start (escapes c ts ++ h)) (.rx c.esc t.1 t.2)).2) := by
        rw [← List.append_assoc, ← ho]; rfl
      rw [hcons] at heq
      obtain ⟨hout, hstep⟩ := List.append_eq_nil_iff.mp (List.append_right_eq_self.mp heq)
      by_cases hlt : c.full < (replay c start h).held + ts.length
      · exact ih hlt (by rw [ho, hout, List.append_nil])
      · -- the symbols so far fill the sequence, this one pushes it out
        have hheld := (replay_escapes_of_held hh ts (by omega)).1
        simp only [List.length_cons] at hn
        refine step_releases t ?_ ?_ hstep
        · rintro ⟨_, _, hlt'⟩; omega
        · rintro ⟨hz, _⟩; omega

/-- A whole sequence is held back with nothing released exactly when the pause before it is long enough. -/
theorem released_escapes_iff (h : List (Input α)) (ts : List (Int × Int)) (first : Int × Int)
    (hn : ts.length + 1 = c.full) :
    released c start (escapes c ts ++ .rx c.esc first.1 first.2 :: h) = released c start h ↔
      Ready c (replay c start h) first.1 := by
  have hcons : released c start (.rx c.esc first.1 first.2 :: h) =
      released c start h ++ (step c (replay c start h) (.rx c.esc first.1 first.2)).2 := rfl
  constructor
  · intro heq
    by_contra hr
    obtain ⟨out, ho⟩ := released_prefix c start (.rx c.esc first.1 first.2 :: h)
      (escapes c ts)
    rw [ho, hcons, List.append_assoc] at heq
    obtain ⟨hstep, hout⟩ := List.append_eq_nil_iff.mp (List.append_right_eq_self.mp heq)
    -- the first symbol releases nothing, so it continued a sequence that the later ones overfill
    by_cases he : Extends c (replay c start h) c.esc
    · have hheld : (replay c start (.rx c.esc first.1 first.2 :: h)).held =
          (replay c start h).held + 1 := by simp [replay, step, he]
      obtain ⟨_, _, hlt⟩ := he
      have hpos : 0 < (replay c start (.rx c.esc first.1 first.2 :: h)).held := by omega
      exact released_escapes_ne hpos (by omega) ts (by omega) (by rw [ho, hout, List.append_nil])
    · exact step_releases first he hr hstep
  · intro hr
    have hstep := step_first_of_ready (t := first) hr
    have hheld : (replay c start (.rx c.esc first.1 first.2 :: h)).held = 1 := by simp [replay, hstep]
    rw [(replay_escapes_of_held (by omega) ts (by omega)).2, hcons, hstep, List.append_nil]

/-- After a long enough pause a whole sequence fills the detector. -/
theorem replay_escapes_full {h : List (Input α)} {ts : List (Int × Int)} {first : Int × Int}
    (hn : ts.length + 1 = c.full) (hr : Ready c (replay c start h) first.1) :
    (replay c start (escapes c ts ++ .rx c.esc first.1 first.2 :: h)).held = c.full := by
  have hheld : (replay c start (.rx c.esc first.1 first.2 :: h)).held = 1 := by
    simp [replay, step_first_of_ready hr]
  rw [(replay_escapes_of_held (by omega) ts (by omega)).1, hheld]; omega

/-- The same with firings that wait on the full sequence. -/
theorem released_waits_iff (start : Int) (h : List (Input α)) (ts : List (Int × Int)) (first : Int × Int)
    (waits : List Int) (hn : ts.length + 1 = c.full) :
    released c start (waits.map .fire ++ (escapes c ts ++ .rx c.esc first.1 first.2 :: h)) = released c start h ↔
      Ready c (replay c start h) first.1 := by
  have hiff : released c start (escapes c ts ++ .rx c.esc first.1 first.2 :: h) = released c start h ↔ _ :=
    released_escapes_iff h ts first hn
  refine ⟨fun hall => hiff.mp ?_, fun hready => ?_⟩
  · -- what the sequence releases is a part of what everything releases
    obtain ⟨out, ho⟩ := released_prefix c start (escapes c ts ++ .rx c.esc first.1 first.2 :: h) (waits.map .fire)
    obtain ⟨out', ho'⟩ := released_prefix c start h (escapes c ts ++ [.rx c.esc first.1 first.2])
    rw [List.append_assoc, List.singleton_append] at ho'
    rw [ho, ho', List.append_assoc] at hall
    rw [ho', (List.append_eq_nil_iff.mp (List.append_right_eq_self.mp hall)).1, List.append_nil]
  · have hfull : (replay c start (escapes c ts ++ .rx c.esc first.1 first.2 :: h)).held = c.full :=
      replay_escapes_full hn hready
    exact (replay_fires hfull waits).2.trans (hiff.mpr hready)

theorem replay_waits (start : Int) (h : List (Input α)) (t : Int × Int) (ts : List (Int × Int)) (first : Int × Int)
    (waits : List Int) (hn : (t :: ts).length + 1 = c.full) (hr : Ready c (replay c start h) first.1) :
    replay c start (waits.map .fire ++ (escapes c (t :: ts) ++ .rx c.esc first.1 first.2 :: h)) =
      ⟨c.full, t.1⟩ := by
  have hfull : (replay c start (escapes c (t :: ts) ++ .rx c.esc first.1 first.2 :: h)).held = c.full :=
    replay_escapes_full hn hr
  have hlast : (replay c start (escapes c (t :: ts) ++ .rx c.esc first.1 first.2 :: h)).last = t.1 :=
    replay_last_escapes t ts
  rw [(replay_fires hfull waits).1, ← hfull, ← hlast]

end Detector
