import Mathlib.Data.List.Infix
import Mathlib.Data.List.DropRight

/-!
# Streaming search

A stream arrives in pieces and a pattern is looked for in it. What may still become an occurrence is held back:
the longest end of what has arrived that is a proper beginning of the pattern.
-/

namespace Splitter

variable {α : Type}

/-- The first occurrence of `event` in `stream` stands behind `before`. -/
structure First (event stream before : List α) : Prop where
  occurs : before ++ event <+: stream
  first : ∀ other, other ++ event <+: stream → before.length ≤ other.length

/-- `held` is the longest end of `buffer` that is a proper beginning of `event`. -/
structure Held (event buffer held : List α) : Prop where
  suffix : held <:+ buffer
  proper : held <+: event ∧ held ≠ event
  longest : ∀ tail, tail <:+ buffer → tail <+: event → tail ≠ event → tail.length ≤ held.length

/-! ## From piece to piece -/

section
variable {event buffer held rest before front : List α}

/-- An occurrence that the next piece completes begins in what is held back. -/
theorem Held.start_le (h : Held event buffer held) (hn : ¬event <:+: buffer)
    (hocc : before ++ event <+: buffer ++ rest) : buffer.length ≤ before.length + held.length := by
  by_cases hle : buffer.length ≤ before.length
  · omega
  · -- what of the event is in the buffer is an end of the buffer
    have hbefore : before <+: buffer :=
      List.prefix_of_prefix_length_le ((List.prefix_append _ _).trans hocc) (List.prefix_append _ _) (by omega)
    obtain ⟨tail, rfl⟩ := hbefore
    rw [List.append_assoc, List.prefix_append_right_inj] at hocc
    have hlonger : ¬event <+: tail := fun hp => hn (hp.isInfix.trans (List.suffix_append _ _).isInfix)
    have htail : tail <+: event := by
      rcases List.prefix_or_prefix_of_prefix hocc (List.prefix_append tail rest) with hp | hp
      · exact absurd hp hlonger
      · exact hp
    have hne : tail ≠ event := fun he => hlonger (he ▸ List.prefix_rfl)
    have hlong := h.longest tail (List.suffix_append _ _) htail hne
    rw [List.length_append]
    omega

theorem Held.drop (h : Held event (front ++ held) held) (hn : ¬event <:+: front ++ held)
    (hocc : before ++ event <+: front ++ held ++ rest) :
    ∃ other, before = front ++ other ∧ other ++ event <+: held ++ rest := by
  have hle := h.start_le hn hocc
  rw [List.length_append] at hle
  rw [List.append_assoc] at hocc
  have hfront : front <+: before :=
    List.prefix_of_prefix_length_le (List.prefix_append _ _) ((List.prefix_append _ _).trans hocc) (by omega)
  obtain ⟨other, rfl⟩ := hfront
  rw [List.append_assoc, List.prefix_append_right_inj] at hocc
  exact ⟨other, rfl, hocc⟩

theorem Held.straddle (h : Held event buffer held) (hn : ¬event <:+: buffer) (hi : event <:+: buffer ++ rest) :
    event <:+: held ++ rest := by
  obtain ⟨front, rfl⟩ := h.suffix
  obtain ⟨before, after, he⟩ := hi
  obtain ⟨other, -, hocc⟩ := h.drop hn ⟨after, he⟩
  exact (List.suffix_append _ _).isInfix.trans hocc.isInfix

/-- The first occurrence in what is held back and the next piece is the first one in the stream. -/
theorem Held.first (h : Held event (front ++ held) held) (hn : ¬event <:+: front ++ held)
    (hf : First event (held ++ rest) before) : First event (front ++ held ++ rest) (front ++ before) := by
  refine ⟨?_, ?_⟩
  · rw [List.append_assoc, List.append_assoc, List.prefix_append_right_inj]
    exact hf.occurs
  · intro other hocc
    obtain ⟨other', rfl, hocc'⟩ := h.drop hn hocc
    have hle := hf.first other' hocc'
    rw [List.length_append, List.length_append]
    omega

theorem First.append (h : First event front before) (rest : List α) : First event (front ++ rest) before := by
  refine ⟨h.occurs.trans (List.prefix_append _ _), ?_⟩
  intro other hocc
  by_contra hlt
  -- an earlier one would end before the first one does
  have hle := h.occurs.length_le
  rw [List.length_append] at hle
  have hother : other ++ event <+: front :=
    List.prefix_of_prefix_length_le hocc (List.prefix_append _ _) (by rw [List.length_append]; omega)
  exact hlt (h.first other hother)

/-- What is held back of a longer stream depends on what was held back only. -/
theorem Held.append {held' : List α} (h : Held event buffer held) (h' : Held event (held ++ rest) held') :
    Held event (buffer ++ rest) held' := by
  obtain ⟨front, rfl⟩ := h.suffix
  have hsuffix : held ++ rest <:+ front ++ held ++ rest := by
    rw [List.append_assoc]
    exact List.suffix_append _ _
  refine ⟨h'.suffix.trans hsuffix, h'.proper, ?_⟩
  intro tail htail hpre hne
  by_cases hshort : tail.length ≤ (held ++ rest).length
  · exact h'.longest tail (List.suffix_of_suffix_length_le htail hsuffix hshort) hpre hne
  · -- its beginning would have been held back
    exfalso
    rw [List.length_append] at hshort
    have hover : rest <:+ tail := List.suffix_of_suffix_length_le (List.suffix_append _ _) htail (by omega)
    obtain ⟨start, rfl⟩ := hover
    obtain ⟨more, hmore⟩ := htail
    rw [← List.append_assoc, List.append_left_inj] at hmore
    have hproper : start ≠ event := by
      rintro rfl
      have hle := hpre.length_le
      rw [List.length_append] at hle
      have hrest : rest = [] := List.length_eq_zero_iff.mp (by omega)
      exact hne (by rw [hrest, List.append_nil])
    have hlong := h.longest start ⟨more, hmore⟩ ((List.prefix_append _ _).trans hpre) hproper
    rw [List.length_append] at hshort
    omega

end

variable [DecidableEq α]

/-- The place of the first occurrence of `event`. -/
def find (event : List α) : List α → Option Nat
  | [] => if event = [] then some 0 else none
  | x :: buffer => if event <+: x :: buffer then some 0 else (find event buffer).map (· + 1)

/-- The longest of the ends of `buffer` with at most `limit` elements that `event` starts with. -/
def prefixLen (event buffer : List α) : Nat → Nat
  | 0 => 0
  | limit + 1 =>
      if buffer.drop (buffer.length - (limit + 1)) <+: event then limit + 1 else prefixLen event buffer limit

/-! ## Finding -/

theorem find_eq_none {event buffer : List α} : find event buffer = none ↔ ¬event <:+: buffer := by
  induction buffer with
  | nil => simp [find]
  | cons x buffer ih =>
      rw [find, List.infix_cons_iff]
      split
      · rename_i h
        simp [h]
      · rename_i h
        simp [ih, h]

theorem find_eq_some {event buffer : List α} {n : Nat} (h : find event buffer = some n) :
    ∃ rest, buffer = buffer.take n ++ event ++ rest ∧ n ≤ buffer.length := by
  induction buffer generalizing n with
  | nil =>
      simp only [find] at h
      split at h
      · rename_i he
        cases h
        exact ⟨[], by simp [he]⟩
      · cases h
  | cons x buffer ih =>
      simp only [find] at h
      split at h
      · rename_i hp
        obtain ⟨rest, hr⟩ := hp
        cases h
        exact ⟨rest, by simpa using hr.symm, Nat.zero_le _⟩
      · obtain ⟨k, hk, rfl⟩ := Option.map_eq_some_iff.mp h
        obtain ⟨rest, hr, hle⟩ := ih hk
        refine ⟨rest, ?_, by simpa using hle⟩
        rw [List.take_succ_cons, List.cons_append, List.cons_append, ← hr]

theorem find_first {event buffer : List α} {n : Nat} (h : find event buffer = some n) :
    First event buffer (buffer.take n) := by
  obtain ⟨rest, hr, hle⟩ := find_eq_some h
  refine ⟨⟨rest, hr.symm⟩, ?_⟩
  rw [List.length_take, Nat.min_eq_left hle]
  clear hr hle
  induction buffer generalizing n with
  | nil =>
      simp only [find] at h
      split at h
      · cases h
        exact fun _ _ => Nat.zero_le _
      · cases h
  | cons x buffer ih =>
      simp only [find] at h
      split at h
      · cases h
        exact fun _ _ => Nat.zero_le _
      · rename_i hnot
        obtain ⟨k, hk, rfl⟩ := Option.map_eq_some_iff.mp h
        intro other hother
        cases other with
        | nil => exact absurd hother hnot
        | cons y other =>
            have htail := (List.cons_prefix_cons.mp hother).2
            have hle := ih hk other htail
            rw [List.length_cons]
            omega

/-! ## Holding back -/

theorem prefixLen_le (event buffer : List α) (limit : Nat) : prefixLen event buffer limit ≤ limit := by
  induction limit with
  | zero => exact Nat.le_refl _
  | succ limit ih =>
      rw [prefixLen]
      split
      · exact Nat.le_refl _
      · exact Nat.le_succ_of_le ih

theorem prefixLen_prefix (event buffer : List α) (limit : Nat) :
    buffer.drop (buffer.length - prefixLen event buffer limit) <+: event := by
  induction limit with
  | zero => simp [prefixLen]
  | succ limit ih =>
      rw [prefixLen]
      split
      · assumption
      · exact ih

theorem le_prefixLen {event buffer : List α} {limit n : Nat} (hn : n ≤ limit)
    (hp : buffer.drop (buffer.length - n) <+: event) : n ≤ prefixLen event buffer limit := by
  induction limit with
  | zero => omega
  | succ limit ih =>
      rw [prefixLen]
      split
      · exact hn
      · rename_i hnot
        have hne : n ≠ limit + 1 := by
          rintro rfl
          exact hnot hp
        exact ih (by omega)

theorem held_prefixLen {event : List α} (he : event ≠ []) (buffer : List α) :
    Held event buffer
      (buffer.drop (buffer.length - prefixLen event buffer (min buffer.length (event.length - 1)))) := by
  have hle := prefixLen_le event buffer (min buffer.length (event.length - 1))
  have hpos := List.length_pos_iff.mpr he
  have hbegins := prefixLen_prefix event buffer (min buffer.length (event.length - 1))
  refine ⟨List.drop_suffix _ _, ⟨hbegins, fun heq => ?_⟩, ?_⟩
  · have hlen := congrArg List.length heq
    rw [List.length_drop] at hlen
    omega
  · intro tail htail hpre hne
    have hshort : tail.length ≤ buffer.length := htail.length_le
    have hproper : tail.length < event.length :=
      Nat.lt_of_le_of_ne hpre.length_le fun hlen => hne (hpre.eq_of_length hlen)
    rw [List.suffix_iff_eq_drop.mp htail] at hpre
    have hlong := le_prefixLen (Nat.le_min.mpr ⟨hshort, Nat.le_sub_one_of_lt hproper⟩) hpre
    rw [List.length_drop]
    omega

end Splitter
