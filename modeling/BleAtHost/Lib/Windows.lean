import Mathlib.Data.List.Basic

/-!
# Windows of a stream

A stream is read window by window. A window of a fixed size that a check accepts is taken whole, and otherwise one
symbol is skipped.
-/

namespace Windows

variable {α β : Type} {check : List α → Option β} {size n : Nat} {stream : List α}

/-- What is read of a stream; its first `skip` symbols belong to a window that was taken. -/
def scan (check : List α → Option β) (size : Nat) : (skip : Nat) → List α → List β
  | _, [] => []
  | skip + 1, _ :: rest => scan check size skip rest
  | 0, x :: rest =>
      match check ((x :: rest).take size) with
      | some b => b :: scan check size (size - 1) rest
      | none => scan check size 0 rest

/-- The check accepts no window that is cut off. -/
def Full (check : List α → Option β) (size : Nat) : Prop := ∀ window b, check window = some b → window.length = size

@[simp] theorem scan_nil (skip : Nat) : scan check size skip [] = [] := by cases skip <;> rfl

theorem scan_skip (skip : Nat) (stream : List α) :
    scan check size skip stream = scan check size 0 (stream.drop skip) := by
  induction skip generalizing stream with
  | zero => rfl
  | succ skip ih =>
      cases stream with
      | nil => rfl
      | cons x rest => exact ih rest

theorem scan_none {x : α} {rest : List α} (h : check ((x :: rest).take size) = none) :
    scan check size 0 (x :: rest) = scan check size 0 rest := by
  rw [scan, h]

theorem scan_some {b : β} (hfull : Full check size) (hsize : 0 < size) (h : check (stream.take size) = some b) :
    scan check size 0 stream = b :: scan check size 0 (stream.drop size) := by
  cases stream with
  | nil =>
      have hlen := hfull _ _ h
      rw [List.take_nil, List.length_nil] at hlen
      omega
  | cons x rest =>
      obtain ⟨size, rfl⟩ := Nat.exists_eq_succ_of_ne_zero (Nat.pos_iff_ne_zero.mp hsize)
      rw [scan, h]
      dsimp only
      rw [scan_skip]
      rfl

/-- Where no window is accepted the scan moves on. -/
theorem scan_drop (h : ∀ k < n, check ((stream.drop k).take size) = none) :
    scan check size 0 stream = scan check size 0 (stream.drop n) := by
  induction n generalizing stream with
  | zero => rfl
  | succ n ih =>
      cases stream with
      | nil => rfl
      | cons x rest =>
          rw [scan_none (h 0 (Nat.succ_pos n))]
          exact ih fun k hk => h (k + 1) (Nat.succ_lt_succ hk)

theorem scan_short (hfull : Full check size) (h : stream.length < size) : scan check size 0 stream = [] := by
  have hnone : ∀ k < stream.length, check ((stream.drop k).take size) = none := by
    intro k hk
    cases hc : check ((stream.drop k).take size) with
    | none => rfl
    | some b =>
        have hlen := hfull _ _ hc
        rw [List.length_take, List.length_drop] at hlen
        omega
  rw [scan_drop hnone, List.drop_length, scan_nil]

/-- If no accepted window reaches from the front into what follows, the scan comes to the border. -/
theorem scan_border (hfull : Full check size) (hsize : 0 < size) (front stream : List α)
    (h : ∀ k < front.length, front.length < k + size → check (((front ++ stream).drop k).take size) = none) :
    ∃ out, scan check size 0 (front ++ stream) = out ++ scan check size 0 stream := by
  induction hn : front.length using Nat.strongRecOn generalizing front with
  | _ n ih =>
      cases front with
      | nil => exact ⟨[], rfl⟩
      | cons x front =>
          cases hc : check ((x :: front ++ stream).take size) with
          | none =>
              have hfront : front.length < n := by
                rw [← hn, List.length_cons]
                exact Nat.lt_succ_self _
              obtain ⟨out, hout⟩ := ih _ hfront front (fun k hk hcross =>
                h (k + 1) (Nat.succ_lt_succ hk) (by rw [List.length_cons]; omega)) rfl
              refine ⟨out, ?_⟩
              rw [List.cons_append] at hc
              rw [List.cons_append, scan_none hc, hout]
          | some b =>
              -- the window lies in front of the border
              have hinside : size ≤ (x :: front).length := by
                by_contra hlt
                have hnone := h 0 (Nat.succ_pos _) (by omega)
                rw [List.drop_zero, hc] at hnone
                cases hnone
              have hdrop : (x :: front ++ stream).drop size = (x :: front).drop size ++ stream :=
                List.drop_append_of_le_length hinside
              have hshorter : ((x :: front).drop size).length < n := by
                rw [List.length_drop, hn]
                rw [hn] at hinside
                omega
              obtain ⟨out, hout⟩ := ih _ hshorter ((x :: front).drop size) (fun k hk hcross => by
                rw [List.length_drop] at hk hcross
                have hnone := h (size + k) (by omega) (by omega)
                rw [← List.drop_drop, hdrop] at hnone
                exact hnone) rfl
              refine ⟨b :: out, ?_⟩
              rw [scan_some hfull hsize hc, hdrop, hout]
              rfl

end Windows
