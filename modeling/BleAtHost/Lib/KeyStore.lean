import Mathlib.Data.List.Nodup
import Mathlib.Data.List.Perm.Basic

/-!
# Key-value stores

A store is a list of items with distinct keys; the last value saved under a key is the one that counts.
-/

namespace KeyStore

variable {κ β : Type} [DecidableEq κ]

def get (store : List (κ × β)) (key : κ) : Option β := (store.find? fun item => item.1 = key).map Prod.snd

def save (store : List (κ × β)) (key : κ) (value : β) : List (κ × β) :=
  (key, value) :: store.filter fun item => item.1 ≠ key

def Distinct (store : List (κ × β)) : Prop := (store.map Prod.fst).Nodup

variable {store store' : List (κ × β)} {key : κ} {value : β}

@[simp] theorem get_nil (key : κ) : get ([] : List (κ × β)) key = none := rfl

theorem get_cons (item : κ × β) (store : List (κ × β)) (key : κ) :
    get (item :: store) key = if item.1 = key then some item.2 else get store key := by
  unfold get
  by_cases h : item.1 = key
  · simp [h]
  · simp [h]

theorem get_filter_of_ne {other : κ} (h : other ≠ key) :
    get (store.filter fun item => item.1 ≠ key) other = get store other := by
  induction store with
  | nil => rfl
  | cons item store ih =>
      by_cases hk : item.1 = key
      · have hne : item.1 ≠ other := fun he => h (he.symm.trans hk)
        simp only [List.filter_cons, hk, ne_eq, not_true_eq_false, decide_false, Bool.false_eq_true, if_false] at ih ⊢
        rw [ih, get_cons, if_neg hne]
      · simp only [List.filter_cons, hk, ne_eq, not_false_eq_true, decide_true, if_true] at ih ⊢
        rw [get_cons, get_cons, ih]

theorem get_save (store : List (κ × β)) (key : κ) (value : β) (other : κ) :
    get (save store key value) other = if key = other then some value else get store other := by
  rw [save, get_cons]
  split
  · rfl
  · rename_i h
    exact get_filter_of_ne (Ne.symm h)

theorem mem_keys_filter {other : κ} :
    other ∈ (store.filter fun item => item.1 ≠ key).map Prod.fst ↔ other ≠ key ∧ other ∈ store.map Prod.fst := by
  simp only [List.mem_map, List.mem_filter, decide_eq_true_eq]
  constructor
  · rintro ⟨item, ⟨hitem, hne⟩, rfl⟩
    exact ⟨hne, item, hitem, rfl⟩
  · rintro ⟨hne, item, hitem, rfl⟩
    exact ⟨item, ⟨hitem, hne⟩, rfl⟩

theorem mem_keys_save {other : κ} :
    other ∈ (save store key value).map Prod.fst ↔ other = key ∨ other ∈ store.map Prod.fst := by
  rw [save, List.map_cons, List.mem_cons, mem_keys_filter]
  by_cases h : other = key
  · simp [h]
  · simp [h]

theorem get_eq_none_iff : get store key = none ↔ key ∉ store.map Prod.fst := by
  induction store with
  | nil => simp
  | cons item store ih =>
      rw [get_cons, List.map_cons, List.mem_cons, not_or]
      by_cases hk : item.1 = key
      · simp [hk]
      · rw [if_neg hk, ih]
        exact ⟨fun h => ⟨Ne.symm hk, h⟩, fun h => h.2⟩

omit [DecidableEq κ] in
theorem distinct_nil : Distinct ([] : List (κ × β)) := List.nodup_nil

theorem Distinct.save (h : Distinct store) (key : κ) (value : β) : Distinct (save store key value) := by
  refine List.nodup_cons.mpr ⟨fun hm => ?_, ?_⟩
  · obtain ⟨item, hitem, rfl⟩ := List.mem_map.mp hm
    simp at hitem
  · exact List.Nodup.sublist (List.filter_sublist.map Prod.fst) h

theorem get_eq_some_iff (h : Distinct store) : get store key = some value ↔ (key, value) ∈ store := by
  induction store with
  | nil => simp
  | cons item store ih =>
      obtain ⟨hnot, hrest⟩ := List.nodup_cons.mp h
      rw [get_cons, List.mem_cons]
      by_cases hk : item.1 = key
      · have hout : (key, value) ∉ store := fun hm => hnot (hk ▸ List.mem_map_of_mem (f := Prod.fst) hm)
        rw [if_pos hk]
        constructor
        · intro he
          exact Or.inl (Prod.ext hk.symm (Option.some.inj he).symm)
        · intro hm
          rcases hm with he | hm
          · rw [← he]
          · exact absurd hm hout
      · rw [if_neg hk, ih hrest]
        constructor
        · exact Or.inr
        · intro hm
          rcases hm with he | hm
          · exact absurd (congrArg Prod.fst he).symm hk
          · exact hm

omit [DecidableEq κ] in
theorem Distinct.perm (h : Distinct store) (hp : store'.Perm store) : Distinct store' :=
  (hp.map Prod.fst).nodup_iff.mpr h

omit [DecidableEq κ] in
theorem Distinct.tail {item : κ × β} (h : Distinct (item :: store)) : Distinct store := (List.nodup_cons.mp h).2

theorem Distinct.get_tail {item : κ × β} (h : Distinct (item :: store)) : get store item.1 = none := by
  obtain ⟨hnot, hrest⟩ := List.nodup_cons.mp h
  refine Option.eq_none_iff_forall_ne_some.mpr fun value hs => hnot ?_
  exact List.mem_map.mpr ⟨(item.1, value), (get_eq_some_iff hrest).mp hs, rfl⟩

/-- The order of the items does not matter. -/
theorem get_perm (h : Distinct store) (hp : store'.Perm store) (key : κ) : get store' key = get store key := by
  refine Option.ext fun value => ?_
  rw [get_eq_some_iff (h.perm hp), get_eq_some_iff h, hp.mem_iff]

end KeyStore
