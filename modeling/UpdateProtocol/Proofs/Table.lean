import Mathlib.Data.List.Nodup

namespace UpdateProtocol.Table

section Keys

variable {α β : Type} [BEq α] [LawfulBEq α] [DecidableEq α]

theorem lookup_put (l : List (α × β)) (name : α) (v : β) (key : α) :
    ((name, v) :: l).lookup key = if key = name then some v else l.lookup key := by
  rw [List.lookup_cons]
  by_cases h : key = name
  · rw [if_pos h, beq_iff_eq.2 h]
  · rw [if_neg h, beq_false_of_ne h]

theorem lookup_drop (l : List (α × β)) (name key : α) :
    (l.filter (·.1 ≠ name)).lookup key = if key = name then none else l.lookup key := by
  induction l with
  | nil => simp
  | cons p l ih =>
    obtain ⟨k, v⟩ := p
    by_cases hk : k = name
    · subst hk
      rw [List.filter_cons_of_neg (by simp), ih, lookup_put]
      split <;> rfl
    · rw [List.filter_cons_of_pos (by simpa using hk), lookup_put, lookup_put, ih]
      by_cases hkey : key = k
      · rw [if_pos hkey, if_pos hkey, if_neg (hkey ▸ hk)]
      · rw [if_neg hkey, if_neg hkey]

end Keys

variable {β : Type} {l : List (String × β)} {name : String}

theorem keys_drop (l : List (String × β)) (name : String) :
    (l.filter (·.1 ≠ name)).map Prod.fst = (l.map Prod.fst).filter (· ≠ name) := by
  rw [List.filter_map]
  rfl

theorem mem_keys_iff {name : String} : name ∈ l.map Prod.fst ↔ (l.lookup name).isSome := by
  induction l with
  | nil => simp
  | cons p l ih =>
    obtain ⟨k, v⟩ := p
    rw [List.map_cons, List.mem_cons, lookup_put, ih]
    by_cases h : name = k <;> simp [h]

theorem nodup_drop (h : (l.map Prod.fst).Nodup) :
    ((l.filter (·.1 ≠ name)).map Prod.fst).Nodup := by
  rw [keys_drop]
  exact h.filter _

theorem length_drop (h : (l.map Prod.fst).Nodup) (hname : (l.lookup name).isSome) :
    (l.filter (·.1 ≠ name)).length + 1 = l.length := by
  have herase : (l.map Prod.fst).filter (· ≠ name) = (l.map Prod.fst).erase name := by
    rw [h.erase_eq_filter]
    exact List.filter_congr fun key _ => by by_cases hkey : key = name <;> simp [hkey]
  calc (l.filter (·.1 ≠ name)).length + 1
      = ((l.map Prod.fst).erase name).length + 1 := by
        rw [← herase, ← keys_drop, List.length_map]
    _ = l.length := by
        rw [List.length_erase_add_one (mem_keys_iff.2 hname), List.length_map]

end UpdateProtocol.Table
