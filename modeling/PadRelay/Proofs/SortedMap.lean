import PadRelay.Port

/-!
This module contains the theory of maps with ordered keys: which value every operation leaves under
every key. Two maps that agree on that are equal.
-/

namespace PadRelay
namespace SortedMap

variable {κ ν μ σ : Type} [Ranked κ]

theorem find_eq_some_iff {l : List (κ × ν)} (h : l.Pairwise (fun a b => rank a.1 < rank b.1))
    {k : κ} {v : ν}
    : find k l = some v ↔ (k, v) ∈ l := by
  induction l with
  | nil => simp [find]
  | cons hd tl ih =>
    rw [List.pairwise_cons] at h
    rcases hd with ⟨k', v'⟩
    unfold find
    split
    . next heq =>
      have hk : k = k' := rank_inj heq
      subst hk
      constructor
      . simp_all
      . intro hmem
        cases List.mem_cons.1 hmem with
        | inl heq => simp_all
        | inr hmem =>
          have : rank k < rank k := h.1 _ hmem
          omega
    . next hne =>
      rw [ih h.2]
      constructor
      . intro hmem
        exact List.mem_cons_of_mem _ hmem
      . intro hmem
        cases List.mem_cons.1 hmem with
        | inl heq => simp_all
        | inr hmem => exact hmem

theorem get?_eq_some_iff {m : SortedMap κ ν} {k : κ} {v : ν}
    : m.get? k = some v ↔ (k, v) ∈ m.entries :=
  find_eq_some_iff m.ascending

theorem mem_values_iff {m : SortedMap κ ν} {v : ν}
    : v ∈ m.values ↔ ∃ k, m.get? k = some v := by
  simp only [values, List.mem_map, get?_eq_some_iff, Prod.exists]
  constructor
  . rintro ⟨k, _, hmem, rfl⟩
    exact ⟨k, hmem⟩
  . rintro ⟨k, hmem⟩
    exact ⟨k, v, hmem, rfl⟩

theorem mem_keys_iff {m : SortedMap κ ν} {k : κ} : k ∈ m.keys ↔ ∃ v, m.get? k = some v := by
  simp [keys, get?_eq_some_iff]

theorem contains_iff {m : SortedMap κ ν} {k : κ}
    : m.contains k = true ↔ ∃ v, m.get? k = some v := by
  simp [contains, Option.isSome_iff_exists]

theorem contains_iff_mem_keys {m : SortedMap κ ν} {k : κ} : m.contains k = true ↔ k ∈ m.keys := by
  rw [contains_iff, mem_keys_iff]

theorem keys_nodup (m : SortedMap κ ν) : m.keys.Nodup := by
  unfold keys
  rw [List.Nodup, List.pairwise_map]
  apply List.Pairwise.imp _ m.ascending
  intro a b hlt heq
  rw [heq] at hlt
  omega

theorem not_mem_of_forall_lt {e : κ × ν} {l : List (κ × ν)} (h : ∀ b ∈ l, rank e.1 < rank b.1)
    : e ∉ l := by
  intro hmem
  have := h _ hmem
  omega

theorem head_eq_of_mem_iff {a b : κ × ν} {l l' : List (κ × ν)} (hl : ∀ e ∈ l, rank a.1 < rank e.1)
    (hl' : ∀ e ∈ l', rank b.1 < rank e.1) (h : ∀ e, e ∈ a :: l ↔ e ∈ b :: l') : a = b := by
  cases List.mem_cons.1 ((h a).1 List.mem_cons_self) with
  | inl heq => exact heq
  | inr ha =>
    cases List.mem_cons.1 ((h b).2 List.mem_cons_self) with
    | inl heq => exact heq.symm
    | inr hb =>
      have := hl _ hb
      have := hl' _ ha
      omega

omit [Ranked κ] in
theorem mem_of_mem_cons_iff {a e : κ × ν} {l l' : List (κ × ν)} (hl : a ∉ l)
    (h : e ∈ a :: l ↔ e ∈ a :: l') (he : e ∈ l) : e ∈ l' := by
  cases List.mem_cons.1 (h.1 (List.mem_cons_of_mem _ he)) with
  | inl heq => exact absurd (heq ▸ he) hl
  | inr hmem => exact hmem

theorem eq_of_mem_iff {l l' : List (κ × ν)} (hl : l.Pairwise (fun a b => rank a.1 < rank b.1))
    (hl' : l'.Pairwise (fun a b => rank a.1 < rank b.1)) (h : ∀ e, e ∈ l ↔ e ∈ l') : l = l' := by
  induction l generalizing l' with
  | nil =>
    cases l' with
    | nil => rfl
    | cons hd tl => simpa using h hd
  | cons hd tl ih =>
    cases l' with
    | nil => simpa using h hd
    | cons hd' tl' =>
      rw [List.pairwise_cons] at hl hl'
      have heq := head_eq_of_mem_iff hl.1 hl'.1 h
      subst heq
      rw [ih hl.2 hl'.2]
      intro e
      constructor
      . apply mem_of_mem_cons_iff (not_mem_of_forall_lt hl.1) (h e)
      . apply mem_of_mem_cons_iff (not_mem_of_forall_lt hl'.1) (h e).symm

theorem ext_get? {a b : SortedMap κ ν} (h : ∀ k, a.get? k = b.get? k) : a = b := by
  apply ext
  apply eq_of_mem_iff a.ascending b.ascending
  intro e
  rw [← get?_eq_some_iff (m := a), ← get?_eq_some_iff (m := b), h]

theorem get?_insert [DecidableEq κ] (m : SortedMap κ ν) (k k' : κ) (v : ν)
    : (m.insert k v).get? k' = if k' = k then some v else m.get? k' := by
  split
  . next heq =>
    subst heq
    apply get?_insert_self
  . next hne => exact get?_insert_of_ne m hne v

@[simp]
theorem insert_insert [DecidableEq κ] (m : SortedMap κ ν) (k : κ) (v v' : ν)
    : (m.insert k v).insert k v' = m.insert k v' := by
  apply ext_get?
  intro k'
  rw [get?_insert, get?_insert, get?_insert]
  split <;> rfl

theorem get?_map (m : SortedMap κ ν) (f : κ → ν → μ) (k : κ)
    : (m.map f).get? k = (m.get? k).map (f k) := by
  unfold map get?
  dsimp
  induction m.entries with
  | nil => rfl
  | cons hd tl ih =>
    simp only [List.map_cons, find]
    split
    . next heq =>
      have : k = hd.1 := rank_inj heq
      simp [this]
    . exact ih

theorem get?_modify [DecidableEq κ] (m : SortedMap κ ν) (k k' : κ) (f : ν → ν)
    : (m.modify k f).get? k' = if k' = k then (m.get? k').map f else m.get? k' := by
  have hrank : rank k' = rank k ↔ k' = k := ⟨rank_inj, fun heq => congrArg rank heq⟩
  unfold modify
  rw [get?_map]
  simp only [hrank]
  split
  . rfl
  . exact Option.map_id'

theorem get?_erase [DecidableEq κ] (m : SortedMap κ ν) (k k' : κ)
    : (m.erase k).get? k' = if k' = k then none else m.get? k' := by
  unfold erase get?
  dsimp
  induction m.entries with
  | nil => simp [find]
  | cons hd tl ih =>
    rcases hd with ⟨k'', v⟩
    rw [List.filter_cons]
    split
    . next hne =>
      simp only [decide_eq_true_eq] at hne
      simp only [find, ih]
      split
      . next heq =>
        have : k' = k'' := rank_inj heq
        subst this
        split
        . next heq => exact absurd (congrArg rank heq) hne
        . rfl
      . rfl
    . next heq =>
      simp only [decide_eq_true_eq, Classical.not_not] at heq
      rw [ih]
      have : k'' = k := rank_inj heq
      subst this
      simp only [find]
      split
      . rfl
      . next hne =>
        split
        . next heq => exact absurd (rank_inj heq) hne
        . rfl

theorem length_place_of_find {k : κ} {v : ν} {l : List (κ × ν)} (h : find k l = none)
    : (place k v l).length = l.length + 1 := by
  induction l with
  | nil => rfl
  | cons hd tl ih =>
    simp only [find] at h
    split at h
    . simp at h
    . next hne =>
      simp only [place]
      split
      . rfl
      . simp [ih h]

theorem size_insert_of_get? {m : SortedMap κ ν} {k : κ} (v : ν) (h : m.get? k = none)
    : (m.insert k v).size = m.size + 1 :=
  length_place_of_find h

theorem get?_foldl_insert [DecidableEq κ] {l : List (κ × ν)} {m : SortedMap κ ν} {k : κ} {v : ν}
    (h : (l.foldl (fun m e => m.insert e.1 e.2) m).get? k = some v)
    : (k, v) ∈ l ∨ m.get? k = some v := by
  induction l generalizing m with
  | nil => exact Or.inr h
  | cons hd tl ih =>
    rw [List.foldl_cons] at h
    cases ih h with
    | inl hmem => exact Or.inl (List.mem_cons_of_mem _ hmem)
    | inr h =>
      rw [get?_insert] at h
      split at h
      . next heq =>
        rw [Option.some.injEq] at h
        rw [heq, ← h]
        exact Or.inl List.mem_cons_self
      . exact Or.inr h

theorem contains_foldl_insert [DecidableEq κ] {l : List (κ × ν)} {m : SortedMap κ ν} {k : κ}
    (h : k ∈ l.map (·.1) ∨ m.contains k = true)
    : (l.foldl (fun m e => m.insert e.1 e.2) m).contains k = true := by
  induction l generalizing m with
  | nil => simpa using h
  | cons hd tl ih =>
    rw [List.foldl_cons]
    apply ih
    by_cases heq : k = hd.1
    . right
      simp [contains, heq]
    . cases h with
      | inl hmem => left; simpa [heq] using hmem
      | inr hcon =>
        right
        unfold contains
        rw [get?_insert_of_ne _ heq]
        exact hcon

theorem get?_ofList_mem [DecidableEq κ] {l : List (κ × ν)} {k : κ} {v : ν}
    (h : (ofList l).get? k = some v) : (k, v) ∈ l := by
  cases get?_foldl_insert h with
  | inl hmem => exact hmem
  | inr h => simp at h

theorem contains_ofList [DecidableEq κ] {l : List (κ × ν)} {k : κ}
    : (ofList l).contains k = true ↔ k ∈ l.map (·.1) := by
  constructor
  . intro h
    rw [contains_iff] at h
    rcases h with ⟨v, hv⟩
    have := get?_ofList_mem hv
    rw [List.mem_map]
    exact ⟨_, this, rfl⟩
  . intro h
    exact contains_foldl_insert (Or.inl h)

/-- Where no key has two values, every entry of a list is found in its map. -/
theorem get?_ofList_iff [DecidableEq κ] {l : List (κ × ν)} {k : κ} {v : ν}
    (h : ∀ v', (k, v') ∈ l → v' = v)
    : (ofList l).get? k = some v ↔ (k, v) ∈ l := by
  constructor
  . exact get?_ofList_mem
  . intro hmem
    have hcon : (ofList l).contains k = true := by
      rw [contains_ofList, List.mem_map]
      exact ⟨_, hmem, rfl⟩
    rw [contains_iff] at hcon
    rcases hcon with ⟨v', hv'⟩
    rw [hv', h v' (get?_ofList_mem hv')]

theorem size_foldl_insert [DecidableEq κ] {l : List (κ × ν)} {m : SortedMap κ ν}
    (h : (l.map (·.1)).Nodup) (hfresh : ∀ e ∈ l, m.get? e.1 = none)
    : (l.foldl (fun m e => m.insert e.1 e.2) m).size = m.size + l.length := by
  induction l generalizing m with
  | nil => rfl
  | cons hd tl ih =>
    rw [List.map_cons, List.nodup_cons] at h
    rw [List.foldl_cons, ih h.2]
    . rw [size_insert_of_get? _ (hfresh hd (by simp)), List.length_cons]
      omega
    . intro e he
      rw [get?_insert_of_ne]
      . exact hfresh e (List.mem_cons_of_mem _ he)
      . intro heq
        exact h.1 (heq ▸ List.mem_map_of_mem he)

theorem size_ofList [DecidableEq κ] {l : List (κ × ν)} (h : (l.map (·.1)).Nodup)
    : (ofList l).size = l.length := by
  have := size_foldl_insert (m := (∅ : SortedMap κ ν)) h (by simp)
  have hempty : (∅ : SortedMap κ ν).size = 0 := rfl
  rw [hempty] at this
  simpa [ofList] using this

end SortedMap

namespace PortSet

theorem contains_ofList {l : List Port} {p : Port}
    : (PortSet.ofList l).contains p = true ↔ p ∈ l := by
  unfold PortSet.ofList
  rw [SortedMap.contains_ofList]
  simp

theorem mem_toList {s : PortSet} {p : Port} : p ∈ s.toList ↔ s.contains p = true :=
  SortedMap.contains_iff_mem_keys.symm

theorem ext_contains {s t : PortSet} (h : ∀ p, s.contains p = t.contains p) : s = t := by
  apply SortedMap.ext_get?
  intro p
  have := h p
  unfold SortedMap.contains at this
  cases hs : s.get? p <;> cases ht : t.get? p <;> simp_all

end PortSet
end PadRelay
