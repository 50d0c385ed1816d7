/-!
This module contains maps with ordered keys, kept as association lists that ascend strictly by key.
The order is part of the type, so two maps with the same entries are equal, walking over a map meets
its keys in ascending order, and no key occurs twice.
-/

namespace PadRelay

class Ranked (κ : Type) where
  rank : κ → Int
  rank_inj : ∀ {a b : κ}, rank a = rank b → a = b

export Ranked (rank rank_inj)

instance : Ranked Int32 where
  rank := Int32.toInt
  rank_inj := Int32.toInt_inj.1

instance : Ranked Int64 where
  rank := Int64.toInt
  rank_inj := Int64.toInt_inj.1

instance : Ranked Nat where
  rank := Int.ofNat
  rank_inj := Int.ofNat_inj.1

/--
A map from `κ` to `ν` as a list of entries with strictly ascending keys.
-/
structure SortedMap (κ ν : Type) [Ranked κ] where
  entries : List (κ × ν) := []
  ascending : entries.Pairwise (fun a b => rank a.1 < rank b.1) := by simp

namespace SortedMap

/--
Changes the values of a list of entries from left to right while a state is handed from one entry to
the next.
-/
def mapStateEntries {κ ν μ σ : Type} (f : κ → ν → σ → μ × σ) : List (κ × ν) → σ → List (κ × μ) × σ
  | [], s => ([], s)
  | (k, v) :: rest, s =>
    let r := f k v s
    let rs := mapStateEntries f rest r.2
    ((k, r.1) :: rs.1, rs.2)

@[simp]
theorem keys_mapStateEntries {κ ν μ σ : Type} (f : κ → ν → σ → μ × σ) (l : List (κ × ν)) (s : σ) :
    (mapStateEntries f l s).1.map (·.1) = l.map (·.1) := by
  induction l generalizing s with
  | nil => rfl
  | cons hd tl ih => simp [mapStateEntries, ih]

variable {κ ν μ σ : Type} [Ranked κ]

instance : EmptyCollection (SortedMap κ ν) := ⟨{}⟩

instance : Inhabited (SortedMap κ ν) := ⟨∅⟩

instance [DecidableEq κ] [DecidableEq ν] : DecidableEq (SortedMap κ ν) := fun a b =>
  if h : a.entries = b.entries then
    isTrue (by cases a; cases b; simp_all)
  else
    isFalse (by intro e; exact h (by rw [e]))

@[ext]
theorem ext {a b : SortedMap κ ν} (h : a.entries = b.entries) : a = b := by
  cases a
  cases b
  simp_all

/--
The value of the first entry whose key is `k`.
-/
def find (k : κ) : List (κ × ν) → Option ν
  | [] => none
  | (k', v) :: rest => if rank k = rank k' then some v else find k rest

def place (k : κ) (v : ν) : List (κ × ν) → List (κ × ν)
  | [] => [(k, v)]
  | (k', v') :: rest =>
    if rank k < rank k' then (k, v) :: (k', v') :: rest
    else if rank k = rank k' then (k, v) :: rest
    else (k', v') :: place k v rest

theorem mem_place {k : κ} {v : ν} {e : κ × ν} {l : List (κ × ν)} (h : e ∈ place k v l) :
    e = (k, v) ∨ e ∈ l := by
  induction l with
  | nil => simp_all [place]
  | cons hd tl ih =>
    simp only [place] at h
    split at h
    . simp_all
    . split at h
      . simp_all
        grind
      . simp_all
        grind

theorem place_ascending (k : κ) (v : ν) {l : List (κ × ν)}
    (h : l.Pairwise (fun a b => rank a.1 < rank b.1)) :
    (place k v l).Pairwise (fun a b => rank a.1 < rank b.1) := by
  induction l with
  | nil => simp [place]
  | cons hd tl ih =>
    rw [List.pairwise_cons] at h
    simp only [place]
    split
    . rename_i hlt
      refine List.pairwise_cons.2 ⟨?_, List.pairwise_cons.2 h⟩
      intro e he
      rcases List.mem_cons.1 he with rfl | he
      . exact hlt
      . exact Int.lt_trans hlt (h.1 e he)
    . split
      . rename_i heq
        refine List.pairwise_cons.2 ⟨?_, h.2⟩
        intro e he
        simpa [heq] using h.1 e he
      . rename_i hlt hne
        refine List.pairwise_cons.2 ⟨?_, ih h.2⟩
        intro e he
        rcases mem_place he with rfl | he
        . show rank hd.1 < rank k
          omega
        . exact h.1 e he

/--
The value stored for `k`.
-/
def get? (m : SortedMap κ ν) (k : κ) : Option ν :=
  find k m.entries

/--
Whether there is an entry for `k`.
-/
def contains (m : SortedMap κ ν) (k : κ) : Bool :=
  (m.get? k).isSome

/--
Stores `v` for `k` and replaces what was stored before.
-/
def insert (m : SortedMap κ ν) (k : κ) (v : ν) : SortedMap κ ν :=
  ⟨place k v m.entries, place_ascending k v m.ascending⟩

/--
Removes the entry for `k`.
-/
def erase (m : SortedMap κ ν) (k : κ) : SortedMap κ ν :=
  ⟨m.entries.filter (fun e => rank e.1 ≠ rank k), m.ascending.filter _⟩

/--
Keeps the entries that satisfy `p`.
-/
def filter (p : κ → ν → Bool) (m : SortedMap κ ν) : SortedMap κ ν :=
  ⟨m.entries.filter (fun e => p e.1 e.2), m.ascending.filter _⟩

def map (f : κ → ν → μ) (m : SortedMap κ ν) : SortedMap κ μ :=
  ⟨m.entries.map (fun e => (e.1, f e.1 e.2)), by
    rw [List.pairwise_map]
    exact m.ascending⟩

/--
Changes the value stored for `k`, if there is one.
-/
def modify (m : SortedMap κ ν) (k : κ) (f : ν → ν) : SortedMap κ ν :=
  m.map fun k' v => if rank k' = rank k then f v else v

def keys (m : SortedMap κ ν) : List κ :=
  m.entries.map (·.1)

def values (m : SortedMap κ ν) : List ν :=
  m.entries.map (·.2)

def size (m : SortedMap κ ν) : Nat :=
  m.entries.length

def isEmpty (m : SortedMap κ ν) : Bool :=
  m.entries.isEmpty

/--
The map with the entries of a list, where a later entry replaces an earlier one with the same key.
-/
def ofList (l : List (κ × ν)) : SortedMap κ ν :=
  l.foldl (fun m e => m.insert e.1 e.2) ∅

/--
Changes the values in the order of their keys while a state is handed from one entry to the next.
-/
def mapState (f : κ → ν → σ → μ × σ) (m : SortedMap κ ν) (s : σ) : SortedMap κ μ × σ :=
  let r := mapStateEntries f m.entries s
  (⟨r.1, by
    have h := m.ascending
    rw [← List.pairwise_map (f := Prod.fst) (R := fun a b => rank a < rank b)] at h ⊢
    simpa [r] using h⟩, r.2)

@[simp]
theorem find_place_self (k : κ) (v : ν) (l : List (κ × ν)) : find k (place k v l) = some v := by
  induction l with
  | nil => simp [place, find]
  | cons hd tl ih =>
    simp only [place]
    split
    . simp [find]
    . split
      . simp [find]
      . rename_i hne
        simp [find, hne, ih]

theorem find_place_of_ne {k k' : κ} (h : rank k' ≠ rank k) (v : ν) (l : List (κ × ν)) :
    find k' (place k v l) = find k' l := by
  induction l with
  | nil => simp [place, find, h]
  | cons hd tl ih =>
    simp only [place]
    split
    . simp [find, h]
    . split
      . rename_i heq
        simp [find, h, ← heq]
      . simp [find, ih]

@[simp]
theorem get?_empty (k : κ) : (∅ : SortedMap κ ν).get? k = none := rfl

@[simp]
theorem get?_insert_self (m : SortedMap κ ν) (k : κ) (v : ν) : (m.insert k v).get? k = some v :=
  find_place_self k v m.entries

theorem get?_insert_of_ne (m : SortedMap κ ν) {k k' : κ} (h : k' ≠ k) (v : ν) :
    (m.insert k v).get? k' = m.get? k' :=
  find_place_of_ne (fun e => h (rank_inj e)) v m.entries

@[simp]
theorem keys_map (m : SortedMap κ ν) (f : κ → ν → μ) : (m.map f).keys = m.keys := by
  simp [keys, map]

end SortedMap
end PadRelay
