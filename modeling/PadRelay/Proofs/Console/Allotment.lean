import PadRelay.Proofs.Console.Ports
import Mathlib.Data.List.Find
import Mathlib.Data.List.Nodup

/-!
This module contains what requests for ports come to, without going through them one after the other:
which of them are refused, when all of them can be served, and which ports they get.
-/

namespace PadRelay

/-- The requests that name the port that they are about. -/
def named (requests : List Port) : List Port :=
  requests.filter (· ≠ .any)

/-- The ports that are not taken and that no request names, the lowest first. -/
def spare (taken : PortSet) (requests : List Port) : List Port :=
  Port.controllers.filter fun p => !taken.contains p && p ∉ requests

/-- The verdict on a request that names a port. `before` are the ports that were named before. -/
def verdictOnNamed (taken : PortSet) (before : List Port) (request : Port) : Port × PortVerdict :=
  if taken.contains request ∨ request ∈ before then (request, .portAlreadyOccupied)
  else (request, .acceptable)

/-- The verdict on a request for any port after `n` others. -/
def verdictOnAny (free : List Port) (n : Nat) : Port × PortVerdict :=
  match free[n]? with
  | some p => (p, .acceptable)
  | none => (.any, .allPortsOccupied)

/--
The verdicts on all requests, those that name a port first. The requests for any port get the ports that
are left, also if some of the named ones are refused.
-/
def verdicts (taken : PortSet) (requests : List Port) : List (Port × PortVerdict) :=
  let ports := Port.sort (named requests)
  (ports.mapIdx fun i request => verdictOnNamed taken (ports.take i) request) ++
    (List.range (requests.count .any)).map (verdictOnAny (spare taken requests))

/-- All requests can be served. -/
structure Fits (taken : PortSet) (requests : List Port) : Prop where
  distinct : (named requests).Nodup
  free : ∀ p ∈ named requests, taken.contains p = false
  enough : requests.count .any ≤ (spare taken requests).length

instance (taken : PortSet) (requests : List Port) : Decidable (Fits taken requests) :=
  decidable_of_iff
    ((named requests).Nodup ∧ (∀ p ∈ named requests, taken.contains p = false) ∧
      requests.count .any ≤ (spare taken requests).length)
    ⟨fun h => ⟨h.1, h.2.1, h.2.2⟩, fun h => ⟨h.distinct, h.free, h.enough⟩⟩

/-- The ports that the requests get if all of them can be served. -/
def allotted (taken : PortSet) (requests : List Port) : List Port :=
  Port.controllers.filter fun p =>
    p ∈ requests ∨ p ∈ (spare taken requests).take (requests.count .any)

@[simp]
theorem verdictOnNamed_fst (taken : PortSet) (before : List Port) (request : Port)
    : (verdictOnNamed taken before request).1 = request := by
  unfold verdictOnNamed
  split <;> rfl

theorem verdictOnNamed_acceptable_iff {taken : PortSet} {before : List Port} {request : Port}
    : (verdictOnNamed taken before request).2 = .acceptable ↔
        ¬ (taken.contains request = true ∨ request ∈ before) := by
  unfold verdictOnNamed
  split
  . next hgone => simp [hgone]
  . next hfree => simp [hfree]

theorem verdictOnAny_acceptable_iff {free : List Port} {n : Nat}
    : (verdictOnAny free n).2 = .acceptable ↔ n < free.length := by
  unfold verdictOnAny
  cases h : free[n]? with
  | none => simpa using h
  | some p => simpa using (List.getElem?_eq_some_iff.1 h).1

theorem find?_not_mem_take {l : List Port} (h : l.Nodup) (n : Nat)
    : (l.find? fun p => p ∉ l.take n) = l[n]? := by
  have htake : ((l.take n).find? fun p => p ∉ l.take n) = none := by simp
  have hdrop : ((l.drop n).find? fun p => p ∉ l.take n) = (l.drop n).head? := by
    have hdisjoint := List.disjoint_take_drop h (Nat.le_refl n)
    cases hl : l.drop n with
    | nil => rfl
    | cons p rest =>
      have hp : p ∉ l.take n := fun hmem => hdisjoint hmem (by simp [hl])
      simp [hp]
  calc (l.find? fun p => p ∉ l.take n)
      = ((l.take n ++ l.drop n).find? fun p => p ∉ l.take n) := by rw [List.take_append_drop]
    _ = (l.drop n).head? := by rw [List.find?_append, htake, Option.none_or, hdrop]
    _ = l[n]? := List.head?_drop

theorem contains_insert {s : PortSet} {p q : Port}
    : (s.insert p ()).contains q = true ↔ q = p ∨ s.contains q = true := by
  unfold SortedMap.contains
  rw [SortedMap.get?_insert]
  split
  . next heq => simp [heq]
  . next hne => simp [hne]

section Sorted

variable {requests : List Port}

theorem sort_perm (requests : List Port) : (Port.sort requests).Perm requests :=
  List.mergeSort_perm _ _

theorem sort_pairwise (requests : List Port)
    : (Port.sort requests).Pairwise fun a b => rank a ≤ rank b := by
  have h : (requests.mergeSort fun a b => rank a ≤ rank b).Pairwise
      fun a b => decide (rank a ≤ rank b) = true := by
    apply List.pairwise_mergeSort
    . intro a b c
      simp only [decide_eq_true_eq]
      omega
    . intro a b
      simp only [Bool.or_eq_true, decide_eq_true_eq]
      omega
  exact h.imp of_decide_eq_true

/-- Requests for any port come last. -/
theorem sort_eq (requests : List Port)
    : Port.sort requests
        =
      Port.sort (named requests) ++ List.replicate (requests.count .any) .any := by
  have hany : List.replicate (requests.count Port.any) .any = requests.filter fun p => !(p ≠ .any) := by
    rw [← List.filter_beq]
    apply List.filter_congr
    intro p _
    cases p <;> rfl
  refine List.Perm.eq_of_pairwise ?_ (sort_pairwise requests) ?_ ?_
  . intro a b _ _ hab hba
    exact rank_inj (by omega)
  . rw [List.pairwise_append]
    refine ⟨sort_pairwise _, List.pairwise_replicate.2 (Or.inr (Int.le_refl _)), ?_⟩
    intro a _ b hb
    rw [(List.mem_replicate.1 hb).2]
    cases a <;> decide
  . rw [hany]
    have := (sort_perm (named requests)).append_right (requests.filter fun p => !(p ≠ .any))
    exact (sort_perm requests).trans (this.trans (List.filter_append_perm _ _)).symm

end Sorted

section Judged

variable {taken now : PortSet} {requests : List Port}

theorem mem_spare_iff {p : Port}
    : p ∈ spare taken requests ↔ p ∈ Port.controllers ∧ taken.contains p = false ∧ p ∉ requests := by
  simp [spare]

theorem nodup_spare (taken : PortSet) (requests : List Port) : (spare taken requests).Nodup := by
  have : Port.controllers.Nodup := by decide
  exact this.filter _

/-- Each port that is named is taken from then on, whether it was free before or not. -/
theorem judgeAll_named {before ports : List Port} (rest : List Port)
    (hnow : ∀ p, now.contains p = true ↔ taken.contains p = true ∨ p ∈ before)
    (hports : ∀ p ∈ ports, p ≠ .any)
    : ∃ now' : PortSet,
        (∀ p, now'.contains p = true ↔ taken.contains p = true ∨ p ∈ before ++ ports) ∧
        judgeAll now (ports ++ rest)
          =
        (ports.mapIdx fun i p => verdictOnNamed taken (before ++ ports.take i) p) ++
          judgeAll now' rest := by
  induction ports generalizing now before with
  | nil => exact ⟨now, by simpa using hnow, rfl⟩
  | cons request ports ih =>
    rw [List.forall_mem_cons] at hports
    have hjudge : judge now request = verdictOnNamed taken before request := by
      unfold judge verdictOnNamed
      rw [if_neg hports.1]
      simp only [hnow]
    have hnext : ∀ p, (if (judge now request).2 = .acceptable then
        now.insert (judge now request).1 () else now).contains p = true
          ↔ taken.contains p = true ∨ p ∈ before ++ [request] := by
      intro p
      rw [hjudge, verdictOnNamed_fst, List.mem_append, List.mem_singleton]
      split
      . rw [contains_insert, hnow]
        tauto
      . next hgone =>
        rw [verdictOnNamed_acceptable_iff, Classical.not_not] at hgone
        rw [hnow]
        constructor
        . tauto
        . rintro (hp | hp | rfl)
          . exact Or.inl hp
          . exact Or.inr hp
          . exact hgone
    rcases ih hnext hports.2 with ⟨now', hnow', hrest⟩
    refine ⟨now', by simpa using hnow', ?_⟩
    rw [List.cons_append, List.mapIdx_cons, List.cons_append]
    conv => lhs; unfold judgeAll
    dsimp only
    rw [hrest, hjudge]
    simp

/-- `n` of the spare ports were handed out, and nothing else was taken since. -/
def Handed (taken : PortSet) (requests : List Port) (now : PortSet) (n : Nat) : Prop :=
  ∀ p ∈ Port.controllers, now.contains p = true ↔
    p ∉ spare taken requests ∨ p ∈ (spare taken requests).take n

theorem Handed.judge_any {n : Nat} (h : Handed taken requests now n)
    : judge now .any = verdictOnAny (spare taken requests) n := by
  have hfind : (Port.controllers.find? fun p => !now.contains p) = (spare taken requests)[n]? := by
    rw [← find?_not_mem_take (nodup_spare taken requests)]
    conv => rhs; arg 2; unfold spare
    rw [List.find?_filter]
    apply List.find?_congr
    intro p hp
    rw [Bool.eq_iff_iff, Bool.not_eq_true', ← Bool.not_eq_true, h p hp, mem_spare_iff]
    simp [hp]
  cases hnth : (spare taken requests)[n]? with
  | none => simp [judge, verdictOnAny, hfind, hnth]
  | some p => simp [judge, verdictOnAny, hfind, hnth]

theorem Handed.next {n : Nat} (h : Handed taken requests now n)
    : Handed taken requests
        (if (judge now .any).2 = .acceptable then now.insert (judge now .any).1 () else now)
        (n + 1) := by
  intro p hp
  rw [h.judge_any, List.take_add_one, List.mem_append]
  unfold verdictOnAny
  cases (spare taken requests)[n]? with
  | none =>
    dsimp only
    rw [if_neg (by decide), h p hp]
    simp
  | some q =>
    dsimp only
    rw [if_pos rfl, contains_insert, h p hp]
    simp only [Option.toList_some, List.mem_singleton]
    tauto

theorem Handed.judgeAll {n : Nat} (h : Handed taken requests now n) (count : Nat)
    : judgeAll now (List.replicate count .any)
        =
      (List.range' n count).map (verdictOnAny (spare taken requests)) := by
  induction count generalizing now n with
  | zero => rfl
  | succ count ih =>
    rw [List.replicate_succ, List.range'_succ, List.map_cons]
    unfold PadRelay.judgeAll
    dsimp only
    rw [ih h.next, h.judge_any]

theorem judgeAll_sort (taken : PortSet) (requests : List Port)
    : judgeAll taken (Port.sort requests) = verdicts taken requests := by
  have hmem : ∀ p, p ∈ Port.sort (named requests) ↔ p ∈ requests ∧ p ≠ .any := by
    intro p
    rw [(sort_perm _).mem_iff]
    simp [named]
  have hstart : ∀ p, taken.contains p = true ↔ taken.contains p = true ∨ p ∈ [] := by simp
  rcases judgeAll_named (List.replicate (requests.count .any) .any) hstart
    (fun p hp => ((hmem p).1 hp).2) with ⟨now, hnow, hjudge⟩
  have hhanded : Handed taken requests now 0 := by
    intro p hp
    have hany : p ≠ .any := by
      intro heq
      rw [heq] at hp
      exact absurd hp (by decide)
    rw [hnow, List.nil_append, hmem, mem_spare_iff]
    simp only [List.take_zero, List.not_mem_nil, or_false, hp, hany, ne_eq, not_false_eq_true,
      and_true, true_and, not_and_or, Bool.not_eq_false, Classical.not_not]
  rw [sort_eq, hjudge, hhanded.judgeAll, ← List.range_eq_range']
  rfl

theorem length_verdicts (taken : PortSet) (requests : List Port)
    : (verdicts taken requests).length = requests.length := by
  have : ∀ requests, (judgeAll taken requests).length = requests.length := by
    intro requests
    induction requests generalizing taken with
    | nil => rfl
    | cons request rest ih =>
      unfold judgeAll
      simp [ih]
  rw [← judgeAll_sort, this, (sort_perm requests).length_eq]

theorem acceptable_named_iff (taken : PortSet) (before ports : List Port)
    : allAcceptable (ports.mapIdx fun i p => verdictOnNamed taken (before ++ ports.take i) p) = true ↔
        ports.Nodup ∧ ∀ p ∈ ports, taken.contains p = false ∧ p ∉ before := by
  unfold allAcceptable
  induction ports generalizing before with
  | nil => simp
  | cons request ports ih =>
    rw [List.mapIdx_cons, List.all_cons, Bool.and_eq_true, decide_eq_true_eq]
    have hrest := ih (before ++ [request])
    simp only [List.append_assoc, List.singleton_append] at hrest
    simp only [List.take_succ_cons]
    rw [hrest, List.nodup_cons, List.forall_mem_cons]
    rw [List.take_zero, List.append_nil, verdictOnNamed_acceptable_iff]
    simp only [List.mem_append, List.mem_singleton, not_or, Bool.not_eq_true]
    grind

theorem acceptable_any_iff {free : List Port} {n : Nat}
    : allAcceptable ((List.range n).map (verdictOnAny free)) = true ↔ n ≤ free.length := by
  unfold allAcceptable
  simp only [List.all_map, List.all_eq_true, List.mem_range, Function.comp_apply, decide_eq_true_eq,
    verdictOnAny_acceptable_iff]
  constructor
  . intro h
    cases n with
    | zero => exact Nat.zero_le _
    | succ n => exact h n (Nat.lt_succ_self n)
  . intro h i hi
    omega

theorem allAcceptable_iff (taken : PortSet) (requests : List Port)
    : allAcceptable (verdicts taken requests) = true ↔ Fits taken requests := by
  have happend : ∀ a b, allAcceptable (a ++ b) = (allAcceptable a && allAcceptable b) :=
    fun _ _ => List.all_append
  have hnamed := acceptable_named_iff taken [] (Port.sort (named requests))
  simp only [List.nil_append, (sort_perm _).nodup_iff, (sort_perm _).mem_iff, List.not_mem_nil,
    not_false_eq_true, and_true] at hnamed
  unfold verdicts
  rw [happend, Bool.and_eq_true, hnamed, acceptable_any_iff]
  constructor
  . rintro ⟨⟨hdistinct, hfree⟩, henough⟩
    exact ⟨hdistinct, hfree, henough⟩
  . rintro ⟨hdistinct, hfree, henough⟩
    exact ⟨⟨hdistinct, hfree⟩, henough⟩

/-- Requests that can be served get the ports that they name and the lowest ones that are left. -/
theorem Fits.map_fst (h : Fits taken requests)
    : (verdicts taken requests).map (·.1)
        =
      Port.sort (named requests) ++ (spare taken requests).take (requests.count .any) := by
  unfold verdicts
  dsimp only
  rw [List.map_append]
  congr 1
  . apply List.ext_getElem
    . simp
    . intro i hi hi'
      simp
  . have henough := h.enough
    apply List.ext_getElem
    . simp
      omega
    . intro i hi hi'
      simp only [List.length_map, List.length_range] at hi
      simp only [List.getElem_map, List.getElem_range, List.getElem_take]
      unfold verdictOnAny
      rw [List.getElem?_eq_getElem (by omega)]

end Judged

theorem toList_ofList {ports : List Port} (h : ports.Pairwise fun a b => rank a < rank b)
    : (PortSet.ofList ports).toList = ports := by
  let s : PortSet := { entries := ports.map fun p => (p, ()), ascending := List.pairwise_map.2 h }
  have hs : PortSet.ofList ports = s := by
    apply PortSet.ext_contains
    intro p
    rw [Bool.eq_iff_iff, PortSet.contains_ofList, ← PortSet.mem_toList]
    simp [PortSet.toList, SortedMap.keys, s]
  rw [hs]
  simp [PortSet.toList, SortedMap.keys, s, Function.comp_def]

theorem mem_allotted_iff {taken : PortSet} {requests : List Port} {p : Port}
    : p ∈ allotted taken requests ↔
        p ∈ Port.controllers ∧
          (p ∈ requests ∨ p ∈ (spare taken requests).take (requests.count .any)) := by
  simp [allotted]

theorem pairwise_allotted (taken : PortSet) (requests : List Port)
    : (allotted taken requests).Pairwise fun a b => rank a < rank b := by
  have : Port.controllers.Pairwise fun a b => rank a < rank b := by decide
  exact this.filter _

theorem Fits.ofList {taken : PortSet} {requests : List Port} (h : Fits taken requests)
    (hrequests : ∀ r ∈ requests, r.isRequest = true)
    : PortSet.ofList ((verdicts taken requests).map (·.1))
        =
      PortSet.ofList (allotted taken requests) := by
  apply PortSet.ext_contains
  intro p
  rw [Bool.eq_iff_iff, PortSet.contains_ofList, PortSet.contains_ofList, h.map_fst, List.mem_append,
    (sort_perm _).mem_iff, mem_allotted_iff, named, List.mem_filter, decide_eq_true_eq]
  constructor
  . rintro (⟨hp, hany⟩ | hp)
    . have hrequest := hrequests p hp
      simp only [Port.isRequest, Port.isController, Bool.or_eq_true, decide_eq_true_eq, beq_iff_eq,
        hany, or_false] at hrequest
      exact ⟨hrequest, Or.inl hp⟩
    . exact ⟨(mem_spare_iff.1 (List.mem_of_mem_take hp)).1, Or.inr hp⟩
  . rintro ⟨hcontroller, hp | hp⟩
    . refine Or.inl ⟨hp, ?_⟩
      intro heq
      rw [heq] at hcontroller
      exact absurd hcontroller (by decide)
    . exact Or.inr hp

namespace Console

variable {c : Console} {romHash : String} {requested : List Port}

/-- Both sides know the hash of their game image, and the images are different ones. -/
def Differs (c : Console) (romHash : String) : Prop :=
  c.romHash ≠ "" ∧ romHash ≠ "" ∧ c.romHash ≠ romHash

/-- A request that is not refused for any reason but that its ports may not be free. -/
structure Judges (c : Console) (romHash : String) (requests : List Port) : Prop where
  status : c.status = .created
  hash : ¬ c.Differs romHash
  requests : requests ≠ []

theorem plug_of_judges (h : c.Judges romHash (requested.filter Port.isRequest)) (ids : IdSource)
    (delay : Int32)
    : c.plug ids delay requested romHash
        =
      let verdicts := verdicts c.occupied (requested.filter Port.isRequest)
      let ports := PortSet.ofList (verdicts.map (·.1))
      if allAcceptable verdicts then
        .ok {
          clientId := ⟨ids.next⟩
          ports := ports.toList
          console := { c with members := c.members.insert ⟨ids.next⟩ { ports, delay } }
          ids := ⟨ids.next + 1⟩ }
      else
        .error (.rejected verdicts) := by
  have hhash := h.hash
  unfold Differs at hhash
  unfold plug
  rw [if_neg (by simp [h.status]), if_neg hhash]
  dsimp only
  rw [if_neg h.requests, judgeAll_sort]
  rfl

theorem plug_of_fits (h : c.Judges romHash (requested.filter Port.isRequest))
    (hfits : Fits c.occupied (requested.filter Port.isRequest)) (ids : IdSource) (delay : Int32)
    : let ports := allotted c.occupied (requested.filter Port.isRequest)
      c.plug ids delay requested romHash
        =
      .ok {
        clientId := ⟨ids.next⟩
        ports
        console := { c with
          members := c.members.insert ⟨ids.next⟩ { ports := .ofList ports, delay } }
        ids := ⟨ids.next + 1⟩ } := by
  have hrequests : ∀ r ∈ requested.filter Port.isRequest, r.isRequest = true :=
    fun r hr => (List.mem_filter.1 hr).2
  dsimp only
  rw [plug_of_judges h]
  dsimp only
  rw [if_pos ((allAcceptable_iff _ _).2 hfits), hfits.ofList hrequests,
    toList_ofList (pairwise_allotted _ _)]

theorem plug_of_not_fits (h : c.Judges romHash (requested.filter Port.isRequest))
    (hfits : ¬ Fits c.occupied (requested.filter Port.isRequest)) (ids : IdSource) (delay : Int32)
    : c.plug ids delay requested romHash
        =
      .error (.rejected (verdicts c.occupied (requested.filter Port.isRequest))) := by
  rw [plug_of_judges h]
  dsimp only
  rw [if_neg]
  rw [allAcceptable_iff]
  exact hfits

end Console
end PadRelay
