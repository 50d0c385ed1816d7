import PadRelay.Proofs.Console.Treatment

/-!
This module contains the theory of port allocation. A request is only served with controller ports that
nobody has, so no two members of a console ever share a port, and the table of delays, which is built
by merging what the members have, loses nothing.
-/

namespace PadRelay

theorem judge_acceptable {taken : PortSet} {request : Port} (hreq : request.isRequest = true)
    (h : (judge taken request).2 = .acceptable)
    : (judge taken request).1 ∈ Port.controllers ∧
        taken.contains (judge taken request).1 = false := by
  unfold judge at h ⊢
  split at h
  . next hany =>
    rw [if_pos hany]
    split at h
    . next p hfind =>
      have hfree := List.find?_some hfind
      simp only [Bool.not_eq_true'] at hfree
      exact ⟨List.mem_of_find?_eq_some hfind, hfree⟩
    . simp at h
  . next hany =>
    rw [if_neg hany]
    split at h
    . simp at h
    . next hfree =>
      rw [if_neg hfree]
      simp only [Port.isRequest, Bool.or_eq_true, beq_iff_eq, hany, or_false] at hreq
      simp only [Bool.not_eq_true] at hfree
      exact ⟨of_decide_eq_true hreq, hfree⟩

theorem contains_insert_eq_false {s : PortSet} {p q : Port}
    (h : (s.insert p ()).contains q = false) : q ≠ p ∧ s.contains q = false := by
  unfold SortedMap.contains at h ⊢
  rw [SortedMap.get?_insert] at h
  split at h
  . simp at h
  . next hne => exact ⟨hne, h⟩

/-- If all requests can be served, they are served with different ports that nobody has. -/
theorem judgeAll_acceptable {taken : PortSet} {requests : List Port}
    (hreq : ∀ r ∈ requests, r.isRequest = true)
    (h : allAcceptable (judgeAll taken requests) = true)
    : ((judgeAll taken requests).map (·.1)).Nodup ∧
        ∀ p ∈ (judgeAll taken requests).map (·.1),
          p ∈ Port.controllers ∧ taken.contains p = false := by
  induction requests generalizing taken with
  | nil => simp [judgeAll]
  | cons request rest ih =>
    unfold judgeAll at h ⊢
    dsimp only at h ⊢
    simp only [allAcceptable, List.all_cons, Bool.and_eq_true, decide_eq_true_eq] at h
    have hhead := judge_acceptable (hreq request List.mem_cons_self) h.1
    rw [if_pos h.1] at h ⊢
    -- A port that was given to the head is taken for the tail, so the two can not share one.
    have ih := ih (fun r hr => hreq r (List.mem_cons_of_mem _ hr)) h.2
    have htail := fun p hp => contains_insert_eq_false (ih.2 p hp).2
    rw [List.map_cons, List.nodup_cons]
    refine ⟨⟨?_, ih.1⟩, ?_⟩
    . intro hmem
      exact (htail _ hmem).1 rfl
    . intro p hp
      cases List.mem_cons.1 hp with
      | inl heq =>
        rw [heq]
        exact hhead
      | inr hp => exact ⟨(ih.2 p hp).1, (htail p hp).2⟩

namespace Console

/-- Every member has ports, all of them controller ports, and no two members share one. -/
structure Exclusive (c : Console) : Prop where
  nonempty : ∀ id m, c.members.get? id = some m → ∃ p, m.owns p = true
  controller : ∀ id m p, c.members.get? id = some m → m.owns p = true → p ∈ Port.controllers
  disjoint : ∀ id id' m m' p, c.members.get? id = some m → c.members.get? id' = some m' →
    m.owns p = true → m'.owns p = true → id = id'

def claim? (c : Console) (id : ClientId) : Option (PortSet × Int32) :=
  (c.members.get? id).map fun m => (m.ports, m.delay)

theorem claim?_eq_some_iff {c : Console} {id : ClientId} {ports : PortSet} {delay : Int32}
    : c.claim? id = some (ports, delay) ↔
        ∃ m, c.members.get? id = some m ∧ m.ports = ports ∧ m.delay = delay := by
  simp [claim?, Option.map_eq_some_iff]

theorem claim?_of_get? {c : Console} {id : ClientId} {m : Member}
    (h : c.members.get? id = some m) : c.claim? id = some (m.ports, m.delay) := by
  simp [claim?, h]

theorem Exclusive.of_claim? {c c' : Console} (h : c.Exclusive)
    (hclaim : ∀ id, c'.claim? id = c.claim? id) : c'.Exclusive := by
  have hback : ∀ {id m'}, c'.members.get? id = some m' →
      ∃ m, c.members.get? id = some m ∧ m.ports = m'.ports := by
    intro id m' hm'
    have := claim?_of_get? hm'
    rw [hclaim, claim?_eq_some_iff] at this
    rcases this with ⟨m, hm, hports, _⟩
    exact ⟨m, hm, hports⟩
  constructor
  . intro id m' hm'
    rcases hback hm' with ⟨m, hm, hports⟩
    unfold Member.owns
    rw [← hports]
    exact h.nonempty id m hm
  . intro id m' p hm' hp
    rcases hback hm' with ⟨m, hm, hports⟩
    unfold Member.owns at hp
    rw [← hports] at hp
    exact h.controller id m p hm hp
  . intro id₁ id₂ m₁ m₂ p hm₁ hm₂ hp₁ hp₂
    rcases hback hm₁ with ⟨n₁, hn₁, hports₁⟩
    rcases hback hm₂ with ⟨n₂, hn₂, hports₂⟩
    unfold Member.owns at hp₁ hp₂
    rw [← hports₁] at hp₁
    rw [← hports₂] at hp₂
    exact h.disjoint id₁ id₂ n₁ n₂ p hn₁ hn₂ hp₁ hp₂

theorem contains_occupied {c : Console} {p : Port}
    : c.occupied.contains p = true ↔
        ∃ id m, c.members.get? id = some m ∧ m.owns p = true := by
  simp only [occupied, PortSet.contains_ofList, List.mem_flatMap, SortedMap.mem_values_iff,
    PortSet.mem_toList, Member.owns]
  constructor
  . rintro ⟨m, ⟨id, hm⟩, hp⟩
    exact ⟨id, m, hm, hp⟩
  . rintro ⟨id, m, hm, hp⟩
    exact ⟨m, ⟨id, hm⟩, hp⟩

/-- A set of ports that a new member of a console may be given. -/
structure Grantable (c : Console) (ports : PortSet) : Prop where
  nonempty : ∃ p, ports.contains p = true
  controller : ∀ p, ports.contains p = true → p ∈ Port.controllers
  free : ∀ p, ports.contains p = true → ∀ id m, c.members.get? id = some m → m.owns p = false

theorem grantable_of_plug {c : Console} {requested : List Port}
    (hrequests : requested.filter Port.isRequest ≠ [])
    (h : allAcceptable (judgeAll c.occupied (Port.sort (requested.filter Port.isRequest))) = true)
    : c.Grantable (PortSet.ofList
        ((judgeAll c.occupied (Port.sort (requested.filter Port.isRequest))).map (·.1))) := by
  have hreq : ∀ r ∈ Port.sort (requested.filter Port.isRequest), r.isRequest = true := by
    intro r hr
    unfold Port.sort at hr
    rw [List.mem_mergeSort, List.mem_filter] at hr
    exact hr.2
  have hall := judgeAll_acceptable hreq h
  have hlen : (Port.sort (requested.filter Port.isRequest)).length
      = (requested.filter Port.isRequest).length := by
    unfold Port.sort
    rw [List.length_mergeSort]
  constructor
  . cases hsort : Port.sort (requested.filter Port.isRequest) with
    | nil =>
      rw [hsort, List.length_nil] at hlen
      exact absurd (List.length_eq_zero_iff.1 hlen.symm) hrequests
    | cons r rest =>
      refine ⟨(judge c.occupied r).1, ?_⟩
      rw [PortSet.contains_ofList]
      simp [judgeAll]
  . intro p hp
    rw [PortSet.contains_ofList] at hp
    exact (hall.2 p hp).1
  . intro p hp id m hm
    rw [PortSet.contains_ofList] at hp
    have hfree := (hall.2 p hp).2
    rw [← Bool.not_eq_true, contains_occupied] at hfree
    rw [← Bool.not_eq_true]
    exact fun hp => hfree ⟨id, m, hm, hp⟩

theorem Exclusive.insert {c : Console} (h : c.Exclusive) {ports : PortSet}
    (hports : c.Grantable ports) (id : ClientId) (delay : Int32)
    : Exclusive { c with members := c.members.insert id { ports, delay } } := by
  -- Every member is the new one or was there before.
  have hcases : ∀ {id' m'}, (c.members.insert id { ports, delay }).get? id' = some m' →
      (id' = id ∧ m'.ports = ports) ∨ c.members.get? id' = some m' := by
    intro id' m' hm'
    rw [SortedMap.get?_insert] at hm'
    split at hm'
    . next heq =>
      rw [Option.some.injEq] at hm'
      exact Or.inl ⟨heq, by rw [← hm']⟩
    . exact Or.inr hm'
  constructor
  . intro id' m' hm'
    rcases hcases hm' with ⟨_, heq⟩ | hm'
    . unfold Member.owns
      rw [heq]
      exact hports.nonempty
    . exact h.nonempty id' m' hm'
  . intro id' m' p hm' hp
    rcases hcases hm' with ⟨_, heq⟩ | hm'
    . rw [Member.owns, heq] at hp
      exact hports.controller p hp
    . exact h.controller id' m' p hm' hp
  . intro id₁ id₂ m₁ m₂ p hm₁ hm₂ hp₁ hp₂
    rcases hcases hm₁ with ⟨heq₁, hports₁⟩ | hm₁
    . rcases hcases hm₂ with ⟨heq₂, _⟩ | hm₂
      . rw [heq₁, heq₂]
      . rw [Member.owns, hports₁] at hp₁
        simp [hports.free p hp₁ id₂ m₂ hm₂] at hp₂
    . rcases hcases hm₂ with ⟨_, hports₂⟩ | hm₂
      . rw [Member.owns, hports₂] at hp₂
        simp [hports.free p hp₂ id₁ m₁ hm₁] at hp₁
      . exact h.disjoint id₁ id₂ m₁ m₂ p hm₁ hm₂ hp₁ hp₂

/-- The ports of all members, one member after the other. -/
def ownedPorts (c : Console) : List Port :=
  c.members.values.flatMap fun m => m.ports.toList

theorem Exclusive.nodup_ownedPorts {c : Console} (h : c.Exclusive) : c.ownedPorts.Nodup := by
  unfold ownedPorts SortedMap.values
  rw [List.flatMap_map, List.Nodup, List.pairwise_flatMap]
  constructor
  . intro e _
    exact SortedMap.keys_nodup e.2.ports
  . apply List.Pairwise.imp_of_mem _ c.members.ascending
    intro a b ha hb hlt p hp q hq heq
    rw [← SortedMap.get?_eq_some_iff] at ha hb
    rw [PortSet.mem_toList] at hp hq
    rw [← heq] at hq
    have := h.disjoint a.1 b.1 a.2 b.2 p ha hb hp hq
    rw [this] at hlt
    omega

theorem Exclusive.length_ownedPorts_le {c : Console} (h : c.Exclusive)
    : c.ownedPorts.length ≤ 4 := by
  -- No port occurs twice among the four that there are.
  have hsub : c.ownedPorts ⊆ Port.controllers := by
    intro p hp
    unfold ownedPorts at hp
    rw [List.mem_flatMap] at hp
    rcases hp with ⟨m, hm, hp⟩
    rw [SortedMap.mem_values_iff] at hm
    rcases hm with ⟨id, hm⟩
    exact h.controller id m p hm (PortSet.mem_toList.1 hp)
  exact h.nodup_ownedPorts.length_le_of_subset hsub

theorem length_le_length_flatMap {α β : Type} {f : α → List β} {l : List α}
    (h : ∀ a ∈ l, f a ≠ []) : l.length ≤ (l.flatMap f).length := by
  induction l with
  | nil => simp
  | cons hd tl ih =>
    have ih := ih fun a ha => h a (List.mem_cons_of_mem _ ha)
    have := List.length_pos_iff.2 (h hd List.mem_cons_self)
    simp only [List.flatMap_cons, List.length_append, List.length_cons]
    omega

theorem Exclusive.size_le {c : Console} (h : c.Exclusive) : c.members.size ≤ 4 := by
  have hle : c.members.values.length ≤ c.ownedPorts.length := by
    apply length_le_length_flatMap
    intro m hm hnil
    rw [SortedMap.mem_values_iff] at hm
    rcases hm with ⟨id, hm⟩
    rcases h.nonempty id m hm with ⟨p, hp⟩
    have := PortSet.mem_toList.2 hp
    rw [hnil] at this
    simp at this
  have := h.length_ownedPorts_le
  simp only [SortedMap.values, List.length_map] at hle
  unfold SortedMap.size
  omega

theorem map_fst_portDelays (c : Console)
    : (c.members.values.flatMap fun m => m.ports.toList.map fun p => (p, m.delay)).map (·.1)
        =
      c.ownedPorts := by
  unfold ownedPorts
  rw [List.map_flatMap]
  simp [Function.comp_def]

theorem Exclusive.size_portDelays {c : Console} (h : c.Exclusive)
    : c.portDelays.size = c.ownedPorts.length := by
  unfold portDelays
  rw [SortedMap.size_ofList, ← map_fst_portDelays, List.length_map]
  rw [map_fst_portDelays]
  exact h.nodup_ownedPorts

theorem Exclusive.get?_portDelays_iff {c : Console} (h : c.Exclusive) {p : Port} {d : Int32}
    : c.portDelays.get? p = some d ↔
        ∃ id m, c.members.get? id = some m ∧ m.owns p = true ∧ m.delay = d := by
  have hmem : ∀ {d}, (p, d) ∈ (c.members.values.flatMap fun m =>
      m.ports.toList.map fun p => (p, m.delay)) ↔
        ∃ id m, c.members.get? id = some m ∧ m.owns p = true ∧ m.delay = d := by
    intro d
    simp only [List.mem_flatMap, List.mem_map, SortedMap.mem_values_iff, PortSet.mem_toList,
      Prod.mk.injEq, Member.owns]
    constructor
    . rintro ⟨m, ⟨id, hm⟩, q, hq, rfl, hd⟩
      exact ⟨id, m, hm, hq, hd⟩
    . rintro ⟨id, m, hm, hp, hd⟩
      exact ⟨m, ⟨id, hm⟩, p, hp, rfl, hd⟩
  rw [← hmem]
  constructor
  . exact SortedMap.get?_ofList_mem
  . intro hd
    apply (SortedMap.get?_ofList_iff _).2 hd
    intro d' hd'
    rw [hmem] at hd hd'
    rcases hd with ⟨id, m, hm, hp, rfl⟩
    rcases hd' with ⟨id', m', hm', hp', rfl⟩
    have := h.disjoint id id' m m' p hm hm' hp hp'
    rw [this, hm', Option.some.injEq] at hm
    rw [hm]

end Console
end PadRelay
