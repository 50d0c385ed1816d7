import Mathlib.Data.List.Sort
import PadRelay.Proofs.SortedMap
import PadRelay.Slots

/-!
This module contains the theory of the assignment of input channels to the controllers of a game. Slots
are filled one after the other, first those of the local ports and then those of the remote ones, but as
no two ports have the same slot the outcome is the same as if each slot was filled for itself.
-/

namespace PadRelay

namespace Port

theorem slot?_inj {p q : Port} {i : Fin 4} (hp : p.slot? = some i) (hq : q.slot? = some i) : p = q := by
  have hport := ofSlot?_of_slot? hp
  rw [ofSlot?_of_slot? hq, Option.some.injEq] at hport
  exact hport.symm

theorem slot?_eq_none_iff {p : Port} : p.slot? = none ↔ p.isController = false := by
  cases p <;> decide

theorem isController_of_slot? {p : Port} {i : Fin 4} (h : p.slot? = some i)
    : p.isController = true := by
  cases hcontroller : p.isController with
  | true => rfl
  | false => simp [slot?_eq_none_iff.2 hcontroller] at h

theorem exists_slot? {p : Port} (h : p.isController = true) : ∃ i, p.slot? = some i := by
  cases hslot : p.slot? with
  | some i => exact ⟨i, rfl⟩
  | none => simp [slot?_eq_none_iff.1 hslot] at h

end Port

namespace PortSet

theorem pairwise_rank (s : PortSet) : s.toList.Pairwise fun a b => rank a < rank b := by
  unfold toList SortedMap.keys
  rw [List.pairwise_map]
  exact SortedMap.ascending s

theorem nodup_toList (s : PortSet) : s.toList.Nodup :=
  s.keys_nodup

theorem length_toList (s : PortSet) : s.toList.length = s.size :=
  List.length_map _

/-- The first port of a set that is not a port of a controller. -/
structure FirstInvalid (s : PortSet) (p : Port) : Prop where
  mem : s.contains p = true
  invalid : p.isController = false
  first : ∀ q, s.contains q = true → q.isController = false → rank p ≤ rank q

theorem find?_toList_eq_some_iff {s : PortSet} {p : Port}
    : s.toList.find? (fun p => !p.isController) = some p ↔ s.FirstInvalid p := by
  rw [List.find?_eq_some_iff_append]
  constructor
  . rintro ⟨hinvalid, before, after, hsplit, hbefore⟩
    have hascending := s.pairwise_rank
    rw [hsplit, List.pairwise_append, List.pairwise_cons] at hascending
    refine ⟨?_, by simpa using hinvalid, ?_⟩
    . rw [← mem_toList, hsplit]
      simp
    . intro q hq hqinvalid
      rw [← mem_toList, hsplit, List.mem_append, List.mem_cons] at hq
      rcases hq with hq | rfl | hq
      . have := hbefore q hq
        simp [hqinvalid] at this
      . exact Int.le_refl _
      . exact Int.le_of_lt (hascending.2.1.1 q hq)
  . intro h
    have hmem := mem_toList.2 h.mem
    rcases List.mem_iff_append.1 hmem with ⟨before, after, hsplit⟩
    refine ⟨by simp [h.invalid], before, after, hsplit, ?_⟩
    intro q hq
    have hascending := s.pairwise_rank
    rw [hsplit, List.pairwise_append] at hascending
    have hlt := hascending.2.2 q hq p List.mem_cons_self
    cases hcontroller : q.isController with
    | true => rfl
    | false =>
      have hle := h.first q (mem_toList.1 (hsplit ▸ List.mem_append_left _ hq)) hcontroller
      omega

theorem find?_toList_eq_none_iff {s : PortSet}
    : s.toList.find? (fun p => !p.isController) = none ↔
        ∀ p, s.contains p = true → p.isController = true := by
  simp [List.find?_eq_none, mem_toList]

theorem toList_eq_filter {s : PortSet} (h : ∀ p, s.contains p = true → p.isController = true)
    : s.toList = Port.controllers.filter fun p => s.contains p := by
  have hcontrollers : Port.controllers.Pairwise fun a b => rank a < rank b := by decide
  have hperm : s.toList.Perm (Port.controllers.filter fun p => s.contains p) := by
    rw [List.perm_ext_iff_of_nodup s.nodup_toList (List.Nodup.filter _ (by decide))]
    intro p
    rw [mem_toList, List.mem_filter]
    constructor
    . intro hp
      exact ⟨of_decide_eq_true (h p hp), hp⟩
    . exact fun hp => hp.2
  apply hperm.eq_of_pairwise _ s.pairwise_rank (hcontrollers.filter _)
  intro a b _ _ hlt hlt'
  omega

end PortSet

section Fill

variable {feed : Port → Option Nat → Slot} {l : List (Port × Option Nat)} {slots slots' : Vector Slot 4}
variable {p : Port} {i : Fin 4}

/-- Filling slots goes on until there is a port without a slot. -/
theorem fillSlots_cases (feed : Port → Option Nat → Slot) (l : List (Port × Option Nat))
    (slots : Vector Slot 4)
    : (∃ p, (l.map (·.1)).find? (fun p => !p.isController) = some p ∧
        fillSlots feed l slots = .error (.invalidPort p)) ∨
      ((l.map (·.1)).find? (fun p => !p.isController) = none ∧
        ∃ slots', fillSlots feed l slots = .ok slots') := by
  induction l generalizing slots with
  | nil => exact Or.inr ⟨rfl, slots, rfl⟩
  | cons x rest ih =>
    rcases x with ⟨p, c⟩
    unfold fillSlots
    cases hslot : p.slot? with
    | none => exact Or.inl ⟨p, by simp [Port.slot?_eq_none_iff.1 hslot], rfl⟩
    | some i =>
      have hcontroller := Port.isController_of_slot? hslot
      rcases ih (slots.set i (feed p c)) with ⟨q, hfind, herror⟩ | ⟨hfind, hok⟩
      . exact Or.inl ⟨q, by simpa [hcontroller] using hfind, herror⟩
      . exact Or.inr ⟨by simpa [hcontroller] using hfind, hok⟩

theorem controller_of_fillSlots (h : fillSlots feed l slots = .ok slots')
    : ∀ p ∈ l.map (·.1), p.isController = true := by
  rcases fillSlots_cases feed l slots with ⟨p, _, herror⟩ | ⟨hnone, _⟩
  . simp [h] at herror
  . rw [List.find?_eq_none] at hnone
    simpa using hnone

theorem get_fillSlots_of_not_mem (h : fillSlots feed l slots = .ok slots')
    (hmem : ∀ x ∈ l, x.1.slot? ≠ some i) : slots'.get i = slots.get i := by
  induction l generalizing slots with
  | nil =>
    rw [fillSlots, Except.ok.injEq] at h
    rw [h]
  | cons x rest ih =>
    rcases x with ⟨p, c⟩
    rw [List.forall_mem_cons] at hmem
    unfold fillSlots at h
    cases hslot : p.slot? with
    | none => simp [hslot] at h
    | some j =>
      simp only [hslot] at h
      have hne : j ≠ i := by
        rintro rfl
        exact hmem.1 hslot
      rw [ih h hmem.2]
      exact Vector.getElem_set_ne _ _ (fun heq => hne (Fin.ext heq))

theorem get_fillSlots_of_mem (h : fillSlots feed l slots = .ok slots')
    (hnodup : (l.map (·.1)).Nodup) {c : Option Nat} (hmem : (p, c) ∈ l) (hp : p.slot? = some i)
    : slots'.get i = feed p c := by
  induction l generalizing slots with
  | nil => simp at hmem
  | cons x rest ih =>
    rcases x with ⟨q, d⟩
    rw [List.map_cons, List.nodup_cons] at hnodup
    unfold fillSlots at h
    cases hslot : q.slot? with
    | none => simp [hslot] at h
    | some j =>
      simp only [hslot] at h
      cases List.mem_cons.1 hmem with
      | inl heq =>
        obtain ⟨rfl, rfl⟩ := Prod.mk.inj heq
        obtain rfl : j = i := Option.some.inj (hslot.symm.trans hp)
        -- No port behind this one has the same slot.
        have hrest : ∀ x ∈ rest, x.1.slot? ≠ some j := by
          intro x hx hx'
          exact hnodup.1 (List.mem_map.2 ⟨x, hx, Port.slot?_inj hx' hp⟩)
        rw [get_fillSlots_of_not_mem h hrest]
        exact Vector.getElem_set_self _
      | inr hmem => exact ih h hnodup.2 hmem

end Fill

def localSlot (delay : Port → Int32) (p : Port) (c : Option Nat) : Slot :=
  { present := true, delay := delay p, channel := c }

def remoteSlot (delay : Port → Int32) (p : Port) (c : Option Nat) : Slot :=
  { present := true, remote := true, delay := delay p, channel := c }

/--
What the slots of a game have to be: the local ports, in ascending order, get the given channels, the
remote ports are fed from the network, and the other slots are empty.
-/
structure Assigned (channels : List Nat) (localPorts remotePorts : PortSet)
    (delay : Port → Int32) (slots : Vector Slot 4) : Prop where
  localPort : ∀ (k : Nat) p, localPorts.toList[k]? = some p → ∃ (i : Fin 4) (c : Nat),
    p.slot? = some i ∧ channels[k]? = some c ∧ slots.get i = localSlot delay p (some c)
  remotePort : ∀ p, remotePorts.contains p = true → ∃ i : Fin 4, p.slot? = some i ∧
    slots.get i = remoteSlot delay p none
  other : ∀ i : Fin 4, (∀ p, p.slot? = some i → localPorts.contains p = false ∧
    remotePorts.contains p = false) → slots.get i = {}

section Assign

variable {channels sorted : List Nat} {localPorts remotePorts : PortSet} {delay : Port → Int32}
variable {slots slots' : Vector Slot 4}

theorem map_fst_zip_channels (h : channels.length = localPorts.size)
    : (localPorts.toList.zip (channels.map some)).map (·.1) = localPorts.toList := by
  apply List.map_fst_zip
  rw [List.length_map, h, PortSet.length_toList]

theorem map_fst_remote (s : PortSet)
    : (s.toList.map fun p => (p, (none : Option Nat))).map (·.1) = s.toList := by
  rw [List.map_map]
  exact List.map_id _

theorem mergeSort_eq (hperm : sorted.Perm channels) (hsorted : sorted.Pairwise (· ≤ ·))
    : (channels.mergeSort fun a b => a ≤ b) = sorted := by
  apply List.Perm.eq_of_pairwise' (r := (· ≤ ·)) (List.pairwise_mergeSort' _ channels) hsorted
  exact (List.mergeSort_perm channels _).trans hperm.symm

/-- Filling the slots of the remote ports leaves those of the local ones alone. -/
theorem assigned_of_fillSlots (h : channels.length = localPorts.size)
    (hdisjoint : ∀ p, localPorts.contains p = true → remotePorts.contains p = false)
    (hlocal : fillSlots (localSlot delay) (localPorts.toList.zip (channels.map some)) emptySlots
      = .ok slots)
    (hremote : fillSlots (remoteSlot delay) (remotePorts.toList.map fun p => (p, none)) slots
      = .ok slots')
    : Assigned channels localPorts remotePorts delay slots' := by
  have hunzip := map_fst_zip_channels h
  have hkept : ∀ i : Fin 4, (∀ p, p.slot? = some i → remotePorts.contains p = false) →
      slots'.get i = slots.get i := by
    intro i hi
    apply get_fillSlots_of_not_mem hremote
    intro x hx hslot
    rw [List.mem_map] at hx
    rcases hx with ⟨p, hp, rfl⟩
    rw [PortSet.mem_toList, hi p hslot] at hp
    simp at hp
  constructor
  . intro k p hk
    have hp := List.mem_of_getElem? hk
    have hcontroller := controller_of_fillSlots hlocal p (hunzip.symm ▸ hp)
    rcases Port.exists_slot? hcontroller with ⟨i, hi⟩
    have hk' : k < channels.length := by
      rw [h, ← PortSet.length_toList]
      exact (List.getElem?_eq_some_iff.1 hk).1
    have hc : channels[k]? = some channels[k] := List.getElem?_eq_getElem hk'
    refine ⟨i, channels[k], hi, hc, ?_⟩
    rw [hkept i]
    . have hnodup : ((localPorts.toList.zip (channels.map some)).map (·.1)).Nodup := by
        rw [hunzip]
        exact localPorts.nodup_toList
      apply get_fillSlots_of_mem hlocal hnodup _ hi
      apply List.mem_of_getElem? (i := k)
      rw [List.getElem?_zip_eq_some]
      exact ⟨hk, by rw [List.getElem?_map, hc]; rfl⟩
    . intro q hq
      rw [Port.slot?_inj hq hi]
      exact hdisjoint p (PortSet.mem_toList.1 hp)
  . intro p hp
    have hp' := PortSet.mem_toList.2 hp
    have hunzip := map_fst_remote remotePorts
    have hcontroller := controller_of_fillSlots hremote p (hunzip.symm ▸ hp')
    rcases Port.exists_slot? hcontroller with ⟨i, hi⟩
    refine ⟨i, hi, get_fillSlots_of_mem hremote (hunzip.symm ▸ remotePorts.nodup_toList) ?_ hi⟩
    exact List.mem_map.2 ⟨p, hp', rfl⟩
  . intro i hi
    rw [hkept i fun p hp => (hi p hp).2]
    rw [get_fillSlots_of_not_mem hlocal]
    . exact Vector.getElem_replicate i.isLt
    . intro x hx hslot
      have hx' := PortSet.mem_toList.1 (hunzip ▸ List.mem_map_of_mem hx)
      simp [(hi x.1 hslot).1] at hx'

theorem assignSlots_of_ne (h : channels.length ≠ localPorts.size) (remotePorts : PortSet)
    (delay? : Port → Option Int32)
    : assignSlots channels localPorts remotePorts delay?
        =
      .error (.channelCountMismatch localPorts.size channels.length) := by
  unfold assignSlots
  rw [if_pos h]

/-- All outcomes for as many channels as there are local ports. -/
theorem assignSlots_cases (delay? : Port → Option Int32) (h : channels.length = localPorts.size)
    (hdisjoint : ∀ p, localPorts.contains p = true → remotePorts.contains p = false)
    (hperm : sorted.Perm channels) (hsorted : sorted.Pairwise (· ≤ ·))
    : (∃ p, localPorts.FirstInvalid p ∧
        assignSlots channels localPorts remotePorts delay? = .error (.invalidPort p)) ∨
      ((∀ q, localPorts.contains q = true → q.isController = true) ∧
        ∃ p, remotePorts.FirstInvalid p ∧
          assignSlots channels localPorts remotePorts delay? = .error (.invalidPort p)) ∨
      ((∀ q, localPorts.contains q = true ∨ remotePorts.contains q = true →
          q.isController = true) ∧
        ∃ slots, assignSlots channels localPorts remotePorts delay? = .ok slots ∧
          Assigned sorted localPorts remotePorts (fun p => (delay? p).getD 0) slots) := by
  have hlength := hperm.length_eq.trans h
  unfold assignSlots
  rw [if_neg (by simp [h]), mergeSort_eq hperm hsorted]
  dsimp
  have hunzip := map_fst_zip_channels hlength
  rcases fillSlots_cases (localSlot fun p => (delay? p).getD 0)
    (localPorts.toList.zip (sorted.map some)) emptySlots with ⟨p, hfind, herror⟩ | ⟨hnone, slots, hok⟩
  . rw [hunzip, PortSet.find?_toList_eq_some_iff] at hfind
    unfold localSlot at herror
    rw [herror]
    exact Or.inl ⟨p, hfind, rfl⟩
  . rw [hunzip, PortSet.find?_toList_eq_none_iff] at hnone
    rcases fillSlots_cases (remoteSlot fun p => (delay? p).getD 0)
      (remotePorts.toList.map fun p => (p, none)) slots with
      ⟨p, hfind, herror⟩ | ⟨hremote, slots', hok'⟩
    . rw [map_fst_remote, PortSet.find?_toList_eq_some_iff] at hfind
      unfold localSlot at hok
      unfold remoteSlot at herror
      rw [hok]
      exact Or.inr (Or.inl ⟨hnone, p, hfind, herror⟩)
    . have hassigned := assigned_of_fillSlots hlength hdisjoint hok hok'
      rw [map_fst_remote, PortSet.find?_toList_eq_none_iff] at hremote
      unfold localSlot at hok
      unfold remoteSlot at hok'
      rw [hok]
      refine Or.inr (Or.inr ⟨?_, slots', hok', hassigned⟩)
      rintro q (hq | hq)
      . exact hnone q hq
      . exact hremote q hq

/-- The slot of a controller port. -/
def slotOf (slots : Vector Slot 4) (p : Port) : Slot :=
  match p.slot? with
  | none => {}
  | some i => slots.get i

theorem slotOf_of_slot? {p : Port} {i : Fin 4} (h : p.slot? = some i)
    : slotOf slots p = slots.get i := by
  unfold slotOf
  rw [h]

theorem toList_eq_map_slotOf (slots : Vector Slot 4)
    : slots.toList = Port.controllers.map (slotOf slots) := by
  apply List.ext_getElem
  . simp [Port.controllers]
  . intro i hi _
    rw [Vector.length_toList] at hi
    have hcases : i = 0 ∨ i = 1 ∨ i = 2 ∨ i = 3 := by omega
    rcases hcases with rfl | rfl | rfl | rfl
    all_goals rfl

theorem Assigned.channel_of_not_local (h : Assigned channels localPorts remotePorts delay slots)
    {p : Port} (hp : localPorts.contains p = false) : (slotOf slots p).channel = none := by
  cases hslot : p.slot? with
  | none => simp [slotOf, hslot]
  | some i =>
    rw [slotOf_of_slot? hslot]
    cases hremote : remotePorts.contains p with
    | true =>
      rcases h.remotePort p hremote with ⟨j, hj, hremote⟩
      obtain rfl : i = j := Option.some.inj (hslot.symm.trans hj)
      rw [hremote]
      rfl
    | false =>
      rw [h.other i]
      intro q hq
      rw [Port.slot?_inj hq hslot]
      exact ⟨hp, hremote⟩

/-- All channels are used, each of them once, and from the lowest port to the highest in their order. -/
theorem Assigned.channels_eq (h : Assigned channels localPorts remotePorts delay slots)
    (hlength : channels.length = localPorts.size)
    : slots.toList.filterMap (·.channel) = channels := by
  have hfed : localPorts.toList.map (fun p => (slotOf slots p).channel) = channels.map some := by
    apply List.ext_getElem
    . simp [PortSet.length_toList, hlength]
    . intro k hk _
      rw [List.length_map] at hk
      rcases h.localPort k _ (List.getElem?_eq_getElem hk) with ⟨i, c, hi, hc, hslot⟩
      rcases List.getElem?_eq_some_iff.1 hc with ⟨_, rfl⟩
      rw [List.getElem_map, List.getElem_map, slotOf_of_slot? hi, hslot]
      rfl
  have hports : localPorts.toList = Port.controllers.filter fun p => localPorts.contains p := by
    apply PortSet.toList_eq_filter
    intro p hp
    rcases List.mem_iff_getElem?.1 (PortSet.mem_toList.2 hp) with ⟨k, hk⟩
    rcases h.localPort k p hk with ⟨i, _, hi, _⟩
    exact Port.isController_of_slot? hi
  calc slots.toList.filterMap (·.channel)
    _ = Port.controllers.filterMap fun p => (slotOf slots p).channel := by
      rw [toList_eq_map_slotOf, List.filterMap_map]
      rfl
    _ = localPorts.toList.filterMap fun p => (slotOf slots p).channel := by
      rw [hports, List.filterMap_filter]
      apply List.filterMap_congr
      intro p _
      split
      . rfl
      . next hp => exact h.channel_of_not_local (Bool.eq_false_iff.2 hp)
    _ = (channels.map some).filterMap id := by
      rw [← hfed, List.filterMap_map]
      rfl
    _ = channels := by simp

theorem assignSlots_of_perm {channels' : List Nat} (h : channels'.Perm channels)
    (localPorts remotePorts : PortSet) (delay? : Port → Option Int32)
    : assignSlots channels' localPorts remotePorts delay?
        =
      assignSlots channels localPorts remotePorts delay? := by
  have hsort : (channels'.mergeSort fun a b => a ≤ b) = channels.mergeSort fun a b => a ≤ b := by
    refine mergeSort_eq ?_ (List.pairwise_mergeSort' _ channels)
    exact (List.mergeSort_perm channels _).trans h.symm
  unfold assignSlots
  rw [h.length_eq, hsort]

/-- What an assignment of channels to ports has to come to. -/
structure Assignment (channels : List Nat) (localPorts remotePorts : PortSet)
    (delay : Port → Int32) (result : Except SlotError (Vector Slot 4)) : Prop where
  mismatch : ∀ ports count, result = .error (.channelCountMismatch ports count) ↔
    channels.length ≠ localPorts.size ∧ ports = localPorts.size ∧ count = channels.length
  invalid : ∀ p, result = .error (.invalidPort p) ↔ channels.length = localPorts.size ∧
    (localPorts.FirstInvalid p ∨ (∀ q, localPorts.contains q = true → q.isController = true) ∧
      remotePorts.FirstInvalid p)
  filled : channels.length = localPorts.size →
    (∀ q, localPorts.contains q = true ∨ remotePorts.contains q = true → q.isController = true) →
    ∀ sorted : List Nat, sorted.Perm channels → sorted.Pairwise (· ≤ ·) →
      ∃ slots, result = .ok slots ∧ Assigned sorted localPorts remotePorts delay slots ∧
        slots.toList.filterMap (·.channel) = sorted

theorem PortSet.FirstInvalid.eq {s : PortSet} {p q : Port} (hp : s.FirstInvalid p)
    (hq : s.FirstInvalid q) : p = q := by
  apply rank_inj
  have hle := hp.first q hq.mem hq.invalid
  have hge := hq.first p hp.mem hp.invalid
  omega

theorem assignment_assignSlots (delay? : Port → Option Int32)
    (hdisjoint : ∀ p, localPorts.contains p = true → remotePorts.contains p = false)
    : Assignment channels localPorts remotePorts (fun p => (delay? p).getD 0)
        (assignSlots channels localPorts remotePorts delay?) := by
  by_cases hlength : channels.length = localPorts.size
  . have hmerge := assignSlots_cases delay? hlength hdisjoint (List.mergeSort_perm channels _)
      (List.pairwise_mergeSort' (· ≤ ·) channels)
    constructor
    . intro ports count
      rcases hmerge with ⟨p, _, hresult⟩ | ⟨_, p, _, hresult⟩ | ⟨_, slots, hresult, _⟩
      all_goals simp [hresult, hlength]
    . intro q
      rcases hmerge with ⟨p, hp, hresult⟩ | ⟨hlocal, p, hp, hresult⟩ | ⟨hvalid, slots, hresult, _⟩
      . rw [hresult, Except.error.injEq, SlotError.invalidPort.injEq]
        constructor
        . rintro rfl
          exact ⟨hlength, Or.inl hp⟩
        . rintro ⟨_, hq | ⟨hlocal, _⟩⟩
          . exact hp.eq hq
          . simpa [hp.invalid] using hlocal p hp.mem
      . rw [hresult, Except.error.injEq, SlotError.invalidPort.injEq]
        constructor
        . rintro rfl
          exact ⟨hlength, Or.inr ⟨hlocal, hp⟩⟩
        . rintro ⟨_, hq | ⟨_, hq⟩⟩
          . simpa [hq.invalid] using hlocal q hq.mem
          . exact hp.eq hq
      . rw [hresult]
        simp only [reduceCtorEq, false_iff, not_and]
        rintro _ (hq | ⟨_, hq⟩)
        . simpa [hq.invalid] using hvalid q (Or.inl hq.mem)
        . simpa [hq.invalid] using hvalid q (Or.inr hq.mem)
    . intro _ hvalid sorted hperm hsorted
      rcases assignSlots_cases delay? hlength hdisjoint hperm hsorted with
        ⟨p, hp, _⟩ | ⟨_, p, hp, _⟩ | ⟨_, slots, hresult, hassigned⟩
      . simpa [hp.invalid] using hvalid p (Or.inl hp.mem)
      . simpa [hp.invalid] using hvalid p (Or.inr hp.mem)
      . exact ⟨slots, hresult, hassigned, hassigned.channels_eq (hperm.length_eq.trans hlength)⟩
  . rw [assignSlots_of_ne hlength]
    constructor
    . intro ports count
      simp [hlength, eq_comm]
    . intro p
      simp [hlength]
    . exact fun h => absurd h hlength

end Assign

end PadRelay
