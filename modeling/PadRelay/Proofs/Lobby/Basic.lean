import PadRelay.Proofs.Ids
import PadRelay.Proofs.Server.Register

/-!
This module contains the theory of opening consoles and of taking those off the list that are over: what
is on the list afterwards, and that consoles are numbered in the order in which they were opened.
-/

namespace PadRelay
namespace Lobby

/-- The consoles on the list that are not over. -/
def unfinished (l : Lobby) : List Console :=
  l.listed.filter fun c => c.status ≠ .done

/-- The identifiers of all consoles, and whether they are still on the list. -/
def register (l : Lobby) : List (ConsoleId × Bool) :=
  l.consoles.map fun e => (e.console.id, e.listed)

theorem size_eq (l : Lobby) : l.size = (l.register.filter (·.2)).length := by
  simp [size, listed, register, List.filter_map, Function.comp_def]

theorem find?_eq_none_iff {l : Lobby} {id : ConsoleId}
    : l.find? id = none ↔ (id, true) ∉ l.register := by
  unfold find? register
  rw [List.findIdx?_eq_none_iff]
  constructor
  . intro h hmem
    rw [List.mem_map] at hmem
    rcases hmem with ⟨e, he, heq⟩
    rw [Prod.mk.injEq] at heq
    have := h e he
    simp [heq.1, heq.2] at this
  . intro h e he
    rw [Bool.and_eq_false_iff]
    cases hlisted : e.listed with
    | false => exact Or.inl rfl
    | true =>
      right
      rw [decide_eq_false_iff_not]
      intro hid
      apply h
      rw [List.mem_map]
      exact ⟨e, he, by rw [hid, hlisted]⟩

theorem mem_listed_iff {l : Lobby} {c : Console}
    : c ∈ l.listed ↔ ∃ k, l.console? k = some c ∧ l.isListed k = true := by
  unfold listed console? isListed
  rw [List.mem_map]
  constructor
  . rintro ⟨e, he, rfl⟩
    rw [List.mem_filter] at he
    rcases List.mem_iff_getElem?.1 he.1 with ⟨k, hk⟩
    exact ⟨k, by simp [hk], by simpa [hk] using he.2⟩
  . rintro ⟨k, hc, hlisted⟩
    rw [Option.map_eq_some_iff] at hc
    rcases hc with ⟨e, he, rfl⟩
    rw [he, Option.any_some] at hlisted
    exact ⟨e, List.mem_filter.2 ⟨List.mem_of_getElem? he, hlisted⟩, rfl⟩

theorem listed_map_delistIf (entries : List LobbyEntry) (p : Console → Bool)
    : ((entries.map (·.delistIf p)).filter (·.listed)).map (·.console)
        =
      ((entries.filter (·.listed)).map (·.console)).filter fun c => !p c := by
  induction entries with
  | nil => rfl
  | cons e rest ih =>
    rw [List.map_cons, List.filter_cons, List.filter_cons, listed_delistIf]
    cases e.listed with
    | false => simpa using ih
    | true =>
      rw [Bool.true_and]
      cases hp : p e.console with
      | false => simp [ih, hp]
      | true => simp [ih, hp]

theorem register_map_delistIf {entries : List LobbyEntry} {p : Console → Bool} {id : ConsoleId}
    (h : (id, true) ∈ (entries.map (·.delistIf p)).map fun e => (e.console.id, e.listed))
    : (id, true) ∈ entries.map fun e => (e.console.id, e.listed) := by
  rw [List.map_map, List.mem_map] at h
  rcases h with ⟨e, he, heq⟩
  simp only [Function.comp_apply, console_delistIf, listed_delistIf, Prod.mk.injEq,
    Bool.and_eq_true] at heq
  exact List.mem_map.2 ⟨e, he, by rw [heq.1, heq.2.1]⟩

theorem register_removeFinished {l : Lobby} {id : ConsoleId}
    (h : (id, true) ∈ l.removeFinished.register) : (id, true) ∈ l.register :=
  register_map_delistIf h

/-- Those consoles that are over left the list, and nothing else happened. -/
structure Prunes (l l' : Lobby) : Prop where
  listed : l'.listed = l.unfinished
  console? : ∀ k, l'.console? k = l.console? k
  consoleIds : l'.consoleIds = l.consoleIds
  clientIds : l'.clientIds = l.clientIds

theorem prunes_removeFinished (l : Lobby) : l.Prunes l.removeFinished where
  listed := by
    unfold removeFinished listed
    dsimp
    rw [listed_map_delistIf]
    simp [unfinished, listed]
  console? := console?_removeFinished l
  consoleIds := rfl
  clientIds := rfl

/-- A new console came on the list, from which those left that are over. -/
structure Opens (l l' : Lobby) (c : Console) : Prop where
  listed : l'.listed = l.unfinished ++ [c]
  console? : ∀ k, l'.console? k = if k = l.consoles.length then some c else l.console? k
  find? : l'.find? c.id = some l.consoles.length

/-- Consoles are numbered in the order of opening. -/
structure Numbered (l : Lobby) : Prop where
  next : l.consoleIds.next = IdSource.nth l.consoles.length
  ids : ∀ k c, l.console? k = some c → c.id = ⟨IdSource.nth k⟩

/-- A lobby in which no console was opened yet. -/
def empty (limit : Option Nat) : Lobby :=
  { limit := limit }

theorem numbered_empty (limit : Option Nat) : (empty limit).Numbered where
  next := rfl
  ids k c hc := by simp [empty, console?] at hc

theorem Numbered.ne_of_few {l : Lobby} (hn : l.Numbered) (hfew : l.consoles.length < 0x7fffffffffffffff)
    {k : Nat} {c : Console} (hc : l.console? k = some c) : c.id ≠ ⟨l.consoleIds.next⟩ := by
  have hlt := lt_length_of_console? hc
  rw [hn.ids k c hc, hn.next]
  intro heq
  rw [ConsoleId.mk.injEq] at heq
  have := IdSource.nth_inj (by omega) (by omega) heq
  omega

/-- So many consoles were opened, which are numbered in the order of opening. -/
def Counts (l : Lobby) (n : Nat) : Prop :=
  l.Numbered ∧ l.consoles.length = n

/-- No console was opened, and the consoles kept their identifiers. -/
structure SameNumbers (l l' : Lobby) : Prop where
  ids : (l'.consoles.map fun e => e.console.id) = l.consoles.map fun e => e.console.id
  consoleIds : l'.consoleIds = l.consoleIds

/-- The list is the same as well, whatever became of the consoles on it. -/
structure SameRegister (l l' : Lobby) : Prop where
  register : l'.register = l.register
  consoleIds : l'.consoleIds = l.consoleIds
  limit : l'.limit = l.limit

section Same

variable {l l' : Lobby}

theorem SameNumbers.refl (l : Lobby) : l.SameNumbers l := ⟨rfl, rfl⟩

theorem SameNumbers.trans {l'' : Lobby} (h : l.SameNumbers l') (h' : l'.SameNumbers l'')
    : l.SameNumbers l'' :=
  ⟨h'.ids.trans h.ids, h'.consoleIds.trans h.consoleIds⟩

theorem SameNumbers.length_eq (h : l.SameNumbers l')
    : l'.consoles.length = l.consoles.length := by
  rw [← List.length_map fun e : LobbyEntry => e.console.id, h.ids, List.length_map]

theorem SameNumbers.numbered (h : l.SameNumbers l') (hn : l.Numbered) : l'.Numbered where
  next := by
    rw [h.consoleIds, h.length_eq]
    exact hn.next
  ids k c hc := by
    rcases console?_eq_some_iff.1 hc with ⟨e, he, rfl⟩
    have hid : (l'.consoles.map fun e => e.console.id)[k]? = some e.console.id := by simp [he]
    rw [h.ids, List.getElem?_map, Option.map_eq_some_iff] at hid
    rcases hid with ⟨e₀, he₀, heq⟩
    rw [← heq]
    exact hn.ids k _ (console?_eq_some_iff.2 ⟨e₀, he₀, rfl⟩)

theorem SameNumbers.counts {n : Nat} (h : l.SameNumbers l') (hn : l.Counts n) : l'.Counts n :=
  ⟨h.numbered hn.1, h.length_eq.trans hn.2⟩

theorem sameNumbers_removeFinished (l : Lobby) : l.SameNumbers l.removeFinished where
  ids := by simp [removeFinished, Function.comp_def]
  consoleIds := rfl

theorem SameRegister.refl (l : Lobby) : l.SameRegister l := ⟨rfl, rfl, rfl⟩

theorem SameRegister.sameNumbers (h : l.SameRegister l') : l.SameNumbers l' where
  ids := by
    have hregister := congrArg (List.map (·.1)) h.register
    unfold Lobby.register at hregister
    rwa [List.map_map, List.map_map] at hregister
  consoleIds := h.consoleIds

theorem sameRegister_set {k : Nat} {c c' : Console} (hc : l.console? k = some c)
    (hid : c'.id = c.id) : l.SameRegister (l.set k c') where
  register := by
    rcases console?_eq_some_iff.1 hc with ⟨e, he, rfl⟩
    unfold register
    apply List.ext_getElem?
    intro j
    rw [consoles_set, List.getElem?_map, List.getElem?_map, List.getElem?_modify]
    split
    . next heq =>
      subst heq
      simp [he, hid]
    . simp
  consoleIds := rfl
  limit := rfl

theorem sameRegister_plug {k : Nat} {c : Console} {delay : Int32} {requested : List Port}
    {romHash : String} {p : Plugged} (hc : l.console? k = some c)
    (h : l.plug k c delay requested romHash = .ok (p, l')) : l.SameRegister l' := by
  unfold plug at h
  split at h
  . simp at h
  . next p' hp =>
    rw [Except.ok.injEq, Prod.mk.injEq] at h
    rcases h with ⟨rfl, rfl⟩
    have hid : p'.console.id = c.id := by
      rcases Console.plug_eq_ok hp with ⟨_, _, _, _, _, rfl⟩
      rfl
    have hset := sameRegister_set hc hid
    exact ⟨hset.register, hset.consoleIds, hset.limit⟩

end Same

section Create

variable {l : Lobby} {title romName romHash : String}

/-- The lobby after a console with a number of its own was opened. -/
def opened (l : Lobby) (title romName romHash : String) : Lobby :=
  { l.removeFinished with
    consoles := l.removeFinished.consoles.map (·.delistIf fun c => c.id = ⟨l.consoleIds.next⟩) ++
      [{ console := { id := ⟨l.consoleIds.next⟩, title, romName, romHash } }]
    consoleIds := ⟨l.consoleIds.next + 1⟩ }

theorem create_cases (l : Lobby) (title romName romHash : String)
    : ((∃ n, l.limit = some n ∧ n ≤ l.unfinished.length) ∧
        l.create title romName romHash = (none, l.removeFinished)) ∨
      ((∀ n, l.limit = some n → l.unfinished.length < n) ∧
        l.create title romName romHash
          =
        (some ⟨l.consoleIds.next⟩, l.opened title romName romHash)) := by
  have hsize : l.removeFinished.size = l.unfinished.length := by
    unfold size
    rw [(prunes_removeFinished l).listed]
  have hlimit : l.removeFinished.limit = l.limit := rfl
  unfold create
  dsimp
  rw [hsize, hlimit]
  split
  . next hfull =>
    rw [Option.any_eq_true] at hfull
    rcases hfull with ⟨n, hn, hle⟩
    exact Or.inl ⟨⟨n, hn, of_decide_eq_true hle⟩, rfl⟩
  . next hroom =>
    refine Or.inr ⟨?_, rfl⟩
    intro n hn
    rw [hn, Option.any_some, decide_eq_true_eq] at hroom
    omega

theorem length_opened (l : Lobby) (title romName romHash : String)
    : (l.opened title romName romHash).consoles.length = l.consoles.length + 1 := by
  simp [opened, removeFinished]

theorem console?_opened (l : Lobby) (title romName romHash : String) (k : Nat)
    : (l.opened title romName romHash).console? k
        =
      if k = l.consoles.length then some { id := ⟨l.consoleIds.next⟩, title, romName, romHash }
      else l.console? k := by
  unfold opened removeFinished console?
  dsimp
  rw [List.getElem?_append, List.length_map, List.length_map]
  split
  . next hlt =>
    rw [if_neg (by omega)]
    simp [Function.comp_def]
  . next hge =>
    split
    . next heq => simp [heq]
    . next hne =>
      rw [List.getElem?_eq_none (by simp; omega), List.getElem?_eq_none (by omega)]

theorem listed_opened (hn : l.Numbered) (hfew : l.consoles.length < 0x7fffffffffffffff)
    (title romName romHash : String)
    : (l.opened title romName romHash).listed
        =
      l.unfinished ++ [{ id := ⟨l.consoleIds.next⟩, title, romName, romHash }] := by
  have hlisted := (prunes_removeFinished l).listed
  unfold listed at hlisted
  unfold opened listed
  dsimp
  rw [List.filter_append, List.map_append, listed_map_delistIf, hlisted, List.filter_eq_self.2]
  . rfl
  . intro c hc
    unfold unfinished at hc
    rcases mem_listed_iff.1 (List.mem_filter.1 hc).1 with ⟨k, hk, _⟩
    simpa using hn.ne_of_few hfew hk

theorem size_opened_le (l : Lobby) (title romName romHash : String)
    : (l.opened title romName romHash).size ≤ l.unfinished.length + 1 := by
  have hlisted := (prunes_removeFinished l).listed
  unfold listed at hlisted
  unfold opened size listed
  dsimp
  rw [List.filter_append, List.map_append, listed_map_delistIf, hlisted, List.length_append]
  apply Nat.add_le_add_right
  apply List.length_filter_le

theorem numbered_opened (hn : l.Numbered) (title romName romHash : String)
    : (l.opened title romName romHash).Numbered where
  next := by
    rw [length_opened, IdSource.nth_add_one, ← hn.next]
    rfl
  ids k c hc := by
    rw [console?_opened] at hc
    split at hc
    . next heq =>
      rw [Option.some.injEq] at hc
      rw [← hc, heq, hn.next]
    . exact hn.ids k c hc

theorem counts_opened {n : Nat} (hn : l.Counts n) (title romName romHash : String)
    : (l.opened title romName romHash).Counts (n + 1) := by
  refine ⟨numbered_opened hn.1 title romName romHash, ?_⟩
  rw [length_opened, hn.2]

theorem opens_opened (hn : l.Numbered) (hfew : l.consoles.length < 0x7fffffffffffffff)
    (title romName romHash : String)
    : l.Opens (l.opened title romName romHash)
        { id := ⟨l.consoleIds.next⟩, title, romName, romHash } where
  listed := listed_opened hn hfew title romName romHash
  console? := console?_opened l title romName romHash
  find? := by
    unfold opened find?
    dsimp
    -- Whatever had the new identifier before is not on the list any more.
    rw [List.findIdx?_append, List.findIdx?_eq_none_iff.2]
    . simp [removeFinished]
    . intro e he
      rw [List.mem_map] at he
      rcases he with ⟨e', _, rfl⟩
      rw [listed_delistIf, console_delistIf]
      cases e'.listed <;> simp

theorem register_opened {id : ConsoleId}
    (h : (id, true) ∈ (l.opened title romName romHash).register)
    : id = ⟨l.consoleIds.next⟩ ∨ (id, true) ∈ l.register := by
  unfold opened register at h
  dsimp at h
  rw [List.map_append, List.mem_append] at h
  cases h with
  | inl h => exact Or.inr (register_removeFinished (register_map_delistIf h))
  | inr h => exact Or.inl (by simpa using h)

end Create

end Lobby
end PadRelay
