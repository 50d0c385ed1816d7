import PadRelay.Console.Basic
import PadRelay.Proofs.Mailroom
import PadRelay.Proofs.SortedMap

/-!
This module contains the theory of what consoles do to their members. Each operation of a console lets
every member undergo something, and what one member undergoes does not depend on the others as long as
no two of them share a mailbox.
-/

namespace PadRelay
namespace Console

open Member (Confined Fate undergo confined_undergo)

/-- No two members hold the same mailbox. -/
def Separate (c : Console) : Prop :=
  ∀ ⦃id id' : ClientId⦄ ⦃m m' : Member⦄ ⦃i : Nat⦄, c.members.get? id = some m →
    c.members.get? id' = some m' → m.mailbox = some i → m'.mailbox = some i → id = id'

/-- Every member is treated by `f`, and no mailbox is touched but those of members. -/
structure Serves (f : ClientId → Member → Mailroom → Member × Mailroom) (c : Console)
    (room : Mailroom) (r : Console × Mailroom) : Prop where
  member : ∀ id, r.1.members.get? id = (c.members.get? id).map fun m => (f id m room).1
  box : ∀ id m i, c.members.get? id = some m → m.mailbox = some i →
    r.2.boxes[i]? = (f id m room).2.boxes[i]?
  other : ∀ j, (∀ id m, c.members.get? id = some m → m.mailbox ≠ some j) →
    r.2.boxes[j]? = room.boxes[j]?
  length : r.2.boxes.length = room.boxes.length

/-- What a run over the members leaves in each entry and in each mailbox. -/
structure ServesEntries (f : ClientId → Member → Mailroom → Member × Mailroom)
    (l : List (ClientId × Member)) (room : Mailroom)
    (r : List (ClientId × Member) × Mailroom) : Prop where
  entries : r.1 = l.map fun e => (e.1, (f e.1 e.2 room).1)
  box : ∀ e ∈ l, ∀ i, e.2.mailbox = some i → r.2.boxes[i]? = (f e.1 e.2 room).2.boxes[i]?
  other : ∀ j, (∀ e ∈ l, e.2.mailbox ≠ some j) → r.2.boxes[j]? = room.boxes[j]?
  length : r.2.boxes.length = room.boxes.length

theorem servesEntries_mapStateEntries {f : ClientId → Member → Mailroom → Member × Mailroom}
    (hf : ∀ id, Confined (f id)) (l : List (ClientId × Member)) (room : Mailroom)
    (hl : l.Pairwise fun a b => ∀ i, a.2.mailbox = some i → b.2.mailbox ≠ some i)
    : ServesEntries f l room (SortedMap.mapStateEntries f l room) := by
  induction l generalizing room with
  | nil => exact ⟨rfl, by simp, fun _ _ => rfl, rfl⟩
  | cons hd tl ih =>
    rcases hd with ⟨id, m⟩
    rw [List.pairwise_cons] at hl
    have ih := ih (f id m room).2 hl.2
    -- The head does not touch the mailboxes of the tail, so the tail may start from `room`.
    have hkeep : ∀ e ∈ tl, ∀ i, e.2.mailbox = some i →
        (f id m room).2.boxes[i]? = room.boxes[i]? := by
      intro e he i hi
      apply (hf id).other
      intro hm
      exact hl.1 e he i hm hi
    have hown := fun e (he : e ∈ tl) => (hf e.1).own e.2 (f id m room).2 room (hkeep e he)
    unfold SortedMap.mapStateEntries
    dsimp
    constructor
    . dsimp
      rw [ih.entries, List.map_cons]
      congr 1
      apply List.map_congr_left
      intro e he
      rw [(hown e he).1]
    . intro e he i hi
      cases List.mem_cons.1 he with
      | inl heq =>
        subst heq
        apply ih.other
        intro e' he' hi'
        exact hl.1 e' he' i hi hi'
      | inr he =>
        rw [ih.box e he i hi]
        exact (hown e he).2 i hi
    . intro j hj
      rw [ih.other j (fun e he => hj e (List.mem_cons_of_mem _ he))]
      apply (hf id).other
      exact hj _ List.mem_cons_self
    . rw [ih.length, (hf id).length]

theorem Separate.pairwise {c : Console} (h : c.Separate)
    : c.members.entries.Pairwise fun a b => ∀ i, a.2.mailbox = some i → b.2.mailbox ≠ some i := by
  apply List.Pairwise.imp_of_mem _ c.members.ascending
  intro a b ha hb hlt i hai hbi
  rw [← SortedMap.get?_eq_some_iff] at ha hb
  have := h ha hb hai hbi
  rw [this] at hlt
  omega

theorem get?_map_entries {f : ClientId → Member → Member} {c : Console}
    {members : SortedMap ClientId Member}
    (h : members.entries = c.members.entries.map fun e => (e.1, f e.1 e.2)) (id : ClientId)
    : members.get? id = (c.members.get? id).map (f id) := by
  have : members = c.members.map f := SortedMap.ext h
  rw [this, SortedMap.get?_map]

theorem serves_updateMembers {f : ClientId → Member → Mailroom → Member × Mailroom}
    (hf : ∀ id, Confined (f id)) {c : Console} (h : c.Separate) (room : Mailroom)
    : c.Serves f room (c.updateMembers f room) := by
  have hs := servesEntries_mapStateEntries hf c.members.entries room h.pairwise
  constructor
  . intro id
    apply get?_map_entries (f := fun id m => (f id m room).1)
    exact hs.entries
  . intro id m i hm hi
    rw [SortedMap.get?_eq_some_iff] at hm
    exact hs.box _ hm i hi
  . intro j hj
    apply hs.other
    intro e he
    apply hj e.1
    rw [SortedMap.get?_eq_some_iff]
    exact he
  . exact hs.length

theorem Serves.congr {f g : ClientId → Member → Mailroom → Member × Mailroom} {c : Console}
    {room : Mailroom} {r : Console × Mailroom} (h : c.Serves f room r)
    (hfg : ∀ id m, c.members.get? id = some m → f id m room = g id m room)
    : c.Serves g room r where
  member id := by
    rw [h.member]
    cases hm : c.members.get? id with
    | none => rfl
    | some m => simp [hfg id m hm]
  box id m i hm hi := by
    rw [h.box id m i hm hi, hfg id m hm]
  other := h.other
  length := h.length

theorem Serves.of_members {f : ClientId → Member → Mailroom → Member × Mailroom} {c : Console}
    {room : Mailroom} {r r' : Console × Mailroom} (h : c.Serves f room r)
    (hmembers : r'.1.members = r.1.members) (hroom : r'.2 = r.2) : c.Serves f room r' where
  member := by
    rw [hmembers]
    exact h.member
  box := by
    rw [hroom]
    exact h.box
  other := by
    rw [hroom]
    exact h.other
  length := by
    rw [hroom]
    exact h.length

theorem Serves.separate {f : ClientId → Member → Mailroom → Member × Mailroom}
    (hf : ∀ id, Confined (f id)) {c : Console} {room : Mailroom} {r : Console × Mailroom}
    (h : c.Serves f room r) (hc : c.Separate) : r.1.Separate := by
  -- A member holds at most the mailbox that it held before.
  have hback : ∀ {id m' i}, r.1.members.get? id = some m' → m'.mailbox = some i →
      ∃ m, c.members.get? id = some m ∧ m.mailbox = some i := by
    intro id m' i hm' hi
    rw [h.member, Option.map_eq_some_iff] at hm'
    rcases hm' with ⟨m, hm, rfl⟩
    refine ⟨m, hm, ?_⟩
    cases (hf id).mailbox m room with
    | inl heq => rwa [← heq]
    | inr heq => simp [heq] at hi
  intro id id' m m' i hm hm' hi hi'
  rcases hback hm hi with ⟨n, hn, hni⟩
  rcases hback hm' hi' with ⟨n', hn', hni'⟩
  exact hc hn hn' hni hni'

theorem serves_updateMember {f : Member → Mailroom → Member × Mailroom} (hf : Confined f)
    {c : Console} (h : c.Separate) (id : ClientId) (room : Mailroom)
    : c.Serves (fun id' m room => if id' = id then f m room else (m, room)) room
        (c.updateMember id f room) := by
  unfold updateMember
  split
  . next hnone =>
    refine ⟨?_, ?_, fun _ _ => rfl, rfl⟩
    . intro id'
      cases hm : c.members.get? id' with
      | none => rfl
      | some m =>
        have : id' ≠ id := by
          intro heq
          rw [heq, hnone] at hm
          simp at hm
        simp [this]
    . intro id' m i hm _
      have : id' ≠ id := by
        intro heq
        rw [heq, hnone] at hm
        simp at hm
      simp [this]
  . next m hsome =>
    refine ⟨?_, ?_, ?_, ?_⟩
    . intro id'
      dsimp
      rw [SortedMap.get?_insert]
      split
      . next heq => simp [heq, hsome]
      . next hne =>
        cases c.members.get? id' with
        | none => rfl
        | some m' => simp
    . intro id' m' i hm' hi
      dsimp
      split
      . next heq =>
        rw [heq, hsome, Option.some.injEq] at hm'
        rw [hm']
      . next hne =>
        apply hf.other
        intro hi'
        exact hne (h hm' hsome hi hi')
    . intro j hj
      apply hf.other
      exact hj id m hsome
    . apply hf.length

end Console
end PadRelay
