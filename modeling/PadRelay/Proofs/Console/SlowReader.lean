import Mathlib.Data.List.Forall2
import PadRelay.Proofs.Console.Treatment

/-!
This module contains the proof that a member that does not collect its events disturbs nobody else. Two
runs of a console with the same calls may differ in what becomes of some mailboxes. Then they differ in
the members that hold these mailboxes, and in nothing else.
-/

namespace PadRelay
namespace Member

theorem firstRefusal?_of_ports {m m' : Member} (h : m'.ports = m.ports) (id : ConsoleId)
    (keys : List KeyState) : m'.firstRefusal? id keys = m.firstRefusal? id keys := by
  induction keys with
  | nil => rfl
  | cons key rest ih => simp [firstRefusal?, owns, h, ih]

end Member

namespace Console

open Member (Confined confined_post confined_leave)

/-- What happens to a console and to the mailboxes of its members while a game is on. -/
inductive Incident where
  | handle (id : ClientId) (e : OutgoingEvent)
  | broadcast (keys : List KeyState) (sender : ClientId)
  | streamClosed (id : ClientId)
  /-- The oldest `n` events of a mailbox are collected. -/
  | take (box n : Nat)
  /-- A mailbox loses its reader. -/
  | stopListening (box : Nat)
deriving DecidableEq

namespace Incident

/-- Whether this is something that the reader of one of the mailboxes in `slow` does. -/
def isReading (slow : Nat → Bool) : Incident → Bool
  | take box _ | stopListening box => slow box
  | _ => false

def apply (s : Console × Mailroom) : Incident → Console × Mailroom
  | handle id e => s.1.handle id e s.2
  | broadcast keys sender => s.1.broadcastKeys keys sender s.2
  | streamClosed id => s.1.streamClosed id s.2
  | take box n => (s.1, (s.2.take box n).2)
  | stopListening box => (s.1, s.2.closeReader box)

def applyAll (s : Console × Mailroom) (incidents : List Incident) : Console × Mailroom :=
  incidents.foldl apply s

/-- What the reader of mailbox `j` gets. -/
def delivers (j : Nat) (s : Console × Mailroom) : Incident → List IncomingEvent
  | take box n => if box = j then (s.2.take box n).1 else []
  | _ => []

def delivered (j : Nat) (s : Console × Mailroom) : List Incident → List IncomingEvent
  | [] => []
  | x :: rest => x.delivers j s ++ delivered j (x.apply s) rest

end Incident

section Agreement

variable {slow : Nat → Bool} {held : ClientId → Bool}

/--
Member `id` in two runs that differ in the mailboxes in `slow`. Those who held one of them may have lost
it in one of the runs only, all others are the same.
-/
structure Like (slow : Nat → Bool) (held : ClientId → Bool) (id : ClientId) (m m' : Member) :
    Prop where
  ports : m'.ports = m.ports
  kept : ∀ j, m.mailbox = some j → slow j = held id
  kept' : ∀ j, m'.mailbox = some j → slow j = held id
  same : held id = false → m' = m

/-- The mailboxes that are not in `slow` are the same. -/
def SameBoxes (slow : Nat → Bool) (room room' : Mailroom) : Prop :=
  ∀ j, slow j = false → room'.boxes[j]? = room.boxes[j]?

def LikeEntries (slow : Nat → Bool) (held : ClientId → Bool)
    (l l' : List (ClientId × Member)) : Prop :=
  List.Forall₂ (fun e e' => e'.1 = e.1 ∧ Like slow held e.1 e.2 e'.2) l l'

/-- Two runs are told apart by nothing but mailboxes in `slow` and the members that held them. -/
structure Agree (slow : Nat → Bool) (held : ClientId → Bool) (s s' : Console × Mailroom) :
    Prop where
  id : s'.1.id = s.1.id
  members : LikeEntries slow held s.1.members.entries s'.1.members.entries
  boxes : SameBoxes slow s.2 s'.2

/-- A change of members that keeps two runs in agreement. -/
def Blind (slow : Nat → Bool) (held : ClientId → Bool)
    (f : ClientId → Member → Mailroom → Member × Mailroom) : Prop :=
  ∀ {id m m' room room'}, Like slow held id m m' → SameBoxes slow room room' →
    Like slow held id (f id m room).1 (f id m' room').1 ∧
      SameBoxes slow (f id m room).2 (f id m' room').2

theorem blind_of_confined {f : ClientId → Member → Mailroom → Member × Mailroom}
    (hf : ∀ id, Confined (f id)) (hports : ∀ id m room, (f id m room).1.ports = m.ports)
    : Blind slow held f := by
  intro id m m' room room' hlike hboxes
  have hkept : ∀ {m : Member} {room : Mailroom} {j : Nat},
      (∀ j, m.mailbox = some j → slow j = held id) → (f id m room).1.mailbox = some j →
        slow j = held id := by
    intro m room j hm hj
    rcases (hf id).mailbox m room with heq | heq
    . exact hm j (heq ▸ hj)
    . simp [heq] at hj
  cases hid : held id with
  | true =>
    -- Neither of the two touches a mailbox that is not in `slow`.
    have hother : ∀ {m : Member} {room : Mailroom} {j : Nat},
        (∀ j, m.mailbox = some j → slow j = held id) → slow j = false →
          (f id m room).2.boxes[j]? = room.boxes[j]? := by
      intro m room j hm hj
      apply (hf id).other
      intro heq
      rw [hm j heq, hid] at hj
      simp at hj
    constructor
    . exact ⟨by rw [hports, hports, hlike.ports], fun _ => hkept hlike.kept,
        fun _ => hkept hlike.kept', by simp [hid]⟩
    . intro j hj
      rw [hother hlike.kept' hj, hother hlike.kept hj]
      exact hboxes j hj
  | false =>
    have heq := (hlike.same hid).symm
    subst heq
    have hown := (hf id).own m room room' fun j hj =>
      (hboxes j (by rw [hlike.kept j hj, hid])).symm
    constructor
    . rw [← hown.1]
      exact ⟨rfl, fun _ => hkept hlike.kept, fun _ => hkept hlike.kept, fun _ => rfl⟩
    . intro j hj
      by_cases hheld : m.mailbox = some j
      . exact (hown.2 j hheld).symm
      . rw [(hf id).other _ _ _ hheld, (hf id).other _ _ _ hheld]
        exact hboxes j hj

theorem LikeEntries.mapState {f : ClientId → Member → Mailroom → Member × Mailroom}
    (hf : Blind slow held f) {l l' : List (ClientId × Member)} (h : LikeEntries slow held l l')
    {room room' : Mailroom} (hboxes : SameBoxes slow room room')
    : LikeEntries slow held (SortedMap.mapStateEntries f l room).1
        (SortedMap.mapStateEntries f l' room').1 ∧
      SameBoxes slow (SortedMap.mapStateEntries f l room).2
        (SortedMap.mapStateEntries f l' room').2 := by
  induction h generalizing room room' with
  | nil => exact ⟨.nil, hboxes⟩
  | @cons e e' l l' hhead _ ih =>
    rcases e with ⟨id, m⟩
    rcases e' with ⟨id', m'⟩
    rcases hhead with ⟨rfl, hlike⟩
    have hstep := hf hlike hboxes
    have hrest := ih hstep.2
    exact ⟨.cons ⟨rfl, hstep.1⟩ hrest.1, hrest.2⟩

theorem LikeEntries.place {id : ClientId} {m m' : Member} (hlike : Like slow held id m m')
    {l l' : List (ClientId × Member)} (h : LikeEntries slow held l l')
    : LikeEntries slow held (SortedMap.place id m l) (SortedMap.place id m' l') := by
  induction h with
  | nil => exact .cons ⟨rfl, hlike⟩ .nil
  | @cons e e' l l' hhead htail ih =>
    rcases e with ⟨id₁, m₁⟩
    rcases e' with ⟨id₂, m₂⟩
    rcases hhead with ⟨rfl, hlike₁⟩
    unfold SortedMap.place
    split
    . exact .cons ⟨rfl, hlike⟩ (.cons ⟨rfl, hlike₁⟩ htail)
    . split
      . exact .cons ⟨rfl, hlike⟩ htail
      . exact .cons ⟨rfl, hlike₁⟩ ih

theorem LikeEntries.find {l l' : List (ClientId × Member)} (h : LikeEntries slow held l l')
    (id : ClientId)
    : (SortedMap.find id l = none ∧ SortedMap.find id l' = none) ∨
        ∃ m m', SortedMap.find id l = some m ∧ SortedMap.find id l' = some m' ∧
          Like slow held id m m' := by
  induction h with
  | nil => exact Or.inl ⟨rfl, rfl⟩
  | @cons e e' l l' hhead _ ih =>
    rcases e with ⟨id₁, m₁⟩
    rcases e' with ⟨id₂, m₂⟩
    rcases hhead with ⟨rfl, hlike⟩
    unfold SortedMap.find
    dsimp at hlike ⊢
    split
    . next heq =>
      rw [rank_inj heq]
      exact Or.inr ⟨m₁, m₂, rfl, rfl, hlike⟩
    . exact ih

namespace Agree

variable {s s' : Console × Mailroom}

theorem get? (h : Agree slow held s s') (id : ClientId)
    : (s.1.members.get? id = none ∧ s'.1.members.get? id = none) ∨
        ∃ m m', s.1.members.get? id = some m ∧ s'.1.members.get? id = some m' ∧
          Like slow held id m m' :=
  h.members.find id

theorem insert (h : Agree slow held s s') {id : ClientId} {m m' : Member}
    (hlike : Like slow held id m m') {room room' : Mailroom} (hboxes : SameBoxes slow room room')
    : Agree slow held ({ s.1 with members := s.1.members.insert id m }, room)
        ({ s'.1 with members := s'.1.members.insert id m' }, room') :=
  ⟨h.id, h.members.place hlike, hboxes⟩

theorem updateMember (h : Agree slow held s s') {f : Member → Mailroom → Member × Mailroom}
    (hf : Blind slow held fun _ => f) (id : ClientId)
    : Agree slow held (s.1.updateMember id f s.2) (s'.1.updateMember id f s'.2) := by
  unfold Console.updateMember
  rcases h.get? id with ⟨hnone, hnone'⟩ | ⟨m, m', hm, hm', hlike⟩
  . simp only [hnone, hnone']
    exact h
  . simp only [hm, hm']
    have hstep := hf hlike h.boxes
    exact h.insert hstep.1 hstep.2

theorem updateMembers (h : Agree slow held s s')
    {f : ClientId → Member → Mailroom → Member × Mailroom} (hf : Blind slow held f)
    : Agree slow held (s.1.updateMembers f s.2) (s'.1.updateMembers f s'.2) := by
  have hmap := h.members.mapState hf h.boxes
  exact ⟨h.id, hmap.1, hmap.2⟩

theorem broadcastKeys (h : Agree slow held s s') (keys : List KeyState) (sender : ClientId)
    : Agree slow held (s.1.broadcastKeys keys sender s.2) (s'.1.broadcastKeys keys sender s'.2) := by
  apply h.updateMembers
  apply blind_of_confined
  . intro id
    split
    . exact Confined.of_pure fun _ => rfl
    . apply confined_post
  . intro id m room
    split <;> simp

theorem handle (h : Agree slow held s s') (id : ClientId) (e : OutgoingEvent)
    : Agree slow held (s.1.handle id e s.2) (s'.1.handle id e s'.2) := by
  unfold Console.handle
  rcases h.get? id with ⟨hnone, hnone'⟩ | ⟨m, m', hm, hm', hlike⟩
  . simp only [hnone, hnone']
    exact h
  . simp only [hm, hm']
    have hready : Like slow held id (if e.ready.isSome then m.markReady else m)
        (if e.ready.isSome then m'.markReady else m') := by
      split
      . exact ⟨by simp [hlike.ports], by simpa using hlike.kept, by simpa using hlike.kept',
          fun hid => by rw [hlike.same hid]⟩
      . exact hlike
    have hinsert := h.insert hready h.boxes
    split
    . exact hinsert
    . -- Its ports decide whether the keys of the sender are in order, and they are the same.
      have hrefusal :
          (if e.ready.isSome then m'.markReady else m').firstRefusal? s'.1.id e.keys
            =
          (if e.ready.isSome then m.markReady else m).firstRefusal? s.1.id e.keys := by
        rw [Member.firstRefusal?_of_ports hready.ports, h.id]
      rw [hrefusal]
      split
      . exact hinsert.updateMember
          (blind_of_confined (fun _ => confined_post _) (fun _ => by simp)) id
      . exact hinsert.broadcastKeys e.keys id

theorem streamClosed (h : Agree slow held s s') (id : ClientId)
    : Agree slow held (s.1.streamClosed id s.2) (s'.1.streamClosed id s'.2) := by
  have hleave := h.updateMember (blind_of_confined (fun _ => confined_leave) (fun _ => by simp)) id
  unfold Console.streamClosed
  dsimp
  -- Whether the game is over may differ, but nobody is told.
  split <;> split <;> exact ⟨hleave.id, hleave.members, hleave.boxes⟩

theorem take (h : Agree slow held s s') (box n : Nat)
    : Agree slow held (s.1, (s.2.take box n).2) (s'.1, (s'.2.take box n).2) := by
  refine ⟨h.id, h.members, ?_⟩
  intro j hj
  dsimp
  rw [Mailroom.getElem?_take, Mailroom.getElem?_take, h.boxes j hj]

theorem stopListening (h : Agree slow held s s') (box : Nat)
    : Agree slow held (s.1, s.2.closeReader box) (s'.1, s'.2.closeReader box) := by
  refine ⟨h.id, h.members, ?_⟩
  intro j hj
  dsimp
  rw [Mailroom.getElem?_closeReader, Mailroom.getElem?_closeReader, h.boxes j hj]

theorem apply (h : Agree slow held s s') (x : Incident)
    : Agree slow held (x.apply s) (x.apply s') := by
  cases x with
  | handle id e => exact h.handle id e
  | broadcast keys sender => exact h.broadcastKeys keys sender
  | streamClosed id => exact h.streamClosed id
  | take box n => exact h.take box n
  | stopListening box => exact h.stopListening box

/-- What the reader of a slow mailbox does in one run only is not noticed. -/
theorem apply_left (h : Agree slow held s s') {x : Incident} (hx : x.isReading slow = true)
    : Agree slow held (x.apply s) s' := by
  cases x with
  | take box n =>
    refine ⟨h.id, h.members, ?_⟩
    intro j hj
    have hne : box ≠ j := by
      rintro rfl
      simp [Incident.isReading, hj] at hx
    rw [h.boxes j hj]
    simp [Incident.apply, Mailroom.getElem?_take, hne]
  | stopListening box =>
    refine ⟨h.id, h.members, ?_⟩
    intro j hj
    have hne : box ≠ j := by
      rintro rfl
      simp [Incident.isReading, hj] at hx
    rw [h.boxes j hj]
    simp [Incident.apply, hne]
  | _ => simp [Incident.isReading] at hx

theorem delivers (h : Agree slow held s s') {j : Nat} (hj : slow j = false) (x : Incident)
    : x.delivers j s' = x.delivers j s := by
  cases x with
  | take box n =>
    by_cases heq : box = j
    . subst heq
      simp only [Incident.delivers, ↓reduceIte, Mailroom.take, h.boxes box hj]
      cases s.2.boxes[box]? <;> rfl
    . simp [Incident.delivers, heq]
  | _ => rfl

theorem delivers_left {j : Nat} (hj : slow j = false) {x : Incident}
    (hx : x.isReading slow = true) (s : Console × Mailroom) : x.delivers j s = [] := by
  cases x with
  | take box n =>
    have hne : box ≠ j := by
      rintro rfl
      simp [Incident.isReading, hj] at hx
    simp [Incident.delivers, hne]
  | _ => rfl

/-- A run agrees with the run in which nobody reads the slow mailboxes. -/
theorem applyAll_filter (h : Agree slow held s s') (xs : List Incident)
    : Agree slow held (Incident.applyAll s xs)
        (Incident.applyAll s' (xs.filter fun x => !x.isReading slow)) ∧
      ∀ j, slow j = false → Incident.delivered j s' (xs.filter fun x => !x.isReading slow)
        = Incident.delivered j s xs := by
  induction xs generalizing s s' with
  | nil => exact ⟨h, fun _ _ => rfl⟩
  | cons x xs ih =>
    cases hx : x.isReading slow with
    | true =>
      rw [List.filter_cons_of_neg (by simp [hx])]
      have hrest := ih (h.apply_left hx)
      refine ⟨hrest.1, ?_⟩
      intro j hj
      rw [hrest.2 j hj]
      simp [Incident.delivered, delivers_left hj hx]
    | false =>
      rw [List.filter_cons_of_pos (by simp [hx])]
      have hrest := ih (h.apply x)
      refine ⟨hrest.1, ?_⟩
      intro j hj
      unfold Incident.delivered
      rw [h.delivers hj, hrest.2 j hj]

end Agree

/-- Whether a member holds one of the mailboxes in `slow`. -/
def holdsAny (c : Console) (slow : Nat → Bool) (id : ClientId) : Bool :=
  (c.members.get? id).any fun m => m.mailbox.any slow

theorem agree_start (c : Console) {room room' : Mailroom} (hboxes : SameBoxes slow room room')
    : Agree slow (c.holdsAny slow) (c, room) (c, room') := by
  refine ⟨rfl, List.forall₂_same.2 ?_, hboxes⟩
  rintro ⟨id, m⟩ hmem
  have hm : c.members.get? id = some m := SortedMap.get?_eq_some_iff.2 hmem
  have hkept : ∀ j, m.mailbox = some j → slow j = c.holdsAny slow id := by
    intro j hj
    simp [holdsAny, hm, hj]
  exact ⟨rfl, rfl, hkept, hkept, fun _ => rfl⟩

end Agreement

/--
Two runs of a console have the same calls, and what is done to its mailboxes differs at most for those in
`slow`, which need not have the same capacity either. Then a member that holds none of these comes out the
same, and every other mailbox has delivered the same events and has the same events left.
-/
theorem slow_reader_unnoticed (slow : Nat → Bool) (c : Console) {room room' : Mailroom}
    (hroom : ∀ j, slow j = false → room'.boxes[j]? = room.boxes[j]?) {xs xs' : List Incident}
    (hxs : xs'.filter (fun x => !x.isReading slow) = xs.filter fun x => !x.isReading slow)
    {id : ClientId} {m : Member} (hm : c.members.get? id = some m)
    (hbox : ∀ j, m.mailbox = some j → slow j = false)
    : (Incident.applyAll (c, room') xs').1.members.get? id
          =
        (Incident.applyAll (c, room) xs).1.members.get? id ∧
        ∀ j, slow j = false →
          Incident.delivered j (c, room') xs' = Incident.delivered j (c, room) xs ∧
            (Incident.applyAll (c, room') xs').2.boxes[j]?
              =
            (Incident.applyAll (c, room) xs).2.boxes[j]? := by
  have hheld : c.holdsAny slow id = false := by
    cases hj : m.mailbox with
    | none => simp [holdsAny, hm, hj]
    | some j => simp [holdsAny, hm, hj, hbox j hj]
  -- Both runs are compared with the one in which nobody reads the mailboxes in `slow`.
  have hself : SameBoxes slow room room := fun _ _ => rfl
  have hother : SameBoxes slow room' room := fun j hj => (hroom j hj).symm
  have hquiet := (agree_start c hself).applyAll_filter xs
  have hquiet' := (agree_start c hother).applyAll_filter xs'
  rw [hxs] at hquiet'
  have hsame : ∀ {s s' : Console × Mailroom}, Agree slow (c.holdsAny slow) s s' →
      s'.1.members.get? id = s.1.members.get? id := by
    intro s s' h
    rcases h.get? id with ⟨hnone, hnone'⟩ | ⟨n, n', hn, hn', hlike⟩
    . rw [hnone, hnone']
    . rw [hn, hn', hlike.same hheld]
  constructor
  . rw [← hsame hquiet'.1, hsame hquiet.1]
  . intro j hj
    constructor
    . rw [← hquiet'.2 j hj, hquiet.2 j hj]
    . rw [← hquiet'.1.boxes j hj, hquiet.1.boxes j hj]

def playerAt (p : Port) (box : Nat) : Member :=
  { ports := .ofList [p], delay := 0, status := .playing, mailbox := some box }

/-- Three members that play. -/
def trio : Console :=
  { id := ⟨1⟩
    status := .powered
    members := .ofList [(⟨1⟩, playerAt .one 0), (⟨2⟩, playerAt .two 1), (⟨3⟩, playerAt .three 2)] }

/-- Keys that the first or the last of them sends, after which the first one leaves. -/
def rally (readings : List Incident) : List Incident :=
  [.handle ⟨1⟩ { keys := [{ consoleId := 1, port := 1 }] },
    .handle ⟨1⟩ { keys := [{ consoleId := 1, port := 1, frame := 1 }] }] ++ readings ++
  [.take 1 1,
    .handle ⟨3⟩ { keys := [{ consoleId := 1, port := 3 }] },
    .handle ⟨3⟩ { keys := [{ consoleId := 1, port := 2 }] },
    .streamClosed ⟨1⟩,
    .take 1 9]

/-- The last one is disconnected in one of the runs and plays on in the other one. -/
theorem slow_reader_unnoticed_trio
    : let room (capacity : Nat) : Mailroom :=
        ⟨[{ capacity := 16 }, { capacity := 16 }, { capacity := capacity }]⟩
      let s := Incident.applyAll (trio, room 1) (rally [])
      let s' := Incident.applyAll (trio, room 16) (rally [.take 2 9])
      (s.1.members.get? ⟨3⟩).map (·.status) = some .done ∧
        (s'.1.members.get? ⟨3⟩).map (·.status) = some .playing ∧
        s'.1.members.get? ⟨2⟩ = s.1.members.get? ⟨2⟩ ∧
        Incident.delivered 1 (trio, room 16) (rally [.take 2 9])
          =
        Incident.delivered 1 (trio, room 1) (rally []) ∧
        (Incident.delivered 1 (trio, room 1) (rally [])).map (·.keys.map (·.frame))
          = [[0], [1], [0]] := by
  intro room s s'
  have hroom : ∀ j, (j == 2) = false → (room 16).boxes[j]? = (room 1).boxes[j]? := by
    intro j hj
    match j, hj with
    | 0, _ => rfl
    | 1, _ => rfl
    | j + 3, _ => rfl
  have hbox : ∀ j, (playerAt .two 1).mailbox = some j → (j == 2) = false := by
    intro j hj
    rw [← Option.some.inj hj]
    rfl
  have hsecond : trio.members.get? ⟨2⟩ = some (playerAt .two 1) := by decide +kernel
  have hcalls : (rally [.take 2 9]).filter (fun x => !x.isReading (· == 2))
      = (rally []).filter fun x => !x.isReading (· == 2) := by decide +kernel
  have h := slow_reader_unnoticed (· == 2) trio hroom hcalls hsecond hbox
  exact ⟨by decide +kernel, by decide +kernel, h.1, (h.2 1 rfl).1, by decide +kernel⟩

end Console
end PadRelay
