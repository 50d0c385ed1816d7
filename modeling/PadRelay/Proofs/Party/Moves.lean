import PadRelay.Proofs.Party.Basic

/-!
This module contains the theory of single moves as the player who moves sees them. What a move can do is
said once. Who the player is does not change, and there are few ways in which something gets into its
outbox or into what it has not read yet.
-/

namespace PadRelay
namespace Player

variable {β : Type}

structure Remains (x x' : Player β) : Prop where
  emulator : x'.emulator = x.emulator
  seat : x.game.SameSeat x'.game

theorem Remains.refl (x : Player β) : x.Remains x := ⟨rfl, .refl _⟩

variable [Inhabited β]

/-- What a move makes of player `h`, and what happens at its queues. -/
inductive Acts (coder : Coder β) (s : Server) (h : Nat) (x : Player β) :
    Move β → Player β → List (Observation β) → Prop
  | idle {m : Move β} : Acts coder s h x m x []
  | ready {h' : Nat} :
    x.stream = none →
    Acts coder s h x (.ready h')
      { x with
        game := x.game.opened {} false
        stream := some s.streams.length
        outbox := x.outbox ++ [x.game.readyEvent] } []
  | await {h' : Nat} {o : Outcome β ClientError Unit} :
    x.game.awaitStart? = some o →
    Acts coder s h x (.await h') { x with game := o.game } []
  | put {h' : Nat} {updates : List (ButtonUpdate β)} :
    (∀ u ∈ updates, x.game.localPorts.contains u.port = true) →
    Acts coder s h x (.put h' updates)
      { x with
        game := (x.game.put coder updates).game
        outbox := x.outbox ++ (x.game.put coder updates).sent.toList }
      ((Game.accepted coder x.game.consoleId x.game.localPorts updates x.game.queues).map
        (.stored h))
  | get {h' : Nat} {port : Port} {frame : Int32} {o : Outcome β GetError β} :
    x.game.get? coder port frame = some o →
    Acts coder s h x (.get h' port frame) { x with game := o.game }
      (o.result.toOption.map (.obtained h port frame)).toList
  | cancel {h' : Nat} : Acts coder s h x (.cancel h') { x with game := x.game.cancel } []
  | hangUp {h' : Nat} : Acts coder s h x (.hangUp h') { x with game := x.game.hangUp } []
  | transmit {h' i : Nat} {e : OutgoingEvent} {rest : List OutgoingEvent} :
    x.stream = some i → x.outbox = e :: rest →
    Acts coder s h x (.transmit h') { x with outbox := rest } []
  | deliver {h' i n : Nat} :
    x.stream = some i →
    Acts coder s h x (.deliver h' n) { x with game := x.game.deliver (s.take i n).1 } []
  | finish {h' : Nat} {ending : StreamEnd} :
    Acts coder s h x (.finish h' ending) { x with game := x.game.finishStream ending } []

theorem acts_act (coder : Coder β) (s : Server) (h : Nat) (x : Player β) (m : Move β)
    : Acts coder s h x m (x.act coder s m) (x.observed coder h m) := by
  unfold act observed
  cases m with
  | ready h' =>
    dsimp
    unfold announce
    split
    . exact .idle
    . next hnone => exact .ready hnone
  | await h' =>
    dsimp
    unfold Player.await
    split
    . exact .idle
    . next o ho => exact .await ho
  | put h' updates =>
    dsimp
    unfold Player.put accepted
    split
    . next howns =>
      unfold ownsAll at howns
      rw [List.all_eq_true] at howns
      exact .put howns
    . exact .idle
  | get h' port frame =>
    dsimp
    unfold Player.get given
    cases ho : x.game.get? coder port frame with
    | none => exact .idle
    | some o => exact .get ho
  | transmit h' =>
    dsimp
    unfold transmitted outgoing?
    split
    . exact .idle
    . next heq =>
      split at heq
      . next i e rest hi hrest =>
        rw [hrest]
        exact .transmit hi hrest
      . simp at heq
  | deliver h' n =>
    dsimp
    unfold Player.deliver
    split
    . exact .idle
    . next i hi => exact .deliver hi
  | cancel h' => exact .cancel
  | hangUp h' => exact .hangUp
  | finish h' ending => exact .finish
  | seat e ports => exact .idle
  | serve op => exact .idle

variable {coder : Coder β} {s : Server} {h : Nat} {x x' : Player β} {m : Move β}
  {obs : List (Observation β)}

theorem Acts.remains (ha : Acts coder s h x m x' obs) : x.Remains x' := by
  cases ha with
  | await ho => exact ⟨rfl, (Game.awaitStart?_cases ho).1⟩
  | put howns =>
    rw [Game.put_game]
    exact ⟨rfl, rfl, rfl, rfl⟩
  | get ho =>
    rcases Game.got_get? ho with ⟨_, hgot, _⟩
    exact ⟨rfl, hgot.seat⟩
  | _ => exact ⟨rfl, rfl, rfl, rfl⟩

theorem Acts.stream (ha : Acts coder s h x m x' obs)
    : x'.stream = x.stream ∨
        ∃ h', m = .ready h' ∧ x.stream = none ∧ x'.stream = some s.streams.length := by
  cases ha with
  | ready hnone => exact Or.inr ⟨_, rfl, hnone, rfl⟩
  | _ => exact Or.inl rfl

theorem Acts.outbox (ha : Acts coder s h x m x' obs) {e : OutgoingEvent} (he : e ∈ x'.outbox)
    : e ∈ x.outbox ∨ e = x.game.readyEvent ∨
        ∃ h' updates, m = .put h' updates ∧
          obs = (Game.accepted coder x.game.consoleId x.game.localPorts updates
            x.game.queues).map (.stored h) ∧
          (x.game.put coder updates).sent = some e := by
  cases ha with
  | ready hnone =>
    cases List.mem_append.1 he with
    | inl he => exact Or.inl he
    | inr he => exact Or.inr (Or.inl (List.mem_singleton.1 he))
  | @put h' updates howns =>
    cases List.mem_append.1 he with
    | inl he => exact Or.inl he
    | inr he =>
      rw [Option.mem_toList] at he
      exact Or.inr (Or.inr ⟨h', updates, rfl, rfl, he⟩)
  | transmit hi hrest =>
    left
    rw [hrest]
    exact List.mem_cons_of_mem _ he
  | _ => exact Or.inl he

theorem Acts.unread (ha : Acts coder s h x m x' obs)
    : x'.game.unread <:+ x.game.unread ∨
        ∃ h' i n, m = .deliver h' n ∧ x.stream = some i ∧
          x'.game.unread = x.game.unread ++ (s.take i n).1 := by
  cases ha with
  | idle => exact Or.inl (List.suffix_refl _)
  | ready hnone => exact Or.inl List.nil_suffix
  | await ho =>
    left
    rcases (Game.awaitStart?_cases ho).2.2 with ⟨_, heq⟩ | ⟨e, heq, _⟩
    . exact heq ▸ List.suffix_refl _
    . exact heq ▸ List.suffix_cons e _
  | put howns =>
    left
    rw [Game.put_game]
    exact List.suffix_refl _
  | get ho =>
    rcases Game.got_get? ho with ⟨_, hgot, _⟩
    exact Or.inl hgot.unread
  | cancel => exact Or.inl List.nil_suffix
  | hangUp => exact Or.inl (List.suffix_refl _)
  | transmit hi hrest => exact Or.inl (List.suffix_refl _)
  -- Only a delivery adds to what is unread, and not after the end of the stream.
  | @deliver h' i n hi =>
    unfold Game.unread Game.deliver
    dsimp
    cases x.game.inbound with
    | none => exact Or.inl List.nil_suffix
    | some inbound =>
      unfold Inbound.deliver
      dsimp
      split
      . exact Or.inl (List.suffix_refl _)
      . exact Or.inr ⟨h', i, n, rfl, hi, rfl⟩
  | @finish h' ending =>
    left
    unfold Game.unread Game.finishStream
    dsimp
    cases x.game.inbound with
    | none => exact List.suffix_refl _
    | some inbound =>
      unfold Inbound.finish
      dsimp
      split <;> exact List.suffix_refl _

end Player

theorem getElem?_modify_cases {α : Type} {f : α → α} {l : List α} {i j : Nat} {a' : α}
    (ha' : (l.modify i f)[j]? = some a')
    : ∃ a, l[j]? = some a ∧ (i = j ∧ a' = f a ∨ i ≠ j ∧ a' = a) := by
  rw [List.getElem?_modify, Option.map_eq_map, Option.map_eq_some_iff] at ha'
  rcases ha' with ⟨a, ha, rfl⟩
  refine ⟨a, ha, ?_⟩
  split
  . next heq => exact Or.inl ⟨heq, rfl⟩
  . next hne => exact Or.inr ⟨hne, rfl⟩

theorem getElem?_append_toList_cases {α : Type} {l : List α} {o : Option α} {a : α} {i : Nat}
    (ha : (l ++ o.toList)[i]? = some a) : l[i]? = some a ∨ (i = l.length ∧ o = some a) := by
  rw [List.getElem?_append] at ha
  split at ha
  . exact Or.inl ha
  . next hge =>
    cases o with
    | none => simp at ha
    | some b =>
      rw [Option.toList_some, List.getElem?_singleton] at ha
      split at ha
      . exact Or.inr ⟨by omega, ha⟩
      . simp at ha

namespace Party

variable {β : Type} [Inhabited β] {coder : Coder β} {p : Party β} {m : Move β} {h : Nat}
  {x x' : Player β}

/-- How player `h` comes to be what it is after a move: it rested, it moved, or it took its seat. -/
inductive Yields (coder : Coder β) (p : Party β) (m : Move β) (h : Nat) : Player β → Prop
  | rest {x : Player β} :
    p.players[h]? = some x → (∀ a y, p.mover? m = some (a, y) → a ≠ h) → Yields coder p m h x
  | move {x x' : Player β} :
    p.players[h]? = some x → p.mover? m = some (h, x) →
    x.Acts coder p.server h m x' (p.observed coder m) → Yields coder p m h x'
  | seat {x : Player β} :
    h = p.players.length → p.mover? m = none → p.newcomer? m = some x → Yields coder p m h x

omit [Inhabited β] in
theorem mover?_eq_some_iff
    : p.mover? m = some (h, x) ↔ m.actor? = some h ∧ p.players[h]? = some x := by
  unfold mover?
  rw [Option.bind_eq_some_iff]
  constructor
  . rintro ⟨a, ha, heq⟩
    rw [Option.map_eq_some_iff] at heq
    rcases heq with ⟨y, hy, heq⟩
    rw [Prod.mk.injEq] at heq
    rcases heq with ⟨rfl, rfl⟩
    exact ⟨ha, hy⟩
  . rintro ⟨ha, hx⟩
    exact ⟨h, ha, by simp [hx]⟩

theorem yields_step (hx' : (p.step coder m).players[h]? = some x') : p.Yields coder m h x' := by
  replace hx' : (p.roster coder m)[h]? = some x' := hx'
  unfold roster at hx'
  split at hx'
  . next a ha =>
    rcases getElem?_modify_cases hx' with ⟨x, hx, ⟨rfl, rfl⟩ | ⟨hne, rfl⟩⟩
    . have hmover := mover?_eq_some_iff.2 ⟨ha, hx⟩
      refine .move hx hmover ?_
      unfold observed
      rw [hmover]
      exact Player.acts_act coder p.server a x m
    . refine .rest hx ?_
      intro b y hy
      rw [mover?_eq_some_iff, ha, Option.some.injEq] at hy
      exact hy.1 ▸ hne
  . next hnone =>
    have hmover : p.mover? m = none := by simp [mover?, hnone]
    rcases getElem?_append_toList_cases hx' with hx | ⟨hh, hnew⟩
    . exact .rest hx (by simp [hmover])
    . exact .seat hh hmover hnew

theorem remains_step (coder : Coder β) (m : Move β) (hx : p.players[h]? = some x)
    : ∃ x', (p.step coder m).players[h]? = some x' ∧ x.Remains x' := by
  show ∃ x', (p.roster coder m)[h]? = some x' ∧ x.Remains x'
  unfold roster
  split
  . next a ha =>
    rw [List.getElem?_modify, hx]
    refine ⟨_, rfl, ?_⟩
    split
    . exact (Player.acts_act coder p.server h x m).remains
    . exact .refl x
  . refine ⟨x, ?_, .refl x⟩
    rw [List.getElem?_append_left (List.getElem?_eq_some_iff.1 hx).1]
    exact hx

end Party
end PadRelay
