import PadRelay.Proofs.Party.Seats

/-!
This module contains the theory of the events on their way to a player: those in its mailbox and those
that have arrived but were not read. Nothing gets among them but what the server is due to add.
-/

namespace PadRelay

variable {β : Type}

def Player.mail (s : Server) (x : Player β) : List IncomingEvent :=
  match x.stream with
  | none => []
  | some i => s.room.pending i

/-- The events on their way to a player, the next one to read first. -/
def Player.flow (s : Server) (x : Player β) : List IncomingEvent :=
  x.game.unread ++ x.mail s

def Player.dues (s : Server) (x : Player β) (op : Option Server.Operation) : List IncomingEvent :=
  match x.stream, op with
  | some i, some op => Server.trace (Server.due i) s (s.acts op)
  | _, _ => []

theorem Server.pending_length_streams {s : Server} (h : s.Consistent)
    : s.room.pending s.streams.length = [] := by
  have hnone : s.room.boxes[s.streams.length]? = none :=
    List.getElem?_eq_none_iff.2 (Nat.le_of_eq h.length)
  simp [Mailroom.pending, hnone]

theorem Server.received_take (s : Server) (i n : Nat)
    : Server.trace (Server.received i) s (s.acts (.take i n)) = (s.take i n).1 := by
  simp [acts, trace, received]

namespace Party

variable {p : Party β} {m : Move β} {h : Nat} {x x' : Player β}

theorem served_of_operation? {op : Server.Operation} (hop : p.operation? m = some op)
    : p.served m = p.server.step op := by
  simp [served, hop]

theorem served_of_none (hop : p.operation? m = none) : p.served m = p.server := by
  simp [served, hop]

theorem sublist_mail (hseated : Seated p.server p.console p.players) (x : Player β) (m : Move β)
    : List.Sublist (x.mail (p.served m)) (x.mail p.server ++ x.dues p.server (p.operation? m)) := by
  unfold Player.mail Player.dues
  cases x.stream with
  | none => simp
  | some i =>
    cases hop : p.operation? m with
    | none =>
      rw [served_of_none hop]
      simp
    | some op =>
      rw [served_of_operation? hop]
      exact (List.sublist_append_right _ _).trans (Server.sublist_step hseated.consistent i op)

variable [Inhabited β] {coder : Coder β}

theorem flow_step (hseated : Seated p.server p.console p.players)
    (hx' : (p.step coder m).players[h]? = some x')
    : (∃ x, p.players[h]? = some x ∧ x.Remains x' ∧
        List.Sublist (x'.flow (p.step coder m).server)
          (x.flow p.server ++ x'.dues p.server (p.operation? m))) ∨
      p.newcomer? m = some x' ∧ x'.flow (p.step coder m).server = [] := by
  have hserver : (p.step coder m).server = p.served m := rfl
  rw [hserver]
  cases yields_step hx' with
  | rest hx _ =>
    refine Or.inl ⟨x', hx, .refl x', ?_⟩
    unfold Player.flow
    rw [List.append_assoc]
    exact List.Sublist.append_left (sublist_mail hseated x' m) _
  | seat _ _ hnew =>
    have hnewcomer := newcomer_step hseated hnew
    refine Or.inr ⟨hnew, ?_⟩
    unfold Player.flow Player.mail Game.unread
    rw [hnewcomer.stream, hnewcomer.inbound]
    rfl
  | @move x _ hx hmover hacts =>
    refine Or.inl ⟨x, hx, hacts.remains, ?_⟩
    have hmail : List.Sublist (x'.mail (p.served m))
        (x.mail p.server ++ x'.dues p.server (p.operation? m)) := by
      have := sublist_mail hseated x' m
      rcases hacts.stream with heq | ⟨_, _, hnone, hnew⟩
      . have : x.mail p.server = x'.mail p.server := by
          unfold Player.mail
          rw [heq]
        rw [this]
        exact sublist_mail hseated x' m
      . have hnil : x'.mail p.server = [] := by
          unfold Player.mail
          rw [hnew]
          exact Server.pending_length_streams hseated.consistent
        rw [hnil] at this
        exact this.trans (List.sublist_append_right _ _)
    unfold Player.flow
    rcases hacts.unread with hsuffix | ⟨h', i, n, rfl, hi, heq⟩
    . rw [List.append_assoc]
      exact hsuffix.sublist.append hmail
    . -- What has just arrived was taken out of the mailbox.
      have hop : p.operation? (.deliver h' n) = some (.take i n) := by
        simp [operation?, hmover, Player.operation?, hi]
      have hstream : x'.stream = some i := by
        rcases hacts.stream with heq | ⟨_, heq, _⟩
        . rw [heq, hi]
        . simp at heq
      rw [heq, served_of_operation? hop, List.append_assoc, List.append_assoc]
      apply List.Sublist.append_left
      unfold Player.mail Player.dues
      rw [hi, hstream, hop, ← Server.received_take]
      exact Server.sublist_step hseated.consistent i _

end Party
end PadRelay
