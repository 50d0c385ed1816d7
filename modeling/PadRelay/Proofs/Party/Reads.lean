import Mathlib.Data.List.Basic
import PadRelay.Proofs.Party.Moves

/-!
This module contains runs in which a player reads a port frame after frame. As long as the frames are
within the initial delay these reads need nothing that anybody has put, so that any number of them moves
nothing but the number of the last frame.
-/

namespace PadRelay

variable {β : Type}

namespace Game

/-- Nothing was read yet of a port that has the default buttons for its first `n` frames. -/
def skips (g : Game β) (port : Port) (n : Nat) : Bool :=
  (g.queues.get? port).any fun q => q.latest = -1 ∧ (n : Int) ≤ q.initial.toInt

/-- The game after the first `n` frames of a port were read. -/
def skip (g : Game β) (port : Port) (n : Nat) : Game β :=
  { g with queues := g.queues.modify port fun q => { q with latest := Int32.ofInt (n - 1) } }

variable {g : Game β} {port : Port} {n : Nat}

theorem skips_of_le {m : Nat} (h : g.skips port n = true) (hle : m ≤ n) : g.skips port m = true := by
  unfold skips at h ⊢
  simp only [Option.any_eq_true, decide_eq_true_eq] at h ⊢
  rcases h with ⟨q, hq, hlatest, hn⟩
  exact ⟨q, hq, hlatest, by omega⟩

theorem queue_of_skips (h : g.skips port n = true)
    : ∃ q, g.queues.get? port = some q ∧ q.latest = -1 ∧ n ≤ q.initial.toInt ∧
        ∀ m : Nat, g.skip port m
          = { g with queues := g.queues.insert port { q with latest := Int32.ofInt (m - 1) } } := by
  unfold skips at h
  simp only [Option.any_eq_true, decide_eq_true_eq] at h
  rcases h with ⟨q, hq, hlatest, hn⟩
  refine ⟨q, hq, hlatest, hn, ?_⟩
  intro m
  unfold skip
  congr 1
  apply SortedMap.ext_get?
  intro port'
  rw [SortedMap.get?_modify, SortedMap.get?_insert]
  split
  . next heq =>
    rw [heq, hq]
    rfl
  . rfl

theorem skip_zero (h : g.skips port n = true) : g.skip port 0 = g := by
  rcases queue_of_skips h with ⟨q, hq, hlatest, _, hskip⟩
  have hsame : ({ q with latest := Int32.ofInt ((0 : Nat) - 1) } : FrameQueue β) = q := by
    rw [FrameQueue.mk.injEq]
    exact ⟨rfl, rfl, hlatest.symm, rfl⟩
  have hqueues : g.queues.insert port q = g.queues := by
    apply SortedMap.ext_get?
    intro port'
    rw [SortedMap.get?_insert]
    split
    . next heq => rw [heq, hq]
    . rfl
  rw [hskip, hsame, hqueues]

/-- The next read is of a frame that has the default buttons as well. -/
theorem get?_skip [Inhabited β] (coder : Coder β) (h : g.skips port (n + 1) = true)
    : ∃ o, (g.skip port n).get? coder port (Int32.ofInt n) = some o ∧
        o.game = g.skip port (n + 1) ∧ o.result = .ok default := by
  rcases queue_of_skips h with ⟨q, hq, hlatest, hn, hskip⟩
  have hlt := Int32.toInt_lt q.initial
  have hframe : (Int32.ofInt n).toInt = n := Int32.toInt_ofInt_of_le (by omega) (by omega)
  have hget : ({ q with latest := Int32.ofInt (n - 1) } : FrameQueue β).get (Int32.ofInt n)
      = .ok (default, { q with latest := Int32.ofInt n }) := by
    refine FrameQueue.get_eq_ok_iff.2 ⟨?_, Or.inl ⟨?_, rfl, rfl⟩⟩
    . rw [Int32.ofInt_sub]
      exact (Int32.sub_add_cancel _ _).symm
    . rw [Int32.lt_iff_toInt_lt, hframe]
      dsimp
      omega
  have hqueued : (g.skip port n).getQueued port (Int32.ofInt n)
      = (.ok default, g.skip port (n + 1)) := by
    rw [hskip, hskip]
    rw [getQueued_ok (SortedMap.get?_insert_self _ _ _) hget, SortedMap.insert_insert]
    simp
  unfold get? getRemote?
  dsimp
  rw [hqueued]
  split
  . exact ⟨_, rfl, rfl, rfl⟩
  . exact ⟨_, rfl, rfl, rfl⟩

end Game

namespace Party

/-- Player `h` gets the buttons of a port, frame after frame. -/
def gets (h : Nat) (port : Port) (n : Nat) : List (Move β) :=
  (List.range n).map fun i : Nat => .get h port (Int32.ofInt i)

theorem gets_succ (h : Nat) (port : Port) (n : Nat)
    : (gets h port (n + 1) : List (Move β)) = gets h port n ++ [.get h port (Int32.ofInt n)] := by
  unfold gets
  rw [List.range_succ, List.map_append]
  rfl

def skips (p : Party β) (h : Nat) (port : Port) (n : Nat) : Bool :=
  p.players[h]?.any fun x => x.game.skips port n

variable [Inhabited β]

/-- Player `h` obtains the default buttons of a port, frame after frame. -/
def defaults (h : Nat) (port : Port) (n : Nat) : List (Observation β) :=
  (List.range n).map fun i : Nat => .obtained h port (Int32.ofInt i) default

theorem defaults_succ (h : Nat) (port : Port) (n : Nat)
    : (defaults h port (n + 1) : List (Observation β))
        =
      defaults h port n ++ [.obtained h port (Int32.ofInt n) default] := by
  unfold defaults
  rw [List.range_succ, List.map_append]
  rfl

theorem countP_defaults (h h' : Nat) (port port' : Port) (n : Nat)
    : (defaults h port n : List (Observation β)).countP (·.isRead h' port')
        =
      if h = h' ∧ port = port' then n else 0 := by
  induction n with
  | zero => simp [defaults]
  | succ n ih =>
    rw [defaults_succ, List.countP_append, ih, List.countP_singleton]
    unfold Observation.isRead
    split <;> simp_all

/-- The party after player `h` has read the first `n` frames of a port. -/
def skip (p : Party β) (h : Nat) (port : Port) (n : Nat) : Party β :=
  { p with
    players := p.players.modify h fun x => { x with game := x.game.skip port n }
    log := p.log ++ defaults h port n }

variable {coder : Coder β} {p : Party β} {h : Nat} {port : Port} {n : Nat}

theorem step_get {x : Player β} {frame : Int32} {o : Outcome β GetError β}
    (hx : p.players[h]? = some x) (ho : x.game.get? coder port frame = some o)
    : p.step coder (.get h port frame)
        =
      { p with
        players := p.players.set h { x with game := o.game }
        log := p.log ++ (o.result.toOption.map (.obtained h port frame)).toList } := by
  have hmover : p.mover? (.get h port frame) = some (h, x) := mover?_eq_some_iff.2 ⟨rfl, hx⟩
  have hserved : p.served (.get h port frame) = p.server := by
    unfold served operation?
    dsimp
    rw [hmover]
    rfl
  have hroster : p.roster coder (.get h port frame) = p.players.set h { x with game := o.game } := by
    unfold roster Move.actor?
    dsimp
    rw [List.modify_eq_set_getElem?, hx]
    dsimp [Player.act, Player.get]
    rw [ho]
  have hobserved : p.observed coder (.get h port frame)
      = (o.result.toOption.map (.obtained h port frame)).toList := by
    unfold observed
    rw [hmover]
    dsimp [Player.observed, Player.given]
    rw [ho]
    rfl
  unfold step
  rw [hserved, hroster, hobserved]

theorem run_gets (coder : Coder β) (hskips : p.skips h port n = true)
    : p.run coder (gets h port n) = p.skip h port n := by
  unfold skips at hskips
  rw [Option.any_eq_true] at hskips
  rcases hskips with ⟨x, hx, hskips⟩
  have hskip : ∀ m, p.skip h port m
      = { p with
          players := p.players.set h { x with game := x.game.skip port m }
          log := p.log ++ defaults h port m } := by
    intro m
    unfold skip
    rw [List.modify_eq_set_getElem?, hx]
    rfl
  -- Each read finds the queue as the one before it has left it, so only the number of reads matters.
  induction n with
  | zero =>
    rw [hskip, Game.skip_zero hskips]
    rcases List.getElem?_eq_some_iff.1 hx with ⟨hlt, hget⟩
    have hplayers : p.players.set h x = p.players := hget ▸ List.set_getElem_self hlt
    unfold gets defaults
    rw [hplayers, List.range_zero, List.map_nil, List.map_nil, List.append_nil]
    rfl
  | succ n ih =>
    have hbefore := ih (Game.skips_of_le hskips (Nat.le_succ n))
    rcases Game.get?_skip coder hskips with ⟨o, ho, hgame, hresult⟩
    have hplayer : (p.skip h port n).players[h]? = some { x with game := x.game.skip port n } := by
      rw [hskip]
      exact List.getElem?_set_self (List.getElem?_eq_some_iff.1 hx).1
    unfold run at hbefore ⊢
    rw [gets_succ, List.foldl_append, hbefore, List.foldl_cons, List.foldl_nil,
      step_get hplayer ho, hgame, hresult, hskip, hskip, defaults_succ]
    simp [Except.toOption]

theorem run_append (coder : Coder β) (p : Party β) (moves moves' : List (Move β))
    : p.run coder (moves ++ moves') = (p.run coder moves).run coder moves' :=
  List.foldl_append

theorem run_append_gets {moves : List (Move β)}
    (hskips : (p.run coder moves).skips h port n = true)
    : p.run coder (moves ++ gets h port n) = (p.run coder moves).skip h port n := by
  rw [run_append, run_gets coder hskips]

/-- The party without what it remembers. -/
def forget (p : Party β) : Party β :=
  { p with log := [] }

/-- What a party remembers does not matter to what it does. -/
theorem run_forget (coder : Coder β) (p : Party β) (moves : List (Move β))
    : (p.forget.run coder moves).forget = (p.run coder moves).forget ∧
        (p.run coder moves).log = p.log ++ (p.forget.run coder moves).log := by
  induction moves generalizing p with
  | nil => exact ⟨rfl, (List.append_nil _).symm⟩
  | cons m moves ih =>
    have hstep : (p.forget.step coder m).forget = (p.step coder m).forget := rfl
    have hlog : (p.step coder m).log = p.log ++ (p.forget.step coder m).log := rfl
    rcases ih (p.step coder m) with ⟨hrun, hmore⟩
    rcases ih (p.forget.step coder m) with ⟨hrun', hmore'⟩
    rw [hstep] at hrun' hmore'
    constructor
    . exact hrun'.symm.trans hrun
    . have hforgetful : (p.forget.run coder (m :: moves)).log
          = (p.forget.step coder m).log ++ ((p.step coder m).forget.run coder moves).log := hmore'
      rw [hforgetful, ← List.append_assoc, ← hlog]
      exact hmore

end Party
end PadRelay
