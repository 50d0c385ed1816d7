import PadRelay.Proofs.Server.Lagging
import PadRelay.Proofs.Server.Refusal

/-!
This module contains the proof that somebody plays on every console that is running, unless the last
player was disconnected because it did not keep up. That a player left is only noticed when its stream
ends, so in the latter case the console goes on running with nobody on it.
-/

namespace PadRelay
namespace Console

/-- Whether there is a member that has not left. -/
def hasPlayer (c : Console) : Bool :=
  c.members.values.any fun m => m.status ≠ .done

theorem hasPlayer_iff {c : Console}
    : c.hasPlayer = true ↔ ∃ id m, c.members.get? id = some m ∧ m.status ≠ .done := by
  simp only [hasPlayer, List.any_eq_true, SortedMap.mem_values_iff, decide_eq_true_eq]
  constructor
  . rintro ⟨m, ⟨id, hm⟩, hstatus⟩
    exact ⟨id, m, hm, hstatus⟩
  . rintro ⟨id, m, hm, hstatus⟩
    exact ⟨m, ⟨id, hm⟩, hstatus⟩

theorem hasPlayer_of_allReady {c : Console} (h : c.allReady = true) : c.hasPlayer = true := by
  simp only [allReady, Bool.and_eq_true, Bool.not_eq_true', SortedMap.isEmpty,
    List.isEmpty_eq_false_iff, List.all_eq_true, decide_eq_true_eq] at h
  rcases h with ⟨hne, hready⟩
  rcases List.exists_mem_of_ne_nil _ hne with ⟨e, he⟩
  unfold hasPlayer SortedMap.values at *
  rw [List.any_eq_true]
  have hmem : e.2 ∈ c.members.entries.map (·.2) := List.mem_map_of_mem he
  exact ⟨e.2, hmem, by simp [hready _ hmem]⟩

theorem hasPlayer_streamClosed {c : Console} {leaver : ClientId} {room : Mailroom}
    (h : (c.streamClosed leaver room).1.status = .powered)
    : (c.streamClosed leaver room).1.hasPlayer = true := by
  unfold streamClosed at h ⊢
  dsimp at h ⊢
  -- The end of a stream is the one event at which the server looks whether somebody is left.
  split at h
  . simp at h
  . next hnot =>
    rw [if_neg hnot]
    simpa [h, hasPlayer] using hnot

end Console

namespace Server

/-- Whether the console at position `k` is running though nobody plays on it. -/
def deserted (s : Server) (k : Nat) : Bool :=
  match s.lobby.console? k with
  | none => false
  | some c => c.status = .powered && !c.hasPlayer

/-- Whether some client of the console at position `k` does not keep up when the act addresses it. -/
def anyLags (s : Server) (k : Nat) (a : Act) : Bool :=
  match s.lobby.console? k with
  | none => false
  | some c => c.members.keys.any fun id => s.lags ⟨k, id⟩ a

section Players

variable {s : Server} {k : Nat} {c c' : Console} {a : Act}

theorem lags_of_anyLags (h : s.anyLags k a = false) (hc : s.lobby.console? k = some c)
    {id : ClientId} {m : Member} (hm : c.members.get? id = some m) : s.lags ⟨k, id⟩ a = false := by
  simp only [anyLags, hc, List.any_eq_false, Bool.not_eq_true] at h
  apply h
  rw [SortedMap.mem_keys_iff]
  exact ⟨m, hm⟩

theorem deserted_eq_false_iff
    : s.deserted k = false ↔
        ∀ c, s.lobby.console? k = some c → c.status = .powered → c.hasPlayer = true := by
  unfold deserted
  cases s.lobby.console? k with
  | none => simp
  | some c => simp

theorem hasPlayer_of_treats (h : s.Consistent) (hc : s.lobby.console? k = some c)
    (hplayer : c.hasPlayer = true) (hchanges : s.Changes k c a c') (hlags : s.anyLags k a = false)
    (hstop : a ≠ .stop k) (hclose : ∀ i, a ≠ .close i) : c'.hasPlayer = true := by
  rw [Console.hasPlayer_iff] at hplayer ⊢
  rcases hplayer with ⟨id, m, hm, hstatus⟩
  rcases hchanges.treats h hc hm with ⟨m', hm', ht⟩
  have hlags := lags_of_anyLags hlags hc hm
  have hkept := ht.of_room hc hm hlags hstop fun i heq => absurd heq (hclose i)
  exact ⟨id, m', hm', hkept.1 hstatus⟩

theorem hasPlayer_changes (h : s.Consistent) (hc : s.lobby.console? k = some c)
    (hplayer : c.status = .powered → c.hasPlayer = true) (hchanges : s.Changes k c a c')
    (hlags : s.anyLags k a = false) (hpowered : c'.status = .powered) : c'.hasPlayer = true := by
  cases hchanges with
  | plug hcreated =>
    dsimp at hpowered
    rw [hcreated] at hpowered
    simp at hpowered
  | start hcreated hready =>
    apply hasPlayer_of_treats h hc (Console.hasPlayer_of_allReady hready)
      (.start hcreated hready) hlags
    . simp
    . simp
  | stop => simp [Console.stop] at hpowered
  | bind hlookup hm hnone =>
    apply hasPlayer_of_treats h hc (hplayer hpowered) (.bind hlookup hm hnone) hlags
    . simp
    . simp
  | handle hb =>
    rw [Console.status_handle] at hpowered
    apply hasPlayer_of_treats h hc (hplayer hpowered) (.handle hb) hlags
    . simp
    . simp
  | close hb => exact Console.hasPlayer_streamClosed hpowered

theorem deserted_perform (h : s.Consistent) (hk : s.deserted k = false)
    (hlags : s.anyLags k a = false) : (s.perform a).deserted k = false := by
  rw [deserted_eq_false_iff] at hk ⊢
  intro c' hc' hpowered
  cases hc : s.lobby.console? k with
  | none =>
    have hcreated := (console?_perform_of_none hc hc').1
    rw [hpowered] at hcreated
    simp at hcreated
  | some c =>
    rcases console?_perform_of_some hc a with ⟨c'', hc'', heq⟩
    rw [hc', Option.some.injEq] at hc''
    subst hc''
    rcases heq with rfl | hchanges
    . exact hk c' hc hpowered
    . exact hasPlayer_changes h hc (hk c hc) hchanges hlags hpowered

theorem deserted_performAll (h : s.Consistent) (hk : s.deserted k = false) {acts : List Act}
    (hacts : every (fun s a => !(s.anyLags k a && (s.perform a).deserted k)) s acts = true)
    : (s.performAll acts).deserted k = false := by
  induction acts generalizing s with
  | nil => exact hk
  | cons a acts ih =>
    simp only [every, Bool.and_eq_true, Bool.not_eq_true'] at hacts
    apply ih (consistent_perform h a) _ hacts.2
    cases hlags : s.anyLags k a with
    | false => exact deserted_perform h hk hlags
    | true =>
      rw [hlags, Bool.true_and] at hacts
      exact hacts.1

end Players

/--
Somebody plays on every console that is running, if the last player is never one that is disconnected
because it does not keep up.
-/
theorem running_has_player (testMode : Bool) (limit : Option Nat) (ops : List Operation) (k : Nat)
    (h : every (fun s a => !(s.anyLags k a && (s.perform a).deserted k)) (initial testMode limit)
      ((initial testMode limit).history ops) = true) {c : Console}
    (hc : ((initial testMode limit).run ops).lobby.console? k = some c)
    (hpowered : c.status = .powered)
    : ∃ id m, c.members.get? id = some m ∧ m.status ≠ .done := by
  have hinitial : (initial testMode limit).deserted k = false := by
    simp [deserted, initial, Lobby.console?]
  have hrun := deserted_performAll (consistent_initial testMode limit) hinitial h
  rw [← run_eq_performAll, deserted_eq_false_iff] at hrun
  rw [← Console.hasPlayer_iff]
  exact hrun c hc hpowered

/-- Two players, of whom one leaves. -/
def departure : List Operation :=
  [.makeConsole {},
    .plugController { consoleId := 1, port1 := 1 },
    .plugController { consoleId := 1, port1 := 2 },
    .openStream,
    .openStream,
    .receive 0 { ready := some { consoleId := 1, clientId := 1 } },
    .receive 1 { ready := some { consoleId := 1, clientId := 2 } },
    .startGame { consoleId := 1 },
    .endStream 0]

theorem running_has_player_departure
    : ∃ c, ((initial false none).run departure).lobby.console? 0 = some c ∧ c.status = .powered ∧
        ∃ id m, c.members.get? id = some m ∧ m.status ≠ .done := by
  have hevery : every (fun s a => !(s.anyLags 0 a && (s.perform a).deserted 0)) (initial false none)
      ((initial false none).history departure) = true := by decide +kernel
  have hstatus : (((initial false none).run departure).lobby.console? 0).map (·.status)
      = some .powered := by decide +kernel
  rw [Option.map_eq_some_iff] at hstatus
  rcases hstatus with ⟨c, hc, hpowered⟩
  exact ⟨c, hc, hpowered, running_has_player false none departure 0 hevery hc hpowered⟩

/-- The only player of a game that has started. -/
def solo : List Operation :=
  [.makeConsole {},
    .plugController { consoleId := 1, port1 := 1 },
    .openStream,
    .receive 0 { ready := some { consoleId := 1, clientId := 1 } },
    .startGame { consoleId := 1 }]

/-- Keys for a port of somebody else. -/
def strayKeys : OutgoingEvent :=
  { keys := [{ consoleId := 1, port := 2 }] }

def soloist : Member :=
  { ports := .ofList [.one], delay := 0, status := .playing, mailbox := some 0 }

def soloConsole : Console :=
  { id := ⟨1⟩, status := .powered, members := (∅ : SortedMap ClientId Member).insert ⟨1⟩ soloist }

/--
The only player is disconnected because it does not collect what it is answered, and the console goes on
running.
-/
theorem not_running_has_player
    : ¬ ∀ testMode limit ops k c, ((initial testMode limit).run ops).lobby.console? k = some c →
        c.status = .powered → ∃ id m, c.members.get? id = some m ∧ m.status ≠ .done := by
  intro hall
  have hrefuses : ((initial false none).run solo).Refuses 0 soloConsole ⟨1⟩ soloist 0 strayKeys
      (refusal 1 .two .invalidPort) := by
    constructor
    . exact consistent_run false none solo
    all_goals decide +kernel
  have hbox : ((initial false none).run solo).room.boxes[0]?
      = some { capacity := 1024, pending := [soloConsole.startEvent] } := by decide +kernel
  rcases hrefuses.flood (n := 1023) hbox rfl rfl with ⟨c, hc, hstatus, hother, hself⟩
  rw [← run_append] at hc
  rcases hall false none _ 0 c hc hstatus with ⟨id, m, hm, hplays⟩
  by_cases heq : id = ⟨1⟩
  . rw [heq, hself, Option.some.injEq] at hm
    rw [← hm] at hplays
    exact hplays rfl
  . rw [hother id heq] at hm
    unfold soloConsole at hm
    rw [SortedMap.get?_insert_of_ne _ heq] at hm
    simp at hm

end Server
end PadRelay
