import PadRelay.Proofs.Console.Allotment
import PadRelay.Proofs.Server.PortExclusivity

/-!
This module contains what a request for ports comes to on a console of a running server: why it is
refused or else which ports it gets, and that a request that is refused leaves no trace.
-/

namespace PadRelay
namespace Server

/--
What becomes of a request for ports of console `k` of a server, for any ports in any order. Entries that
are no requests do not count.
-/
structure Plugging (s : Server) (k : Nat) (c : Console) (delay : Int32) (requested : List Port)
    (romHash : String) : Prop where
  occupied : ∀ p, c.occupied.contains p = true ↔
    ∃ id m, c.members.get? id = some m ∧ m.owns p = true
  started : c.status ≠ .created →
    c.plug s.lobby.clientIds delay requested romHash = .error (.consoleStarted c.id)
  differs : c.status = .created → c.Differs romHash →
    c.plug s.lobby.clientIds delay requested romHash = .error (.romMismatch c.romHash romHash)
  nothing : c.status = .created → ¬ c.Differs romHash → requested.filter Port.isRequest = [] →
    c.plug s.lobby.clientIds delay requested romHash = .error .noPortsRequested
  /-- The new client gets its ports and is all that is new, apart from the counter. -/
  granted : c.Judges romHash (requested.filter Port.isRequest) →
    Fits c.occupied (requested.filter Port.isRequest) →
      ∃ p, c.plug s.lobby.clientIds delay requested romHash = .ok p ∧
        p.clientId = ⟨s.lobby.clientIds.next⟩ ∧
        p.ports = allotted c.occupied (requested.filter Port.isRequest) ∧
        s.perform (.plug k delay requested romHash)
          =
        let m : Member := {
          ports := .ofList p.ports
          delay := delay
          status := .created
          mailbox := none }
        { s with lobby := {
          (s.lobby.set k { c with members := c.members.insert p.clientId m }) with
            clientIds := ⟨s.lobby.clientIds.next + 1⟩ } }
  rejected : c.Judges romHash (requested.filter Port.isRequest) →
    ¬ Fits c.occupied (requested.filter Port.isRequest) →
      c.plug s.lobby.clientIds delay requested romHash
        =
      .error (.rejected (verdicts c.occupied (requested.filter Port.isRequest))) ∧
      (verdicts c.occupied (requested.filter Port.isRequest)).length
        =
      (requested.filter Port.isRequest).length
  failed : ∀ e, c.plug s.lobby.clientIds delay requested romHash = .error e →
    s.perform (.plug k delay requested romHash) = s

theorem plugging_of_console? {s : Server} {k : Nat} {c : Console}
    (hc : s.lobby.console? k = some c) (delay : Int32) (requested : List Port) (romHash : String)
    : s.Plugging k c delay requested romHash where
  occupied _ := Console.contains_occupied
  started hstatus := by
    unfold Console.plug
    rw [if_pos hstatus]
  differs hstatus hhash := by
    unfold Console.Differs at hhash
    unfold Console.plug
    rw [if_neg (by simp [hstatus]), if_pos hhash]
  nothing hstatus hhash hnone := by
    unfold Console.Differs at hhash
    unfold Console.plug
    rw [if_neg (by simp [hstatus]), if_neg hhash]
    dsimp only
    rw [if_pos hnone]
  granted hjudges hfits := by
    refine ⟨_, Console.plug_of_fits hjudges hfits _ _, rfl, rfl, ?_⟩
    rw [perform_plug hc, Console.plug_of_fits hjudges hfits]
  rejected hjudges hfits :=
    ⟨Console.plug_of_not_fits hjudges hfits _ _, length_verdicts _ _⟩
  failed e he := by rw [perform_plug hc, he]

/--
Whatever a server was asked for before, a request for ports of one of its consoles is either served in
full or has no effect. The client that is new is nobody who plays on that console already.
-/
theorem plugging_run (testMode : Bool) (limit : Option Nat) (ops : List Operation) {k : Nat}
    {c : Console} (hc : ((initial testMode limit).run ops).lobby.console? k = some c)
    (delay : Int32) (requested : List Port) (romHash : String)
    : ((initial testMode limit).run ops).Plugging k c delay requested romHash ∧
        ((initial testMode limit).successfulPlugs ops < 0x7fffffffffffffff →
          c.members.get? ⟨((initial testMode limit).run ops).lobby.clientIds.next⟩ = none) := by
  refine ⟨plugging_of_console? hc delay requested romHash, ?_⟩
  intro hfew
  have hfresh := (allotted_run (allotted_initial testMode limit) ops (by omega)).fresh k
  rw [claim?_of_console? hc, Console.claim?, Option.map_eq_none_iff] at hfresh
  exact hfresh

/-- A console on which the second port is taken. -/
def seated : Console :=
  { id := ⟨1⟩, title := "a", members := .ofList [(⟨1⟩, { ports := .ofList [.two], delay := 3 })] }

def seat : List Operation :=
  [.makeConsole { title := "a" }, .plugController { consoleId := 1, port1 := 2, delayFrames := 3 }]

/--
A client that wants the fourth port and any other gets the first one as well, and one that wants more
ports than there are is told about each of them.
-/
theorem plugging_run_seated
    : ((initial false none).run seat).lobby.console? 0 = some seated ∧
        (∃ p, seated.plug ((initial false none).run seat).lobby.clientIds 5 [.any, .unknown, .four] ""
            = .ok p ∧ p.clientId = ⟨2⟩ ∧ p.ports = [.one, .four]) ∧
        seated.plug ((initial false none).run seat).lobby.clientIds 5 [.any, .any, .two, .any, .any] ""
          =
        .error (.rejected [(.two, .portAlreadyOccupied), (.one, .acceptable), (.three, .acceptable),
          (.four, .acceptable), (.any, .allPortsOccupied)]) := by
  have hseated : ((initial false none).run seat).lobby.console? 0 = some seated := by decide +kernel
  have h := fun requested => (plugging_run false none seat hseated 5 requested "").1
  have hjudges : ∀ requests, requests ≠ [] → seated.Judges "" requests :=
    fun requests hrequests => ⟨rfl, by simp [Console.Differs], hrequests⟩
  refine ⟨hseated, ?_, ?_⟩
  . rcases (h [.any, .unknown, .four]).granted (hjudges _ (by decide)) (by decide +kernel) with
      ⟨p, hp, hid, hports, _⟩
    exact ⟨p, hp, hid.trans (by decide +kernel), hports.trans (by decide +kernel)⟩
  . rw [((h [.any, .any, .two, .any, .any]).rejected (hjudges _ (by decide)) (by decide +kernel)).1]
    congr 2
    decide +kernel

end Server
end PadRelay
