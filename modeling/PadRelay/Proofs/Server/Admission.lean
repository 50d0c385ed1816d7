import PadRelay.Proofs.Lobby.Basic
import PadRelay.Proofs.Server.Plugging
import PadRelay.Proofs.Server.Readiness

/-!
This module contains what a call for ports is answered and what the server is after it, for the consoles
that are found under their identifier, and what it takes to be let onto a console that is new.
-/

namespace PadRelay

section Free

variable {taken : PortSet} {requests : List Port}

/-- Where every port is free, so few requests can only fail if two of them name the same port. -/
theorem fits_iff_of_free (hfree : ∀ p, taken.contains p = false)
    (hcount : requests.length ≤ Port.controllers.length)
    : Fits taken requests ↔ (named requests).Nodup := by
  refine ⟨Fits.distinct, fun hdistinct => ⟨hdistinct, fun p _ => hfree p, ?_⟩⟩
  have hspare : spare taken requests = Port.controllers.filter fun p => !decide (p ∈ requests) := by
    unfold spare
    apply List.filter_congr
    intro p _
    simp [hfree p]
  -- A controller port is spare unless a request names it.
  have hnamed : (Port.controllers.filter fun p => decide (p ∈ requests)).length
      ≤ (named requests).length := by
    apply List.Nodup.length_le_of_subset
    . exact List.Nodup.filter _ (by decide)
    . intro p hp
      simp only [List.mem_filter, decide_eq_true_eq] at hp
      unfold named
      simp only [List.mem_filter, decide_eq_true_eq]
      refine ⟨hp.2, ?_⟩
      rintro rfl
      exact absurd hp.1 (by decide)
  have hsplit := List.length_eq_length_filter_add (l := Port.controllers) fun p => decide (p ∈ requests)
  have hany : requests.count .any + (named requests).length = requests.length := by
    have hsort := congrArg List.length (sort_eq requests)
    rw [List.length_append, List.length_replicate, (sort_perm _).length_eq, (sort_perm _).length_eq]
      at hsort
    omega
  rw [hspare]
  omega

end Free

namespace Lobby

variable {l l' : Lobby} {id : ConsoleId} {k : Nat} {c : Console}

/-- Which console is found under an identifier is a matter of the list only. -/
theorem find?_eq_findIdx? (l : Lobby) (id : ConsoleId)
    : l.find? id = l.register.findIdx? fun e => e.2 && e.1 = id := by
  unfold find? register
  rw [List.findIdx?_map]
  rfl

theorem SameRegister.find? (h : l.SameRegister l') (id : ConsoleId) : l'.find? id = l.find? id := by
  rw [find?_eq_findIdx?, find?_eq_findIdx?, h.register]

theorem lookup?_of_find? (hfind : l.find? id = some k) (hc : l.console? k = some c)
    : l.lookup? id = some (k, c) := by
  unfold lookup?
  rw [hfind, Option.bind_some, hc, Option.map_some]

theorem lookup?_set_self (h : l.lookup? id = some (k, c)) {c' : Console} (hid : c'.id = c.id)
    : (l.set k c').lookup? id = some (k, c') := by
  have hc := (lookup?_eq_some h).1
  apply lookup?_of_find?
  . rw [(sameRegister_set hc hid).find?, find?_of_lookup? h]
  . exact console?_set_self hc c'

theorem Opens.lookup? (h : l.Opens l' c) : l'.lookup? c.id = some (l.consoles.length, c) := by
  apply lookup?_of_find? h.find?
  rw [h.console?, if_pos rfl]

end Lobby

namespace Console

/-- A client that uses this game image and wants these ports can get onto the console. -/
structure Admits (c : Console) (romHash : String) (requests : List Port) : Prop where
  status : c.status = .created
  hash : ¬ c.Differs romHash
  ports : Fits c.occupied requests

instance (c : Console) (romHash : String) (requests : List Port)
    : Decidable (c.Admits romHash requests) :=
  decidable_of_iff
    (c.status = .created ∧ ¬ (c.romHash ≠ "" ∧ romHash ≠ "" ∧ c.romHash ≠ romHash) ∧
      Fits c.occupied requests)
    ⟨fun h => ⟨h.1, h.2.1, h.2.2⟩, fun h => ⟨h.status, h.hash, h.ports⟩⟩

/-- Why a client can not get onto the console, and what it is told. -/
inductive TurnsAway (c : Console) (romHash : String) (requests : List Port) : PlugStatus → Prop
  | started : c.status ≠ .created → c.TurnsAway romHash requests .unspecifiedFailure
  | differs : c.status = .created → c.Differs romHash → c.TurnsAway romHash requests .romMismatch
  | taken : c.status = .created → ¬ c.Differs romHash → ¬ Fits c.occupied requests →
    c.TurnsAway romHash requests .portRequestRejected

variable {c : Console} {romHash : String} {requests : List Port} {status : PlugStatus}

theorem admits_or_turnsAway (c : Console) (romHash : String) (requests : List Port)
    : c.Admits romHash requests ∨ ∃ status, c.TurnsAway romHash requests status := by
  by_cases hstatus : c.status = .created
  . by_cases hhash : c.Differs romHash
    . exact Or.inr ⟨_, .differs hstatus hhash⟩
    . by_cases hports : Fits c.occupied requests
      . exact Or.inl ⟨hstatus, hhash, hports⟩
      . exact Or.inr ⟨_, .taken hstatus hhash hports⟩
  . exact Or.inr ⟨_, .started hstatus⟩

theorem TurnsAway.not_admits (h : c.TurnsAway romHash requests status)
    : ¬ c.Admits romHash requests := by
  intro hadmits
  cases h with
  | started hstatus => exact hstatus hadmits.status
  | differs _ hhash => exact hadmits.hash hhash
  | taken _ _ hports => exact hports hadmits.ports

theorem TurnsAway.ne_success (h : c.TurnsAway romHash requests status) : status ≠ .success := by
  cases h <;> decide

end Console

namespace Server

variable {s : Server} {request : PlugRequest} {k : Nat} {c : Console}

/-- The server with one more client, on the console at position `k`, which was `c` before. -/
def letIn (s : Server) (k : Nat) (c : Console) (ports : List Port) (delay : Int32) : Server :=
  { s with lobby := {
    (s.lobby.set k { c with
      members := c.members.insert ⟨s.lobby.clientIds.next⟩ { ports := .ofList ports, delay } }) with
        clientIds := ⟨s.lobby.clientIds.next + 1⟩ } }

theorem lookup?_letIn {id : ConsoleId} (h : s.lobby.lookup? id = some (k, c)) (ports : List Port)
    (delay : Int32)
    : (s.letIn k c ports delay).lobby.lookup? id
        =
      some (k, { c with
        members := c.members.insert ⟨s.lobby.clientIds.next⟩ { ports := .ofList ports, delay } }) :=
  Lobby.lookup?_set_self h rfl

theorem set_letIn (ports : List Port) (delay : Int32) (c' : Console)
    : (s.letIn k c ports delay).lobby.set k c'
        =
      { s.lobby.set k c' with clientIds := ⟨s.lobby.clientIds.next + 1⟩ } := by
  rw [← Lobby.set_set s.lobby k _ c']
  rfl

theorem plugController_of_lookup?_eq_none (h : s.lobby.lookup? ⟨request.consoleId⟩ = none)
    : s.plugController request
        =
      ({ consoleId := request.consoleId
         status := Enumeration.number PlugStatus.unspecifiedFailure }, s) := by
  unfold plugController
  rw [h]

theorem plugController_of_admits (hlookup : s.lobby.lookup? ⟨request.consoleId⟩ = some (k, c))
    (hrequests : (requestedPorts request).filter Port.isRequest ≠ [])
    (h : c.Admits request.romHash ((requestedPorts request).filter Port.isRequest))
    : let ports := allotted c.occupied ((requestedPorts request).filter Port.isRequest)
      s.plugController request
        =
      ({ consoleId := request.consoleId
         status := Enumeration.number PlugStatus.success
         clientId := s.lobby.clientIds.next
         ports := ports.map Port.number }, s.letIn k c ports request.delayFrames) := by
  unfold plugController
  rw [hlookup]
  dsimp only
  unfold Lobby.plug
  rw [Console.plug_of_fits ⟨h.status, h.hash, hrequests⟩ h.ports]
  rfl

/-- Whoever is not let in is told why, and the server is what it was. -/
theorem plugController_of_turnsAway (hlookup : s.lobby.lookup? ⟨request.consoleId⟩ = some (k, c))
    (hrequests : (requestedPorts request).filter Port.isRequest ≠ []) {status : PlugStatus}
    (h : c.TurnsAway request.romHash ((requestedPorts request).filter Port.isRequest) status)
    : ∃ response, s.plugController request = (response, s) ∧
        response.consoleId = request.consoleId ∧
        (Enumeration.ofNumber response.status : PlugStatus) = status := by
  have hplugging := plugging_of_console? (Lobby.lookup?_eq_some hlookup).1 request.delayFrames
    (requestedPorts request) request.romHash
  have hfails : ∃ e, c.plug s.lobby.clientIds request.delayFrames (requestedPorts request)
      request.romHash = .error e ∧
        (Enumeration.ofNumber (plugFailure request.consoleId e).status : PlugStatus) = status := by
    cases h with
    | started hstatus => exact ⟨_, hplugging.started hstatus, rfl⟩
    | differs hstatus hhash => exact ⟨_, hplugging.differs hstatus hhash, rfl⟩
    | taken hstatus hhash hports =>
      exact ⟨_, (hplugging.rejected ⟨hstatus, hhash, hrequests⟩ hports).1, rfl⟩
  rcases hfails with ⟨e, he, hstatus⟩
  refine ⟨plugFailure request.consoleId e, ?_, by cases e <;> rfl, hstatus⟩
  unfold plugController
  rw [hlookup]
  dsimp only
  unfold Lobby.plug
  rw [he]

/-- The next identifier is one that an emulator accepts. -/
theorem Allotted.isValid_next {n : Nat} (h : s.Allotted n)
    : (⟨s.lobby.clientIds.next⟩ : ClientId).isValid = true := by
  have := h.next
  unfold ClientId.isValid
  rw [decide_eq_true_eq, Int64.lt_iff_toInt_lt, Int64.toInt_zero]
  dsimp only
  omega

/-- Ports still belong to one client each once the new one is let in. -/
theorem Allotted.letIn {n : Nat} (h : s.Allotted n) {ports : List Port} {delay : Int32}
    (hanswer : (s.plugController request).2 = s.letIn k c ports delay)
    : (s.letIn k c ports delay).Consistent ∧
        ∀ j c', (s.letIn k c ports delay).lobby.console? j = some c' → c'.Exclusive := by
  have hstep : s.step (.plugController request) = s.letIn k c ports delay := hanswer
  rw [← hstep]
  exact ⟨consistent_step h.consistent _, fun _ _ hc => exclusive_step h.consistent h.exclusive hc⟩

end Server
end PadRelay
