import PadRelay.Proofs.Party.Seats
import PadRelay.Proofs.Server.Directory

/-!
This module contains receptions: a server and the emulators that ask it for ports, each for a console of
its own choice and as often as it likes. What an emulator believes that it owns is what the server says
that it owns, and nobody else believes to be the same client.
-/

namespace PadRelay

/-- An emulator that asks for ports, and the answer that is on its way to it. -/
structure Applicant where
  emulator : Emulator
  answer : Option PlugResponse := none
deriving DecidableEq, Repr

/-- A server and those who ask it for ports. -/
structure Reception where
  server : Server
  applicants : List Applicant := []

/-- Which client somebody is, and its ports. -/
structure View where
  clientId : ClientId
  ports : List Port
deriving DecidableEq, Repr

def PlugResponse.view (answer : PlugResponse) : View :=
  { clientId := ⟨answer.clientId⟩, ports := answer.ports.map Port.ofNumber }

namespace Applicant

/-- The request for some ports. Nobody asks again before the last call has ended. -/
def request? (x : Applicant) (ports : List Port) : Option PlugRequest :=
  match x.answer with
  | none => (x.emulator.plugRequest ports).toOption
  | some _ => none

def ask (x : Applicant) (s : Server) (ports : List Port) : Applicant :=
  match x.request? ports with
  | none => x
  | some request => { x with answer := some (s.plugController request).1 }

def hear (x : Applicant) : Applicant :=
  match x.answer with
  | none => x
  | some answer => { emulator := (x.emulator.plugged (.ok answer)).2 }

def fail (x : Applicant) (failure : RpcFailure) : Applicant :=
  { emulator := (x.emulator.plugged (.error failure)).2 }

/-- What an applicant believes, and what it is about to believe. -/
def views (x : Applicant) : List View :=
  { clientId := x.emulator.clientId, ports := x.emulator.localPorts } ::
    (x.answer.map PlugResponse.view).toList

theorem plugRequest_of_request? {x : Applicant} {ports : List Port} {request : PlugRequest}
    (h : x.request? ports = some request) : x.emulator.plugRequest ports = .ok request := by
  unfold request? at h
  split at h
  . cases hrequest : x.emulator.plugRequest ports with
    | error e => simp [hrequest, Except.toOption] at h
    | ok request' =>
      rw [hrequest, Except.toOption, Option.some.injEq] at h
      rw [h]
  . simp at h

end Applicant

namespace Reception

inductive Move where
  | arrive (consoleId : ConsoleId) (delay : Int32) (romHash : String)
  /-- The server answers what applicant `h` asks for. -/
  | ask (h : Nat) (ports : List Port)
  /-- Applicant `h` receives the answer. -/
  | hear (h : Nat)
  /-- The call of applicant `h` fails, even if the server has answered. -/
  | fail (h : Nat) (failure : RpcFailure)
  /-- Anything else that happens at the server. -/
  | serve (op : Server.Operation)

def opened (testMode : Bool) (limit : Option Nat) : Reception :=
  { server := Server.initial testMode limit }

def operation? (r : Reception) : Move → Option Server.Operation
  | .ask h ports =>
    (r.applicants[h]?).bind fun x => (x.request? ports).map .plugController
  | .serve op => some op
  | _ => none

/-- The reception after a move. A move that is not possible changes nothing. -/
def step (r : Reception) (m : Move) : Reception where
  server := r.server.run (r.operation? m).toList
  applicants :=
    match m with
    | .arrive consoleId delay romHash =>
      r.applicants ++ [{ emulator := { consoleId, delay, romHash } }]
    | .ask h ports => r.applicants.modify h (·.ask r.server ports)
    | .hear h => r.applicants.modify h (·.hear)
    | .fail h failure => r.applicants.modify h (·.fail failure)
    | .serve _ => r.applicants

def run (r : Reception) (moves : List Move) : Reception :=
  moves.foldl step r

/-- What the server does in a run. -/
def operations (r : Reception) (moves : List Move) : List Server.Operation :=
  answers step operation? r moves

theorem server_run (r : Reception) (moves : List Move)
    : (r.run moves).server = r.server.run (r.operations moves) := by
  induction moves generalizing r with
  | nil => rfl
  | cons m moves ih =>
    unfold operations answers
    rw [Server.run_append]
    exact ih (r.step m)

end Reception

/-- Some console with this identifier has such a client. -/
def Server.Grants (s : Server) (consoleId : ConsoleId) (delay : Int32) (v : View) : Prop :=
  ∃ k ports, s.consoleId? k = some consoleId ∧ s.claim? k v.clientId = some (ports, delay) ∧
    ports.toList = v.ports

theorem Server.Counted.grants_step {n : Nat} {s : Server} (h : s.Counted n) {op : Operation}
    (hfew : s.served op = true → n < 0x10000000000000000) {consoleId : ConsoleId} {delay : Int32}
    {v : View} (hv : s.Grants consoleId delay v) : (s.step op).Grants consoleId delay v := by
  rcases hv with ⟨k, ports, hid, hclaim, hports⟩
  refine ⟨k, ports, consoleId?_step h.consistent op hid, ?_, hports⟩
  rw [claim?_step_of_ne h.consistent, hclaim]
  intro hserved heq
  rw [heq, h.fresh (hfew hserved)] at hclaim
  simp at hclaim

namespace Reception

/-- Nobody believes to be the client with this identifier. -/
def Unclaimed (r : Reception) (id : ClientId) : Prop :=
  ∀ (h : Nat) x v, r.applicants[h]? = some x → v ∈ x.views → v.clientId ≠ id

/--
The server has served `n` requests for ports. Whoever believes to be a client is one, and is the only one
to believe that.
-/
structure Sound (n : Nat) (r : Reception) : Prop where
  counted : r.server.Counted n
  granted : ∀ (h : Nat) x v, r.applicants[h]? = some x → v ∈ x.views → v.clientId ≠ {} →
    r.server.Grants x.emulator.consoleId x.emulator.delay v
  distinct : ∀ (h h' : Nat) x x' v v', r.applicants[h]? = some x → r.applicants[h']? = some x' →
    v ∈ x.views → v' ∈ x'.views → v.clientId = v'.clientId → v.clientId ≠ {} → h = h'

theorem sound_opened (testMode : Bool) (limit : Option Nat) : (opened testMode limit).Sound 0 where
  counted := Server.counted_initial testMode limit
  granted h x v hx := by simp [opened] at hx
  distinct h h' x x' v v' hx := by simp [opened] at hx

variable {n : Nat} {r : Reception}

theorem Sound.unclaimed_next (h : r.Sound n) (hn : n < 0x10000000000000000)
    {id : ClientId} (hid : id = ⟨r.server.lobby.clientIds.next⟩) (hne : id ≠ {})
    : r.Unclaimed id := by
  intro i x v hx hv heq
  rcases h.granted i x v hx hv (heq ▸ hne) with ⟨k, ports, _, hclaim, _⟩
  rw [heq, hid, h.counted.fresh hn] at hclaim
  simp at hclaim

theorem Sound.serve (h : r.Sound n) {op : Server.Operation}
    (hfew : r.server.served op = true → n < 0x10000000000000000)
    : Sound (n + r.server.successfulPlugs [op]) { r with server := r.server.step op } where
  counted := by
    unfold Server.successfulPlugs Server.successfulPlugs
    rw [Server.served_eq_any]
    rcases Server.counted_step h.counted op with ⟨hfailed, hkept⟩ | ⟨x, hx, hplugged, _, hnext⟩
    . have hnone : (r.server.plugAnswer? op).any Server.isPlugged = false := by
        cases hx : r.server.plugAnswer? op with
        | none => rfl
        | some x => exact hfailed x hx
      rw [hnone]
      exact hkept
    . rw [hx, Option.any_some, hplugged]
      exact hnext
  granted i x v hx hv hne := h.counted.grants_step hfew (h.granted i x v hx hv hne)
  distinct := h.distinct

/-- What an applicant may come to believe: what is already on its way, or what is new to everybody. -/
structure Admits (r : Reception) (x x' : Applicant) : Prop where
  consoleId : x'.emulator.consoleId = x.emulator.consoleId
  delay : x'.emulator.delay = x.emulator.delay
  views : ∀ v ∈ x'.views, v.clientId ≠ {} → v ∈ x.views ∨
    (r.server.Grants x.emulator.consoleId x.emulator.delay v ∧ r.Unclaimed v.clientId)

theorem Admits.of_subset {x x' : Applicant} (hconsole : x'.emulator.consoleId = x.emulator.consoleId)
    (hdelay : x'.emulator.delay = x.emulator.delay) (hviews : x'.views ⊆ x.views)
    : r.Admits x x' :=
  ⟨hconsole, hdelay, fun _ hv _ => Or.inl (hviews hv)⟩

theorem Sound.modify (h : r.Sound n) {a : Nat} {f : Applicant → Applicant}
    (hf : ∀ x, r.applicants[a]? = some x → r.Admits x (f x))
    : Sound n { r with applicants := r.applicants.modify a f } where
  counted := h.counted
  granted i x' v hx' hv hne := by
    rcases getElem?_modify_cases hx' with ⟨x, hx, ⟨rfl, rfl⟩ | ⟨_, rfl⟩⟩
    . have hadmits := hf x hx
      rw [hadmits.consoleId, hadmits.delay]
      rcases hadmits.views v hv hne with hv | ⟨hgrants, _⟩
      . exact h.granted a x v hx hv hne
      . exact hgrants
    . exact h.granted i x' v hx hv hne
  distinct i j x' y' v w hx' hy' hv hw heq hne := by
    rcases getElem?_modify_cases hx' with ⟨x, hx, ⟨hi, rfl⟩ | ⟨hi, rfl⟩⟩
    . rcases getElem?_modify_cases hy' with ⟨y, hy, ⟨hj, rfl⟩ | ⟨hj, rfl⟩⟩
      . rw [← hi, hj]
      . subst hi
        rcases (hf x hx).views v hv hne with hv | ⟨_, hunclaimed⟩
        . exact h.distinct a j x y' v w hx hy hv hw heq hne
        . exact absurd heq.symm (hunclaimed j y' w hy hw)
    . rcases getElem?_modify_cases hy' with ⟨y, hy, ⟨hj, rfl⟩ | ⟨hj, rfl⟩⟩
      . subst hj
        rcases (hf y hy).views w hw (heq ▸ hne) with hw | ⟨_, hunclaimed⟩
        . exact h.distinct i a x' y v w hx hy hv hw heq hne
        . exact absurd heq (hunclaimed i x' v hx hv)
      . exact h.distinct i j x' y' v w hx hy hv hw heq hne

theorem Sound.arrive (h : r.Sound n) (consoleId : ConsoleId) (delay : Int32) (romHash : String)
    : Sound n (r.step (.arrive consoleId delay romHash)) := by
  -- A newcomer is no client yet.
  have hback : ∀ {i : Nat} {x : Applicant} {v : View}, (r.step (.arrive consoleId delay romHash)).applicants[i]? = some x →
      v ∈ x.views → v.clientId ≠ {} → r.applicants[i]? = some x := by
    intro i x v hx hv hne
    rcases getElem?_append_toList_cases (o := some _) hx with hx | ⟨_, hx⟩
    . exact hx
    . rw [Option.some.injEq] at hx
      subst hx
      rw [List.mem_singleton.1 hv] at hne
      exact absurd rfl hne
  refine ⟨h.counted, ?_, ?_⟩
  . intro i x v hx hv hne
    exact h.granted i x v (hback hx hv hne) hv hne
  . intro i j x y v w hx hy hv hw heq hne
    exact h.distinct i j x y v w (hback hx hv hne) (hback hy hw (heq ▸ hne)) hv hw heq hne

theorem admits_hear (r : Reception) (x : Applicant) : r.Admits x x.hear := by
  unfold Applicant.hear
  split
  . exact .of_subset rfl rfl (List.Subset.refl _)
  . next answer hanswer =>
    unfold Emulator.plugged
    dsimp
    split
    . exact .of_subset rfl rfl (by simp [Applicant.views])
    . exact .of_subset rfl rfl (by simp [Applicant.views, PlugResponse.view, hanswer])

theorem admits_fail (r : Reception) (x : Applicant) (failure : RpcFailure)
    : r.Admits x (x.fail failure) :=
  .of_subset rfl rfl (by simp [Applicant.views, Applicant.fail, Emulator.plugged])

/-- An answer that makes somebody a client tells what is the case, and is news to everybody. -/
theorem Sound.answered (h : r.Sound n) {e : Emulator} {ports : List Port} {request : PlugRequest}
    (hrequest : e.plugRequest ports = .ok request)
    (hfew : r.server.served (.plugController request) = true → n < 0x10000000000000000)
    (hne : (r.server.plugController request).1.view.clientId ≠ {})
    : (r.server.step (.plugController request)).Grants e.consoleId e.delay
          (r.server.plugController request).1.view ∧
        r.Unclaimed (r.server.plugController request).1.view.clientId := by
  cases hserved : r.server.served (.plugController request) with
  | false =>
    have hanswer : r.server.plugAnswer? (.plugController request)
        = some (request, (r.server.plugController request).1) := rfl
    have hnone := (Server.plugAnswer?_eq_some hanswer).2 hserved
    rw [PlugResponse.view, hnone.1] at hne
    exact absurd rfl hne
  | true =>
    rcases Server.plugs_of_served hserved with ⟨k, c, granted, hlookup, hanswer, hplugs⟩
    rcases plugRequest_eq_ok hrequest with ⟨hid, hdelay⟩
    have hc := Lobby.lookup?_eq_some hlookup
    have hclient : (r.server.plugController request).1.view.clientId
        = ⟨r.server.lobby.clientIds.next⟩ := by
      rw [hanswer]
      rfl
    refine ⟨⟨k, granted, ?_, ?_, ?_⟩, h.unclaimed_next (hfew hserved) hclient hne⟩
    . rw [hplugs.consoleId?, Server.consoleId?_of_console? hc.1, hc.2, hid]
    . rw [hplugs.claim?, if_pos ⟨rfl, hclient⟩, hdelay]
    . rw [hanswer]
      exact (ofNumber_ports granted.toList).symm

theorem Sound.ask (h : r.Sound n) {a : Nat} {ports : List Port}
    (hfew : ∀ op, r.operation? (.ask a ports) = some op → r.server.served op = true →
      n < 0x10000000000000000)
    : Sound (n + r.server.successfulPlugs (r.operation? (.ask a ports)).toList)
        (r.step (.ask a ports)) := by
  unfold step
  cases hop : r.operation? (.ask a ports) with
  | none =>
    apply h.modify
    intro x hx
    unfold operation? at hop
    simp only [hx, Option.bind_some, Option.map_eq_none_iff] at hop
    unfold Applicant.ask
    rw [hop]
    exact .of_subset rfl rfl (List.Subset.refl _)
  | some op =>
    have hnext := hfew op hop
    apply (h.serve hnext).modify
    intro x hx
    unfold operation? at hop
    simp only [hx, Option.bind_some, Option.map_eq_some_iff] at hop
    rcases hop with ⟨request, hrequest, rfl⟩
    have hok := Applicant.plugRequest_of_request? hrequest
    unfold Applicant.ask
    rw [hrequest]
    refine ⟨rfl, rfl, ?_⟩
    intro v hv hne
    cases List.mem_cons.1 hv with
    | inl hv => exact Or.inl (hv ▸ List.mem_cons_self)
    | inr hv =>
      right
      rw [Option.map_some, Option.toList_some, List.mem_singleton] at hv
      subst hv
      exact h.answered hok hnext hne

/-- One move keeps everything in order, and counts one more request if it serves one. -/
theorem sound_step (h : r.Sound n) (m : Move)
    (hfew : n + r.server.successfulPlugs (r.operation? m).toList ≤ 0x10000000000000000)
    : Sound (n + r.server.successfulPlugs (r.operation? m).toList) (r.step m) := by
  have hserved : ∀ op, r.operation? m = some op → r.server.served op = true →
      n < 0x10000000000000000 := by
    intro op hop hserved
    rw [hop, Option.toList_some] at hfew
    unfold Server.successfulPlugs Server.successfulPlugs at hfew
    rw [if_pos hserved] at hfew
    omega
  cases m with
  | arrive consoleId delay romHash => exact h.arrive consoleId delay romHash
  | ask a ports => exact h.ask hserved
  | hear a => exact h.modify fun x _ => admits_hear r x
  | fail a failure => exact h.modify fun x _ => admits_fail r x failure
  | serve op => exact h.serve (hserved op rfl)

theorem sound_run (h : r.Sound n) (moves : List Move)
    (hfew : n + r.server.successfulPlugs (r.operations moves) ≤ 0x10000000000000000)
    : Sound (n + r.server.successfulPlugs (r.operations moves)) (r.run moves) := by
  induction moves generalizing n r with
  | nil => exact h
  | cons m moves ih =>
    have hsplit : r.server.successfulPlugs (r.operations (m :: moves))
        = r.server.successfulPlugs (r.operation? m).toList +
          (r.step m).server.successfulPlugs ((r.step m).operations moves) :=
      Server.successfulPlugs_append r.server _ _
    rw [hsplit, ← Nat.add_assoc] at hfew ⊢
    exact ih (sound_step h m (by omega)) hfew

/--
Whoever has a positive identifier is a client of a console that has the right identifier, and the ports
and the delay of this client are the ones that it believes in. While that console is on the list it is the
one that is found under its identifier. No two have the same positive identifier.
-/
theorem views_agree (testMode : Bool) (limit : Option Nat) (moves : List Move)
    (hfew : (Server.initial testMode limit).successfulPlugs
      ((opened testMode limit).operations moves) ≤ 0x10000000000000000)
    : let r := (opened testMode limit).run moves
      let l := r.server.lobby
      (∀ (h : Nat) x, r.applicants[h]? = some x → 0 < x.emulator.clientId.value →
        x.emulator.localPorts.Pairwise (fun p q => rank p < rank q) ∧
        (∀ p ∈ x.emulator.localPorts, p ∈ Port.controllers) ∧
        ∃ k c m, l.console? k = some c ∧ c.id = x.emulator.consoleId ∧
          c.members.get? x.emulator.clientId = some m ∧
          m.ports.toList = x.emulator.localPorts ∧ m.delay = x.emulator.delay ∧
          (l.isListed k = true → l.lookup? x.emulator.consoleId = some (k, c)) ∧
          (l.consoles.length ≤ 0x10000000000000000 →
            ∀ j c', l.lookup? x.emulator.consoleId = some (j, c') → j = k ∧ c' = c)) ∧
        ∀ (h h' : Nat) x x', r.applicants[h]? = some x → r.applicants[h']? = some x' →
          0 < x.emulator.clientId.value → x.emulator.clientId = x'.emulator.clientId → h = h' := by
  intro r l
  have hsound := sound_run (sound_opened testMode limit) moves (by rwa [Nat.zero_add])
  have hserver : r.server = (Server.initial testMode limit).run
      ((opened testMode limit).operations moves) := server_run (opened testMode limit) moves
  have hvalid : ∀ {x : Applicant}, 0 < x.emulator.clientId.value → x.emulator.clientId ≠ {} := by
    intro x hpos heq
    rw [heq] at hpos
    exact absurd hpos (by decide)
  constructor
  . intro h x hx hpos
    rcases hsound.granted h x _ hx List.mem_cons_self (hvalid hpos) with ⟨k, ports, hid, hclaim, hports⟩
    rcases Server.claim?_eq_some_iff.1 hclaim with ⟨c, m, hc, hm, rfl, hdelay⟩
    rw [Server.consoleId?_of_console? hc, Option.some.injEq] at hid
    dsimp at hports
    have hexclusive : c.Exclusive := Server.exclusive_run testMode limit _ (hserver ▸ hc)
    have hunambiguous : l.Unambiguous := by
      show r.server.lobby.Unambiguous
      rw [hserver]
      exact Server.unambiguous_run testMode limit _
    have hnumbered : l.Numbered := by
      show r.server.lobby.Numbered
      rw [hserver]
      exact Server.numbered_run testMode limit _
    refine ⟨?_, ?_, k, c, m, hc, hid, hm, hports, hdelay, ?_, ?_⟩
    . rw [← hports]
      exact List.pairwise_map.2 m.ports.ascending
    . intro p hp
      rw [← hports, PortSet.mem_toList] at hp
      exact hexclusive.controller _ m p hm hp
    . intro hlisted
      rw [← hid]
      exact hunambiguous.lookup? hlisted hc
    . intro hconsoles j c' hlookup
      rcases Lobby.lookup?_eq_some hlookup with ⟨hc', hid'⟩
      have heq := hnumbered.eq_of_id hconsoles hc' hc (hid'.trans hid.symm)
      subst heq
      rw [hc, Option.some.injEq] at hc'
      exact ⟨rfl, hc'.symm⟩
  . intro h h' x x' hx hx' hpos heq
    exact hsound.distinct h h' x x' _ _ hx hx' List.mem_cons_self List.mem_cons_self heq (hvalid hpos)

/--
The second applicant is refused before it is given a port. The answer to the first request of the third
one is lost, and so is the port that it was given.
-/
def visitors : List Move :=
  [.serve (.makeConsole {}),
    .serve (.makeConsole {}),
    .arrive ⟨1⟩ 3 "",
    .arrive ⟨1⟩ 0 "",
    .arrive ⟨2⟩ 1 "",
    .ask 0 [.two, .unknown],
    .ask 1 [.two],
    .hear 1,
    .hear 0,
    .ask 1 [.any],
    .ask 2 [.one],
    .fail 2 ⟨.deadlineExceeded, ""⟩,
    .ask 2 [.one],
    .hear 2,
    .ask 2 [.any],
    .hear 2,
    .hear 1]

theorem views_agree_visitors
    : let r := (opened false none).run visitors
      let l := r.server.lobby
      r.applicants.map (·.emulator.clientId) = [⟨1⟩, ⟨2⟩, ⟨4⟩] ∧
        (∃ k c m, l.lookup? ⟨1⟩ = some (k, c) ∧ c.members.get? ⟨2⟩ = some m ∧
          m.ports.toList = [.one] ∧ m.delay = 0) ∧
        (∃ k c m, l.lookup? ⟨2⟩ = some (k, c) ∧ c.members.get? ⟨4⟩ = some m ∧
          m.ports.toList = [.two] ∧ m.delay = 1) ∧
        ∀ (h : Nat) x, r.applicants[h]? = some x → x.emulator.clientId = ⟨4⟩ → h = 2 := by
  intro r l
  have hfew : (Server.initial false none).successfulPlugs ((opened false none).operations visitors)
      ≤ 0x10000000000000000 := by
    decide +kernel
  have hsecond : r.applicants[1]? = some
      { emulator := { consoleId := ⟨1⟩, clientId := ⟨2⟩, localPorts := [.one] } } := by
    decide +kernel
  have hthird : r.applicants[2]? = some
      { emulator := { consoleId := ⟨2⟩, clientId := ⟨4⟩, delay := 1, localPorts := [.two] } } := by
    decide +kernel
  have hids : r.applicants.map (·.emulator.clientId) = [⟨1⟩, ⟨2⟩, ⟨4⟩] := by decide +kernel
  have hlisted : ∀ k < 2, l.isListed k = true := by decide +kernel
  have hconsoles : l.consoles.length = 2 := by decide +kernel
  rcases views_agree false none visitors hfew with ⟨hviews, hdistinct⟩
  refine ⟨hids, ?_, ?_, ?_⟩
  . rcases hviews 1 _ hsecond (by decide) with ⟨_, _, k, c, m, hc, _, hm, hports, hdelay, hlookup, _⟩
    have hk := hlisted k (hconsoles ▸ Lobby.lt_length_of_console? hc)
    exact ⟨k, c, m, hlookup hk, hm, hports, hdelay⟩
  . rcases hviews 2 _ hthird (by decide) with ⟨_, _, k, c, m, hc, _, hm, hports, hdelay, hlookup, _⟩
    have hk := hlisted k (hconsoles ▸ Lobby.lt_length_of_console? hc)
    exact ⟨k, c, m, hlookup hk, hm, hports, hdelay⟩
  . intro h x hx heq
    exact (hdistinct 2 h _ x hthird hx (by decide) heq.symm).symm

end Reception
end PadRelay
