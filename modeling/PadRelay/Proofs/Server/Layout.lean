import PadRelay.Proofs.Server.Traffic

/-!
This module contains the proof that a console starts its game at most once, that all of its clients are
told the same layout of ports, and that this layout is final: from then on nobody is plugged in.
-/

namespace PadRelay
namespace Console

theorem portDelays_congr {c c' : Console} (h : ∀ id, c'.claim? id = c.claim? id)
    : c'.portDelays = c.portDelays := by
  have hdelays : ∀ c : Console, c.portDelays
      = .ofList ((c.members.map fun _ m => (m.ports, m.delay)).values.flatMap fun x =>
          x.1.toList.map fun p => (p, x.2)) := by
    intro c
    unfold portDelays SortedMap.values SortedMap.map
    simp [List.flatMap_map]
  have hclaims : (c'.members.map fun _ m => (m.ports, m.delay))
      = c.members.map fun _ m => (m.ports, m.delay) := by
    apply SortedMap.ext_get?
    intro id
    rw [SortedMap.get?_map, SortedMap.get?_map]
    exact h id
  rw [hdelays, hdelays, hclaims]

theorem startEvent_congr {c c' : Console} (hid : c'.id = c.id)
    (h : ∀ id, c'.claim? id = c.claim? id) : c'.startEvent = c.startEvent := by
  unfold startEvent
  rw [hid, portDelays_congr h]

/--
The entries of `ports` are the ports that members of the console own, in ascending order and each with
the delay of its owner.
-/
structure LaidOut (c : Console) (ports : List ConnectedPort) : Prop where
  delays : ports = c.portDelays.entries.map fun e => { port := e.1.number, delayFrames := e.2 }
  ascending : ports.Pairwise fun x y => x.port < y.port
  owner : ∀ x, x ∈ ports ↔
    ∃ id m p, c.members.get? id = some m ∧ m.owns p = true ∧
      x = { port := p.number, delayFrames := m.delay }

theorem Exclusive.laidOut {c : Console} (h : c.Exclusive)
    : c.LaidOut
        (c.portDelays.entries.map fun e => { port := e.1.number, delayFrames := e.2 }) where
  delays := rfl
  ascending := by
    rw [List.pairwise_map]
    apply List.Pairwise.imp _ c.portDelays.ascending
    intro x y hlt
    exact Int32.lt_iff_toInt_lt.2 hlt
  owner x := by
    rw [List.mem_map]
    constructor
    . rintro ⟨⟨p, d⟩, he, rfl⟩
      rw [← SortedMap.get?_eq_some_iff, h.get?_portDelays_iff] at he
      rcases he with ⟨id, m, hm, hp, rfl⟩
      exact ⟨id, m, p, hm, hp, rfl⟩
    . rintro ⟨id, m, p, hm, hp, rfl⟩
      refine ⟨(p, m.delay), ?_, rfl⟩
      rw [← SortedMap.get?_eq_some_iff, h.get?_portDelays_iff]
      exact ⟨id, m, hm, hp, rfl⟩

end Console

namespace Server

/-- The start event that the console at position `k` produces in an act. -/
def launched (k : Nat) (s : Server) : Act → List IncomingEvent
  | .start j =>
    match s.lobby.console? j with
    | none => []
    | some c =>
      match c.start s.room with
      | .error _ => []
      | .ok _ => if j = k then [c.startEvent] else []
  | _ => []

/-- The game of the console at position `k` is running or over, and `e` is its start event. -/
def Settled (s : Server) (k : Nat) (e : IncomingEvent) : Prop :=
  ∃ c, s.lobby.console? k = some c ∧ c.status ≠ .created ∧ c.startEvent = e

section Layout

variable {s : Server} {k : Nat} {c c' : Console} {a : Act} {e : IncomingEvent}

theorem Changes.isPlug_eq_false (hchanges : s.Changes k c a c') (hstatus : c.status ≠ .created)
    : a.isPlug = false := by
  cases hchanges with
  | plug hcreated => exact absurd hcreated hstatus
  | _ => rfl

theorem Changes.startEvent (hchanges : s.Changes k c a c') (h : s.Consistent)
    (hc : s.lobby.console? k = some c) (ha : a.isPlug = false)
    : c'.startEvent = c.startEvent := by
  apply Console.startEvent_congr
  . exact hchanges.id_eq
  . exact hchanges.claim? h hc ha

theorem Settled.perform (hsettled : s.Settled k e) (h : s.Consistent) (a : Act)
    : (s.perform a).Settled k e := by
  rcases hsettled with ⟨c, hc, hstatus, rfl⟩
  rcases console?_perform_of_some hc a with ⟨c', hc', rfl | hchanges⟩
  . exact ⟨c', hc', hstatus, rfl⟩
  . refine ⟨c', hc', ?_, ?_⟩
    . exact fun hcreated => hstatus (hchanges.created hcreated)
    . exact hchanges.startEvent h hc (hchanges.isPlug_eq_false hstatus)

theorem settled_start (h : s.Consistent) (hc : s.lobby.console? k = some c)
    (hcreated : c.status = .created) (hready : c.allReady = true)
    : (s.perform (.start k)).Settled k c.startEvent := by
  rcases console?_start hc hcreated hready with ⟨c', hc', hstatus⟩
  refine ⟨c', hc', hstatus, ?_⟩
  rcases console?_perform_of_some hc (.start k) with ⟨c'', hc'', heq⟩
  rw [hc', Option.some.injEq] at hc''
  subst hc''
  rcases heq with rfl | hchanges
  . rfl
  . exact hchanges.startEvent h hc rfl

theorem launched_start (hc : s.lobby.console? k = some c) (hcreated : c.status = .created)
    (hready : c.allReady = true) : s.launched k (.start k) = [c.startEvent] := by
  simp only [launched, hc, start_of_created hcreated hready, ↓reduceIte]

theorem launched_cases (s : Server) (k : Nat) (a : Act)
    : s.launched k a = [] ∨
        ∃ c, a = .start k ∧ s.lobby.console? k = some c ∧ c.status = .created ∧
          c.allReady = true ∧ s.launched k a = [c.startEvent] := by
  cases a with
  | start j =>
    by_cases heq : j = k
    . subst heq
      cases hc : s.lobby.console? j with
      | none =>
        left
        simp only [launched, hc]
      | some c =>
        cases hr : c.start s.room with
        | error =>
          left
          simp only [launched, hc, hr]
        | ok r =>
          rcases start_eq_ok hr with ⟨hcreated, hready, _⟩
          exact Or.inr ⟨c, rfl, rfl, hcreated, hready, launched_start hc hcreated hready⟩
    . left
      unfold launched
      dsimp
      split
      . rfl
      . split
        . rfl
        . rw [if_neg heq]
  | _ => exact Or.inl rfl

theorem Settled.launched (hsettled : s.Settled k e) (a : Act) : s.launched k a = [] := by
  rcases launched_cases s k a with hnil | ⟨c', _, hc', hcreated, _⟩
  . exact hnil
  . rcases hsettled with ⟨c, hc, hstatus, _⟩
    rw [hc, Option.some.injEq] at hc'
    rw [hc'] at hstatus
    exact absurd hcreated hstatus

theorem Settled.performAll (hsettled : s.Settled k e) (h : s.Consistent) (acts : List Act)
    : trace (Server.launched k) s acts = [] ∧ (s.performAll acts).Settled k e := by
  induction acts generalizing s with
  | nil => exact ⟨rfl, hsettled⟩
  | cons a acts ih =>
    have ih := ih (hsettled.perform h a) (consistent_perform h a)
    unfold trace
    rw [hsettled.launched, ih.1]
    exact ⟨rfl, ih.2⟩

/-- A game starts at most once. -/
theorem trace_launched (h : s.Consistent) (k : Nat) (acts : List Act)
    : trace (launched k) s acts = [] ∨
        ∃ e, trace (launched k) s acts = [e] ∧ (s.performAll acts).Settled k e := by
  -- Induction on the acts up to the one that starts the game, after which it is settled.
  induction acts generalizing s with
  | nil => exact Or.inl rfl
  | cons a acts ih =>
    unfold trace
    rcases launched_cases s k a with hnil | ⟨c, rfl, hc, hcreated, hready, hlaunched⟩
    . rw [hnil]
      exact ih (consistent_perform h a)
    . have hsettled := settled_start h hc hcreated hready
      rcases hsettled.performAll (consistent_perform h _) acts with ⟨hnil, hsettled⟩
      rw [hlaunched, hnil]
      exact Or.inr ⟨_, rfl, hsettled⟩

theorem trace_launched_of_mem (h : s.Consistent) {acts : List Act}
    (he : e ∈ trace (launched k) s acts)
    : trace (launched k) s acts = [e] ∧ (s.performAll acts).Settled k e := by
  rcases trace_launched h k acts with hnil | ⟨e', heq, hsettled⟩
  . simp [hnil] at he
  . rw [heq, List.mem_singleton] at he
    rw [he]
    exact ⟨heq, hsettled⟩

theorem launched_of_due (h : s.Consistent) {i : Nat} {acts : List Act}
    (he : e ∈ trace (due i) s acts) (hstart : e.start ≠ none)
    : ∃ b, (s.performAll acts).boundTo i = some b ∧ trace (launched b.console) s acts = [e] := by
  rcases mem_trace he with ⟨before, a, after, rfl, hdue⟩
  rcases mem_due_cases hdue with ⟨hnone, _⟩ | ⟨b, c, rfl, hb, hc, hcreated, hready, rfl⟩ |
    ⟨_, _, _, _, _, _, _, _, _, rfl⟩
  . exact absurd hnone hstart
  . refine ⟨b, ?_, ?_⟩
    . rw [performAll_append]
      exact boundTo_performAll (consistent_performAll h before) hb _
    . apply (trace_launched_of_mem h _).1
      rw [trace_append]
      unfold trace
      rw [launched_start hc hcreated hready]
      simp
  . simp at hstart

theorem plugController_of_settled (hc : s.lobby.console? k = some c) (hstatus : c.status ≠ .created)
    (request : PlugRequest)
    : (s.plugController request).2.lobby.console? k = some c ∧
        ((∀ j c', s.lobby.lookup? ⟨request.consoleId⟩ = some (j, c') → j = k) →
          s.plugController request
            =
          ({ consoleId := request.consoleId
             status := Enumeration.number PlugStatus.unspecifiedFailure }, s)) := by
  constructor
  . have hstep : (s.plugController request).2
        = s.performAll (s.acts (.plugController request)) :=
      step_eq_performAll s (.plugController request)
    rw [hstep]
    unfold acts
    dsimp
    split
    . exact hc
    . next j _ _ =>
      rw [performAll_cons, performAll_nil]
      rcases console?_perform_of_some hc
        (.plug j request.delayFrames (requestedPorts request) request.romHash) with
        ⟨c', hc', rfl | hchanges⟩
      . exact hc'
      . have := hchanges.isPlug_eq_false hstatus
        simp [Act.isPlug] at this
  . intro hlookup
    unfold plugController
    split
    . rfl
    . next j c' hfound =>
      have hc' := (Lobby.lookup?_eq_some hfound).1
      rw [hlookup j c' hfound, hc, Option.some.injEq] at hc'
      simp [Lobby.plug, Console.plug, ← hc', hstatus, plugFailure]

end Layout

/--
A console produces at most one start event, and that is the start event which its clients receive. It
tells all ports of the console with their delays, and from then on they never change: nobody can be
plugged in any more.
-/
theorem start_agreed (testMode : Bool) (limit : Option Nat) (ops : List Operation)
    : let s₀ := initial testMode limit
      let acts := s₀.history ops
      (∀ k, (trace (launched k) s₀ acts).length ≤ 1) ∧
        (∀ i e, e ∈ trace (received i) s₀ acts ++ (s₀.run ops).room.pending i → e.start ≠ none →
          ∃ b, (s₀.run ops).boundTo i = some b ∧ trace (launched b.console) s₀ acts = [e]) ∧
        ∀ k e, e ∈ trace (launched k) s₀ acts → ∀ later,
          let s := s₀.run (ops ++ later)
          ∃ c ports, s.lobby.console? k = some c ∧ c.LaidOut ports ∧
            e = { start := some { consoleId := c.id.value, ports } } ∧
            ∀ request, (s.plugController request).2.lobby.console? k = some c ∧
              ((∀ j c', s.lobby.lookup? ⟨request.consoleId⟩ = some (j, c') → j = k) →
                s.plugController request
                  =
                ({ consoleId := request.consoleId
                   status := Enumeration.number PlugStatus.unspecifiedFailure }, s)) := by
  intro s₀ acts
  have hcons : s₀.Consistent := consistent_initial testMode limit
  refine ⟨?_, ?_, ?_⟩
  . intro k
    rcases trace_launched hcons k acts with hnil | ⟨e, heq, _⟩
    . simp [hnil]
    . simp [heq]
  . intro i e he hstart
    rw [run_eq_performAll] at he ⊢
    have hdue := (sublist_performAll hcons i acts).subset he
    have hnone : s₀.room.pending i = [] := rfl
    rw [hnone, List.nil_append] at hdue
    exact launched_of_due hcons hdue hstart
  . intro k e he later s
    have hs : s = (s₀.performAll acts).run later := by
      rw [← run_eq_performAll, ← run_append]
    have hsettled := (trace_launched_of_mem hcons he).2
    have hsettled := (hsettled.performAll (consistent_performAll hcons acts)
      ((s₀.performAll acts).history later)).2
    rw [← run_eq_performAll, ← hs] at hsettled
    rcases hsettled with ⟨c, hc, hstatus, rfl⟩
    have hexclusive := exclusive_run testMode limit (ops ++ later) hc
    exact ⟨c, _, hc, hexclusive.laidOut, rfl, plugController_of_settled hc hstatus⟩

/-- The second player receives the start event, and somebody wants to join after that. -/
theorem start_agreed_exchange
    : let s := (initial false none).run exchange
      ∃ e, e.start = some { consoleId := 1, ports := [{ port := 1 }, { port := 2 }] } ∧
        trace (launched 0) (initial false none) ((initial false none).history exchange) = [e] ∧
        s.plugController { consoleId := 1, port1 := 3 }
          =
        ({ consoleId := 1, status := Enumeration.number PlugStatus.unspecifiedFailure }, s) := by
  have hagreed := start_agreed false none exchange
  have hreceived : ({ start := some { consoleId := 1, ports := [{ port := 1 }, { port := 2 }] } }
      : IncomingEvent) ∈ trace (received 1) (initial false none)
        ((initial false none).history exchange) := by decide +kernel
  rcases hagreed.2.1 1 _ (List.mem_append_left _ hreceived) (by simp) with ⟨b, hb, htrace⟩
  have hbound : ((initial false none).run exchange).boundTo 1 = some ⟨0, ⟨2⟩⟩ := by decide +kernel
  rw [hbound, Option.some.injEq] at hb
  rw [← hb] at htrace
  have hlaunched := htrace ▸ List.mem_singleton_self _
  rcases hagreed.2.2 0 _ hlaunched [] with ⟨c, ports, _, _, _, hplug⟩
  rw [List.append_nil] at hplug
  refine ⟨_, rfl, htrace, (hplug _).2 ?_⟩
  have hlookup : (((initial false none).run exchange).lobby.lookup? ⟨1⟩).map (·.1) = some 0 := by
    decide +kernel
  intro j c' hfound
  rw [hfound] at hlookup
  simpa using hlookup

end Server
end PadRelay
