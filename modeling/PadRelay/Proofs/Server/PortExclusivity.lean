import PadRelay.Proofs.Server.Claims

/-!
This module contains the proof that ports belong to one client each, on every console and at all times,
as long as the identifiers of clients do not wrap around.
-/

namespace PadRelay
namespace Server

/-- Whether an operation is a request for ports that is served. -/
def served (s : Server) : Operation → Bool
  | .plugController request =>
    (s.plugController request).1.status = Enumeration.number PlugStatus.success
  | _ => false

def successfulPlugs (s : Server) : List Operation → Nat
  | [] => 0
  | op :: ops => (if s.served op then 1 else 0) + (s.step op).successfulPlugs ops

theorem successfulPlugs_append (s : Server) (ops ops' : List Operation)
    : s.successfulPlugs (ops ++ ops') = s.successfulPlugs ops + (s.run ops).successfulPlugs ops' := by
  induction ops generalizing s with
  | nil => simp [successfulPlugs]
  | cons op ops ih => simp [successfulPlugs, ih, Nat.add_assoc]

theorem status_plugFailure (consoleId : Int64) (e : PlugError)
    : (plugFailure consoleId e).status ≠ Enumeration.number PlugStatus.success := by
  cases e <;> simp only [plugFailure] <;> decide

theorem plugController_served {s : Server} {request : PlugRequest}
    (h : s.served (.plugController request) = true)
    : ∃ k c ports, s.lobby.lookup? ⟨request.consoleId⟩ = some (k, c) ∧ c.status = .created ∧
        c.Grantable ports ∧
        s.plugController request
          =
        ({ consoleId := request.consoleId
           status := Enumeration.number PlugStatus.success
           clientId := s.lobby.clientIds.next
           ports := ports.toList.map Port.number },
          { s with lobby := { (s.lobby.set k { c with
              members := c.members.insert ⟨s.lobby.clientIds.next⟩
                { ports, delay := request.delayFrames } }) with
            clientIds := ⟨s.lobby.clientIds.next + 1⟩ } }) := by
  simp only [served, decide_eq_true_eq] at h
  unfold plugController at h
  split at h
  . have : Enumeration.number PlugStatus.unspecifiedFailure
        ≠ Enumeration.number PlugStatus.success := by decide
    exact absurd h this
  . next k c hlookup =>
    split at h
    . exact absurd h (status_plugFailure _ _)
    . next p lobby hplug =>
      have hanswer : s.plugController request
          = ({ consoleId := request.consoleId
               status := Enumeration.number PlugStatus.success
               clientId := p.clientId.value
               ports := p.ports.map Port.number }, { s with lobby }) := by
        simp only [plugController, hlookup, hplug]
      unfold Lobby.plug at hplug
      split at hplug
      . simp at hplug
      . next p' hp =>
        simp only [Except.ok.injEq, Prod.mk.injEq] at hplug
        rcases hplug with ⟨rfl, rfl⟩
        rcases Console.plug_eq_ok hp with ⟨hstatus, hrequests, verdicts, rfl, hall, rfl⟩
        exact ⟨k, c, _, hlookup, hstatus, Console.grantable_of_plug hrequests hall, hanswer⟩

theorem plugController_not_served {s : Server} {request : PlugRequest}
    (h : s.served (.plugController request) = false) : (s.plugController request).2 = s := by
  simp only [served, decide_eq_false_iff_not] at h
  unfold plugController at h ⊢
  split
  . rfl
  . next hlookup =>
    simp only [hlookup] at h
    split at h
    . rfl
    . exact absurd rfl h

/-- A client was added, which owns ports that were free. -/
structure Plugs (s s' : Server) (k : Nat) (ports : PortSet) (delay : Int32) : Prop where
  console : ∃ c, s.lobby.console? k = some c ∧ c.status = .created ∧ c.Grantable ports
  created : ∃ c, s'.lobby.console? k = some c ∧ c.status = .created
  claim? : ∀ j id, s'.claim? j id
    = if j = k ∧ id = ⟨s.lobby.clientIds.next⟩ then some (ports, delay) else s.claim? j id
  consoleId? : ∀ j, s'.consoleId? j = s.consoleId? j
  clientIds : s'.lobby.clientIds = ⟨s.lobby.clientIds.next + 1⟩

theorem plugs_of_served {s : Server} {request : PlugRequest}
    (h : s.served (.plugController request) = true)
    : ∃ k c ports, s.lobby.lookup? ⟨request.consoleId⟩ = some (k, c) ∧
        (s.plugController request).1
          =
        { consoleId := request.consoleId
          status := Enumeration.number PlugStatus.success
          clientId := s.lobby.clientIds.next
          ports := ports.toList.map Port.number } ∧
        s.Plugs (s.step (.plugController request)) k ports request.delayFrames := by
  rcases plugController_served h with ⟨k, c, ports, hlookup, hstatus, hports, hanswer⟩
  have hc := (Lobby.lookup?_eq_some hlookup).1
  have hstep : s.step (.plugController request) = (s.plugController request).2 := rfl
  -- Up to the counter the server becomes what an update of the console makes of it.
  let m : Member := { ports, delay := request.delayFrames }
  let r := ({ c with members := c.members.insert ⟨s.lobby.clientIds.next⟩ m }, s.room)
  have hclaim := claim?_update (r := r) hc
  have hid := consoleId?_update (r := r) hc rfl
  rw [hstep, hanswer]
  refine ⟨k, c, ports, hlookup, rfl, ⟨c, hc, hstatus, hports⟩,
    ⟨r.1, Lobby.console?_set_self hc r.1, hstatus⟩, ?_, hid, rfl⟩
  intro j id
  apply (hclaim j id).trans
  rw [Console.claim?_insert]
  by_cases hj : j = k
  . simp [m, hj, claim?_of_console? hc]
  . simp [hj]

theorem isPlug_acts {s : Server} {op : Operation} (h : ∀ request, op ≠ .plugController request)
    : ∀ a ∈ s.acts op, a.isPlug = false := by
  unfold acts
  cases op with
  | plugController request => exact absurd rfl (h request)
  | makeConsole request => simp [Act.isPlug]
  | startGame request =>
    dsimp
    split <;> simp [Act.isPlug]
  | shutDown request =>
    dsimp
    split
    . intro a ha
      rw [List.mem_append, List.mem_map, List.mem_singleton] at ha
      rcases ha with ⟨k, _, rfl⟩ | rfl <;> rfl
    . simp
  | openStream => simp [Act.isPlug]
  | receive i e =>
    dsimp
    repeat' split
    all_goals simp [Act.isPlug]
  | endStream i =>
    dsimp
    repeat' split
    all_goals simp [Act.isPlug]
  | take i n => simp [Act.isPlug]
  | stopListening i => simp [Act.isPlug]

theorem preserves_step {s : Server} (h : s.Consistent) {op : Operation}
    (hop : s.served op = false) : s.Preserves (s.step op) := by
  by_cases hplug : ∃ request, op = .plugController request
  . rcases hplug with ⟨request, rfl⟩
    unfold step
    dsimp
    rw [plugController_not_served hop]
    exact .refl s
  . rw [step_eq_performAll]
    apply preserves_performAll h
    apply isPlug_acts
    exact fun request heq => hplug ⟨request, heq⟩

theorem plugs_step {s : Server} {op : Operation} (hop : s.served op = true)
    : ∃ k ports delay, s.Plugs (s.step op) k ports delay := by
  cases op with
  | plugController request =>
    rcases plugs_of_served hop with ⟨k, _, ports, _, _, h⟩
    exact ⟨k, ports, request.delayFrames, h⟩
  | _ => simp [served] at hop

theorem exclusive_of_claim?_eq_none {c : Console} (h : ∀ id, c.claim? id = none)
    : c.Exclusive := by
  have hnone : ∀ {id m}, c.members.get? id ≠ some m := by
    intro id m hm
    have := Console.claim?_of_get? hm
    simp [h] at this
  constructor
  . intro id m hm
    exact absurd hm hnone
  . intro id m p hm
    exact absurd hm hnone
  . intro id id' m m' p hm
    exact absurd hm hnone

theorem exclusive_of_preserves {s s' : Server} (h : s.Preserves s')
    (hs : ∀ k c, s.lobby.console? k = some c → c.Exclusive) {k : Nat} {c' : Console}
    (hc' : s'.lobby.console? k = some c') : c'.Exclusive := by
  cases hc : s.lobby.console? k with
  | none =>
    apply exclusive_of_claim?_eq_none
    intro id
    rw [← claim?_of_console? hc', h.claim?]
    simp [claim?, hc]
  | some c =>
    apply (hs k c hc).of_claim?
    intro id
    rw [← claim?_of_console? hc', h.claim?, claim?_of_console? hc]

theorem exclusive_of_plugs {s s' : Server} {k : Nat} {ports : PortSet} {delay : Int32}
    (h : s.Plugs s' k ports delay) (hs : ∀ k c, s.lobby.console? k = some c → c.Exclusive) {j : Nat}
    {c' : Console} (hc' : s'.lobby.console? j = some c') : c'.Exclusive := by
  have hid := h.consoleId? j
  unfold consoleId? at hid
  rw [hc', Option.map_some, eq_comm, Option.map_eq_some_iff] at hid
  rcases hid with ⟨c, hc, _⟩
  by_cases hj : j = k
  . rcases h.console with ⟨c₀, hc₀, _, hports⟩
    rw [← hj, hc, Option.some.injEq] at hc₀
    subst hc₀
    apply ((hs j c hc).insert hports ⟨s.lobby.clientIds.next⟩ delay).of_claim?
    intro id
    rw [← claim?_of_console? hc', h.claim?, Console.claim?_insert, claim?_of_console? hc]
    simp [hj]
  . apply (hs j c hc).of_claim?
    intro id
    rw [← claim?_of_console? hc', h.claim?, ← claim?_of_console? hc]
    simp [hj]

theorem exclusive_step {s : Server} (h : s.Consistent)
    (hs : ∀ k c, s.lobby.console? k = some c → c.Exclusive) {op : Operation} {k : Nat} {c : Console}
    (hc : (s.step op).lobby.console? k = some c) : c.Exclusive := by
  cases hop : s.served op with
  | true =>
    rcases plugs_step hop with ⟨j, ports, delay, hplugs⟩
    exact exclusive_of_plugs hplugs hs hc
  | false => exact exclusive_of_preserves (preserves_step h hop) hs hc

theorem exclusive_run (testMode : Bool) (limit : Option Nat) (ops : List Operation) {k : Nat}
    {c : Console} (hc : ((initial testMode limit).run ops).lobby.console? k = some c)
    : c.Exclusive := by
  have hinitial : ∀ k c, (initial testMode limit).lobby.console? k = some c → c.Exclusive := by
    intro k c hc
    simp [initial, Lobby.console?] at hc
  have hcons := consistent_initial testMode limit
  generalize initial testMode limit = s at hinitial hcons hc
  induction ops generalizing s with
  | nil => exact hinitial k c hc
  | cons op ops ih =>
    exact ih (s.step op) (fun _ _ hc => exclusive_step hcons hinitial hc) (consistent_step hcons op) hc

theorem toInt_add_one {n : Int64} (h : n.toInt + 1 < 0x8000000000000000)
    : (n + 1).toInt = n.toInt + 1 := by
  have hle := Int64.le_toInt n
  rw [Int64.toInt_add, Int64.toInt_one]
  apply Int.bmod_eq_of_le <;> omega

/-- The bookkeeping of clients is in order after `n` requests for ports were served. -/
structure Allotted (n : Nat) (s : Server) : Prop where
  consistent : s.Consistent
  next : s.lobby.clientIds.next.toInt = n + 1
  exclusive : ∀ k c, s.lobby.console? k = some c → c.Exclusive
  drawn : ∀ k id x, s.claim? k id = some x → 1 ≤ id.value.toInt ∧ id.value.toInt ≤ n
  unique : ∀ k j id x y, s.claim? k id = some x → s.claim? j id = some y → k = j

theorem allotted_initial (testMode : Bool) (limit : Option Nat)
    : (initial testMode limit).Allotted 0 where
  consistent := consistent_initial testMode limit
  next := Int64.toInt_one
  exclusive k c hc := by simp [initial, Lobby.console?] at hc
  drawn k id x hx := by simp [claim?, initial, Lobby.console?] at hx
  unique k j id x y hx := by simp [claim?, initial, Lobby.console?] at hx

theorem Allotted.preserves {n : Nat} {s s' : Server} (h : s.Allotted n) (hs : s.Preserves s')
    (hcons : s'.Consistent) : s'.Allotted n where
  consistent := hcons
  next := by
    rw [hs.clientIds]
    exact h.next
  exclusive k c hc := exclusive_of_preserves hs h.exclusive hc
  drawn k id x hx := h.drawn k id x (hs.claim? k id ▸ hx)
  unique k j id x y hx hy := h.unique k j id x y (hs.claim? k id ▸ hx) (hs.claim? j id ▸ hy)

theorem Allotted.fresh {n : Nat} {s : Server} (h : s.Allotted n) (k : Nat)
    : s.claim? k ⟨s.lobby.clientIds.next⟩ = none := by
  cases hx : s.claim? k ⟨s.lobby.clientIds.next⟩ with
  | none => rfl
  | some x =>
    -- Identifiers that belong to somebody were drawn before, so they are smaller than the next one.
    have := (h.drawn k _ x hx).2
    have := h.next
    dsimp at *
    omega

theorem Allotted.plugs {n : Nat} {s s' : Server} (h : s.Allotted n) (hn : n + 1 < 0x7fffffffffffffff)
    {k : Nat} {ports : PortSet} {delay : Int32} (hs : s.Plugs s' k ports delay)
    (hcons : s'.Consistent) : s'.Allotted (n + 1) where
  consistent := hcons
  next := by
    have := h.next
    rw [hs.clientIds]
    dsimp
    rw [toInt_add_one (by omega), this]
  exclusive j c hc := exclusive_of_plugs hs h.exclusive hc
  drawn j id x hx := by
    rw [hs.claim?] at hx
    split at hx
    . next heq =>
      rw [heq.2]
      have := h.next
      dsimp
      omega
    . have := h.drawn j id x hx
      omega
  unique i j id x y hx hy := by
    rw [hs.claim?] at hx hy
    split at hx
    . next heq =>
      split at hy
      . -- Both have the identifier that was just drawn, which is known to one console only.
        next heq' => rw [heq.1, heq'.1]
      . rw [heq.2, h.fresh] at hy
        simp at hy
    . split at hy
      . next heq =>
        rw [heq.2, h.fresh] at hx
        simp at hx
      . exact h.unique i j id x y hx hy

theorem allotted_step {n : Nat} {s : Server} (h : s.Allotted n) (op : Operation)
    (hn : n + (if s.served op then 1 else 0) < 0x7fffffffffffffff)
    : (s.step op).Allotted (n + if s.served op then 1 else 0) := by
  have hcons := consistent_step h.consistent op
  cases hop : s.served op with
  | true =>
    rcases plugs_step hop with ⟨k, ports, delay, hs⟩
    rw [hop] at hn
    exact h.plugs hn hs hcons
  | false => exact h.preserves (preserves_step h.consistent hop) hcons

theorem allotted_run {n : Nat} {s : Server} (h : s.Allotted n) (ops : List Operation)
    (hn : n + s.successfulPlugs ops < 0x7fffffffffffffff)
    : (s.run ops).Allotted (n + s.successfulPlugs ops) := by
  induction ops generalizing n s with
  | nil => exact h
  | cons op ops ih =>
    unfold successfulPlugs at hn ⊢
    rw [run_cons, ← Nat.add_assoc]
    -- Induction on the operations with the number of requests served so far; the counter does not wrap
    -- around as long as that number is small enough.
    apply ih
    . apply allotted_step h op
      omega
    . omega

theorem claim?_step_of_ne {s : Server} (h : s.Consistent) (op : Operation) (k : Nat)
    {id : ClientId} (hne : s.served op = true → id ≠ ⟨s.lobby.clientIds.next⟩)
    : (s.step op).claim? k id = s.claim? k id := by
  cases hop : s.served op with
  | true =>
    rcases plugs_step hop with ⟨j, ports, delay, hs⟩
    rw [hs.claim?, if_neg]
    exact fun heq => hne hop heq.2
  | false => rw [(preserves_step h hop).claim?]

theorem claim?_step {n : Nat} {s : Server} (h : s.Allotted n) (op : Operation) {k : Nat}
    {id : ClientId} {x : PortSet × Int32} (hx : s.claim? k id = some x)
    : (s.step op).claim? k id = some x := by
  rw [claim?_step_of_ne h.consistent, hx]
  intro _ heq
  rw [heq, h.fresh] at hx
  simp at hx

theorem consoleId?_step {s : Server} (h : s.Consistent) (op : Operation) {k : Nat}
    {x : ConsoleId} (hx : s.consoleId? k = some x) : (s.step op).consoleId? k = some x := by
  cases hop : s.served op with
  | true =>
    rcases plugs_step hop with ⟨j, ports, delay, hs⟩
    rw [hs.consoleId?, hx]
  | false => exact (preserves_step h hop).consoleId? k x hx

theorem claim?_run {n : Nat} {s : Server} (h : s.Allotted n) (ops : List Operation)
    (hn : n + s.successfulPlugs ops < 0x7fffffffffffffff) {k : Nat} {id : ClientId} {x : PortSet × Int32}
    (hx : s.claim? k id = some x) : (s.run ops).claim? k id = some x := by
  induction ops generalizing n s with
  | nil => exact hx
  | cons op ops ih =>
    unfold successfulPlugs at hn
    have hstep := allotted_step h op (by omega)
    exact ih hstep (by omega) (claim?_step h op hx)

theorem consoleId?_run {n : Nat} {s : Server} (h : s.Allotted n) (ops : List Operation)
    (hn : n + s.successfulPlugs ops < 0x7fffffffffffffff) {k : Nat} {x : ConsoleId}
    (hx : s.consoleId? k = some x) : (s.run ops).consoleId? k = some x := by
  induction ops generalizing n s with
  | nil => exact hx
  | cons op ops ih =>
    unfold successfulPlugs at hn
    have hstep := allotted_step h op (by omega)
    exact ih hstep (by omega) (consoleId?_step h.consistent op hx)

/--
On every console there are at most four clients, their ports are controller ports that belong to one
client each, the table of delays has an entry for each of them, and all of this is for good.
-/
theorem ports_exclusive (testMode : Bool) (limit : Option Nat) (ops later : List Operation)
    (h : (initial testMode limit).successfulPlugs (ops ++ later) < 0x7fffffffffffffff) {k : Nat}
    {c : Console} (hc : ((initial testMode limit).run ops).lobby.console? k = some c)
    : c.Exclusive ∧
        c.members.size ≤ 4 ∧
        (∀ p d, c.portDelays.get? p = some d ↔
          ∃ id m, c.members.get? id = some m ∧ m.owns p = true ∧ m.delay = d) ∧
        c.portDelays.size = c.ownedPorts.length ∧
        ∃ c', ((initial testMode limit).run (ops ++ later)).lobby.console? k = some c' ∧
          ∀ id m, c.members.get? id = some m →
            ∃ m', c'.members.get? id = some m' ∧ m'.ports = m.ports ∧ m'.delay = m.delay := by
  rw [successfulPlugs_append] at h
  have hops := allotted_run (allotted_initial testMode limit) ops (by omega)
  have hexclusive := hops.exclusive k c hc
  refine ⟨hexclusive, hexclusive.size_le, ?_, hexclusive.size_portDelays, ?_⟩
  . intro p d
    exact hexclusive.get?_portDelays_iff
  . rw [run_append]
    have hid := consoleId?_run hops later (by omega) (consoleId?_of_console? hc)
    unfold consoleId? at hid
    rw [Option.map_eq_some_iff] at hid
    rcases hid with ⟨c', hc', _⟩
    refine ⟨c', hc', ?_⟩
    intro id m hm
    have hclaim : ((initial testMode limit).run ops).claim? k id = some (m.ports, m.delay) := by
      rw [claim?_of_console? hc, Console.claim?_of_get? hm]
    have hclaim := claim?_run hops later (by omega) hclaim
    rwa [claim?_of_console? hc', Console.claim?_eq_some_iff] at hclaim

/-- Two clients on one console, one of which asks for any port. -/
def twoPlugs : List Operation :=
  [.makeConsole { title := "a" },
    .plugController { consoleId := 1, port1 := 2, delayFrames := 3 },
    .plugController { consoleId := 1, port1 := 5, delayFrames := -1 }]

theorem ports_exclusive_twoPlugs
    : (initial false none).successfulPlugs (twoPlugs ++ []) < 0x7fffffffffffffff ∧
        ∃ c, ((initial false none).run twoPlugs).lobby.console? 0 = some c ∧
          c.members.size = 2 ∧ c.Exclusive ∧ c.portDelays.size = 2 := by
  have hplugs : (initial false none).successfulPlugs (twoPlugs ++ []) = 2 := by decide +kernel
  have hsize : (((initial false none).run twoPlugs).lobby.console? 0).map
      (fun c => (c.members.size, c.portDelays.size)) = some (2, 2) := by decide +kernel
  have hlt : (initial false none).successfulPlugs (twoPlugs ++ []) < 0x7fffffffffffffff := by
    rw [hplugs]
    decide
  rw [Option.map_eq_some_iff] at hsize
  rcases hsize with ⟨c, hc, hsize⟩
  rw [Prod.mk.injEq] at hsize
  exact ⟨hlt, c, hc, hsize.1, (ports_exclusive false none twoPlugs [] hlt hc).1, hsize.2⟩

end Server
end PadRelay
