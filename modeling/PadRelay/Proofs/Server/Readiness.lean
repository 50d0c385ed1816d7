import PadRelay.Proofs.Server.Attendance

/-!
This module contains the proof that games only start complete: everybody who was ever plugged into the
console is ready at that moment and still listens to it. Who is ready or plays holds a mailbox, and who
is done stays done, so a client that leaves before the start keeps the game from ever starting.
-/

namespace PadRelay
namespace Lobby

theorem find?_of_lookup? {l : Lobby} {id : ConsoleId} {k : Nat} {c : Console}
    (h : l.lookup? id = some (k, c)) : l.find? id = some k := by
  simp only [lookup?, Option.bind_eq_some_iff, Option.map_eq_some_iff, Prod.mk.injEq] at h
  rcases h with ⟨j, hfind, _, _, rfl, _⟩
  exact hfind

end Lobby

namespace Server

/-- Client `id` was plugged into the console at position `k` by one of the operations. -/
def PluggedIn (s : Server) (ops : List Operation) (k : Nat) (id : ClientId) : Prop :=
  ∃ before request after, ops = before ++ .plugController request :: after ∧
    (s.run before).lobby.find? ⟨request.consoleId⟩ = some k ∧
    ((s.run before).plugController request).1.status = Enumeration.number PlugStatus.success ∧
    ((s.run before).plugController request).1.clientId = id.value

/-- One of the operations is an event of stream `i` that names client `b` as ready. -/
def Announced (s : Server) (ops : List Operation) (i : Nat) (b : Binding) : Prop :=
  ∃ before e after ready, ops = before ++ .receive i e :: after ∧ e.ready = some ready ∧
    (s.run before).lobby.find? ⟨ready.consoleId⟩ = some b.console ∧
    ready.clientId = b.clientId.value

/--
The members of the console at position `k` hold a mailbox, unless they are done or still wait for their
stream.
-/
def Linked (s : Server) (k : Nat) : Prop :=
  ∀ c id m, s.lobby.console? k = some c → c.members.get? id = some m → m.status ≠ .done →
    (m.status = .created → ∃ i, s.boundTo i = some ⟨k, id⟩) → ∃ i, m.mailbox = some i

/-- Member `id` of the console at position `k` is done. -/
def Gone (s : Server) (k : Nat) (id : ClientId) : Prop :=
  ∃ c m, s.lobby.console? k = some c ∧ c.members.get? id = some m ∧ m.status = .done

/-- No client has the identifier that is drawn next. -/
def Undrawn (s : Server) : Prop :=
  ∀ k, s.claim? k ⟨s.lobby.clientIds.next⟩ = none

section Perform

variable {s : Server} {k : Nat} {c c' : Console} {id : ClientId} {m m' : Member} {a : Act}

/-- What a member was before an act: a client of nobody, or a member that the act treated. -/
theorem treats_of_perform (h : s.Consistent)
    (hc' : (s.perform a).lobby.console? k = some c') (hm' : c'.members.get? id = some m')
    : ((∀ i, s.boundTo i ≠ some ⟨k, id⟩) ∧ m'.status = .created) ∨
        ∃ c m, s.lobby.console? k = some c ∧ c.members.get? id = some m ∧
          s.Treats k id m a m' := by
  have hunbound : (∀ c m, s.lobby.console? k = some c → c.members.get? id ≠ some m) →
      ∀ i, s.boundTo i ≠ some ⟨k, id⟩ := by
    intro hno i hb
    rcases h.bound i _ hb with ⟨c, m, hc, hm⟩
    exact hno c m hc hm
  cases hc : s.lobby.console? k with
  | none =>
    rw [(console?_perform_of_none hc hc').2] at hm'
    simp at hm'
  | some c =>
    cases hm : c.members.get? id with
    | none =>
      left
      rcases console?_perform_of_some hc a with ⟨c'', hc'', heq⟩
      rw [hc', Option.some.injEq] at hc''
      subst hc''
      rcases heq with rfl | hchanges
      . rw [hm] at hm'
        simp at hm'
      . refine ⟨hunbound ?_, (hchanges.newcomer h hc hm hm').2.1⟩
        intro c₁ m₁ hc₁ hm₁
        rw [hc, Option.some.injEq] at hc₁
        rw [← hc₁, hm] at hm₁
        simp at hm₁
    | some m =>
      right
      rcases treats_perform h hc hm a with ⟨c'', m'', hc'', hm'', ht⟩
      rw [hc', Option.some.injEq] at hc''
      subst hc''
      rw [hm', Option.some.injEq] at hm''
      subst hm''
      exact ⟨c, m, rfl, hm, ht⟩

theorem Undrawn.ne (hfresh : s.Undrawn) (hc : s.lobby.console? k = some c)
    (hm : c.members.get? id = some m) : id ≠ ⟨s.lobby.clientIds.next⟩ := by
  intro heq
  have hclaim := hfresh k
  rw [← heq, claim?_of_console? hc, Console.claim?_of_get? hm] at hclaim
  simp at hclaim

theorem boundTo_of_perform (hb : ∃ i, (s.perform a).boundTo i = some ⟨k, id⟩)
    : (∃ i, s.boundTo i = some ⟨k, id⟩) ∨ ∃ i, (s.perform a).Holds k id i := by
  rcases hb with ⟨i, hb⟩
  rcases boundTo_perform_cases s a i with heq | ⟨ready, stream, b, s', rfl, hstream, hbind, hb'⟩
  . exact Or.inl ⟨i, by rw [← heq, hb]⟩
  . right
    rw [hb, Option.some.injEq] at hb'
    subst hb'
    have hs' : s.perform (.bind i ready) = s' := by
      simp [perform, hstream, hbind]
    rcases bind?_eq_ok hbind with ⟨_, _, box, _, _, _, _, hsink, _⟩
    rw [hs']
    exact ⟨box, (holds_bind hbind).2 (Or.inr ⟨rfl, rfl, hsink⟩)⟩

theorem Linked.perform (hl : s.Linked k) (h : s.Consistent)
    (hfresh : a.isPlug = true → s.Undrawn) : (s.perform a).Linked k := by
  intro c' id m' hc' hm' hgoes hbound
  by_cases hheld : ∃ i, (s.perform a).Holds k id i
  . rcases hheld with ⟨i, c'', m'', hc'', hm'', hi⟩
    rw [hc', Option.some.injEq] at hc''
    subst hc''
    rw [hm', Option.some.injEq] at hm''
    subst hm''
    exact ⟨i, hi⟩
  . have hbound : m'.status = .created → ∃ i, s.boundTo i = some ⟨k, id⟩ := by
      intro hcreated
      exact (boundTo_of_perform (hbound hcreated)).resolve_right hheld
    rcases treats_of_perform h hc' hm' with ⟨hunbound, hcreated⟩ | ⟨c, m, hc, hm, ht⟩
    . rcases hbound hcreated with ⟨i, hb⟩
      exact absurd hb (hunbound i)
    . cases ht with
      | spare => exact hl c id m' hc hm hgoes hbound
      | replace heq => exact absurd heq ((hfresh rfl).ne hc hm)
      | bind => exact ⟨_, rfl⟩
      | @undergo _ ready fate hready hplays =>
        rcases Member.undergo_cases ready (s.addresses k id a) fate m s.room with
          ⟨hdone, _⟩ | ⟨hmailbox, hsame | ⟨hmarked, hcreated, _⟩ | ⟨hfate, _⟩⟩
        . exact absurd hdone hgoes
        . rw [hmailbox]
          rw [hsame] at hgoes hbound
          exact hl c id m hc hm hgoes hbound
        . -- Who is marked as ready now has a stream, so it held a mailbox before.
          rcases hready hmarked with ⟨i, _, _, hb⟩
          rw [hmailbox]
          exact hl c id m hc hm (by simp [hcreated]) (fun _ => ⟨i, hb⟩)
        . rw [hmailbox]
          have hstatus := (hplays hfate).2
          exact hl c id m hc hm (by simp [hstatus]) (by simp [hstatus])

theorem Gone.perform (hg : s.Gone k id) (h : s.Consistent) (hfresh : a.isPlug = true → s.Undrawn)
    : (s.perform a).Gone k id := by
  rcases hg with ⟨c, m, hc, hm, hdone⟩
  rcases treats_perform h hc hm a with ⟨c', m', hc', hm', ht⟩
  refine ⟨c', m', hc', hm', ?_⟩
  cases ht with
  | spare => exact hdone
  | replace heq => exact absurd heq ((hfresh rfl).ne hc hm)
  | bind => exact hdone
  | @undergo _ ready fate _ hplays =>
    rcases Member.undergo_cases ready (s.addresses k id a) fate m s.room with
      ⟨hdone', _⟩ | ⟨_, hsame | ⟨_, hcreated, _⟩ | ⟨hfate, _⟩⟩
    . exact hdone'
    . rw [hsame, hdone]
    . rw [hdone] at hcreated
      simp at hcreated
    . have hready := (hplays hfate).2
      rw [hdone] at hready
      simp at hready

end Perform

section Run

variable {s : Server} {P : Server → Prop} {n : Nat}

/--
What acts keep under a condition that only says something on requests for ports operations keep under the
same condition.
-/
theorem step_of_perform_of {Q : Server → Act → Prop}
    (hperform : ∀ s a, s.Consistent → Q s a → P s → P (s.perform a))
    (hquiet : ∀ s a, a.isPlug = false → Q s a) (h : s.Consistent) {op : Operation}
    (hserved : s.served op = true → ∀ a ∈ s.acts op, Q s a) (hP : P s) : P (s.step op) := by
  by_cases hplug : ∃ request, op = .plugController request
  . rcases hplug with ⟨request, rfl⟩
    cases hs : s.served (.plugController request) with
    | false =>
      unfold step
      dsimp
      rwa [plugController_not_served hs]
    | true =>
      rcases plugController_served hs with ⟨k, c, ports, hlookup, _⟩
      have hacts : s.acts (.plugController request)
          = [.plug k request.delayFrames (requestedPorts request) request.romHash] := by
        simp [acts, hlookup]
      have hQ := hserved hs
      rw [step_eq_performAll, hacts, performAll_cons, performAll_nil]
      rw [hacts] at hQ
      exact hperform s _ h (hQ _ List.mem_cons_self) hP
  . have hacts : ∀ a ∈ s.acts op, a.isPlug = false :=
      isPlug_acts fun request heq => hplug ⟨request, heq⟩
    rw [step_eq_performAll]
    clear hserved
    generalize s.acts op = acts at hacts
    induction acts generalizing s with
    | nil => exact hP
    | cons a acts ih =>
      have ha := hacts a List.mem_cons_self
      rw [performAll_cons]
      apply ih (consistent_perform h a)
      . exact hperform s a h (hquiet s a ha) hP
      . exact fun a ha => hacts a (List.mem_cons_of_mem _ ha)

/-- What acts keep that draw no identifier twice operations keep that do not either. -/
theorem step_of_perform
    (hperform : ∀ s a, s.Consistent → (a.isPlug = true → s.Undrawn) → P s → P (s.perform a))
    (h : s.Consistent) {op : Operation} (hfresh : s.served op = true → s.Undrawn) (hP : P s)
    : P (s.step op) := by
  apply step_of_perform_of hperform _ h _ hP
  . intro s a ha
    simp [ha]
  . intro hserved a _ _
    exact hfresh hserved

theorem run_of_perform
    (hperform : ∀ s a, s.Consistent → (a.isPlug = true → s.Undrawn) → P s → P (s.perform a))
    (h : s.Allotted n) (ops : List Operation) (hn : n + s.successfulPlugs ops < 0x7fffffffffffffff)
    (hP : P s) : P (s.run ops) := by
  induction ops generalizing n s with
  | nil => exact hP
  | cons op ops ih =>
    unfold successfulPlugs at hn
    have hstep := allotted_step h op (by omega)
    exact ih hstep (by omega) (step_of_perform hperform h.consistent (fun _ => h.fresh) hP)

theorem linked_run (testMode : Bool) (limit : Option Nat) (ops : List Operation)
    (h : (initial testMode limit).successfulPlugs ops < 0x7fffffffffffffff) (k : Nat)
    : ((initial testMode limit).run ops).Linked k := by
  have hinitial : (initial testMode limit).Linked k := by
    intro c id m hc
    simp [initial, Lobby.console?] at hc
  exact run_of_perform (P := fun s => s.Linked k) (fun _ _ h hfresh hl => hl.perform h hfresh)
    (allotted_initial testMode limit) ops (by omega) hinitial

theorem Gone.run {k : Nat} {id : ClientId} (hg : s.Gone k id) (h : s.Allotted n)
    (ops : List Operation) (hn : n + s.successfulPlugs ops < 0x7fffffffffffffff)
    : (s.run ops).Gone k id :=
  run_of_perform (P := fun s => s.Gone k id) (fun _ _ h hfresh hg => hg.perform h hfresh) h ops hn hg

theorem pluggedIn_cons {op : Operation} {ops : List Operation} {k : Nat} {id : ClientId}
    (hp : (s.step op).PluggedIn ops k id) : s.PluggedIn (op :: ops) k id := by
  rcases hp with ⟨before, request, after, rfl, hfind, hstatus, hid⟩
  exact ⟨op :: before, request, after, rfl, hfind, hstatus, hid⟩

theorem announced_cons {op : Operation} {ops : List Operation} {i : Nat} {b : Binding}
    (ha : (s.step op).Announced ops i b) : s.Announced (op :: ops) i b := by
  rcases ha with ⟨before, e, after, ready, rfl, hready, hfind, hid⟩
  exact ⟨op :: before, e, after, ready, rfl, hready, hfind, hid⟩

theorem pluggedIn_of_claim? (h : s.Consistent) {ops : List Operation} {k : Nat} {id : ClientId}
    (hclaim : (s.run ops).claim? k id ≠ none) : s.claim? k id ≠ none ∨ s.PluggedIn ops k id := by
  induction ops generalizing s with
  | nil => exact Or.inl hclaim
  | cons op ops ih =>
    rcases ih (consistent_step h op) hclaim with hstep | hp
    . cases hserved : s.served op with
      | false =>
        rw [(preserves_step h hserved).claim?] at hstep
        exact Or.inl hstep
      | true =>
        cases op with
        | plugController request =>
          rcases plugs_of_served hserved with ⟨j, c, ports, hlookup, hanswer, hplugs⟩
          rw [hplugs.claim?] at hstep
          split at hstep
          . next heq =>
            rcases heq with ⟨rfl, rfl⟩
            refine Or.inr ⟨[], request, ops, rfl, Lobby.find?_of_lookup? hlookup, ?_, ?_⟩
            . rw [run_nil, hanswer]
            . rw [run_nil, hanswer]
          . exact Or.inl hstep
        | _ => simp [served] at hserved
    . exact Or.inr (pluggedIn_cons hp)

theorem claim?_of_pluggedIn (h : s.Allotted n) {ops : List Operation}
    (hn : n + s.successfulPlugs ops < 0x7fffffffffffffff) {k : Nat} {id : ClientId}
    (hp : s.PluggedIn ops k id) : (s.run ops).claim? k id ≠ none := by
  rcases hp with ⟨before, request, after, rfl, hfind, hstatus, hid⟩
  have hcons : (s.run before).successfulPlugs (.plugController request :: after)
      = (if (s.run before).served (.plugController request) then 1 else 0) +
        ((s.run before).step (.plugController request)).successfulPlugs after := rfl
  rw [successfulPlugs_append, hcons] at hn
  have hbefore := allotted_run h before (by omega)
  have hserved : (s.run before).served (.plugController request) = true := by
    simp [served, hstatus]
  rcases plugs_of_served hserved with ⟨j, c, ports, hlookup, hanswer, hplugs⟩
  rw [Lobby.find?_of_lookup? hlookup, Option.some.injEq] at hfind
  subst hfind
  rw [hanswer] at hid
  have hclaim : ((s.run before).step (.plugController request)).claim? j id
      = some (ports, request.delayFrames) := by
    rw [hplugs.claim?, if_pos]
    exact ⟨rfl, congrArg ClientId.mk hid.symm⟩
  rw [run_append, run_cons, claim?_run (allotted_step hbefore _ (by omega)) after (by omega) hclaim]
  simp

theorem announced_of_boundTo {ops : List Operation} {i : Nat} {b : Binding}
    (hb : (s.run ops).boundTo i = some b) : s.boundTo i = some b ∨ s.Announced ops i b := by
  induction ops generalizing s with
  | nil => exact Or.inl hb
  | cons op ops ih =>
    rcases ih hb with hstep | ha
    . rcases boundTo_step_cases hstep with hs | ⟨e, ready, c, m, rfl, hready, hlookup, hid, _⟩
      . exact Or.inl hs
      . right
        refine ⟨[], e, ops, ready, rfl, hready, Lobby.find?_of_lookup? hlookup, ?_⟩
        rw [hid]
    . exact Or.inr (announced_cons ha)

end Run

theorem startGame_eq_success {s : Server} {request : StartRequest}
    (h : (s.startGame request).1.status = Enumeration.number StartStatus.success)
    : ∃ k c, s.lobby.lookup? ⟨request.consoleId⟩ = some (k, c) ∧ c.status = .created ∧
        c.allReady = true := by
  have hfailure : Enumeration.number StartStatus.unspecifiedFailure
      ≠ Enumeration.number StartStatus.success := by decide
  unfold startGame at h
  dsimp at h
  split at h
  . exact absurd h hfailure
  . next k c hlookup =>
    split at h
    . exact absurd h hfailure
    . next r hr =>
      rcases start_eq_ok hr with ⟨hcreated, hready, _⟩
      exact ⟨k, c, hlookup, hcreated, hready⟩

/-- A client that is done keeps its console from being started. -/
theorem Gone.startGame {s : Server} {k : Nat} {id : ClientId} (hg : s.Gone k id)
    {request : StartRequest} {c : Console}
    (hlookup : s.lobby.lookup? ⟨request.consoleId⟩ = some (k, c))
    : s.startGame request
        =
      ({ consoleId := request.consoleId,
         status := Enumeration.number StartStatus.unspecifiedFailure }, s) := by
  rcases hg with ⟨c', m, hc', hm, hdone⟩
  rw [(Lobby.lookup?_eq_some hlookup).1, Option.some.injEq] at hc'
  subst hc'
  unfold Server.startGame
  dsimp
  rw [hlookup]
  dsimp
  split
  . rfl
  . next r hr =>
    have hready := Console.ready_of_allReady (start_eq_ok hr).2.1 hm
    rw [hdone] at hready
    simp at hready

/--
In every state a client that is ready or plays holds the mailbox of a stream. A game only starts on a
console that has clients and was not started before, and then every client that was ever plugged in is
ready and holds the mailbox of a stream that named it, belongs to it and has not ended. Once a client is
done no game starts on its console any more.
-/
theorem games_start_complete (testMode : Bool) (limit : Option Nat) (ops later : List Operation)
    (h : (initial testMode limit).successfulPlugs (ops ++ later) < 0x7fffffffffffffff)
    : let s₀ := initial testMode limit
      let s := s₀.run ops
      (∀ k c id m, s.lobby.console? k = some c → c.members.get? id = some m →
        m.status = .ready ∨ m.status = .playing → ∃ i, m.mailbox = some i) ∧
        (∀ request, (s.startGame request).1.status = Enumeration.number StartStatus.success →
          ∃ k c, s.lobby.lookup? ⟨request.consoleId⟩ = some (k, c) ∧ c.status = .created ∧
            (∃ id, s₀.PluggedIn ops k id) ∧
            ∀ id, s₀.PluggedIn ops k id →
              ∃ m i, c.members.get? id = some m ∧ m.status = .ready ∧ m.mailbox = some i ∧
                s.boundTo i = some ⟨k, id⟩ ∧ s.isOpen i = true ∧ s₀.Announced ops i ⟨k, id⟩) ∧
        ∀ k c id m, s.lobby.console? k = some c → c.members.get? id = some m →
          m.status = .done → ∀ request c',
            let s' := s₀.run (ops ++ later)
            s'.lobby.lookup? ⟨request.consoleId⟩ = some (k, c') →
              s'.startGame request
                =
              ({ consoleId := request.consoleId,
                 status := Enumeration.number StartStatus.unspecifiedFailure }, s') := by
  intro s₀ s
  have hs : s.Consistent := consistent_run testMode limit ops
  rw [successfulPlugs_append] at h
  have hlinked := linked_run testMode limit ops (by omega)
  have hactive : ∀ k c id m, s.lobby.console? k = some c → c.members.get? id = some m →
      m.status = .ready ∨ m.status = .playing → ∃ i, m.mailbox = some i := by
    intro k c id m hc hm hstatus
    apply hlinked k c id m hc hm
    . rcases hstatus with hstatus | hstatus <;> simp [hstatus]
    . rcases hstatus with hstatus | hstatus <;> simp [hstatus]
  refine ⟨hactive, ?_, ?_⟩
  . intro request hsuccess
    rcases startGame_eq_success hsuccess with ⟨k, c, hlookup, hcreated, hready⟩
    have hc := (Lobby.lookup?_eq_some hlookup).1
    refine ⟨k, c, hlookup, hcreated, ?_, ?_⟩
    . rcases Console.hasReady_of_allReady hready with ⟨id, m, hm, _⟩
      refine ⟨id, (pluggedIn_of_claim? (consistent_initial testMode limit) ?_).resolve_left ?_⟩
      . rw [claim?_of_console? hc, Console.claim?_of_get? hm]
        simp
      . simp [claim?, initial, Lobby.console?]
    . intro id hp
      have hclaim := claim?_of_pluggedIn (allotted_initial testMode limit) (by omega) hp
      rw [claim?_of_console? hc] at hclaim
      cases hm : c.members.get? id with
      | none => simp [Console.claim?, hm] at hclaim
      | some m =>
        have hstatus := Console.ready_of_allReady hready hm
        rcases hactive k c id m hc hm (Or.inl hstatus) with ⟨i, hi⟩
        have hb := hs.boundTo_of_holds ⟨c, m, hc, hm, hi⟩
        rcases hs.held k id i ⟨c, m, hc, hm, hi⟩ with ⟨stream, hstream, _, hopen⟩
        refine ⟨m, i, rfl, hstatus, hi, hb, isOpen_eq_true_iff.2 ⟨stream, hstream, hopen⟩, ?_⟩
        apply (announced_of_boundTo hb).resolve_left
        simp [s₀, initial, boundTo]
  . intro k c id m hc hm hdone request c' s' hlookup
    have hallotted := allotted_run (allotted_initial testMode limit) ops (by omega)
    have hgone : ((initial testMode limit).run ops).Gone k id := ⟨c, m, hc, hm, hdone⟩
    have hgone := hgone.run hallotted later (by omega)
    rw [← run_append] at hgone
    exact hgone.startGame hlookup

/-- Two players who are ready. -/
def gathering : List Operation :=
  [.makeConsole {},
    .plugController { consoleId := 1, port1 := 1 },
    .plugController { consoleId := 1, port1 := 2 },
    .openStream,
    .openStream,
    .receive 0 { ready := some { consoleId := 1, clientId := 1 } },
    .receive 1 { ready := some { consoleId := 1, clientId := 2 } }]

/-- The first player comes back after it has left. -/
def detour : List Operation :=
  [.openStream, .receive 2 { ready := some { consoleId := 1, clientId := 1 } }]

theorem games_start_complete_gathering
    : let s := (initial false none).run gathering
      let s' := (initial false none).run (gathering ++ [.endStream 0] ++ detour)
      (s.startGame { consoleId := 1 }).1.status = Enumeration.number StartStatus.success ∧
        (∃ c m i, s.lobby.console? 0 = some c ∧ c.members.get? ⟨2⟩ = some m ∧ m.status = .ready ∧
          m.mailbox = some i ∧ s.boundTo i = some ⟨0, ⟨2⟩⟩ ∧ s.isOpen i = true) ∧
        s'.startGame { consoleId := 1 }
          =
        ({ consoleId := 1, status := Enumeration.number StartStatus.unspecifiedFailure }, s') := by
  intro s s'
  have hsuccess : (s.startGame { consoleId := 1 }).1.status
      = Enumeration.number StartStatus.success := by decide +kernel
  have hplugged : (initial false none).PluggedIn gathering 0 ⟨2⟩ := by
    refine ⟨gathering.take 2, { consoleId := 1, port1 := 2 }, gathering.drop 3, rfl, ?_, ?_, ?_⟩
    all_goals decide +kernel
  have hleft : (((initial false none).run (gathering ++ [.endStream 0])).lobby.console? 0).any
      (fun c => (c.members.get? ⟨1⟩).any fun m => m.status = .done) = true := by decide +kernel
  have hfound : (s'.lobby.lookup? ⟨1⟩).any (fun r => r.1 = 0) = true := by decide +kernel
  have hplugs : (initial false none).successfulPlugs (gathering ++ []) < 0x7fffffffffffffff := by
    decide +kernel
  have hplugs' : (initial false none).successfulPlugs (gathering ++ [.endStream 0] ++ detour)
      < 0x7fffffffffffffff := by decide +kernel
  refine ⟨hsuccess, ?_, ?_⟩
  . rcases (games_start_complete false none gathering [] hplugs).2.1 _ hsuccess with
      ⟨k, c, hlookup, _, _, hall⟩
    have hfind := Lobby.find?_of_lookup? hlookup
    have hk : s.lobby.find? ⟨1⟩ = some 0 := by decide +kernel
    rw [hk, Option.some.injEq] at hfind
    subst hfind
    rcases hall ⟨2⟩ hplugged with ⟨m, i, hm, hstatus, hi, hb, hopen, _⟩
    exact ⟨c, m, i, (Lobby.lookup?_eq_some hlookup).1, hm, hstatus, hi, hb, hopen⟩
  . simp only [Option.any_eq_true, decide_eq_true_eq] at hleft hfound
    rcases hleft with ⟨c, hc, m, hm, hdone⟩
    rcases hfound with ⟨⟨k, c'⟩, hlookup, rfl⟩
    have hnever := (games_start_complete false none (gathering ++ [.endStream 0]) detour hplugs').2.2
    exact hnever 0 c ⟨1⟩ m hc hm hdone { consoleId := 1 } c' hlookup

end Server
end PadRelay
