import PadRelay.Proofs.Server.Layout
import PadRelay.Proofs.Server.Readiness

/-!
This module contains the proof that life cycles only move forward. No act takes the status of a console
back, and none takes that of a client back unless somebody else is plugged in with its identifier, which
does not happen before the counter of identifiers has wrapped around.
-/

namespace PadRelay

/-- How far the life of a console has come. -/
def ConsoleStatus.stage : ConsoleStatus → Nat
  | created => 0
  | powered => 1
  | done => 2

theorem ConsoleStatus.eq_done {status : ConsoleStatus} (h : done.stage ≤ status.stage)
    : status = done := by
  cases status with
  | done => rfl
  | _ => exact absurd h (by decide)

/-- How far the life of a client has come. -/
def MemberStatus.stage : MemberStatus → Nat
  | created => 0
  | ready => 1
  | playing => 2
  | done => 3

theorem MemberStatus.stage_le_done (status : MemberStatus) : status.stage ≤ done.stage := by
  cases status <;> decide

theorem MemberStatus.eq_done {status : MemberStatus} (h : done.stage ≤ status.stage)
    : status = done := by
  cases status with
  | done => rfl
  | _ => exact absurd h (by decide)

namespace Server

/-- The console at position `k` has come as far as `status`. -/
def Progressed (s : Server) (k : Nat) (status : ConsoleStatus) : Prop :=
  ∃ c, s.lobby.console? k = some c ∧ status.stage ≤ c.status.stage

/-- Member `id` of the console at position `k` has come as far as `status`. -/
def Advanced (s : Server) (k : Nat) (id : ClientId) (status : MemberStatus) : Prop :=
  ∃ c m, s.lobby.console? k = some c ∧ c.members.get? id = some m ∧ status.stage ≤ m.status.stage

/-- Whether an act plugs a client into the console at position `k` that is named `id`. -/
def Replaces (s : Server) (k : Nat) (id : ClientId) (a : Act) : Prop :=
  (∃ delay requested romHash, a = .plug k delay requested romHash) ∧ id = ⟨s.lobby.clientIds.next⟩

section Perform

variable {s : Server} {k : Nat} {c c' : Console} {id : ClientId} {m m' : Member} {a : Act}

theorem Changes.stage_le (hchanges : s.Changes k c a c') : c.status.stage ≤ c'.status.stage := by
  cases hchanges with
  | plug => exact Nat.le_refl _
  | start hcreated =>
    rw [hcreated]
    exact Nat.zero_le _
  | stop =>
    change c.status.stage ≤ ConsoleStatus.done.stage
    cases c.status <;> decide
  | bind => exact Nat.le_refl _
  | handle => exact Nat.le_of_eq (congrArg _ (Console.status_handle _ _ _ _).symm)
  | @close i leaver =>
    rcases Console.status_streamClosed c leaver s.room with hsame | ⟨hpowered, hdone, _⟩
    . exact Nat.le_of_eq (congrArg _ hsame.symm)
    . rw [hpowered, hdone]
      decide

theorem Treats.stage_le (ht : s.Treats k id m a m') (hkeeps : ¬s.Replaces k id a)
    : m.status.stage ≤ m'.status.stage := by
  cases ht with
  | spare => exact Nat.le_refl _
  | replace heq => exact absurd ⟨⟨_, _, _, rfl⟩, heq⟩ hkeeps
  | bind => exact Nat.le_refl _
  | @undergo _ ready fate _ hplays =>
    rcases Member.undergo_cases ready (s.addresses k id a) fate m s.room with
      ⟨hdone, _⟩ | ⟨_, hsame | ⟨_, hcreated, _⟩ | ⟨hfate, hplaying⟩⟩
    . rw [hdone]
      exact m.status.stage_le_done
    . exact Nat.le_of_eq (congrArg _ hsame.symm)
    . rw [hcreated]
      exact Nat.zero_le _
    . rw [(hplays hfate).2, hplaying]
      decide

theorem Progressed.perform {status : ConsoleStatus} (hp : s.Progressed k status) (a : Act)
    : (s.perform a).Progressed k status := by
  rcases hp with ⟨c, hc, hle⟩
  rcases console?_perform_of_some hc a with ⟨c', hc', rfl | hchanges⟩
  . exact ⟨c', hc', hle⟩
  . exact ⟨c', hc', Nat.le_trans hle hchanges.stage_le⟩

theorem Advanced.perform {status : MemberStatus} (hadv : s.Advanced k id status) (h : s.Consistent)
    (hkeeps : ¬s.Replaces k id a) : (s.perform a).Advanced k id status := by
  rcases hadv with ⟨c, m, hc, hm, hle⟩
  rcases treats_perform h hc hm a with ⟨c', m', hc', hm', ht⟩
  exact ⟨c', m', hc', hm', Nat.le_trans hle (ht.stage_le hkeeps)⟩

end Perform

section Run

variable {s : Server} {k : Nat} {id : ClientId}

/-- Only a request for ports that is served gives an identifier to somebody. -/
theorem not_replaces_of_served {op : Operation} {ops : List Operation}
    (hkeeps : ¬s.PluggedIn (op :: ops) k id) (hserved : s.served op = true) {a : Act}
    (ha : a ∈ s.acts op) : ¬s.Replaces k id a := by
  rintro ⟨⟨delay, requested, romHash, rfl⟩, rfl⟩
  cases op with
  | plugController request =>
    rcases plugs_of_served hserved with ⟨j, c, ports, hlookup, hanswer, _⟩
    unfold acts at ha
    dsimp at ha
    rw [hlookup] at ha
    simp only [List.mem_singleton, Act.plug.injEq] at ha
    rcases ha with ⟨rfl, _⟩
    refine hkeeps ⟨[], request, ops, rfl, Lobby.find?_of_lookup? hlookup, ?_, ?_⟩
    . rw [run_nil, hanswer]
    . rw [run_nil, hanswer]
  | _ => simp [served] at hserved

theorem Advanced.step {status : MemberStatus} (hadv : s.Advanced k id status) (h : s.Consistent)
    {op : Operation} {ops : List Operation} (hkeeps : ¬s.PluggedIn (op :: ops) k id)
    : (s.step op).Advanced k id status := by
  apply step_of_perform_of (Q := fun s a => ¬s.Replaces k id a) (P := fun s => s.Advanced k id status)
  . exact fun _ _ h hkeeps hadv => hadv.perform h hkeeps
  . rintro s a ha ⟨⟨delay, requested, romHash, rfl⟩, _⟩
    simp [Act.isPlug] at ha
  . exact h
  . exact fun hserved a ha => not_replaces_of_served hkeeps hserved ha
  . exact hadv

theorem Advanced.run {status : MemberStatus} (hadv : s.Advanced k id status) (h : s.Consistent)
    {ops : List Operation} (hkeeps : ¬s.PluggedIn ops k id) : (s.run ops).Advanced k id status := by
  induction ops generalizing s with
  | nil => exact hadv
  | cons op ops ih =>
    rw [run_cons]
    exact ih (hadv.step h hkeeps) (consistent_step h op) fun hp => hkeeps (pluggedIn_cons hp)

theorem Progressed.performAll {status : ConsoleStatus} (hp : s.Progressed k status)
    (acts : List Act) : (s.performAll acts).Progressed k status := by
  induction acts generalizing s with
  | nil => exact hp
  | cons a acts ih => exact ih (hp.perform a)

theorem Progressed.run {status : ConsoleStatus} (hp : s.Progressed k status) (ops : List Operation)
    : (s.run ops).Progressed k status := by
  rw [run_eq_performAll]
  exact hp.performAll (s.history ops)

/-- Before the counter wraps around no identifier is given to a second client. -/
theorem not_pluggedIn_of_few {testMode : Bool} {limit : Option Nat} {ops later : List Operation}
    (hfew : (initial testMode limit).successfulPlugs (ops ++ later) < 0x7fffffffffffffff)
    {c : Console} (hc : ((initial testMode limit).run ops).lobby.console? k = some c) {m : Member}
    (hm : c.members.get? id = some m) : ¬((initial testMode limit).run ops).PluggedIn later k id := by
  rintro ⟨before, request, after, rfl, _, hstatus, hid⟩
  rw [successfulPlugs_append, successfulPlugs_append] at hfew
  have hallotted := allotted_run (allotted_initial testMode limit) ops (by omega)
  have hclaim : ((initial testMode limit).run ops).claim? k id = some (m.ports, m.delay) := by
    rw [claim?_of_console? hc, Console.claim?_of_get? hm]
  generalize (initial testMode limit).run ops = s at *
  have hserved : (s.run before).served (.plugController request) = true := by
    simp [served, hstatus]
  rcases plugs_of_served hserved with ⟨j, _, _, _, hanswer, _⟩
  rw [hanswer] at hid
  have hfresh := (allotted_run hallotted before (by omega)).fresh k
  rw [congrArg ClientId.mk hid, claim?_run hallotted before (by omega) hclaim] at hfresh
  simp at hfresh

theorem startGame_of_started {c : Console} {request : StartRequest}
    (hlookup : s.lobby.lookup? ⟨request.consoleId⟩ = some (k, c)) (hstarted : c.status ≠ .created)
    : s.startGame request
        =
      ({ consoleId := request.consoleId,
         status := Enumeration.number StartStatus.unspecifiedFailure }, s) := by
  unfold startGame
  dsimp
  rw [hlookup]
  dsimp
  split
  . rfl
  . next r hr => exact absurd (start_eq_ok hr).1 hstarted

end Run

/--
Of any two states of a run the later one has every console and every client at the same status or at a
later one, so what is done stays done. Only a client whose identifier is drawn once more could start
afresh, and that does not happen before the counter wraps around. A console that was started accepts
neither a client nor a start any more.
-/
theorem life_cycles_move_forward (testMode : Bool) (limit : Option Nat)
    (ops later : List Operation) {k : Nat} {c : Console}
    (hc : ((initial testMode limit).run ops).lobby.console? k = some c)
    : let s₀ := initial testMode limit
      let s := s₀.run ops
      let s' := s₀.run (ops ++ later)
      ∃ c', s'.lobby.console? k = some c' ∧ c.status.stage ≤ c'.status.stage ∧
        (c.status = .done → c'.status = .done) ∧
        (∀ id m, c.members.get? id = some m → ¬s.PluggedIn later k id →
          ∃ m', c'.members.get? id = some m' ∧ m.status.stage ≤ m'.status.stage ∧
            (m.status = .done → m'.status = .done)) ∧
        (s₀.successfulPlugs (ops ++ later) < 0x7fffffffffffffff →
          ∀ id m, c.members.get? id = some m → ¬s.PluggedIn later k id) ∧
        (c.status ≠ .created →
          (∀ request c'', s'.lobby.lookup? ⟨request.consoleId⟩ = some (k, c'') →
            s'.plugController request
              =
            ({ consoleId := request.consoleId,
               status := Enumeration.number PlugStatus.unspecifiedFailure }, s')) ∧
          ∀ request c'', s'.lobby.lookup? ⟨request.consoleId⟩ = some (k, c'') →
            s'.startGame request
              =
            ({ consoleId := request.consoleId,
               status := Enumeration.number StartStatus.unspecifiedFailure }, s')) := by
  intro s₀ s s'
  have hs : s.Consistent := consistent_run testMode limit ops
  have hs' : s' = s.run later := run_append s₀ ops later
  have hprogress : s.Progressed k c.status := ⟨c, hc, Nat.le_refl _⟩
  rcases hs' ▸ hprogress.run later with ⟨c', hc', hle⟩
  refine ⟨c', hc', hle, ?_, ?_, ?_, ?_⟩
  . intro hdone
    rw [hdone] at hle
    exact ConsoleStatus.eq_done hle
  . intro id m hm hkeeps
    have hadv : s.Advanced k id m.status := ⟨c, m, hc, hm, Nat.le_refl _⟩
    rcases hs' ▸ hadv.run hs hkeeps with ⟨c'', m', hc'', hm', hle'⟩
    rw [hc', Option.some.injEq] at hc''
    subst hc''
    refine ⟨m', hm', hle', ?_⟩
    intro hdone
    rw [hdone] at hle'
    exact MemberStatus.eq_done hle'
  . intro hfew id m hm
    exact not_pluggedIn_of_few hfew hc hm
  . intro hstarted
    have hstarted' : c'.status ≠ .created := by
      intro hcreated
      rw [hcreated] at hle
      cases hstatus : c.status with
      | created => exact hstarted hstatus
      | _ =>
        rw [hstatus] at hle
        exact absurd hle (by decide)
    constructor
    . intro request c'' hlookup
      apply (plugController_of_settled hc' hstarted' request).2
      intro j x hfound
      rw [hlookup, Option.some.injEq, Prod.mk.injEq] at hfound
      exact hfound.1.symm
    . intro request c'' hlookup
      have hc'' := (Lobby.lookup?_eq_some hlookup).1
      rw [hc', Option.some.injEq] at hc''
      exact startGame_of_started hlookup (hc'' ▸ hstarted')

/-- The first player leaves and wants to come back, and a third one wants to join. -/
def aftermath : List Operation :=
  [.endStream 0,
    .openStream,
    .receive 2 { ready := some { consoleId := 1, clientId := 1 } },
    .plugController { consoleId := 1, port1 := 3 }]

theorem life_cycles_move_forward_aftermath
    : let ops := gathering ++ [.startGame { consoleId := 1 }]
      let s := (initial false none).run ops
      let s' := (initial false none).run (ops ++ aftermath)
      ∃ c c' m m', s.lobby.console? 0 = some c ∧ s'.lobby.console? 0 = some c' ∧
        c.status = .powered ∧ c.status.stage ≤ c'.status.stage ∧ c.members.get? ⟨1⟩ = some m ∧
        c'.members.get? ⟨1⟩ = some m' ∧ m.status = .playing ∧ m.status.stage ≤ m'.status.stage ∧
        s'.startGame { consoleId := 1 }
          =
        ({ consoleId := 1, status := Enumeration.number StartStatus.unspecifiedFailure }, s') := by
  intro ops s s'
  have hplaying : (s.lobby.console? 0).any (fun c => c.status = .powered &&
      (c.members.get? ⟨1⟩).any fun m => m.status = .playing) = true := by decide +kernel
  have hfew : (initial false none).successfulPlugs (ops ++ aftermath) < 0x7fffffffffffffff := by
    decide +kernel
  have hfound : (s'.lobby.lookup? ⟨1⟩).any (fun r => r.1 = 0) = true := by decide +kernel
  simp only [Option.any_eq_true, decide_eq_true_eq, Bool.and_eq_true] at hplaying hfound
  rcases hplaying with ⟨c, hc, hpowered, m, hm, hplaying⟩
  rcases hfound with ⟨⟨k, c''⟩, hlookup, rfl⟩
  rcases life_cycles_move_forward false none ops aftermath hc with
    ⟨c', hc', hle, _, hmembers, hkeeps, hrefused⟩
  rcases hmembers ⟨1⟩ m hm (hkeeps hfew ⟨1⟩ m hm) with ⟨m', hm', hle', _⟩
  refine ⟨c, c', m, m', hc, hc', hpowered, hle, hm, hm', hplaying, hle', ?_⟩
  exact (hrefused (by simp [hpowered])).2 { consoleId := 1 } c'' hlookup

end Server
end PadRelay
