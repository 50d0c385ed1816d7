import PadRelay.Proofs.Server.Lagging

/-!
This module contains what acts do to the status of a client and to that of its console. A client only
ever moves on, and who is done stays done. Once a console has started nobody is still to become ready,
and once it is over everybody is done.
-/

namespace PadRelay
namespace Member

theorem post_eq_or_done (m : Member) (e : IncomingEvent) (room : Mailroom)
    : (m.post e room).2.1 = m ∨
        ((m.post e room).2.1.status = .done ∧ (m.post e room).2.1.mailbox = none) := by
  rcases post_eq_or_leave m e room with heq | ⟨room', heq⟩
  . exact Or.inl heq
  . rw [heq]
    exact Or.inr ⟨status_leave m room', mailbox_leave m room'⟩

theorem markReady_cases (m : Member)
    : m.markReady = m ∨ (m.status = .created ∧ m.markReady = { m with status := .ready }) := by
  unfold markReady
  split
  . next hcreated => exact Or.inr ⟨hcreated, rfl⟩
  . exact Or.inl rfl

/-- What becomes of a member before its fate: it is marked as ready at most, or it left already. -/
theorem undergo_eq (ready : Bool) (posted : Option IncomingEvent) (fate : Fate) (m : Member)
    (room : Mailroom)
    : ∃ m₁ room',
        (m₁ = m ∨ (ready = true ∧ m.status = .created ∧ m₁ = { m with status := .ready }) ∨
          (m₁.status = .done ∧ m₁.mailbox = none)) ∧
          (m.undergo ready posted fate room).1
            =
          match fate with
          | .stays => m₁
          | .plays => if m₁.status = .done then m₁ else { m₁ with status := .playing }
          | .leaves => (m₁.leave room').1 := by
  unfold undergo
  have hmarked : (if ready then m.markReady else m) = m ∨
      (ready = true ∧ m.status = .created ∧
        (if ready then m.markReady else m) = { m with status := .ready }) := by
    cases ready with
    | false => exact Or.inl rfl
    | true =>
      rcases markReady_cases m with heq | ⟨hcreated, heq⟩
      . exact Or.inl heq
      . exact Or.inr ⟨rfl, hcreated, heq⟩
  generalize (if ready then m.markReady else m) = m₁ at hmarked
  cases posted with
  | none =>
    refine ⟨m₁, room, ?_, by cases fate <;> rfl⟩
    rcases hmarked with heq | hready
    . exact Or.inl heq
    . exact Or.inr (Or.inl hready)
  | some e =>
    refine ⟨(m₁.post e room).2.1, (m₁.post e room).2.2, ?_, by cases fate <;> rfl⟩
    rcases post_eq_or_done m₁ e room with heq | hdone
    . rw [heq]
      rcases hmarked with heq | hready
      . exact Or.inl heq
      . exact Or.inr (Or.inl hready)
    . exact Or.inr (Or.inr hdone)

/--
A member is done and has no mailbox, or it keeps its mailbox and its status moves on as far as the
operation says.
-/
theorem undergo_cases (ready : Bool) (posted : Option IncomingEvent) (fate : Fate) (m : Member)
    (room : Mailroom)
    : let m' := (m.undergo ready posted fate room).1
      (m'.status = .done ∧ m'.mailbox = none) ∨
        (m'.mailbox = m.mailbox ∧
          (m'.status = m.status ∨ (ready = true ∧ m.status = .created ∧ m'.status = .ready) ∨
            (fate = .plays ∧ m'.status = .playing))) := by
  rcases undergo_eq ready posted fate m room with ⟨m₁, room', hbefore, heq⟩
  rw [heq]
  cases fate with
  | stays =>
    rcases hbefore with rfl | ⟨hready, hcreated, rfl⟩ | hdone
    . exact Or.inr ⟨rfl, Or.inl rfl⟩
    . exact Or.inr ⟨rfl, Or.inr (Or.inl ⟨hready, hcreated, rfl⟩)⟩
    . exact Or.inl hdone
  | plays =>
    dsimp
    rcases hbefore with rfl | ⟨_, _, rfl⟩ | hdone
    . split
      . exact Or.inr ⟨rfl, Or.inl rfl⟩
      . exact Or.inr ⟨rfl, Or.inr (Or.inr ⟨rfl, rfl⟩)⟩
    . exact Or.inr ⟨rfl, Or.inr (Or.inr ⟨rfl, rfl⟩)⟩
    . rw [if_pos hdone.1]
      exact Or.inl hdone
  | leaves => exact Or.inl ⟨status_leave m₁ room', mailbox_leave m₁ room'⟩

end Member

namespace Console

/-- The statuses of the members fit that of the console. -/
structure InStep (c : Console) : Prop where
  started : c.status ≠ .created → ∀ id m, c.members.get? id = some m → m.status ≠ .created
  finished : c.status = .done → ∀ id m, c.members.get? id = some m → m.status = .done

theorem status_streamClosed (c : Console) (leaver : ClientId) (room : Mailroom)
    : (c.streamClosed leaver room).1.status = c.status ∨
        (c.status = .powered ∧ (c.streamClosed leaver room).1.status = .done ∧
          ∀ id m, (c.streamClosed leaver room).1.members.get? id = some m → m.status = .done) := by
  unfold streamClosed
  dsimp
  split
  . next hover =>
    rw [status_updateMember] at hover
    simp only [List.all_eq_true, decide_eq_true_eq] at hover
    refine Or.inr ⟨hover.1, rfl, ?_⟩
    intro id m hm
    exact hover.2 m (SortedMap.mem_values_iff.2 ⟨id, hm⟩)
  . exact Or.inl (status_updateMember c leaver Member.leave room)

end Console

namespace Server

/-- The ways in which an act turns member `id`, which is `m`, of the console at position `k`. -/
inductive Turns (s : Server) (k : Nat) (id : ClientId) (m : Member) : Act → Member → Prop
  | keeps {a : Act} {m' : Member} :
    m'.status = m.status → m'.mailbox = m.mailbox → Turns s k id m a m'
  | leaves {a : Act} {m' : Member} :
    m'.status = .done → m'.mailbox = none → Turns s k id m a m'
  | joins {delay : Int32} {requested : List Port} {romHash : String} {m' : Member} :
    m'.status = .created → m'.mailbox = none →
    Turns s k id m (.plug k delay requested romHash) m'
  | binds {i : Nat} {ready : ClientReady} {c : Console} {m' : Member} :
    s.lobby.lookup? ⟨ready.consoleId⟩ = some (k, c) → id = ⟨ready.clientId⟩ → m.mailbox = none →
    m'.status = m.status → Turns s k id m (.bind i ready) m'
  | readies {i : Nat} {e : OutgoingEvent} {m' : Member} :
    s.boundTo i = some ⟨k, id⟩ → m.status = .created → m'.status = .ready →
    m'.mailbox = m.mailbox → Turns s k id m (.handle i e) m'
  | plays {m' : Member} :
    m.status = .ready → m'.status = .playing → m'.mailbox = m.mailbox →
    Turns s k id m (.start k) m'

section Turns

variable {s : Server} {k : Nat} {c c' : Console} {id : ClientId} {m m' : Member} {a : Act}

theorem Treats.turns (ht : s.Treats k id m a m') : s.Turns k id m a m' := by
  cases ht with
  | spare => exact .keeps rfl rfl
  | replace => exact .joins rfl rfl
  | bind hlookup hid hnone => exact .binds hlookup hid hnone rfl
  | @undergo _ ready fate hready hplays =>
    rcases Member.undergo_cases ready (s.addresses k id a) fate m s.room with
      ⟨hdone, hnone⟩ | ⟨hmailbox, hsame | ⟨hmarked, hcreated, hstatus⟩ | ⟨hfate, hstatus⟩⟩
    . exact .leaves hdone hnone
    . exact .keeps hsame hmailbox
    . rcases hready hmarked with ⟨i, e, rfl, hb⟩
      exact .readies hb hcreated hstatus hmailbox
    . rcases hplays hfate with ⟨rfl, hwas⟩
      exact .plays hwas hstatus hmailbox

theorem Turns.status_eq_done (ht : s.Turns k id m a m') (ha : a.isPlug = false)
    (hm : m.status = .done) : m'.status = .done := by
  cases ht with
  | keeps hsame => rw [hsame, hm]
  | leaves hdone => exact hdone
  | joins => simp [Act.isPlug] at ha
  | binds _ _ _ hsame => rw [hsame, hm]
  | readies _ hcreated =>
    rw [hm] at hcreated
    simp at hcreated
  | plays hready =>
    rw [hm] at hready
    simp at hready

theorem Turns.status_ne_created (ht : s.Turns k id m a m') (ha : a.isPlug = false)
    (hm : m.status ≠ .created) : m'.status ≠ .created := by
  cases ht with
  | keeps hsame => rwa [hsame]
  | leaves hdone => simp [hdone]
  | joins => simp [Act.isPlug] at ha
  | binds _ _ _ hsame => rwa [hsame]
  | readies _ hcreated => exact absurd hcreated hm
  | plays _ hplaying => simp [hplaying]

/-- Who was not a member before has just been plugged in. -/
theorem Changes.newcomer (hchanges : s.Changes k c a c') (h : s.Consistent)
    (hc : s.lobby.console? k = some c) (hnone : c.members.get? id = none)
    (hm' : c'.members.get? id = some m')
    : a.isPlug = true ∧ m'.status = .created ∧ m'.mailbox = none := by
  have hsep := h.separate hc
  have hserves : ∀ {f : ClientId → Member → Mailroom → Member × Mailroom}
      {r : Console × Mailroom}, c.Serves f s.room r → r.1.members.get? id = none := by
    intro f r hs
    rw [hs.member, hnone]
    rfl
  cases hchanges with
  | plug =>
    dsimp at hm'
    rw [SortedMap.get?_insert] at hm'
    split at hm'
    . rw [Option.some.injEq] at hm'
      rw [← hm']
      exact ⟨rfl, rfl, rfl⟩
    . rw [hnone] at hm'
      simp at hm'
  | start =>
    rw [hserves (Console.serves_broadcastStart hsep s.room)] at hm'
    simp at hm'
  | stop =>
    rw [hserves (Console.serves_stop hsep s.room)] at hm'
    simp at hm'
  | bind _ hm =>
    dsimp at hm'
    rw [SortedMap.get?_insert] at hm'
    split at hm'
    . next heq =>
      rw [heq, hm] at hnone
      simp at hnone
    . rw [hnone] at hm'
      simp at hm'
  | @handle i e sender =>
    rw [hserves (Console.serves_handle hsep sender e s.room)] at hm'
    simp at hm'
  | @close i leaver =>
    rw [hserves (Console.serves_streamClosed hsep leaver s.room)] at hm'
    simp at hm'

theorem Changes.member_cases (hchanges : s.Changes k c a c') (h : s.Consistent)
    (hc : s.lobby.console? k = some c) (hm' : c'.members.get? id = some m')
    : (a.isPlug = true ∧ m'.status = .created ∧ m'.mailbox = none) ∨
        ∃ m, c.members.get? id = some m ∧ s.Turns k id m a m' := by
  cases hm : c.members.get? id with
  | none => exact Or.inl (hchanges.newcomer h hc hm hm')
  | some m =>
    rcases hchanges.treats h hc hm with ⟨m'', hm'', ht⟩
    rw [hm', Option.some.injEq] at hm''
    subst hm''
    exact Or.inr ⟨m, rfl, ht.turns⟩

theorem Changes.turns (hchanges : s.Changes k c a c') (h : s.Consistent)
    (hc : s.lobby.console? k = some c) (ha : a.isPlug = false)
    (hm' : c'.members.get? id = some m')
    : ∃ m, c.members.get? id = some m ∧ s.Turns k id m a m' := by
  rcases hchanges.member_cases h hc hm' with ⟨hplug, _⟩ | hturns
  . rw [ha] at hplug
    simp at hplug
  . exact hturns

/-- Where a member comes from: it was plugged in right now, or it has turned from what it was. -/
theorem turns_perform (h : s.Consistent) (hc' : (s.perform a).lobby.console? k = some c')
    (hm' : c'.members.get? id = some m')
    : (m'.status = .created ∧ m'.mailbox = none) ∨
        ∃ c m, s.lobby.console? k = some c ∧ c.members.get? id = some m ∧
          s.Turns k id m a m' := by
  cases hc : s.lobby.console? k with
  | none =>
    rw [(console?_perform_of_none hc hc').2] at hm'
    simp at hm'
  | some c =>
    rcases console?_perform_of_some hc a with ⟨c'', hc'', heq⟩
    rw [hc', Option.some.injEq] at hc''
    subst hc''
    rcases heq with rfl | hchanges
    . exact Or.inr ⟨c', m', rfl, hm', .keeps rfl rfl⟩
    . rcases hchanges.member_cases h hc hm' with ⟨_, hnew⟩ | ⟨m, hm, ht⟩
      . exact Or.inl hnew
      . exact Or.inr ⟨c, m, rfl, hm, ht⟩

theorem Changes.inStep_of_status (hchanges : s.Changes k c a c') (h : s.Consistent)
    (hc : s.lobby.console? k = some c) (ha : a.isPlug = false) (hin : c.InStep)
    (hstatus : c'.status = c.status) : c'.InStep := by
  constructor
  . intro hstarted id m' hm'
    rcases hchanges.turns h hc ha hm' with ⟨m, hm, ht⟩
    rw [hstatus] at hstarted
    exact ht.status_ne_created ha (hin.started hstarted id m hm)
  . intro hover id m' hm'
    rcases hchanges.turns h hc ha hm' with ⟨m, hm, ht⟩
    rw [hstatus] at hover
    exact ht.status_eq_done ha (hin.finished hover id m hm)

theorem Changes.inStep (hchanges : s.Changes k c a c') (h : s.Consistent)
    (hc : s.lobby.console? k = some c) (hin : c.InStep) : c'.InStep := by
  cases hchanges with
  | plug hcreated =>
    constructor
    . intro hstarted
      exact absurd hcreated hstarted
    . intro hover
      dsimp at hover
      rw [hcreated] at hover
      simp at hover
  | start hcreated hready =>
    constructor
    . intro _ id m' hm'
      rcases (Changes.start hcreated hready).turns h hc rfl hm' with ⟨m, hm, ht⟩
      apply ht.status_ne_created rfl
      simp [Console.ready_of_allReady hready hm]
    . intro hover
      simp [Console.broadcastStart] at hover
  | stop =>
    have hdone : ∀ id m', (c.stop s.room).1.members.get? id = some m' → m'.status = .done := by
      intro id m' hm'
      rw [(Console.serves_stop (h.separate hc) s.room).member, Option.map_eq_some_iff] at hm'
      rcases hm' with ⟨m, _, rfl⟩
      rfl
    constructor
    . intro _ id m' hm'
      simp [hdone id m' hm']
    . intro _
      exact hdone
  | @bind i _ _ _ hlookup hm hnone =>
    exact (Changes.bind (i := i) hlookup hm hnone).inStep_of_status h hc rfl hin rfl
  | handle hb =>
    exact (Changes.handle hb).inStep_of_status h hc rfl hin (Console.status_handle _ _ _ _)
  | @close i leaver hb =>
    rcases Console.status_streamClosed c leaver s.room with hsame | ⟨_, hover, hdone⟩
    . exact (Changes.close hb).inStep_of_status h hc rfl hin hsame
    . constructor
      . intro _ id m' hm'
        simp [hdone id m' hm']
      . intro _
        exact hdone

theorem inStep_perform (h : s.Consistent)
    (hin : ∀ k c, s.lobby.console? k = some c → c.InStep)
    (hc' : (s.perform a).lobby.console? k = some c') : c'.InStep := by
  cases hc : s.lobby.console? k with
  | none =>
    rcases console?_perform_of_none hc hc' with ⟨hcreated, hempty⟩
    constructor
    . intro hstarted
      exact absurd hcreated hstarted
    . intro hover
      rw [hcreated] at hover
      simp at hover
  | some c =>
    rcases console?_perform_of_some hc a with ⟨c'', hc'', heq⟩
    rw [hc', Option.some.injEq] at hc''
    subst hc''
    rcases heq with rfl | hchanges
    . exact hin k c' hc
    . exact hchanges.inStep h hc (hin k c hc)

end Turns

theorem inStep_run (testMode : Bool) (limit : Option Nat) (ops : List Operation) {k : Nat}
    {c : Console} (hc : ((initial testMode limit).run ops).lobby.console? k = some c)
    : c.InStep := by
  have hinitial : (initial testMode limit).Consistent ∧
      ∀ k c, (initial testMode limit).lobby.console? k = some c → c.InStep := by
    refine ⟨consistent_initial testMode limit, ?_⟩
    intro k c hc
    simp [initial, Lobby.console?] at hc
  have hrun := run_induction
    (P := fun s => s.Consistent ∧ ∀ k c, s.lobby.console? k = some c → c.InStep)
    (fun s a h => ⟨consistent_perform h.1 a, fun k c hc => inStep_perform h.1 h.2 hc⟩)
    hinitial ops
  exact hrun.2 k c hc

end Server
end PadRelay
