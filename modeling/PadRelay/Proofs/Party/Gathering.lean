import PadRelay.Proofs.Party.Turns
import PadRelay.Proofs.Server.Outset

/-!
This module contains the theory of parties before their game starts. Players have no queues then, so
nobody sends keys, and a stream that belongs to a player is due nothing.
-/

namespace PadRelay

variable {β : Type}

/--
How far a player has come before the game starts: it has its seat, or it has announced that it is ready
and the server is about to receive that, or the server did not accept the announcement, or the stream
belongs to the player. `sent i` is all that stream `i` was due so far.
-/
inductive Player.Stage (s : Server) (sent : Nat → List IncomingEvent) (x : Player β) : Prop
  | seated : x.stream = none → x.outbox = [] → x.flow s = [] → Stage s sent x
  | announced {i : Nat} {e : OutgoingEvent} :
    x.stream = some i → s.boundTo i = none → x.outbox = [e] → e.keys = [] → sent i = [] →
    x.flow s = [] → Stage s sent x
  | refused {i : Nat} :
    x.stream = some i → s.boundTo i = none → x.outbox = [] → (∀ e ∈ x.flow s, e.start = none) →
    Stage s sent x
  | attached {i : Nat} {b : Binding} :
    x.stream = some i → s.boundTo i = some b → x.outbox = [] → sent i = [] → x.flow s = [] →
    Stage s sent x

namespace Player

section Stage

variable {s s' : Server} {sent sent' : Nat → List IncomingEvent} {x x' : Player β}

theorem Stage.starts (h : x.Stage s sent) : ∀ e ∈ x.flow s, e.start = none := by
  cases h with
  | refused _ _ _ hflow => exact hflow
  | seated _ _ hflow => simp [hflow]
  | announced _ _ _ _ _ hflow => simp [hflow]
  | attached _ _ _ _ hflow => simp [hflow]

theorem Stage.silent (h : x.Stage s sent) {e : OutgoingEvent} {rest : List OutgoingEvent}
    (hout : x.outbox = e :: rest) : e.keys = [] := by
  cases h with
  | announced _ _ hsingle hkeys =>
    rw [hout, List.cons.injEq] at hsingle
    rw [hsingle.1]
    exact hkeys
  | seated _ hnil => simp [hout] at hnil
  | refused _ _ hnil => simp [hout] at hnil
  | attached _ _ hnil => simp [hout] at hnil

/-- A player stays at its stage if nothing happens on its stream. -/
theorem Stage.keep (h : x.Stage s sent) (hstream : x'.stream = x.stream)
    (houtbox : x'.outbox = x.outbox) (hflow : List.Sublist (x'.flow s') (x.flow s))
    (hbound : ∀ i, x.stream = some i → s'.boundTo i = s.boundTo i)
    (hsent : ∀ i, x.stream = some i → sent' i = sent i) : x'.Stage s' sent' := by
  have hnil : x.flow s = [] → x'.flow s' = [] := by
    intro heq
    rw [heq] at hflow
    exact List.sublist_nil.1 hflow
  cases h with
  | seated hnone hout heq => exact .seated (hstream.trans hnone) (houtbox.trans hout) (hnil heq)
  | @announced i _ hi hb hout hkeys hs heq =>
    exact .announced (hstream.trans hi) ((hbound i hi).trans hb) (houtbox.trans hout) hkeys
      ((hsent i hi).trans hs) (hnil heq)
  | @refused i hi hb hout hstarts =>
    exact .refused (hstream.trans hi) ((hbound i hi).trans hb) (houtbox.trans hout)
      fun e he => hstarts e (hflow.subset he)
  | @attached i _ hi hb hout hs heq =>
    exact .attached (hstream.trans hi) ((hbound i hi).trans hb) (houtbox.trans hout)
      ((hsent i hi).trans hs) (hnil heq)

theorem Idles.queues {op : Option Server.Operation} (h : x.Idles s op x')
    (hempty : x.game.queues = ∅) (hstarts : ∀ e ∈ x.flow s, e.start = none)
    : x'.game.queues = ∅ := by
  cases h with
  | await ho =>
    rcases (Game.awaitStart?_cases ho).2.2 with ⟨heq, _⟩ | ⟨e, heq, hq⟩
    . exact heq.trans hempty
    . rcases hq with hq | ⟨start, hstart, _⟩
      . exact hq.trans hempty
      . have hmem : e ∈ x.flow s := by
          unfold flow
          rw [heq]
          simp
        rw [hstarts e hmem] at hstart
        simp at hstart
  | _ => exact hempty

end Stage

end Player

namespace Party

/-- What a turn adds to all that stream `i` is due. -/
def dueOn (p : Party β) (t : Turn β) (i : Nat) : List IncomingEvent :=
  Server.trace (Server.due i) p.server (p.server.history (p.effect? t).toList)

/-- What a number of turns add to all that stream `i` is due. -/
def dueAlong [Inhabited β] (coder : Coder β) (p : Party β) (turns : List (Turn β)) (i : Nat) :
    List IncomingEvent :=
  Server.trace (Server.due i) p.server (p.server.history (p.operations coder turns))

/-- The game of the party has not been started. -/
def Waiting (p : Party β) : Prop :=
  ∀ c, p.server.lobby.console? p.console = some c → c.status = .created

/-- A party before its game starts. -/
structure Gathering (sent : Nat → List IncomingEvent) (p : Party β) : Prop where
  convened : p.Convened
  tracked : ∀ i, ∃ read, p.server.Tracked i read (sent i)
  stage : p.Waiting → ∀ (h : Nat) (x : Player β), p.players[h]? = some x →
    x.game.queues = ∅ ∧ x.Stage p.server sent

section Due

variable {p : Party β} {t : Turn β} {i : Nat} {op : Server.Operation}

theorem dueOn_of_none (heffect : p.effect? t = none) : p.dueOn t i = [] := by
  unfold dueOn
  rw [heffect]
  rfl

theorem dueOn_of_some (heffect : p.effect? t = some op)
    : p.dueOn t i = Server.trace (Server.due i) p.server (p.server.acts op) := by
  unfold dueOn
  rw [heffect]
  simp [Server.history]

theorem dues_eq_dueOn {x : Player β} (hi : x.stream = some i)
    : x.dues p.server (p.effect? t) = p.dueOn t i := by
  unfold Player.dues
  rw [hi]
  cases heffect : p.effect? t with
  | none => rw [dueOn_of_none heffect]
  | some op => rw [dueOn_of_some heffect]

theorem dues_of_none {x : Player β} (hnone : x.stream = none)
    : x.dues p.server (p.effect? t) = [] := by
  unfold Player.dues
  rw [hnone]

theorem operates_of_effect? (heffect : p.effect? t = some op)
    : ∃ m, t = .move m ∧ p.Operates m op := by
  cases t with
  | move m => exact ⟨m, rfl, operates_of_operation? heffect⟩
  | put h updates => simp [effect?] at heffect

section Along

variable [Inhabited β] (coder : Coder β)

theorem dueAlong_cons (p : Party β) (t : Turn β) (turns : List (Turn β)) (i : Nat)
    : p.dueAlong coder (t :: turns) i = p.dueOn t i ++ (p.turn coder t).dueAlong coder turns i := by
  unfold dueAlong dueOn
  rw [operations, Server.trace_history_append, ← server_turn coder]

theorem dueAlong_append (p : Party β) (turns turns' : List (Turn β)) (i : Nat)
    : p.dueAlong coder (turns ++ turns') i
        = p.dueAlong coder turns i ++ (p.play coder turns).dueAlong coder turns' i := by
  unfold dueAlong
  rw [operations_append, Server.trace_history_append, ← server_play]

end Along

end Due

section Gather

variable [Inhabited β] {coder : Coder β} {p : Party β} {t : Turn β} {i h : Nat}
variable {sent : Nat → List IncomingEvent} {x x' : Player β}

theorem waiting_of_turn (hconvened : p.Convened) (hwaits : (p.turn coder t).Waiting)
    : p.Waiting := by
  unfold Waiting at hwaits
  rw [server_turn, console_turn] at hwaits
  cases heffect : p.effect? t with
  | none =>
    rw [heffect] at hwaits
    exact hwaits
  | some op =>
    rw [heffect] at hwaits
    exact Server.created_of_step hconvened.seated.consistent hwaits

/-- Only an event on the stream itself can bind it. -/
theorem boundTo_turn (hconvened : p.Convened) (hother : ∀ e, p.effect? t ≠ some (.receive i e))
    : (p.turn coder t).server.boundTo i = p.server.boundTo i := by
  rw [server_turn]
  cases heffect : p.effect? t with
  | none => rfl
  | some op =>
    show (p.server.step op).boundTo i = p.server.boundTo i
    cases hb : p.server.boundTo i with
    | some b => exact Server.boundTo_step hconvened.seated.consistent hb op
    | none =>
      cases hb' : (p.server.step op).boundTo i with
      | none => rfl
      | some b =>
        rcases Server.boundTo_step_cases hb' with hb'' | ⟨e, _, _, _, rfl, _⟩
        . rw [hb] at hb''
          simp at hb''
        . exact absurd heffect (hother e)

theorem Gathering.dueOn_eq_nil (hg : p.Gathering sent) (hwaits : (p.turn coder t).Waiting)
    (hx' : (p.turn coder t).players[h]? = some x') (hi : x'.stream = some i)
    (hreply : (p.turn coder t).server.boundTo i = none → ∀ e, p.effect? t ≠ some (.receive i e))
    : p.dueOn t i = [] := by
  have hconvened := hg.convened
  have hbound := (convened_turn coder hconvened t).seated.bound h x' i
  have hstages := hg.stage (waiting_of_turn hconvened hwaits)
  cases heffect : p.effect? t with
  | none => exact dueOn_of_none heffect
  | some op =>
    have hserver : (p.turn coder t).server = p.server.step op := by
      rw [server_turn, heffect]
      rfl
    unfold Waiting at hwaits
    rw [console_turn] at hwaits hbound
    rw [hserver] at hreply hbound hwaits
    rw [dueOn_of_some heffect]
    apply Server.trace_due_eq_nil hconvened.seated.consistent (k := p.console)
    . intro b hb
      rw [hbound b hx' hi hb]
    . intro hnone e heq
      exact hreply hnone e (heq ▸ heffect)
    . exact hwaits
    . rintro j e b rfl hb hconsole
      rcases operates_of_effect? heffect with ⟨m, rfl, hop⟩
      cases hop with
      | transmit hy _ hout => exact (hstages _ _ hy).2.silent hout
      | serve hpermits =>
        -- Nobody else may send on a stream of this console.
        replace hb : (p.server.receive j e).boundTo j = some b := hb
        unfold permits at hpermits
        dsimp at hpermits
        rw [hb] at hpermits
        simp [hconsole] at hpermits

/-- A player stays at its stage in a turn in which nothing is sent on its stream. -/
theorem Gathering.stage_of_keeps (hg : p.Gathering sent) (hwaits : (p.turn coder t).Waiting)
    (hx' : (p.turn coder t).players[h]? = some x') (hstage : x.Stage p.server sent)
    (hflow : List.Sublist (x'.flow (p.turn coder t).server)
      (x.flow p.server ++ x'.dues p.server (p.effect? t)))
    (hstream : x'.stream = x.stream) (houtbox : x'.outbox = x.outbox)
    (hother : ∀ i, x.stream = some i → ∀ e, p.effect? t ≠ some (.receive i e))
    : x'.Stage (p.turn coder t).server (fun i => sent i ++ p.dueOn t i) := by
  have hquiet : ∀ i, x.stream = some i → p.dueOn t i = [] :=
    fun i hi => hg.dueOn_eq_nil hwaits hx' (hstream.trans hi) fun _ => hother i hi
  refine hstage.keep hstream houtbox ?_ (fun i hi => boundTo_turn hg.convened (hother i hi)) ?_
  . have hdues : x'.dues p.server (p.effect? t) = [] := by
      cases hi : x.stream with
      | none => exact dues_of_none (hstream.trans hi)
      | some i => exact (dues_eq_dueOn (hstream.trans hi)).trans (hquiet i hi)
    rwa [hdues, List.append_nil] at hflow
  . intro i hi
    rw [hquiet i hi, List.append_nil]

theorem Gathering.stage_of_opened (hg : p.Gathering sent) (hwaits : (p.turn coder t).Waiting)
    (hx' : (p.turn coder t).players[h]? = some x') (hstage : x.Stage p.server sent)
    (hflow : List.Sublist (x'.flow (p.turn coder t).server)
      (x.flow p.server ++ x'.dues p.server (p.effect? t)))
    (heffect : p.effect? t = some .openStream) (hnone : x.stream = none)
    (hopened : x'.stream = some p.server.streams.length)
    (houtbox : x'.outbox = x.outbox ++ [x.game.readyEvent])
    : x'.Stage (p.turn coder t).server (fun i => sent i ++ p.dueOn t i) := by
  have hquiet := hg.dueOn_eq_nil hwaits hx' hopened (by simp [heffect])
  -- Nobody has used this stream yet.
  have hsent : sent p.server.streams.length = [] := by
    rcases hg.tracked p.server.streams.length with ⟨read, htracked⟩
    apply (htracked.unopened _).2
    exact List.getElem?_eq_none_iff.2 (Nat.le_of_eq hg.convened.seated.consistent.length)
  have hfree : (p.turn coder t).server.boundTo p.server.streams.length = none := by
    rw [boundTo_turn hg.convened (by simp [heffect])]
    simp [Server.boundTo]
  cases hstage with
  | seated _ hout hnil =>
    rw [dues_eq_dueOn hopened, hquiet, hnil] at hflow
    rw [hout, List.nil_append] at houtbox
    refine .announced hopened hfree houtbox rfl ?_ (List.sublist_nil.1 hflow)
    rw [hsent, hquiet]
    rfl
  | announced hi => simp [hnone] at hi
  | refused hi => simp [hnone] at hi
  | attached hi => simp [hnone] at hi

theorem Gathering.stage_of_transmitted (hg : p.Gathering sent)
    (hwaits : (p.turn coder t).Waiting) (hx' : (p.turn coder t).players[h]? = some x')
    (hstage : x.Stage p.server sent)
    (hflow : List.Sublist (x'.flow (p.turn coder t).server)
      (x.flow p.server ++ x'.dues p.server (p.effect? t)))
    {e : OutgoingEvent} (heffect : p.effect? t = some (.receive i e)) (hi : x.stream = some i)
    (hout : x.outbox = e :: x'.outbox) (hi' : x'.stream = some i)
    : x'.Stage (p.turn coder t).server (fun i => sent i ++ p.dueOn t i) := by
  rw [dues_eq_dueOn hi'] at hflow
  cases hstage with
  | @announced j _ hj _ hsingle _ hsent hnil =>
    rw [hi, Option.some.injEq] at hj
    subst hj
    rw [hout, List.cons.injEq] at hsingle
    rw [hnil, List.nil_append] at hflow
    cases hb : (p.turn coder t).server.boundTo i with
    | some b =>
      have hquiet := hg.dueOn_eq_nil hwaits hx' hi' (by simp [hb])
      rw [hquiet] at hflow
      refine .attached hi' hb hsingle.2 ?_ (List.sublist_nil.1 hflow)
      rw [hsent, hquiet]
      rfl
    | none =>
      refine .refused hi' hb hsingle.2 ?_
      intro e' he'
      have he' := hflow.subset he'
      rw [dueOn_of_some heffect] at he'
      cases Server.carries_of_due hg.convened.seated.consistent he' with
      | nothing hstart _ => exact hstart
      | keys => rfl
      | start hb' =>
        have := Server.boundTo_step hg.convened.seated.consistent hb' (.receive i e)
        rw [server_turn, heffect, Option.toList_some, Server.run_cons, Server.run_nil, this] at hb
        simp at hb
  | seated hnone => simp [hi] at hnone
  | refused _ _ hnil => simp [hout] at hnil
  | attached _ _ hnil => simp [hout] at hnil

theorem Gathering.stage_turn (hg : p.Gathering sent) (hwaits : (p.turn coder t).Waiting)
    (hx' : (p.turn coder t).players[h]? = some x')
    : x'.game.queues = ∅ ∧
        x'.Stage (p.turn coder t).server (fun i => sent i ++ p.dueOn t i) := by
  have hconvened := hg.convened
  rcases flow_turn hconvened.seated hx' with ⟨x, hx, hflow⟩ | ⟨m, rfl, hnew, hnil⟩
  . rcases hg.stage (waiting_of_turn hconvened hwaits) h x hx with ⟨hempty, hstage⟩
    have hidles := idles_of_turn hconvened.seated hx hx' hempty
    refine ⟨hidles.queues hempty hstage.starts, ?_⟩
    have hkeeps := hg.stage_of_keeps hwaits hx' hstage hflow
    generalize heffect : p.effect? t = op at hidles
    cases hidles with
    | ready hnone => exact hg.stage_of_opened hwaits hx' hstage hflow heffect hnone rfl rfl
    | transmit hi hout =>
      exact hg.stage_of_transmitted hwaits hx' hstage hflow heffect hi hout hi
    | rest hspares =>
      apply hkeeps rfl rfl
      rw [heffect]
      exact fun i hi => (hspares i hi).1
    | await _ => exact hkeeps rfl rfl (by simp [heffect])
    | cancel => exact hkeeps rfl rfl (by simp [heffect])
    | hangUp => exact hkeeps rfl rfl (by simp [heffect])
    | deliver _ => exact hkeeps rfl rfl (by simp [heffect])
    | finish => exact hkeeps rfl rfl (by simp [heffect])
  . have hnewcomer := newcomer_step hconvened.seated hnew
    exact ⟨hnewcomer.queues, .seated hnewcomer.stream hnewcomer.outbox hnil⟩

theorem gathering_turn (hg : p.Gathering sent) (t : Turn β)
    : (p.turn coder t).Gathering (fun i => sent i ++ p.dueOn t i) where
  convened := convened_turn coder hg.convened t
  tracked i := by
    rcases hg.tracked i with ⟨read, htracked⟩
    have := Server.tracked_performAll hg.convened.seated.consistent htracked
      (p.server.history (p.effect? t).toList)
    rw [← Server.run_eq_performAll, ← server_turn] at this
    exact ⟨_, this⟩
  stage hwaits h x' hx' := hg.stage_turn hwaits hx'

/-- What every turn keeps a party keeps, and what the streams were due adds up. -/
theorem play_induction {P : (Nat → List IncomingEvent) → Party β → Prop}
    (hstep : ∀ sent p t, P sent p → P (fun i => sent i ++ p.dueOn t i) (p.turn coder t))
    (hP : P sent p) (turns : List (Turn β))
    : P (fun i => sent i ++ p.dueAlong coder turns i) (p.play coder turns) := by
  induction turns generalizing p sent with
  | nil =>
    have hsent : (fun i => sent i ++ p.dueAlong coder [] i) = sent :=
      funext fun i => List.append_nil _
    rw [hsent]
    exact hP
  | cons t turns ih =>
    have hsent : (fun i => sent i ++ p.dueAlong coder (t :: turns) i)
        = fun i => (sent i ++ p.dueOn t i) ++ (p.turn coder t).dueAlong coder turns i := by
      funext i
      rw [dueAlong_cons, List.append_assoc]
    rw [hsent]
    exact ih (hstep sent p t hP)

theorem gathering_play (hg : p.Gathering sent) (turns : List (Turn β))
    : (p.play coder turns).Gathering fun i => sent i ++ p.dueAlong coder turns i :=
  play_induction (P := fun sent p => p.Gathering sent) (fun _ _ t hg => gathering_turn hg t) hg turns

omit [Inhabited β] in
theorem gathering_start (testMode : Bool) (limit : Option Nat) (ops : List Server.Operation)
    : (start (β := β) ((Server.initial testMode limit).run ops)).Gathering fun i =>
        Server.trace (Server.due i) (Server.initial testMode limit)
          ((Server.initial testMode limit).history ops) where
  convened := convened_start testMode limit ops
  tracked i := ⟨_, Server.tracked_run testMode limit ops i⟩
  stage _ h x hx := by simp [start] at hx

end Gather

end Party

end PadRelay
