import PadRelay.Proofs.Server.Players
import PadRelay.Proofs.Server.Register

/-!
This module contains the proof that a client which is done holds no stream, and nobody does whose
console is over, unless a stream names the client as ready although it is done. The server binds such a
stream as long as the console is on the list, since it only looks whether the client holds a stream.
-/

namespace PadRelay
namespace Server

/-- Whether an act binds a stream to a client that is done. -/
def revives (s : Server) (b : Binding) : Act → Bool
  | .bind _ ready =>
    match s.lobby.lookup? ⟨ready.consoleId⟩ with
    | none => false
    | some (k, c) =>
      k = b.console && b.clientId = ⟨ready.clientId⟩ &&
        (c.members.get? b.clientId).any (·.status = .done)
  | _ => false

/-- If the client is done it holds no mailbox. -/
def Departs (s : Server) (b : Binding) : Prop :=
  ∀ c m, s.lobby.console? b.console = some c → c.members.get? b.clientId = some m →
    m.status = .done → m.mailbox = none

section Departs

variable {s : Server} {b : Binding} {a : Act}

theorem Departs.perform (hd : s.Departs b) (h : s.Consistent) (hrevives : s.revives b a = false)
    : (s.perform a).Departs b := by
  intro c' m' hc' hm' hdone
  rcases turns_perform h hc' hm' with ⟨_, hnone⟩ | ⟨c, m, hc, hm, ht⟩
  . exact hnone
  . cases ht with
    | keeps hsame hmailbox =>
      rw [hmailbox]
      apply hd c m hc hm
      rw [← hsame, hdone]
    | leaves _ hnone => exact hnone
    | joins _ hnone => exact hnone
    | binds hlookup hid _ hsame =>
      have hc₁ := (Lobby.lookup?_eq_some hlookup).1
      rw [hc, Option.some.injEq] at hc₁
      rw [hsame] at hdone
      simp [revives, hlookup, ← hid, ← hc₁, hm, hdone] at hrevives
    | readies _ _ hready =>
      rw [hdone] at hready
      simp at hready
    | plays _ hplaying =>
      rw [hdone] at hplaying
      simp at hplaying

theorem Departs.performAll (hd : s.Departs b) (h : s.Consistent) {acts : List Act}
    (hacts : every (fun s a => !s.revives b a) s acts = true) : (s.performAll acts).Departs b := by
  induction acts generalizing s with
  | nil => exact hd
  | cons a acts ih =>
    simp only [every, Bool.and_eq_true, Bool.not_eq_true'] at hacts
    exact ih (hd.perform h hacts.1) (consistent_perform h a) hacts.2

theorem boundTo_receive_of_not_isListed {i : Nat} (hi : s.boundTo i = none)
    (hlisted : s.lobby.isListed b.console = false) (e : OutgoingEvent)
    : (s.receive i e).boundTo i ≠ some b := by
  intro hb
  replace hb : (s.step (.receive i e)).boundTo i = some b := hb
  rcases boundTo_step_cases hb with hb | ⟨_, _, _, _, _, _, hlookup, _⟩
  . rw [hi] at hb
    simp at hb
  . rw [Lobby.isListed_of_lookup? hlookup] at hlisted
    simp at hlisted

/-- Who names a console that is not on the list is refused and stays anonymous. -/
theorem receive_of_find?_eq_none (h : s.Consistent) {i : Nat} {stream : EventStream}
    {e : OutgoingEvent} {ready : ClientReady} (hstream : s.streams[i]? = some stream)
    (hopen : stream.isOpen = true) (hunbound : stream.binding = none)
    (hready : e.ready = some ready) (hfind : s.lobby.find? ⟨ready.consoleId⟩ = none)
    : s.receive i e
        =
      { s with
        room := (s.room.post i
          (refusalEvent (refusal ready.consoleId .unknown .invalidConsole))).2 } := by
  have hsink := h.anonymous i stream hstream hopen hunbound
  have hlookup : s.lobby.lookup? ⟨ready.consoleId⟩ = none := by
    unfold Lobby.lookup?
    rw [hfind]
    rfl
  simp [receive, hstream, hopen, hunbound, hready, bind?, hlookup, replyAnonymous, hsink]

end Departs

/--
A client that is done holds no mailbox, and if its console is over it is done, as long as no stream
names it as ready while it is done and its console is on the list. Until the server is shut down a
console that is over is not on the list. Nobody is ever bound to a client of a console that is not: who
names such a console is refused.
-/
theorem departed_holds_nothing (testMode : Bool) (limit : Option Nat) (ops : List Operation)
    (b : Binding)
    (h : every (fun s a => !s.revives b a) (initial testMode limit)
      ((initial testMode limit).history ops) = true)
    : let s := (initial testMode limit).run ops
      (∀ c m, s.lobby.console? b.console = some c → c.members.get? b.clientId = some m →
        (m.status = .done → m.mailbox = none) ∧
          (c.status = .done → m.status = .done ∧ m.mailbox = none)) ∧
        (∀ c, s.lobby.console? b.console = some c → c.status = .done → s.stopping = false →
          s.lobby.isListed b.console = false) ∧
        (s.lobby.isListed b.console = false → ∀ i e, s.boundTo i = none →
          (s.receive i e).boundTo i ≠ some b) ∧
        ∀ i stream e ready, s.streams[i]? = some stream → stream.isOpen = true →
          stream.binding = none → e.ready = some ready →
          s.lobby.find? ⟨ready.consoleId⟩ = none →
          s.receive i e
            =
          { s with
            room := (s.room.post i
              (refusalEvent (refusal ready.consoleId .unknown .invalidConsole))).2 } := by
  intro s
  have hs : s.Consistent := consistent_run testMode limit ops
  have hdeparts : s.Departs b := by
    have hinitial : (initial testMode limit).Departs b := by
      intro c m hc
      simp [initial, Lobby.console?] at hc
    have hrun := hinitial.performAll (consistent_initial testMode limit) h
    rwa [← run_eq_performAll] at hrun
  refine ⟨?_, ?_, ?_, ?_⟩
  . intro c m hc hm
    refine ⟨hdeparts c m hc hm, ?_⟩
    intro hover
    have hdone := (inStep_run testMode limit ops hc).finished hover b.clientId m hm
    exact ⟨hdone, hdeparts c m hc hm hdone⟩
  . intro c hc hover hgoes
    exact tidy_run testMode limit ops hgoes b.console c hc hover
  . intro hlisted i e hi
    exact boundTo_receive_of_not_isListed hi hlisted e
  . intro i stream e ready hstream hopen hunbound hready hfind
    exact receive_of_find?_eq_none hs hstream hopen hunbound hready hfind

/-- Both players leave, and somebody comes late. -/
def farewell : List Operation :=
  departure ++ [.endStream 1, .openStream]

theorem departed_holds_nothing_farewell
    : let s := (initial false none).run farewell
      let latecomer : OutgoingEvent := { ready := some { consoleId := 1, clientId := 1 } }
      (∃ c m, s.lobby.console? 0 = some c ∧ c.status = .done ∧ c.members.get? ⟨1⟩ = some m ∧
        m.status = .done ∧ m.mailbox = none) ∧
        s.lobby.isListed 0 = false ∧ (s.receive 2 latecomer).boundTo 2 ≠ some ⟨0, ⟨1⟩⟩ ∧
        s.receive 2 latecomer
          =
        { s with
          room := (s.room.post 2 (refusalEvent (refusal 1 .unknown .invalidConsole))).2 } := by
  have hevery : every (fun s a => !s.revives ⟨0, ⟨1⟩⟩ a) (initial false none)
      ((initial false none).history farewell) = true := by decide +kernel
  have hmember : (((initial false none).run farewell).lobby.console? 0).any
      (fun c => c.status = .done && (c.members.get? ⟨1⟩).isSome) = true := by decide +kernel
  have hgoes : ((initial false none).run farewell).stopping = false := by decide +kernel
  rcases departed_holds_nothing false none farewell ⟨0, ⟨1⟩⟩ hevery with
    ⟨hdeparts, htidy, hrefused, hanswer⟩
  simp only [Option.any_eq_true, Bool.and_eq_true, decide_eq_true_eq, Option.isSome_iff_exists]
    at hmember
  rcases hmember with ⟨c, hc, hover, m, hm⟩
  have hlisted := htidy c hc hover hgoes
  refine ⟨⟨c, m, hc, hover, hm, (hdeparts c m hc hm).2 hover⟩, hlisted, ?_, ?_⟩
  . exact hrefused hlisted 2 _ (by decide +kernel)
  . apply hanswer 2 { sink := some 2 } _ { consoleId := 1, clientId := 1 }
    all_goals decide +kernel

/-- The only player leaves before the game has started, and a second stream names it as ready. -/
def returning : List Operation :=
  [.makeConsole {},
    .plugController { consoleId := 1, port1 := 1 },
    .openStream,
    .receive 0 { ready := some { consoleId := 1, clientId := 1 } },
    .endStream 0,
    .openStream,
    .receive 1 { ready := some { consoleId := 1, clientId := 1 } }]

/-- The client is done and holds the mailbox of the second stream. -/
theorem not_departed_holds_nothing
    : ¬ ∀ testMode limit ops k c id m,
        ((initial testMode limit).run ops).lobby.console? k = some c →
          c.members.get? id = some m → m.status = .done → m.mailbox = none := by
  intro hall
  have hmember : (((initial false none).run returning).lobby.console? 0).bind
      (fun c => c.members.get? ⟨1⟩)
        = some { ports := .ofList [.one], delay := 0, status := .done, mailbox := some 1 } := by
    decide +kernel
  rw [Option.bind_eq_some_iff] at hmember
  rcases hmember with ⟨c, hc, hm⟩
  have hnone := hall false none returning 0 c ⟨1⟩ _ hc hm rfl
  simp at hnone

end Server
end PadRelay
