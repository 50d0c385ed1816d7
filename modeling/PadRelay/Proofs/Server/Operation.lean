import PadRelay.Server

/-!
This module contains runs of a server. An operation is one call, one thing that happens to a stream, or
one look into a mailbox. Every operation consists of acts, each of which changes one console, one stream
or one mailbox. What acts keep runs keep, in whatever order the acts of several operations come.
-/

namespace PadRelay
namespace Server

inductive Operation where
  | makeConsole (request : MakeConsoleRequest)
  | plugController (request : PlugRequest)
  | startGame (request : StartRequest)
  | shutDown (request : ShutDownRequest)
  | openStream
  | receive (stream : Nat) (event : OutgoingEvent)
  | endStream (stream : Nat)
  | take (stream count : Nat)
  | stopListening (stream : Nat)
deriving DecidableEq

def step (s : Server) : Operation → Server
  | .makeConsole request => (s.makeConsole request).2
  | .plugController request => (s.plugController request).2
  | .startGame request => (s.startGame request).2
  | .shutDown request => (s.shutDownServer request).2
  | .openStream => s.openStream
  | .receive i e => s.receive i e
  | .endStream i => s.endStream i
  | .take i n => (s.take i n).2
  | .stopListening i => s.stopListening i

def run (s : Server) (ops : List Operation) : Server :=
  ops.foldl step s

@[simp]
theorem run_nil (s : Server) : s.run [] = s := rfl

@[simp]
theorem run_cons (s : Server) (op : Operation) (ops : List Operation)
    : s.run (op :: ops) = (s.step op).run ops := rfl

theorem run_append (s : Server) (ops ops' : List Operation)
    : s.run (ops ++ ops') = (s.run ops).run ops' := by
  simp [run]

/-- A server to which nothing has happened yet. -/
def initial (testMode : Bool) (limit : Option Nat) : Server :=
  { testMode, lobby := { limit } }

/-- The smallest changes that operations are made of. -/
inductive Act where
  | create (title romName romHash : String)
  | plug (k : Nat) (delay : Int32) (requested : List Port) (romHash : String)
  | start (k : Nat)
  | stop (k : Nat)
  | openStream
  | reply (i : Nat) (consoleId : Int64) (status : InvalidDataStatus)
  | bind (i : Nat) (ready : ClientReady)
  | handle (i : Nat) (e : OutgoingEvent)
  | close (i : Nat)
  | prune
  | take (i n : Nat)
  | deafen (i : Nat)
  | halt
deriving DecidableEq

def boundTo (s : Server) (i : Nat) : Option Binding :=
  (s.streams[i]?).bind (·.binding)

def closeStream (s : Server) (i : Nat) : Server :=
  match s.streams[i]? with
  | none => s
  | some stream =>
    let closed := s.setStream i { stream with sink := none, isOpen := false, partialFrame := [] }
    match stream.binding with
    | some b =>
      match s.lobby.console? b.console with
      | none => closed
      | some c => closed.update b.console (c.streamClosed b.clientId s.room)
    | none =>
      match stream.sink with
      | none => closed
      | some mailbox => { closed with room := closed.room.closeSender mailbox }

def perform (s : Server) : Act → Server
  | .create title romName romHash => { s with lobby := (s.lobby.create title romName romHash).2 }
  | .plug k delay requested romHash =>
    match s.lobby.console? k with
    | none => s
    | some c =>
      match s.lobby.plug k c delay requested romHash with
      | .error _ => s
      | .ok (_, lobby) => { s with lobby }
  | .start k =>
    match s.lobby.console? k with
    | none => s
    | some c =>
      match c.start s.room with
      | .error _ => s
      | .ok r => s.update k r
  | .stop k =>
    match s.lobby.console? k with
    | none => s
    | some c => s.update k (c.stop s.room)
  | .openStream => s.openStream
  | .reply i consoleId status =>
    match s.streams[i]? with
    | none => s
    | some stream => s.replyAnonymous stream consoleId status
  | .bind i ready =>
    match s.streams[i]? with
    | none => s
    | some stream =>
      match s.bind? i stream ready with
      | .error _ => s
      | .ok (_, s) => s
  | .handle i e =>
    match s.boundTo i with
    | none => s
    | some b => s.dispatch b e
  | .close i => s.closeStream i
  | .prune => { s with lobby := s.lobby.removeFinished }
  | .take i n => (s.take i n).2
  | .deafen i => s.stopListening i
  | .halt => { s with stopping := true }

def performAll (s : Server) (acts : List Act) : Server :=
  acts.foldl perform s

@[simp]
theorem performAll_nil (s : Server) : s.performAll [] = s := rfl

@[simp]
theorem performAll_cons (s : Server) (a : Act) (acts : List Act)
    : s.performAll (a :: acts) = (s.perform a).performAll acts := rfl

theorem performAll_append (s : Server) (acts acts' : List Act)
    : s.performAll (acts ++ acts') = (s.performAll acts).performAll acts' := by
  simp [performAll]

/-- The positions of the consoles that can be found, if the first of the entries has position `k`. -/
def listedFrom (k : Nat) : List LobbyEntry → List Nat
  | [] => []
  | e :: rest => if e.listed then k :: listedFrom (k + 1) rest else listedFrom (k + 1) rest

def acts (s : Server) : Operation → List Act
  | .makeConsole request => [.create request.title request.romName request.romHash]
  | .plugController request =>
    match s.lobby.lookup? ⟨request.consoleId⟩ with
    | none => []
    | some (k, _) => [.plug k request.delayFrames (requestedPorts request) request.romHash]
  | .startGame request =>
    match s.lobby.lookup? ⟨request.consoleId⟩ with
    | none => []
    | some (k, _) => [.start k]
  | .shutDown _ =>
    if s.testMode then (listedFrom 0 s.lobby.consoles).map .stop ++ [.halt] else []
  | .openStream => [.openStream]
  | .receive i e =>
    match s.streams[i]? with
    | none => []
    | some stream =>
      if !stream.isOpen then []
      else
        match stream.binding with
        | some _ => [.handle i e]
        | none =>
          match e.ready with
          | none => [.reply i 0 .clientNotReady]
          | some ready =>
            match s.bind? i stream ready with
            | .error status => [.reply i ready.consoleId status]
            | .ok _ => [.bind i ready, .handle i e]
  | .endStream i =>
    match s.streams[i]? with
    | none => []
    | some stream =>
      if !stream.isOpen then []
      else
        match stream.binding with
        | none => [.close i]
        | some b =>
          match s.lobby.console? b.console with
          | none => [.close i]
          | some c =>
            if (c.streamClosed b.clientId s.room).1.status = .done then [.close i, .prune]
            else [.close i]
  | .take i n => [.take i n]
  | .stopListening i => [.deafen i]

end Server

namespace Lobby

@[simp]
theorem consoles_set (l : Lobby) (k : Nat) (c : Console)
    : (l.set k c).consoles = l.consoles.modify k fun e => { e with console := c } := rfl

theorem console?_eq_some_iff {l : Lobby} {k : Nat} {c : Console}
    : l.console? k = some c ↔ ∃ e, l.consoles[k]? = some e ∧ e.console = c := by
  simp [console?, Option.map_eq_some_iff]

theorem console?_set (l : Lobby) (k j : Nat) (c : Console)
    : (l.set k c).console? j
        =
      if k = j then (l.console? j).map fun _ => c else l.console? j := by
  unfold console?
  rw [consoles_set, List.getElem?_modify]
  split <;> cases l.consoles[j]? <;> rfl

theorem set_set (l : Lobby) (k : Nat) (c c' : Console) : (l.set k c).set k c' = l.set k c' := by
  unfold set
  simp [List.modify_modify_eq, Function.comp_def]

theorem console?_set_self {l : Lobby} {k : Nat} {c : Console} (h : l.console? k = some c)
    (c' : Console) : (l.set k c').console? k = some c' := by
  simp [console?_set, h]

theorem console?_set_of_ne {k j : Nat} (h : k ≠ j) (l : Lobby) (c : Console)
    : (l.set k c).console? j = l.console? j := by
  simp [console?_set, h]

theorem lookup?_eq_some {l : Lobby} {id : ConsoleId} {k : Nat} {c : Console}
    (h : l.lookup? id = some (k, c)) : l.console? k = some c ∧ c.id = id := by
  unfold lookup? at h
  rw [Option.bind_eq_some_iff] at h
  rcases h with ⟨j, hfind, h⟩
  rw [Option.map_eq_some_iff] at h
  rcases h with ⟨c', hc', heq⟩
  rw [Prod.mk.injEq] at heq
  rcases heq with ⟨rfl, rfl⟩
  refine ⟨hc', ?_⟩
  unfold find? at hfind
  rw [List.findIdx?_eq_some_iff_getElem] at hfind
  rcases hfind with ⟨hlt, hmem, _⟩
  rw [console?_eq_some_iff] at hc'
  rcases hc' with ⟨e, he, rfl⟩
  rw [List.getElem?_eq_getElem hlt, Option.some.injEq] at he
  rw [he] at hmem
  simp at hmem
  exact hmem.2

end Lobby

namespace Server

theorem boundTo_eq_some_iff {s : Server} {i : Nat} {b : Binding}
    : s.boundTo i = some b ↔ ∃ stream, s.streams[i]? = some stream ∧ stream.binding = some b := by
  simp [boundTo, Option.bind_eq_some_iff]

theorem modify_append_cons {α : Type} (f : α → α) (l : List α) (x : α) (t : List α)
    : (l ++ x :: t).modify l.length f = l ++ f x :: t := by
  induction l with
  | nil => rfl
  | cons hd tl ih => simp [ih]

/-- Stopping all listed consoles in one go is stopping one after the other. -/
theorem stopListed_eq_performAll (before l : List LobbyEntry) (s : Server)
    (h : s.lobby.consoles = before ++ l)
    : s.performAll ((listedFrom before.length l).map .stop)
        =
      { s with
        lobby := { s.lobby with consoles := before ++ (Lobby.stopListed l s.room).1 }
        room := (Lobby.stopListed l s.room).2 } := by
  induction l generalizing before s with
  | nil =>
    rw [List.append_nil] at h
    simp [listedFrom, Lobby.stopListed, ← h]
  | cons e rest ih =>
    have happ : ∀ x : LobbyEntry, before ++ x :: rest = (before ++ [x]) ++ rest := by simp
    have hlen : ∀ x : LobbyEntry, (before ++ [x]).length = before.length + 1 := by simp
    unfold listedFrom Lobby.stopListed
    dsimp
    split
    . next hlisted =>
      have hcon : s.lobby.console? before.length = some e.console := by
        simp [Lobby.console?, h]
      rw [List.map_cons, performAll_cons]
      have hperform : s.perform (.stop before.length)
          = s.update before.length (e.console.stop s.room) := by
        simp [perform, hcon]
      have hcons : (s.perform (.stop before.length)).lobby.consoles
          = (before ++ [{ e with console := (e.console.stop s.room).1 }]) ++ rest := by
        rw [hperform]
        simp [update, h, modify_append_cons]
      rw [← hlen e, hlen, ← hlen { e with console := (e.console.stop s.room).1 }, ih _ _ hcons,
        hperform]
      simp [update, Lobby.set]
    . next hlisted =>
      rw [happ] at h
      rw [← hlen e, ih _ _ h]
      simp

theorem boundTo_of_bind? {s s' : Server} {i : Nat} {stream : EventStream} {ready : ClientReady}
    {b : Binding} (hstream : s.streams[i]? = some stream)
    (h : s.bind? i stream ready = .ok (b, s')) : s'.boundTo i = some b := by
  have hlt := (List.getElem?_eq_some_iff.1 hstream).1
  unfold bind? at h
  split at h
  . simp at h
  . split at h
    . simp at h
    . split at h
      . simp at h
      . simp only [Except.ok.injEq, Prod.mk.injEq] at h
        rw [← h.2, ← h.1]
        simp [boundTo, setStream, hlt]

theorem receive_eq_performAll (s : Server) (i : Nat) (e : OutgoingEvent)
    : s.receive i e = s.performAll (s.acts (.receive i e)) := by
  simp only [receive, acts]
  cases hstream : s.streams[i]? with
  | none => rfl
  | some stream =>
    dsimp
    split
    . rfl
    . cases hb : stream.binding with
      | some b => simp [perform, boundTo, hstream, hb]
      | none =>
        cases hready : e.ready with
        | none => simp [perform, hstream]
        | some ready =>
          cases hbind : s.bind? i stream ready with
          | error status => simp [perform, hstream, hbind]
          | ok r => simp [perform, hstream, hbind, boundTo_of_bind? hstream hbind]

theorem endStream_eq_performAll (s : Server) (i : Nat)
    : s.endStream i = s.performAll (s.acts (.endStream i)) := by
  simp only [endStream, acts]
  cases hstream : s.streams[i]? with
  | none => rfl
  | some stream =>
    dsimp
    split
    . rfl
    . cases hb : stream.binding with
      | none => cases hsink : stream.sink <;> simp [perform, closeStream, hstream, hb, hsink]
      | some b =>
        cases hc : s.lobby.console? b.console with
        | none => simp [perform, closeStream, hstream, hb, hc]
        | some c =>
          simp only [hc]
          split <;> simp [perform, closeStream, hstream, hb, hc]

theorem shutDown_eq_performAll (s : Server)
    : s.shutDown = s.performAll ((listedFrom 0 s.lobby.consoles).map .stop ++ [.halt]) := by
  have := stopListed_eq_performAll [] s.lobby.consoles s rfl
  simp only [List.length_nil, List.nil_append] at this
  rw [performAll_append, this]
  rfl

theorem step_eq_performAll (s : Server) (op : Operation) : s.step op = s.performAll (s.acts op) := by
  cases op with
  | makeConsole request =>
    simp only [step, acts, makeConsole, performAll_cons, performAll_nil, perform]
    split <;> simp_all
  | plugController request =>
    simp only [step, acts, plugController]
    cases hlookup : s.lobby.lookup? ⟨request.consoleId⟩ with
    | none => rfl
    | some r =>
      have hcon := (Lobby.lookup?_eq_some hlookup).1
      simp only [performAll_cons, performAll_nil, perform, hcon]
      split <;> simp_all
  | startGame request =>
    simp only [step, acts, startGame]
    cases hlookup : s.lobby.lookup? ⟨request.consoleId⟩ with
    | none => rfl
    | some r =>
      have hcon := (Lobby.lookup?_eq_some hlookup).1
      simp only [performAll_cons, performAll_nil, perform, hcon]
      split <;> simp_all
  | shutDown request =>
    simp only [step, acts, shutDownServer]
    split
    . exact shutDown_eq_performAll s
    . rfl
  | openStream => rfl
  | receive i e => exact receive_eq_performAll s i e
  | endStream i => exact endStream_eq_performAll s i
  | take i n => rfl
  | stopListening i => rfl

/-- What every act keeps a run keeps. -/
theorem run_induction {P : Server → Prop} (hstep : ∀ s a, P s → P (s.perform a)) {s : Server}
    (h : P s) (ops : List Operation) : P (s.run ops) := by
  have hacts : ∀ (acts : List Act) (s : Server), P s → P (s.performAll acts) := by
    intro acts
    induction acts with
    | nil => exact fun _ h => h
    | cons a acts ih => exact fun s h => ih _ (hstep s a h)
  induction ops generalizing s with
  | nil => exact h
  | cons op ops ih =>
    rw [run_cons, step_eq_performAll]
    exact ih (hacts _ _ h)

end Server
end PadRelay
